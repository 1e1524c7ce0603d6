import Polyloom.Constraint.Printer
import Polyloom.Text.SymbolName

/-!
Linear constraints as a table.

Every variable has a column, every constraint a row with its coefficients, its relation and
its number; at-most rows are turned into at-least rows.  Columns of chosen variables can be
moved to the end.
-/

namespace Polyloom

inductive TableauRelation where
  | equal
  | atLeast
  deriving DecidableEq, Repr, Inhabited

structure TableauRow where
  coeffs : List Int
  relation : TableauRelation
  const : Int
  deriving DecidableEq, Repr, Inhabited

structure Tableau where
  columns : List String
  rows : List TableauRow
  deriving DecidableEq, Repr, Inhabited

namespace TableauRow

def put (columns : List String) (name : String) (c : Int) (coeffs : List Int) : List Int :=
  List.zipWith (fun s d => if s = name then c else d) columns coeffs

/-- The entry that a summand has in a row; a row that is turned around only turns the entries
of bare variables. -/
def entry (turned : Bool) (summand : AtomProduct × Int) : Except Fault (Option (String × Int)) :=
  let names := (distinct (summand.1.flatMap IntTerm.vars))
  match names with
  | [] => .error .outOfRange
  | [x] =>
    match summand with
    | ([.var _], 1) => .ok (some (x, if turned then -1 else 1))
    | ([_], 1) | ([_, _], 1) =>
      .error (.badValue ("invalid literal for int() with base 10: '" ++ firstPart summand.1 ++ "'"))
    | ([_], c) => .ok (some (x, c))
    | _ => .ok none
  | _ => .error (.assertion ("unexpected number of syms: syms=[" ++ ", ".intercalate names ++ "]"))
where
  firstPart : AtomProduct → String
    | [.div l _] | [.mod l _] => l.text
    | a :: _ => a.text
    | [] => ""

def entries (turned : Bool) : IntPoly → Except Fault (List (String × Int))
  | [] => .ok []
  | s :: rest => do
    match ← entry turned s with
    | some e => return e :: (← entries turned rest)
    | none => entries turned rest

/-- The summands that the left side of a row is read as.  What stands alone and is no variable
is read part by part. -/
def summands : IntPoly → IntPoly
  | [([.div l r], 1)] | [([.mod l r], 1)] =>
    [([l], 1), (match r with | .const _ => [] | r => [r], 1)]
  | [([a, b], 1)] => [([a], 1), ([b], 1)]
  | terms => terms

def ofRow (columns : List String) (row : Row) : Except Fault TableauRow := do
  let turned := row.op = .le
  let es ← entries turned (summands row.terms)
  let coeffs := es.foldl (fun acc (x, c) => put columns x c acc) (columns.map fun _ => 0)
  return {
    coeffs
    relation := if row.op = .eq then .equal else .atLeast
    const := if turned then -row.const else row.const }

end TableauRow

namespace Tableau

/-- Variables with a tick come last; otherwise names are in order. -/
def columnBefore (a b : String) : Bool :=
  let key (s : String) : Nat × String :=
    if s.endsWith "'" then (1, String.ofList s.toList.dropLast) else (0, s)
  let (i, s) := key a
  let (j, t) := key b
  i < j || (i = j && s ≤ t)

def columnsOf (cs : List Constraint) : List String :=
  (distinct (cs.flatMap Constraint.vars)).mergeSort columnBefore

def rowOf (columns : List String) : Reduced → Except Fault TableauRow
  | .row r => TableauRow.ofRow columns r
  | .and _ (.and r _) | .or _ (.or r _) | .and _ r | .or _ r =>
    .error (.assertion ("not const rhs " ++ r.text))
  | .truth _ | .not _ => .error .illFormed

def ofConstraints (cs : List Constraint) : Except Fault Tableau := do
  let columns := columnsOf cs
  let order := Constraint.termOrder cs
  let rows ← cs.mapM fun c => rowOf columns (c.orient order).reduce
  return ⟨columns, rows⟩

def moveColumn (i : Nat) (t : Tableau) : Tableau :=
  let move {α : Type} (xs : List α) : List α := xs.eraseIdx i ++ (xs[i]?).toList
  ⟨move t.columns, t.rows.map fun r => { r with coeffs := move r.coeffs }⟩

def columnIndex (t : Tableau) (name : String) : Except Fault Nat :=
  match t.columns.idxOf? name with
  | some i => .ok i
  | none => .error .noKey

/-- Move the columns of some variables to the end, the last column first. -/
def moveColumns (names : List String) (t : Tableau) : Except Fault Tableau := do
  let positions ← names.mapM t.columnIndex
  return (positions.eraseDups.mergeSort fun i j => j ≤ i).foldl (fun t i => t.moveColumn i) t

/-! ## Text -/

def relationText : TableauRelation → String
  | .equal => "=="
  | .atLeast => ">="

def entryText (times : String) (name : String) : Int → String
  | 0 => "0"
  | 1 => name
  | -1 => "-" ++ name
  | c => c.repr ++ times ++ name

def cells (t : Tableau) : List (List String) :=
  let names := t.columns.map Text.prettySymbol
  (names ++ ["", "const"]) :: t.rows.map fun r =>
    List.zipWith (entryText "⋅") names r.coeffs ++ [relationText r.relation, r.const.repr]

def spaces (n : Nat) : String := String.ofList (List.replicate n ' ')

def centred (width : Nat) (s : String) : String :=
  let gap := width - s.length
  spaces (gap / 2) ++ s ++ spaces (gap - gap / 2)

def widths (rows : List (List String)) : List Nat :=
  rows.foldl (fun acc row =>
      List.zipWith max acc (row.map String.length))
    ((rows.head?.getD []).map fun _ => 0)

def bracketed (rows : List (List String)) : List String :=
  let ws := widths rows
  let lines := rows.map fun row => "  ".intercalate (List.zipWith centred ws row)
  let blank := spaces ((lines.head?.getD "").length)
  match lines.intersperse blank with
  | [line] => ["[" ++ line ++ "]"]
  | lines =>
    let last := lines.length - 1
    lines.zipIdx.map fun (line, i) =>
      if i = 0 then "⎡" ++ line ++ "⎤"
      else if i = last then "⎣" ++ line ++ "⎦"
      else "⎢" ++ line ++ "⎥"

/-- Lines of at most the given width: what is too long goes on further below. -/
def wrapped (width : Nat) (lines : List String) : Nat → List String
  | 0 => lines
  | fuel + 1 =>
    if lines.all fun l => l.length ≤ width then lines
    else
      let first := lines.map fun l => String.ofList (l.toList.take width)
      let rest := lines.map fun l => String.ofList (l.toList.drop width)
      first ++ "" :: wrapped width rest fuel

def pageWidth : Nat := 80

def rowText (columns : List String) (r : TableauRow) : String :=
  " + ".intercalate (List.zipWith (entryText "*") columns r.coeffs)
    ++ relationText r.relation ++ r.const.repr ++ ", "

def lines (t : Tableau) : List String :=
  let table := bracketed t.cells
  "" :: wrapped pageWidth table (table.headD "").length
    ++ t.rows.map (rowText t.columns) ++ [""]

end Tableau

end Polyloom
