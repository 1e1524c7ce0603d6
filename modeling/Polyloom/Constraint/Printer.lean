import Polyloom.Constraint.Optimum
import Polyloom.Constraint.Row

/-!
The text of simplified constraints.

Summands stand in the order in which their atoms first came up.
-/

namespace Polyloom

namespace IntTerm

def binding : IntTerm → Nat
  | .const _ | .var _ => 0
  | .mul _ _ | .div _ _ | .mod _ _ => 2
  | .add _ _ => 3

def text : IntTerm → String
  | .const n => n.repr
  | .var s => s
  | .add l r => l.text ++ " + " ++ r.text
  | .mul l r =>
    let side (t : IntTerm) (s : String) : String := match t with
      | .div _ _ | .mod _ _ | .add _ _ => "(" ++ s ++ ")"
      | _ => s
    side l l.text ++ "*" ++ side r r.text
  | .div l r =>
    let side (t : IntTerm) (s : String) : String := if t.binding = 0 then s else "(" ++ s ++ ")"
    side l l.text ++ "/" ++ side r r.text
  | .mod l r =>
    let side (t : IntTerm) (s : String) : String := if t.binding = 0 then s else "(" ++ s ++ ")"
    side l l.text ++ "%" ++ side r r.text

end IntTerm

namespace Reduced

def arrange (order : List IntTerm) : Reduced → Reduced
  | .truth b => .truth b
  | .row r =>
    let rank (m : AtomProduct) : Nat :=
      (m.map fun a => order.idxOf a).foldl max 0
    .row { r with terms := r.terms.mergeSort fun a b => rank a.1 ≤ rank b.1 }
  | .not c => .not (c.arrange order)
  | .and l r => .and (l.arrange order) (r.arrange order)
  | .or l r => .or (l.arrange order) (r.arrange order)

def opText : RowOp → String
  | .eq => " == "
  | .le => " <= "
  | .ge => " >= "

/-- The text of a constraint; inside a conjunction or disjunction, one of the same kind goes on
with the list. -/
def textIn (inAnd inOr : Bool) : Reduced → String
  | .truth true => "True"
  | .truth false => "False"
  | .row r => (IntPoly.toTerm r.terms).text ++ opText r.op ++ r.const.repr
  | .not c => "Not(" ++ textIn false false c ++ ")"
  | .and l r =>
    let inner := textIn true false l ++ ", " ++ textIn true false r
    if inAnd then inner else "And(" ++ inner ++ ")"
  | .or l r =>
    let inner := textIn false true l ++ ", " ++ textIn false true r
    if inOr then inner else "Or(" ++ inner ++ ")"

def text (c : Reduced) : String := textIn false false c

end Reduced

def bracedLines (items : List String) : List String :=
  let last := items.length - 1
  "" :: "\x7b" :: items.zipIdx.map (fun (s, i) => "  " ++ s ++ if i < last then ", " else "") ++
    ["\x7d"]

def constraintLines (cs : List Constraint) : List String :=
  let order := Constraint.termOrder cs
  let text (c : Constraint) : String := ((c.orient order).reduce.arrange order).text
  match cs with
  | a :: b :: rest => bracedLines ((b :: a :: rest).map text)
  | cs => bracedLines (cs.map text)

end Polyloom
