import Polyloom.Script.Syntax

/-!
Programs: source trees read as statements and expressions.

Only part of what a tree can say is a program here; what is not is kept as `unknown` and fails
when it is run.
-/

namespace Polyloom

inductive ComparisonSign where
  | operator (op : BinaryOperator)
  | differs
  deriving DecidableEq, Repr

inductive Expression where
  | name (id : String)
  | constant (d : Datum)
  | list (items : List Expression)
  | tuple (items : List Expression)
  | binary (op : BinaryOperator) (a b : Expression)
  | compare (first : Expression) (rest : List (ComparisonSign × Expression))
  | call (f : Expression) (args : List Expression) (named : List (String × Expression))
  | attribute (of : Expression) (name : String)
  | item (of key : Expression)
  | unknown
  deriving Inhabited

inductive Target where
  | name (id : String)
  | names (ids : List String)
  | item (of key : Expression)
  | unknown
  deriving Inhabited

inductive Statement where
  | function (tree : SourceTree) (annots defaults : List (String × Expression))
      (result : Option Expression)
  | cls (name : String) (bases : List Expression) (body : List Statement)
  | loop (target : Target) (sequence : Expression) (body after : List Statement)
  | branch (test : Expression) (yes no : List Statement)
  | assign (targets : List Target) (value : Expression)
  | result (value : Option Expression)
  | evaluate (value : Expression)
  | nothing
  | unknown
  deriving Inhabited

namespace SourceTree

mutual

def depth : SourceTree → Nat
  | .node _ fields => depthFields fields + 1
  | .list items => depthAll items + 1
  | .leaf _ => 1

def depthFields : List (String × SourceTree) → Nat
  | [] => 0
  | (_, t) :: rest => max t.depth (depthFields rest)

def depthAll : List SourceTree → Nat
  | [] => 0
  | t :: rest => max t.depth (depthAll rest)

end

/-! ## Signs -/

def binaryOperator? (t : SourceTree) : Option BinaryOperator :=
  match t.kind? with
  | some "Add" => some .add
  | some "Sub" => some .sub
  | some "Mult" => some .mul
  | _ => none

def comparisonSign? (t : SourceTree) : Option ComparisonSign :=
  match t.kind? with
  | some "Lt" => some (.operator .lt)
  | some "Gt" => some (.operator .gt)
  | some "LtE" => some (.operator .le)
  | some "GtE" => some (.operator .ge)
  | some "Eq" => some (.operator .eq)
  | some "NotEq" => some .differs
  | _ => none

def datum? : SourceTree → Option Datum
  | .leaf d => some d
  | _ => none

/-! ## Expressions -/

/-- A tree as an expression; `depth` bounds how deep it is looked into. -/
def toExpression : Nat → SourceTree → Expression
  | 0, _ => .unknown
  | depth + 1, t =>
    let part (field : String) := (t.field field).toExpression depth
    let parts (field : String) := (t.field field).items.map (toExpression depth)
    match t.kind? with
    | some "Name" => .name (t.field "id").text
    | some "Constant" => match (t.field "value").datum? with
        | some d => .constant d
        | none => .unknown
    | some "List" => .list (parts "elts")
    | some "Tuple" => .tuple (parts "elts")
    | some "BinOp" => match binaryOperator? (t.field "op") with
        | some op => .binary op (part "left") (part "right")
        | none => .unknown
    | some "Compare" =>
      match (t.field "ops").items.mapM comparisonSign? with
      | some signs => .compare (part "left") (signs.zip (parts "comparators"))
      | none => .unknown
    | some "Call" =>
      .call (part "func") (parts "args") ((t.field "keywords").items.map fun k =>
        ((k.field "arg").text, (k.field "value").toExpression depth))
    | some "Attribute" => .attribute (part "value") (t.field "attr").text
    | some "Subscript" => .item (part "value") (part "slice")
    | _ => .unknown

def expression (t : SourceTree) : Expression := t.toExpression t.depth

def expression? (t : SourceTree) : Option Expression :=
  match t with
  | .leaf _ => none
  | t => some t.expression

/-! ## Statements -/

def target (t : SourceTree) : Target :=
  match t.kind? with
  | some "Name" => .name (t.field "id").text
  | some "Tuple" =>
    match (t.field "elts").items.mapM SourceTree.name? with
    | some ids => .names ids
    | none => .unknown
  | some "Subscript" => .item (t.field "value").expression (t.field "slice").expression
  | _ => .unknown

def paramAnnots (t : SourceTree) : List (String × Expression) :=
  ((t.field "args").field "args").items.filterMap fun p =>
    ((p.field "annotation").expression?).map fun e => ((p.field "arg").text, e)

def paramDefaults (t : SourceTree) : List (String × Expression) :=
  let names := ((t.field "args").field "args").items.map fun p => (p.field "arg").text
  let values := ((t.field "args").field "defaults").items.map expression
  (names.drop (names.length - values.length)).zip values

def toStatement : Nat → SourceTree → Statement
  | 0, _ => .unknown
  | depth + 1, t =>
    let parts (field : String) := (t.field field).items.map (toStatement depth)
    match t.kind? with
    | some "FunctionDef" =>
      .function t t.paramAnnots t.paramDefaults (t.field "returns").expression?
    | some "ClassDef" =>
      .cls (t.field "name").text ((t.field "bases").items.map expression) (parts "body")
    | some "For" =>
      .loop (t.field "target").target (t.field "iter").expression (parts "body") (parts "orelse")
    | some "If" => .branch (t.field "test").expression (parts "body") (parts "orelse")
    | some "Assign" =>
      .assign ((t.field "targets").items.map target) (t.field "value").expression
    | some "Return" => .result (t.field "value").expression?
    | some "Expr" => .evaluate (t.field "value").expression
    | some "Pass" => .nothing
    | _ => .unknown

def statement (t : SourceTree) : Statement := t.toStatement t.depth

def statements (f : SourceTree) : List Statement := (f.field "body").items.map statement

end SourceTree

/-! ## Names -/

def Target.bound : Target → List String
  | .name id => [id]
  | .names ids => ids
  | _ => []

mutual

def Statement.bound : Statement → List String
  | .function tree _ _ _ => [(tree.field "name").text]
  | .cls name _ _ => [name]
  | .loop target _ body after => target.bound ++ boundAll body ++ boundAll after
  | .branch _ yes no => boundAll yes ++ boundAll no
  | .assign targets _ => targets.flatMap Target.bound
  | _ => []

def Statement.boundAll : List Statement → List String
  | [] => []
  | s :: rest => s.bound ++ Statement.boundAll rest

end

end Polyloom
