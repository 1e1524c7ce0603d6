import Polyloom.Term.Interpret

/-!
Expressions as they are written, before they are brought into normal form.

An operator with several arguments is applied from left to right.
-/

namespace Polyloom

inductive ArithOp where
  | add
  | sub
  | mul
  | div
  | floorDiv
  | mod
  | pow
  deriving DecidableEq, Repr

namespace ArithOp

def symbol : ArithOp → String
  | .add => "+"
  | .sub => "-"
  | .mul => "*"
  | .div => "/"
  | .floorDiv => "//"
  | .mod => "%"
  | .pow => "**"

def all : List ArithOp := [.add, .sub, .mul, .div, .floorDiv, .mod, .pow]

def ofSymbol? (text : String) : Option ArithOp := all.find? fun op => op.symbol = text

end ArithOp

inductive Written where
  | int (n : Int)
  | sym (name : String)
  | truth (b : Bool)
  | arith (op : ArithOp) (args : List Written)
  | compare (op : Comparison) (args : List Written)
  deriving Repr, Inhabited

inductive Denotation where
  | term (t : Term)
  | prop (p : Proposition)
  deriving DecidableEq, Repr, Inhabited

namespace Denotation

def proposition : Denotation → Except Fault Proposition
  | .prop p => .ok p
  | .term _ => .error .wrongKind

def apply (op : ArithOp) : Denotation → Denotation → Except Fault Denotation
  | .term s, .term t =>
    match op with
    | .add => .ok (.term (Term.add [s, t]))
    | .sub => .ok (.term (Term.sub s t))
    | .mul => .ok (.term (Term.mul [s, t]))
    | .div => .ok (.term (Term.div s t))
    | .pow => .ok (.term (Term.power s t))
    | .floorDiv => (Term.floorDiv s t).map .term
    | .mod => (Term.modulo s t).map .term
  | _, _ => .error .wrongKind

def applyAll (op : ArithOp) : Denotation → List Denotation → Except Fault Denotation
  | acc, [] => .ok acc
  | acc, d :: rest => do applyAll op (← acc.apply op d) rest

def relate (op : Comparison) : List Denotation → Except Fault Denotation
  | [.term s, .term t] => (Proposition.of op s t).map .prop
  | _ => .error .wrongKind

end Denotation

namespace Written

mutual

/-- The normal form of an expression.  A difference of one argument is its negative. -/
def denote : Written → Except Fault Denotation
  | .int n => .ok (.term (Term.int n))
  | .sym s => .ok (.term (.sym s))
  | .truth b => .ok (.prop (.truth b))
  | .arith op args => do
    match op, ← denoteAll args with
    | .sub, [.term t] => return .term t.neg
    | _, [] => .error .outOfRange
    | _, d :: rest => Denotation.applyAll op d rest
  | .compare op args => do Denotation.relate op (← denoteAll args)

def denoteAll : List Written → Except Fault (List Denotation)
  | [] => .ok []
  | w :: ws => do return (← w.denote) :: (← denoteAll ws)

end

end Written

def Denotation.evalInt (env : String → Option Int) : Denotation → Except Fault (Int ⊕ Bool)
  | .term t => (t.interpret (.integers env)).map .inl
  | .prop p => do
    let (op, a, b) ← p.interpret (.integers env)
    return .inr (op.holds a b)

end Polyloom
