import Polyloom.Term.Interpret

/-!
Integer terms and constraints on them.

Division and remainder are the Euclidean ones: the remainder is never negative.  A quotient by
zero, which the language of solvers leaves open, is zero, and the remainder is then the dividend.
A constraint is a comparison of terms or a Boolean combination of constraints.
-/

namespace Polyloom

inductive IntTerm where
  | const (n : Int)
  | var (name : String)
  | add (l r : IntTerm)
  | mul (l r : IntTerm)
  | div (l r : IntTerm)
  | mod (l r : IntTerm)
  deriving DecidableEq, Repr, Inhabited

namespace IntTerm

def neg (t : IntTerm) : IntTerm := .mul (.const (-1)) t

def sub (l r : IntTerm) : IntTerm := .add l r.neg

def operations : List (String × (IntTerm → IntTerm → IntTerm)) :=
  [("+", .add), ("-", sub), ("*", .mul), ("div", .div), ("mod", .mod)]

def eval (env : String → Int) : IntTerm → Int
  | .const n => n
  | .var s => env s
  | .add l r => l.eval env + r.eval env
  | .mul l r => l.eval env * r.eval env
  | .div l r => l.eval env / r.eval env
  | .mod l r => l.eval env % r.eval env

def vars : IntTerm → List String
  | .const _ => []
  | .var s => [s]
  | .add l r | .mul l r | .div l r | .mod l r => l.vars ++ r.vars

def substitute (table : String → Option IntTerm) : IntTerm → IntTerm
  | .const n => .const n
  | .var s => (table s).getD (.var s)
  | .add l r => .add (l.substitute table) (r.substitute table)
  | .mul l r => .mul (l.substitute table) (r.substitute table)
  | .div l r => .div (l.substitute table) (r.substitute table)
  | .mod l r => .mod (l.substitute table) (r.substitute table)

theorem eval_substitute (table : String → Option IntTerm) (env : String → Int)
    (t : IntTerm) :
    (t.substitute table).eval env =
      t.eval fun s => ((table s).map fun u => u.eval env).getD (env s) := by
  induction t with
  | const n => rfl
  | var s => cases h : table s <;> simp [substitute, eval, h]
  | add l r ihl ihr | mul l r ihl ihr | div l r ihl ihr | mod l r ihl ihr =>
    simp [substitute, eval, ihl, ihr]

end IntTerm

namespace Comparison

def holdsInt : Comparison → Int → Int → Bool
  | .le, a, b => a ≤ b
  | .lt, a, b => a < b
  | .ge, a, b => b ≤ a
  | .gt, a, b => b < a
  | .eq, a, b => a = b
  | .ne, a, b => a ≠ b

end Comparison

inductive Constraint where
  | truth (b : Bool)
  | compare (op : Comparison) (lhs rhs : IntTerm)
  | not (c : Constraint)
  | and (l r : Constraint)
  | or (l r : Constraint)
  deriving DecidableEq, Repr, Inhabited

namespace Constraint

def holds (env : String → Int) : Constraint → Bool
  | .truth b => b
  | .compare op l r => op.holdsInt (l.eval env) (r.eval env)
  | .not c => !c.holds env
  | .and l r => l.holds env && r.holds env
  | .or l r => l.holds env || r.holds env

def vars : Constraint → List String
  | .truth _ => []
  | .compare _ l r => l.vars ++ r.vars
  | .not c => c.vars
  | .and l r | .or l r => l.vars ++ r.vars

def substitute (table : String → Option IntTerm) : Constraint → Constraint
  | .truth b => .truth b
  | .compare op l r => .compare op (l.substitute table) (r.substitute table)
  | .not c => .not (c.substitute table)
  | .and l r => .and (l.substitute table) (r.substitute table)
  | .or l r => .or (l.substitute table) (r.substitute table)

theorem holds_substitute (table : String → Option IntTerm) (env : String → Int)
    (c : Constraint) :
    (c.substitute table).holds env =
      c.holds fun s => ((table s).map fun u => u.eval env).getD (env s) := by
  induction c with
  | truth b => rfl
  | compare op l r => simp [substitute, holds, IntTerm.eval_substitute]
  | not c ih => simp [substitute, holds, ih]
  | and l r ihl ihr | or l r ihl ihr =>
    simp [substitute, holds, ihl, ihr]

def rename (old new : String) (c : Constraint) : Constraint :=
  c.substitute fun s => if s = old then some (.var new) else none

def all : List Constraint → Constraint
  | [] => .truth true
  | [c] => c
  | c :: cs => .and c (all cs)

def any : List Constraint → Constraint
  | [] => .truth false
  | [c] => c
  | c :: cs => .or c (any cs)

theorem holds_all (env : String → Int) (cs : List Constraint) :
    (all cs).holds env = cs.all fun c => c.holds env := by
  induction cs with
  | nil => rfl
  | cons c cs ih =>
    cases cs with
    | nil => simp [all]
    | cons d ds => simp [all, holds, ih]

def equals (t : IntTerm) (n : Int) : Constraint := .compare .eq t (.const n)

def differs (t : IntTerm) (n : Int) : Constraint := .compare .ne t (.const n)

end Constraint

def Interpretation.terms : Interpretation IntTerm where
  symbol s := .ok (.var s)
  literal n := .const n
  add a b := .ok (.add a b)
  mul a b := .ok (.mul a b)
  mod a b := .ok (.mod a b)
  floorDiv a b := .ok (.div a b)

def Proposition.toConstraint (p : Proposition) : Except Fault Constraint := do
  let (op, a, b) ← p.interpret .terms
  return .compare op a b

end Polyloom
