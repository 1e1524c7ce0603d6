import Polyloom.Term.Round

/-!
Comparisons of terms, and substitution of terms for symbols.

A comparison that two numbers decide is a truth value.  An equation is decided as well when
the two sides are the same term or differ by a number.
-/

namespace Polyloom

inductive Comparison where
  | le
  | lt
  | ge
  | gt
  | eq
  | ne
  deriving DecidableEq, Repr

namespace Comparison

def symbol : Comparison → String
  | .le => "<="
  | .lt => "<"
  | .ge => ">="
  | .gt => ">"
  | .eq => "=="
  | .ne => "!="

def all : List Comparison := [.le, .lt, .ge, .gt, .eq, .ne]

def ofSymbol? (text : String) : Option Comparison := all.find? fun op => op.symbol = text

def holds : Comparison → Rat → Rat → Bool
  | .le, a, b => a ≤ b
  | .lt, a, b => a < b
  | .ge, a, b => b ≤ a
  | .gt, a, b => b < a
  | .eq, a, b => a = b
  | .ne, a, b => a ≠ b

end Comparison

inductive Proposition where
  | truth (b : Bool)
  | compare (op : Comparison) (lhs rhs : Term)
  deriving DecidableEq, Repr, Inhabited

namespace Proposition

def equal? (l r : Term) : Option Bool :=
  if l = r then some true
  else match Term.sub l r with
    | .num q => some (q = 0)
    | _ => none

def ofEquation (l r : Term) : Proposition :=
  match equal? l r with
  | some b => .truth b
  | none => .compare .eq l r

def ofOrder (op : Comparison) (l r : Term) : Except Fault Proposition :=
  match l, r with
  | .infinity, _ | _, .infinity | .undefined, _ | _, .undefined => .error .wrongKind
  | .num a, .num b => .ok (.truth (op.holds a b))
  | _, _ => .ok (.compare op l r)

def of (op : Comparison) (l r : Term) : Except Fault Proposition :=
  match op with
  | .eq => .ok (ofEquation l r)
  | .ne => match equal? l r with
      | some b => .ok (.truth !b)
      | none => .ok (.compare .ne l r)
  | op => ofOrder op l r

def eval (env : String → Rat) : Proposition → Option Bool
  | .truth b => some b
  | .compare op l r => do return op.holds (← l.eval env) (← r.eval env)

end Proposition

namespace Term

mutual

def mentions (p : String → Bool) : Term → Bool
  | .num _ | .infinity | .undefined => false
  | .sym s => p s
  | .sum ts | .prod ts => mentionsAny p ts
  | .pow a b | .mod a b => a.mentions p || b.mentions p
  | .floor a => a.mentions p

def mentionsAny (p : String → Bool) : List Term → Bool
  | [] => false
  | t :: ts => t.mentions p || mentionsAny p ts

end

mutual

/-- Put terms for symbols, all at once; what mentions no such symbol stays as it is. -/
def substitute (table : List (String × Term)) : Term → Except Fault Term
  | .num q => .ok (.num q)
  | .infinity => .ok .infinity
  | .undefined => .ok .undefined
  | .sym s => .ok ((table.lookup s).getD (.sym s))
  | .sum ts => do
    let ts' ← substituteAll table ts
    return if mentionsAny (fun s => (table.lookup s).isSome) ts then add ts' else .sum ts
  | .prod ts => do
    let ts' ← substituteAll table ts
    return if mentionsAny (fun s => (table.lookup s).isSome) ts then mul ts' else .prod ts
  | .pow b e => do return power (← b.substitute table) (← e.substitute table)
  | .floor a => do return floorOf (← a.substitute table)
  | .mod a b => do
    let a' ← a.substitute table
    let b' ← b.substitute table
    if a' = a ∧ b' = b then return .mod a b else modulo a' b'

def substituteAll (table : List (String × Term)) : List Term → Except Fault (List Term)
  | [] => .ok []
  | t :: ts => do return (← t.substitute table) :: (← substituteAll table ts)

end

end Term

/-- Substitution on both sides of a comparison, which is then decided anew. -/
def Proposition.substitute (table : List (String × Term)) : Proposition → Except Fault Proposition
  | .truth b => .ok (.truth b)
  | .compare op l r => do
    let l' ← l.substitute table
    let r' ← r.substitute table
    if l' = l ∧ r' = r then return .compare op l r else Proposition.of op l' r'

end Polyloom
