/-!
Symbolic arithmetic terms.

Terms are kept in a normal form by the operations of the modules `Sum`, `Product` and
`Round`: sums and products are flat and have at least two members, like members are
collected, and members stand in the order of `Term.before`.  This module holds the type,
its equality and its meaning.
-/

namespace Polyloom

inductive Term where
  | num (value : Rat)
  | sym (name : String)
  | sum (terms : List Term)
  | prod (factors : List Term)
  | pow (base exponent : Term)
  | floor (arg : Term)
  | mod (dividend divisor : Term)
  | infinity
  | undefined
  deriving Repr, Inhabited

namespace Term

/-! ## Equality -/

mutual

def beq : Term → Term → Bool
  | .num p, .num q => p == q
  | .sym s, .sym t => s == t
  | .sum s, .sum t => beqAll s t
  | .prod s, .prod t => beqAll s t
  | .pow a b, .pow c d => beq a c && beq b d
  | .floor a, .floor b => beq a b
  | .mod a b, .mod c d => beq a c && beq b d
  | .infinity, .infinity => true
  | .undefined, .undefined => true
  | _, _ => false

def beqAll : List Term → List Term → Bool
  | [], [] => true
  | s :: ss, t :: ts => beq s t && beqAll ss ts
  | _, _ => false

end

instance : BEq Term := ⟨beq⟩

mutual

theorem eq_of_beq' : ∀ s t : Term, beq s t = true → s = t
  | .num p, t, h => by cases t <;> simp_all [beq]
  | .sym s, t, h => by cases t <;> simp_all [beq]
  | .sum s, t, h => by
    cases t <;> simp only [beq, Bool.false_eq_true] at h
    exact congrArg Term.sum (eq_of_beqAll _ _ h)
  | .prod s, t, h => by
    cases t <;> simp only [beq, Bool.false_eq_true] at h
    exact congrArg Term.prod (eq_of_beqAll _ _ h)
  | .pow a b, t, h => by
    cases t <;> simp only [beq, Bool.false_eq_true, Bool.and_eq_true] at h
    rw [eq_of_beq' _ _ h.1, eq_of_beq' _ _ h.2]
  | .floor a, t, h => by
    cases t <;> simp only [beq, Bool.false_eq_true] at h
    rw [eq_of_beq' _ _ h]
  | .mod a b, t, h => by
    cases t <;> simp only [beq, Bool.false_eq_true, Bool.and_eq_true] at h
    rw [eq_of_beq' _ _ h.1, eq_of_beq' _ _ h.2]
  | .infinity, t, h => by cases t <;> simp_all [beq]
  | .undefined, t, h => by cases t <;> simp_all [beq]

theorem eq_of_beqAll : ∀ s t : List Term, beqAll s t = true → s = t
  | [], t, h => by cases t <;> simp_all [beqAll]
  | a :: s, t, h => by
    cases t <;> simp only [beqAll, Bool.false_eq_true, Bool.and_eq_true] at h
    rw [eq_of_beq' _ _ h.1, eq_of_beqAll _ _ h.2]

end

mutual

theorem beq_self : ∀ t : Term, beq t t = true
  | .num _ | .sym _ | .infinity | .undefined => by simp [beq]
  | .sum ts | .prod ts => by simp [beq, beqAll_self ts]
  | .pow a b | .mod a b => by simp [beq, beq_self a, beq_self b]
  | .floor a => by simp [beq, beq_self a]

theorem beqAll_self : ∀ ts : List Term, beqAll ts ts = true
  | [] => rfl
  | t :: ts => by simp [beqAll, beq_self t, beqAll_self ts]

end

instance : LawfulBEq Term where
  eq_of_beq := eq_of_beq' _ _
  rfl := beq_self _

instance : DecidableEq Term := fun s t =>
  if h : s == t then isTrue (eq_of_beq h) else isFalse fun e => h (e ▸ beq_self s)

/-! ## Parts of a term -/

def zero : Term := .num 0

def one : Term := .num 1

def int (n : Int) : Term := .num n

def coefficient : Term → Rat × Term
  | .prod (.num c :: rest) =>
    (c, match rest with
      | [t] => t
      | ts => .prod ts)
  | t => (1, t)

def summands : Term → List Term
  | .sum terms => terms
  | t => [t]

def multiplicands : Term → List Term
  | .prod factors => factors
  | t => [t]

def basePower : Term → Term × Term
  | .pow b e => (b, e)
  | t => (t, one)

def asInt? : Term → Option Int
  | .num q => if q.den = 1 then some q.num else none
  | _ => none

mutual

def size : Term → Nat
  | .num _ | .sym _ | .infinity | .undefined => 1
  | .sum ts | .prod ts => 1 + sizeAll ts
  | .pow a b | .mod a b => 1 + a.size + b.size
  | .floor a => 1 + a.size

def sizeAll : List Term → Nat
  | [] => 0
  | t :: ts => t.size + sizeAll ts

end

/-! ## Meaning -/

def ratPow? (b : Rat) (e : Rat) : Option Rat :=
  if e.den ≠ 1 then none
  else if 0 ≤ e.num then some (b ^ e.num.toNat)
  else if b = 0 then none
  else some ((1 / b) ^ (-e.num).toNat)

mutual

def eval (env : String → Rat) : Term → Option Rat
  | .num q => some q
  | .sym s => some (env s)
  | .sum ts => evalSum env ts
  | .prod ts => evalProd env ts
  | .pow b e => do ratPow? (← b.eval env) (← e.eval env)
  | .floor a => do return ((← a.eval env).floor : Rat)
  | .mod a b => do
    let p ← a.eval env
    let q ← b.eval env
    if q = 0 then none else return p - q * ((p / q).floor : Rat)
  | .infinity | .undefined => none

def evalSum (env : String → Rat) : List Term → Option Rat
  | [] => some 0
  | t :: ts => do return (← t.eval env) + (← evalSum env ts)

def evalProd (env : String → Rat) : List Term → Option Rat
  | [] => some 1
  | t :: ts => do return (← t.eval env) * (← evalProd env ts)

end

end Term

end Polyloom
