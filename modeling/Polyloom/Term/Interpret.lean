import Polyloom.Term.Printer

/-!
Interpreting terms in other number systems.

An interpretation says what symbols, integers, sums, products, remainders and quotients
mean.  It covers symbols, integers, sums, products, remainders that involve an integer, and
floors of a product whose numeric factor is a unit fraction; every other term is refused.
Members of sums and products are visited in normal order.
-/

namespace Polyloom

structure Interpretation (α : Type) where
  symbol : String → Except Fault α
  literal : Int → α
  add : α → α → Except Fault α
  mul : α → α → Except Fault α
  mod : α → α → Except Fault α
  floorDiv : α → α → Except Fault α

namespace Term

def className : Term → String
  | .num _ => "Number"
  | .sym _ => "Symbol"
  | .sum _ => "Add"
  | .prod _ => "Mul"
  | .pow _ _ => "Pow"
  | .floor _ => "floor"
  | .mod _ _ => "Mod"
  | .infinity => "ComplexInfinity"
  | .undefined => "NaN"

def refusal (t : Term) : Fault :=
  .unsupported s!"unexpected sympy expr {t.className} e={t.text}"

variable {α : Type}

mutual

/-- The value of a term in a target.  Of the two members of a remainder the one that comes
first must be an integer, and it is the divisor. -/
def interpret (I : Interpretation α) : Term → Except Fault α
  | .num q =>
    if q.den = 1 then .ok (I.literal q.num) else .error (.assertion s!"unexpected e={numText q}")
  | .undefined => .error (.assertion "unexpected e=nan")
  | .sym s => I.symbol s
  | .sum (t :: ts) => do interpretSum I ts (← t.interpret I)
  | .prod (t :: ts) => do interpretProd I ts (← t.interpret I)
  | .mod a b =>
    if before b a then
      match b.asInt? with
      | some n => do I.mod (← a.interpret I) (I.literal n)
      | none => .error (.assertion "")
    else
      match a.asInt? with
      | some n => do I.mod (← b.interpret I) (I.literal n)
      | none => .error (.assertion "")
  | .floor (.prod (.num q :: t :: _)) =>
    if q.num = 1 then do I.floorDiv (← t.interpret I) (I.literal q.den)
    else .error (.assertion "")
  | .floor _ => .error (.assertion "")
  | t => .error t.refusal

def interpretSum (I : Interpretation α) : List Term → α → Except Fault α
  | [], acc => .ok acc
  | t :: ts, acc => do interpretSum I ts (← I.add acc (← t.interpret I))

def interpretProd (I : Interpretation α) : List Term → α → Except Fault α
  | [], acc => .ok acc
  | t :: ts, acc => do interpretProd I ts (← I.mul acc (← t.interpret I))

end

end Term

def Interpretation.integers (env : String → Option Int) : Interpretation Int where
  symbol s := match env s with
    | some n => .ok n
    | none => .error .noKey
  literal n := n
  add a b := .ok (a + b)
  mul a b := .ok (a * b)
  mod a b := if b = 0 then .error .divisionByZero else .ok (Int.fmod a b)
  floorDiv a b := if b = 0 then .error .divisionByZero else .ok (Int.fdiv a b)

namespace Proposition

/-- The two sides of a comparison in a target; inequations and truth values are refused. -/
def interpret {α : Type} (I : Interpretation α) : Proposition → Except Fault (Comparison × α × α)
  | .truth b =>
    let name := (truth b).text
    .error (.unsupported s!"unexpected sympy expr Boolean{name} e={name}")
  | .compare .ne l r =>
    .error (.unsupported ("unexpected sympy expr Unequality e=" ++ (compare .ne l r).text))
  | .compare op l r => do
    let a ← l.interpret I
    let b ← r.interpret I
    return (op, a, b)

end Proposition

end Polyloom
