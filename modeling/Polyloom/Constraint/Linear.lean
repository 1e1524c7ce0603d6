import Polyloom.Constraint.Basic

/-!
Linear forms over integer unknowns, and the facts that a system of them states.
-/

namespace Polyloom

/-- An unknown integer: a named variable, or the quotient of a division. -/
inductive Unknown where
  | name (s : String)
  | quotient (number : Nat)
  deriving DecidableEq, Repr, Inhabited

structure Linear where
  coeffs : List (Unknown × Int)
  const : Int
  deriving DecidableEq, Repr, Inhabited

namespace Linear

def number (n : Int) : Linear := ⟨[], n⟩

def unknown (x : Unknown) : Linear := ⟨[(x, 1)], 0⟩

def addCoeff (x : Unknown) (c : Int) : List (Unknown × Int) → List (Unknown × Int)
  | [] => if c = 0 then [] else [(x, c)]
  | (y, d) :: rest =>
    if y = x then (if d + c = 0 then rest else (y, d + c) :: rest)
    else (y, d) :: addCoeff x c rest

def add (e f : Linear) : Linear :=
  ⟨f.coeffs.foldl (fun acc (x, c) => addCoeff x c acc) e.coeffs, e.const + f.const⟩

def scale (c : Int) (e : Linear) : Linear :=
  if c = 0 then number 0 else ⟨e.coeffs.map fun (x, d) => (x, c * d), c * e.const⟩

def neg (e : Linear) : Linear := scale (-1) e

def sub (e f : Linear) : Linear := add e f.neg

def plus (e : Linear) (n : Int) : Linear := ⟨e.coeffs, e.const + n⟩

def coeff (e : Linear) (x : Unknown) : Int := (e.coeffs.lookup x).getD 0

def without (e : Linear) (x : Unknown) : Linear := ⟨e.coeffs.filter fun (y, _) => y ≠ x, e.const⟩

def eval (env : Unknown → Int) (e : Linear) : Int :=
  e.coeffs.foldr (fun (x, c) total => c * env x + total) e.const

def content (e : Linear) : Nat := e.coeffs.foldl (fun g (_, c) => Nat.gcd g c.natAbs) 0

end Linear

inductive Fact where
  | zero (e : Linear)
  | nonneg (e : Linear)
  | divides (d : Nat) (e : Linear)
  deriving DecidableEq, Repr, Inhabited

namespace Fact

def form : Fact → Linear
  | .zero e | .nonneg e | .divides _ e => e

def holds (env : Unknown → Int) : Fact → Bool
  | .zero e => e.eval env = 0
  | .nonneg e => 0 ≤ e.eval env
  | .divides d e => e.eval env % d = 0

/-- A fact with common divisors taken out, `some none` if it always holds and `none` if it
never does. -/
def tidy : Fact → Option (Option Fact)
  | .zero e =>
    let g := e.content
    if g = 0 then (if e.const = 0 then some none else none)
    else if e.const % g ≠ 0 then none
    else some (some (.zero ⟨e.coeffs.map fun (x, c) => (x, c / g), e.const / g⟩))
  | .nonneg e =>
    let g := e.content
    if g = 0 then (if 0 ≤ e.const then some none else none)
    else some (some (.nonneg ⟨e.coeffs.map fun (x, c) => (x, c / g), Int.fdiv e.const g⟩))
  | .divides d e =>
    let small := (e.coeffs.map fun (x, c) => (x, c % d)).filter fun (_, c) => c ≠ 0
    let g := small.foldl (fun g (_, c) => Nat.gcd g c.natAbs) d
    if g = 0 then (if e.const = 0 then some none else none)
    else if e.const % g ≠ 0 then none
    else if d / g = 1 then some none
    else some (some (.divides (d / g) ⟨small.map fun (x, c) => (x, c / g), (e.const % d) / g⟩))

def tidyAll : List Fact → Option (List Fact)
  | [] => some []
  | f :: rest => do
    let f' ← f.tidy
    let rest' ← tidyAll rest
    return match f' with
      | some g => g :: rest'
      | none => rest'

/-- A fact about what stands for `a * x`, which is `-e`: the fact is multiplied by `|a|`. -/
def eliminate (x : Unknown) (a : Int) (e : Linear) (f : Fact) : Fact :=
  let b := f.form.coeff x
  if b = 0 then f
  else
    let form := ((f.form.without x).scale a.natAbs).add (e.scale (-(b * a.sign)))
    match f with
    | .zero _ => .zero form
    | .nonneg _ => .nonneg form
    | .divides d _ => .divides (d * a.natAbs) form

end Fact

end Polyloom
