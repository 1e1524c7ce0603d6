import Polyloom.Constraint.Linear

/-!
Integer solutions of linear facts.

Unknowns are eliminated one at a time.  An equation that mentions an unknown says what it is.
Otherwise, after scaling all its coefficients to a common value, a solution exists iff one
exists that is within a period above a lower bound (or below an upper bound), the period
being the common multiple of the divisors; with no lower (or no upper) bound only the
residues matter.
-/

namespace Polyloom

/-- Values of unknowns; those that are not listed are zero. -/
abbrev Solution := List (Unknown × Int)

def Solution.value (s : Solution) (x : Unknown) : Int := (s.lookup x).getD 0

/-- What the facts say of `y = scale * x`. -/
structure Scope where
  scale : Nat
  /-- Forms `e` with `-e ≤ y`. -/
  lowers : List Linear
  /-- Forms `e` with `y ≤ e`. -/
  uppers : List Linear
  /-- Divisors of `y + e`. -/
  residues : List (Nat × Linear)
  others : List Fact
  deriving Inhabited

namespace Scope

def period (s : Scope) : Nat := s.residues.foldl (fun m (d, _) => Nat.lcm m d) 1

def of (facts : List Fact) (x : Unknown) : Scope :=
  let scale := facts.foldl (fun m f => let c := f.form.coeff x
    if c = 0 then m else Nat.lcm m c.natAbs) 1
  facts.foldr (fun f s =>
      let c := f.form.coeff x
      if c = 0 then { s with others := f :: s.others }
      else
        let k : Nat := scale / c.natAbs
        let rest := (f.form.without x).scale k
        match f with
        | .nonneg _ =>
          if 0 < c then { s with lowers := rest :: s.lowers }
          else { s with uppers := rest :: s.uppers }
        | .divides d _ =>
          { s with residues := (d * k, if 0 < c then rest else rest.neg) :: s.residues }
        | .zero _ => s)
    ⟨scale, [], [], [(scale, .number 0)], []⟩

def replaced (s : Scope) (y : Linear) : List Fact :=
  (s.residues.map fun (d, e) => .divides d (y.add e))
    ++ (s.lowers.map fun e => .nonneg (y.add e))
    ++ (s.uppers.map fun e => .nonneg (e.sub y))
    ++ s.others

def residual (s : Scope) (y : Int) : List Fact :=
  (s.residues.map fun (d, e) => .divides d (e.plus y)) ++ s.others

def cases (s : Scope) : Nat :=
  if s.lowers.isEmpty || s.uppers.isEmpty then s.period
  else Nat.min s.lowers.length s.uppers.length * s.period

def atMost (period : Nat) (j : Int) (bounds : List Int) : Int :=
  match bounds with
  | [] => j
  | b :: rest =>
    let m := rest.foldl min b
    m - (m - j) % period

def atLeast (period : Nat) (j : Int) (bounds : List Int) : Int :=
  match bounds with
  | [] => j
  | b :: rest =>
    let m := rest.foldl max b
    m + (j - m) % period

end Scope

namespace Fact

def unknowns (facts : List Fact) : List Unknown :=
  facts.foldl (fun acc f => f.form.coeffs.foldl (fun acc (x, _) =>
    if x ∈ acc then acc else x :: acc) acc) []

def equation? (facts : List Fact) : Option (Unknown × Int × Linear) :=
  facts.foldl (fun best f =>
    match f with
    | .zero e => e.coeffs.foldl (fun best (x, a) =>
      match best with
      | some (_, b, _) => if a.natAbs < b.natAbs then some (x, a, e.without x) else best
      | none => some (x, a, e.without x)) best
    | _ => best) none

def dropEquation (x : Unknown) (a : Int) (e : Linear) : List Fact → List Fact
  | [] => []
  | f :: rest =>
    match f with
    | .zero g => if g.coeff x = a ∧ g.without x = e then rest else f :: dropEquation x a e rest
    | _ => f :: dropEquation x a e rest

def cheapest? (facts : List Fact) : Option (Unknown × Scope) :=
  (unknowns facts).foldl (fun best x =>
    let s := Scope.of facts x
    match best with
    | some (_, t) => if s.cases < t.cases then some (x, s) else best
    | none => some (x, s)) none

/-- A solution of the facts, if there is one.  Every step eliminates an unknown, so as many
steps as there are unknowns are enough. -/
def solve : Nat → List Fact → Option Solution
  | 0, facts => do
    match ← tidyAll facts with
    | [] => some []
    | _ :: _ => none
  | n + 1, facts => do
    let facts ← tidyAll facts
    match equation? facts with
    | some (x, a, e) =>
      let rest := (dropEquation x a e facts).map (eliminate x a e)
      let s ← solve n (if a.natAbs = 1 then rest else .divides a.natAbs e :: rest)
      return (x, -(e.eval (Solution.value s)) / a) :: s
    | none =>
      match cheapest? facts with
      | none => some []
      | some (x, scope) =>
        let residues := (List.range scope.period).map Int.ofNat
        let k : Int := scope.scale
        if scope.lowers.isEmpty then
          residues.findSome? fun j => do
            let s ← solve n (scope.residual j)
            let y := Scope.atMost scope.period j (scope.uppers.map (Linear.eval (Solution.value s)))
            return (x, y / k) :: s
        else if scope.uppers.isEmpty then
          residues.findSome? fun j => do
            let s ← solve n (scope.residual j)
            let y := Scope.atLeast scope.period j
              (scope.lowers.map fun e => -(e.eval (Solution.value s)))
            return (x, y / k) :: s
        else if scope.lowers.length ≤ scope.uppers.length then
          scope.lowers.findSome? fun e => residues.findSome? fun j => do
            let y := e.neg.plus j
            let s ← solve n (scope.replaced y)
            return (x, y.eval (Solution.value s) / k) :: s
        else
          scope.uppers.findSome? fun e => residues.findSome? fun j => do
            let y := e.plus (-j)
            let s ← solve n (scope.replaced y)
            return (x, y.eval (Solution.value s) / k) :: s

end Fact

def solveFacts (facts : List Fact) : Option Solution :=
  Fact.solve (Fact.unknowns facts).length facts

end Polyloom
