import Polyloom.Constraint.Solve

/-!
Constraints as linear facts with alternatives, and a search for solutions.

Quotients and remainders by numbers are expressed by a new unknown, the quotient, and the
bounds of the remainder.  Alternatives are tried only when the solution found so far does
not satisfy one of them anyway.
-/

namespace Polyloom

inductive Clause where
  | fact (f : Fact)
  | and (l r : Clause)
  | or (l r : Clause)
  deriving Repr, Inhabited

namespace Clause

def holds (env : Unknown → Int) : Clause → Bool
  | .fact f => f.holds env
  | .and l r => l.holds env && r.holds env
  | .or l r => l.holds env || r.holds env

def never : Clause := .fact (.nonneg (.number (-1)))

def always : Clause := .fact (.nonneg (.number 0))

def split : Clause → List Fact × List (Clause × Clause)
  | .fact f => ([f], [])
  | .and l r =>
    let (fs, os) := l.split
    let (gs, ps) := r.split
    (fs ++ gs, os ++ ps)
  | .or l r => ([], [(l, r)])

def choices : Clause → Nat
  | .fact _ => 0
  | .and l r => l.choices + r.choices
  | .or l r => 1 + l.choices + r.choices

end Clause

/-- A term as a linear form, with the number of quotients used so far and what is known of
the new ones; terms that are not linear have none. -/
def IntTerm.linear : IntTerm → Nat → Option (Linear × Nat × List Fact)
  | .const n, q => some (.number n, q, [])
  | .var s, q => some (.unknown (.name s), q, [])
  | .add l r, q => do
    let (e, q, fs) ← l.linear q
    let (f, q, gs) ← r.linear q
    return (e.add f, q, fs ++ gs)
  | .mul l r, q => do
    let (e, q, fs) ← l.linear q
    let (f, q, gs) ← r.linear q
    if e.coeffs.isEmpty then return (f.scale e.const, q, fs ++ gs)
    else if f.coeffs.isEmpty then return (e.scale f.const, q, fs ++ gs)
    else none
  | .div l r, q => do
    let (e, q, fs) ← l.linear q
    let (f, q, gs) ← r.linear q
    if f.coeffs.isEmpty && f.const ≠ 0 then
      let quotient := Linear.unknown (.quotient q)
      let rest := e.sub (quotient.scale f.const)
      return (quotient, q + 1,
        .nonneg rest :: .nonneg (rest.neg.plus (f.const.natAbs - 1)) :: fs ++ gs)
    else none
  | .mod l r, q => do
    let (e, q, fs) ← l.linear q
    let (f, q, gs) ← r.linear q
    if f.coeffs.isEmpty && f.const ≠ 0 then
      let quotient := Linear.unknown (.quotient q)
      let rest := e.sub (quotient.scale f.const)
      return (rest, q + 1,
        .nonneg rest :: .nonneg (rest.neg.plus (f.const.natAbs - 1)) :: fs ++ gs)
    else none

def Comparison.clause (op : Comparison) (e : Linear) : Clause :=
  match op with
  | .eq => .fact (.zero e)
  | .le => .fact (.nonneg e.neg)
  | .ge => .fact (.nonneg e)
  | .lt => .fact (.nonneg (e.neg.plus (-1)))
  | .gt => .fact (.nonneg (e.plus (-1)))
  | .ne => .or (.fact (.nonneg (e.neg.plus (-1)))) (.fact (.nonneg (e.plus (-1))))

def Comparison.negate : Comparison → Comparison
  | .eq => .ne
  | .ne => .eq
  | .le => .gt
  | .gt => .le
  | .ge => .lt
  | .lt => .ge

def Constraint.clause : Bool → Constraint → Nat → Option (Clause × Nat × List Fact)
  | sign, .truth b, q => some (if b = sign then .always else .never, q, [])
  | sign, .compare op l r, q => do
    let (e, q, fs) ← (l.sub r).linear q
    return ((if sign then op else op.negate).clause e, q, fs)
  | sign, .not c, q => c.clause (!sign) q
  | sign, .and l r, q => do
    let (c, q, fs) ← l.clause sign q
    let (d, q, gs) ← r.clause sign q
    return (if sign then .and c d else .or c d, q, fs ++ gs)
  | sign, .or l r, q => do
    let (c, q, fs) ← l.clause sign q
    let (d, q, gs) ← r.clause sign q
    return (if sign then .or c d else .and c d, q, fs ++ gs)

structure Problem where
  facts : List Fact
  choices : List (Clause × Clause)
  deriving Repr, Inhabited

namespace Problem

/-- The problem that a constraint poses; it has to be linear. -/
def of (c : Constraint) : Option Problem := do
  let (clause, _, fs) ← c.clause true 0
  let (gs, choices) := clause.split
  return ⟨fs ++ gs, choices⟩

def withFact (p : Problem) (f : Fact) : Problem := { p with facts := f :: p.facts }

def violated (s : Solution) :
    List (Clause × Clause) → Option ((Clause × Clause) × List (Clause × Clause))
  | [] => none
  | (l, r) :: rest =>
    if l.holds s.value || r.holds s.value then
      (violated s rest).map fun (found, others) => (found, (l, r) :: others)
    else some ((l, r), rest)

def depth (p : Problem) : Nat :=
  p.choices.foldr (fun (l, r) total => 1 + l.choices + r.choices + total) 0

def search : Nat → Problem → Option Solution
  | 0, p => if p.choices.isEmpty then solveFacts p.facts else none
  | n + 1, p => do
    let s ← solveFacts p.facts
    match violated s p.choices with
    | none => some s
    | some ((l, r), rest) =>
      let try' (c : Clause) :=
        let (fs, os) := c.split
        search n ⟨p.facts ++ fs, rest ++ os⟩
      try' l <|> try' r

def solution? (p : Problem) : Option Solution := p.search p.depth

end Problem

end Polyloom
