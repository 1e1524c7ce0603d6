import Polyloom.Constraint.Optimum

/-!
Finding values of some variables that satisfy constraints for all values of the others.

A candidate is refuted by values of the universal variables; the constraints at these
values are then required of all later candidates.
-/

namespace Polyloom

inductive SynthesisAnswer where
  | witness (m : Model)
  | impossible
  | undecided
  deriving DecidableEq, Repr, Inhabited

/-- A search that has ended: the candidates that were proposed, and the answer. -/
structure Synthesis where
  candidates : List Model
  answer : SynthesisAnswer
  deriving DecidableEq, Repr, Inhabited

def Constraint.instantiate (m : Model) (names : List String) (c : Constraint) : Constraint :=
  c.substitute fun s => if s ∈ names then some (.const (m.value s)) else none

def existentials (c : Constraint) (universals : List String) : List String :=
  (distinct c.vars).filter fun s => s ∉ universals

/-- Propose candidates and refute them, for a number of rounds after those already made. -/
def Synthesis.searchFrom (proposer refuter : IncrementalSolver) (c : Constraint)
    (xs ys : List String) : Nat → Nat → List Constraint → Synthesis
  | 0, _, _ => ⟨[], .undecided⟩
  | rounds + 1, made, required =>
    match proposer.check made required with
    | none => ⟨[], .impossible⟩
    | some candidate =>
      match refuter.check made [.not (c.instantiate candidate xs)] with
      | none => ⟨[candidate], .witness (xs.map fun x => (x, candidate.value x))⟩
      | some refutation =>
        let later := searchFrom proposer refuter c xs ys rounds (made + 1)
          (required ++ [c.instantiate refutation ys])
        ⟨candidate :: later.candidates, later.answer⟩

def Synthesis.search (proposer refuter : IncrementalSolver) (rounds : Nat) (cs : List Constraint)
    (ys : List String) : Synthesis :=
  let c := Constraint.all cs
  searchFrom proposer refuter c (existentials c ys) ys rounds 0 [.truth true]

def synthesize (proposer refuter : IncrementalSolver) (rounds : Nat) (cs : List Constraint)
    (ys : List String) : SynthesisAnswer :=
  (Synthesis.search proposer refuter rounds cs ys).answer

end Polyloom
