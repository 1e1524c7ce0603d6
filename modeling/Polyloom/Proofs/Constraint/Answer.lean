import Polyloom.Proofs.Constraint.Solution

/-!
# Answers of solvers

What it means that a solver decides constraints, whatever models it chooses, and a solver that
does: one that looks for a solution in a list of models decides all constraints on variables
whose solutions are in the list.
-/

namespace Polyloom

variable {checks : Nat} {ms : List Model} {solver : IncrementalSolver} {cs : List Constraint}

/-- A model solves the constraints; no model says that nothing does. -/
def Answers (cs : List Constraint) : Option Model → Prop
  | some m => Solves cs m.value
  | none => ∀ env, ¬ Solves cs env

/-- The answers to the constraints are right, at whichever check they are asked for. -/
def IncrementalSolver.Decides (solver : IncrementalSolver) (cs : List Constraint) : Prop :=
  ∀ checks, Answers cs (solver.check checks cs)

theorem IncrementalSolver.Decides.solves (h : solver.Decides cs)
    {m : Model} (hm : solver.check checks cs = some m) : Solves cs m.value := by
  have hanswer := h checks
  rwa [hm] at hanswer

theorem IncrementalSolver.Decides.unsolvable (h : solver.Decides cs)
    (hnone : solver.check checks cs = none) (env : String → Int) : ¬ Solves cs env := by
  have hanswer := h checks
  rw [hnone] at hanswer
  exact hanswer env

def Solver.among (ms : List Model) : Solver where
  model? cs := ms.find? fun m => cs.all fun c => c.holds m.value

theorem solves_iff_all {env : String → Int} :
    Solves cs env ↔ (cs.all fun c => c.holds env) = true := by
  simp [Solves]

theorem Solver.decides_among (h : ∀ env, Solves cs env → ∃ m ∈ ms, Solves cs m.value) :
    IncrementalSolver.Decides (Solver.among ms) cs := by
  intro checks
  change Answers cs (ms.find? fun m => cs.all fun c => c.holds m.value)
  cases hfind : ms.find? fun m => cs.all fun c => c.holds m.value with
  | some m =>
    have hall := List.find?_some hfind
    exact solves_iff_all.mpr hall
  | none =>
    intro env henv
    obtain ⟨m, hm, hsolves⟩ := h env henv
    exact List.find?_eq_none.mp hfind m hm (solves_iff_all.mp hsolves)

theorem Solver.decides_among_of_cover {names : List String}
    (hvars : ∀ s ∈ cs.flatMap Constraint.vars, s ∈ names)
    (hcover : ∀ env, Solves cs env → ∃ m ∈ ms, ∀ s ∈ names, m.value s = env s) :
    IncrementalSolver.Decides (Solver.among ms) cs := by
  refine decides_among fun env henv => ?_
  obtain ⟨m, hm, hvalues⟩ := hcover env henv
  exact ⟨m, hm, (solves_congr fun s hs => hvalues s (hvars s hs)).mpr henv⟩

end Polyloom
