import Polyloom.Access.Dependence
import Polyloom.Proofs.Constraint.Optimum

/-!
# Checks for a dependence

A check answers rightly whether constraints have a solution, but it is no mere question: it shows
the constraints first, and showing them exchanges the first two for the caller as well.  A single
constraint cannot be shown, so it is not decided at all.
-/

namespace Polyloom

open IncrementalSolver Solver

variable {cs ds : List Constraint}

/-! ## Answers in any order -/

theorem solves_perm (h : cs.Perm ds) {env : String → Int} : Solves cs env ↔ Solves ds env :=
  forall_congr' fun _ => imp_congr_left h.mem_iff

private theorem answers_perm (h : cs.Perm ds) {answer : Option Model} :
    Answers cs answer ↔ Answers ds answer := by
  cases answer with
  | some m => exact solves_perm h
  | none => exact forall_congr' fun _ => not_congr (solves_perm h)

private theorem Answers.byName {answer : Option Model} (h : Answers cs answer) :
    Answers cs (answer.map Model.byName) := by
  cases answer with
  | some m =>
    rw [Option.map_some, Answers, Model.value_byName]
    exact h
  | none => exact h

/-! ## One model -/

private theorem enumerate_one (solver : IncrementalSolver) (terms : List IntTerm)
    (cs : List Constraint) :
    enumerate solver 1 terms cs = (solver.check 0 cs).toList := by
  have hfirst : (Enumeration.start terms (.ofList cs)).next solver =
      Enumeration.advance solver [.models terms] (.ofList cs) 0 := rfl
  rw [enumerate, Enumeration.take, hfirst, Enumeration.advance, AssertionStack.assertions_ofList]
  cases solver.check 0 cs with
  | none => rfl
  | some m => rfl

private theorem optimize_one (solver : IncrementalSolver) (names : List String)
    (cs : List Constraint) :
    (optimize solver 1 names cs).model? = (solver.check 0 cs).map Model.byName := by
  simp only [optimize, if_true, enumerate_one]
  cases solver.check 0 cs with
  | none => rfl
  | some m => rfl

namespace Access

/-! ## Checks -/

theorem check_cons_cons (solver : List String → Solver) (quants : List String) (a b : Constraint)
    (rest : List Constraint) : ∃ names, check solver quants (a :: b :: rest) =
      .ok (((solver names).model? (b :: a :: rest)).map Model.byName, b :: a :: rest) := by
  exact ⟨_, congrArg (fun answer => Except.ok (answer, b :: a :: rest))
    (optimize_one (solver _) _ _)⟩

/-- A check of two or more constraints answers rightly and leaves them with the first two exchanged;
one alone is out of its range.  So it decides without a trace exactly where the first two
constraints are there and are the same. -/
theorem check_traceless_iff {solver : List String → Solver}
    {quants : List String} {cs : List Constraint} (hne : cs ≠ [])
    (hsolver : ∀ names ds, ds.Perm cs → Decides (solver names) ds) :
    (∀ a b rest, cs = a :: b :: rest →
      ∃ answer, check solver quants cs = .ok (answer, b :: a :: rest) ∧ Answers cs answer) ∧
    (∀ c, cs = [c] → check solver quants cs = .error .outOfRange) ∧
    ((∃ answer, check solver quants cs = .ok (answer, cs) ∧ Answers cs answer) ↔
      ∃ c rest, cs = c :: c :: rest) := by
  have hmany : ∀ a b rest, cs = a :: b :: rest →
      ∃ answer, check solver quants cs = .ok (answer, b :: a :: rest) ∧ Answers cs answer := by
    rintro a b rest rfl
    obtain ⟨names, hcheck⟩ := check_cons_cons solver quants a b rest
    have hswap : (b :: a :: rest).Perm (a :: b :: rest) := .swap a b rest
    -- The solver is asked in the exchanged order.
    have hanswer : Answers (b :: a :: rest) ((solver names).model? (b :: a :: rest)) :=
      hsolver names _ hswap 0
    exact ⟨_, hcheck, (answers_perm hswap).mp hanswer.byName⟩
  have hsingle : ∀ c, cs = [c] → check solver quants cs = .error .outOfRange := by
    rintro c rfl
    rfl
  refine ⟨hmany, hsingle, ?_, ?_⟩
  · rintro ⟨answer, hcheck, -⟩
    rcases cs with _ | ⟨a, _ | ⟨b, rest⟩⟩
    · exact absurd rfl hne
    · rw [hsingle a rfl] at hcheck
      cases hcheck
    · obtain ⟨other, hother, -⟩ := hmany a b rest rfl
      rw [hother, Except.ok.injEq, Prod.mk.injEq] at hcheck
      obtain ⟨rfl, -⟩ := List.cons.inj hcheck.2
      exact ⟨b, rest, rfl⟩
  · rintro ⟨c, rest, rfl⟩
    exact hmany c c rest rfl

theorem decides_perm_interval (ds : List Constraint) (h : ds.Perm interval) :
    Decides (among intervalModels) ds := by
  have hvars : ∀ c ∈ interval, ∀ s ∈ c.vars, s ∈ ["x"] := by decide
  refine decides_among_of_cover (fun s hs => ?_) fun env henv =>
    interval_covered env ((solves_perm h).mp henv)
  obtain ⟨c, hc, hs⟩ := List.mem_flatMap.mp hs
  exact hvars c (h.mem_iff.mp hc) s hs

/-- The bounds of an interval are decided, and after it the upper bound is the first. -/
theorem check_interval :
    interval ≠ [] ∧ (∀ ds, ds.Perm interval → Decides (among intervalModels) ds) ∧
      ∃ answer, check (fun _ => among intervalModels) [] interval =
        .ok (answer, [.compare .le (.var "x") (.const 2), .compare .le (.const 0) (.var "x")]) ∧
        Answers interval answer :=
  ⟨by decide, decides_perm_interval, (check_traceless_iff (by decide) fun _ =>
    decides_perm_interval).1 _ _ _ rfl⟩

def laterIteration : List Constraint :=
  [.compare .ge (.var "i'") (.add (.var "i") (.const 1))]

/-- The bounds of an interval are not kept in their order, and a constraint that has solutions is
refused where it is the only one. -/
theorem check_interval_exchanges : (∀ ds, ds.Perm interval → Decides (among intervalModels) ds) ∧
      (¬ ∃ answer, check (fun _ => among intervalModels) [] interval = .ok (answer, interval)) ∧
      Solves laterIteration (Model.value [("i", 0), ("i'", 1)]) ∧
      ∀ solver quants, check solver quants laterIteration = .error .outOfRange := by
  refine ⟨decides_perm_interval, ?_, by unfold Solves; decide, fun _ _ => rfl⟩
  rintro ⟨answer, hcheck⟩
  obtain ⟨names, hother⟩ := check_cons_cons (fun _ => among intervalModels) []
    (.compare .le (.const 0) (.var "x")) (.compare .le (.var "x") (.const 2)) []
  rw [interval, hother, Except.ok.injEq, Prod.mk.injEq] at hcheck
  exact absurd hcheck.2 (by decide)

end Access

end Polyloom
