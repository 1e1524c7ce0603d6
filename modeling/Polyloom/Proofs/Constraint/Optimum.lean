import Polyloom.Proofs.Constraint.Enumeration

/-!
# The limit of an optimisation

How many models an optimisation returns.  With the limit one it is one model.  With a greater
limit the models are counted after they were taken, so that one more is returned than the limit
allows, where there are so many.
-/

namespace Polyloom

open Model List

variable {solver : IncrementalSolver} {cs : List Constraint} {ms : List Model} {names : List String}

/-! ## Models in order -/

private theorem Model.lookup_eq (m : Model) (s : String) :
    m.lookup s = ((m.filter fun p => p.1 = s).head?).map Prod.snd := by
  induction m with
  | nil => rfl
  | cons p m ih =>
    obtain ⟨name, n⟩ := p
    by_cases h : s = name
    · simp [h]
    · rw [lookup_cons, beq_false_of_ne h, filter_cons_of_neg (by simp [Ne.symm h])]
      exact ih

private theorem Model.filter_byName (m : Model) (s : String) :
    (m.byName.filter fun p => p.1 = s) = m.filter fun p => p.1 = s := by
  -- sorting is stable: what is in order already stays in its order
  have hsorted : (m.filter fun p => p.1 = s).Pairwise fun a b => decide (a.1 ≤ b.1) = true := by
    refine pairwise_iff_forall_sublist.mpr fun {a b} hab => ?_
    have ha := mem_filter.mp (hab.mem (mem_cons_self))
    have hb := mem_filter.mp (hab.mem (mem_cons_of_mem a mem_cons_self))
    have hequal : a.1 = b.1 := (of_decide_eq_true ha.2).trans (of_decide_eq_true hb.2).symm
    exact decide_eq_true (hequal ▸ String.le_refl a.1)
  have hsublist : (m.filter fun p => p.1 = s).Sublist m.byName := by
    refine sublist_mergeSort ?_ ?_ hsorted filter_sublist
    · intro a b c hab hbc
      exact decide_eq_true (String.le_trans (of_decide_eq_true hab) (of_decide_eq_true hbc))
    · intro a b
      simpa using String.le_total a.1 b.1
  have hinner : (m.filter fun p => p.1 = s).Sublist (m.byName.filter fun p => p.1 = s) := by
    simpa using hsublist.filter fun p => p.1 = s
  have hlength :=
    ((mergeSort_perm m fun a b => decide (a.1 ≤ b.1)).filter fun p => p.1 = s).length_eq
  exact (hinner.eq_of_length hlength.symm).symm

theorem Model.value_byName (m : Model) : m.byName.value = m.value := by
  funext s
  rw [value, value, lookup_eq, lookup_eq, filter_byName]

private theorem valuesOf_variables (names : List String) (env : String → Int) :
    valuesOf (names.map .var) env = names.map env := by
  simp [valuesOf, IntTerm.eval, Function.comp_def]

/-! ## Taking models -/

private theorem Enumeration.Produces.enumerate_eq {terms : List IntTerm} {checks : Nat}
    (h : Produces solver (start terms (.ofList cs)) ms ⟨.ofList cs, checks, []⟩) (wanted : Nat) :
    enumerate solver wanted terms cs = ms.take wanted := by
  have hless : ms.length < wanted + (ms.length + 1) := by omega
  rw [enumerate, fst_take_le solver (Nat.le_add_right wanted (ms.length + 1)), h.take_eq hless]

private theorem exists_enumerate (hsolver : solver.DecidesTests (names.map .var) cs)
    (hfinite : (solutionValues cs (names.map .var)).Finite) :
    ∃ ms, Enumerates cs (names.map .var) ms ∧
      ∀ wanted, enumerate solver wanted (names.map .var) cs = ms.take wanted := by
  have hassertions := AssertionStack.assertions_ofList cs
  obtain ⟨ms, checks, hproduces, henumerates⟩ :=
    Enumeration.produces_start (hassertions.symm ▸ hsolver) (hassertions.symm ▸ hfinite)
  exact ⟨ms, hassertions ▸ henumerates, hproduces.enumerate_eq⟩

/-! ## Returning models -/

private theorem optimize_eq_none (h : ∀ wanted, enumerate solver wanted (names.map .var) cs = [])
    (limit : Int) : optimize solver limit names cs = .none := by
  simp [optimize, h]

private theorem optimize_eq_one {m : Model} (h : enumerate solver 1 (names.map .var) cs = [m]) :
    optimize solver 1 names cs = .one m.byName := by
  simp [optimize, h]

theorem optimize_eq_several {limit : Nat} (hlimit : 2 ≤ limit) {found : List Model}
    (h : enumerate solver (limit + 1) (names.map .var) cs = found) (hfound : found ≠ []) :
    optimize solver limit names cs =
      .several ((found.map byName).mergeSort fun a b => a.text ≤ b.text) := by
  obtain ⟨m, rest, rfl⟩ := exists_cons_of_ne_nil hfound
  have hone : (limit : Int) ≠ 1 := by omega
  simp [optimize, hone, h]

/-- What is returned, as models of the constraints that differ on the variables. -/
structure DistinctModels (cs : List Constraint) (names : List String) (ms : List Model) : Prop where
  solves : ∀ m ∈ ms, Solves cs m.value
  nodup : (ms.map fun m => names.map m.value).Nodup

private theorem Enumerates.distinctModels (h : Enumerates cs (names.map .var) ms) :
    DistinctModels cs names ms := by
  refine ⟨h.solves, ?_⟩
  have hnodup := h.nodup
  simpa only [valuesOf_variables] using hnodup

private theorem DistinctModels.take (h : DistinctModels cs names ms) (n : Nat) :
    DistinctModels cs names (ms.take n) := by
  refine ⟨fun m hm => h.solves m (mem_of_mem_take hm), ?_⟩
  rw [map_take]
  exact h.nodup.sublist (take_sublist n _)

private theorem DistinctModels.inOrder (h : DistinctModels cs names ms) :
    DistinctModels cs names ((ms.map byName).mergeSort fun a b => a.text ≤ b.text) := by
  have hperm := mergeSort_perm (ms.map byName) fun a b => decide (a.text ≤ b.text)
  constructor
  · intro m hm
    obtain ⟨m', hm', rfl⟩ := mem_map.mp (hperm.mem_iff.mp hm)
    rw [value_byName]
    exact h.solves m' hm'
  · have hvalues := hperm.map fun m => names.map m.value
    simp only [map_map, Function.comp_def, value_byName] at hvalues
    exact hvalues.nodup_iff.mpr h.nodup

/-- Where the variables have `count` lists of values in the solutions, an optimisation with a limit
of at least two returns one model more than the limit, or all if there are not so many; so it
keeps its limit exactly where there are no more.  With the limit one it returns one model, and
without solutions none.  The models solve the constraints and differ on the variables. -/
theorem optimize_models_iff {solver : IncrementalSolver} {names : List String}
    {cs : List Constraint} (hsolver : solver.DecidesTests (names.map .var) cs) :
    ((∀ env, ¬ Solves cs env) → ∀ limit, optimize solver limit names cs = .none) ∧
    ∀ count, 1 ≤ count → (solutionValues cs (names.map .var)).ncard = count →
      (∃ m, optimize solver 1 names cs = .one m ∧ Solves cs m.value) ∧
      ∀ limit : Nat, 2 ≤ limit → ∃ ms, optimize solver limit names cs = .several ms ∧
        DistinctModels cs names ms ∧ ms.length = min (limit + 1) count ∧
        (ms.length = min limit count ↔ count ≤ limit) := by
  constructor
  · intro hunsolvable limit
    have hempty : solutionValues cs (names.map .var) = ∅ :=
      Set.eq_empty_iff_forall_notMem.mpr fun _ ⟨env, henv, _⟩ => hunsolvable env henv
    obtain ⟨ms, henumerates, htake⟩ := exists_enumerate hsolver (hempty ▸ Set.finite_empty)
    have hlength := henumerates.ncard_eq
    rw [hempty, Set.ncard_empty] at hlength
    rw [length_eq_zero_iff.mp hlength.symm] at htake
    exact optimize_eq_none (fun wanted => by rw [htake, take_nil]) limit
  · intro count hpos hcount
    have hfinite := Set.finite_of_ncard_pos (hcount ▸ hpos)
    obtain ⟨ms, henumerates, htake⟩ := exists_enumerate hsolver hfinite
    have hlength : ms.length = count := henumerates.ncard_eq.symm.trans hcount
    have hdistinct := henumerates.distinctModels
    constructor
    · obtain ⟨m, rest, rfl⟩ := exists_cons_of_length_pos (hlength ▸ hpos)
      refine ⟨m.byName, optimize_eq_one (htake 1), ?_⟩
      rw [value_byName]
      exact henumerates.solves m mem_cons_self
    · intro limit hlimit
      have hne : ms.take (limit + 1) ≠ [] := by
        rw [ne_eq, ← length_eq_zero_iff, length_take]
        omega
      have hreturned : (((ms.take (limit + 1)).map byName).mergeSort
          fun a b => a.text ≤ b.text).length = min (limit + 1) count := by
        rw [length_mergeSort, length_map, length_take, hlength]
      refine ⟨_, optimize_eq_several hlimit (htake (limit + 1)) hne,
        (hdistinct.take (limit + 1)).inOrder, hreturned, ?_⟩
      rw [hreturned]
      omega

def interval : List Constraint :=
  [.compare .le (.const 0) (.var "x"), .compare .le (.var "x") (.const 2)]

def intervalModels : List Model := [[("x", 0)], [("x", 1)], [("x", 2)]]

theorem interval_covered (env : String → Int) (h : Solves interval env) :
    ∃ m ∈ intervalModels, ∀ s ∈ ["x"], m.value s = env s := by
  simp only [interval, Solves, forall_mem_cons, Constraint.holds,
    Comparison.holdsInt, decide_eq_true_eq] at h
  simp only [IntTerm.eval] at h
  have hcases : env "x" = 0 ∨ env "x" = 1 ∨ env "x" = 2 := by omega
  simpa [intervalModels, value, lookup_cons, eq_comm] using hcases

theorem interval_decided :
    IncrementalSolver.DecidesTests (Solver.among intervalModels) (["x"].map .var) interval :=
  Solver.decidesTests_among (by decide) (by decide) interval_covered

theorem interval_count : (solutionValues interval (["x"].map .var)).ncard = 3 :=
  (Enumerates.of_cover (by unfold Solves; decide) (by decide) (by decide) interval_covered).ncard_eq

/-- Three values and the limit two: all three are returned. -/
theorem optimize_interval :
    IncrementalSolver.DecidesTests (Solver.among intervalModels) (["x"].map .var) interval ∧
      (solutionValues interval (["x"].map .var)).ncard = 3 ∧
      ∃ ms, optimize (Solver.among intervalModels) (2 : Nat) ["x"] interval = .several ms ∧
        DistinctModels interval ["x"] ms ∧ ms.length = min (2 + 1) 3 ∧
        (ms.length = min 2 3 ↔ 3 ≤ 2) :=
  ⟨interval_decided, interval_count,
    ((optimize_models_iff interval_decided).2 3 (by decide) interval_count).2 2 (by decide)⟩

/-- The limit two is not kept where there are three solutions. -/
theorem optimize_interval_exceeds :
    IncrementalSolver.DecidesTests (Solver.among intervalModels) (["x"].map .var) interval ∧
      (solutionValues interval (["x"].map .var)).ncard = 3 ∧
      ∃ ms, optimize (Solver.among intervalModels) (2 : Nat) ["x"] interval = .several ms ∧
        ms.length ≠ min 2 3 := by
  refine ⟨interval_decided, interval_count, _,
    optimize_eq_several (by decide) (rfl : enumerate _ _ _ _ = intervalModels) (by decide), ?_⟩
  rw [length_mergeSort]
  decide

end Polyloom
