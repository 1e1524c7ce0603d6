import Polyloom.Constraint.ExistsForall
import Polyloom.Proofs.Constraint.Enumeration

/-!
# Values for all values of the others

A search for values of some variables for which constraints hold whatever the others are.  Every
requirement on a candidate is an instance of the constraints, so where no candidate is left there
are no such values; a candidate that cannot be refuted is a solution; and a refuted candidate fails
the instance that refuted it, so none comes twice.
-/

namespace Polyloom

open Constraint Model Solver Synthesis

variable {range : Finset (List Int)} {xs : List String}
open List hiding all

variable {candidate refutation m : Model} {env x : String → Int}
  {proposer refuter : IncrementalSolver}

/-! ## Instances -/

def Model.over (m : Model) (names : List String) (env : String → Int) (s : String) : Int :=
  if s ∈ names then m.value s else env s

theorem Constraint.holds_instantiate (m : Model) (names : List String) (c : Constraint)
    (env : String → Int) : (c.instantiate m names).holds env = c.holds (m.over names env) := by
  rw [instantiate, holds_substitute]
  refine congrArg (c.holds ·) (funext fun s => ?_)
  by_cases hs : s ∈ names <;> simp [Model.over, hs, IntTerm.eval]

theorem mem_existentials {c : Constraint} {ys : List String} {s : String} :
    s ∈ existentials c ys ↔ s ∈ c.vars ∧ s ∉ ys := by
  simp [existentials]

/-- The constraint holds at some values of the variables whatever the others are. -/
def Constraint.HoldsForAll (c : Constraint) (xs : List String) (x : String → Int) : Prop :=
  ∀ env, (∀ s ∈ xs, env s = x s) → c.holds env = true

section Rounds

variable {c : Constraint} {ys : List String}

private theorem holds_instantiate_refutation
    (henv : ∀ s ∈ existentials c ys, env s = candidate.value s) :
    (c.instantiate refutation ys).holds env =
      (c.instantiate candidate (existentials c ys)).holds refutation.value := by
  rw [holds_instantiate, holds_instantiate]
  refine holds_congr fun s hs => ?_
  by_cases hy : s ∈ ys
  · have hx : s ∉ existentials c ys := fun h => (mem_existentials.mp h).2 hy
    simp [Model.over, hy, hx]
  · have hx : s ∈ existentials c ys := mem_existentials.mpr ⟨hs, hy⟩
    simp [Model.over, hy, hx, henv s hx]

private theorem holdsForAll_of_unrefuted
    (h : ∀ env, ¬ Solves [.not (c.instantiate candidate xs)] env) :
    c.HoldsForAll xs candidate.value := by
  intro env henv
  have hover : candidate.over xs env = env := by
    funext s
    by_cases hs : s ∈ xs <;> simp [Model.over, hs, henv]
  have hunrefuted := h env
  rw [solves_cons, holds, holds_instantiate, hover] at hunrefuted
  simpa [Solves] using hunrefuted

private theorem HoldsForAll.instantiate (h : c.HoldsForAll (existentials c ys) x)
    (refutation : Model) : (c.instantiate refutation ys).holds x = true := by
  rw [holds_instantiate]
  refine h _ fun s hs => ?_
  simp [Model.over, (mem_existentials.mp hs).2]

/-! ## Requirements -/

def Requirement (c : Constraint) (ys : List String) (d : Constraint) : Prop :=
  d = .truth true ∨ ∃ refutation : Model, d = c.instantiate refutation ys

private theorem HoldsForAll.solves (h : c.HoldsForAll (existentials c ys) x)
    {required : List Constraint} (hrequired : ∀ d ∈ required, Requirement c ys d) :
    Solves required x := by
  intro d hd
  obtain rfl | ⟨refutation, rfl⟩ := hrequired d hd
  · rfl
  · exact HoldsForAll.instantiate h refutation

/-- Both solvers decide what they are asked: the one that proposes whether requirements can be
met, the other whether a candidate can be refuted. -/
structure SolversDecide (proposer refuter : IncrementalSolver) (c : Constraint)
    (ys : List String) : Prop where
  proposes : ∀ required, (∀ d ∈ required, Requirement c ys d) → proposer.Decides required
  refutes : ∀ candidate : Model,
    refuter.Decides [.not (c.instantiate candidate (existentials c ys))]

/-! ## Rounds -/

namespace Synthesis

variable {required : List Constraint} {rounds : Nat} {run : Synthesis}

/-- A search under requirements: it stops after its rounds, or there are no values, or a candidate
cannot be refuted, or a candidate fails an instance that is required from then on. -/
inductive Run (c : Constraint) (ys : List String) : List Constraint → Nat → Synthesis → Prop
  | stopped (required : List Constraint) : Run c ys required 0 ⟨[], .undecided⟩
  | impossible (required : List Constraint)
    (rounds : Nat) (h : ∀ x, ¬ c.HoldsForAll (existentials c ys) x) :
      Run c ys required rounds ⟨[], .impossible⟩
  | found {required : List Constraint}
    {candidate : Model} (rounds : Nat) (hsolves : Solves required candidate.value)
      (h : c.HoldsForAll (existentials c ys) candidate.value) :
      Run c ys required rounds ⟨[candidate], .witness (.of (existentials c ys) candidate.value)⟩
  | refuted {required : List Constraint}
    {candidate refutation : Model} {rounds : Nat} {later : Synthesis}
      (hsolves : Solves required candidate.value)
      (hexcludes : ∀ env, (c.instantiate refutation ys).holds env = true →
        (existentials c ys).map env ≠ (existentials c ys).map candidate.value)
      (hlater : Run c ys (required ++ [c.instantiate refutation ys]) rounds later) :
      Run c ys required (rounds + 1) ⟨candidate :: later.candidates, later.answer⟩

private theorem requirement_append (hrequired : ∀ d ∈ required, Requirement c ys d)
    (refutation : Model) :
    ∀ d ∈ required ++ [c.instantiate refutation ys], Requirement c ys d := by
  refine forall_mem_append.mpr ⟨hrequired, fun d hd => ?_⟩
  exact .inr ⟨refutation, mem_singleton.mp hd⟩

private theorem run_searchFrom (h : SolversDecide proposer refuter c ys)
    (hrequired : ∀ d ∈ required, Requirement c ys d) (rounds made : Nat) :
    Run c ys required rounds
      (searchFrom proposer refuter c (existentials c ys) ys rounds made required) := by
  induction rounds generalizing made required with
  | zero => exact .stopped required
  | succ rounds ih =>
    have hproposes := h.proposes required hrequired
    rw [searchFrom]
    cases hproposal : proposer.check made required with
    | none =>
      exact .impossible _ _ fun x hx =>
        hproposes.unsolvable hproposal x (HoldsForAll.solves hx hrequired)
    | some candidate =>
      have hcandidate := hproposes.solves hproposal
      have hrefutes := h.refutes candidate
      cases hrefutation : refuter.check made
        [.not (c.instantiate candidate (existentials c ys))] with
      | none =>
        simp only [hrefutation]
        exact .found _ hcandidate (holdsForAll_of_unrefuted (hrefutes.unsolvable hrefutation))
      | some refutation =>
        simp only [hrefutation]
        refine .refuted hcandidate
          (fun env henv heq => ?_) (ih (requirement_append hrequired refutation) (made + 1))
        have hfails := (solves_cons.mp (hrefutes.solves hrefutation)).1
        rw [holds_instantiate_refutation (map_inj_left.mp heq)] at henv
        simp [holds, henv] at hfails

section

variable (h : Run c ys required rounds run)

include h

theorem Run.solves (hm : m ∈ run.candidates) : Solves required m.value := by
  induction h with
  | stopped | impossible => simp at hm
  | found _ hsolves =>
    obtain rfl := mem_singleton.mp hm
    exact hsolves
  | refuted hsolves _ _ ih =>
    obtain rfl | hm := mem_cons.mp hm
    · exact hsolves
    · exact (solves_append.mp (ih hm)).1

theorem Run.nodup : (run.candidates.map fun m => (existentials c ys).map m.value).Nodup := by
  induction h with
  | stopped | impossible | found => simp
  | refuted _ hexcludes hlater ih =>
    rw [map_cons, nodup_cons]
    refine ⟨fun hmem => ?_, ih⟩
    obtain ⟨m, hm, hvalues⟩ := mem_map.mp hmem
    exact hexcludes m.value (hlater.solves hm _ (by simp)) hvalues

private theorem Run.of_witness (hm : run.answer = .witness m) :
    m.map Prod.fst = existentials c ys ∧ c.HoldsForAll (existentials c ys) m.value := by
  induction h with
  | stopped | impossible => simp at hm
  | found _ _ hholds =>
    obtain rfl := SynthesisAnswer.witness.inj hm
    refine ⟨by simp [of, Function.comp_def], fun env henv => hholds env fun s hs => ?_⟩
    rw [henv s hs, value_of _ hs]
  | refuted _ _ _ ih => exact ih hm

private theorem Run.of_impossible (himpossible : run.answer = .impossible) (x : String → Int) :
    ¬ c.HoldsForAll (existentials c ys) x := by
  induction h with
  | stopped | found => simp at himpossible
  | impossible _ _ h => exact h x
  | refuted _ _ _ ih => exact ih himpossible

/-! ## Ending -/

private theorem Run.length_of_undecided (hundecided : run.answer = .undecided) :
    run.candidates.length = rounds := by
  induction h with
  | stopped => rfl
  | impossible | found => simp at hundecided
  | refuted _ _ _ ih => exact congrArg Nat.succ (ih hundecided)

end

private theorem searchFrom_add {made : Nat}
    (h : (searchFrom proposer refuter c xs ys rounds made required).answer ≠ .undecided)
    (more : Nat) : searchFrom proposer refuter c xs ys (rounds + more) made required =
    searchFrom proposer refuter c xs ys rounds made required := by
  fun_induction searchFrom proposer refuter c xs ys rounds made required with
  | case1 => simp at h
  | case2 rounds made required hproposal => simp [Nat.succ_add, searchFrom, hproposal]
  | case3 rounds made required candidate hproposal hrefutation =>
    simp [Nat.succ_add, searchFrom, hproposal, hrefutation]
  | case4 rounds made required candidate hproposal refutation hrefutation later ih =>
    simp [Nat.succ_add, searchFrom, hproposal, hrefutation, ih h, later]

/-- Undecided rounds are as many different candidates, so finitely many candidates allow only so
many rounds. -/
theorem Run.decided_of_candidates_mem (h : Run c ys required rounds run)
    (hrange : ∀ m ∈ run.candidates, (existentials c ys).map m.value ∈ range)
    (hrounds : range.card < rounds) : run.answer ≠ .undecided := by
  intro hundecided
  have hsubset :
      (run.candidates.map fun m => (existentials c ys).map m.value).toFinset ⊆ range := by
    intro values hvalues
    obtain ⟨m, hm, rfl⟩ := mem_map.mp (mem_toFinset.mp hvalues)
    exact hrange m hm
  have hcard := Finset.card_le_card hsubset
  rw [toFinset_card_of_nodup h.nodup, length_map, h.length_of_undecided hundecided] at hcard
  omega

private theorem mem_range_of_instance {range : Set (List Int)}
    (hrange : ∀ env, c.holds env = true → (existentials c ys).map env ∈ range)
    (hm : (c.instantiate refutation ys).holds m.value = true) :
    (existentials c ys).map m.value ∈ range := by
  rw [holds_instantiate] at hm
  have hvalues :
      (existentials c ys).map (refutation.over ys m.value) = (existentials c ys).map m.value :=
    map_congr_left fun s hs => by simp [Model.over, (mem_existentials.mp hs).2]
  exact hvalues ▸ hrange _ hm

private theorem Run.decided_of_confined (h : Run c ys required rounds run)
    (hrange : ∀ env, c.holds env = true → (existentials c ys).map env ∈ range)
    (hrounds : range.card + 1 < rounds) : run.answer ≠ .undecided := by
  cases h with
  | stopped => omega
  | impossible | found => simp
  | refuted _ _ hlater =>
    refine hlater.decided_of_candidates_mem (fun m hm => ?_) (Nat.lt_of_succ_lt_succ hrounds)
    exact mem_range_of_instance hrange
      (hlater.solves hm _ (mem_append_right _ (mem_singleton_self _)))

end Synthesis

end Rounds

theorem solves_iff_all_holds {cs : List Constraint} :
    Solves cs env ↔ (all cs).holds env = true := by
  rw [holds_all, solves_iff_all]

/-- Whichever models the two solvers choose, a search for values of the variables other than `ys`
answers rightly: a witness gives these variables values for which the constraints hold for all
values of `ys`, and if there is none then no values do.  No candidate is proposed twice.  So the
search without a bound on its rounds ends if the candidates, or the values that the constraints
allow, come from a finite set. -/
theorem synthesize_decides {proposer refuter : IncrementalSolver} {cs : List Constraint}
    {ys : List String} (h : SolversDecide proposer refuter (.all cs) ys) :
    let xs := existentials (.all cs) ys
    (∀ rounds m, synthesize proposer refuter rounds cs ys = .witness m →
      m.map Prod.fst = xs ∧ ∀ env, (∀ x ∈ xs, env x = m.value x) → Solves cs env) ∧
    (∀ rounds, synthesize proposer refuter rounds cs ys = .impossible →
      ∀ values : String → Int, ∃ env, (∀ x ∈ xs, env x = values x) ∧ ¬ Solves cs env) ∧
    (∀ rounds, ((search proposer refuter rounds cs ys).candidates.map fun m =>
      xs.map m.value).Nodup) ∧
    ∀ range : Finset (List Int), (∀ rounds, ∀ m ∈ (search proposer refuter rounds cs ys).candidates,
        xs.map m.value ∈ range) ∨ (∀ env, Solves cs env → xs.map env ∈ range) →
      ∃ enough, synthesize proposer refuter enough cs ys ≠ .undecided ∧ ∀ rounds, enough ≤ rounds →
        search proposer refuter rounds cs ys = search proposer refuter enough cs ys := by
  intro xs
  have hrequired : ∀ d ∈ [truth true], Requirement (.all cs) ys d :=
    fun d hd => .inl (mem_singleton.mp hd)
  have hrun : ∀ rounds, Run (.all cs) ys [.truth true] rounds
      (search proposer refuter rounds cs ys) := fun rounds =>
    run_searchFrom h hrequired rounds 0
  refine ⟨fun rounds m hm => ?_, fun rounds himpossible values => ?_,
    fun rounds => (hrun rounds).nodup, fun range hrange => ?_⟩
  · obtain ⟨hnames, hholds⟩ := (hrun rounds).of_witness hm
    exact ⟨hnames, fun env henv => solves_iff_all_holds.mpr (hholds env henv)⟩
  · have hfails := (hrun rounds).of_impossible himpossible values
    simp only [HoldsForAll, not_forall] at hfails
    obtain ⟨env, henv, hfails⟩ := hfails
    exact ⟨env, henv, fun hsolves => hfails (solves_iff_all_holds.mp hsolves)⟩
  · have hdecided : synthesize proposer refuter (range.card + 2) cs ys ≠ .undecided := by
      rcases hrange with hcandidates | hallowed
      · exact (hrun _).decided_of_candidates_mem (hcandidates _) (by omega)
      · exact (hrun _).decided_of_confined
          (fun env henv => hallowed env (solves_iff_all_holds.mpr henv)) (by omega)
    refine ⟨range.card + 2, hdecided, fun rounds hrounds => ?_⟩
    obtain ⟨more, rfl⟩ := Nat.exists_eq_add_of_le hrounds
    exact searchFrom_add hdecided more

def upperBound : List Constraint :=
  [.compare .le (.const 0) (.var "x"), .compare .le (.var "x") (.const 2),
      .or (.compare .lt (.var "y") (.const 0))
      (.or (.compare .gt (.var "y") (.const 2)) (.compare .le (.var "y") (.var "x")))]

def boundedModels (name : String) : List Model := [[(name, 0)], [(name, 1)], [(name, 2)]]

private theorem upperBound_holds : (all upperBound).holds env = true ↔
      0 ≤ env "x" ∧ env "x" ≤ 2 ∧ (env "y" < 0 ∨ 2 < env "y" ∨ env "y" ≤ env "x") := by
  rw [← solves_iff_all_holds]
  simp only [upperBound, Solves, List.forall_mem_cons, holds,
    Comparison.holdsInt, Bool.or_eq_true, decide_eq_true_eq]
  simp [IntTerm.eval]

private theorem exists_boundedModel (name : String) {n : Int} (h : 0 ≤ n ∧ n ≤ 2) :
    ∃ m ∈ boundedModels name, m.value name = n := by
  have hcases : n = 0 ∨ n = 1 ∨ n = 2 := by omega
  simpa [boundedModels, value, List.lookup_cons, eq_comm] using hcases

private theorem upperBound_decided : SolversDecide (among (boundedModels "x"))
    (among (boundedModels "y")) (.all upperBound) ["y"] := by
  constructor
  · intro required hrequired
    refine decides_among fun env henv => ?_
    by_cases hbounds : 0 ≤ env "x" ∧ env "x" ≤ 2
    · obtain ⟨m, hm, hx⟩ := exists_boundedModel "x" hbounds
      refine ⟨m, hm, fun d hd => ?_⟩
      have hholds := henv d hd
      obtain rfl | ⟨refutation, rfl⟩ := hrequired d hd
      · rfl
      · rw [holds_instantiate, upperBound_holds] at hholds ⊢
        simpa [Model.over, hx] using hholds
    · -- such a value meets no instance, so nothing is required
      refine ⟨[("x", 0)], by simp [boundedModels], fun d hd => ?_⟩
      obtain rfl | ⟨refutation, rfl⟩ := hrequired d hd
      · rfl
      · have hholds := henv _ hd
        rw [holds_instantiate, upperBound_holds] at hholds
        exact absurd ⟨hholds.1, hholds.2.1⟩ hbounds
  · intro candidate
    have hxs : existentials (.all upperBound) ["y"] = ["x"] := by decide
    rw [hxs]
    have hrefutes : ∀ env, Solves [.not ((all upperBound).instantiate candidate ["x"])]
        env ↔ ¬ (0 ≤ candidate.value "x" ∧ candidate.value "x" ≤ 2 ∧
          (env "y" < 0 ∨ 2 < env "y" ∨ env "y" ≤ candidate.value "x")) := by
      intro env
      have hover : candidate.over ["x"] env "x" = candidate.value "x" ∧
          candidate.over ["x"] env "y" = env "y" := by simp [Model.over]
      rw [solves_cons, holds, Bool.not_eq_true', ← Bool.not_eq_true,
        holds_instantiate, upperBound_holds, hover.1, hover.2]
      simp [Solves]
    refine decides_among fun env henv => ?_
    rw [hrefutes] at henv
    by_cases hbounds : 0 ≤ env "y" ∧ env "y" ≤ 2
    · obtain ⟨m, hm, hy⟩ := exists_boundedModel "y" hbounds
      exact ⟨m, hm, (hrefutes m.value).mpr (by rwa [hy])⟩
    · refine ⟨[("y", 0)], by simp [boundedModels], (hrefutes _).mpr ?_⟩
      omega

/-- The greatest of the values is found. -/
theorem synthesize_upperBound :
    SolversDecide (among (boundedModels "x")) (among (boundedModels "y"))
        (.all upperBound) ["y"] ∧
      synthesize (among (boundedModels "x")) (among (boundedModels "y")) 4 upperBound ["y"] =
        .witness [("x", 2)] ∧
      ∀ env, (∀ x ∈ existentials (.all upperBound) ["y"], env x = value [("x", 2)] x) →
        Solves upperBound env := by
  have hanswer : synthesize (among (boundedModels "x")) (among (boundedModels "y")) 4
      upperBound ["y"] = .witness [("x", 2)] := by decide
  exact ⟨upperBound_decided, hanswer, ((synthesize_decides upperBound_decided).1 4 _ hanswer).2⟩

end Polyloom
