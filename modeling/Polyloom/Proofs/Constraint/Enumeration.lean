import Mathlib.Data.Set.Card
import Polyloom.Constraint.Enumerate
import Polyloom.Proofs.Constraint.Answer

/-!
# Enumerations of models

An enumeration that is asked for models until there are none yields every list of values that
the terms have in a solution, and each of them once.  The solver may choose any model at any
check.  What is left after a model is split by the first term that differs: the parts are
disjoint, they have all other solutions, and each has fewer lists of values than the whole.  The
stack of assertions is the same at the end as at the beginning.
-/

namespace Polyloom

open AssertionStack Constraint Enumeration IntTerm List

variable {ms ms' : List Model} {n : Int} {names : List String} {t : IntTerm} {env : String → Int}
  {m : Model} {fixed rest terms : List IntTerm} {cs : List Constraint} {solver : IncrementalSolver}
  {ms : List Model} {stack : AssertionStack}

/-! ## Assertions -/

namespace AssertionStack

private theorem assertAll_cons (level : List Constraint) (rest : AssertionStack)
    (cs : List Constraint) :
    assertAll cs (level :: rest) = (level ++ cs) :: rest := by
  induction cs generalizing level with
  | nil => simp [assertAll]
  | cons c cs ih =>
    have hstep : assertAll (c :: cs) (level :: rest) = assertAll cs ((level ++ [c]) :: rest) := rfl
    rw [hstep, ih, append_assoc, singleton_append]

private theorem assertAll_push (cs : List Constraint) (stack : AssertionStack) :
    assertAll cs (push stack) = cs :: stack :=
  assertAll_cons [] stack cs

theorem assertions_cons (level : List Constraint) (stack : AssertionStack) :
    assertions (level :: stack) = assertions stack ++ level := by
  simp [assertions]

theorem assertions_ofList (cs : List Constraint) : assertions (ofList cs) = cs := by
  simp [assertions, ofList]

end AssertionStack

/-! ## Values of terms in solutions -/

def valuesOf (terms : List IntTerm) (env : String → Int) : List Int :=
  terms.map fun t => t.eval env

private theorem valuesOf_cons (t : IntTerm) (terms : List IntTerm) (env : String → Int) :
    valuesOf (t :: terms) env = t.eval env :: valuesOf terms env := rfl

theorem valuesOf_append (terms terms' : List IntTerm) (env : String → Int) :
    valuesOf (terms ++ terms') env = valuesOf terms env ++ valuesOf terms' env :=
  map_append

def solutionValues (cs : List Constraint) (terms : List IntTerm) : Set (List Int) :=
  {values | ∃ env, Solves cs env ∧ valuesOf terms env = values}

private theorem holds_differs : (differs t n).holds env = true ↔ t.eval env ≠ n :=
  decide_eq_true_iff

private theorem holds_equals : (equals t n).holds env = true ↔ t.eval env = n :=
  decide_eq_true_iff

private theorem solves_splitting : Solves (splitting m fixed t) env ↔
      t.eval env ≠ t.eval m.value ∧ valuesOf fixed env = valuesOf fixed m.value := by
  have hfixed : Solves (fixed.map fun u => .equals u (u.eval m.value)) env ↔
      valuesOf fixed env = valuesOf fixed m.value := by
    rw [Solves, forall_mem_map, valuesOf, valuesOf, map_inj_left]
    exact forall₂_congr fun u _ => holds_equals
  rw [splitting, solves_cons, holds_differs, hfixed]

theorem solves_split :
    Solves (cs ++ splitting m fixed t) env ↔ Solves cs env ∧ t.eval env ≠ t.eval m.value ∧
        valuesOf fixed env = valuesOf fixed m.value := by
  rw [solves_append, solves_splitting]

/-- Each part of the remaining solutions has fewer lists of values than all solutions: with the
values of the fixed terms in front they are lists of values of all terms, but not those of the
model that was found. -/
private theorem ncard_split_lt (hm : Solves cs m.value)
    (hfinite : (solutionValues cs (fixed ++ t :: rest)).Finite) :
    (solutionValues (cs ++ splitting m fixed t) (t :: rest)).Finite ∧
      (solutionValues (cs ++ splitting m fixed t) (t :: rest)).ncard <
        (solutionValues cs (fixed ++ t :: rest)).ncard := by
  let extend : List Int → List Int := fun values => valuesOf fixed m.value ++ values
  have hinjective : Function.Injective extend := append_right_injective _
  have hsubset : extend '' solutionValues (cs ++ splitting m fixed t) (t :: rest) ⊆
      solutionValues cs (fixed ++ t :: rest) := by
    rintro _ ⟨_, ⟨env, henv, rfl⟩, rfl⟩
    obtain ⟨hsolves, -, hfixed⟩ := solves_split.mp henv
    exact ⟨env, hsolves, by rw [valuesOf_append, hfixed]⟩
  have hfound : valuesOf (fixed ++ t :: rest) m.value ∉
      extend '' solutionValues (cs ++ splitting m fixed t) (t :: rest) := by
    rintro ⟨_, ⟨env, henv, rfl⟩, heq⟩
    obtain ⟨-, hdiffers, -⟩ := solves_split.mp henv
    rw [valuesOf_append] at heq
    have htail := append_cancel_left heq
    exact hdiffers (cons.inj htail).1
  have hproper : extend '' solutionValues (cs ++ splitting m fixed t) (t :: rest) ⊂
      solutionValues cs (fixed ++ t :: rest) :=
    ⟨hsubset, fun hsuperset => hfound (hsuperset ⟨m.value, hm, rfl⟩)⟩
  refine ⟨(hfinite.subset hsubset).of_finite_image hinjective.injOn, ?_⟩
  rw [← Set.ncard_image_of_injective _ hinjective]
  exact Set.ncard_lt_ncard hproper hfinite

/-! ## What is asked of the solver -/

/-- The constraint compares one of the terms with a number. -/
def Constraint.Tests (terms : List IntTerm) (c : Constraint) : Prop :=
  ∃ t ∈ terms, ∃ n, c = .differs t n ∨ c = .equals t n

/-- The solver decides the constraints together with any that test the terms. -/
def IncrementalSolver.DecidesTests (solver : IncrementalSolver) (terms : List IntTerm)
    (cs : List Constraint) : Prop :=
  ∀ tests, (∀ c ∈ tests, c.Tests terms) → solver.Decides (cs ++ tests)

private theorem tests_splitting : ∀ c ∈ splitting m fixed t, c.Tests (fixed ++ t :: rest) := by
  intro c hc
  simp only [splitting, mem_cons, mem_map] at hc
  rcases hc with rfl | ⟨u, hu, rfl⟩
  · exact ⟨t, by simp, _, .inl rfl⟩
  · exact ⟨u, by simp [hu], _, .inr rfl⟩

private theorem IncrementalSolver.DecidesTests.decides (h : solver.DecidesTests terms cs) :
    solver.Decides cs := by
  simpa using h [] (by simp)

private theorem IncrementalSolver.DecidesTests.split
    (h : solver.DecidesTests (fixed ++ t :: rest) cs) (m : Model) :
    solver.DecidesTests (t :: rest) (cs ++ splitting m fixed t) := by
  intro tests htests
  rw [append_assoc]
  refine h _ (forall_mem_append.mpr ⟨tests_splitting, fun c hc => ?_⟩)
  obtain ⟨u, hu, hform⟩ := htests c hc
  exact ⟨u, mem_append_right fixed hu, hform⟩

private theorem Constraint.Tests.vars_subset {c : Constraint} (h : c.Tests terms) :
    c.vars ⊆ terms.flatMap IntTerm.vars := by
  obtain ⟨t, ht, n, rfl | rfl⟩ := h <;>
    exact fun s hs => mem_flatMap.mpr ⟨t, ht, by
      simpa [Constraint.differs, Constraint.equals, Constraint.vars, IntTerm.vars] using hs⟩

theorem Solver.decidesTests_among (hcs : cs.flatMap Constraint.vars ⊆ names)
    (hterms : terms.flatMap IntTerm.vars ⊆ names)
    (hcover : ∀ env, Solves cs env → ∃ m ∈ ms, ∀ s ∈ names, m.value s = env s) :
    IncrementalSolver.DecidesTests (Solver.among ms) terms cs := by
  intro tests htests
  have hvars : ∀ s ∈ (cs ++ tests).flatMap Constraint.vars, s ∈ names := by
    rw [flatMap_append]
    refine forall_mem_append.mpr ⟨hcs, fun s hs => ?_⟩
    obtain ⟨c, hc, hs⟩ := mem_flatMap.mp hs
    exact hterms ((htests c hc).vars_subset hs)
  exact Solver.decides_among_of_cover hvars fun env henv => hcover env (solves_append.mp henv).1

/-! ## Yielding models -/

namespace Enumeration

variable {solver : IncrementalSolver} {e e' : Enumeration}

/-- From one state an enumeration yields some models and comes to another state, or to one that
goes on in the same way. -/
inductive Produces (solver : IncrementalSolver) : Enumeration → List Model → Enumeration → Prop
  | refl (e : Enumeration) : Produces solver e [] e
  | silent {e e' e'' : Enumeration} {ms : List Model} :
      e.next solver = e'.next solver → Produces solver e' ms e'' → Produces solver e ms e''
  | yield {e e' e'' : Enumeration} {m : Model} {ms : List Model} :
      e.next solver = (some m, e') → Produces solver e' ms e'' → Produces solver e (m :: ms) e''

private theorem Produces.trans {e'' : Enumeration} (h : Produces solver e ms e')
    (h' : Produces solver e' ms' e'') : Produces solver e (ms ++ ms') e'' := by
  induction h with
  | refl e => exact h'
  | silent hnext _ ih => exact .silent hnext (ih h')
  | yield hnext _ ih => exact .yield hnext (ih h')

private theorem take_succ_of_next (h : e.next solver = e'.next solver) (n : Nat) :
    e.take solver (n + 1) = e'.take solver (n + 1) := by
  rw [take, take, h]

theorem take_succ_of_yield {m : Model} (h : e.next solver = (some m, e')) (n : Nat) :
    e.take solver (n + 1) = (m :: (e'.take solver n).1, (e'.take solver n).2) := by
  rw [take, h]

private theorem take_finished (solver : IncrementalSolver) (stack : AssertionStack)
    (checks n : Nat) :
    (⟨stack, checks, []⟩ : Enumeration).take solver n = ([], ⟨stack, checks, []⟩) := by
  cases n with
  | zero => rfl
  | succ n => rfl

theorem Produces.take_eq {stack : AssertionStack} {checks : Nat}
    (h : Produces solver e ms ⟨stack, checks, []⟩) {n : Nat} (hn : ms.length < n) :
    e.take solver n = (ms, ⟨stack, checks, []⟩) := by
  generalize hfinal : (⟨stack, checks, []⟩ : Enumeration) = final at h
  induction h generalizing n with
  | refl e => rw [← hfinal, take_finished]
  | silent hnext _ ih =>
    obtain ⟨n, rfl⟩ := Nat.exists_eq_succ_of_ne_zero (Nat.ne_zero_of_lt hn)
    rw [take_succ_of_next hnext, ih hn hfinal]
  | yield hnext _ ih =>
    obtain ⟨n, rfl⟩ := Nat.exists_eq_succ_of_ne_zero (Nat.ne_zero_of_lt hn)
    rw [take_succ_of_yield hnext, ih (Nat.lt_of_succ_lt_succ hn) hfinal]

/-- Who stops early has the first models. -/
theorem fst_take_le (solver : IncrementalSolver) {k n : Nat} (h : k ≤ n) (e : Enumeration) :
    (e.take solver k).1 = (e.take solver n).1.take k := by
  induction k generalizing n e with
  | zero => simp [take]
  | succ k ih =>
    obtain ⟨n, rfl⟩ := Nat.exists_eq_succ_of_ne_zero (Nat.ne_zero_of_lt h)
    rcases hnext : e.next solver with ⟨_ | m, e'⟩
    · simp [take, hnext]
    · rw [take_succ_of_yield hnext, take_succ_of_yield hnext,
        take_succ_cons, ih (Nat.le_of_succ_le_succ h)]

end Enumeration

/-! ## What is yielded -/

/-- The models solve the constraints, and each list of values that the terms have in a solution is
that of one of them. -/
structure Enumerates (cs : List Constraint) (terms : List IntTerm) (ms : List Model) : Prop where
  solves : ∀ m ∈ ms, Solves cs m.value
  nodup : (ms.map fun m => valuesOf terms m.value).Nodup
  complete : ∀ env, Solves cs env → ∃ m ∈ ms, valuesOf terms m.value = valuesOf terms env

/-- The same for the solutions that agree with a model on the fixed terms and differ from it on
the rest. -/
structure EnumeratesOthers (cs : List Constraint) (m : Model) (fixed rest : List IntTerm)
    (ms : List Model) : Prop where
  solves : ∀ m' ∈ ms, Solves cs m'.value
  agrees : ∀ m' ∈ ms, valuesOf fixed m'.value = valuesOf fixed m.value
  differs : ∀ m' ∈ ms, valuesOf rest m'.value ≠ valuesOf rest m.value
  nodup : (ms.map fun m => valuesOf rest m.value).Nodup
  complete : ∀ env, Solves cs env → valuesOf fixed env = valuesOf fixed m.value →
    valuesOf rest env ≠ valuesOf rest m.value → ∃ m' ∈ ms,
      valuesOf rest m'.value = valuesOf rest env

private theorem enumeratesOthers_nil (cs : List Constraint) (m : Model) (fixed : List IntTerm) :
    EnumeratesOthers cs m fixed [] [] where
  solves := by simp
  agrees := by simp
  differs := by simp
  nodup := nodup_nil
  complete := fun _ _ _ hdiffers => absurd rfl hdiffers

private theorem EnumeratesOthers.cons (h : Enumerates (cs ++ splitting m fixed t) (t :: rest) ms)
    (h' : EnumeratesOthers cs m (fixed ++ [t]) rest ms') :
    EnumeratesOthers cs m fixed (t :: rest) (ms ++ ms') := by
  have hsplit : ∀ m' ∈ ms, Solves cs m'.value ∧ t.eval m'.value ≠ t.eval m.value ∧
      valuesOf fixed m'.value = valuesOf fixed m.value :=
    fun m' hm' => solves_split.mp (h.solves m' hm')
  have hagrees : ∀ m' ∈ ms', valuesOf fixed m'.value = valuesOf fixed m.value ∧
      t.eval m'.value = t.eval m.value := by
    intro m' hm'
    have heq := h'.agrees m' hm'
    rw [valuesOf_append, valuesOf_append] at heq
    simpa [valuesOf] using append_inj' heq rfl
  refine ⟨?_, ?_, ?_, ?_, ?_⟩
  · exact forall_mem_append.mpr ⟨fun m' hm' => (hsplit m' hm').1, h'.solves⟩
  · exact forall_mem_append.mpr ⟨fun m' hm' => (hsplit m' hm').2.2,
      fun m' hm' => (hagrees m' hm').1⟩
  · refine forall_mem_append.mpr ⟨fun m' hm' heq => ?_, fun m' hm' heq => ?_⟩
    · exact (hsplit m' hm').2.1 (cons.inj heq).1
    · exact h'.differs m' hm' (cons.inj heq).2
  · -- the first part differs from the model in `t`, the second agrees with it
    rw [map_append, nodup_append]
    refine ⟨h.nodup, ?_, ?_⟩
    · have hmap : (ms'.map fun m => valuesOf rest m.value) =
          (ms'.map fun m => valuesOf (t :: rest) m.value).map tail := by
        simp [valuesOf_cons, Function.comp_def]
      exact Nodup.of_map _ (hmap ▸ h'.nodup)
    · intro values hvalues values' hvalues' heq
      obtain ⟨m₁, hm₁, rfl⟩ := mem_map.mp hvalues
      obtain ⟨m₂, hm₂, rfl⟩ := mem_map.mp hvalues'
      have hfirst : t.eval m₁.value = t.eval m₂.value := (cons.inj heq).1
      exact (hsplit m₁ hm₁).2.1 (hfirst.trans (hagrees m₂ hm₂).2)
  · intro env henv hfixed hdiffers
    by_cases ht : t.eval env = t.eval m.value
    · have hrest : valuesOf rest env ≠ valuesOf rest m.value := fun heq =>
        hdiffers (by rw [valuesOf_cons, valuesOf_cons, ht, heq])
      have hfixed' : valuesOf (fixed ++ [t]) env = valuesOf (fixed ++ [t]) m.value := by
        rw [valuesOf_append, valuesOf_append, hfixed, valuesOf_cons, valuesOf_cons, ht]
        rfl
      obtain ⟨m', hm', heq⟩ := h'.complete env henv hfixed' hrest
      refine ⟨m', mem_append_right ms hm', ?_⟩
      rw [valuesOf_cons, valuesOf_cons, heq, ht, (hagrees m' hm').2]
    · obtain ⟨m', hm', heq⟩ := h.complete env (solves_split.mpr ⟨henv, ht, hfixed⟩)
      exact ⟨m', mem_append_left ms' hm', heq⟩

private theorem EnumeratesOthers.enumerates (hm : Solves cs m.value)
    (h : EnumeratesOthers cs m [] terms ms) : Enumerates cs terms (m :: ms) := by
  refine ⟨forall_mem_cons.mpr ⟨hm, h.solves⟩, ?_, ?_⟩
  · rw [map_cons, nodup_cons]
    refine ⟨fun hmem => ?_, h.nodup⟩
    obtain ⟨m', hm', heq⟩ := mem_map.mp hmem
    exact h.differs m' hm' heq
  · intro env henv
    by_cases heq : valuesOf terms env = valuesOf terms m.value
    · exact ⟨m, mem_cons_self, heq.symm⟩
    · obtain ⟨m', hm', hvalues⟩ := h.complete env henv rfl heq
      exact ⟨m', mem_cons_of_mem m hm', hvalues⟩

/-! ## Runs -/

/-- Looking for models with the given assertions ends, has yielded all of them, and leaves the
stack as it was. -/
def Exhausts (solver : IncrementalSolver) (terms : List IntTerm) (stack : AssertionStack) : Prop :=
  ∀ tasks checks, ∃ ms checks', Produces solver ⟨stack, checks, .models terms :: tasks⟩ ms
    ⟨stack, checks', tasks⟩ ∧ Enumerates stack.assertions terms ms

private theorem produces_otherModels (hparts : ∀ before t after, rest = before ++ t :: after →
      Exhausts solver (t :: after) (splitting m (fixed ++ before) t :: stack))
    (tasks : List EnumerationTask) (checks : Nat) :
    ∃ ms checks', Produces solver ⟨stack, checks, otherModels m fixed rest ++ tasks⟩ ms
      ⟨stack, checks', tasks⟩ ∧
      EnumeratesOthers stack.assertions m fixed rest ms := by
  induction rest generalizing fixed checks with
  | nil => exact ⟨[], checks, .refl _, enumeratesOthers_nil _ m fixed⟩
  | cons t rest ih =>
    -- the models that differ in `t`, on a level of their own
    have hpart := hparts [] t rest rfl
    rw [append_nil] at hpart
    obtain ⟨ms, checks₁, hproduces, henumerates⟩ :=
      hpart (.leave :: (otherModels m (fixed ++ [t]) rest ++ tasks)) checks
    rw [assertions_cons] at henumerates
    -- and those that agree in `t`
    have hparts' : ∀ before u after, rest = before ++ u :: after →
        Exhausts solver (u :: after) (splitting m (fixed ++ [t] ++ before) u :: stack) := by
      intro before u after heq
      rw [append_assoc]
      exact hparts (t :: before) u after (by rw [heq]; rfl)
    obtain ⟨ms', checks₂, hproduces', henumerates'⟩ := ih hparts' checks₁
    have henter :
        (⟨stack, checks, otherModels m fixed (t :: rest) ++ tasks⟩ : Enumeration).next solver =
        (⟨splitting m fixed t :: stack, checks,
          .models (t :: rest) :: .leave :: (otherModels m (fixed ++ [t]) rest ++ tasks)⟩ :
            Enumeration).next solver := by
      rw [← assertAll_push]
      rfl
    have hleave : (⟨splitting m fixed t :: stack, checks₁,
          .leave :: (otherModels m (fixed ++ [t]) rest ++ tasks)⟩ : Enumeration).next solver =
        (⟨stack, checks₁, otherModels m (fixed ++ [t]) rest ++ tasks⟩ : Enumeration).next solver :=
      rfl
    exact ⟨ms ++ ms', checks₂, .silent henter (hproduces.trans (.silent hleave hproduces')),
      .cons henumerates henumerates'⟩

section

variable (hsolver : solver.DecidesTests terms stack.assertions)
  (hfinite : (solutionValues stack.assertions terms).Finite)

include hsolver hfinite

private theorem exhausts_of_finite : Exhausts solver terms stack := by
  -- by induction on the number of lists of values that are left
  generalize hcard : (solutionValues stack.assertions terms).ncard = card
  induction card using Nat.strongRecOn generalizing terms stack with
  | ind card ih =>
    intro tasks checks
    cases hcheck : solver.check checks stack.assertions with
    | none =>
      have hnext : (⟨stack, checks, .models terms :: tasks⟩ : Enumeration).next solver =
          (⟨stack, checks + 1, tasks⟩ : Enumeration).next solver := by
        simp [Enumeration.next, advance, hcheck]
      refine ⟨[], checks + 1, .silent hnext (.refl _), by simp, nodup_nil, ?_⟩
      exact fun env henv => absurd henv (hsolver.decides.unsolvable hcheck env)
    | some m =>
      have hm : Solves stack.assertions m.value := hsolver.decides.solves hcheck
      have hnext : (⟨stack, checks, .models terms :: tasks⟩ : Enumeration).next solver =
          (some m, ⟨stack, checks + 1, otherModels m [] terms ++ tasks⟩) := by
        simp [Enumeration.next, advance, hcheck]
      have hparts : ∀ before t after, terms = before ++ t :: after →
          Exhausts solver (t :: after) (splitting m ([] ++ before) t :: stack) := by
        intro before t after hterms
        subst hterms
        have hlevel : assertions (splitting m before t :: stack) =
            stack.assertions ++ splitting m before t := assertions_cons _ _
        obtain ⟨hpart, hless⟩ := ncard_split_lt hm hfinite
        rw [← hlevel] at hpart hless
        exact ih _ (hcard ▸ hless) (hlevel ▸ hsolver.split m) hpart rfl
      obtain ⟨ms, checks', hproduces, hothers⟩ := produces_otherModels hparts tasks (checks + 1)
      exact ⟨m :: ms, checks', .yield hnext hproduces, hothers.enumerates hm⟩

theorem Enumeration.produces_start :
    ∃ ms checks, Produces solver (start terms stack) ms ⟨stack, checks, []⟩ ∧
      Enumerates stack.assertions terms ms :=
  exhausts_of_finite hsolver hfinite [] 0

end

theorem Enumerates.mem_iff (h : Enumerates cs terms ms) (values : List Int) :
    values ∈ (ms.map fun m => valuesOf terms m.value) ↔ values ∈ solutionValues cs terms := by
  rw [mem_map]
  constructor
  · rintro ⟨m, hm, rfl⟩
    exact ⟨m.value, h.solves m hm, rfl⟩
  · rintro ⟨env, henv, rfl⟩
    exact h.complete env henv

theorem Enumerates.of_cover (hsolves : ∀ m ∈ ms, Solves cs m.value)
    (hnodup : (ms.map fun m => valuesOf terms m.value).Nodup)
    (hterms : terms.flatMap IntTerm.vars ⊆ names)
    (hcover : ∀ env, Solves cs env → ∃ m ∈ ms, ∀ s ∈ names, m.value s = env s) :
    Enumerates cs terms ms := by
  refine ⟨hsolves, hnodup, fun env henv => ?_⟩
  obtain ⟨m, hm, hvalues⟩ := hcover env henv
  refine ⟨m, hm, map_congr_left fun t ht => IntTerm.eval_congr fun s hs => ?_⟩
  exact hvalues s (hterms (mem_flatMap.mpr ⟨t, ht, hs⟩))

private theorem Enumerates.finite (h : Enumerates cs terms ms) : (solutionValues cs terms).Finite :=
  (finite_toSet _).subset fun values hvalues => (h.mem_iff values).mpr hvalues

theorem Enumerates.ncard_eq (h : Enumerates cs terms ms) :
    (solutionValues cs terms).ncard = ms.length := by
  have hset : solutionValues cs terms =
      ((ms.map fun m => valuesOf terms m.value).toFinset : Set (List Int)) := by
    ext values
    rw [coe_toFinset]
    exact (h.mem_iff values).symm
  rw [hset, Set.ncard_coe_finset, toFinset_card_of_nodup h.nodup, length_map]

/-- Where the terms have finitely many lists of values in the solutions, and whichever models the
solver chooses, an enumeration that is asked often enough comes to its end: it has yielded each
of these lists of values once and no others, and the stack is as it was before. -/
theorem Enumeration.take_exhausts {solver : IncrementalSolver} {terms : List IntTerm}
    {stack : AssertionStack} (hsolver : solver.DecidesTests terms stack.assertions)
    (hfinite : (solutionValues stack.assertions terms).Finite) :
    ∃ ms checks,
      (∀ n, ms.length < n → (start terms stack).take solver n = (ms, ⟨stack, checks, []⟩)) ∧
      (ms.map fun m => valuesOf terms m.value).Nodup ∧
      {values | values ∈ ms.map fun m => valuesOf terms m.value} =
        solutionValues stack.assertions terms := by
  obtain ⟨ms, checks, hproduces, henumerates⟩ := produces_start hsolver hfinite
  exact ⟨ms, checks, fun n hn => hproduces.take_eq hn, henumerates.nodup,
    Set.ext henumerates.mem_iff⟩

def triangle : List Constraint :=
  [.compare .le (.const 0) (.var "x"), .compare .le (.var "x") (.var "y"),
    .compare .le (.var "y") (.const 1)]

def triangleModels : List Model :=
  [[("x", 0), ("y", 1)], [("x", 1), ("y", 1)], [("x", 0), ("y", 0)]]

private theorem triangle_covered (env : String → Int) (h : Solves triangle env) :
    ∃ m ∈ triangleModels, ∀ s ∈ ["x", "y"], m.value s = env s := by
  simp only [triangle, Solves, forall_mem_cons, holds, Comparison.holdsInt, decide_eq_true_eq] at h
  simp only [eval] at h
  have hcases : env "x" = 0 ∧ env "y" = 1 ∨ env "x" = 1 ∧
      env "y" = 1 ∨ env "x" = 0 ∧ env "y" = 0 := by omega
  simpa [triangleModels, Model.value, lookup_cons, eq_comm] using hcases

/-- The sum of two coordinates and the first of them, in a triangle. -/
theorem Enumeration.triangle_exhausted :
    let terms : List IntTerm := [.add (.var "x") (.var "y"), .var "x"]
    let stack := AssertionStack.ofList triangle
    let solver : IncrementalSolver := Solver.among triangleModels
    solver.DecidesTests terms stack.assertions ∧ (solutionValues stack.assertions terms).Finite ∧
      ∃ ms checks,
        (∀ n, ms.length < n → (start terms stack).take solver n = (ms, ⟨stack, checks, []⟩)) ∧
        (ms.map fun m => valuesOf terms m.value).Nodup ∧
        {values | values ∈ ms.map fun m => valuesOf terms m.value} =
          solutionValues stack.assertions terms := by
  intro terms stack solver
  have hsolver : solver.DecidesTests terms stack.assertions :=
    Solver.decidesTests_among (by decide) (by decide) triangle_covered
  have hmodels : Enumerates stack.assertions terms triangleModels :=
    .of_cover (by unfold Solves; decide) (by decide) (by decide) triangle_covered
  have hfinite := hmodels.finite
  exact ⟨hsolver, hfinite, take_exhausts hsolver hfinite⟩

end Polyloom
