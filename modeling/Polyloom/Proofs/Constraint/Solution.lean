import Mathlib.Algebra.Order.Group.Abs
import Mathlib.Algebra.Order.Group.Int
import Mathlib.Data.Int.Interval
import Mathlib.Data.List.Lex
import Mathlib.Data.Set.Finite.Lemmas
import Mathlib.Data.Finite.Prod
import Polyloom.Constraint.Optimum

/-!
# Solutions of constraints

Values that solve constraints, and solvers that make some variables least or greatest one after
the other.  Such a solver exists: where the variables have bounded values, solutions that are
lexicographically least and greatest in them exist.
-/

namespace Polyloom

open Constraint List

variable {cs : List Constraint} {env env' : String → Int} {names : List String}

def Solves (cs : List Constraint) (env : String → Int) : Prop :=
  ∀ c ∈ cs, c.holds env = true

theorem solves_cons {c : Constraint} : Solves (c :: cs) env ↔ c.holds env = true ∧ Solves cs env :=
  forall_mem_cons

theorem solves_append {ds : List Constraint} :
    Solves (cs ++ ds) env ↔ Solves cs env ∧ Solves ds env :=
  forall_mem_append

/-! ## Variables -/

theorem IntTerm.eval_congr {t : IntTerm} (h : ∀ s ∈ t.vars, env s = env' s) :
    t.eval env = t.eval env' := by
  induction t with
  | const n => rfl
  | var s => exact h s (by simp [IntTerm.vars])
  | add l r ihl ihr | mul l r ihl ihr | div l r ihl ihr | mod l r ihl ihr =>
    simp only [IntTerm.vars, forall_mem_append] at h
    simp only [IntTerm.eval, ihl h.1, ihr h.2]

theorem Constraint.holds_congr {c : Constraint} (h : ∀ s ∈ c.vars, env s = env' s) :
    c.holds env = c.holds env' := by
  induction c with
  | truth b => rfl
  | compare op l r =>
    simp only [vars, forall_mem_append] at h
    simp only [holds, IntTerm.eval_congr h.1, IntTerm.eval_congr h.2]
  | not c ih => simp only [holds, ih h]
  | and l r ihl ihr | or l r ihl ihr =>
    simp only [vars, forall_mem_append] at h
    simp only [holds, ihl h.1, ihr h.2]

theorem solves_congr (h : ∀ s ∈ cs.flatMap vars, env s = env' s) :
    Solves cs env ↔ Solves cs env' := by
  refine forall₂_congr fun c hc => ?_
  rw [holds_congr fun s hs => h s (mem_flatMap.mpr ⟨c, hc, hs⟩)]

namespace Model

def of (names : List String) (env : String → Int) : Model := names.map fun s => (s, env s)

theorem value_of {names : List String} (env : String → Int) {s : String} (hs : s ∈ names) :
    (of names env).value s = env s := by
  induction names with
  | nil => simp at hs
  | cons n rest ih =>
    by_cases hn : s = n
    · simp [of, value, hn]
    · have hrest : (of rest env).value s = env s := ih ((mem_cons.mp hs).resolve_left hn)
      simpa [of, value, lookup_cons, beq_false_of_ne hn] using hrest

end Model

/-! ## Lexicographic order -/

section Order

variable {ι : Type} {l : List ι} {f g : ι → Int}

theorem map_cons_le_map_cons_iff {k : ι} :
    (k :: l).map f ≤ (k :: l).map g ↔ f k < g k ∨ f k = g k ∧ l.map f ≤ l.map g := by
  simp only [map_cons, le_iff_lt_or_eq, cons_lt_cons_iff, cons.injEq]
  tauto

theorem map_le_map (h : ∀ k ∈ l, f k ≤ g k) : l.map f ≤ l.map g := by
  induction l with
  | nil => exact le_rfl
  | cons k l ih =>
    rw [forall_mem_cons] at h
    rw [map_cons_le_map_cons_iff]
    exact (lt_or_eq_of_le h.1).imp_right fun heq => ⟨heq, ih h.2⟩

end Order

/-! ## Solvers -/

def BoundedIn (P : (String → Int) → Prop) (names : List String) : Prop :=
  ∃ bound : Int, ∀ env, P env → ∀ n ∈ names, |env n| ≤ bound

private theorem finite_values {P : (String → Int) → Prop} (h : BoundedIn P names) :
    {values | ∃ env, P env ∧ names.map env = values}.Finite := by
  obtain ⟨bound, hbound⟩ := h
  induction names with
  | nil =>
    refine (Set.finite_singleton []).subset ?_
    rintro _ ⟨env, -, rfl⟩
    rfl
  | cons n rest ih =>
    have hrest := ih fun env henv m hm => hbound env henv m (mem_cons_of_mem n hm)
    refine ((Set.finite_Icc (-bound) bound).image2 cons hrest).subset ?_
    rintro _ ⟨env, henv, rfl⟩
    exact ⟨env n, abs_le.mp (hbound env henv n mem_cons_self), _, ⟨env, henv, rfl⟩, rfl⟩

/-- A model is least, or else greatest, among the solutions in the lexicographic order of some
variables. -/
structure Model.IsExtreme (least : Bool) (names : List String) (cs : List Constraint)
    (m : Model) : Prop where
  solves : Solves cs m.value
  below : least = true → ∀ env, Solves cs env → names.map m.value ≤ names.map env
  above : least = false → ∀ env, Solves cs env → names.map env ≤ names.map m.value

/-- A family of solvers that find a model which is least, or else greatest, in given variables,
where a solution exists and the variables have bounded values. -/
def Solver.IsLexicographic (solver : Bool → List String → Solver) : Prop :=
  ∀ least names cs, (∃ env, Solves cs env) → BoundedIn (Solves cs) names →
    ∃ m, (solver least names).model? cs = some m ∧ m.IsExtreme least names cs

private theorem exists_isExtreme (least : Bool) (hsolvable : ∃ env, Solves cs env)
    (hbounded : BoundedIn (Solves cs) names) : ∃ m : Model, m.IsExtreme least names cs := by
  have hmodel : ∀ env, let m := Model.of (cs.flatMap vars ++ names) env
      (Solves cs m.value ↔ Solves cs env) ∧ names.map m.value = names.map env := by
    intro env
    refine ⟨solves_congr fun s hs => Model.value_of env (mem_append_left names hs), ?_⟩
    exact map_congr_left fun s hs => Model.value_of env (mem_append_right _ hs)
  have hfinite := finite_values hbounded
  obtain ⟨env₀, henv₀⟩ := hsolvable
  cases least with
  | true =>
    obtain ⟨_, ⟨env, henv, rfl⟩, hleast⟩ := Set.exists_min_image _ id hfinite ⟨_, env₀, henv₀, rfl⟩
    obtain ⟨hsolves, hvalues⟩ := hmodel env
    refine ⟨_, hsolves.mpr henv, fun _ env' henv' => ?_, fun h => by simp at h⟩
    exact hvalues ▸ hleast _ ⟨env', henv', rfl⟩
  | false =>
    obtain ⟨_, ⟨env, henv, rfl⟩, hgreatest⟩ :=
      Set.exists_max_image _ id hfinite ⟨_, env₀, henv₀, rfl⟩
    obtain ⟨hsolves, hvalues⟩ := hmodel env
    refine ⟨_, hsolves.mpr henv, fun h => by simp at h, fun _ env' henv' => ?_⟩
    exact hvalues ▸ hgreatest _ ⟨env', henv', rfl⟩

open Classical in
noncomputable def Solver.extreme (least : Bool) (names : List String) : Solver where
  model? cs :=
    if h : ∃ m : Model, m.IsExtreme least names cs then some h.choose else none

theorem Solver.isLexicographic_extreme : Solver.IsLexicographic Solver.extreme := by
  intro least names cs hsolvable hbounded
  have hexists := exists_isExtreme least hsolvable hbounded
  exact ⟨hexists.choose, dif_pos hexists, hexists.choose_spec⟩

end Polyloom
