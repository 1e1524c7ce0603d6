import Polyloom.Proofs.Access.System

/-!
# Depths and the lexicographic order

The orderings of all depths cut up the pairs of iterations: an iteration that is lexicographically
smaller than another is ordered before it at exactly one depth of a common loop, and the depths
beyond the common loops order an iteration with itself only.
-/

namespace Polyloom.Access

open List

variable {p q : List Int}

/-! ## Iterations -/

/-- One iteration is before another at a depth. -/
def Ordered (d : Nat) (p q : List Int) : Prop :=
  ∀ k a b, p[k]? = some a → q[k]? = some b → Step d k a b

private theorem step_succ (d k : Nat) (a b : Int) : Step (d + 1) (k + 1) a b ↔ Step d k a b := by
  simp [Step]

private theorem step_first (a b : Int) : Step 1 0 a b ↔ a < b :=
  ⟨fun h => Int.add_one_le_iff.mp (h.2 rfl), fun h => ⟨by omega, fun _ => Int.add_one_le_iff.mpr h⟩⟩

private theorem step_around (d : Nat) (a b : Int) : Step (d + 2) 0 a b ↔ b = a := by
  simp [Step]

private theorem ordered_zero (p q : List Int) : Ordered 0 p q := by
  simp [Ordered, Step]

private theorem ordered_cons {d : Nat} {a b : Int} :
    Ordered (d + 1) (a :: p) (b :: q) ↔ Step (d + 1) 0 a b ∧ Ordered d p q := by
  constructor
  · intro h
    refine ⟨h 0 a b rfl rfl, fun k x y hx hy => ?_⟩
    exact (step_succ d k x y).mp (h (k + 1) x y (by simpa using hx) (by simpa using hy))
  · rintro ⟨hfirst, hrest⟩ k x y hx hy
    cases k with
    | zero =>
      obtain rfl : a = x := by simpa using hx
      obtain rfl : b = y := by simpa using hy
      exact hfirst
    | succ k =>
      exact (step_succ d k x y).mpr (hrest k x y (by simpa using hx) (by simpa using hy))

/-- The smaller of two iterations is before the other at the depth of the first loop in which they
differ. -/
private theorem exists_ordered_iff_lt (h : p.length = q.length) :
    (∃ k < p.length, Ordered (k + 1) p q) ↔ p < q := by
  induction p generalizing q with
  | nil =>
    obtain rfl : q = [] := length_eq_zero_iff.mp h.symm
    simp
  | cons a p ih =>
    cases q with
    | nil => simp at h
    | cons b q =>
      rw [cons_lt_cons_iff, ← ih (Nat.succ.inj h)]
      constructor
      · rintro ⟨k, hk, hordered⟩
        obtain ⟨hstep, hrest⟩ := ordered_cons.mp hordered
        cases k with
        | zero => exact .inl ((step_first a b).mp hstep)
        | succ k =>
          exact .inr ⟨((step_around k a b).mp hstep).symm, k, Nat.lt_of_succ_lt_succ hk, hrest⟩
      · rintro (hlt | ⟨rfl, k, hk, hordered⟩)
        · exact ⟨0, Nat.succ_pos _, ordered_cons.mpr ⟨(step_first a b).mpr hlt, ordered_zero p q⟩⟩
        · exact ⟨k + 1, Nat.succ_lt_succ hk,
            ordered_cons.mpr ⟨(step_around k a a).mpr rfl, hordered⟩⟩

private theorem Ordered.not_deeper {d d' : Nat} (h : p.length = q.length) (hd : 1 ≤ d)
    (hlength : d ≤ p.length) (hordered : Ordered d p q) (hdeeper : d < d') : ¬ Ordered d' p q := by
  intro hordered'
  obtain ⟨k, rfl⟩ : ∃ k, d = k + 1 := Nat.exists_eq_add_of_le' hd
  have hp : k < p.length := hlength
  have hq : k < q.length := h ▸ hp
  have hstep := hordered k p[k] q[k] (getElem?_eq_getElem hp) (getElem?_eq_getElem hq)
  have hsame := hordered' k p[k] q[k] (getElem?_eq_getElem hp) (getElem?_eq_getElem hq)
  have hlater := hstep.2 rfl
  have heq := hsame.1 hdeeper
  omega

private theorem ordered_beyond_iff {d : Nat} (h : p.length = q.length) (hd : p.length < d) :
    Ordered d p q ↔ p = q := by
  constructor
  · intro hordered
    refine List.ext_getElem h fun k hp hq => ?_
    have hstep := hordered k p[k] q[k] (List.getElem?_eq_getElem hp) (List.getElem?_eq_getElem hq)
    exact (hstep.1 (by omega)).symm
  · rintro rfl k a b ha hb
    obtain rfl : a = b := Option.some.inj (ha.symm.trans hb)
    obtain ⟨hk, -⟩ := List.getElem?_eq_some_iff.mp ha
    exact ⟨fun _ => rfl, fun heq => by omega⟩

/-! ## Values of loop variables -/

/-- The loop variables have the values of two iterations, the ticked ones those of the second. -/
structure Assigns (env : String → Int) (ivs : List String) (p q : List Int) : Prop where
  first : ivs.map env = p
  second : (ivs.map fun iv => env (primed iv)) = q

private theorem Assigns.solves_ordering_iff {printed : String → String} {src dst : Access}
    {env : String → Int} (h : Assigns env (commonVariables printed src dst) p q) (d : Nat) :
    Solves (ordering printed src dst d) env ↔ Ordered d p q := by
  rw [solves_ordering, ← h.first, ← h.second]
  constructor
  · intro hsteps k a b ha hb
    simp only [getElem?_map, Option.map_eq_some_iff] at ha hb
    obtain ⟨iv, hiv, rfl⟩ := ha
    obtain ⟨iv', hiv', rfl⟩ := hb
    obtain rfl : iv = iv' := Option.some.inj (hiv.symm.trans hiv')
    exact hsteps k iv hiv
  · intro hordered k iv hiv
    exact hordered k _ _ (by simp [hiv]) (by simp [hiv])

private theorem primed_injective : Function.Injective primed :=
  fun _ _ h => (String.append_left_inj "'").mp h

private theorem exists_values {names : List String} (hnames : names.Nodup) {values : List Int}
    (hlength : values.length = names.length) : ∃ env : String → Int, names.map env = values := by
  refine ⟨Function.extend names.get (fun k => values.get (k.cast hlength.symm)) 0, ?_⟩
  refine ext_getElem (by simp [hlength]) fun k hk hk' => ?_
  have hname : k < names.length := by simpa using hk
  rw [getElem_map]
  exact (nodup_iff_injective_get.mp hnames).extend_apply _ _ ⟨k, hname⟩

private theorem exists_assigns {ivs : List String} (hdistinct : ivs.Nodup)
    (hticks : ∀ iv ∈ ivs, primed iv ∉ ivs) (hp : p.length = ivs.length)
    (hq : q.length = ivs.length) : ∃ env, Assigns env ivs p q := by
  have hnames : (ivs ++ ivs.map primed).Nodup := by
    refine hdistinct.append (hdistinct.map primed_injective) fun s hs hprimed => ?_
    obtain ⟨iv, hiv, rfl⟩ := mem_map.mp hprimed
    exact hticks iv hiv hs
  have hlength : (p ++ q).length = (ivs ++ ivs.map primed).length := by simp [hp, hq]
  obtain ⟨env, henv⟩ := exists_values hnames hlength
  rw [map_append, map_map] at henv
  obtain ⟨hfirst, hsecond⟩ := append_inj henv (by simp [hp])
  exact ⟨env, hfirst, hsecond⟩

/-! ## The partition -/

/-- The orderings of the depths partition the lexicographic order.  Values of the loop variables in
two iterations satisfy the ordering of exactly one depth of a common loop if the first iteration
is smaller than the second, and of no such depth otherwise; they satisfy the ordering of a depth
beyond the common loops exactly if the iterations are the same. -/
theorem ordering_partitions_lex (printed : String → String) (src dst : Access)
    (hdistinct : (commonVariables printed src dst).Nodup) {p q : List Int}
    (hp : p.length = (commonVariables printed src dst).length)
    (hq : q.length = (commonVariables printed src dst).length) :
    ((∀ iv ∈ commonVariables printed src dst, primed iv ∉ commonVariables printed src dst) →
      ∃ env, Assigns env (commonVariables printed src dst) p q) ∧
    ∀ env, Assigns env (commonVariables printed src dst) p q →
      (p < q → ∃! d : Nat, (1 ≤ d ∧ d ≤ p.length) ∧ Solves (ordering printed src dst d) env) ∧
      (¬ p < q → ∀ d : Nat, 1 ≤ d → d ≤ p.length → ¬ Solves (ordering printed src dst d) env) ∧
      ∀ d : Nat, p.length < d → (Solves (ordering printed src dst d) env ↔ p = q) := by
  have hlength : p.length = q.length := hp.trans hq.symm
  refine ⟨fun hticks => exists_assigns hdistinct hticks hp hq, fun env henv => ?_⟩
  simp only [henv.solves_ordering_iff]
  refine ⟨fun hlt => ?_, fun hnot d hd hn hordered => ?_, fun d hd => ordered_beyond_iff hlength hd⟩
  · obtain ⟨k, hk, hordered⟩ := (exists_ordered_iff_lt hlength).mpr hlt
    refine ⟨k + 1, ⟨⟨Nat.le_add_left 1 k, hk⟩, hordered⟩, ?_⟩
    rintro d ⟨⟨hd, hn⟩, hordered'⟩
    -- neither of two depths that both order the iterations is deeper than the other
    rcases Nat.lt_trichotomy d (k + 1) with hless | heq | hmore
    · exact absurd hordered (hordered'.not_deeper hlength hd hn hless)
    · exact heq
    · exact absurd hordered' (hordered.not_deeper hlength (Nat.le_add_left 1 k) hk hmore)
  · obtain ⟨k, rfl⟩ : ∃ k, d = k + 1 := Nat.exists_eq_add_of_le' hd
    exact hnot ((exists_ordered_iff_lt hlength).mp ⟨k, hn, hordered⟩)

def inNest : Access := { (default : Access) with loops := ["i", "j", "k"] }

theorem inNest_ordered_once : (commonVariables id inNest inNest).Nodup ∧
      ∃ env, Assigns env (commonVariables id inNest inNest) [2, 0, 5] [2, 1, 3] ∧
        (∃! d : Nat, (1 ≤ d ∧ d ≤ 3) ∧ Solves (ordering id inNest inNest d) env) ∧
        ¬ Solves (ordering id inNest inNest (4 : Nat)) env := by
  have hdistinct : (commonVariables id inNest inNest).Nodup := by decide
  obtain ⟨hassigns, hpartition⟩ := ordering_partitions_lex id inNest inNest hdistinct
    (p := [2, 0, 5]) (q := [2, 1, 3]) rfl rfl
  obtain ⟨env, henv⟩ := hassigns (by decide)
  obtain ⟨hsmaller, -, hbeyond⟩ := hpartition env henv
  exact ⟨hdistinct, env, henv, hsmaller (by decide), fun h => by
    simpa using (hbeyond 4 (by decide)).mp h⟩

end Polyloom.Access
