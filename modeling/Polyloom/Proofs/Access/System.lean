import Polyloom.Access.Dependence
import Polyloom.Proofs.Access.Denotation

/-!
# What a dependence system says

The system of two accesses to one memory says that both denote, the second one with the
variables of the common loops ticked, and that the ticked variables are ordered at the depth.
The tick is put behind the printed name of a loop variable.  So it reaches the second access
only where that is also the name the variable was given.
-/

namespace Polyloom

variable {dst src : Access} {ivs : List String}

open Constraint

open NameTable (Tickless ticked)

/-! ## Ticks on constraints -/

private theorem Constraint.holds_rename (old new : String) (env : String → Int) (c : Constraint) :
    (c.rename old new).holds env = c.holds fun s => env (if s = old then new else s) := by
  rw [rename, holds_substitute]
  refine congrArg (c.holds ·) (funext fun s => ?_)
  by_cases h : s = old <;> simp [h, IntTerm.eval]

namespace Access

variable {printed : String → String}

private theorem primed_not_tickless (s : String) : ¬ Tickless (primed s) := by
  simp [Tickless, primed]

theorem primed_ne {s t : String} (h : Tickless t) : primed s ≠ t :=
  fun he => primed_not_tickless s (he ▸ h)

def later (ivs : List String) (s : String) : String := if s ∈ ivs then primed s else s

private theorem holds_foldl_rename (hivs : ∀ iv ∈ ivs, Tickless iv) (env : String → Int)
    (c : Constraint) : (ivs.foldl (fun c iv => c.rename iv (primed iv)) c).holds env =
    c.holds fun s => env (later ivs s) := by
  induction ivs generalizing c with
  | nil => simp [later]
  | cons iv rest ih =>
    rw [List.forall_mem_cons] at hivs
    have hnot : primed iv ∉ rest := fun h => primed_ne (hivs.2 _ h) rfl
    rw [List.foldl_cons, ih hivs.2, holds_rename]
    congr 1
    funext s
    by_cases hs : s = iv
    · simp [later, hs, hnot]
    · simp [later, hs]

/-! ## Order at a depth -/

/-- At depth `d` the later value is one on or more in loop `d`, and the same in the loops around
it. -/
def Step (d k : Nat) (before after : Int) : Prop :=
  (k + 1 < d → after = before) ∧ (k + 1 = d → before + 1 ≤ after)

private theorem solves_orderingFrom {d i : Nat} (h : i + ivs.length ≤ d) (env : String → Int) :
    Solves (orderingFrom d i ivs) env ↔ ∀ k iv,
      ivs[k]? = some iv → Step d (i + k) (env iv) (env (primed iv)) := by
  induction ivs generalizing i with
  | nil => simp [orderingFrom, Solves]
  | cons iv rest ih =>
    have hrest : i + 1 + rest.length ≤ d := by
      simp only [List.length_cons] at h
      omega
    have hfirst : (if (i : Int) < (d : Int) - 1 then
          compare .eq (.var (primed iv)) (.var iv)
        else .compare .ge (.var (primed iv)) (.add (.var iv) (.const 1))).holds env = true ↔
        Step d i (env iv) (env (primed iv)) := by
      unfold Step
      split
      · rename_i hi
        have hlt : i + 1 < d := by omega
        simp only [holds, Comparison.holdsInt, IntTerm.eval,
          hlt, hlt.ne, forall_const, false_imp_iff, and_true]
        exact decide_eq_true_iff
      · rename_i hi
        have heq : i + 1 = d := by
          simp only [List.length_cons] at h
          omega
        simp only [holds, Comparison.holdsInt, IntTerm.eval,
          heq, lt_irrefl, forall_const, false_imp_iff, true_and]
        exact decide_eq_true_iff
    rw [orderingFrom, solves_cons, hfirst, ih hrest]
    constructor
    · rintro ⟨hhead, htail⟩ k iv' hk
      cases k with
      | zero =>
        obtain rfl : iv = iv' := by simpa using hk
        exact hhead
      | succ k =>
        rw [show i + (k + 1) = i + 1 + k by omega]
        exact htail k iv' (by simpa using hk)
    · intro hall
      refine ⟨hall 0 iv rfl, fun k iv' hk => ?_⟩
      rw [show i + 1 + k = i + (k + 1) by omega]
      exact hall (k + 1) iv' (by simpa using hk)

private theorem constrainedLoops_nat (loops d : Nat) : constrainedLoops loops d = min loops d := by
  unfold constrainedLoops
  simp only
  split <;> omega

theorem solves_ordering (printed : String → String) (src dst : Access)
    (d : Nat) (env : String → Int) :
    Solves (ordering printed src dst d) env ↔
      ∀ k iv, (commonVariables printed src dst)[k]? = some iv →
        Step d k (env iv) (env (primed iv)) := by
  unfold ordering
  simp only [constrainedLoops_nat]
  generalize commonVariables printed src dst = ivs
  rw [solves_orderingFrom (by simp only [List.length_take]; omega)]
  simp only [Nat.zero_add]
  refine forall₂_congr fun k iv => ?_
  rw [List.getElem?_take]
  by_cases hk : k < min ivs.length d
  · simp [hk]
  · have hout : ivs[k]? = some iv → d ≤ k := fun h => by
      obtain ⟨hlt, -⟩ := List.getElem?_eq_some_iff.mp h
      omega
    simp only [hk, if_false, reduceCtorEq, false_imp_iff, true_iff]
    intro h
    have := hout h
    exact ⟨fun _ => by omega, fun _ => by omega⟩

theorem exists_ordered {loops : List String}
    (hloops : ∀ (k l : Nat) (i j : String), loops[k]? = some i → loops[l]? = some j →
      printed i = printed j → k = l) (htickless : ∀ v, Tickless (printed v))
        (d : Nat) (chosen : String → Prop) (env : String → Int) :
    ∃ env' : String → Int, (∀ n, (∀ i ∈ loops, chosen i → printed i ≠ n) → env' n = env n) ∧
      ∀ k i, loops[k]? = some i → chosen i →
        Step d k (env' (printed i)) (env' (primed (printed i))) := by
  let place : {x : Nat × String // loops[x.1]? = some x.2 ∧ chosen x.2} → String :=
    fun x => printed x.1.2
  have hplace : Function.Injective place := by
    rintro ⟨⟨k, i⟩, hi, hchosen⟩ ⟨⟨l, j⟩, hj, hchosen'⟩ hij
    obtain rfl := hloops k l i j hi hj hij
    obtain rfl : i = j := Option.some.inj (hi.symm.trans hj)
    rfl
  refine ⟨Function.extend place (fun x => env (primed (printed x.1.2)) - if x.1.1 + 1 <
    d then 0 else 1) env, fun n hn => ?_, fun k i hi hchosen => ?_⟩
  · refine Function.extend_apply' _ _ _ ?_
    rintro ⟨⟨⟨k, i⟩, hi, hchosen⟩, rfl⟩
    exact hn i (List.mem_of_getElem? hi) hchosen rfl
  · have hprimed : ¬ ∃ x, place x = primed (printed i) :=
      fun ⟨x, hx⟩ => primed_ne (htickless x.1.2) hx.symm
    have hfirst : Function.extend place
        (fun x => env (primed (printed x.1.2)) - if x.1.1 + 1 < d then 0 else 1) env (printed i) =
        env (primed (printed i)) - if k + 1 < d then 0 else 1 :=
      hplace.extend_apply _ env ⟨(k, i), hi, hchosen⟩
    rw [Function.extend_apply' _ _ _ hprimed, hfirst, Step]
    split <;> omega

/-! ## Common loops -/

theorem prefix_commonLoops (as bs : List String) :
    commonLoops as bs <+: as ∧ commonLoops as bs <+: bs := by
  induction as generalizing bs with
  | nil => simp [commonLoops]
  | cons a as ih =>
    cases bs with
    | nil => simp [commonLoops]
    | cons b bs =>
      rw [commonLoops]
      split
      · rename_i hab
        subst hab
        simpa [List.cons_prefix_cons] using ih bs
      · simp

theorem system_snd (printed : String → String) (src dst : Access) (depth : Int) :
    (system printed src dst depth).2 =
      (composePair printed src dst).2 ++ ordering printed src dst depth := by
  simp [system, compose]

theorem solves_tickedConstraints (htickless : ∀ v, Tickless (printed v))
    (src dst : Access) (env : String → Int) :
    Solves (dst.tickedConstraints (commonVariables printed src dst)) env ↔
      Solves dst.constraints fun s => env (later (commonVariables printed src dst) s) := by
  have hivs : ∀ iv ∈ commonVariables printed src dst, Tickless iv := by
    intro iv hiv
    obtain ⟨v, -, rfl⟩ := List.mem_map.mp hiv
    exact htickless v
  simp [Solves, tickedConstraints, holds_foldl_rename hivs]

theorem solves_system (htickless : ∀ v, Tickless (printed v))
    (hmemref : src.memref = dst.memref) (d : Nat) (env : String → Int) :
    Solves (system printed src dst d).2 env ↔ Solves src.constraints env ∧
      Solves dst.constraints (fun s => env (later (commonVariables printed src dst) s)) ∧ ∀ k iv,
      (commonVariables printed src dst)[k]? = some iv → Step d k (env iv) (env (primed iv)) := by
  rw [system_snd, composePair, if_neg (not_not.mpr hmemref), ← solves_ordering, solves_append,
    solves_append, solves_tickedConstraints htickless, and_assoc]

theorem solves_system_of_ne (printed : String → String) (hmemref : src.memref ≠ dst.memref)
    (d : Nat) (env : String → Int) : Solves (system printed src dst d).2 env ↔ ∀ k iv,
    (commonVariables printed src dst)[k]? = some iv → Step d k (env iv) (env (primed iv)) := by
  rw [system_snd, composePair, if_pos hmemref, ← solves_ordering]
  rfl

end Access

end Polyloom
