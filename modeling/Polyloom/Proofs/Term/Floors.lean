import Polyloom.Proofs.Term.Reading

/-!
# Floors in terms

The floors of a linear term decide whether it is read: it is if all are of unit fractions, and
there is one and the same fault otherwise.
-/

namespace Polyloom.Term

open Except List

mutual

def floored : Term → List Term
  | .num _ | .sym _ | .infinity | .undefined => []
  | .sum ts | .prod ts => flooredAll ts
  | .pow a b | .mod a b => a.floored ++ b.floored
  | .floor a => a :: a.floored

def flooredAll : List Term → List Term
  | [] => []
  | t :: ts => t.floored ++ flooredAll ts

end

theorem mem_flooredAll {u : Term} {ts : List Term} :
    u ∈ flooredAll ts ↔ ∃ t ∈ ts, u ∈ t.floored := by
  induction ts with
  | nil => simp [flooredAll]
  | cons t ts ih => simp [flooredAll, ih]

theorem floored_multiple (c : Rat) (t : Term) : (prod [.num c, t]).floored = t.floored := by
  simp [floored, flooredAll]

variable {S T : Set Term} {ts us : List Term} {u t : Term} {α β : Type}

mutual

theorem Atomic.mem_of_mem_floored : ∀ {t : Term}, Atomic S t → ∀ u ∈ t.floored, u ∈ S
  | _, .sym s => by simp [floored]
  | _, .floor hmem h => by
    rw [floored, forall_mem_cons]
    exact ⟨hmem, h.mem_of_mem_floored⟩
  | _, .mod h _ _ => by simpa [floored] using h.mem_of_mem_floored

theorem Member.mem_of_mem_floored : ∀ {t : Term}, Member S t → ∀ u ∈ t.floored, u ∈ S
  | _, .num q => by simp [floored]
  | _, .atom h => h.mem_of_mem_floored
  | _, .multiple c h => by
    rw [floored_multiple]
    exact h.mem_of_mem_floored

theorem Linear.mem_of_mem_floored : ∀ {t : Term}, Linear S t → ∀ u ∈ t.floored, u ∈ S
  | _, .member h => h.mem_of_mem_floored
  | .sum ts, .sum _ h => by
    intro u hu
    rw [floored, mem_flooredAll] at hu
    obtain ⟨t, ht, hut⟩ := hu
    exact (h t ht).mem_of_mem_floored u hut

end

mutual

theorem Atomic.restrict : ∀ {t : Term}, Atomic S t → (∀ u ∈ t.floored, u ∈ T) → Atomic T t
  | _, .sym s, _ => .sym s
  | _, .floor _ h, hT => by
    rw [floored, forall_mem_cons] at hT
    exact .floor hT.1 (h.restrict hT.2)
  | _, .mod h hp hn, hT => .mod (h.restrict (by simpa [floored] using hT)) hp hn

theorem Member.restrict : ∀ {t : Term}, Member S t → (∀ u ∈ t.floored, u ∈ T) → Member T t
  | _, .num q, _ => .num q
  | _, .atom h, hT => .atom (h.restrict hT)
  | _, .multiple c h, hT => .multiple c (h.restrict (by rwa [floored_multiple] at hT))

theorem Linear.restrict : ∀ {t : Term}, Linear S t → (∀ u ∈ t.floored, u ∈ T) → Linear T t
  | _, .member h, hT => .member (h.restrict hT)
  | .sum ts, .sum hne h, hT => by
    refine .sum hne fun t ht => (h t ht).restrict fun u hu => hT u ?_
    rw [floored, mem_flooredAll]
    exact ⟨t, ht, hu⟩

end

theorem Atomic.add_multiple (h : Atomic S t) {c : Rat} (hc : c ≠ 0) :
    add [multiple c t] = multiple c t := by
  have hsummands : (multiple c t).summands = [multiple c t] := by
    rw [h.multiple_eq]
    split
    · cases h <;> rfl
    · rfl
  have hcollect : collect [multiple c t] = (0, [(t, c)]) := by
    rw [h.multiple_eq]
    split
    · rename_i hone
      subst hone
      cases h <;> rfl
    · rfl
  rw [add_eq_ofMembers (by simpa using (Linear.member (h.member_multiple c)).finite),
    flatMap_singleton, hsummands, hcollect]
  simp [members, hc, ofMembers, arrange]

private theorem Atomic.add_singleton (h : Atomic S t) : add [t] = t :=
  h.add_multiple one_ne_zero

theorem Atomic.floorDiv_int (h : Atomic Set.univ t) {n : Int} (hn : 2 ≤ n) :
    floorDiv t (int n) = .ok (.floor (.prod [.num (1 / (n : Rat)), t])) := by
  have hcast : (2 : Rat) ≤ n := by exact_mod_cast hn
  have hzero : 1 / (n : Rat) ≠ 0 := one_div_ne_zero (by linarith)
  have hone : 1 / (n : Rat) ≠ 1 := by
    rw [ne_eq, div_eq_one_iff_eq (by linarith)]
    linarith
  have hatom : t.asInt? = none := by cases h <;> rfl
  have hmultiple : multiple (1 / (n : Rat)) t = .prod [.num (1 / (n : Rat)), t] := by
    rw [h.multiple_eq, if_neg hone]
  have hquotient : div t (int n) = .prod [.num (1 / (n : Rat)), t] := by
    rw [div_int t (by omega), mul_num_comm, h.mul_num, h.scaled_eq, if_neg hzero, hmultiple]
  have hothers : add [.prod [.num (1 / (n : Rat)), t]] = .prod [.num (1 / (n : Rat)), t] := by
    rw [← hmultiple, h.add_multiple hzero]
  have hfloor : Atomic Set.univ (.floor (.prod [.num (1 / (n : Rat)), t])) :=
    .floor (Set.mem_univ _) (.member (.multiple _ h))
  simp only [floorDiv, hatom, hquotient]
  rw [floorOf_eq rfl (by simp)]
  simp only [summands, asInt?, Option.isSome_none, Bool.not_false, filter_cons_of_pos,
    filter_nil, Bool.false_eq_true, not_false_eq_true, filter_cons_of_neg, hothers]
  rw [floorBeside, hfloor.add_singleton] <;> simp

/-! ## Readings -/

/-- A number with numerator one, times a term. -/
def IsUnitFraction (t : Term) : Prop := ∃ q s, t = .prod [.num q, s] ∧ q.num = 1

/-- A term is read, and its floors are of unit fractions; or there is a fault, and one is not. -/
def Settled {α : Type} (floors : List Term) (result : Except Fault α) : Prop :=
  ((∃ r, result = .ok r) ∧ ∀ u ∈ floors, u.IsUnitFraction) ∨
    (result = .error (.assertion "") ∧ ∃ u ∈ floors, ¬ u.IsUnitFraction)

private theorem Settled.ok (r : α) : Settled [] (.ok r : Except Fault α) :=
  .inl ⟨⟨r, rfl⟩, by simp⟩

theorem Settled.bind {vs : List Term} {x : Except Fault α} {f : α → Except Fault β}
    (hx : Settled us x) (hf : ∀ a, Settled vs (f a)) : Settled (us ++ vs) (x >>= f) := by
  obtain ⟨⟨a, rfl⟩, hus⟩ | ⟨rfl, u, hu, hnot⟩ := hx
  · obtain ⟨⟨b, hb⟩, hvs⟩ | ⟨hfault, u, hu, hnot⟩ := hf a
    · exact .inl ⟨⟨b, hb⟩, forall_mem_append.mpr ⟨hus, hvs⟩⟩
    · exact .inr ⟨hfault, u, mem_append_right us hu, hnot⟩
  · exact .inr ⟨rfl, u, mem_append_left vs hu, hnot⟩

theorem Settled.map {x : Except Fault α} {f : α → Except Fault β} (hx : Settled us x)
    (hf : ∀ a, ∃ b, f a = .ok b) : Settled us (x >>= f) := by
  have hbind : Settled (us ++ []) (x >>= f) := hx.bind fun a => .inl ⟨hf a, by simp⟩
  rwa [append_nil] at hbind

theorem Settled.cons {x : Except Fault α} (hx : Settled us x) (hu : u.IsUnitFraction) :
    Settled (u :: us) x := by
  obtain ⟨hok, hus⟩ | ⟨hfault, v, hv, hnot⟩ := hx
  · exact .inl ⟨hok, forall_mem_cons.mpr ⟨hu, hus⟩⟩
  · exact .inr ⟨hfault, v, mem_cons_of_mem u hv, hnot⟩

theorem Settled.of_not (us : List Term) (hnot : ¬ u.IsUnitFraction) :
    Settled (u :: us) (.error (.assertion "") : Except Fault α) :=
  .inr ⟨rfl, u, mem_cons_self, hnot⟩

theorem Settled.exists_ok_iff {x : Except Fault α} (h : Settled us x) :
    (∃ r, x = .ok r) ↔ ∀ u ∈ us, u.IsUnitFraction := by
  obtain ⟨hok, hus⟩ | ⟨rfl, u, hu, hnot⟩ := h
  · exact ⟨fun _ => hus, fun _ => hok⟩
  · exact ⟨by simp, fun hus => absurd (hus u hu) hnot⟩

theorem Settled.fault_eq {x : Except Fault α} {fault : Fault} (h : Settled us x)
    (hx : x = .error fault) : fault = .assertion "" := by
  obtain ⟨⟨r, rfl⟩, -⟩ | ⟨rfl, -⟩ := h
  · simp at hx
  · exact (error.inj hx).symm

theorem interpretSum_settled (h : ∀ t ∈ ts, Settled t.floored (t.interpret .terms))
    (acc : IntTerm) : Settled (flooredAll ts) (interpretSum .terms ts acc) := by
  induction ts generalizing acc with
  | nil => exact .ok acc
  | cons t ts ih =>
    rw [forall_mem_cons] at h
    exact h.1.bind fun a => ih h.2 (acc.add a)

theorem Atomic.span_eq (h : Atomic S t) : t.span = 1 := by
  cases h <;> simp

theorem Integral.number {c : Rat} (h : Integral (.prod [.num c, t])) (ht : t.span = 1) :
    c ∈ integers := by
  have hwhole := h.whole
  rw [Whole, span_prod, map_cons, map_singleton, prod_cons, prod_singleton, ht, mul_one, span_num,
    Submodule.span_singleton_le_iff_mem] at hwhole
  exact mem_integers_of_mem_one hwhole

mutual

theorem Atomic.interpret_settled :
    ∀ {t : Term}, Atomic S t → Polynomial t → Settled t.floored (t.interpret .terms)
  | .sym s, .sym _, _ => .ok _
  | .floor t, .floor _ h, .floor hp => by
    cases h with
    | sum => exact .of_not _ (by simp [IsUnitFraction])
    | member h =>
      cases h with
      | num => exact .of_not _ (by simp [IsUnitFraction])
      | atom h => cases h <;> exact .of_not _ (by simp [IsUnitFraction])
      | multiple q h =>
        rw [interpret, floored]
        split
        · rename_i hunit
          rw [floored_multiple]
          exact ((h.interpret_settled hp.of_multiple).map fun a => ⟨_, rfl⟩).cons ⟨q, _, rfl, hunit⟩
        · rename_i hunit
          refine .of_not _ ?_
          rintro ⟨q', s', heq, hunit'⟩
          simp_all
  | .mod p (.num _), .mod h hnum _, .mod hp hwhole _ => by
    rw [interpret, if_pos (before_num _ hnum), asInt?_num_int, floored]
    exact (h.interpret_settled ⟨hp, hwhole⟩).bind fun a => .ok _

theorem Member.interpret_settled :
    ∀ {t : Term}, Member S t → Integral t → Settled t.floored (t.interpret .terms)
  | .num q, .num _, hint => by
    have hq := hint.value_mem fun _ => 0
    rw [value_num] at hq
    obtain ⟨n, rfl⟩ := mem_integers.mp hq
    exact .ok _
  | _, .atom h, hint => h.interpret_settled hint.polynomial
  | .prod [.num c, t], .multiple _ h, hint => by
    obtain ⟨n, rfl⟩ := mem_integers.mp (hint.number h.span_eq)
    rw [floored_multiple, interpret, interpret, if_pos (Rat.den_intCast n)]
    exact (h.interpret_settled hint.polynomial.of_multiple).map fun a => ⟨_, rfl⟩

theorem Linear.interpret_settled :
    ∀ {t : Term}, Linear S t → Integral t → Settled t.floored (t.interpret .terms)
  | _, .member h, hint => h.interpret_settled hint
  | .sum [], .sum hne _, _ => absurd rfl hne
  | .sum (t :: ts), .sum _ h, hint => by
    have hall : ∀ s ∈ t :: ts, Settled s.floored (s.interpret .terms) := fun s hs =>
      (h s hs).interpret_settled (arithmetic_polynomial.summand hint s hs)
    rw [forall_mem_cons] at hall
    exact hall.1.bind fun a => interpretSum_settled hall.2 a

end

end Polyloom.Term
