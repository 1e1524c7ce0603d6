import Mathlib.Data.List.Forall2

/-!
# Lists that are related member by member
-/

namespace Polyloom

open List

variable {α β γ : Type} {R : α → β → Prop} {as : List α} {bs : List β}

theorem forall₂_imp_mem {S : α → β → Prop} (h : Forall₂ R as bs)
    (himp : ∀ a ∈ as, ∀ b, R a b → S a b) : Forall₂ S as bs := by
  induction h with
  | nil => exact .nil
  | cons hab _ ih =>
    rw [forall_mem_cons] at himp
    exact .cons (himp.1 _ hab) (ih himp.2)

theorem forall₂_comp {S : β → γ → Prop} {T : α → γ → Prop}
    (hcomp : ∀ a b c, R a b → S b c → T a c) {cs : List γ}
    (h : Forall₂ R as bs) (h' : Forall₂ S bs cs) : Forall₂ T as cs := by
  induction h generalizing cs with
  | nil =>
    cases h' with
    | nil => exact .nil
  | cons hab _ ih =>
    cases h' with
    | cons hbc hrest => exact .cons (hcomp _ _ _ hab hbc) (ih hrest)

theorem forall_mem_of_forall₂ {P : β → Prop}
    (h : Forall₂ (fun _ b => P b) as bs) : ∀ b ∈ bs, P b := by
  induction h with
  | nil => simp
  | cons hb _ ih => exact forall_mem_cons.mpr ⟨hb, ih⟩

theorem forall₂_flatMap {δ : Type} {R : γ → δ → Prop} {f : α → List γ} {g : β → List δ}
    (h : Forall₂ (fun a b => Forall₂ R (f a) (g b)) as bs) :
    Forall₂ R (as.flatMap f) (bs.flatMap g) := by
  induction h with
  | nil => exact .nil
  | cons hab _ ih => exact rel_append hab ih

theorem forall₂_isEmpty (h : Forall₂ R as bs) : bs.isEmpty = as.isEmpty := by
  cases h with
  | nil => rfl
  | cons _ _ => rfl

theorem forall₂_append_left {as' : List α} (h : Forall₂ R (as ++ as') bs) :
    ∃ cs cs', bs = cs ++ cs' ∧ Forall₂ R as cs ∧ Forall₂ R as' cs' := by
  induction as generalizing bs with
  | nil => exact ⟨[], bs, rfl, .nil, h⟩
  | cons a as ih =>
    obtain ⟨b, bs, hab, hrest, rfl⟩ := forall₂_cons_left_iff.mp h
    obtain ⟨cs, cs', rfl, hcs, hcs'⟩ := ih hrest
    exact ⟨b :: cs, cs', rfl, .cons hab hcs, hcs'⟩

theorem map_eq_map_of_forall₂ {f : α → γ} {g : β → γ}
    (h : Forall₂ R as bs) (heq : ∀ a b, R a b → g b = f a) : bs.map g = as.map f := by
  induction h with
  | nil => rfl
  | cons hab _ ih => rw [map_cons, map_cons, heq _ _ hab, ih]

theorem map_eq_self {f : α → α} (h : ∀ a ∈ as, f a = a) : as.map f = as :=
  (map_congr_left h).trans (map_id' as)

theorem forall₂_iff_forall_mem {P : α → Prop}
    (h : Forall₂ (fun a b => R a b ↔ P a) as bs) : Forall₂ R as bs ↔ ∀ a ∈ as, P a := by
  induction h with
  | nil => simp
  | cons hab _ ih => rw [forall₂_cons, forall_mem_cons, hab, ih]

end Polyloom
