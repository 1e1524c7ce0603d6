import Mathlib.Data.List.Infix
import Mathlib.Tactic.Common
import Polyloom.Text.Pieces

/-!
# Texts that occur in other texts

A text that does not have a certain character occurs on one side of it or on the other, never
across.  So it occurs in texts that are joined at the character exactly if it occurs in one of them.
-/

namespace Polyloom.Text

open List

private theorem occurs_iff_infix (part text : List Char) :
    occurs part text = true ↔ part <:+: text := by
  induction text with
  | nil => simp [occurs]
  | cons c rest ih =>
    rw [occurs, Bool.or_eq_true, isPrefixOf_iff_prefix, ih, infix_cons_iff]

theorem contains_iff_infix (text part : String) :
    contains text part = true ↔ part.toList <:+: text.toList :=
  occurs_iff_infix part.toList text.toList

theorem occurs_singleton (a : Char) (cs : List Char) : occurs [a] cs = decide (a ∈ cs) := by
  induction cs with
  | nil => rfl
  | cons c cs ih =>
    rw [occurs, ih]
    by_cases h : a = c <;> simp [h]

variable {part : List Char} {a : Char}

theorem prefix_append_cons_iff (h : a ∉ part) (front back : List Char) :
    part <+: front ++ a :: back ↔ part <+: front := by
  induction front generalizing part with
  | nil =>
    cases part with
    | nil => simp
    | cons c part =>
      have hne : c ≠ a := fun hc => h (by simp [hc])
      simp [cons_prefix_cons, hne]
  | cons b front ih =>
    cases part with
    | nil => simp
    | cons c part =>
      have hrest : a ∉ part := fun hmem => h (mem_cons_of_mem c hmem)
      rw [cons_append, cons_prefix_cons, cons_prefix_cons, ih hrest]

theorem infix_append_cons_iff (h : a ∉ part) (front back : List Char) :
    part <:+: front ++ a :: back ↔ part <:+: front ∨ part <:+: back := by
  induction front with
  | nil =>
    have hstarts := prefix_append_cons_iff h [] back
    rw [nil_append] at hstarts ⊢
    rw [infix_cons_iff, hstarts, prefix_nil, infix_nil]
  | cons b front ih =>
    have hstarts := prefix_append_cons_iff h (b :: front) back
    rw [cons_append] at hstarts ⊢
    rw [infix_cons_iff, hstarts, ih, infix_cons_iff, or_assoc]

/-- The empty text is left out: it occurs even where no texts are joined. -/
theorem infix_intercalate_iff (h : a ∉ part) (hne : part ≠ []) (texts : List (List Char)) :
    part <:+: [a].intercalate texts ↔ ∃ text ∈ texts, part <:+: text := by
  induction texts with
  | nil => simpa using hne
  | cons text texts ih =>
    cases texts with
    | nil => simp
    | cons next texts =>
      rw [intercalate_cons_cons, append_assoc, singleton_append, infix_append_cons_iff h, ih]
      simp

/-! ## Digits -/

theorem isDigit_of_mem_repr {n : Nat} {c : Char} (h : c ∈ n.repr.toList) : c.isDigit = true := by
  rw [Nat.toList_repr] at h
  exact Nat.isDigit_of_mem_toDigits (by decide) (by decide) h

theorem repr_injective : Function.Injective Nat.repr := by
  intro m n h
  have hdigits := congrArg String.toList h
  rw [Nat.toList_repr, Nat.toList_repr] at hdigits
  rw [← @Nat.ofDigitChars_ten_toDigits m, hdigits, Nat.ofDigitChars_ten_toDigits]

end Polyloom.Text
