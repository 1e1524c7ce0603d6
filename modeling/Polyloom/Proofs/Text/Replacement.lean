import Mathlib.Data.Nat.Init
import Polyloom.Proofs.Text.Occurrence

/-!
# Replacing what occurs in a text

A text is read from the left.  Where the pattern stands, the replacement is written and reading goes
on behind it; elsewhere one character is copied.  This reading is an induction on texts, and
everything else follows from it: what holds no occurrence stays as it is, a character that the
pattern does not have separates two replacements, and outside of the first and the last occurrence
both texts are the same.
-/

namespace Polyloom.Text

open List

variable {a c : Char} {new rest : List Char} {pattern front back text : List Char}

/-! ## Reading from the left -/

private theorem cut_skip (separator : List Char) (skip : Nat) (text : List Char) :
    cut separator skip text = cut separator 0 (text.drop skip) := by
  induction text generalizing skip with
  | nil => cases skip <;> simp [cut]
  | cons c rest ih =>
    cases skip with
    | zero => rfl
    | succ skip =>
      rw [cut, drop_succ_cons]
      exact ih skip

private theorem pieces_append_self (h : pattern ≠ []) (rest : List Char) :
    pieces pattern (pattern ++ rest) = [] :: pieces pattern rest := by
  obtain ⟨c, tail, rfl⟩ := exists_cons_of_ne_nil h
  have hstarts : (c :: tail).isPrefixOf (c :: (tail ++ rest)) = true := by
    rw [ isPrefixOf_iff_prefix]
    exact prefix_append (c :: tail) rest
  rw [cons_append, pieces, cut, if_pos hstarts, cut_skip, length_cons,
    Nat.add_sub_cancel, drop_left]
  rfl

private theorem pieces_cons (h : ¬ pattern <+: c :: rest) :
    pieces pattern (c :: rest) = (pieces pattern rest).modifyHead (c :: ·) := by
  rw [← isPrefixOf_iff_prefix] at h
  rw [pieces, cut, if_neg h]
  rfl

theorem pieces_ne_nil (pattern text : List Char) : pieces pattern text ≠ [] := cons_ne_nil _ _

theorem replaceAll_nil (pattern new : List Char) : replaceAll pattern new [] = [] := by
  simp [replaceAll, pieces, cut]

theorem replaceAll_append_self (h : pattern ≠ []) (new rest : List Char) :
    replaceAll pattern new (pattern ++ rest) = new ++ replaceAll pattern new rest := by
  obtain ⟨piece, others, hpieces⟩ := exists_cons_of_ne_nil (pieces_ne_nil pattern rest)
  rw [replaceAll, pieces_append_self h, replaceAll, hpieces, intercalate_cons_cons]
  rfl

theorem replaceAll_cons (h : ¬ pattern <+: c :: rest) (new : List Char) :
    replaceAll pattern new (c :: rest) = c :: replaceAll pattern new rest := by
  obtain ⟨piece, others, hpieces⟩ := exists_cons_of_ne_nil (pieces_ne_nil pattern rest)
  rw [replaceAll, pieces_cons h, replaceAll, hpieces, modifyHead_cons]
  cases others with
  | nil => simp
  | cons next others => simp [intercalate_cons_cons]

/-- The cases of reading: the end, an occurrence, a character that begins none. -/
theorem reading_induction {motive : List Char → Prop} (h : pattern ≠ [])
    (nil : motive []) (found : ∀ rest, motive rest → motive (pattern ++ rest))
    (passed : ∀ c rest, ¬ pattern <+: c :: rest → motive rest → motive (c :: rest))
      (text : List Char) : motive text := by
  induction hlength : text.length using Nat.strong_induction_on generalizing text with
  | _ n ih =>
    subst hlength
    by_cases hstarts : pattern <+: text
    · obtain ⟨rest, rfl⟩ := hstarts
      have hpos := length_pos_iff.mpr h
      exact found rest (ih rest.length (by rw [length_append]; omega) rest rfl)
    · cases text with
      | nil => exact nil
      | cons c rest => exact passed c rest hstarts (ih rest.length (by simp) rest rfl)

/-! ## Texts that are copied -/

theorem replaceAll_of_not_infix (new : List Char) (h : ¬ pattern <:+: text) :
    replaceAll pattern new text = text := by
  induction text with
  | nil => exact replaceAll_nil pattern new
  | cons c rest ih =>
    rw [infix_cons_iff, not_or] at h
    rw [replaceAll_cons h.1, ih h.2]

/-- Two texts of which neither begins with the other: what begins with one of them does not begin
with the other. -/
private theorem not_prefix_append {t : List Char} (hpattern : ¬ pattern <+: t)
    (ht : ¬ t <+: pattern) (rest : List Char) :
    ¬ pattern <+: t ++ rest := by
  intro h
  obtain h' | h' := prefix_or_prefix_of_prefix h (prefix_append t rest)
  · exact hpattern h'
  · exact ht h'

/-- No occurrence of the pattern begins in a text that differs from it at each place. -/
def Avoids (pattern front : List Char) : Prop :=
  ∀ t ∈ front.tails, t ≠ [] → ¬ pattern <+: t ∧ ¬ t <+: pattern

instance (pattern front : List Char) : Decidable (Avoids pattern front) :=
  inferInstanceAs (Decidable (∀ t ∈ front.tails, t ≠ [] → ¬ pattern <+: t ∧ ¬ t <+: pattern))

theorem Avoids.of_cons (h : Avoids pattern (c :: front)) :
    (∀ rest, ¬ pattern <+: c :: (front ++ rest)) ∧ Avoids pattern front := by
  refine ⟨fun rest => ?_, fun t ht => h t ?_⟩
  · have hhere := h (c :: front) (by simp) (by simp)
    exact not_prefix_append hhere.1 hhere.2 rest
  · rw [tails_cons]
    exact mem_cons_of_mem _ ht

theorem Avoids.replaceAll_append (h : Avoids pattern front) (new rest : List Char) :
    replaceAll pattern new (front ++ rest) = front ++ replaceAll pattern new rest := by
  induction front with
  | nil => rfl
  | cons c front ih =>
    have hcons := h.of_cons
    rw [cons_append, replaceAll_cons (hcons.1 rest), ih hcons.2, cons_append]

theorem Avoids.infix_append_iff (h : Avoids pattern front) (rest : List Char) :
    pattern <:+: front ++ rest ↔ pattern <:+: rest := by
  induction front with
  | nil => rfl
  | cons c front ih =>
    have hcons := h.of_cons
    rw [cons_append, infix_cons_iff, ih hcons.2, or_iff_right (hcons.1 rest)]

/-! ## Replacing on both sides of a character -/

section Separated

variable {a : Char} (ha : a ∉ pattern) (hne : pattern ≠ [])

include ha hne

private theorem replaceAll_append_cons (new front back : List Char) :
    replaceAll pattern new (front ++ a :: back) =
      replaceAll pattern new front ++ a :: replaceAll pattern new back := by
  induction front using reading_induction hne with
  | nil =>
    have hnot : ¬ pattern <+: a :: back := by
      rw [← nil_append (a :: back), prefix_append_cons_iff ha, prefix_nil]
      exact hne
    rw [nil_append, replaceAll_cons hnot, replaceAll_nil, nil_append]
  | found rest ih => simp only [append_assoc, replaceAll_append_self hne, ih]
  | passed c rest hnot ih =>
    have hnot' : ¬ pattern <+: c :: (rest ++ a :: back) := by
      rwa [← cons_append, prefix_append_cons_iff ha]
    rw [cons_append, replaceAll_cons hnot', replaceAll_cons hnot, ih, cons_append]

theorem replaceAll_intercalate (new : List Char) (texts : List (List Char)) :
    replaceAll pattern new ([a].intercalate texts) =
      [a].intercalate (texts.map (replaceAll pattern new)) := by
  induction texts with
  | nil => exact replaceAll_nil pattern new
  | cons text texts ih =>
    cases texts with
    | nil => simp
    | cons next texts =>
      rw [map_cons, map_cons, intercalate_cons_cons, intercalate_cons_cons, append_assoc,
        append_assoc, singleton_append, singleton_append, replaceAll_append_cons ha hne, ih,
        map_cons]

end Separated

theorem not_mem_replaceAll (hne : pattern ≠ []) (hby : a ∉ new) (h : a ∉ text) :
    a ∉ replaceAll pattern new text := by
  induction text using reading_induction hne with
  | nil => simp [replaceAll_nil]
  | found rest ih =>
    rw [mem_append, not_or] at h
    rw [replaceAll_append_self hne, mem_append, not_or]
    exact ⟨hby, ih h.2⟩
  | passed c rest hnot ih =>
    rw [mem_cons, not_or] at h
    rw [replaceAll_cons hnot, mem_cons, not_or]
    exact ⟨h.1, ih h.2⟩

/-! ## Outside of the occurrences -/

/-- Before the first occurrence both texts are the same. -/
theorem replaceAll_front (hne : pattern ≠ []) (new text : List Char) :
    replaceAll pattern new text = text ∨ ∃ front u v,
      text = front ++ pattern ++ u ∧ replaceAll pattern new text = front ++ new ++ v := by
  induction text using reading_induction hne with
  | nil => exact .inl (replaceAll_nil pattern new)
  | found rest ih => exact .inr ⟨[], rest, _, rfl, replaceAll_append_self hne new rest⟩
  | passed c rest hnot ih =>
    rw [replaceAll_cons hnot]
    obtain ih | ⟨front, u, v, hrest, hreplaced⟩ := ih
    · exact .inl (congrArg (c :: ·) ih)
    · exact .inr ⟨c :: front, u, v, congrArg (c :: ·) hrest, congrArg (c :: ·) hreplaced⟩

/-- Behind the last occurrence both texts are the same. -/
theorem replaceAll_back (hne : pattern ≠ []) (new text : List Char) :
    replaceAll pattern new text = text ∨ ∃ back u v,
      text = u ++ pattern ++ back ∧ replaceAll pattern new text = v ++ new ++ back := by
  induction text using reading_induction hne with
  | nil => exact .inl (replaceAll_nil pattern new)
  | found rest ih =>
    rw [replaceAll_append_self hne]
    obtain ih | ⟨back, u, v, hrest, hreplaced⟩ := ih
    · exact .inr ⟨rest, [], [], rfl, congrArg (new ++ ·) ih⟩
    · refine .inr ⟨back, pattern ++ u, new ++ v, ?_, ?_⟩
      · rw [hrest]
        simp only [append_assoc]
      · rw [hreplaced]
        simp only [append_assoc]
  | passed c rest hnot ih =>
    rw [replaceAll_cons hnot]
    obtain ih | ⟨back, u, v, hrest, hreplaced⟩ := ih
    · exact .inl (congrArg (c :: ·) ih)
    · exact .inr ⟨back, c :: u, c :: v, congrArg (c :: ·) hrest, congrArg (c :: ·) hreplaced⟩

/-- Nothing is left to replace: the pattern's first character stands in it nowhere else, begins the
replacement, and no occurrence begins in the replacement. -/
theorem not_infix_replaceAll {tail : List Char} (ha : a ∉ tail)
    (hby : ∃ u, new = a :: u) (havoids : Avoids (a :: tail) new) (text : List Char) :
    ¬ a :: tail <:+: replaceAll (a :: tail) new text := by
  have hne : a :: tail ≠ [] := cons_ne_nil a tail
  induction text using reading_induction hne with
  | nil => simp [replaceAll_nil]
  | found rest ih => rwa [replaceAll_append_self hne, havoids.infix_append_iff]
  | passed c rest hnot ih =>
    rw [replaceAll_cons hnot, infix_cons_iff, not_or]
    refine ⟨fun hstarts => hnot ?_, ih⟩
    rw [cons_prefix_cons] at hstarts ⊢
    refine ⟨hstarts.1, ?_⟩
    obtain hsame | ⟨front, u, v, hrest, hreplaced⟩ := replaceAll_front hne new rest
    · rw [← hsame]
      exact hstarts.2
    · -- the tail cannot reach the replacement, which begins with a character that it does not have
      obtain ⟨w, rfl⟩ := hby
      have htail := hstarts.2
      rw [hreplaced, append_assoc, cons_append, prefix_append_cons_iff ha] at htail
      rw [hrest, append_assoc]
      exact htail.trans (prefix_append front _)

theorem replaceAll_by_nothing (a : Char) (text : List Char) :
    replaceAll [a] [] text = text.filter (· ≠ a) := by
  have hne : [a] ≠ [] := by simp
  induction text using reading_induction hne with
  | nil => exact replaceAll_nil _ _
  | found rest ih =>
    rw [replaceAll_append_self hne, ih]
    simp
  | passed c rest hnot ih =>
    have hc : c ≠ a := by
      rintro rfl
      exact hnot (List.prefix_append [c] rest)
    rw [replaceAll_cons hnot, ih, List.filter_cons_of_pos (by simpa using hc)]

end Polyloom.Text
