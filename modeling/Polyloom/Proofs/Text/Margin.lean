import Polyloom.Proofs.Text.Pieces
import Polyloom.Text.Margin

/-!
# Margins of lines

A text of lines is moved line by line: to the right unless a line is blank, and to the left by the
margin that its lines share.
-/

namespace Polyloom.Text

open List

variable {line margin last : List Char}

def isLine (s : String) : Bool := s.toList.all fun c => !endsLine c

theorem isLine_append (s t : String) : isLine (s ++ t) = (isLine s && isLine t) := by
  simp [isLine, String.toList_append]

theorem isLine_intercalate {separator : String} {parts : List String}
    (hseparator : isLine separator = true) (h : ∀ s ∈ parts, isLine s = true) :
    isLine (separator.intercalate parts) = true := by
  induction parts with
  | nil => rfl
  | cons s rest ih =>
    rw [forall_mem_cons] at h
    cases rest with
    | nil => simpa using h.1
    | cons t rest =>
      rw [String.intercalate_cons_cons, isLine_append, isLine_append, h.1, hseparator, ih h.2]
      rfl

theorem newline_not_mem {s : String} (h : isLine s = true) : '\n' ∉ s.toList := by
  intro hmem
  have hline := all_eq_true.mp h '\n' hmem
  exact absurd hline (by decide)

/-! ## Moving to the right -/

theorem fullLines_cons {c : Char} (h : endsLine c = false) (rest : List Char) :
    fullLines (c :: rest) = consLine c (fullLines rest) := by
  have hreturn : c ≠ '\r' := by
    rintro rfl
    exact absurd h (by decide)
  rw [fullLines.eq_def]
  split
  · rename_i heq
    simp at heq
  · rename_i heq
    exact absurd (cons.inj heq).1 hreturn
  · rename_i heq
    obtain ⟨rfl, rfl⟩ := cons.inj heq
    simp [h]

private theorem fullLines_append (h : (line.all fun c => !endsLine c) = true) (rest : List Char) :
    fullLines (line ++ '\n' :: rest) = (line ++ ['\n']) :: fullLines rest := by
  induction line with
  | nil => simp [fullLines, endsLine]
  | cons c line ih =>
    simp only [all_cons, Bool.and_eq_true, Bool.not_eq_true'] at h
    rw [cons_append, fullLines_cons h.1, ih h.2]
    rfl

private theorem fullLines_line (h : (line.all fun c => !endsLine c) = true) (hne : line ≠ []) :
    fullLines line = [line] := by
  induction line with
  | nil => exact absurd rfl hne
  | cons c line ih =>
    simp only [all_cons, Bool.and_eq_true, Bool.not_eq_true'] at h
    rw [fullLines_cons h.1]
    cases line with
    | nil => rfl
    | cons d line =>
      rw [ih h.2 (by simp)]
      rfl

def terminated (lines : List (List Char)) : List Char := lines.flatMap (· ++ ['\n'])

theorem indent_line (h : (line.all fun c => !endsLine c) = true)
    (hblank : line.all isBlank = false) : indent margin line = margin ++ line := by
  have hne : line ≠ [] := by
    rintro rfl
    simp at hblank
  rw [indent, fullLines_line h hne, map_singleton, hblank]
  simp

theorem indent_terminated {lines : List (List Char)}
    (h : ∀ line ∈ lines, (line.all fun c => !endsLine c) = true)
    (hblank : ∀ line ∈ lines, line.all isBlank = false) :
    indent margin (terminated lines) = terminated (lines.map (margin ++ ·)) := by
  induction lines with
  | nil => rfl
  | cons line lines ih =>
    rw [forall_mem_cons] at h hblank
    have hrest := ih h.2 hblank.2
    simp only [terminated, indent, flatMap_cons, append_assoc,
      singleton_append, map_cons] at hrest ⊢
    rw [fullLines_append h.1, map_cons, flatten_cons, hrest]
    simp [hblank.1]

/-! ## Moving to the left -/

private theorem sharedStart_append (margin xs ys : List Char) :
    sharedStart (margin ++ xs) (margin ++ ys) = margin ++ sharedStart xs ys := by
  induction margin with
  | nil => rfl
  | cons c margin ih => simp [sharedStart, ih]

private theorem sharedMargin_append (h : margin.all isMargin = true) (lines : List (List Char)) :
    sharedMargin (lines.map (margin ++ ·)) = (sharedMargin lines).map (margin ++ ·) := by
  have htake : ∀ line : List Char,
      (margin ++ line).takeWhile isMargin = margin ++ line.takeWhile isMargin := fun line =>
    takeWhile_append_of_pos (all_eq_true.mp h)
  induction lines with
  | nil => rfl
  | cons line lines ih =>
    simp only [map_cons, sharedMargin, all_append, h, Bool.true_and, ih, htake]
    split
    · rfl
    · cases sharedMargin lines with
      | none => rfl
      | some other => simp [sharedStart_append]

private theorem sharedMargin_concat (lines : List (List Char)) (h : last.all isMargin = true) :
    sharedMargin (lines ++ [last]) = sharedMargin lines := by
  induction lines with
  | nil => simp [sharedMargin, h]
  | cons line lines ih => simp only [cons_append, sharedMargin, ih]

theorem sharedMargin_cons {c : Char} (h : isMargin c = false) (cs : List Char)
    (lines : List (List Char)) : sharedMargin ((c :: cs) :: lines) = some [] := by
  simp only [sharedMargin, all_cons, h, Bool.false_and, Bool.false_eq_true,
    if_false, takeWhile_cons]
  cases sharedMargin lines <;> rfl

private theorem intercalate_concat_nil (lines : List (List Char)) :
    ['\n'].intercalate (lines ++ [[]]) = terminated lines := by
  induction lines with
  | nil => rfl
  | cons line lines ih =>
    cases lines with
    | nil => simp [terminated]
    | cons next lines =>
      rw [cons_append, cons_append, intercalate_cons_cons, ← cons_append, ih]
      simp [terminated]

/-- A margin that all lines have goes, and with it the last line if it is nothing else. -/
theorem dedent_block {lines : List (List Char)} (hmargin : margin.all isMargin = true)
    (hlast : last.all isMargin = true) (hshared : sharedMargin lines = some [])
    (hlines : ∀ line ∈ lines, line.all isMargin = false) (hline : ∀ line ∈ lines, '\n' ∉ line) :
    dedent (['\n'].intercalate (lines.map (margin ++ ·) ++ [last])) = terminated lines := by
  have hnewline : ∀ cs : List Char, cs.all isMargin = true → '\n' ∉ cs := fun cs hcs hmem =>
    absurd (all_eq_true.mp hcs '\n' hmem) (by decide)
  have hpieces : pieces ['\n'] (['\n'].intercalate (lines.map (margin ++ ·) ++ [last])) =
      lines.map (margin ++ ·) ++ [last] := by
    rw [pieces_singleton, splitOn_intercalate]
    · intro line hmem
      rw [mem_append, mem_singleton] at hmem
      obtain hmem | rfl := hmem
      · obtain ⟨body, hbody, rfl⟩ := mem_map.mp hmem
        rw [mem_append]
        exact fun h => h.elim (hnewline margin hmargin) (hline body hbody)
      · exact hnewline _ hlast
    · simp
  have hdrop : ∀ line ∈ lines, dropMargin margin (margin ++ line) = line := by
    intro line hmem
    have hsome := hlines line hmem
    rw [dropMargin, all_append, hmargin, hsome]
    simp
  unfold dedent
  simp only [hpieces, sharedMargin_concat _ hlast, sharedMargin_append hmargin, hshared,
    Option.map_some, Option.getD_some, append_nil, map_append, map_map,
    Function.comp_def, map_cons, map_nil]
  rw [map_congr_left hdrop, map_id', dropMargin, if_pos hlast, intercalate_concat_nil]

end Polyloom.Text
