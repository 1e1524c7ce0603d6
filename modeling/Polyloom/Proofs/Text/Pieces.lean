import Mathlib.Data.List.Basic
import Mathlib.Tactic.Common
import Polyloom.Text.Pieces

/-!
# Pieces between single characters

A text that is cut at a single character falls into the pieces between its occurrences.
-/

namespace Polyloom.Text

open List

theorem pieces_singleton (a : Char) (cs : List Char) : pieces [a] cs = cs.splitOn a := by
  induction cs with
  | nil => rfl
  | cons c rest ih =>
    rw [splitOn_cons_eq_if_modifyHead, ← ih]
    by_cases h : c = a
    · simp [pieces, cut, h]
    · simp [pieces, cut, h, Ne.symm h]

theorem not_mem_of_mem_splitOn {a : Char} {piece cs : List Char} (h : piece ∈ cs.splitOn a) :
    a ∉ piece := by
  induction cs generalizing piece with
  | nil =>
    rw [splitOn_nil, mem_singleton] at h
    simp [h]
  | cons c rest ih =>
    rw [splitOn_cons_eq_if_modifyHead] at h
    split at h
    next hc =>
      obtain rfl | h := mem_cons.mp h
      · simp
      · exact ih h
    next hc =>
      obtain ⟨first, others, hsplit⟩ := exists_cons_of_ne_nil (splitOn_ne_nil a rest)
      rw [hsplit, modifyHead_cons] at h
      rw [hsplit] at ih
      obtain rfl | h := mem_cons.mp h
      · rw [mem_cons, not_or]
        exact ⟨fun heq => hc (beq_iff_eq.mpr heq.symm), ih (mem_cons_self ..)⟩
      · exact ih (mem_cons_of_mem _ h)

variable {a : Char} {separator : String}

theorem splitOn_eq (hseparator : separator.toList = [a]) (text : String) :
    splitOn text separator = (text.toList.splitOn a).map String.ofList := by
  rw [splitOn, hseparator, pieces_singleton]

theorem splitOn_eq_single (hseparator : separator.toList = [a]) {text : String}
    (h : a ∉ text.toList) : splitOn text separator = [text] := by
  rw [splitOn_eq hseparator, splitOn_eq_singleton h]
  simp

theorem splitOn_append_cons (hseparator : separator.toList = [a]) {front : String}
    (h : a ∉ front.toList) (rest : String) :
    splitOn (front ++ separator ++ rest) separator = front :: splitOn rest separator := by
  rw [splitOn_eq hseparator, splitOn_eq hseparator, String.toList_append, String.toList_append,
    hseparator, append_assoc, singleton_append,
    splitOn_append_cons_self_of_not_mem h]
  simp

end Polyloom.Text
