import Mathlib.Data.List.Forall2
import Polyloom.Binding.Patch
import Polyloom.Proofs.Text.Pieces
import Polyloom.Proofs.Text.Replacement

/-!
# Patching once and again

Header files are patched line by line.  A line that opens a class gets the export marker, and then
the marker is set in front of the name of the context class wherever it follows the word `class`.
Neither of the two makes work for the other: a line that was patched is a line that patching leaves
alone.  So a second patch changes nothing, with the backup or without it.
-/

namespace Polyloom

open Text List

/-! ## Line feeds -/

/-- Both ways to end a line with a carriage return, one after the other. -/
def Text.normalized (text : List Char) : List Char :=
  replaceAll ['\r'] ['\n'] (replaceAll ['\r', '\n'] ['\n'] text)

theorem Text.universalNewlines_eq (text : List Char) :
    universalNewlines text = normalized text := by
  have hne : (['\r', '\n'] : List Char) ≠ [] := by decide
  have hne' : (['\r'] : List Char) ≠ [] := by decide
  unfold normalized
  fun_induction universalNewlines text with
  | case1 => rw [replaceAll_nil, replaceAll_nil]
  | case2 rest ih =>
    have hreturn : replaceAll ['\r', '\n'] ['\n'] ('\r' :: '\n' :: rest) =
        '\n' :: replaceAll ['\r', '\n'] ['\n'] rest := replaceAll_append_self hne ['\n'] rest
    rw [hreturn, replaceAll_cons (by simp), ih]
  | case3 c rest hother ih =>
    have hnot : ¬ ['\r', '\n'] <+: c :: rest := by
      rintro ⟨back, hback⟩
      obtain ⟨rfl, rfl⟩ := cons.inj hback
      exact hother back rfl rfl
    rw [replaceAll_cons hnot]
    by_cases hc : c = '\r'
    · subst hc
      rw [if_pos rfl, ih]
      exact (replaceAll_append_self hne' ['\n'] _).symm
    · rw [if_neg hc, replaceAll_cons (by simpa using Ne.symm hc), ih]

private theorem Text.return_not_mem_normalized (text : List Char) : '\r' ∉ normalized text := by
  rw [← universalNewlines_eq]
  fun_induction universalNewlines text with
  | case1 => simp
  | case2 rest ih => simpa using ih
  | case3 c rest hother ih =>
    rw [mem_cons, not_or]
    refine ⟨?_, ih⟩
    split
    · decide
    · exact Ne.symm ‹_›

private theorem Text.universalNewlines_of_not_mem {text : List Char} (h : '\r' ∉ text) :
    universalNewlines text = text := by
  have hreturn : ¬ ['\r'] <:+: text := by rwa [singleton_infix_iff]
  have hboth : ¬ ['\r', '\n'] <:+: text := fun hwithin =>
    hreturn ((prefix_append ['\r'] ['\n']).isInfix.trans hwithin)
  rw [universalNewlines_eq, normalized, replaceAll_of_not_infix _ hboth,
    replaceAll_of_not_infix _ hreturn]

namespace Binding

variable {line t : List Char}

/-! ## Lines that open a class -/

def opening : List Char := "class ".toList

def closing : List Char := " \x7b".toList

def classLine (t : List Char) : List Char := opening ++ t ++ closing

def markedOpening : List Char := opening ++ exportMarker

/-- A line that opens a class which is not exported. -/
def OpensClass (line : List Char) : Prop := ∃ t, line = classLine t ∧ ¬ exportMarker <+: t

private theorem classLine_iff :
    (∃ t, line = classLine t) ↔ 8 ≤ line.length ∧ opening <+: line ∧ closing <:+ line := by
  constructor
  · rintro ⟨t, rfl⟩
    refine ⟨?_, ?_, suffix_append _ _⟩
    · rw [classLine, length_append, length_append]
      change 8 ≤ 6 + t.length + 2
      omega
    · exact (prefix_append _ t).trans (prefix_append _ _)
  · rintro ⟨hlength, ⟨rest, rfl⟩, hsuffix⟩
    have hrest : closing <:+ rest := by
      refine suffix_of_suffix_length_le hsuffix (suffix_append _ rest) ?_
      rw [length_append] at hlength
      change 2 ≤ rest.length
      change 8 ≤ 6 + rest.length at hlength
      omega
    obtain ⟨t, rfl⟩ := hrest
    exact ⟨t, by rw [classLine, append_assoc]⟩

theorem classHead?_eq (line : List Char) : classHead? line =
    if opening.isPrefixOf line && closing.isSuffixOf (line.drop opening.length) then
      some ((line.drop opening.length).take (line.length - opening.length - closing.length))
    else none := rfl

theorem classHead?_classLine (t : List Char) : classHead? (classLine t) = some t := by
  have hdrop : (classLine t).drop opening.length = t ++ closing := by
    rw [classLine, append_assoc, drop_left]
  have hstarts : opening.isPrefixOf (classLine t) = true := by
    rw [ isPrefixOf_iff_prefix, classLine, append_assoc]
    exact prefix_append _ _
  have hsuffix : closing.isSuffixOf (t ++ closing) = true := by
    rw [isSuffixOf_iff_suffix]
    exact suffix_append _ _
  have hlength : (classLine t).length - opening.length - closing.length = t.length := by
    simp only [classLine, length_append]
    omega
  rw [classHead?_eq, hdrop, hstarts, hsuffix, hlength, take_left]
  rfl

private theorem classHead?_eq_none (h : ¬ ∃ t, line = classLine t) : classHead? line = none := by
  rw [classHead?_eq]
  refine if_neg fun hopens => h ?_
  rw [Bool.and_eq_true, isPrefixOf_iff_prefix, isSuffixOf_iff_suffix] at hopens
  obtain ⟨⟨rest, rfl⟩, hsuffix⟩ := hopens
  rw [drop_left] at hsuffix
  obtain ⟨t, rfl⟩ := hsuffix
  exact ⟨t, by rw [classLine, append_assoc]⟩

theorem markLine_classLine (h : ¬ exportMarker <+: t) :
    markLine (classLine t) = classLine (exportMarker ++ ' ' :: t) := by
  rw [← isPrefixOf_iff_prefix] at h
  simp only [markLine, classHead?_classLine, if_neg h]
  rw [classLine, ← append_assoc]
  rfl

theorem markLine_of_not_opens (h : ¬ OpensClass line) : markLine line = line := by
  by_cases hline : ∃ t, line = classLine t
  · obtain ⟨t, rfl⟩ := hline
    have hmarked : exportMarker <+: t := by
      by_contra hnot
      exact h ⟨t, rfl, hnot⟩
    rw [← isPrefixOf_iff_prefix] at hmarked
    simp only [markLine, classHead?_classLine, if_pos hmarked]
  · simp only [markLine, classHead?_eq_none hline]

theorem not_opensClass_of_marked (h : markedOpening <+: line) : ¬ OpensClass line := by
  rintro ⟨t, rfl, hnot⟩
  rw [markedOpening, classLine, append_assoc, prefix_append_right_inj] at h
  -- the marker has no blank, so it does not reach behind the head
  have hblank : ' ' ∉ exportMarker := by decide
  exact hnot ((prefix_append_cons_iff hblank t _).mp h)

theorem markedOpening_prefix_classLine (t : List Char) :
    markedOpening <+: classLine (exportMarker ++ ' ' :: t) := by
  rw [markedOpening, classLine, append_assoc, append_assoc, prefix_append_right_inj]
  exact prefix_append _ _

private theorem not_opensClass_markLine (line : List Char) : ¬ OpensClass (markLine line) := by
  by_cases h : OpensClass line
  · obtain ⟨t, rfl, hnot⟩ := h
    rw [markLine_classLine hnot]
    exact not_opensClass_of_marked (markedOpening_prefix_classLine t)
  · rwa [markLine_of_not_opens h]

/-! ## The context class -/

def markContext (line : List Char) : List Char := replaceAll contextClass markedContextClass line

theorem contextClass_ne_nil : contextClass ≠ [] := by decide

theorem not_infix_markContext (line : List Char) : ¬ contextClass <:+: markContext line := by
  have ha : 'c' ∉ "lass DefaultingPyMlirContext".toList := by decide
  have havoids : Avoids contextClass markedContextClass := by decide
  exact not_infix_replaceAll ha ⟨_, rfl⟩ havoids line

theorem markContext_of_not_infix (h : ¬ contextClass <:+: line) : markContext line = line :=
  replaceAll_of_not_infix _ h

private theorem avoids_markedOpening : Avoids contextClass markedOpening := by decide

theorem markedOpening_prefix_markContext (h : markedOpening <+: line) :
    markedOpening <+: markContext line := by
  obtain ⟨rest, rfl⟩ := h
  rw [markContext, avoids_markedOpening.replaceAll_append]
  exact prefix_append _ _

/-- The first characters of the context class and of its replacement are the same. -/
private theorem opening_prefix_of_markContext (h : opening <+: markContext line) :
    opening <+: line := by
  obtain hsame | ⟨front, u, v, hline, hmarked⟩ :=
    replaceAll_front contextClass_ne_nil markedContextClass line
  · rwa [markContext, hsame] at h
  have hclass : contextClass = opening ++ "DefaultingPyMlirContext".toList := rfl
  have hclass' :
      markedContextClass = opening ++ "PYBIND11_EXPORT DefaultingPyMlirContext".toList := rfl
  rw [markContext, hmarked, hclass', ← append_assoc front, append_assoc _ _ v] at h
  rw [hline, hclass, ← append_assoc front, append_assoc _ _ u]
  have hfront : opening <+: front ++ opening :=
    prefix_of_prefix_length_le h (prefix_append _ _) (by simp)
  exact hfront.trans (prefix_append _ _)

/-- The last characters of the context class and of its replacement are the same. -/
private theorem closing_suffix_of_markContext (h : closing <:+ markContext line) :
    closing <:+ line := by
  obtain hsame | ⟨back, u, v, hline, hmarked⟩ :=
    replaceAll_back contextClass_ne_nil markedContextClass line
  · rwa [markContext, hsame] at h
  have hclass : contextClass = opening ++ "DefaultingPyMlirContext".toList := rfl
  have hclass' : markedContextClass = "class PYBIND11_EXPORT ".toList ++
      "DefaultingPyMlirContext".toList := rfl
  rw [markContext, hmarked, hclass', ← append_assoc v, append_assoc _ _ back] at h
  rw [hline, hclass, ← append_assoc u, append_assoc _ _ back]
  have hlength : closing.length ≤ ("DefaultingPyMlirContext".toList ++ back).length := by
    rw [length_append]
    exact le_trans (by decide) (Nat.le_add_right _ _)
  have hback : closing <:+ "DefaultingPyMlirContext".toList ++ back :=
    suffix_of_suffix_length_le h (suffix_append _ _) hlength
  exact hback.trans (suffix_append _ _)

private theorem length_le_of_markContext (h : 8 ≤ (markContext line).length) : 8 ≤ line.length := by
  obtain hsame | ⟨front, u, v, hline, hmarked⟩ :=
    replaceAll_front contextClass_ne_nil markedContextClass line
  · rwa [markContext, hsame] at h
  rw [hline, length_append, length_append]
  have hclass : contextClass.length = 29 := rfl
  omega

/-- Marking the context class opens no class that was not there. -/
private theorem not_opensClass_markContext (h : ¬ OpensClass line) :
    ¬ OpensClass (markContext line) := by
  rintro ⟨t, hmarked, hnot⟩
  obtain ⟨hlength, hstarts, hsuffix⟩ := classLine_iff.mp ⟨t, hmarked⟩
  obtain ⟨t', hline⟩ :=
    classLine_iff.mpr ⟨length_le_of_markContext hlength, opening_prefix_of_markContext hstarts,
    closing_suffix_of_markContext hsuffix⟩
  have hexported : exportMarker <+: t' := by
    by_contra hnot'
    exact h ⟨t', hline, hnot'⟩
  refine not_opensClass_of_marked (markedOpening_prefix_markContext ?_) ⟨t, hmarked, hnot⟩
  rw [hline, markedOpening, classLine, append_assoc, prefix_append_right_inj]
  exact hexported.trans (prefix_append _ _)

/-! ## One line -/

def exportLine (line : List Char) : List Char := markContext (markLine line)

private theorem exportLine_idempotent (line : List Char) :
    exportLine (exportLine line) = exportLine line := by
  have hmark : markLine (exportLine line) = exportLine line :=
    markLine_of_not_opens (not_opensClass_markContext (not_opensClass_markLine line))
  calc exportLine (exportLine line)
    _ = markContext (exportLine line) := by rw [exportLine, hmark]
    _ = exportLine line := markContext_of_not_infix (not_infix_markContext _)

/-- What patching makes of a line. -/
structure ExportsLine (old new : List Char) : Prop where
  marked : ∀ t, old = classLine t → ¬ exportMarker <+: t → markedOpening <+: new ∧
    (¬ contextClass <:+: old → new = classLine (exportMarker ++ ' ' :: t))
  kept : ¬ OpensClass old → ¬ contextClass <:+: old → new = old
  settled : ¬ contextClass <:+: new

private theorem exportsLine (line : List Char) : ExportsLine line (exportLine line) where
  marked := by
    rintro t rfl hnot
    rw [exportLine, markLine_classLine hnot]
    refine ⟨markedOpening_prefix_markContext (markedOpening_prefix_classLine t), fun hclass => ?_⟩
    refine markContext_of_not_infix ?_
    -- an occurrence in the new line begins behind the marker, where the old line is the same
    have havoids : Avoids contextClass (markedOpening ++ [' ']) := by decide
    have hsplit :
        classLine (exportMarker ++ ' ' :: t) = markedOpening ++ [' '] ++ (t ++ closing) := by
      simp only [classLine, markedOpening, append_assoc, cons_append, nil_append]
    rw [hsplit, havoids.infix_append_iff]
    intro hwithin
    rw [classLine, append_assoc] at hclass
    exact hclass (hwithin.trans (suffix_append _ _).isInfix)
  kept := by
    intro hopens hclass
    rw [exportLine, markLine_of_not_opens hopens, markContext_of_not_infix hclass]
  settled := not_infix_markContext (markLine line)

theorem not_mem_exportLine {a : Char} (ha : a ∉ classLine markedContextClass) (h : a ∉ line) :
    a ∉ exportLine line := by
  simp only [classLine, mem_append, not_or] at ha
  refine not_mem_replaceAll contextClass_ne_nil ha.1.2 ?_
  by_cases hopens : OpensClass line
  · obtain ⟨t, rfl, hnot⟩ := hopens
    have hmarker : exportMarker ++ [' '] <:+: markedContextClass := by decide
    have hmem : a ∉ exportMarker ++ [' '] := fun hmem => ha.1.2 (hmarker.subset hmem)
    rw [markLine_classLine hnot]
    simp only [classLine, mem_append, mem_cons, not_or, not_mem_nil,
      not_false_eq_true, and_true] at h hmem ⊢
    exact ⟨⟨h.1.1, hmem.1, hmem.2, h.1.2⟩, h.2⟩
  · rwa [markLine_of_not_opens hopens]

/-! ## A whole file -/

private theorem newline_not_mem_exportLine (h : '\n' ∉ line) :
    '\n' ∉ exportLine line := not_mem_exportLine (by decide) h

theorem exportClasses_eq (text : List Char) :
    exportClasses text = ['\n'].intercalate ((text.splitOn '\n').map exportLine) := by
  have hnewline : '\n' ∉ contextClass := by decide
  rw [exportClasses, pieces_singleton, replaceAll_intercalate hnewline contextClass_ne_nil, map_map]
  rfl

theorem splitOn_exportClasses (text : List Char) :
    (exportClasses text).splitOn '\n' = (text.splitOn '\n').map exportLine := by
  rw [exportClasses_eq]
  refine splitOn_intercalate '\n' ?_ (by simp [splitOn_ne_nil])
  intro line hline
  obtain ⟨old, hold, rfl⟩ := mem_map.mp hline
  exact newline_not_mem_exportLine (not_mem_of_mem_splitOn hold)

private theorem exportClasses_idempotent (text : List Char) :
    exportClasses (exportClasses text) = exportClasses text := by
  rw [exportClasses_eq (exportClasses text), splitOn_exportClasses, map_map, exportClasses_eq]
  refine congrArg _ (map_congr_left fun line _ => ?_)
  exact exportLine_idempotent line

private theorem return_not_mem_exportClasses {text : List Char} (h : '\r' ∉ text) :
    '\r' ∉ exportClasses text := by
  rw [exportClasses_eq]
  intro hmem
  have hwithin := (singleton_infix_iff ..).mpr hmem
  rw [infix_intercalate_iff (by decide) (by decide)] at hwithin
  obtain ⟨line, hline, hreturn⟩ := hwithin
  obtain ⟨old, hold, rfl⟩ := mem_map.mp hline
  have hold' : '\r' ∉ old := by
    intro hmem'
    have hjoined : ['\n'].intercalate (text.splitOn '\n') = text := intercalate_splitOn '\n'
    refine h ?_
    rw [← hjoined, ← singleton_infix_iff, infix_intercalate_iff (by decide) (by decide)]
    exact ⟨old, hold, (singleton_infix_iff ..).mpr hmem'⟩
  exact not_mem_exportLine (by decide) hold' ((singleton_infix_iff ..).mp hreturn)

/-! ## Files and their backups -/

private theorem PatchedFile.patch_of_backup {file : PatchedFile}
    {kind : PatchKind} (h : file.backup.isSome = true) :
    file.patch kind = file := by
  obtain ⟨text, backup⟩ := file
  obtain ⟨original, rfl⟩ := Option.isSome_iff_exists.mp h
  rfl

private theorem PatchedFile.isSome_backup_patch (file : PatchedFile) (kind : PatchKind) :
    (file.patch kind).backup.isSome = true := by
  obtain ⟨text, _ | original⟩ := file <;> rfl

/-- The backup is the sign that the work was done. -/
private theorem PatchedFile.patchTimes_succ (file : PatchedFile) (kind : PatchKind) (n : Nat) :
    file.patchTimes kind (n + 1) = file.patch kind := by
  induction n with
  | zero => rfl
  | succ n ih =>
    rw [patchTimes, ih]
    exact patch_of_backup (isSome_backup_patch file kind)

private theorem PatchedFile.patch_exports (text : List Char) :
    (⟨text, none⟩ : PatchedFile).patch .exports =
      ⟨exportClasses (normalized text), some (normalized text)⟩ := by
  rw [← universalNewlines_eq]
  rfl

/-- A file that has no backup is patched a number of times. -/
structure PatchesOnce (text : List Char) (n : Nat) : Prop where
  once : (⟨text, none⟩ : PatchedFile).patchTimes .exports n =
    (⟨text, none⟩ : PatchedFile).patch .exports
  backup : ((⟨text, none⟩ : PatchedFile).patchTimes .exports n).backup = some (normalized text)
  /-- The backup is removed, and the file is patched again. -/
  again : let patched := (⟨text, none⟩ : PatchedFile).patchTimes .exports n
    ((⟨patched.text, none⟩ : PatchedFile).patch .exports).text = patched.text
  lines : Forall₂ ExportsLine ((normalized text).splitOn '\n')
    (((⟨text, none⟩ : PatchedFile).patchTimes .exports n).text.splitOn '\n')

/-- The marker is set once, in front of the classes that are to be exported and nowhere else. -/
theorem patches_once (text : List Char) {n : Nat} (hn : 1 ≤ n) :
    exportClasses (exportClasses text) = exportClasses text ∧ PatchesOnce text n := by
  obtain ⟨n, rfl⟩ := Nat.exists_eq_add_of_le' hn
  have hpatched : (⟨text, none⟩ : PatchedFile).patchTimes .exports (n + 1) =
      ⟨exportClasses (normalized text), some (normalized text)⟩ := by
    rw [PatchedFile.patchTimes_succ, PatchedFile.patch_exports]
  refine ⟨exportClasses_idempotent text, PatchedFile.patchTimes_succ _ _ n, ?_, ?_, ?_⟩
  · rw [hpatched]
  · have hreturn := return_not_mem_exportClasses (return_not_mem_normalized text)
    simp only [hpatched, PatchedFile.patch_exports, ← universalNewlines_eq (exportClasses _),
      universalNewlines_of_not_mem hreturn, exportClasses_idempotent]
  · rw [hpatched, splitOn_exportClasses, forall₂_map_right_iff, forall₂_same]
    exact fun line _ => exportsLine line

def headerText : List Char :=
  ("class PyThing \x7b\r\n  class DefaultingPyMlirContext;\n" ++
    "class PYBIND11_EXPORT PyOther \x7b").toList

theorem header_patched_once :
    1 ≤ 3 ∧ exportClasses (exportClasses headerText) = exportClasses headerText ∧
      PatchesOnce headerText 3 :=
  ⟨by decide, patches_once headerText (by decide)⟩

end Binding

end Polyloom
