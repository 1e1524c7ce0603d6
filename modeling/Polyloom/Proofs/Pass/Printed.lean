import Polyloom.Pass.Method
import Polyloom.Proofs.Pass.Names
import Polyloom.Proofs.Text.Margin

/-!
# Methods as they are printed

The names of a table are words with dashes.  A method has underscores for the dashes, which a
pipeline turns back, and it is printed line by line.
-/

namespace Polyloom.PassMethod

open PassOption Pipeline Text

open Text (isLine isLine_append isLine_intercalate terminated)

variable {name s : String}

/-! ## Names -/

def isName (name : String) : Bool :=
  match name.toList with
  | [] => false
  | c :: cs => c.isAlpha && cs.all fun d => d.isAlphanum || d = '-'

theorem isAlphanum_or_dash (h : isName name = true) {c : Char} (hc : c ∈ name.toList) :
    (c.isAlphanum || decide (c = '-')) = true := by
  unfold isName at h
  split at h
  · simp at h
  · rename_i first rest heq
    rw [Bool.and_eq_true, List.all_eq_true] at h
    rw [heq, List.mem_cons] at hc
    obtain rfl | hc := hc
    · simp [Char.isAlphanum, h.1]
    · exact h.2 c hc

theorem ne_of_isName (h : isName name = true) {c x : Char} (hc : c ∈ name.toList)
    (hx : (x.isAlphanum || decide (x = '-')) = false) : c ≠ x := by
  rintro rfl
  rw [isAlphanum_or_dash h hc] at hx
  simp at hx

theorem identifier_eq (name : String) : identifier name = name.map undash := by
  have h := intercalate_cut_single '-' '_' name.toList
  rw [← String.toList_inj, String.toList_map, identifier, replace, String.toList_ofList]
  exact h

theorem optionKey_identifier (h : isName name = true) : optionKey (identifier name) = name := by
  rw [optionKey_eq_dashed, identifier_eq, ← String.toList_inj, dashed,
    String.toList_map, String.toList_map, List.map_map]
  refine (List.map_congr_left fun c hc => ?_).trans (List.map_id _)
  have hne := ne_of_isName h hc (x := '_') (by decide)
  unfold Function.comp dash undash
  split <;> simp_all

private theorem toNat_of_isName (h : isName name = true) {c : Char} (hc : c ∈ name.toList) :
    45 ≤ c.toNat ∧ c.toNat ≤ 122 := by
  have hchar := isAlphanum_or_dash h hc
  rw [Bool.or_eq_true, decide_eq_true_eq] at hchar
  obtain hchar | rfl := hchar
  · change (decide (65 ≤ c.val ∧ c.val ≤ 90) || decide (97 ≤ c.val) && decide (c.val ≤ 122) ||
      decide (48 ≤ c.val) && decide (c.val ≤ 57)) = true at hchar
    simp only [Bool.or_eq_true, Bool.and_eq_true, decide_eq_true_eq, UInt32.le_iff_toNat_le]
      at hchar
    simp only [Char.toNat_val, UInt32.reduceToNat] at hchar
    omega
  · decide

theorem isLine_of_isName (h : isName name = true) : isLine name = true := by
  refine List.all_eq_true.mpr fun c hc => ?_
  have hrange := toNat_of_isName h hc
  simp only [endsLine, Bool.not_eq_true', Bool.or_eq_false_iff,
    Bool.and_eq_false_iff, decide_eq_false_iff_not]
  omega

theorem isLine_identifier (h : isLine name = true) : isLine (identifier name) = true := by
  rw [identifier_eq, isLine, String.toList_map, List.all_map]
  refine List.all_eq_true.mpr fun c hc => ?_
  have hchar := List.all_eq_true.mp h c hc
  unfold Function.comp undash
  split
  · rfl
  · exact hchar

/-! ## Lines -/

def plainLines (m : PassMethod) : List String :=
  ["def " ++ identifier m.pass ++ "(self):",
   "   self._add_pass(\"" ++ m.pass ++ "\"" ++ ")",
   "   return self"]

def header (m : PassMethod) : String :=
  "def " ++ identifier m.pass ++ "(self, " ++
    ", ".intercalate (m.options.map fun o => o.name ++ "=None") ++ "):"

def joinLines (o : PassOption) : List String :=
  ["        if " ++ o.name ++ " is not None and isinstance(" ++ o.name ++ ", (list, tuple)):",
   "            " ++ o.name ++ " = ','.join(map(str, " ++ o.name ++ "))"]

def closingLines (m : PassMethod) : List String :=
  ["self._add_pass(\"" ++ m.pass ++ "\"" ++ ", " ++
    ", ".intercalate (m.options.map fun o => o.name ++ "=" ++ o.name) ++ ")",
   "return self"]

def lines (m : PassMethod) : List String :=
  (if m.options.isEmpty then m.plainLines.map ("    " ++ ·)
  else ("    " ++ m.header) :: (m.options.filter takesList).flatMap joinLines ++
    m.closingLines.map ("        " ++ ·)) ++ [""]

def textOf (lines : List String) : List Char := terminated (lines.map String.toList)

theorem textOf_append (ls ls' : List String) : textOf (ls ++ ls') = textOf ls ++ textOf ls' := by
  simp [textOf, terminated]

theorem textOf_flatMap {α : Type} (f : α → List String) (xs : List α) :
    textOf (xs.flatMap f) = xs.flatMap fun x => textOf (f x) := by
  rw [textOf, terminated, List.map_flatMap, List.flatMap_assoc]
  rfl

theorem printed_line {depth : Nat} (h : isLine s = true) (hblank : s.toList.all isBlank = false) :
    printed depth s = textOf [String.ofList (margin depth) ++ s] := by
  rw [printed, indent_line h hblank]
  simp [textOf, terminated, String.toList_append]

private theorem isBlank_of_isMargin {c : Char} (h : isMargin c = true) : isBlank c = true := by
  simp only [isMargin, Bool.or_eq_true, decide_eq_true_eq] at h
  obtain rfl | rfl := h <;> rfl

theorem blockText_eq {depth : Nat} {shared last : String} {bodies : List String}
    (hshared : shared.toList.all isMargin = true)
    (hlast : last.toList.all isMargin = true)
    (hbodies : sharedMargin (bodies.map String.toList) = some [])
    (hline : ∀ body ∈ bodies, isLine body = true)
    (hblank : ∀ body ∈ bodies, body.toList.all isBlank = false) :
    blockText depth (bodies.map (shared ++ ·) ++ [last]) =
      textOf (bodies.map (String.ofList (margin depth) ++ ·) ++ [""]) := by
  have htext : ("\n".intercalate (bodies.map (shared ++ ·) ++ [last])).toList =
      ['\n'].intercalate ((bodies.map String.toList).map (shared.toList ++ ·) ++
        [last.toList]) := by
    rw [String.toList_intercalate]
    simp only [List.map_append, List.map_map, Function.comp_def,
      String.toList_append, List.map_cons, List.map_nil]
    rfl
  have hmargin : ∀ body ∈ bodies, body.toList.all isMargin = false := by
    intro body hmem
    by_contra hall
    rw [Bool.not_eq_false, List.all_eq_true] at hall
    have hnone := hblank body hmem
    rw [List.all_eq_true.mpr fun c hc => isBlank_of_isMargin (hall c hc)] at hnone
    simp at hnone
  have hdedent := dedent_block hshared hlast hbodies (List.forall_mem_map.mpr hmargin)
    (List.forall_mem_map.mpr fun body hmem => newline_not_mem (hline body hmem))
  rw [blockText, printed, htext, hdedent, String.toList_ofList,
    indent_terminated (List.forall_mem_map.mpr hline) (List.forall_mem_map.mpr hblank)]
  simp [textOf, terminated, String.toList_append, Function.comp_def, List.flatMap_map]

theorem not_blank_append {t : String}
    (h : s.toList.all isBlank = false ∨ t.toList.all isBlank = false) :
    (s ++ t).toList.all isBlank = false := by
  rw [String.toList_append, List.all_append]
  obtain h | h := h <;> simp [h]

section

variable {m : PassMethod}

theorem isLine_parameters {f : PassOption → String} (h : ∀ o ∈ m.options, isLine (f o) = true) :
    isLine (", ".intercalate (m.options.map f)) = true :=
  isLine_intercalate (by decide) (List.forall_mem_map.mpr h)

private theorem joinText_eq {o : PassOption} (h : isLine o.name = true) :
    joinText o.name = textOf (joinLines o) := by
  have htest : printed 2 ("if " ++ o.name ++ " is not None and isinstance(" ++ o.name ++
      ", (list, tuple)):") = _ := printed_line (by simp only [isLine_append, h]; decide)
    (not_blank_append (.inr (by decide)))
  have hjoin : printed 3 (o.name ++ " = ','.join(map(str, " ++ o.name ++ "))") = _ :=
    printed_line (by simp only [isLine_append, h]; decide) (not_blank_append (.inr (by decide)))
  rw [joinText, htest, hjoin, ← textOf_append]
  have htwo : String.ofList (margin 2) = "        " := by decide
  have hthree : String.ofList (margin 3) = "            " := by decide
  simp only [joinLines, htwo, hthree, ← String.append_assoc,
    String.reduceAppend, List.cons_append, List.nil_append]

private theorem render_plain (hpass : isLine m.pass = true) :
    blockText 1 (m.plainLines.map ("            " ++ ·) ++ ["        "]) =
      textOf (m.plainLines.map ("    " ++ ·) ++ [""]) := by
  refine blockText_eq (by decide) (by decide) ?_ ?_ ?_
  · simp only [plainLines, List.map_cons, String.toList_append, List.append_assoc]
    exact sharedMargin_cons (by decide) _ _
  · simp only [plainLines, List.forall_mem_cons, isLine_append, hpass, isLine_identifier hpass]
    decide
  · simp only [plainLines, List.forall_mem_cons]
    exact ⟨not_blank_append (.inr (by decide)), not_blank_append (.inr (by decide)), by decide,
      by simp⟩

private theorem render_closing (hpass : isLine m.pass = true)
    (hoptions : ∀ o ∈ m.options, isLine o.name = true) :
    blockText 2 (m.closingLines.map ("               " ++ ·) ++ ["        "]) =
      textOf (m.closingLines.map ("        " ++ ·) ++ [""]) := by
  have hpassed :
      isLine (", ".intercalate (m.options.map fun o => o.name ++ "=" ++ o.name)) = true :=
    isLine_parameters fun o ho => by
      rw [isLine_append, isLine_append, hoptions o ho]
      decide
  refine blockText_eq (by decide) (by decide) ?_ ?_ ?_
  · simp only [closingLines, List.map_cons, String.toList_append, List.append_assoc]
    exact sharedMargin_cons (by decide) _ _
  · simp only [closingLines, List.forall_mem_cons, isLine_append, hpass, hpassed]
    decide
  · simp only [closingLines, List.forall_mem_cons]
    exact ⟨not_blank_append (.inr (by decide)), by decide, by simp⟩

theorem render_eq (hpass : isLine m.pass = true)
    (hoptions : ∀ o ∈ m.options, isLine o.name = true) : m.render = textOf m.lines := by
  unfold render lines
  dsimp only
  split
  · rw [← render_plain hpass]
    simp only [plainLines, List.map_cons, List.map_nil, ← String.append_assoc, String.reduceAppend,
      List.cons_append, List.nil_append]
  · have hparameters :
        isLine (", ".intercalate (m.options.map fun o => o.name ++ "=None")) = true :=
      isLine_parameters fun o ho => by
        rw [isLine_append, hoptions o ho]
        decide
    have hheader : printed 1 m.header = textOf [String.ofList (margin 1) ++ m.header] :=
      printed_line (by
        simp only [header, isLine_append, isLine_identifier hpass, hparameters]
        decide) (not_blank_append (.inr (by decide)))
    have hjoins : ((m.options.filter takesList).map fun o => joinText o.name).flatten =
        textOf ((m.options.filter takesList).flatMap joinLines) := by
      rw [List.map_congr_left fun o ho => joinText_eq (hoptions o (List.mem_of_mem_filter ho)),
        textOf_flatMap, List.flatMap_def]
    have hclosing := render_closing hpass hoptions
    have hone : String.ofList (margin 1) = "    " := by decide
    rw [hone] at hheader
    calc _ = printed 1 m.header ++
            ((m.options.filter takesList).map fun o => joinText o.name).flatten ++
          blockText 2 (m.closingLines.map ("               " ++ ·) ++ ["        "]) := by
          simp only [header, closingLines, List.map_cons, List.map_nil, ← String.append_assoc,
            String.reduceAppend, List.cons_append, List.nil_append]
      _ = textOf ["    " ++ m.header] ++ textOf ((m.options.filter takesList).flatMap joinLines) ++
          textOf (m.closingLines.map ("        " ++ ·) ++ [""]) := by rw [hheader, hjoins, hclosing]
      _ = _ := by
          rw [← textOf_append, ← textOf_append]
          simp only [List.cons_append, List.nil_append, List.append_assoc]

end

end Polyloom.PassMethod
