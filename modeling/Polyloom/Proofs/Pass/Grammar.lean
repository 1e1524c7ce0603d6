import Mathlib.Data.List.TakeWhile
import Mathlib.Tactic.Common
import Polyloom.Pass.Pipeline

/-!
# The grammar of pipeline texts

The text of a pipeline lists elements between the brackets of a module.  An element is a pass,
possibly in the brackets of a scope, and a pass may have options between braces.  Commas separate
elements, but they also stand inside of values, so a text is cut only at commas outside of braces.
A text has at most one reading, and `read` finds it.
-/

namespace Polyloom

open List

structure Element where
  scope : Option String
  pass : String
  options : List (String × String)
  deriving DecidableEq, Repr

namespace Element

variable {c x : Char} {s : String} {e : Element} {cs rest : List Char} {es : List Element}

/-! ## Texts -/

def optionText (option : String × String) : String := option.1 ++ "=" ++ option.2

def passText (e : Element) : String :=
  if e.options.isEmpty then e.pass
  else e.pass ++ "\x7b " ++ " ".intercalate (e.options.map optionText) ++ " \x7d"

def text (e : Element) : String :=
  match e.scope with
  | none => e.passText
  | some scope => scope ++ "(" ++ e.passText ++ ")"

def opening : String := "builtin.module("

def moduleText (es : List Element) : String := opening ++ ",".intercalate (es.map text) ++ ")"

/-! ## Tokens -/

def isValueChar (c : Char) : Bool :=
  !(c.isWhitespace || c = '(' || c = ')' || c = '\x7b' || c = '\x7d')

def isTokenChar (c : Char) : Bool := isValueChar c && c ≠ ','

def isValue (s : String) : Bool := s.toList.all isValueChar

def isToken (s : String) : Bool := s ≠ "" && s.toList.all isTokenChar

def isKey (s : String) : Bool := isToken s && s.toList.all (· ≠ '=')

def isFormed (e : Element) : Bool :=
  e.scope.all isToken && isToken e.pass && e.options.all fun (key, value) =>
    isKey key && isValue value

/-- A reading of a text: elements of the grammar that are written so. -/
def Reads (text : String) (es : List Element) : Prop := es.all isFormed ∧ moduleText es = text

/-! ## Reading -/

/-- Cut at the commas that are not inside of braces. -/
def cut : Bool → List Char → List (List Char)
  | _, [] => [[]]
  | inside, c :: rest =>
    if c = ',' && !inside then [] :: cut false rest
    else (cut (c = '\x7b' || inside && c ≠ '\x7d') rest).modifyHead (c :: ·)

def readOption (cs : List Char) : String × String :=
  (String.ofList (cs.takeWhile (· ≠ '=')), String.ofList ((cs.dropWhile (· ≠ '=')).drop 1))

def readOptions (cs : List Char) : List (String × String) :=
  if cs.isEmpty then [] else ((cs.drop 2).dropLast.dropLast.splitOn ' ').map readOption

def readPass (scope : Option String) (cs : List Char) : Element :=
  ⟨scope, String.ofList (cs.takeWhile (· ≠ '\x7b')), readOptions (cs.dropWhile (· ≠ '\x7b'))⟩

def readElement (cs : List Char) : Element :=
  if '(' ∈ cs then
    readPass (some (String.ofList (cs.takeWhile (· ≠ '('))))
      ((cs.dropWhile (· ≠ '(')).drop 1).dropLast
  else readPass none cs

def readElements (cs : List Char) : List Element :=
  if cs.isEmpty then [] else (cut false cs).map readElement

/-- Read a text.  What was found is a reading only if the text is written so. -/
def read (text : String) : Option (List Element) :=
  let es := readElements (text.toList.drop opening.length).dropLast
  if es.all isFormed && moduleText es = text then some es else none

/-! ## Characters of tokens -/

theorem isValueChar_iff : isValueChar c = true ↔
    c.isWhitespace = false ∧ c ≠ '(' ∧ c ≠ ')' ∧ c ≠ '\x7b' ∧ c ≠ '\x7d' := by
  simp [isValueChar, and_assoc]

private theorem ne_blank_of_isValueChar (h : isValueChar c = true) : c ≠ ' ' := by
  rintro rfl
  simp [isValueChar, Char.isWhitespace] at h

theorem isValueChar_of_isTokenChar (h : isTokenChar c = true) : isValueChar c = true := by
  simp only [isTokenChar, Bool.and_eq_true] at h
  exact h.1

theorem isValue_iff : isValue s = true ↔ ∀ c ∈ s.toList, isValueChar c = true := by
  simp [isValue]

theorem isToken_iff : isToken s = true ↔ s ≠ "" ∧ ∀ c ∈ s.toList, isTokenChar c = true := by
  simp [isToken]

theorem isKey_iff : isKey s = true ↔ isToken s = true ∧ ∀ c ∈ s.toList, c ≠ '=' := by
  simp [isKey]

theorem isFormed_iff : e.isFormed = true ↔ (∀ scope ∈ e.scope, isToken scope = true) ∧
    isToken e.pass = true ∧ ∀ o ∈ e.options, isKey o.1 = true ∧ isValue o.2 = true := by
  simp [isFormed, and_assoc, Option.all_eq_true]

theorem isValue_of_isToken (h : isToken s = true) : isValue s = true :=
  isValue_iff.mpr fun c hc => isValueChar_of_isTokenChar ((isToken_iff.mp h).2 c hc)

theorem toList_optionText (o : String × String) :
    (optionText o).toList = o.1.toList ++ '=' :: o.2.toList := by
  simp [optionText, String.toList_append]

def inner (e : Element) : List Char :=
  [' '].intercalate (e.options.map fun o => (optionText o).toList)

theorem toList_passText (e : Element) : e.passText.toList =
    if e.options.isEmpty then e.pass.toList
    else e.pass.toList ++ '\x7b' :: ' ' :: (e.inner ++ [' ', '\x7d']) := by
  unfold passText
  split
  · rfl
  · simp [String.toList_append, String.toList_intercalate, inner, Function.comp_def]

theorem toList_text (e : Element) : e.text.toList =
    match e.scope with
    | none => e.passText.toList
    | some scope => scope.toList ++ '(' :: (e.passText.toList ++ [')']) := by
  unfold text
  split
  · rfl
  · simp [String.toList_append]

/-! ## Cutting -/

theorem cut_append {inside : Bool}
    (h : ∀ c ∈ cs, c ≠ '\x7b' ∧ c ≠ '\x7d' ∧ (inside = true ∨ c ≠ ',')) (rest : List Char) :
    cut inside (cs ++ rest) = (cut inside rest).modifyHead (cs ++ ·) := by
  induction cs with
  | nil => cases hcut : cut inside rest <;> simp [hcut]
  | cons c cs ih =>
    obtain ⟨hopen, hclose, hcomma⟩ := h c mem_cons_self
    have hstay : (decide (c = '\x7b') || inside && decide (c ≠ '\x7d')) = inside := by
      simp [hopen, hclose]
    have hkeep : (decide (c = ',') && !inside) = false := by
      rcases hcomma with rfl | hcomma
      · simp
      · simp [hcomma]
    rw [cons_append, cut, hkeep, hstay, ih fun d hd => h d (mem_cons_of_mem _ hd),
      modifyHead_modifyHead]
    rfl

private theorem cut_opening (rest : List Char) :
    cut false ('\x7b' :: rest) = (cut true rest).modifyHead ('\x7b' :: ·) := by
  simp [cut]

private theorem cut_closing (rest : List Char) :
    cut true ('\x7d' :: rest) = (cut false rest).modifyHead ('\x7d' :: ·) := by
  simp [cut]

theorem mem_intercalate {parts : List (List Char)} (h : c ∈ [x].intercalate parts) :
    c = x ∨ ∃ cs ∈ parts, c ∈ cs := by
  induction parts with
  | nil => simp at h
  | cons cs parts ih =>
    cases parts with
    | nil => exact .inr ⟨cs, by simp, by simpa using h⟩
    | cons ds parts =>
      rw [intercalate_cons_cons, mem_append, mem_append, mem_singleton] at h
      rcases h with (h | h) | h
      · exact .inr ⟨cs, by simp, h⟩
      · exact .inl h
      · obtain h | ⟨es, hes, h⟩ := ih h
        · exact .inl h
        · exact .inr ⟨es, mem_cons_of_mem _ hes, h⟩

theorem mem_optionText {o : String × String} (h : isKey o.1 = true ∧ isValue o.2 = true)
    (hc : c ∈ (optionText o).toList) : isValueChar c = true := by
  rw [toList_optionText, mem_append, mem_cons] at hc
  rcases hc with hc | rfl | hc
  · exact isValue_iff.mp (isValue_of_isToken (isKey_iff.mp h.1).1) c hc
  · decide
  · exact isValue_iff.mp h.2 c hc

theorem mem_inner (he : e.isFormed = true) (hc : c ∈ e.inner) :
    c ≠ '(' ∧ c ≠ '\x7b' ∧ c ≠ '\x7d' := by
  rcases mem_intercalate hc with rfl | ⟨cs, hcs, hc⟩
  · decide
  · obtain ⟨o, ho, rfl⟩ := mem_map.mp hcs
    have hvalue := isValueChar_iff.mp (mem_optionText ((isFormed_iff.mp he).2.2 o ho) hc)
    exact ⟨hvalue.2.1, hvalue.2.2.2⟩

theorem ne_bracket_of_isToken (h : isToken s = true) : ∀ c ∈ s.toList, c ≠ '(' :=
  fun c hc => (isValueChar_iff.mp (isValue_iff.mp (isValue_of_isToken h) c hc)).2.1

private theorem bracket_not_mem_passText (he : e.isFormed = true) : '(' ∉ e.passText.toList := by
  have hpass : '(' ∉ e.pass.toList := fun h =>
    ne_bracket_of_isToken (isFormed_iff.mp he).2.1 '(' h rfl
  have hinner : '(' ∉ e.inner := fun h => (mem_inner he h).1 rfl
  rw [toList_passText]
  split <;> simp [hpass, hinner]

theorem token_outside (h : isToken s = true) :
    ∀ c ∈ s.toList, c ≠ '\x7b' ∧ c ≠ '\x7d' ∧ (false = true ∨ c ≠ ',') := by
  intro c hc
  have htoken := (isToken_iff.mp h).2 c hc
  have hvalue := isValueChar_iff.mp (isValueChar_of_isTokenChar htoken)
  simp only [isTokenChar, Bool.and_eq_true, decide_eq_true_eq] at htoken
  exact ⟨hvalue.2.2.2.1, hvalue.2.2.2.2, .inr htoken.2⟩

private theorem cut_passText (he : e.isFormed = true) (rest : List Char) :
    cut false (e.passText.toList ++ rest) =
      (cut false rest).modifyHead (e.passText.toList ++ ·) := by
  have hpass := token_outside (isFormed_iff.mp he).2.1
  rw [toList_passText]
  split
  · exact cut_append hpass rest
  · -- Commas between the braces stay where they are.
    have hinner : ∀ c ∈ ' ' :: (e.inner ++ [' ']),
        c ≠ '\x7b' ∧ c ≠ '\x7d' ∧ (true = true ∨ c ≠ ',') := by
      intro c hc
      simp only [mem_cons, mem_append, not_mem_nil, or_false] at hc
      rcases hc with rfl | hc | rfl
      · decide
      · exact ⟨(mem_inner he hc).2.1, (mem_inner he hc).2.2, .inl rfl⟩
      · decide
    have htext : e.pass.toList ++ '\x7b' :: ' ' :: (e.inner ++ [' ', '\x7d']) ++ rest =
        e.pass.toList ++ '\x7b' :: ((' ' :: (e.inner ++ [' '])) ++ '\x7d' :: rest) := by simp
    rw [htext, cut_append hpass, cut_opening, cut_append hinner, cut_closing]
    simp only [modifyHead_modifyHead]
    congr 1
    funext cs
    simp

private theorem cut_text (he : e.isFormed = true) (rest : List Char) :
    cut false (e.text.toList ++ rest) = (cut false rest).modifyHead (e.text.toList ++ ·) := by
  rw [toList_text]
  cases hscope : e.scope with
  | none => exact cut_passText he rest
  | some scope =>
    have hhead := token_outside ((isFormed_iff.mp he).1 scope hscope)
    have hbracket (b : Char) (hb : b = '(' ∨ b = ')') :
        ∀ c ∈ [b], c ≠ '\x7b' ∧ c ≠ '\x7d' ∧ (false = true ∨ c ≠ ',') := by
      rcases hb with rfl | rfl <;> simp
    have htext : scope.toList ++ '(' :: (e.passText.toList ++ [')']) ++ rest =
        scope.toList ++ (['('] ++ (e.passText.toList ++ ([')'] ++ rest))) := by simp
    simp only
    rw [htext, cut_append hhead, cut_append (hbracket _ (.inl rfl)), cut_passText he,
      cut_append (hbracket _ (.inr rfl))]
    simp only [modifyHead_modifyHead]
    congr 1
    funext cs
    simp

private theorem cut_texts (h : ∀ e ∈ es, e.isFormed = true) (hne : es ≠ []) :
    cut false ([','].intercalate (es.map fun e => e.text.toList)) =
      es.map fun e => e.text.toList := by
  induction es with
  | nil => exact absurd rfl hne
  | cons e es ih =>
    have he := h e mem_cons_self
    cases es with
    | nil =>
      have hsingle := cut_text he []
      rw [append_nil, cut, modifyHead_cons, append_nil] at hsingle
      simpa using hsingle
    | cons f es =>
      have hrest := ih (fun g hg => h g (mem_cons_of_mem _ hg)) (by simp)
      simp only [map_cons] at hrest ⊢
      rw [intercalate_cons_cons, append_assoc, cut_text he, singleton_append, cut]
      simp [hrest]

/-! ## Reading what is written -/

theorem takeWhile_ne (h : ∀ c ∈ cs, c ≠ x) : (cs ++ x :: rest).takeWhile (· ≠ x) = cs := by
  rw [takeWhile_append_of_pos (by simpa using h)]
  simp

theorem dropWhile_ne (h : ∀ c ∈ cs, c ≠ x) : (cs ++ x :: rest).dropWhile (· ≠ x) = x :: rest := by
  rw [dropWhile_append_of_pos (by simpa using h)]
  simp

private theorem readOption_optionText {o : String × String} (h : isKey o.1 = true) :
    readOption (optionText o).toList = o := by
  have hkey := (isKey_iff.mp h).2
  rw [readOption, toList_optionText, takeWhile_ne hkey, dropWhile_ne hkey]
  simp

private theorem readOptions_inner (he : e.isFormed = true) (hne : e.options ≠ []) :
    readOptions ('\x7b' :: ' ' :: (e.inner ++ [' ', '\x7d'])) = e.options := by
  have hoptions := (isFormed_iff.mp he).2.2
  have hblank : ∀ cs ∈ e.options.map fun o => (optionText o).toList, ' ' ∉ cs := by
    intro cs hcs hmem
    obtain ⟨o, ho, rfl⟩ := mem_map.mp hcs
    exact ne_blank_of_isValueChar (mem_optionText (hoptions o ho) hmem) rfl
  have hstrip :
      (('\x7b' :: ' ' :: (e.inner ++ [' ', '\x7d'])).drop 2).dropLast.dropLast = e.inner := by
    have hends : e.inner ++ [' ', '\x7d'] = e.inner ++ [' '] ++ ['\x7d'] := by simp
    simp only [drop_succ_cons, drop_zero]
    rw [hends, dropLast_concat, dropLast_concat]
  rw [readOptions, hstrip, inner, splitOn_intercalate ' ' hblank (by simpa using hne)]
  simp only [isEmpty_cons, Bool.false_eq_true, ↓reduceIte, map_map]
  calc e.options.map (readOption ∘ fun o => (optionText o).toList)
      = e.options.map id := map_congr_left fun o ho => readOption_optionText (hoptions o ho).1
    _ = e.options := map_id _

theorem readPass_passText (he : e.isFormed = true) : readPass e.scope e.passText.toList = e := by
  have hpass : ∀ c ∈ e.pass.toList, c ≠ '\x7b' := fun c hc =>
    (token_outside (isFormed_iff.mp he).2.1 c hc).1
  rw [toList_passText]
  by_cases hempty : e.options.isEmpty = true
  · have hnone : e.options = [] := by simpa using hempty
    have htake : e.pass.toList.takeWhile (· ≠ '\x7b') = e.pass.toList := by
      simpa [takeWhile_eq_self_iff] using hpass
    have hdrop : e.pass.toList.dropWhile (· ≠ '\x7b') = [] := by
      simpa [dropWhile_eq_nil_iff] using hpass
    rw [if_pos hempty, readPass, htake, hdrop]
    rcases e with ⟨scope, pass, options⟩
    simp_all [readOptions]
  · have hne : e.options ≠ [] := by simpa using hempty
    rw [if_neg hempty, readPass, takeWhile_ne hpass, dropWhile_ne hpass,
      readOptions_inner he hne, String.ofList_toList]

theorem passText_inj {f : Element} (he : e.isFormed = true) (hf : f.isFormed = true)
    (hscope : e.scope = f.scope) (h : e.passText = f.passText) : e = f := by
  rw [← readPass_passText he, ← readPass_passText hf, hscope, h]

private theorem readElement_text (he : e.isFormed = true) : readElement e.text.toList = e := by
  rw [toList_text, readElement]
  cases hscope : e.scope with
  | none =>
    simp only
    rw [if_neg (bracket_not_mem_passText he), ← hscope]
    exact readPass_passText he
  | some scope =>
    have hhead := ne_bracket_of_isToken ((isFormed_iff.mp he).1 scope hscope)
    simp only
    rw [if_pos (by simp), takeWhile_ne hhead, dropWhile_ne hhead, String.ofList_toList, drop_one,
      tail_cons, dropLast_concat, ← hscope]
    exact readPass_passText he

private theorem text_ne_nil (he : e.isFormed = true) : e.text.toList ≠ [] := by
  have hpass : e.pass.toList ≠ [] := by
    simpa using (isToken_iff.mp (isFormed_iff.mp he).2.1).1
  rw [toList_text, toList_passText]
  split <;> split <;> simp [hpass]

private theorem readElements_texts (h : ∀ e ∈ es, e.isFormed = true) :
    readElements ([','].intercalate (es.map fun e => e.text.toList)) = es := by
  cases es with
  | nil => rfl
  | cons e es =>
    have hne : ([','].intercalate ((e :: es).map fun e => e.text.toList)).isEmpty = false := by
      have he := text_ne_nil (h e mem_cons_self)
      cases es <;> simp [intercalate_cons_cons, he]
    rw [readElements, hne, cut_texts h (by simp), map_map]
    calc (e :: es).map (readElement ∘ fun e => e.text.toList)
        = (e :: es).map id := map_congr_left fun f hf => readElement_text (h f hf)
      _ = e :: es := map_id _

/-- Reading finds whatever a text can be read as, so a text has at most one reading. -/
theorem read_eq_some_iff {text : String} : read text = some es ↔ Reads text es := by
  constructor
  · intro h
    simp only [read, Bool.and_eq_true, decide_eq_true_eq, Option.ite_none_right_eq_some,
      Option.some.injEq] at h
    obtain ⟨hread, rfl⟩ := h
    exact hread
  · rintro ⟨hformed, rfl⟩
    have hinside : ((moduleText es).toList.drop opening.length).dropLast =
        [','].intercalate (es.map fun e => e.text.toList) := by
      simp [moduleText, String.toList_append, String.toList_intercalate,
        Function.comp_def, ← String.length_toList]
    have hfound : readElements ((moduleText es).toList.drop opening.length).dropLast = es := by
      rw [hinside, readElements_texts (by simpa using hformed)]
    simp [read, hfound, hformed]

end Element

end Polyloom
