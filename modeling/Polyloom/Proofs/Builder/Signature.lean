import Polyloom.Ir.TypeText
import Polyloom.Proofs.Text.Occurrence

/-!
# Types of functions as texts

The type of a function is written as two lists of types.  It is read by counting brackets, so what
was written is read again if in each type all brackets are closed, and commas stand inside of
brackets only.
-/

namespace Polyloom.TypeText

open List

variable {c : Char}

/-! ## Brackets -/

def isOpening (c : Char) : Bool := c = '<' || c = '(' || c = '['

def isClosing (c : Char) : Bool := c = '>' || c = ')' || c = ']'

def closingOf (c : Char) : Char := if c = '<' then '>' else if c = '(' then ')' else ']'

/-- The closing brackets that are due behind a text, innermost first.  An arrow is not a bracket,
and a comma with a blank has to stand inside of brackets. -/
def dueAfter : List Char → List Char → Option (List Char)
  | due, [] => some due
  | due, '-' :: '>' :: rest => dueAfter due rest
  | due, ',' :: ' ' :: rest => if due = [] then none else dueAfter due rest
  | due, c :: rest =>
    if isOpening c then dueAfter (closingOf c :: due) rest
    else if isClosing c then if due.head? = some c then dueAfter due.tail rest else none
    else dueAfter due rest

/-- The text of a type. -/
def IsType (text : String) : Prop := text ≠ "" ∧ dueAfter [] text.toList = some []

instance (text : String) : Decidable (IsType text) :=
  inferInstanceAs (Decidable (text ≠ "" ∧ dueAfter [] text.toList = some []))

variable {due due' text rest : List Char}

/-! ## Reading types up to a comma -/

/-- Neither an arrow nor a comma with a blank is completed by what comes next. -/
def Separates (rest : List Char) : Prop := rest.head? ≠ some '>' ∧ rest.head? ≠ some ' '

private theorem cutTypes_cons (harrow : ∀ cs, c = '-' → text = '>' :: cs → False)
    (hcomma : ∀ cs, c = ',' → text = ' ' :: cs → False) (depth : Nat) (piece : List Char) :
    cutTypes depth piece (c :: text) = if isOpening c then
      cutTypes (depth + 1) (c :: piece) text else if isClosing c then
      cutTypes (depth - 1) (c :: piece) text else cutTypes depth (c :: piece) text := by
  rw [cutTypes]
  · rfl
  · exact harrow
  · exact hcomma

private theorem append_ne_cons (h : ∀ cs, text = c :: cs → False)
    (hrest : rest.head? ≠ some c) (cs : List Char) : text ++ rest ≠ c :: cs := by
  cases text with
  | nil =>
    rintro rfl
    exact hrest rfl
  | cons d text =>
    intro heq
    exact h text (by rw [(cons.inj heq).1])

private theorem cutTypes_cons_append (harrow : ∀ cs, c = '-' → text = '>' :: cs → False)
    (hcomma : ∀ cs, c = ',' → text = ' ' :: cs → False) (hrest : Separates rest) (depth : Nat)
    (piece : List Char) : cutTypes depth piece (c :: text ++ rest) = if isOpening c then
    cutTypes (depth + 1) (c :: piece) (text ++ rest) else if isClosing c then cutTypes
    (depth - 1) (c :: piece) (text ++ rest) else cutTypes depth (c :: piece) (text ++ rest) :=
  cutTypes_cons (fun cs hc => append_ne_cons (fun cs => harrow cs hc) hrest.1 cs)
    (fun cs hc => append_ne_cons (fun cs => hcomma cs hc) hrest.2 cs) depth piece

private theorem cutTypes_append (h : dueAfter due text = some due')
    (hrest : Separates rest) (piece : List Char) :
    cutTypes due.length piece (text ++ rest) =
      cutTypes due'.length (text.reverse ++ piece) rest := by
  fun_induction dueAfter due text generalizing piece with
  | case1 due =>
    cases h
    rfl
  | case2 due text ih =>
    simp only [cons_append, cutTypes]
    rw [ih h]
    simp
  | case3 text => cases h
  | case4 due text hdue ih =>
    have hlength : due.length ≠ 0 := by simpa using hdue
    simp only [cons_append, cutTypes, if_neg hlength]
    rw [ih h]
    simp
  | case5 due c text harrow hcomma hopening ih =>
    rw [cutTypes_cons_append harrow hcomma hrest, if_pos hopening]
    simpa using ih h (c :: piece)
  | case6 due c text harrow hcomma hopening hclosing hhead ih =>
    rw [cutTypes_cons_append harrow hcomma hrest, if_neg hopening, if_pos hclosing]
    simpa using ih h (c :: piece)
  | case7 due c text harrow hcomma hopening hclosing hhead => cases h
  | case8 due c text harrow hcomma hopening hclosing ih =>
    rw [cutTypes_cons_append harrow hcomma hrest, if_neg hopening, if_neg hclosing]
    simpa using ih h (c :: piece)

/-! ## Reading up to the closing parenthesis -/

theorem upToClosing_cons (hopening : c ≠ '(') (hclosing : c ≠ ')') (depth : Nat) (cs : List Char) :
    upToClosing depth (c :: cs) = (c :: (upToClosing depth cs).1, (upToClosing depth cs).2) := by
  simp only [upToClosing, if_neg hopening, if_neg hclosing]

private theorem upToClosing_append (h : dueAfter due text = some due') (rest : List Char) :
    upToClosing (due.count ')') (text ++ rest) =
      (text ++ (upToClosing (due'.count ')') rest).1, (upToClosing (due'.count ')') rest).2) := by
  fun_induction dueAfter due text with
  | case1 due =>
    cases h
    rfl
  | case2 due text ih =>
    simp only [cons_append, upToClosing, ih h]
    simp
  | case3 text => cases h
  | case4 due text hdue ih =>
    simp only [cons_append, upToClosing, ih h]
    simp
  | case5 due c text harrow hcomma hopening ih =>
    replace ih := ih h
    by_cases hc : c = '('
    · subst hc
      have hcount : (closingOf '(' :: due).count ')' = due.count ')' + 1 := by simp [closingOf]
      rw [hcount] at ih
      simp only [cons_append, upToClosing, if_true, ih]
    · have hclosing : c ≠ ')' := by
        rintro rfl
        exact absurd hopening (by decide)
      have hcount : (closingOf c :: due).count ')' = due.count ')' := by
        refine count_cons_of_ne ?_
        rw [closingOf, if_neg hc]
        split <;> decide
      rw [hcount] at ih
      rw [cons_append, upToClosing_cons hc hclosing, ih]
      rfl
  | case6 due c text harrow hcomma hopening hclosing hhead ih =>
    replace ih := ih h
    have hopening' : c ≠ '(' := by
      rintro rfl
      exact absurd hclosing (by decide)
    obtain ⟨due, rfl⟩ : ∃ tail, due = c :: tail := head?_eq_some_iff.mp hhead
    rw [tail_cons] at ih
    by_cases hc : c = ')'
    · subst hc
      simp only [count_cons_self, cons_append, upToClosing, if_neg hopening', if_true, ih]
    · rw [count_cons_of_ne hc, cons_append, upToClosing_cons hopening' hc, ih]
      rfl
  | case7 due c text harrow hcomma hopening hclosing hhead => cases h
  | case8 due c text harrow hcomma hopening hclosing ih =>
    have hopening' : c ≠ '(' := by
      rintro rfl
      exact absurd rfl hopening
    have hclosing' : c ≠ ')' := by
      rintro rfl
      exact absurd rfl hclosing
    rw [cons_append, upToClosing_cons hopening' hclosing', ih h]
    rfl

/-! ## Lists of types -/

variable {types inputs results : List String}

def joined (types : List String) : List Char := (", ".intercalate types).toList

theorem joined_cons_cons (t t' : String) (types : List String) :
    joined (t :: t' :: types) = t.toList ++ (',' :: ' ' :: joined (t' :: types)) := by
  rw [joined, String.intercalate_cons_cons, String.toList_append,
    String.toList_append, append_assoc]
  rfl

private theorem cutTypes_joined (hne : types ≠ []) (h : ∀ t ∈ types, IsType t) :
    cutTypes 0 [] (joined types) = types := by
  induction types with
  | nil => exact absurd rfl hne
  | cons t types ih =>
    rw [forall_mem_cons] at h
    cases types with
    | nil =>
      have hrest : Separates [] := by simp [Separates]
      have hcut := cutTypes_append h.1.2 hrest []
      simpa [joined, cutTypes] using hcut
    | cons t' types =>
      have hrest : Separates (',' :: ' ' :: joined (t' :: types)) := by simp [Separates]
      rw [joined_cons_cons]
      refine (cutTypes_append h.1.2 hrest []).trans ?_
      simp only [cutTypes, length_nil, if_true, append_nil,
        reverse_reverse, String.ofList_toList]
      rw [ih (by simp) h.2]

private theorem typeList_joined (h : ∀ t ∈ types, IsType t) : typeList (joined types) = types := by
  cases types with
  | nil => rfl
  | cons t types =>
    have hne : joined (t :: types) ≠ [] := by
      intro heq
      have ht := (h t (by simp)).1
      cases types with
      | nil => exact ht (by simpa [joined] using heq)
      | cons t' types => simp [joined_cons_cons] at heq
    rw [typeList, if_neg (by simpa using hne), cutTypes_joined (by simp) h]

private theorem upToClosing_joined (h : ∀ t ∈ types, IsType t) (rest : List Char) :
    upToClosing 0 (joined types ++ ')' :: rest) = (joined types, rest) := by
  induction types with
  | nil => rfl
  | cons t types ih =>
    rw [forall_mem_cons] at h
    cases types with
    | nil =>
      have hread := upToClosing_append h.1.2 (')' :: rest)
      simpa [joined, upToClosing] using hread
    | cons t' types =>
      rw [joined_cons_cons, append_assoc]
      refine (upToClosing_append h.1.2 _).trans ?_
      have hcount : ([] : List Char).count ')' = 0 := rfl
      simp only [hcount, cons_append,
        upToClosing_cons (by decide : ',' ≠ '(') (by decide : ',' ≠ ')'),
        upToClosing_cons (by decide : ' ' ≠ '(') (by decide : ' ' ≠ ')'), ih h.2]

/-- What is written as the type of a function is read again. -/
theorem signature_function (hinputs : ∀ t ∈ inputs, IsType t) (hresults : ∀ t ∈ results, IsType t) :
    signature (function inputs results) = (inputs, results) := by
  have htext : (function inputs results).toList =
      '(' :: (joined inputs ++ ')' :: (" -> (".toList ++ (joined results ++ [')']))) := by
    simp [function, joined, String.toList_append]
  rw [signature, htext, drop_succ_cons, drop_zero, upToClosing_joined hinputs]
  have hrest : ((" -> (".toList ++ (joined results ++ [')'])).dropWhile (· ≠ '(')).drop 1 =
      joined results ++ [')'] := by
    simp [dropWhile]
  simp only [hrest, dropLast_concat, typeList_joined hinputs, typeList_joined hresults]

theorem classOf_function (inputs results : List String) :
    classOf (function inputs results) = .function := by
  obtain ⟨rest, hrest⟩ : ∃ rest, (function inputs results).toList = '(' :: rest := by
    simp [function, String.toList_append]
  have hwidth : width? (function inputs results) = none := by
    rw [width?, hrest]
    rfl
  have harrow : Text.contains (function inputs results) ") -> (" = true := by
    rw [Text.contains_iff_infix]
    refine ⟨'(' :: joined inputs, joined results ++ [')'], ?_⟩
    simp [function, joined, String.toList_append]
  have hopening : Text.startsWith (function inputs results) "(" = true := by
    rw [Text.startsWith, hrest]
    rfl
  have hword {word : String} {c : Char} {cs : List Char}
      (htoList : word.toList = c :: cs) (hc : c ≠ '(') :
      function inputs results ≠ word := by
    rintro heq
    rw [heq, htoList] at hrest
    exact hc (cons.inj hrest).1
  have hstart {word : String} {c : Char} {cs : List Char}
      (htoList : word.toList = c :: cs) (hc : c ≠ '(') :
      Text.startsWith (function inputs results) word = false := by
    rw [Text.startsWith, hrest, htoList, isPrefixOf, beq_false_of_ne hc, Bool.false_and]
  rw [classOf, hwidth, if_neg (by simp), @hstart "complex<" _ _ rfl (by decide),
    @hstart "memref<*x" _ _ rfl (by decide),
    @hstart "memref<" _ _ rfl (by decide), @hstart "tensor<*x" _ _ rfl (by decide),
      @hstart "tensor<" _ _ rfl (by decide), hopening, harrow]
  · rfl
  all_goals exact hword rfl (by decide)

/-! ## Buffers of times -/

def isPlain (c : Char) : Bool := !isOpening c && !isClosing c && c ≠ '-' && c ≠ ','

private theorem dueAfter_append_of_isPlain {front : List Char}
    (h : ∀ c ∈ front, isPlain c = true) (due rest : List Char) :
    dueAfter due (front ++ rest) = dueAfter due rest := by
  induction front with
  | nil => rfl
  | cons c front ih =>
    rw [forall_mem_cons] at h
    obtain ⟨⟨⟨hopening, hclosing⟩, harrow⟩, hcomma⟩ :
        ((isOpening c = false ∧ isClosing c = false) ∧ c ≠ '-') ∧ c ≠ ',' := by
      simpa [isPlain] using h.1
    rw [cons_append, dueAfter, if_neg (by simp [hopening]),
      if_neg (by simp [hclosing]), ih h.2]
    · exact fun _ hc _ => harrow hc
    · exact fun _ hc _ => hcomma hc

private theorem isPlain_of_isDigit (h : c.isDigit = true) : isPlain c = true := by
  have hne {d : Char} (hd : d.isDigit = false) : c ≠ d := by
    rintro rfl
    rw [h] at hd
    cases hd
  have hopening : isOpening c = false := by
    simp [isOpening, @hne '<' rfl, @hne '(' rfl, @hne '[' rfl]
  have hclosing : isClosing c = false := by
    simp [isClosing, @hne '>' rfl, @hne ')' rfl, @hne ']' rfl]
  simp [isPlain, hopening, hclosing, @hne '-' rfl, @hne ',' rfl]

theorem isType_times (n : Nat) : IsType (ranked "memref" [n.repr] "i64") := by
  have htext : (ranked "memref" [n.repr] "i64").toList =
      "memref".toList ++ '<' :: ((n.repr.toList ++ "xi64".toList) ++ ['>']) := by
    simp [ranked, String.join, String.toList_append]
  refine ⟨fun hempty => ?_, ?_⟩
  · rw [hempty] at htext
    cases htext
  have hinner : ∀ c ∈ n.repr.toList ++ "xi64".toList, isPlain c = true := by
    rw [forall_mem_append]
    exact ⟨fun c hc => isPlain_of_isDigit (Text.isDigit_of_mem_repr hc),
      by simp [isPlain, isOpening, isClosing]⟩
  rw [htext, dueAfter_append_of_isPlain (by simp [isPlain, isOpening, isClosing])]
  have hopened : dueAfter [] ('<' :: ((n.repr.toList ++ "xi64".toList) ++ ['>'])) =
      dueAfter ['>'] ((n.repr.toList ++ "xi64".toList) ++ ['>']) := rfl
  rw [hopened, dueAfter_append_of_isPlain hinner]
  rfl

end Polyloom.TypeText
