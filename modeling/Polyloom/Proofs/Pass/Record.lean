import Mathlib.Data.List.Forall2
import Polyloom.Proofs.Pass.Calls
import Polyloom.Proofs.Pass.Names
import Polyloom.Proofs.Table
import Polyloom.Proofs.Text.Occurrence

/-!
# Records of pipelines

A record lists the passes that were asked for, each with the scope that was open and with its
options.  A call that succeeds keeps a pipeline as its record says, and the text of such a pipeline
has the record as its reading.
-/

namespace Polyloom

open Stateful Element List
open Element (isToken isKey isValue isTokenChar isToken_iff isValue_iff isFormed_iff)

/-- The passes that were asked for, and the scope that is open. -/
structure Record where
  scope : Option String := none
  elements : List Element := []

namespace Pipeline

variable {d v : Datum} {o : PassOption} {options : List (String × Datum)}

/-! ## Values of options -/

def spell : Datum → String
  | .bool b => if b then "1" else "0"
  | .list items => ",".intercalate (items.map Datum.text)
  | d => d.text

/-- Whole numbers, truth values and texts without blanks, commas, brackets and braces. -/
def isPlain : Datum → Bool
  | .bool _ | .int _ => true
  | .str s => s.toList.all isTokenChar
  | _ => false

def isPermitted (o : PassOption) : Datum → Bool
  | .null => true
  | .list items => o.takesList && items.all isPlain
  | v => isPlain v

/-- The options that have a value, as they are written. -/
def written (values : List (String × Datum)) : List (String × String) :=
  (values.filter fun o => !isNull o.2).map fun o => (dashed o.1, spell o.2)

private theorem isTokenChar_of_mem_repr {n : Int} {c : Char} (h : c ∈ n.repr.toList) :
    isTokenChar c = true := by
  have hdigit (m : Nat) (hm : c ∈ m.repr.toList) : isTokenChar c = true :=
    isTokenChar_of_class Char.isDigit (Text.isDigit_of_mem_repr hm) rfl
  cases n with
  | ofNat n => exact hdigit n h
  | negSucc n =>
    rw [Int.repr, String.toList_append, mem_append] at h
    rcases h with h | h
    · obtain rfl : c = '-' := by simpa using h
      rfl
    · exact hdigit _ h

private theorem isTokenChar_of_isPlain (h : isPlain d = true) {c : Char} (hc : c ∈ d.text.toList) :
    isTokenChar c = true := by
  cases d with
  | bool b =>
    cases b
    · rcases (by simpa [Datum.text,
        Datum.display] using hc : c = 'F' ∨ c = 'a' ∨ c = 'l' ∨ c = 's' ∨ c = 'e')
        with rfl | rfl | rfl | rfl | rfl <;> rfl
    · rcases (by simpa [Datum.text, Datum.display] using hc : c = 'T' ∨ c = 'r' ∨ c = 'u' ∨ c = 'e')
        with rfl | rfl | rfl | rfl <;> rfl
  | int n => exact isTokenChar_of_mem_repr hc
  | str s => exact all_eq_true.mp h c hc
  | _ => cases h

private theorem isValue_of_isPlain (h : isPlain d = true) : isValue d.text = true :=
  isValue_iff.mpr fun _ hc => isValueChar_of_isTokenChar (isTokenChar_of_isPlain h hc)

theorem isValue_spell (h : isPermitted o v = true) : isValue (spell v) = true := by
  cases v with
  | null => rfl
  | bool b => cases b <;> rfl
  | int n => exact isValue_of_isPlain h
  | str s => exact isValue_of_isPlain h
  | list items =>
    simp only [isPermitted, Bool.and_eq_true, all_eq_true] at h
    refine isValue_iff.mpr fun c hc => ?_
    rw [spell, String.toList_intercalate] at hc
    rcases mem_intercalate hc with rfl | ⟨part, hpart, hc⟩
    · rfl
    · simp only [mem_map] at hpart
      obtain ⟨text, ⟨d, hd, rfl⟩, rfl⟩ := hpart
      exact isValue_iff.mp (isValue_of_isPlain (h.2 d hd)) c hc
  | _ => cases h

theorem joinedValue_cases (o : PassOption) (v : Datum) : joinedValue o v = v ∨
    ∃ items, v = .list items ∧ joinedValue o v = .str (spell v) := by
  obtain ⟨name, _ | _⟩ := o
  · exact .inl rfl
  · cases v with
    | list items => exact .inr ⟨items, rfl, rfl⟩
    | _ => exact .inl rfl

theorem isNull_joinedValue (o : PassOption) (v : Datum) : isNull (joinedValue o v) = isNull v := by
  rcases joinedValue_cases o v with h | ⟨items, rfl, h⟩
  · rw [h]
  · rw [h]
    rfl

theorem spell_joinedValue (o : PassOption) (v : Datum) : spell (joinedValue o v) = spell v := by
  rcases joinedValue_cases o v with h | ⟨items, rfl, h⟩
  · rw [h]
  · rw [h]
    rfl

theorem text_joinedValue_of_list (h : ∀ items, v = .list items → o.takesList = true) :
    (optionValue (joinedValue o v)).text = spell v := by
  cases v with
  | bool b =>
    rw [(joinedValue_cases o _).resolve_right (by simp)]
    cases b <;> rfl
  | list items => simp [joinedValue, h items rfl, optionValue, spell, Datum.text]
  | _ =>
    rw [(joinedValue_cases o _).resolve_right (by simp)]
    rfl

theorem text_joinedValue (h : isPermitted o v = true) :
    (optionValue (joinedValue o v)).text = spell v := by
  refine text_joinedValue_of_list ?_
  rintro items rfl
  simp only [isPermitted, Bool.and_eq_true] at h
  exact h.1

/-! ## Texts of passes -/

private theorem optionTable_of_nodup (h : (options.map Prod.fst).Nodup) :
    optionTable options = options := by
  suffices hfold : ∀ acc : List (String × Datum), ((acc ++ options).map Prod.fst).Nodup →
      options.foldl (fun acc o => Table.put o.1 o.2 acc) acc = acc ++ options by
    exact hfold [] h
  -- the names that were put already are different from those to come
  clear h
  induction options with
  | nil => simp
  | cons entry rest ih =>
    intro acc hacc
    have hfresh : entry.1 ∉ acc.map Prod.fst := by
      simp only [map_append, map_cons, nodup_append] at hacc
      intro hmem
      exact hacc.2.2 _ hmem _ mem_cons_self rfl
    rw [foldl_cons, Table.put_of_notMem hfresh, ih _ (by simpa using hacc)]
    simp

structure Spelled (options : List (String × Datum)) : Prop where
  words : ∀ o ∈ options, isWord o.1 = true
  apart : (options.map Prod.fst).Nodup
  values : ∀ o ∈ options, (optionValue o.2).text = spell o.2 ∧ isValue (spell o.2) = true

private theorem Spelled.nodup (h : Spelled options) :
    ((options.map fun o => dashed o.1)).Nodup := by
  refine Nodup.map_on ?_ h.apart.of_map
  intro a ha b hb heq
  apply inj_on_of_nodup_map h.apart ha hb
  rw [← map_undash_dashed (h.words a ha), heq, map_undash_dashed (h.words b hb)]

theorem passText_of_nodup (h : (options.map fun o => optionKey o.1).Nodup)
    (scope : Option String) (name : String) :
    passText name options = Element.passText ⟨scope, name,
      (options.filter fun o => !isNull o.2).map fun o =>
        (optionKey o.1, (optionValue o.2).text)⟩ := by
  have hgiven : optionTable ((options.filter fun o => !isNull o.2).map fun o =>
      (optionKey o.1, optionValue o.2)) =
      (options.filter fun o => !isNull o.2).map fun o => (optionKey o.1, optionValue o.2) := by
    apply optionTable_of_nodup
    rw [map_map]
    exact Nodup.sublist ((filter_sublist).map _) h
  simp only [passText, Element.passText, hgiven, map_map, isEmpty_map, Function.comp_def]
  rfl

private theorem Spelled.passText_eq (h : Spelled options) (scope : Option String) (name : String) :
    passText name options = Element.passText ⟨scope, name, written options⟩ := by
  have hnodup : (options.map fun o => optionKey o.1).Nodup := by
    simpa only [optionKey_eq_dashed] using h.nodup
  have hwritten : (options.filter fun o => !isNull o.2).map
      (fun o => (optionKey o.1, (optionValue o.2).text)) = written options := by
    refine map_congr_left fun o ho => ?_
    rw [optionKey_eq_dashed, (h.values o (mem_of_mem_filter ho)).1]
  rw [passText_of_nodup hnodup scope, hwritten]

private theorem Spelled.isFormed (h : Spelled options) {scope : Option String}
    (hscope : ∀ s ∈ scope, isToken s = true) {name : String} (hname : isWord name = true) :
    isFormed ⟨scope, dashed name, written options⟩ = true := by
  refine isFormed_iff.mpr ⟨hscope, (isKey_iff.mp (isKey_dashed hname)).1, ?_⟩
  intro o ho
  obtain ⟨v, hv, rfl⟩ := mem_map.mp ho
  have hmem := mem_of_mem_filter hv
  exact ⟨isKey_dashed (h.words v hmem), (h.values v hmem).2⟩

end Pipeline

/-! ## Records of calls -/

namespace Record

def add (r : Record) (pass : String) (values : List (String × Datum)) : Record :=
  { r with elements := r.elements ++ [⟨r.scope, Pipeline.dashed pass, Pipeline.written values⟩] }

def step (r : Record) : Pipeline.Step → Record
  | .enter s => { r with scope := some s.operation }
  | .leave _ => { r with scope := none }
  | .pass name => r.add name []
  | .passWith name option value => r.add name [(option, value)]

def perform (r : Record) : Pipeline.Action → Record
  | .enter scope => { r with scope := some scope.text }
  | .leave _ => { r with scope := none }
  | .run steps => steps.foldl step r
  | .pass spec values => r.add spec.name values
  | .raw _ _ | .fail _ => r

end Record

namespace Pipeline

structure Stands (p : Pipeline) (r : Record) : Prop where
  passes : p.passes = r.elements.map text
  wrapper : p.wrapper = scopeDatum r.scope
  formed : ∀ e ∈ r.elements, e.isFormed = true
  token : ∀ scope ∈ r.scope, isToken scope = true

variable {p q : Pipeline} {r : Record} {name : String} {values : List (String × Datum)}
  {call : CallArgs Datum}

theorem Stands.reads (h : p.Stands r) : Reads (p.materialize true) r.elements := by
  refine ⟨all_eq_true.mpr h.formed, ?_⟩
  rw [materialize, h.passes]
  rfl

private theorem inScope_passText (scope : Option String) (pass : String)
    (options : List (String × String)) :
    inScope (scopeDatum scope) (Element.passText ⟨scope, pass, options⟩) =
      Element.text ⟨scope, pass, options⟩ := by
  cases scope <;> rfl

theorem Stands.add (h : p.Stands r) {options : List (String × Datum)} (hname : isWord name = true)
    (hoptions : Spelled options) :
    Stands { p with passes := p.passes ++ [inScope p.wrapper (passText (optionKey name) options)] }
      (r.add name options) where
  passes := by
    rw [h.wrapper, optionKey_eq_dashed, hoptions.passText_eq r.scope, inScope_passText, h.passes]
    simp [Record.add]
  wrapper := h.wrapper
  formed := by
    intro e he
    rcases mem_append.mp he with he | he
    · exact h.formed e he
    · rw [mem_singleton.mp he]
      exact hoptions.isFormed h.token hname
  token := h.token

theorem Stands.enter (h : p.Stands r) {scope : String} (hscope : isToken scope = true) :
    Stands { p with wrapper := .str scope } { r with scope := some scope } where
  passes := h.passes
  wrapper := rfl
  formed := h.formed
  token := by simpa using hscope

theorem Stands.leave (h : p.Stands r) :
    Stands { p with wrapper := .null } { r with scope := none } where
  passes := h.passes
  wrapper := rfl
  formed := h.formed
  token := by simp

theorem Stands.append (hp : p.Stands r) {r' : Record} (hq : q.Stands r') :
    Stands { p with passes := p.passes ++ q.passes }
      { r with elements := r.elements ++ r'.elements } where
  passes := by simp [hp.passes, hq.passes]
  wrapper := hp.wrapper
  formed := by
    intro e he
    rcases mem_append.mp he with he | he
    · exact hp.formed e he
    · exact hq.formed e he
  token := hp.token

/-! ## Steps -/

def Step.isLegible : Step → Bool
  | .enter s => isToken s.operation
  | .leave _ => true
  | .pass name => isWord name
  | .passWith name option value =>
    isWord name && isWord option && isValue (spell value) && (optionValue value).text = spell value

private theorem Stands.step {s : Step} (h : p.Stands r) (hs : s.isLegible = true)
    (hrun : exec s.run p = (.ok (), q)) : q.Stands (r.step s) := by
  cases s with
  | enter s =>
    rw [Step.run, NamedScope.enter, exec_openScope] at hrun
    split at hrun <;> cases hrun
    exact h.enter hs
  | leave s =>
    rw [Step.run, NamedScope.leave, exec_closeScope] at hrun
    split at hrun <;> cases hrun
    exact h.leave
  | pass name =>
    cases hrun
    exact h.add hs ⟨by simp, by simp, by simp⟩
  | passWith name option value =>
    cases hrun
    simp only [Step.isLegible, Bool.and_eq_true, decide_eq_true_eq] at hs
    exact h.add hs.1.1.1 ⟨by simpa using hs.1.1.2, by simp, by simpa using ⟨hs.2, hs.1.2⟩⟩

private theorem Stands.runSteps {steps : List Step} (h : p.Stands r)
    (hsteps : ∀ s ∈ steps, s.isLegible = true) (hrun : exec (runSteps steps) p = (.ok (), q)) :
    q.Stands (steps.foldl Record.step r) := by
  induction steps generalizing p r with
  | nil =>
    cases hrun
    exact h
  | cons s rest ih =>
    rw [Pipeline.runSteps, exec_bind_eq_ok] at hrun
    obtain ⟨⟨⟩, t, hs, hrest⟩ := hrun
    exact ih (h.step (hsteps s mem_cons_self) hs)
      (fun s hs => hsteps s (mem_cons_of_mem _ hs)) hrest

private theorem isLegible_composites {v : Datum}
    {steps : List Step} (h : (name, steps) ∈ composites v)
    (hv : name = "lower_to_vulkan" → isPermitted ⟨"index_bitwidth", true⟩ v = true) :
    ∀ s ∈ steps, s.isLegible = true := by
  simp only [composites, mem_cons, Prod.mk.injEq, not_mem_nil, or_false] at h
  rcases h with ⟨-, rfl⟩ | ⟨-, rfl⟩ | ⟨-, rfl⟩ | ⟨rfl, rfl⟩
  · decide +kernel
  · decide +kernel
  · decide +kernel
  · -- here the value of one option is open, and all else is fixed
    have hv := hv rfl
    have hnull : ∀ s ∈ lowerToVulkanSteps .null, s.isLegible = true := by decide +kernel
    simp only [lowerToVulkanSteps, forall_mem_cons, Step.isLegible, Bool.and_eq_true] at hnull ⊢
    simp [hnull, spell_joinedValue, isValue_spell hv, text_joinedValue hv]

private theorem isToken_namedScopes :
    ∀ s ∈ namedScopes, isToken s.operation = true := by decide +kernel

/-! ## Calls -/

def optionsOf (name : String) : List PassOption :=
  if name = "lower_to_vulkan" then [⟨"index_bitwidth", true⟩]
  else ((PassSpec.find? name).map PassSpec.options).getD []

/-- Is a call one of a method, with a scope and with values of the grammar? -/
def isAdmissible (name : String) (call : CallArgs Datum) : Bool :=
  name ≠ "_add_pass" &&
  (name ≠ "WRAP" || match bindOne "scope" call with
    | .ok (.str scope) => isToken scope
    | _ => false) &&
  match bindOptional ((optionsOf name).map PassOption.name) call with
  | .ok values => ((optionsOf name).zip values).all fun entry => isPermitted entry.1 entry.2.2
  | .error _ => true

private theorem ne_of_isAdmissible (h : isAdmissible name call = true) : name ≠ "_add_pass" := by
  simp only [isAdmissible, Bool.and_eq_true, decide_eq_true_eq] at h
  exact h.1.1

private theorem scope_of_isAdmissible (h : isAdmissible "WRAP" call = true) {scope : Datum}
    (hscope : bindOne "scope" call = .ok scope) :
    ∃ token, scope = .str token ∧ isToken token = true := by
  simp only [isAdmissible, hscope, Bool.and_eq_true] at h
  cases scope with
  | str token => exact ⟨token, rfl, by simpa using h.1.2⟩
  | _ => simp at h

theorem map_fst_of_bindOptional {params : List String} (h : bindOptional params call = .ok values) :
    values.map Prod.fst = params := by
  rw [bindOptional_eq] at h
  split at h
  · cases h
  · rename_i hnot
    cases h
    simp only [not_or, not_lt] at hnot
    rw [map_append, map_fst_zip (by simp), map_map]
    simp [Function.comp_def]

private theorem permitted_of_isAdmissible (h : isAdmissible name call = true)
    (hvalues : bindOptional ((optionsOf name).map PassOption.name) call = .ok values) :
    Forall₂ (fun o v => isPermitted o v.2 = true) (optionsOf name) values := by
  have hlength := congrArg length (map_fst_of_bindOptional hvalues)
  simp only [isAdmissible, hvalues, Bool.and_eq_true, all_eq_true] at h
  refine forall₂_iff_zip.mpr ⟨by simpa using hlength.symm, ?_⟩
  intro o v hmem
  exact h.2 (o, v) hmem

def joined (options : List PassOption) (values : List (String × Datum)) : List (String × Datum) :=
  zipWith (fun o v => (v.1, joinedValue o v.2)) options values

section

variable {options : List PassOption} {values : List (String × Datum)}

theorem map_fst_joined (h : options.length = values.length) :
    (joined options values).map Prod.fst = values.map Prod.fst := by
  rw [joined, map_zipWith]
  apply ext_getElem <;> simp [h]

private theorem written_joined (h : options.length = values.length) :
    written (joined options values) = written values := by
  induction options generalizing values with
  | nil => simp [joined, length_eq_zero_iff.mp h.symm]
  | cons o options ih =>
    cases values with
    | nil => cases h
    | cons v values =>
      have hrest : written (joined options values) = written values := ih (by simpa using h)
      simp only [written, joined, zipWith_cons_cons, filter_cons, isNull_joinedValue] at hrest ⊢
      split <;> simp [hrest, spell_joinedValue]

private theorem spelled_joined (h : Forall₂ (fun o v => isPermitted o v.2 = true) options values) :
    ∀ o ∈ joined options values, (optionValue o.2).text = spell o.2 ∧
      isValue (spell o.2) = true := by
  induction h with
  | nil => simp [joined]
  | cons hv _ ih =>
    refine forall_mem_cons.mpr ⟨?_, ih⟩
    rw [spell_joinedValue]
    exact ⟨text_joinedValue hv, isValue_spell hv⟩

end

private theorem spelled_of_bound {spec : PassSpec} (hspec : PassSpec.find? name = some spec)
    (hvalues : bindOptional (spec.options.map PassOption.name) call = .ok values)
    (hpermitted : Forall₂ (fun o v => isPermitted o v.2 = true) spec.options values) :
    isWord spec.name = true ∧ Spelled (joined spec.options values) := by
  have hnamed := isNamed_of_find? hspec
  simp only [isNamed, Bool.and_eq_true, all_eq_true, decide_eq_true_eq] at hnamed
  have hkeys : (joined spec.options values).map Prod.fst = spec.options.map PassOption.name := by
    rw [map_fst_joined hpermitted.length_eq, map_fst_of_bindOptional hvalues]
  refine ⟨hnamed.1.1, ?_, ?_, spelled_joined hpermitted⟩
  · intro o ho
    have hmem := mem_map_of_mem (f := Prod.fst) ho
    rw [hkeys] at hmem
    obtain ⟨option, hoption, hname⟩ := mem_map.mp hmem
    rw [← hname]
    exact hnamed.1.2 option hoption
  · rw [hkeys]
    exact hnamed.2

theorem Stands.perform {b : Bool} (h : p.Stands r) (hcall : isAdmissible name call = true)
    (hrun : exec (invoke name call) p = (.ok b, q)) : q.Stands (r.perform (action name call)) := by
  rw [invoke_eq] at hrun
  have hamounts := amounts_action name call
  generalize action name call = a at hrun hamounts
  cases hamounts with
  | fail _ => cases hrun
  | enter hname hscope =>
    subst hname
    obtain ⟨token, rfl, htoken⟩ := scope_of_isAdmissible hcall hscope
    obtain ⟨⟨⟩, hopen⟩ := exec_of_then_ok hrun
    rw [exec_openScope] at hopen
    split at hopen <;> cases hopen
    exact h.enter htoken
  | leave scope hname =>
    obtain ⟨⟨⟩, hclose⟩ := exec_of_then_ok hrun
    rw [exec_closeScope] at hclose
    split at hclose <;> cases hclose
    exact h.leave
  | raw pass options hname => exact absurd hname (ne_of_isAdmissible hcall)
  | composite hmem hv =>
    obtain ⟨⟨⟩, hsteps⟩ := exec_of_then_ok hrun
    refine h.runSteps (isLegible_composites hmem ?_) hsteps
    intro hname
    obtain ⟨k, hbind⟩ := hv hname
    have hoptions : optionsOf name = [⟨"index_bitwidth", true⟩] := by rw [optionsOf, if_pos hname]
    have hvalues := permitted_of_isAdmissible hcall (by rw [hoptions]; exact hbind)
    rw [hoptions] at hvalues
    cases hvalues with
    | cons hpermitted _ => exact hpermitted
  | opener hmem hname =>
    obtain ⟨⟨⟩, hsteps⟩ := exec_of_then_ok hrun
    exact h.runSteps (by simpa [Step.isLegible] using isToken_namedScopes _ hmem) hsteps
  | closer hmem hname =>
    obtain ⟨⟨⟩, hsteps⟩ := exec_of_then_ok hrun
    exact h.runSteps (by simp [Step.isLegible]) hsteps
  | pass hname hspec hvalues =>
    rename_i spec values
    have hoptions : optionsOf name = spec.options := by
      rw [optionsOf, if_neg (by rintro rfl; simp [compositeNames] at hname), hspec]
      rfl
    have hpermitted := permitted_of_isAdmissible hcall (by rw [hoptions]; exact hvalues)
    rw [hoptions] at hpermitted
    obtain ⟨hword, hspelled⟩ := spelled_of_bound hspec hvalues hpermitted
    cases hrun
    have hadd := h.add hword hspelled
    rw [Record.add, written_joined hpermitted.length_eq] at hadd
    exact hadd

end Pipeline

end Polyloom
