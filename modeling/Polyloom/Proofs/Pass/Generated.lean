import Polyloom.Proofs.Outcome
import Polyloom.Proofs.Pass.Printed
import Polyloom.Proofs.Pass.Record

/-!
# What printed methods do

A table declares passes and their options.  The method that is printed for a pass adds the pass
under its name, with the given options under the names that they are declared with.  That takes
names that the text can use, and no option named `global`, which is printed as `global_` and comes
out as `global-`.
-/

namespace Polyloom

open Stateful Element Pipeline List

namespace PassMethod

open Pipeline (optionKey bindOptional joinedValue isNull spell)

variable {name pass : String} {d : Datum} {o : PassOption} {options : List PassOption}
  {entry : Datum × Datum} {values : List (String × Datum)}

/-! ## Options of a table -/

def declared : Datum → String
  | .str text | .map [(.str text, _)] => String.ofList (text.toList.takeWhile (· ≠ '='))
  | _ => ""

def optionNames (d : Datum) : List String := (d.elements?.getD []).map declared

def isFlag : Datum → Bool
  | .str text => '=' ∉ text.toList
  | _ => false

/-- Is an entry of a table for a pass named by a word, with options named by different words? -/
def isNamedEntry : Datum × Datum → Bool
  | (.str pass, d) => isName pass && (optionNames d).all isName && (optionNames d).Nodup
  | _ => false

private theorem takeWhile_of_sides {text kind : String} (h : sides text = .ok (name, kind)) :
    String.ofList (text.toList.takeWhile (· ≠ '=')) = name := by
  unfold sides at h
  split at h
  · rename_i hsplit
    obtain ⟨rfl, rfl⟩ : _ = name ∧ _ = kind := by simpa using h
    rw [Text.splitOn_eq (a := '=') rfl] at hsplit
    by_cases hmem : '=' ∈ text.toList
    · obtain ⟨front, rest, heq, hfront⟩ := eq_append_cons_of_mem hmem
      rw [heq, splitOn_append_cons_self_of_not_mem hfront, map_cons] at hsplit
      rw [heq, takeWhile_ne fun c hc => by rintro rfl; exact hfront hc]
      exact (cons.inj hsplit).1
    · rw [splitOn_eq_singleton hmem] at hsplit
      simp at hsplit
  · simp at h

private theorem parameterName_cases (name : String) : parameterName name = identifier name ∨
    (name = "global" ∧ parameterName name = "global_") := by
  unfold parameterName
  split
  · rename_i h
    exact .inr ⟨h, by decide⟩
  · exact .inl rfl

theorem option_spec (h : option d = .ok o) :
    (o.name = identifier (declared d) ∨ (declared d = "global" ∧ o.name = "global_")) ∧
      o.takesList = !isFlag d := by
  unfold option at h
  split at h
  · rename_i text
    have hcontains : Text.contains text "=" = decide ('=' ∈ text.toList) :=
      Text.occurs_singleton '=' _
    rw [hcontains] at h
    split at h
    · rename_i hmem
      rw [decide_eq_true_eq] at hmem
      obtain ⟨⟨name, kind⟩, hsides, h⟩ := bind_eq_ok.mp h
      dsimp only at h
      split at h
      · obtain rfl := Except.ok.inj h
        rw [declared, takeWhile_of_sides hsides]
        exact ⟨parameterName_cases name, by simp [isFlag, hmem]⟩
      · simp [throw, throwThe, MonadExceptOf.throw] at h
    · rename_i hmem
      rw [decide_eq_true_eq] at hmem
      obtain rfl := Except.ok.inj h
      have hself : String.ofList (text.toList.takeWhile (· ≠ '=')) = text := by
        rw [takeWhile_eq_self_iff.mpr, String.ofList_toList]
        intro c hc
        simpa using fun heq : c = '=' => hmem (heq ▸ hc)
      rw [declared, hself]
      exact ⟨parameterName_cases text, by simp [isFlag, hmem]⟩
  · split at h
    · obtain ⟨⟨name, kind⟩, hsides, h⟩ := bind_eq_ok.mp h
      obtain rfl := Except.ok.inj h
      rw [declared, takeWhile_of_sides hsides]
      exact ⟨.inl rfl, rfl⟩
    · simp at h
  · simp at h

theorem forall₂_options (h : optionsOf d = .ok options) :
    Forall₂ (fun item o => option item = .ok o) (d.elements?.getD []) options := by
  unfold optionsOf at h
  split at h
  · obtain rfl := Except.ok.inj h
    exact .nil
  · split at h
    · rename_i items heq
      rw [heq]
      exact mapM_eq_ok_iff.mp h
    · simp at h

/-- Options that are declared under such names: only one word is not kept. -/
def Declares (names : List String) (options : List PassOption) : Prop :=
  Forall₂ (fun name o => o.name = identifier name ∨
    (name = "global" ∧ o.name = "global_")) names options

theorem Declares.name_cases {names : List String} (h : Declares names options) (ho : o ∈ options) :
    (∃ name ∈ names, o.name = identifier name) ∨ o.name = "global_" := by
  induction h with
  | nil => simp at ho
  | cons hname _ ih =>
    rename_i name o' names options _
    rw [mem_cons] at ho
    obtain rfl | ho := ho
    · obtain hname | ⟨-, hname⟩ := hname
      · exact .inl ⟨name, mem_cons_self, hname⟩
      · exact .inr hname
    · refine (ih ho).imp_left ?_
      rintro ⟨other, hmem, heq⟩
      exact ⟨other, mem_cons_of_mem _ hmem, heq⟩

theorem declares_optionNames (h : optionsOf d = .ok options) :
    Declares (optionNames d) options := by
  unfold optionNames Declares
  rw [forall₂_map_left_iff]
  exact (forall₂_options h).imp fun _ _ hoption => (option_spec hoption).1

private theorem map_takesList (h : optionsOf d = .ok options) :
    options.map PassOption.takesList = (d.elements?.getD []).map fun item => !isFlag item := by
  rw [← forall₂_eq_eq_eq, forall₂_map_left_iff, forall₂_map_right_iff]
  exact ((forall₂_options h).imp fun _ _ hoption => (option_spec hoption).2).flip

theorem ofEntry_eq {m : PassMethod} (h : ofEntry entry = .ok m) :
    entry.1 = .str m.pass ∧ optionsOf entry.2 = .ok m.options := by
  obtain ⟨options, hoptions, h⟩ := bind_eq_ok.mp h
  cases hkey : entry.1 with
  | str pass =>
    rw [hkey] at h
    obtain rfl := Except.ok.inj h
    exact ⟨rfl, hoptions⟩
  | _ => simp [hkey, throw, throwThe, MonadExceptOf.throw] at h

/-! ## What the text does -/

def reserved : List String :=
  ["False", "None", "True", "and", "as", "assert", "async", "await", "break", "class", "continue",
   "def", "del", "elif", "else", "except", "finally", "for", "from", "global", "if", "import", "in",
   "is", "lambda", "nonlocal", "not", "or", "pass", "raise", "return", "try", "while", "with",
   "yield"]

def parameters (m : PassMethod) : List String := m.options.map PassOption.name

/-- Does the text define a method?  Its name and its parameters are no reserved words, and the
parameters differ from each other and from the pipeline. -/
def isDefinable (m : PassMethod) : Bool :=
  ((identifier m.pass :: m.parameters).all fun name => name ∉ reserved) &&
    ("self" :: m.parameters).Nodup

/-- The value of a parameter after the lines that join lists.  A parameter of the same name hides
a function or type that these lines use, and then they fail when they come to it. -/
def joinUnder (parameters : List String) : Datum → Except Fault Datum
  | .null => .ok .null
  | .list items =>
    if "isinstance" ∈ parameters ∨ "list" ∈ parameters ∨ "map" ∈ parameters ∨
        ("str" ∈ parameters ∧ items ≠ []) then .error .wrongKind
    else .ok (.str (",".intercalate (items.map Datum.text)))
  | v =>
    if "isinstance" ∈ parameters ∨ "list" ∈ parameters ∨ "tuple" ∈ parameters then
      .error .wrongKind
    else .ok v

def passedValue (parameters : List String) (o : PassOption) (v : Datum) : Except Fault Datum :=
  if o.takesList then joinUnder parameters v else .ok v

def passedOptions (m : PassMethod) (values : List (String × Datum)) :
    Except Fault (List (String × Datum)) :=
  (m.options.zip values).mapM fun o => (passedValue m.parameters o.1 o.2.2).map (o.2.1, ·)

/-- A call of the printed method.  No option can be passed on under the name that the pass itself
is passed on under. -/
def perform (m : PassMethod) (args : CallArgs Datum) : PipelineCall Unit := do
  if m.isDefinable then
    let values ← MonadExcept.ofExcept (bindOptional m.parameters args)
    let passed ← MonadExcept.ofExcept (m.passedOptions values)
    if "pass_name" ∈ m.parameters then throw .wrongKind else addPass m.pass passed
  else throw .noAttribute

def joinNames : List String := ["isinstance", "list", "tuple", "map", "str"]

def isUsable (m : PassMethod) : Bool :=
  m.isDefinable && "pass_name" ∉ m.parameters &&
    ((m.options.all fun o => !o.takesList) || joinNames.all fun name => name ∉ m.parameters)

/-! ## Calls that add the pass -/

def isSettable (o : PassOption) : Datum → Bool
  | .null | .bool _ | .int _ | .str _ => true
  | .list _ => o.takesList
  | _ => false

/-- The options that are given a value, under such names. -/
def given (names : List String) (values : List Datum) : List (String × String) :=
  ((names.zip values).filter fun o => !isNull o.2).map fun o => (o.1, spell o.2)

def adding (p : Pipeline) (pass : String) (options : List (String × String)) : Pipeline :=
  { p with passes := p.passes ++ [inScope p.wrapper (passText ⟨none, pass, options⟩)] }

/-- Every call adds the pass with exactly the options that it gives, under such names. -/
def Emits (m : PassMethod) (names : List String) : Prop :=
  ∀ (args : CallArgs Datum) (values : List (String × Datum)),
    bindOptional m.parameters args = .ok values →
    Forall₂ (fun o v => isSettable o v.2 = true) m.options values →
    ∀ p, exec (m.perform args) p = (.ok (), adding p m.pass (given names (values.map Prod.snd)))

variable {m : PassMethod} {names : List String}

private theorem exec_ofExcept {α : Type} (x : Except Fault α) (p : Pipeline) :
    exec (MonadExcept.ofExcept x : PipelineCall α) p = (x, p) := by
  cases x <;> rfl

private theorem joinUnder_of_usable {parameters : List String}
    (h : ∀ name ∈ joinNames, name ∉ parameters) (v : Datum) (o : PassOption)
    (ho : o.takesList = true) : joinUnder parameters v = .ok (joinedValue o v) := by
  simp only [joinNames, forall_mem_cons] at h
  cases v <;> simp [joinUnder, joinedValue, ho, h]

/-- Where the names can be used, a printed method is called like the method of the table. -/
theorem perform_eq_call (h : m.isUsable = true) (args : CallArgs Datum) :
    m.perform args = m.call args := by
  simp only [isUsable, Bool.and_eq_true, Bool.or_eq_true, decide_eq_true_eq,
    all_eq_true, Bool.not_eq_true'] at h
  obtain ⟨⟨hdefinable, hpass⟩, hjoins⟩ := h
  have hvalue : ∀ o ∈ m.options, ∀ v, passedValue m.parameters o v = .ok (joinedValue o v) := by
    intro o ho v
    unfold passedValue
    split
    · rename_i hlist
      obtain hflags | hnames := hjoins
      · simp [hflags o ho] at hlist
      · exact joinUnder_of_usable hnames v o hlist
    · rename_i hflag
      simp [joinedValue, hflag]
  have hpassed : ∀ values, m.passedOptions values = .ok (joined m.options values) := by
    intro values
    unfold passedOptions joined
    rw [mapM_eq_ok_iff, ← map_uncurry_zip_eq_zipWith, forall₂_map_right_iff, forall₂_same]
    rintro ⟨o, k, v⟩ hmem
    dsimp only
    rw [hvalue o (of_mem_zip hmem).1]
    rfl
  unfold perform call callMethod
  rw [if_pos hdefinable]
  unfold parameters at hpass ⊢
  cases bindOptional (m.options.map PassOption.name) args with
  | error => rfl
  | ok values =>
    simp only [hpassed, if_neg hpass]
    rfl

private theorem parameters_eq (h : Declares names m.options) (hglobal : "global" ∉ names) :
    m.parameters = names.map identifier := by
  unfold parameters
  generalize m.options = options at h
  induction h with
  | nil => rfl
  | cons hname _ ih =>
    rw [mem_cons, not_or] at hglobal
    rw [map_cons, map_cons, ih hglobal.2, hname.resolve_right fun h => hglobal.1 h.1.symm]

private theorem map_optionKey (h : ∀ name ∈ names, isName name = true) :
    (names.map identifier).map optionKey = names := by
  rw [map_map]
  exact (map_congr_left fun name hmem => optionKey_identifier (h name hmem)).trans (map_id _)

private theorem text_of_isSettable {v : Datum} (h : isSettable o v = true) :
    (optionValue (joinedValue o v)).text = spell v := by
  refine text_joinedValue_of_list ?_
  rintro items rfl
  exact h

private theorem written_given (hset : Forall₂ (fun o v => isSettable o v.2 = true) options values)
    (hkeys : values.map Prod.fst = names.map identifier)
    (hnames : ∀ name ∈ names, isName name = true) :
    ((joined options values).filter fun o => !isNull o.2).map
      (fun o => (optionKey o.1, (optionValue o.2).text)) =
      given names (values.map Prod.snd) := by
  induction hset generalizing names with
  | nil =>
    obtain rfl : names = [] := by simpa using hkeys.symm
    rfl
  | cons hv _ ih =>
    rename_i o v options values _
    cases names with
    | nil => simp at hkeys
    | cons name names =>
      rw [map_cons, map_cons, cons.injEq] at hkeys
      rw [forall_mem_cons] at hnames
      have hrest := ih hkeys.2 hnames.2
      simp only [joined, given, zipWith_cons_cons, map_cons,
        zip_cons_cons, filter_cons, isNull_joinedValue] at hrest ⊢
      split
      · rw [map_cons, map_cons, hrest, hkeys.1, optionKey_identifier hnames.1,
          text_of_isSettable hv]
      · exact hrest

theorem exec_call {args : CallArgs Datum} (h : bindOptional m.parameters args = .ok values)
    (p : Pipeline) : exec (m.call args) p = (.ok (), { p with passes := p.passes ++
      [inScope p.wrapper (passText m.pass (joined m.options values))] }) := by
  unfold call callMethod
  rw [← parameters, h]
  rfl

private theorem passText_joined
    (hset : Forall₂ (fun o v => isSettable o v.2 = true) m.options values)
    (hkeys : values.map Prod.fst = names.map identifier)
    (hnames : ∀ name ∈ names, isName name = true) (hnodup : names.Nodup) :
    passText m.pass (joined m.options values) =
      passText ⟨none, m.pass, given names (values.map Prod.snd)⟩ := by
  have hfst : (joined m.options values).map (fun o => optionKey o.1) = names := by
    have hmap := map_fst_joined hset.length_eq
    rw [hkeys] at hmap
    rw [← map_optionKey hnames, ← hmap, map_map]
    rfl
  rw [passText_of_nodup (by rw [hfst]; exact hnodup) none, written_given hset hkeys hnames]

private theorem emits_of_isUsable (husable : m.isUsable = true)
    (hdeclares : Declares names m.options) (hnames : ∀ name ∈ names, isName name = true)
    (hnodup : names.Nodup) (hglobal : "global" ∉ names) : m.Emits names := by
  intro args values hvalues hset p
  have hkeys : values.map Prod.fst = names.map identifier :=
    (map_fst_of_bindOptional hvalues).trans (parameters_eq hdeclares hglobal)
  rw [perform_eq_call husable, exec_call hvalues, passText_joined hset hkeys hnames hnodup]
  rfl

/-! ## Names that fail -/

private theorem bindOptional_positional (params : List String)
    (values : List Datum) (h : values.length = params.length) :
    bindOptional params ⟨values, []⟩ = .ok (params.zip values) := by
  rw [bindOptional_eq, if_neg (by simp [h])]
  simp [h]

def callWith (m : PassMethod) (value : PassOption → Datum) : CallArgs Datum :=
  ⟨m.options.map value, []⟩

theorem bindOptional_callWith (m : PassMethod) (value : PassOption → Datum) :
    bindOptional m.parameters (m.callWith value) =
      .ok (m.options.map fun o => (o.name, value o)) := by
  rw [callWith, bindOptional_positional _ _ (by simp [parameters]), parameters, zip_map']

theorem Emits.exec_callWith (h : m.Emits names) (value : PassOption → Datum)
    (hvalue : ∀ o, isSettable o (value o) = true) (p : Pipeline) :
    exec (m.perform (m.callWith value)) p =
      (.ok (), adding p m.pass (given names (m.options.map value))) := by
  have hset : Forall₂ (fun o v => isSettable o v.2 = true) m.options
      (m.options.map fun o => (o.name, value o)) := by
    rw [forall₂_map_right_iff, forall₂_same]
    exact fun o _ => hvalue o
  rw [h _ _ (bindOptional_callWith m value) hset p, map_map]
  rfl

private theorem of_exec_perform {value : PassOption → Datum} {p q : Pipeline}
    (h : exec (m.perform (m.callWith value)) p = (.ok (), q)) :
    m.isDefinable = true ∧ "pass_name" ∉ m.parameters ∧
      ∀ o ∈ m.options, ∃ v, passedValue m.parameters o (value o) = .ok v := by
  unfold perform at h
  split at h
  · rename_i hdefinable
    simp only [exec_bind_eq_ok, exec_ofExcept, bindOptional_callWith] at h
    obtain ⟨values, _, ⟨⟩, passed, _, hpair, hadd⟩ := h
    have hpassed := congrArg Prod.fst hpair
    dsimp only at hpassed
    split at hadd
    · simp at hadd
    · rename_i hname
      refine ⟨hdefinable, hname, fun o ho => ?_⟩
      have hmem :
          (o, o.name, value o) ∈ m.options.zip (m.options.map fun o => (o.name, value o)) := by
        obtain ⟨i, hi, rfl⟩ := getElem_of_mem ho
        exact mem_iff_getElem.mpr ⟨i, by simpa using hi, by simp⟩
      obtain ⟨v, hv⟩ := exists_mapM.mp ⟨passed, hpassed⟩ _ hmem
      obtain ⟨w, hw, -⟩ := map_eq_ok.mp hv
      exact ⟨w, hw⟩
  · simp at h

theorem Emits.isUsable (h : m.Emits names) : m.isUsable = true := by
  have hnull := of_exec_perform (h.exec_callWith (fun _ => .null) (fun _ => rfl) {})
  -- one value for all options that take lists
  have hjoins : ∀ v : Datum, (∀ o : PassOption, o.takesList = true → isSettable o v = true) →
      ∀ o ∈ m.options, o.takesList = true → ∃ w, joinUnder m.parameters v = .ok w := by
    intro v hv o ho hlist
    have hsettable : ∀ o : PassOption, isSettable o (if o.takesList then v else .null) = true := by
      intro o
      split
      · exact hv o (by assumption)
      · rfl
    have hpassed := (of_exec_perform (h.exec_callWith _ hsettable {})).2.2
    simpa [passedValue, hlist] using hpassed o ho
  have hnumber := hjoins (.int 0) fun _ _ => rfl
  have hlist := hjoins (.list [.int 0]) fun _ h => h
  simp only [PassMethod.isUsable, Bool.and_eq_true, Bool.or_eq_true, decide_eq_true_eq, all_eq_true]
  refine ⟨⟨hnull.1, hnull.2.1⟩, ?_⟩
  by_cases hflags : ∃ o ∈ m.options, o.takesList = true
  · obtain ⟨o, ho, htakes⟩ := hflags
    obtain ⟨v, hv⟩ := hnumber o ho htakes
    obtain ⟨w, hw⟩ := hlist o ho htakes
    right
    simp only [joinUnder] at hv hw
    split at hv
    · simp at hv
    split at hw
    · simp at hw
    simp_all [joinNames]
  · left
    simpa using hflags

theorem isKey_of_isName (h : isName name = true) : isKey name = true := by
  refine isKey_iff.mpr ⟨isToken_iff.mpr ⟨?_, fun c hc => ?_⟩, fun c hc => ?_⟩
  · rintro rfl
    simp [isName] at h
  · exact isTokenChar_of_class (fun c => c.isAlphanum || decide (c = '-')) (isAlphanum_or_dash h hc)
      (by decide)
  · exact ne_of_isName h hc (by decide)

private theorem keys_of_declares (h : Declares names options)
    (hnames : ∀ name ∈ names, isName name = true) (o : PassOption) (ho : o ∈ options) :
    isKey (optionKey o.name) = true ∧ identifier (optionKey o.name) = o.name := by
  obtain ⟨name, hmem, hname⟩ | hname := h.name_cases ho
  · rw [hname, optionKey_identifier (hnames name hmem)]
    exact ⟨isKey_of_isName (hnames name hmem), rfl⟩
  · rw [hname]
    decide

private theorem global_not_mem_of_keys (h : Declares names options)
    (hkeys : (options.map fun o => optionKey o.name) = names)
    (hwords : ∀ o ∈ options, o.name ≠ "global") : "global" ∉ names := by
  induction h with
  | nil => simp
  | cons hname _ ih =>
    rw [map_cons, cons.injEq] at hkeys
    rw [forall_mem_cons] at hwords
    rw [mem_cons, not_or]
    refine ⟨?_, ih hkeys.2 hwords.2⟩
    rintro rfl
    obtain hname | ⟨-, hname⟩ := hname
    · exact hwords.1 (hname.trans (by decide))
    · rw [hname] at hkeys
      exact absurd hkeys.1 (by decide)

private theorem given_truths (h : names.length = options.length) :
    given names (options.map fun _ => .bool true) = names.map fun name => (name, "1") := by
  induction names generalizing options with
  | nil => rfl
  | cons name names ih =>
    cases options with
    | nil => simp at h
    | cons o options =>
      have hrest := ih (show names.length = options.length by simpa using h)
      simp only [given, map_cons, zip_cons_cons, filter_cons,
        isNull, Bool.not_false, if_true] at hrest ⊢
      rw [hrest]
      rfl

private theorem passText_truths (h : (options.map fun o => optionKey o.name).Nodup)
    (pass : String) :
    passText pass (joined options (options.map fun o => (o.name, .bool true))) =
      passText ⟨none, pass,
        (options.map fun o => optionKey o.name).map fun key => (key, "1")⟩ := by
  have hjoined : joined options (options.map fun o => (o.name, .bool true)) =
      options.map fun o => (o.name, .bool true) := by
    rw [joined, zipWith_map_right, zipWith_self]
    refine map_congr_left fun o _ => ?_
    cases ho : o.takesList <;> simp [joinedValue, ho]
  have hfilter : ((options.map fun o => (o.name, Datum.bool true)).filter fun o => !isNull o.2) =
      options.map fun o => (o.name, .bool true) := by
    rw [filter_eq_self, forall_mem_map]
    exact fun _ _ => rfl
  rw [hjoined, passText_of_nodup (by rw [map_map]; exact h) none, hfilter, map_map, map_map]
  rfl

private theorem isFormed_truths (hpass : isName pass = true)
    {keys : List String} (h : ∀ key ∈ keys, isKey key = true) :
    isFormed ⟨none, pass, keys.map fun key => (key, "1")⟩ = true := by
  refine isFormed_iff.mpr ⟨by simp, (isKey_iff.mp (isKey_of_isName hpass)).1, ?_⟩
  rw [forall_mem_map]
  exact fun key hkey => ⟨h key hkey, show isValue "1" = true by decide⟩

section

variable (h : m.Emits names) (hpass : isName m.pass = true) (hdeclares : Declares names m.options)
  (hnames : ∀ name ∈ names, isName name = true)

include h hpass hdeclares hnames

private theorem Emits.keys_eq (hnodup : m.parameters.Nodup) :
    (m.options.map fun o => optionKey o.name) = names := by
  have hkeys := keys_of_declares hdeclares hnames
  have hdistinct : (m.options.map fun o => optionKey o.name).Nodup := by
    refine Nodup.of_map identifier ?_
    rw [map_map]
    exact (map_congr_left fun o ho => (hkeys o ho).2).symm ▸ hnodup
  have hexec := h.exec_callWith (fun _ => .bool true) (fun _ => rfl) {}
  rw [perform_eq_call h.isUsable, exec_call (bindOptional_callWith m _), passText_truths hdistinct,
    given_truths hdeclares.length_eq] at hexec
  have htext := (cons.inj (congrArg (fun r => r.2.passes) hexec)).1
  have helement := passText_inj (isFormed_truths hpass (forall_mem_map.mpr fun o ho =>
    (hkeys o ho).1)) (isFormed_truths hpass fun key hkey =>
      isKey_of_isName (hnames key hkey)) rfl htext
  have hoptions := congrArg (fun e => e.options.map Prod.fst) helement
  simpa [Function.comp_def] using hoptions

private theorem Emits.global_not_mem : "global" ∉ names := by
  have hdefinable : m.isDefinable = true := by
    have husable := h.isUsable
    simp only [PassMethod.isUsable, Bool.and_eq_true] at husable
    exact husable.1.1
  simp only [isDefinable, Bool.and_eq_true, decide_eq_true_eq,
    nodup_cons, all_cons, all_eq_true] at hdefinable
  obtain ⟨⟨-, hwords⟩, -, hnodup⟩ := hdefinable
  refine global_not_mem_of_keys hdeclares (h.keys_eq hpass hdeclares hnames hnodup)
    fun o ho hname => ?_
  exact hwords "global" (hname ▸ mem_map_of_mem ho) (by decide)

end

/-! ## Tables -/

theorem isNamedEntry_iff (hpass : entry.1 = .str pass) :
    isNamedEntry entry = true ↔ isName pass = true ∧
      (∀ name ∈ optionNames entry.2, isName name = true) ∧ (optionNames entry.2).Nodup := by
  obtain ⟨key, d⟩ := entry
  obtain rfl : key = .str pass := hpass
  simp [isNamedEntry, and_assoc]

private theorem isLine_of_declares (h : Declares names options)
    (hnames : ∀ name ∈ names, isName name = true) (o : PassOption) (ho : o ∈ options) :
    Text.isLine o.name = true := by
  obtain ⟨name, hmem, hname⟩ | hname := h.name_cases ho
  · rw [hname]
    exact isLine_identifier (isLine_of_isName (hnames name hmem))
  · rw [hname]
    decide

theorem emits_iff (hentry : ofEntry entry = .ok m) (hnamed : isNamedEntry entry = true) :
    m.Emits (optionNames entry.2) ↔ m.isUsable = true ∧ "global" ∉ optionNames entry.2 := by
  obtain ⟨hkey, hoptions⟩ := ofEntry_eq hentry
  obtain ⟨hpass, hnames, hnodup⟩ := (isNamedEntry_iff hkey).mp hnamed
  have hdeclares := declares_optionNames hoptions
  constructor
  · intro h
    exact ⟨h.isUsable, h.global_not_mem hpass hdeclares hnames⟩
  · rintro ⟨husable, hglobal⟩
    exact emits_of_isUsable husable hdeclares hnames hnodup hglobal

private theorem render_of_ofEntry (hentry : ofEntry entry = .ok m)
    (hnamed : isNamedEntry entry = true) :
    m.render = textOf m.lines := by
  obtain ⟨hkey, hoptions⟩ := ofEntry_eq hentry
  obtain ⟨hpass, hnames, -⟩ := (isNamedEntry_iff hkey).mp hnamed
  exact render_eq (isLine_of_isName hpass)
    (isLine_of_declares (declares_optionNames hoptions) hnames)

/-- A table whose passes and options are named by words is printed as the lines of its methods, one
for each pass, whose options take lists unless they are flags.  A method adds its pass with exactly
the options that a call gives, under the names of the table, if and only if the text can use the
names and no option is named `global`. -/
theorem printed_methods_emit_iff {entries : List (Datum × Datum)}
    {text : String} (hnamed : ∀ entry ∈ entries, isNamedEntry entry = true)
    (htext : renderTable (.map entries) = .ok text) :
    ∃ methods, ofTable (.map entries) = .ok methods ∧ text.toList = textOf (methods.flatMap lines) ∧
      Forall₂ (fun entry m => entry.1 = .str m.pass ∧ m.options.map PassOption.takesList =
          ((entry.2.elements?.getD []).map fun item => !isFlag item) ∧
        (m.Emits (optionNames entry.2) ↔ m.isUsable = true ∧ "global" ∉ optionNames entry.2))
          entries methods := by
  obtain ⟨methods, htable, hprinted⟩ := bind_eq_ok.mp htext
  obtain rfl := Except.ok.inj hprinted
  have hentries := mapM_eq_ok_iff.mp htable
  refine ⟨methods, htable, ?_, ?_⟩
  · rw [String.toList_ofList, textOf_flatMap, flatMap_def]
    congr 1
    refine map_congr_left fun m hm => ?_
    obtain ⟨entry, hmem, hentry⟩ := (mem_mapM htable m).mp hm
    exact render_of_ofEntry hentry (hnamed entry hmem)
  · refine forall₂_iff_zip.mpr ⟨hentries.length_eq, fun {entry m} hmem => ?_⟩
    have hentry := (forall₂_iff_zip.mp hentries).2 hmem
    obtain ⟨hkey, hoptions⟩ := ofEntry_eq hentry
    exact ⟨hkey, map_takesList hoptions, emits_iff hentry (hnamed entry (of_mem_zip hmem).1)⟩

def tilingTable : List (Datum × Datum) :=
  [(.str "affine-loop-tile", .list [.str "tile-sizes=<uint>", .str "separate",
      .map [(.str "loop-order=<value>", .null)]]),
   (.str "canonicalize", .null)]

def tilingMethod : PassMethod :=
  ⟨"affine-loop-tile", [⟨"tile_sizes", true⟩, ⟨"separate", false⟩, ⟨"loop_order", true⟩]⟩

theorem tilingMethod_emits : (∀ entry ∈ tilingTable, isNamedEntry entry = true) ∧
    (∃ text, renderTable (.map tilingTable) = .ok text) ∧
    tilingMethod.Emits ["tile-sizes", "separate", "loop-order"] := by
  have hnamed : ∀ entry ∈ tilingTable, isNamedEntry entry = true := by decide
  have htable : ofTable (.map tilingTable) = .ok [tilingMethod, ⟨"canonicalize", []⟩] := by
    decide +kernel
  have htext : renderTable (.map tilingTable) = .ok _ := bind_eq_ok.mpr ⟨_, htable, rfl⟩
  obtain ⟨methods, hmethods, -, hemits⟩ := printed_methods_emit_iff hnamed htext
  obtain rfl := Except.ok.inj (htable.symm.trans hmethods)
  refine ⟨hnamed, ⟨_, htext⟩, ?_⟩
  cases hemits with
  | cons hfirst _ => exact hfirst.2.2.mpr ⟨by decide, by decide⟩

def inlineMethod : PassMethod := ⟨"inline", [⟨"global_", false⟩]⟩

theorem inlineMethod_renames : isNamedEntry (.str "inline", .list [.str "global"]) = true ∧
      ofTable (.map [(.str "inline", .list [.str "global"])]) = .ok [inlineMethod] ∧
      exec (inlineMethod.perform ⟨[], [("global_", .bool true)]⟩) {} =
        (.ok (), { passes := ["inline\x7b global-=1 \x7d"] }) ∧
      ¬ inlineMethod.Emits ["global"] := by
  have hnamed : isNamedEntry (.str "inline", .list [.str "global"]) = true := by decide
  have htable : ofEntry (.str "inline", .list [.str "global"]) = .ok inlineMethod := by
    decide +kernel
  refine ⟨hnamed, mapM_eq_ok_iff.mpr (.cons htable .nil), rfl, fun h => ?_⟩
  exact ((emits_iff htable hnamed).mp h).2 (by decide)

end PassMethod

end Polyloom
