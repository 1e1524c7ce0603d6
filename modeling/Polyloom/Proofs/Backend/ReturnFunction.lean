import Polyloom.Builder.Compile
import Polyloom.Proofs.Builder.Growth
import Polyloom.Proofs.Outcome
import Polyloom.Proofs.Text.Pieces
import Polyloom.Proofs.Text.Replacement

/-!
# Names that carry types

The results of a compiled program are handed to a function whose name lists their types.  The name
is cut behind a beginning of fixed length and at the underscores, which the beginning has too.
Reading it gives back the tokens that it was made of, and their types are those of the two tables.
-/

namespace Polyloom

open Text

namespace ReturnFunction

variable {name token type : String} {names tokens types : List String}

/-! ## Tokens -/

private theorem dropFront_marker (text : String) :
    dropFront (marker ++ text) marker.length = text := by
  have hlength : marker.length = marker.toList.length := String.length_toList.symm
  rw [dropFront, hlength, String.toList_append, List.drop_left, String.ofList_toList]

theorem tokens_name (hne : tokens ≠ []) (h : ∀ token ∈ tokens, '_' ∉ token.toList) :
    ReturnFunction.tokens (marker ++ "_".intercalate tokens) = tokens := by
  rw [ReturnFunction.tokens, dropFront_marker]
  induction tokens with
  | nil => exact absurd rfl hne
  | cons token rest ih =>
    rw [List.forall_mem_cons] at h
    cases rest with
    | nil => exact splitOn_eq_single rfl h.1
    | cons next rest =>
      rw [String.intercalate_cons_cons, splitOn_append_cons rfl h.1, ih (by simp) h.2]

/-- A compiler makes the name from a beginning and the tokens, one after the other. -/
def joinedName (tokens : List String) : String :=
  ("refbackend_consume_func_return" :: tokens).foldl
    (fun name token => if name.isEmpty then token else name ++ "_" ++ token) ""

private theorem foldl_join {front : String} (hfront : front ≠ "") (hne : tokens ≠ []) :
    tokens.foldl (fun name token => if name.isEmpty then token else name ++ "_" ++ token) front =
      front ++ "_" ++ "_".intercalate tokens := by
  induction tokens generalizing front with
  | nil => exact absurd rfl hne
  | cons token rest ih =>
    rw [List.foldl_cons, if_neg (by simpa using hfront)]
    cases rest with
    | nil => simp
    | cons next rest =>
      have hlonger : front ++ "_" ++ token ≠ "" := by simp
      rw [ih hlonger (by simp), String.intercalate_cons_cons]
      simp only [String.append_assoc]

private theorem joinedName_eq (hne : tokens ≠ []) :
    joinedName tokens = marker ++ "_".intercalate tokens := by
  rw [joinedName, List.foldl_cons]
  exact foldl_join (by decide) hne

/-! ## Types of tokens -/

def HasType (token type : String) : Prop :=
  (token, type) ∈ scalars ∨ token ∈ buffers ∧ type = descriptor

def IsKnown (token : String) : Prop := token ∈ scalars.map Prod.fst ∨ token ∈ buffers

instance (token : String) : Decidable (IsKnown token) :=
  inferInstanceAs (Decidable (token ∈ scalars.map Prod.fst ∨ token ∈ buffers))

/-- No token stands in both tables, and none twice in one. -/
private theorem nodup_tables : (scalars.map Prod.fst ++ buffers).Nodup := by decide

theorem argumentType_eq_ok_iff : argumentType token = .ok type ↔ HasType token type := by
  obtain ⟨hscalars, -, hdisjoint⟩ := List.nodup_append.mp nodup_tables
  rw [argumentType, HasType]
  cases hlookup : scalars.lookup token with
  | some found =>
    have hfound := (lookup_eq_some_iff_mem hscalars).mp hlookup
    have hbuffer : token ∉ buffers :=
      fun hmem => hdisjoint token (List.mem_map_of_mem hfound) token hmem rfl
    rw [← lookup_eq_some_iff_mem hscalars, hlookup]
    simp [hbuffer]
  | none =>
    have hscalar : (token, type) ∉ scalars := by
      rw [← lookup_eq_some_iff_mem hscalars, hlookup]
      simp
    by_cases hbuffer : token ∈ buffers
    · simp [hscalar, hbuffer, eq_comm]
    · simp [hscalar, hbuffer]

private theorem argumentType_of_not_known (h : ¬ IsKnown token) :
    argumentType token = .error (.assertion ("Not supported type: " ++ token)) := by
  rw [IsKnown, not_or] at h
  have hlookup : scalars.lookup token = none := by
    rw [List.lookup_eq_none_iff]
    intro entry hentry
    have hne : token ≠ entry.1 := fun heq => h.1 (heq ▸ List.mem_map_of_mem hentry)
    simpa using hne
  rw [argumentType, hlookup]
  exact if_neg (by simpa using h.2)

theorem isKnown_iff : IsKnown token ↔ ∃ type, HasType token type := by
  simp [IsKnown, HasType, exists_or]

/-! ## Reading a name -/

private theorem signature_known (hne : tokens ≠ []) (hcut : ∀ token ∈ tokens, '_' ∉ token.toList)
    (h : ∀ token ∈ tokens, IsKnown token) : ∃ types, List.Forall₂ HasType tokens types ∧
      signature (marker ++ "_".intercalate tokens) = .ok (tokens.zip types) := by
  rw [signature, tokens_name hne hcut]
  clear hne hcut
  induction tokens with
  | nil => exact ⟨[], .nil, rfl⟩
  | cons token rest ih =>
    rw [List.forall_mem_cons] at h
    obtain ⟨type, htype⟩ := isKnown_iff.mp h.1
    obtain ⟨types, htypes, hrest⟩ := ih h.2
    refine ⟨type :: types, .cons htype htypes, ?_⟩
    rw [List.mapM_cons, argumentType_eq_ok_iff.mpr htype]
    exact bind_eq_ok.mpr ⟨_, rfl, bind_eq_ok.mpr ⟨_, hrest, rfl⟩⟩

private theorem signature_unknown (hne : tokens ≠ []) (hcut : ∀ token ∈ tokens, '_' ∉ token.toList)
    (h : tokens.find? (fun token => ¬ IsKnown token) = some token) :
    signature (marker ++ "_".intercalate tokens) =
      .error (.assertion ("Not supported type: " ++ token)) := by
  rw [signature, tokens_name hne hcut]
  clear hne hcut
  induction tokens with
  | nil => cases h
  | cons first rest ih =>
    rw [List.mapM_cons]
    by_cases hknown : IsKnown first
    · rw [List.find?_cons_of_neg (by simpa using hknown)] at h
      obtain ⟨type, htype⟩ := isKnown_iff.mp hknown
      rw [argumentType_eq_ok_iff.mpr htype, ih h]
      rfl
    · rw [List.find?_cons_of_pos (by simpa using hknown)] at h
      cases h
      rw [argumentType_of_not_known hknown]
      rfl

/-! ## Functions of a module -/

private theorem replace_quotes (h : '"' ∉ name.toList) :
    replace ("\"" ++ name ++ "\"") "\"" "" = name := by
  have hquote : "\"".toList = ['"'] := rfl
  have hname : name.toList.filter (· ≠ '"') = name.toList := by
    rw [List.filter_eq_self]
    exact fun c hc => by simpa using fun heq : c = '"' => h (heq ▸ hc)
  rw [replace, String.toList_append, String.toList_append, hquote,
    String.toList_empty, replaceAll_by_nothing, List.filter_append, List.filter_append, hname]
  simp

private theorem select_quoted (h : ∀ name ∈ names, '"' ∉ name.toList) :
    select (names.map fun name => "\"" ++ name ++ "\"") =
      names.filter fun name => marker.toList <+: name.toList := by
  have hnames : names.map (fun name => replace ("\"" ++ name ++ "\"") "\"" "") = names := by
    conv_rhs => rw [← List.map_id names]
    exact List.map_congr_left fun name hname => replace_quotes (h name hname)
  rw [select, List.map_map, Function.comp_def, hnames]
  refine List.filter_congr fun name _ => ?_
  rw [startsWith, Bool.eq_iff_iff, List.isPrefixOf_iff_prefix, decide_eq_true_iff]

/-- A module whose body holds operations with these symbol names, in order. -/
def HoldsSymbols (s : Session) (module : Value) (names : List String) : Prop :=
  ∃ id block, (module = .module id ∨ ∃ cls, module = .op id cls) ∧ s.regionBlocks id 0 = [block] ∧
    List.Forall₂ (fun o name => (s.op o).attributes.lookup "sym_name" =
      some (.attribute "StringAttr" (.str name))) (s.blockOf block).ops names

open Build

/-- The printer puts a name between quotation marks as it stands.  Printers that escape some
characters do so for the names without them. -/
def PrintsPlainly (print : Value → String) (name : String) : Prop :=
  print (.attribute "StringAttr" (.str name)) = "\"" ++ name ++ "\""

variable {print : Value → String}

def printedSymbol (print : Value → String) (o : Nat) : Build String := do
  let name ← OpReader.attributeOf o "sym_name"
  return print (← now name)

private theorem exec_printedSymbol {s : Session} {o : Nat} (hprint : PrintsPlainly print name)
    (h : (s.op o).attributes.lookup "sym_name" = some (.attribute "StringAttr" (.str name))) :
    (printedSymbol print o).exec s = (.ok ("\"" ++ name ++ "\""), s) := by
  have hattribute : (OpReader.attributeOf o "sym_name").exec s =
      (.ok (.attribute "StringAttr" (.str name)), s) := by
    have hop : (op o).exec s = (.ok (s.op o), s) := rfl
    rw [OpReader.attributeOf, exec_bind_ok hop, h]
    rfl
  rw [← hprint, printedSymbol, exec_bind_ok hattribute]
  rfl

private theorem exec_printedSymbols {s : Session} {ops : List Nat}
    (hprint : ∀ name ∈ names, PrintsPlainly print name) (h : List.Forall₂ (fun o name =>
      (s.op o).attributes.lookup "sym_name" = some (.attribute "StringAttr" (.str name)))
        ops names) :
    (ops.mapM (printedSymbol print)).exec s =
      (.ok (names.map fun name => "\"" ++ name ++ "\""), s) := by
  induction h with
  | nil => rfl
  | cons hname _ ih =>
    rw [List.forall_mem_cons] at hprint
    rw [List.mapM_cons, exec_bind_ok (exec_printedSymbol hprint.1 hname),
      exec_bind_ok (ih hprint.2)]
    rfl

private theorem exec_returnFunctions {s : Session} {module : Value}
    (hmodule : HoldsSymbols s module names) (hprint : ∀ name ∈ names, PrintsPlainly print name)
    (h : ∀ name ∈ names, '"' ∉ name.toList) :
    (Compile.returnFunctionsBy print module).exec s =
      (.ok (names.filter fun name => marker.toList <+: name.toList), s) := by
  obtain ⟨id, block, hid, hblock, hsymbols⟩ := hmodule
  have hmodule : (Compile.moduleId module).exec s = (.ok id, s) := by
    obtain rfl | ⟨cls, rfl⟩ := hid <;> rfl
  rw [Compile.returnFunctionsBy, exec_bind_ok hmodule, exec_bind_ok (Session.exec_blockAt hblock),
    exec_bind_ok (exec_get s)]
  refine (exec_bind_ok (exec_printedSymbols hprint hsymbols)).trans ?_
  rw [select_quoted h, exec_pure]

def symbolOp (name : String) : OpRecord :=
  { name := "func.FuncOp", cls := "func.FuncOp", parent := some 0, operands := [], results := [],
    attributes := [("sym_name", .attribute "StringAttr" (.str name))], regions := [[]] }

/-- A compiled program with its function, and another that takes a number and a buffer. -/
def compiledSession : Session :=
  { ops := [⟨"builtin.module", "builtin.ModuleOp", none, [], [], [], [[0]]⟩, symbolOp "main",
      symbolOp "refbackend_consume_func_return_f32_mri64"]
    blocks := [⟨0, 0, [], [1, 2]⟩] }

end ReturnFunction

end Polyloom
