import Polyloom.Proofs.Builder.Growth

/-!
# Constants of integers

A value is recorded as it is at that time, so lists are recorded with their items.  Where integers
stand among indices a constant is made of each of them, and its value takes the place of the
integer, also in a list that the caller holds.
-/

namespace Polyloom

open Build List Session ControlFlow

variable {cell id n : Nat} {vs : List Value} {v : Value}

/-! ## Values as they are recorded -/

namespace Value

def isIndex : Value → Bool
  | .int _ | .bool _ | .ssa _ _ _ => true
  | _ => false

theorem isIndex_of_isInt (h : v.isInt = true) : v.isIndex = true := by
  cases v with
  | int n => rfl
  | bool b => rfl
  | _ => cases h

theorem exists_ssa_of_isIndex (hv : v.isIndex = true) (hint : v.isInt = false) :
    ∃ id type view, v = .ssa id type view := by
  cases v with
  | ssa id type view => exact ⟨id, type, view, rfl⟩
  | int n => cases hint
  | bool b => cases hint
  | _ => cases hv

theorem expandAll_eq (look : Value → Value) (vs : List Value) :
    expandAll look vs = vs.map (expand look) := by
  induction vs with
  | nil => simp [expandAll]
  | cons v vs ih => simp [expandAll, ih]

end Value

namespace Session

variable (s : Session)

theorem freeze_of_isIndex (hv : v.isIndex = true) (depth : Nat) : s.freeze depth v = v := by
  cases depth with
  | zero => rfl
  | succ depth =>
    cases v with
    | int n => simp [freeze, Value.expand]
    | bool b => simp [freeze, Value.expand]
    | ssa id type view => simp [freeze, Value.expand]
    | _ => cases hv

theorem frozen_of_isIndex (hv : v.isIndex = true) : s.frozen v = v := s.freeze_of_isIndex hv _

@[simp] theorem frozen_ssa (type : String) (id : Nat) (view : View) :
    s.frozen (.ssa id type view) = .ssa id type view :=
  s.frozen_of_isIndex rfl

@[simp] theorem frozen_int (n : Int) : s.frozen (.int n) = .int n := s.frozen_of_isIndex rfl

@[simp] theorem frozen_type (type : String) : s.frozen (.type type) = .type type := by
  simp [frozen, freeze, Value.expand]

@[simp] theorem frozen_none : s.frozen .none = .none := by
  simp [frozen, freeze, Value.expand]

@[simp] theorem frozen_listed (vs : List Value) :
    s.frozen (.listed vs) = .listed (vs.map s.frozen) := by
  rw [frozen, freeze, Value.expand, Value.expandAll_eq]
  rfl

@[simp] theorem frozen_tuple (vs : List Value) :
    s.frozen (.tuple vs) = .tuple (vs.map s.frozen) := by
  rw [frozen, freeze, Value.expand, Value.expandAll_eq]
  rfl

theorem map_frozen_eq (h : ∀ v ∈ vs, v.isIndex = true) : vs.map s.frozen = vs := by
  rw [map_congr_left fun v hv => s.frozen_of_isIndex (h v hv), map_id']

/-- A list is recorded with its items, whose own lists are looked up one step less deep. -/
theorem frozen_list (h : ∀ v ∈ s.listItems cell, v.isIndex = true) :
    s.frozen (.list cell) = .listed (s.listItems cell) := by
  have hitems := map_congr_left fun v hv => s.freeze_of_isIndex (h v hv) s.lists.length
  rw [map_id'] at hitems
  simp [frozen, freeze, Value.expand, hitems]

end Session

/-- Nothing but values of the program. -/
def AreValues (vs : List Value) : Prop := ∀ v ∈ vs, ∃ id type view, v = .ssa id type view

namespace AreValues

theorem cons (h : AreValues vs) {type : String} {view : View} :
    AreValues (.ssa id type view :: vs) := forall_mem_cons.mpr ⟨⟨id, type, view, rfl⟩, h⟩

theorem isIndex (h : AreValues vs) : ∀ v ∈ vs, v.isIndex = true := by
  intro v hv
  obtain ⟨id, type, view, rfl⟩ := h v hv
  rfl

theorem map_frozen_eq (h : AreValues vs) (s : Session) :
    vs.map s.frozen = vs := s.map_frozen_eq h.isIndex

end AreValues

theorem asValueAll_eq (h : AreValues vs) : asValueAll vs = pure vs := by
  induction vs with
  | nil => rfl
  | cons v vs ih =>
    obtain ⟨⟨id, type, view, rfl⟩, hvs⟩ := forall_mem_cons.mp h
    rw [asValueAll, ih hvs]
    rfl

theorem operandAll_eq (h : AreValues vs) : operandAll vs = pure vs := by
  induction vs with
  | nil => rfl
  | cons v vs ih =>
    obtain ⟨⟨id, type, view, rfl⟩, hvs⟩ := forall_mem_cons.mp h
    rw [operandAll, ih hvs]
    rfl

/-! ## Operations with one result -/

namespace Session

def createNative (s : Session) (path : String) (args : List Value) (type : String) : Session :=
  s.create (s.newOp path path args [] [type] 0) (.native (args.map s.frozen) [])

@[simp] theorem values_createNative (s : Session) (path : String)
    (args : List Value) (type : String) :
    (s.createNative path args type).values = s.values + 1 := rfl

end Session

namespace Build

variable {s : Session} {cls type : String} {args : List Value}

theorem exec_native (dialect : String) (hcls : cls ≠ "PadOp")
    (hresults : (nativeResults cls args).exec s = (.ok [type], s)) :
    (native dialect cls args).exec s = (.ok (.op s.ops.length (dialect ++ "." ++ cls)),
      s.createNative (dialect ++ "." ++ cls) args type) := by
  rw [native, exec_bind_ok hresults, if_neg hcls, exec_nativeWith]
  rfl

theorem exec_arithResult_create (s : Session) (cls : String)
    {o : OpRecord} (h : o.results = [⟨id, type⟩]) (how : Creation) :
    (Arith.arithResult (.op s.ops.length cls)).exec (s.create o how) =
      (.ok (.ssa id type .arith), s.create o how) := by
  have hop (t : Session) : (Build.op s.ops.length).exec t = (.ok (t.op s.ops.length), t) := rfl
  rw [Arith.arithResult, result, asValue, bind_assoc, exec_bind_ok (hop _),
    op_create_self, h]
  rfl

theorem exec_arithResult (s : Session) (cls path : String) (args : List Value) (type : String) :
    (Arith.arithResult (.op s.ops.length cls)).exec (s.createNative path args type) =
      (.ok (.ssa s.values type .arith), s.createNative path args type) :=
  exec_arithResult_create s cls rfl _

end Build

/-! ## Making constants -/

private theorem leadingTypes_of_isIndex (hv : v.isIndex = true) : leadingTypes [v] = pure [] := by
  cases v with
  | int n => rfl
  | bool b => rfl
  | ssa id type view => rfl
  | _ => cases hv

namespace Arith

theorem exec_constant_of_leadingTypes (hv : leadingTypes [v] = pure [])
    (type : String) (s : Session) :
    (constant v (.type type)).exec s =
      (.ok (.ssa s.values type .arith),
        s.createNative "arith.ConstantOp" [.type type, v] type) := by
  have hresults :
      nativeResults "ConstantOp" [.type type, v] = do return type :: (← leadingTypes [v]) := rfl
  rw [hv, pure_bind] at hresults
  have hmade : (native "arith" "ConstantOp" [.type type, v]).exec s = _ :=
    exec_native "arith" (by decide) (by rw [hresults]; rfl)
  exact (exec_bind_ok hmade).trans (exec_arithResult s _ _ _ _)

theorem exec_constant (hv : v.isIndex = true) (type : String) (s : Session) :
    (constant v (.type type)).exec s =
      (.ok (.ssa s.values type .arith), s.createNative "arith.ConstantOp" [.type type, v] type) :=
  exec_constant_of_leadingTypes (leadingTypes_of_isIndex hv) type s

theorem indexConstant_eq (v : Value) : indexConstant v = constant v (.type "index") := by
  simp only [indexConstant, constant, indexConstantOp, if_true,
    Bool.false_eq_true, if_false, Value.isNone, pure_bind]

end Arith

theorem ControlFlow.indexValue_eq (v : Value) :
    indexValue v = if v.isInt then Arith.constant v (.type "index") else pure v := by
  rw [indexValue, Arith.indexConstant_eq]

/-! ## Constants of all integers -/

namespace Value

/-- Indices with integers replaced by constants, whose values are numbered from `n` on. -/
def withConstants (n : Nat) : List Value → List Value
  | [] => []
  | v :: rest =>
    if v.isInt then .ssa n "index" .arith :: withConstants (n + 1) rest
      else v :: withConstants n rest

def integers (vs : List Value) : List Value := vs.filter Value.isInt

theorem length_withConstants (n : Nat) (vs : List Value) :
    (withConstants n vs).length = vs.length := by
  induction vs generalizing n with
  | nil => rfl
  | cons v vs ih =>
    rw [withConstants]
    split
    · rw [length_cons, ih, length_cons]
    · rw [length_cons, ih, length_cons]

theorem isInt_of_mem_withConstants {w : Value} (h : w ∈ withConstants n vs) : w.isInt = false := by
  induction vs generalizing n with
  | nil => cases h
  | cons v vs ih =>
    rw [withConstants] at h
    split at h
    · obtain rfl | h := mem_cons.mp h
      · rfl
      · exact ih h
    · obtain rfl | h := mem_cons.mp h
      · exact Bool.eq_false_iff.mpr ‹_›
      · exact ih h

private theorem isIndex_of_mem_withConstants {w : Value} (hvs : ∀ v ∈ vs, v.isIndex = true)
    (h : w ∈ withConstants n vs) : w.isIndex = true := by
  induction vs generalizing n with
  | nil => cases h
  | cons v vs ih =>
    rw [forall_mem_cons] at hvs
    rw [withConstants] at h
    split at h
    · obtain rfl | h := mem_cons.mp h
      · rfl
      · exact ih hvs.2 h
    · obtain rfl | h := mem_cons.mp h
      · exact hvs.1
      · exact ih hvs.2 h

end Value

theorem areValues_withConstants (h : ∀ v ∈ vs, v.isIndex = true) (n : Nat) :
    AreValues (Value.withConstants n vs) :=
  fun _ hw => Value.exists_ssa_of_isIndex (Value.isIndex_of_mem_withConstants h hw)
    (Value.isInt_of_mem_withConstants hw)

namespace Session

def constantEvent (s : Session) (k : Nat) (v : Value) : Event :=
  .create (s.ops.length + k) "arith.ConstantOp" s.current [.ssa (s.values + k) "index" .plain]
    (.native [.type "index", v] [])

def constantEvents (s : Session) (vs : List Value) : List Event :=
  (Value.integers vs).mapIdx s.constantEvent

def addConstant (s : Session) (v : Value) : Session :=
  s.create (s.newOp "arith.ConstantOp" "arith.ConstantOp" [.type "index", v] [] ["index"] 0)
    (.native [.type "index", v] [])

def addConstants (s : Session) (vs : List Value) : Session :=
  (Value.integers vs).foldl addConstant s

def withLists (s : Session) (lists : List (List Value)) : Session := { s with lists := lists }

theorem addConstants_cons (s : Session) (v : Value) (vs : List Value) :
    s.addConstants (v :: vs) = (if v.isInt then s.addConstant v else s).addConstants vs := by
  by_cases h : v.isInt = true
  · simp [addConstants, Value.integers, h]
  · simp [addConstants, Value.integers, h]

theorem addConstants_withLists (s : Session) (lists : List (List Value)) (vs : List Value) :
    (s.withLists lists).addConstants vs = (s.addConstants vs).withLists lists := by
  unfold addConstants
  induction Value.integers vs generalizing s with
  | nil => rfl
  | cons v vs ih => exact ih (s.addConstant v)

theorem values_addConstant (s : Session) (v : Value) :
    (s.addConstant v).values = s.values + 1 := rfl

theorem set_listItems (s : Session) (cell : Nat) :
    s.lists.set cell (s.listItems cell) = s.lists := by
  by_cases h : cell < s.lists.length
  · simp [listItems, getElem?_eq_getElem h]
  · rw [set_eq_of_length_le (Nat.le_of_not_lt h)]

/-- The session after a list was converted in place. -/
def convert (s : Session) (cell : Nat) : Session :=
  (s.addConstants (s.listItems cell)).withLists
    (s.lists.set cell (Value.withConstants s.values (s.listItems cell)))

theorem listItems_convert_self (s : Session) (cell : Nat) :
    (s.convert cell).listItems cell = Value.withConstants s.values (s.listItems cell) := by
  by_cases h : cell < s.lists.length
  · simp [convert, listItems, withLists, h]
  · have hnone : s.lists[cell]? = none := getElem?_eq_none (Nat.le_of_not_lt h)
    simp [convert, listItems, withLists, hnone, Value.withConstants,
      set_eq_of_length_le (Nat.le_of_not_lt h)]

theorem listItems_convert_of_ne {s : Session} {other : Nat} (h : other ≠ cell) :
    (s.convert cell).listItems other = s.listItems other := by
  simp [convert, listItems, withLists, getElem?_set_ne h.symm]

end Session

theorem exec_indexConstant (hv : v.isInt = true) (s : Session) :
    (Arith.indexConstant v).exec s = (.ok (.ssa s.values "index" .arith), s.addConstant v) := by
  have hindex := Value.isIndex_of_isInt hv
  rw [Arith.indexConstant_eq, Arith.exec_constant hindex, createNative,
    map_cons, map_singleton, frozen_type, s.frozen_of_isIndex hindex, addConstant]

private theorem exec_convertItems_cons (hv : v.isInt = true)
    {before : List Value} {s : Session} (hitems : s.listItems cell = before ++ v :: vs) :
    (convertItems (.list cell) (v :: vs) before.length).exec s =
      (convertItems (.list cell) vs
        (before ++ [Value.ssa s.values "index" .arith]).length).exec
        ((s.addConstant v).withLists
          (s.lists.set cell (before ++ [.ssa s.values "index" .arith] ++ vs))) := by
  have hkept : (s.addConstant v).listItems cell = before ++ v :: vs := hitems
  have hset (w : Value) :
      (setList cell ((before ++ v :: vs).set before.length w)).exec (s.addConstant v) =
      (.ok ⟨⟩, (s.addConstant v).withLists (s.lists.set cell (before ++ [w] ++ vs))) := by
    rw [set_append_right _ _ le_rfl, Nat.sub_self, set_cons_zero, append_cons]
    rfl
  simp only [convertItems, hv, if_true]
  rw [exec_bind_ok (exec_indexConstant hv s), exec_bind_ok (exec_get _),
    hkept, exec_bind_ok (hset _), length_append, length_singleton]

private theorem exec_convertItems (cell : Nat) (vs before : List Value)
    (s : Session) (hitems : s.listItems cell = before ++ vs) :
    (convertItems (.list cell) vs before.length).exec s =
      (.ok (), (s.addConstants vs).withLists
        (s.lists.set cell (before ++ Value.withConstants s.values vs))) := by
  -- what is in front is converted already, and its length is the position
  induction vs generalizing before s with
  | nil =>
    rw [Value.withConstants, ← hitems, set_listItems]
    rfl
  | cons v vs ih =>
    rw [Value.withConstants, addConstants_cons]
    by_cases hv : v.isInt = true
    · have hlt : cell < s.lists.length := by
        by_contra hge
        simp [listItems, getElem?_eq_none (Nat.le_of_not_lt hge)] at hitems
      rw [exec_convertItems_cons hv hitems, ih _ _ (by simp [listItems, withLists,
        hlt]), addConstants_withLists, if_pos hv, if_pos hv, append_cons before]
      simp [withLists, values_addConstant]
    · have hnext := ih (before ++ [v]) s (by rw [hitems, append_cons])
      rw [length_append, length_singleton, ← append_cons] at hnext
      rw [convertItems, if_neg hv, if_neg hv, if_neg hv]
      exact hnext

theorem exec_convertInPlace_list (cell : Nat) (s : Session) :
    (convertInPlace (.list cell)).exec s = (.ok (), s.convert cell) := by
  have hitems : (items (.list cell)).exec s = (.ok (s.listItems cell), s) := rfl
  rw [convertInPlace, exec_bind_ok hitems]
  exact exec_convertItems cell (s.listItems cell) [] s rfl

end Polyloom
