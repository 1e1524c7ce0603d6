import Polyloom.Proofs.Builder.Constants
import Polyloom.Script.Run

/-!
# Accesses of affine buffers

A buffer is loaded from and stored to through its own indices or by a call of the library.  Both
ways make constants of the integers among the indices, in order, and then the access with an
identity map.  Loads are the same in both ways.  A store by a call hands over the buffer in the
place of the value.
-/

namespace Polyloom

open Build List TypeText Buffer Library

variable {kind : OpKind} {type : String} {vs : List Value}

/-! ## Constants that are recorded -/

namespace Session

private theorem events_addConstant (s : Session) (v : Value) :
    (s.addConstant v).events = s.events ++ [s.constantEvent 0 v] := rfl

theorem constantEvent_addConstant (s : Session) (v : Value) :
    (s.addConstant v).constantEvent = fun k => s.constantEvent (k + 1) := by
  funext k w
  have hops : s.ops.length + 1 + k = s.ops.length + (k + 1) := by omega
  have hvalues : s.values + 1 + k = s.values + (k + 1) := by omega
  rw [constantEvent, constantEvent, values_addConstant, addConstant,
    length_ops_create, hops, hvalues]
  rfl

structure AfterConstants (s t : Session) (vs : List Value) : Prop where
  values : t.values = s.values + (Value.integers vs).length
  ops : t.ops.length = s.ops.length + (Value.integers vs).length
  current : t.current = s.current
  events : t.events = s.events ++ s.constantEvents vs

theorem afterConstants (s : Session) (vs : List Value) :
    s.AfterConstants (s.addConstants vs) vs := by
  -- only the integers are made constants of, so the induction is on them and not on the indices
  suffices h : ∀ ints : List Value, (ints.foldl addConstant s).values = s.values + ints.length ∧
      (ints.foldl addConstant s).ops.length = s.ops.length + ints.length ∧
      (ints.foldl addConstant s).current = s.current ∧
      (ints.foldl addConstant s).events = s.events ++ ints.mapIdx s.constantEvent by
    obtain ⟨hvalues, hops, hcurrent, hevents⟩ := h (Value.integers vs)
    exact ⟨hvalues, hops, hcurrent, hevents⟩
  intro ints
  induction ints generalizing s with
  | nil => simp
  | cons v ints ih =>
    obtain ⟨hvalues, hops, hcurrent, hevents⟩ := ih (s.addConstant v)
    refine ⟨?_, ?_, hcurrent, ?_⟩
    · rw [foldl_cons, hvalues, values_addConstant, length_cons]
      omega
    · rw [foldl_cons, hops, addConstant, length_ops_create, length_cons]
      omega
    · rw [foldl_cons, hevents, events_addConstant, constantEvent_addConstant, mapIdx_cons,
        append_assoc, singleton_append]

end Session

private theorem exec_indexTuple (vs : List Value) (s : Session) :
    (indexTuple (.tuple vs)).exec s =
      (.ok (.tuple (Value.withConstants s.values vs)), s.addConstants vs) := by
  have hmap : ∀ s : Session, (vs.mapM ControlFlow.indexValue).exec s =
      (.ok (Value.withConstants s.values vs), s.addConstants vs) := by
    induction vs with
    | nil => exact fun s => rfl
    | cons v vs ih =>
      intro s
      rw [mapM_cons, ControlFlow.indexValue, Value.withConstants, Session.addConstants_cons]
      split
      · rename_i hv
        rw [exec_bind_ok (exec_indexConstant hv s), exec_bind_ok (ih _)]
        rfl
      · rw [exec_bind_ok (exec_pure v s), exec_bind_ok (ih _)]
        rfl
  exact exec_bind_ok (hmap s)

/-! ## Making accesses -/

private theorem frozen_identityMap (n : Nat) (s : Session) :
    s.frozen (identityMap n) = identityMap n := by
  simp [identityMap, Session.frozen, Session.freeze, Value.expand]

def Session.addAccess (s : Session) (kind : OpKind) (operands : List Value) (rank : Nat)
    (results : List String) : Session :=
  s.create (s.newOp kind.name kind.cls operands [("map", identityMap rank)]
    results kind.regions) (.generic operands [("map", identityMap rank)] kind.regions)

theorem exec_generic_access (hkind : kind.segments = none) {operands : List Value}
    (h : AreValues operands) (rank : Nat) {results : List Value}
    {types : List String} {s : Session} (hresults : (typeTexts results).exec s = (.ok types, s)) :
    (generic kind operands [("map", identityMap rank)] results).exec s =
      (.ok (.op s.ops.length kind.cls), s.addAccess kind operands rank types) := by
  have hflat : (flattenOperands kind operands [("map", identityMap rank)]).exec s =
      (.ok (operands, [("map", identityMap rank)]), s) := by
    rw [flattenOperands, hkind, operandAll_eq h]
    rfl
  rw [exec_generic hflat hresults, h.map_frozen_eq, map_singleton, frozen_identityMap]
  rfl

namespace Session

inductive Holds (s : Session) (vs : List Value) : Value → Prop
  | tuple : Holds s vs (.tuple vs)
  | list {cell : Nat} (h : s.listItems cell = vs) : Holds s vs (.list cell)

variable {s : Session} {vs : List Value} {indices : Value}

private theorem Holds.exec_changeable (h : s.Holds vs indices) : ∃ cell lists,
    (changeable indices).exec s = (.ok (.list cell), s.withLists lists) ∧
      (s.withLists lists).listItems cell = vs := by
  cases h with
  | tuple => exact ⟨s.lists.length, s.lists ++ [vs], rfl, by simp [listItems, withLists]⟩
  | @list cell h => exact ⟨cell, s.lists, rfl, h⟩

end Session

namespace Buffer

def storeKind : OpKind := { OpDefinition.affineStore.kind with cls := "affine.StoreOp" }

def loadDefinition : OpDefinition := { OpDefinition.affineLoad with cls := "affine.LoadOp" }

def loadArgs (buffer : Value) (resolved : List Value) (element : String)
    (rank : Nat) : List (String × Value) :=
  [("result", .type element), ("memref", buffer), ("indices", .listed resolved),
    ("map", identityMap rank)]

theorem bufferElement_eq_or (type : String) :
    (∃ e, classOf type = .memref ∧ element? type = some e ∧
      bufferElement type = pure e) ∨
      (∀ e, classOf type = .memref → element? type ≠ some e) ∧
        bufferElement type = throw .wrongCast := by
  rw [bufferElement]
  split
  · rename_i e hclass helement
    exact .inl ⟨e, hclass, helement, rfl⟩
  · rename_i hother
    exact .inr ⟨fun e hclass helement => hother e hclass helement, rfl⟩

theorem exec_build_load {resolved : List Value} (h : AreValues resolved)
    (b : Nat) (type : String) (view : View) (e : String) (rank : Nat) (s : Session) :
    (loadDefinition.build (loadArgs (.ssa b type view) resolved e rank)).exec s =
      (.ok (.op s.ops.length "affine.LoadOp"),
        s.addAccess loadDefinition.kind (.ssa b type view :: resolved) rank [e]) := by
  have hindices :
      (loadDefinition.operandsOf .many (.listed resolved)).exec s = (.ok resolved, s) := by
    have hread : asValues (.listed resolved) = asValueAll resolved := rfl
    rw [OpDefinition.operandsOf, hread, asValueAll_eq h]
    rfl
  have hrest : (loadDefinition.collectOperands (loadArgs (.ssa b type view) resolved e rank)
      [("indices", .many, true)]).exec s = (.ok (resolved ++ []), s) := exec_bind_ok hindices
  rw [append_nil] at hrest
  have hoperands : (loadDefinition.collectOperands (loadArgs (.ssa b type view) resolved e rank)
      loadDefinition.operandFields).exec s = (.ok (.ssa b type view :: resolved), s) :=
    exec_bind_ok hrest
  have hattributes : (loadDefinition.collectAttributes (loadArgs (.ssa b type view) resolved e rank)
      loadDefinition.fields).exec s = (.ok [("map", identityMap rank)], s) := rfl
  have hresults : (OpDefinition.collectResults (.ssa b type view :: resolved)
      (loadArgs (.ssa b type view) resolved e rank) loadDefinition.results).exec s =
        (.ok [.type e], s) := rfl
  have hsuccessors : (OpDefinition.checkSuccessors (loadArgs (.ssa b type view) resolved e rank)
      loadDefinition.successors).exec s = (.ok (), s) := rfl
  have hkind : loadDefinition.kind.segments = none := rfl
  have htypes : (typeTexts [.type e]).exec s = (.ok [e], s) := rfl
  rw [OpDefinition.build, exec_bind_ok hoperands, exec_bind_ok hattributes, exec_bind_ok hresults,
    exec_bind_ok hsuccessors]
  exact exec_generic_access hkind h.cons rank htypes

section Calls

variable {s : Session} {vs : List Value} {indices : Value} (hvs : ∀ v ∈ vs, v.isIndex = true)
  (hindices : s.Holds vs indices)

include hvs hindices

/-- What every access begins with: the indices are in a list, which is converted in place and read
back. -/
theorem exec_convert :
    ∃ cell before lists, (changeable indices).exec s = (.ok (.list cell), before) ∧
      (ControlFlow.convertInPlace (.list cell)).exec before =
        (.ok (), (s.addConstants vs).withLists lists) ∧
      (length (.list cell)).exec ((s.addConstants vs).withLists lists) =
        (.ok vs.length, (s.addConstants vs).withLists lists) ∧
      (asValues (.list cell)).exec ((s.addConstants vs).withLists lists) =
        (.ok (Value.withConstants s.values vs), (s.addConstants vs).withLists lists) := by
  obtain ⟨cell, lists, hchange, hcell⟩ := hindices.exec_changeable
  have hconvert := exec_convertInPlace_list cell (s.withLists lists)
  have hitems := (s.withLists lists).listItems_convert_self cell
  rw [Session.convert, hcell, Session.addConstants_withLists] at hconvert hitems
  have hread (t : Session) (ht : t.listItems cell = Value.withConstants s.values vs) :
      (length (.list cell)).exec t = (.ok vs.length, t) ∧
        (asValues (.list cell)).exec t = (.ok (Value.withConstants s.values vs), t) := by
    have hlength : (length (.list cell)).exec t = (.ok (t.listItems cell).length, t) := rfl
    have hvalues : (asValues (.list cell)).exec t = (asValueAll (t.listItems cell)).exec t := rfl
    rw [hlength, hvalues, ht, Value.length_withConstants,
      asValueAll_eq (areValues_withConstants hvs _), exec_pure]
    exact ⟨rfl, rfl⟩
  exact ⟨cell, _, _, hchange, hconvert, hread _ hitems⟩

theorem exec_affineStoreOp (b v : Nat) (type vtype : String) (view vview : View) : ∃ lists,
    (affineStoreOp (.ssa b type view) (.ssa v vtype vview) indices).exec s =
      (.ok (.op (s.addConstants vs).ops.length "affine.StoreOp"),
        ((s.addConstants vs).withLists lists).addAccess storeKind
          (.ssa v vtype vview :: .ssa b type view :: Value.withConstants s.values vs)
            vs.length []) := by
  obtain ⟨cell, before, lists, hchange, hconvert, hlength, hread⟩ := exec_convert hvs hindices
  have hoperands :
      AreValues (.ssa v vtype vview :: .ssa b type view :: Value.withConstants s.values vs) :=
    .cons (.cons (areValues_withConstants hvs _))
  refine ⟨lists, ?_⟩
  rw [affineStoreOp, exec_bind_ok hchange, asValue, pure_bind,
    exec_bind_ok hconvert, exec_bind_ok hlength, asValue, pure_bind, exec_bind_ok hread]
  exact exec_generic_access rfl hoperands vs.length rfl

private theorem exec_affineLoad_element (b : Nat) (view : View) {e : String}
    (he : bufferElement type = pure e) : ∃ lists, (affineLoad (.ssa b type view) indices).exec s =
    (.ok (.ssa (s.addConstants vs).values e .arith), ((s.addConstants vs).withLists lists).addAccess
    loadDefinition.kind (.ssa b type view :: Value.withConstants s.values vs) vs.length [e]) := by
  obtain ⟨cell, before, lists, hchange, hconvert, hlength, hread⟩ := exec_convert hvs hindices
  have hmade := exec_build_load (areValues_withConstants hvs s.values) b type view e vs.length
    ((s.addConstants vs).withLists lists)
  have hload : (affineLoadOp (.ssa b type view) indices).exec s =
      (loadDefinition.build (loadArgs (.ssa b type view)
        (Value.withConstants s.values vs) e vs.length)).exec
        ((s.addConstants vs).withLists lists) := by
    rw [affineLoadOp, exec_bind_ok hchange, asValue, pure_bind,
      exec_bind_ok hconvert, exec_bind_ok hread, typeOf,
      asValue, pure_bind, pure_bind, he, pure_bind, exec_bind_ok hlength]
    rfl
  exact ⟨lists, (exec_bind_ok (hload.trans hmade)).trans (exec_arithResult_create _ _ rfl _)⟩

private theorem exec_affineLoad_wrongCast (b : Nat) (view : View)
    (he : bufferElement type = throw .wrongCast) :
    ∃ lists, (affineLoad (.ssa b type view) indices).exec s =
      (.error .wrongCast, (s.addConstants vs).withLists lists) := by
  obtain ⟨cell, before, lists, hchange, hconvert, -, hread⟩ := exec_convert hvs hindices
  have hfailed : (affineLoadOp (.ssa b type view) indices).exec s =
      (.error .wrongCast, (s.addConstants vs).withLists lists) := by
    rw [affineLoadOp, exec_bind_ok hchange, asValue, pure_bind,
      exec_bind_ok hconvert, exec_bind_ok hread, typeOf, asValue, pure_bind, pure_bind, he]
    rfl
  exact ⟨lists, exec_bind_error hfailed⟩

end Calls

end Buffer

/-! ## The two ways of access -/

namespace AreValues

variable {vs : List Value} (h : AreValues vs)

include h

theorem withConstants_eq (n : Nat) : Value.withConstants n vs = vs := by
  induction vs with
  | nil => rfl
  | cons v vs ih =>
    obtain ⟨⟨id, type, view, rfl⟩, hvs⟩ := forall_mem_cons.mp h
    rw [Value.withConstants, ih hvs]
    rfl

theorem addConstants_eq (s : Session) : s.addConstants vs = s := by
  induction vs with
  | nil => rfl
  | cons v vs ih =>
    obtain ⟨⟨id, type, view, rfl⟩, hvs⟩ := forall_mem_cons.mp h
    rw [Session.addConstants_cons]
    exact ih hvs

end AreValues

namespace Session

/-- What is recorded of an access: the constants of the integers among the indices, in order, and
then the operation, whose operands are those in front and the indices, with an identity map. -/
def accessEvents (s : Session) (name : String) (front vs : List Value)
    (results : List String) : List Event :=
  s.constantEvents vs ++ [.create (s.ops.length + (Value.integers vs).length) name s.current
      ((typedIds (s.values + (Value.integers vs).length) results).map TypedId.value)
      (.generic (front ++ Value.withConstants s.values vs)
        [("map", identityMap vs.length)] 0)]

theorem events_addAccess (s : Session) (vs : List Value) (lists : List (List Value))
    (hregions : kind.regions = 0) (front : List Value) (results : List String) :
    (((s.addConstants vs).withLists lists).addAccess kind (front ++ Value.withConstants s.values vs)
      vs.length results).events = s.events ++ s.accessEvents kind.name front vs results := by
  have hafter := s.afterConstants vs
  have hevents : (((s.addConstants vs).withLists lists).addAccess kind
      (front ++ Value.withConstants s.values vs)
      vs.length results).events = (s.addConstants vs).events ++
        [.create (s.addConstants vs).ops.length kind.name (s.addConstants vs).current
          ((typedIds (s.addConstants vs).values results).map TypedId.value)
          (.generic (front ++ Value.withConstants s.values vs)
            [("map", identityMap vs.length)] kind.regions)] := rfl
  rw [hevents, hafter.events, hafter.ops, hafter.current, hafter.values,
    hregions, append_assoc, accessEvents]

private theorem accessEvents_inj (s : Session) (name : String)
    {front front' : List Value} (vs : List Value) (results : List String) :
    s.accessEvents name front vs results = s.accessEvents name front' vs results ↔
      front = front' := by
  simp [accessEvents]

end Session

namespace Buffer

theorem exec_indexTuple_key {vs : List Value} {key : Value} (hvs : ∀ v ∈ vs, v.isIndex = true)
    (hkey : key = .tuple vs ∨ vs = [key]) (s : Session) :
    (indexTuple key).exec s =
      (.ok (.tuple (Value.withConstants s.values vs)), s.addConstants vs) := by
  rcases hkey with rfl | rfl
  · exact exec_indexTuple vs s
  · rw [← exec_indexTuple [key] s]
    have hindex : key.isIndex = true := hvs key (mem_singleton_self key)
    cases key with
    | tuple ws => cases hindex
    | _ => rfl

theorem isBuffer_of_isAffine {view : View} (h : view.isAffine = true) : view.isBuffer = true := by
  cases view <;> first | rfl | cases h

section Access

variable {s : Session} {vs : List Value} (hvs : ∀ v ∈ vs, v.isIndex = true)
  {key indices : Value} {view : View}

include hvs

private theorem exec_setItem (hkey : key = .tuple vs ∨ vs = [key])
    (hview : view.isAffine = true) (b v : Nat) (type vtype : String) (vview : View) : ∃ t,
      (Operator.setItem (.ssa b type view) key (.ssa v vtype vview)).exec s = (.ok (), t) ∧
        t.events = s.events ++ s.accessEvents "affine.store"
          [.ssa v vtype vview, .ssa b type view] vs [] := by
  have hvalues := areValues_withConstants hvs s.values
  have htuple : (s.addConstants vs).Holds (Value.withConstants s.values vs)
      (.tuple (Value.withConstants s.values vs)) := .tuple
  -- the key has no integers any more, so the store makes no further constants
  have hstore := exec_affineStoreOp hvalues.isIndex htuple b v type vtype view vview
  rw [hvalues.addConstants_eq, hvalues.withConstants_eq, Value.length_withConstants] at hstore
  obtain ⟨lists, hstore⟩ := hstore
  have hkind : storeKind.regions = 0 := rfl
  rw [Operator.setItem, if_pos (isBuffer_of_isAffine hview),
    setItem, exec_bind_ok (exec_indexTuple_key hvs hkey s), if_pos hview, exec_bind_ok hstore]
  exact ⟨_, rfl, s.events_addAccess vs lists hkind [.ssa v vtype vview, .ssa b type view] []⟩

theorem exec_call_store (call : Caller) (hindices : s.Holds vs indices)
    (b v : Nat) (type vtype : String) (view vview : View) : ∃ made t,
      (callPath call "affine.store"
        ⟨[.ssa v vtype vview, .ssa b type view, indices], []⟩).exec s =
        (.ok made, t) ∧
      t.events = s.events ++ s.accessEvents "affine.store"
        [.ssa b type view, .ssa v vtype vview] vs [] := by
  obtain ⟨lists, hstore⟩ := exec_affineStoreOp hvs hindices v b vtype type vview view
  have hcall :
      callPath call "affine.store" ⟨[.ssa v vtype vview, .ssa b type view, indices], []⟩ =
      affineStoreOp (.ssa v vtype vview) (.ssa b type view) indices := rfl
  have hkind : storeKind.regions = 0 := rfl
  rw [hcall]
  exact ⟨_, _, hstore, s.events_addAccess vs lists hkind [.ssa b type view, .ssa v vtype vview] []⟩

private theorem exec_getItem (hkey : key = .tuple vs ∨ vs = [key])
    (hview : view.isAffine = true) (b : Nat) (type : String) :
    (Operator.getItem (.ssa b type view) key).exec s =
      (affineLoad (.ssa b type view) (.tuple (Value.withConstants s.values vs))).exec
        (s.addConstants vs) := by
  rw [Operator.getItem, if_pos (isBuffer_of_isAffine hview),
    getItem, exec_bind_ok (exec_indexTuple_key hvs hkey s), if_pos hview, affineLoad]

private theorem exec_loads (call : Caller) (hkey : key = .tuple vs ∨ vs = [key])
    (hindices : s.Holds vs indices) (hview : view.isAffine = true) (b : Nat) (type : String) :
    ∃ r t u, (Operator.getItem (.ssa b type view) key).exec s = (r, t) ∧
      (callPath call "affine.load" ⟨[.ssa b type view, indices], []⟩).exec s = (r, u) ∧
      t.events = u.events ∧
      ∀ e, classOf type = .memref → element? type = some e →
        r = .ok (.ssa (s.values + (Value.integers vs).length) e .arith) ∧
        t.events = s.events ++ s.accessEvents "affine.load" [.ssa b type view] vs [e] := by
  have hvalues := areValues_withConstants hvs s.values
  have htuple : (s.addConstants vs).Holds (Value.withConstants s.values vs)
      (.tuple (Value.withConstants s.values vs)) := .tuple
  have hcall : callPath call "affine.load" ⟨[.ssa b type view, indices], []⟩ =
      affineLoad (.ssa b type view) indices := rfl
  have hkind : loadDefinition.kind.regions = 0 := rfl
  rw [exec_getItem hvs hkey hview, hcall]
  rcases bufferElement_eq_or type with ⟨e, -, helement, he⟩ | ⟨hnone, he⟩
  · have hget := exec_affineLoad_element hvalues.isIndex htuple b view he
    rw [hvalues.addConstants_eq, hvalues.withConstants_eq, Value.length_withConstants] at hget
    obtain ⟨lists, hget⟩ := hget
    obtain ⟨lists', hload⟩ := exec_affineLoad_element hvs hindices b view he
    have hevents (lists : List (List Value)) :=
      s.events_addAccess vs lists hkind [.ssa b type view] [e]
    refine ⟨_, _, _, hget, hload, (hevents lists).trans (hevents lists').symm,
      fun e' _ helement' => ?_⟩
    obtain rfl : e = e' := Option.some.inj (helement.symm.trans helement')
    rw [(s.afterConstants vs).values]
    exact ⟨rfl, hevents lists⟩
  · -- the type of the buffer is asked for last, so a load that fails records the constants too
    have hget := exec_affineLoad_wrongCast hvalues.isIndex htuple b view he
    rw [hvalues.addConstants_eq] at hget
    obtain ⟨lists, hget⟩ := hget
    obtain ⟨lists', hload⟩ := exec_affineLoad_wrongCast hvs hindices b view he
    exact ⟨_, _, _, hget, hload, rfl, fun e hclass helement => absurd helement (hnone e hclass)⟩

/-- Indices given as a list or a tuple to a call, or as a key to a buffer, are the same to loads.
Stores record the same but for the operands in front: through a buffer these are the value and the
buffer, by a call the buffer and the value.  So the two ways of a store agree only where a buffer is
stored to itself. -/
theorem affine_accesses (call : Caller) {key indices : Value}
    (hkey : key = .tuple vs ∨ vs = [key]) (hindices : s.Holds vs indices)
    {view : View} (hview : view.isAffine = true) (b v : Nat) (type vtype : String) (vview : View) :
    (∃ t made u, (Operator.setItem (.ssa b type view) key (.ssa v vtype vview)).exec s =
      (.ok (), t) ∧
      (callPath call "affine.store"
        ⟨[.ssa v vtype vview, .ssa b type view, indices], []⟩).exec s =
        (.ok made, u) ∧
      t.events = s.events ++ s.accessEvents "affine.store"
        [.ssa v vtype vview, .ssa b type view] vs [] ∧
      u.events = s.events ++ s.accessEvents "affine.store"
        [.ssa b type view, .ssa v vtype vview] vs [] ∧
      (t.events = u.events ↔ Value.ssa v vtype vview = .ssa b type view)) ∧
    ∃ r t u, (Operator.getItem (.ssa b type view) key).exec s = (r, t) ∧
      (callPath call "affine.load" ⟨[.ssa b type view, indices], []⟩).exec s = (r, u) ∧
      t.events = u.events ∧
      ∀ e, classOf type = .memref → element? type = some e →
        r = .ok (.ssa (s.values + (Value.integers vs).length) e .arith) ∧
        t.events = s.events ++ s.accessEvents "affine.load" [.ssa b type view] vs [e] := by
  obtain ⟨t, hset, htevents⟩ := exec_setItem hvs hkey hview b v type vtype vview
  obtain ⟨made, u, hstore, huevents⟩ := exec_call_store hvs call hindices b v type vtype view vview
  refine ⟨⟨t, made, u, hset, hstore, htevents, huevents, ?_⟩,
    exec_loads hvs call hkey hindices hview b type⟩
  rw [htevents, huevents, append_cancel_left_eq, Session.accessEvents_inj]
  constructor
  · intro h
    exact (cons.inj h).1
  · intro h
    rw [h]

end Access

def grid : Value := .ssa 0 "memref<?x?xf32>" .rankedAffine

def gridCell : Value := .ssa 1 "f32" .plain

def gridIndices : List Value := [.int 3, .ssa 2 "index" .plain]

def gridSession : Session := { values := 3, lists := [gridIndices] }

theorem grid_accesses : (∀ v ∈ gridIndices, v.isIndex = true) ∧
    (∃ t made u, (Operator.setItem grid (.tuple gridIndices) gridCell).exec gridSession =
      (.ok (), t) ∧
      (callPath (Script.callWithin 0) "affine.store" ⟨[gridCell, grid, .list 0], []⟩).exec
        gridSession =
        (.ok made, u) ∧
      t.events ≠ u.events) ∧
    ∃ t u, (Operator.getItem grid (.tuple gridIndices)).exec gridSession =
      (.ok (.ssa 4 "f32" .arith), t) ∧
      (callPath (Script.callWithin 0) "affine.load" ⟨[grid, .list 0], []⟩).exec
        gridSession =
        (.ok (.ssa 4 "f32" .arith), u) ∧
      t.events = u.events := by
  have hvs : ∀ v ∈ gridIndices, v.isIndex = true := by decide
  have hclass : classOf "memref<?x?xf32>" = .memref := by decide
  have helement : element? "memref<?x?xf32>" = some "f32" := by decide +kernel
  have hindices : gridSession.Holds gridIndices (.list 0) := .list rfl
  have hview : View.isAffine .rankedAffine = true := rfl
  obtain ⟨⟨t, made, u, hset, hstore, -, -, hiff⟩, r, t', u', hget, hload, hevents, hread⟩ :=
    affine_accesses hvs (Script.callWithin 0) (.inl rfl) hindices
      hview 0 1 "memref<?x?xf32>" "f32" .plain
  obtain ⟨rfl, -⟩ := hread "f32" hclass helement
  exact ⟨hvs, ⟨t, made, u, hset, hstore, fun h => absurd (hiff.mp h) (by simp)⟩,
    t', u', hget, hload, hevents⟩

/-- A store of a value to a buffer by a call, recorded as one of the buffer to the value. -/
theorem call_store_hands_over_buffer :
    ((callPath (Script.callWithin 0) "affine.store" ⟨[gridCell, grid, .list 0], []⟩).exec
      gridSession).2.events =
      [.create 0 "arith.ConstantOp" none [.ssa 3 "index" .plain]
        (.native [.type "index", .int 3] []),
       .create 1 "affine.store" none []
         (.generic [grid, gridCell, .ssa 3 "index" .arith, .ssa 2 "index" .plain]
         [("map", identityMap 2)] 0)] := by
  have hvs : ∀ v ∈ gridIndices, v.isIndex = true := by decide
  have hindices : gridSession.Holds gridIndices (.list 0) := .list rfl
  obtain ⟨made, t, hstore, hevents⟩ :=
    exec_call_store hvs (Script.callWithin 0) hindices 0 1 "memref<?x?xf32>"
      "f32" .rankedAffine .plain
  exact (congrArg (fun run => run.2.events) hstore).trans hevents

end Buffer

end Polyloom
