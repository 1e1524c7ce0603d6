import Polyloom.Proofs.Builder.Buffer
import Polyloom.Proofs.Builder.Function

/-!
# Lists that calls take

Five calls take lists of integers and values.  Each of them makes constants of the integers and puts
these into the lists of its caller.  So a list that is given again has no integers left, and a
repeated call makes no constants.  It is the same call as before only where there were none to make.
-/

namespace Polyloom

open Build List AttributeBuilder ControlFlow Buffer Session Launch

/-! ## Lists after a conversion -/

namespace Value

/-- An integer is replaced by the value of a constant made of it, and all else stays. -/
def ReplacedBy (made : List Event) (v w : Value) : Prop :=
  if v.isInt then ∃ id op parent, w = .ssa id "index" .arith ∧
    .create op "arith.ConstantOp" parent [.ssa id "index" .plain]
      (.native [.type "index", v] []) ∈ made
  else w = v

theorem ReplacedBy.mono {made made' : List Event} {v w : Value} (h : ReplacedBy made v w)
    (hmade : made ⊆ made') : ReplacedBy made' v w := by
  unfold ReplacedBy at *
  split at h
  · obtain ⟨id, op, parent, hw, hmem⟩ := h
    rw [if_pos ‹_›]
    exact ⟨id, op, parent, hw, hmade hmem⟩
  · rw [if_neg ‹_›]
    exact h

theorem withConstants_eq_self_iff (n : Nat) (vs : List Value) :
    withConstants n vs = vs ↔ integers vs = [] := by
  induction vs generalizing n with
  | nil => simp [withConstants, integers]
  | cons v vs ih =>
    rw [withConstants]
    split
    · rename_i hv
      have hne : Value.ssa n "index" .arith ≠ v := by
        rintro rfl
        cases hv
      simp [integers, hv, hne]
    · rename_i hv
      simpa [integers, hv] using ih n

end Value

namespace Session

def convertAll (s : Session) (cells : List Nat) : Session := cells.foldl convert s

def conversions (s : Session) : List Nat → List Event
  | [] => []
  | cell :: cells => s.constantEvents (s.listItems cell) ++ (s.convert cell).conversions cells

variable {s : Session} {cell other : Nat} {cells : List Nat}

private theorem events_convert (s : Session) (cell : Nat) :
    (s.convert cell).events = s.events ++ s.constantEvents (s.listItems cell) :=
  (s.afterConstants (s.listItems cell)).events

private theorem objects_addConstants (s : Session) (vs : List Value) :
    (s.addConstants vs).objects = s.objects := by
  unfold addConstants
  induction Value.integers vs generalizing s with
  | nil => rfl
  | cons v vs ih => exact ih (s.addConstant v)

private theorem convert_eq_self (h : AreValues (s.listItems cell)) : s.convert cell = s := by
  rw [convert, h.addConstants_eq, h.withConstants_eq, set_listItems]
  rfl

private theorem convertAll_eq_self (h : ∀ cell ∈ cells, AreValues (s.listItems cell)) :
    s.convertAll cells = s := by
  induction cells with
  | nil => rfl
  | cons cell cells ih =>
    rw [forall_mem_cons] at h
    rw [convertAll, foldl_cons, convert_eq_self h.1]
    exact ih h.2

private theorem events_convertAll (s : Session) (cells : List Nat) :
    (s.convertAll cells).events = s.events ++ s.conversions cells := by
  induction cells generalizing s with
  | nil => simp [convertAll, conversions]
  | cons cell cells ih =>
    rw [conversions, ← append_assoc, ← events_convert]
    exact ih (s.convert cell)

private theorem objects_convertAll (s : Session) (cells : List Nat) :
    (s.convertAll cells).objects = s.objects := by
  induction cells generalizing s with
  | nil => rfl
  | cons cell cells ih => exact (ih (s.convert cell)).trans (s.objects_addConstants _)

private theorem length_lists_convertAll (s : Session) (cells : List Nat) :
    (s.convertAll cells).lists.length = s.lists.length := by
  induction cells generalizing s with
  | nil => rfl
  | cons cell cells ih => exact (ih (s.convert cell)).trans (by simp [convert, withLists])

private theorem listItems_convertAll_of_not_mem (h : other ∉ cells) :
    (s.convertAll cells).listItems other = s.listItems other := by
  induction cells generalizing s with
  | nil => rfl
  | cons cell cells ih =>
    rw [mem_cons, not_or] at h
    exact (ih h.2).trans (listItems_convert_of_ne h.1)

private theorem forall₂_replacedBy (s : Session) (vs : List Value) :
    Forall₂ (Value.ReplacedBy (s.constantEvents vs)) vs (Value.withConstants s.values vs) := by
  induction vs generalizing s with
  | nil => exact .nil
  | cons v vs ih =>
    rw [Value.withConstants]
    by_cases hv : v.isInt = true
    · have hevents : s.constantEvents (v :: vs) =
          s.constantEvent 0 v :: (s.addConstant v).constantEvents vs := by
        simp [constantEvents, Value.integers, hv, constantEvent_addConstant, mapIdx_cons]
      rw [if_pos hv, hevents]
      refine .cons ?_ ((ih (s.addConstant v)).imp fun _ _ h => h.mono (subset_cons_self _ _))
      rw [Value.ReplacedBy, if_pos hv]
      exact ⟨s.values, s.ops.length, s.current, rfl, mem_cons_self ..⟩
    · have hevents : s.constantEvents (v :: vs) = s.constantEvents vs := by
        simp [constantEvents, Value.integers, hv]
      rw [if_neg hv, hevents]
      refine .cons ?_ (ih s)
      rw [Value.ReplacedBy, if_neg hv]

private theorem listItems_convertAll_of_areValues (h : AreValues (s.listItems cell))
    (cells : List Nat) :
    (s.convertAll cells).listItems cell = s.listItems cell := by
  induction cells generalizing s with
  | nil => rfl
  | cons c cells ih =>
    have hitems : (s.convert c).listItems cell = s.listItems cell := by
      by_cases hc : cell = c
      · subst hc
        rw [listItems_convert_self, h.withConstants_eq]
      · exact listItems_convert_of_ne hc
    have hnext := ih (s := s.convert c) (by rwa [hitems])
    exact hnext.trans hitems

private theorem exists_convertAll_eq (hmem : cell ∈ cells)
    (h : ∀ v ∈ s.listItems cell, v.isIndex = true) :
    ∃ t : Session, (s.convertAll cells).listItems cell =
      Value.withConstants t.values (s.listItems cell) ∧
      t.constantEvents (s.listItems cell) ⊆ s.conversions cells := by
  induction cells generalizing s with
  | nil => cases hmem
  | cons c cells ih =>
    by_cases hc : cell = c
    · subst hc
      have hvalues : AreValues ((s.convert cell).listItems cell) := by
        rw [listItems_convert_self]
        exact areValues_withConstants h s.values
      refine ⟨s, ?_, subset_append_left _ _⟩
      exact (listItems_convertAll_of_areValues hvalues cells).trans (s.listItems_convert_self cell)
    · have hitems := listItems_convert_of_ne (s := s) hc
      obtain ⟨t, heq, hsub⟩ :=
        ih (s := s.convert c) ((mem_cons.1 hmem).resolve_left hc) (by rwa [hitems])
      rw [hitems] at heq hsub
      exact ⟨t, heq, Subset.trans hsub (subset_append_right _ _)⟩

private theorem constantEvents_eq_nil_iff (s : Session) (vs : List Value) :
    s.constantEvents vs = [] ↔ Value.integers vs = [] := by
  simp [constantEvents]

private theorem conversions_eq_nil_iff (s : Session) (cells : List Nat) :
    s.conversions cells = [] ↔ ∀ cell ∈ cells, Value.integers (s.listItems cell) = [] := by
  induction cells generalizing s with
  | nil => simp [conversions]
  | cons c cells ih =>
    rw [conversions, append_eq_nil_iff, ih, constantEvents_eq_nil_iff, forall_mem_cons]
    refine and_congr_right fun hc => ?_
    have hitems (cell : Nat) : (s.convert c).listItems cell = s.listItems cell := by
      by_cases hcell : cell = c
      · subst hcell
        rw [listItems_convert_self, (Value.withConstants_eq_self_iff _ _).2 hc]
      · exact listItems_convert_of_ne hcell
    simp only [hitems]

end Session

/-! ## Calls with lists -/

structure HeldValue where
  id : Nat
  type : String
  view : View

def HeldValue.value (v : HeldValue) : Value := .ssa v.id v.type v.view

structure Kernel where
  traced : TracedFunction
  moduleName : String
  qualifier_eq : traced.qualifier = .str moduleName

/-- The calls that take lists, which are given by the numbers of their cells. -/
inductive ListCall where
  | parallel (starts stops steps : Nat)
  | load (buffer : HeldValue) (indices : Nat)
  | store (value buffer : HeldValue) (indices : Nat)
  | extract (tensor : HeldValue) (indices : Nat)
  | launch (kernel : Kernel) (operands : List HeldValue) (grid block : Nat)

namespace ListCall

def cells : ListCall → List Nat
  | .parallel starts stops steps => [starts, stops, steps]
  | .load _ indices | .store _ _ indices | .extract _ indices => [indices]
  | .launch _ _ grid block => [grid, block]

def run (call : Caller) : ListCall → Build Value
  | .parallel starts stops steps =>
    Library.callPath call "scf.par_range" ⟨[.list starts, .list stops, .list steps], []⟩
  | .load buffer indices => Library.callPath call "affine.load" ⟨[buffer.value, .list indices], []⟩
  | .store value buffer indices =>
    Library.callPath call "affine.store" ⟨[value.value, buffer.value, .list indices], []⟩
  | .extract tensor indices =>
    Library.callPath call "tensor.extract" ⟨[tensor.value, .list indices], []⟩
  | .launch kernel operands grid block =>
    Script.launch kernel.traced ⟨operands.map HeldValue.value,
      [("grid_size", .list grid), ("block_size", .list block)]⟩

/-- What a call looks at before it converts its lists. -/
def check : ListCall → Build Unit
  | .parallel starts stops _ => do require ((← length (.list starts)) = (← length (.list stops))) ""
  | _ => return ()

/-- What a call does with its lists once they are converted. -/
def rest : ListCall → Build Value
  | .parallel starts stops steps => do
    let parts ← LoopKind.parallelParts (.list starts) (.list stops) (.list steps)
    enterBody (generic parallelKind (parts.2 ++ [.listed []]) [] [])
      (replicate parts.1 "index") .parallelLoop fun args => do
        newList [.tuple (← castAll .arith args)]
  | .load buffer indices => do
    let resolved ← asValues (.list indices)
    let element ← bufferElement buffer.type
    let n ← length (.list indices)
    Arith.arithResult
      (← loadDefinition.build (loadArgs buffer.value resolved element n))
  | .store value buffer indices => do
    let n ← length (.list indices)
    let resolved ← asValues (.list indices)
    generic storeKind (buffer.value :: value.value ::
      resolved) [("map", identityMap n)] []
  | .extract tensor indices => do
    result (← native "tensor" "ExtractOp" [tensor.value, .list indices])
  | .launch kernel operands grid block => do
    let symbol := Value.listed [kernel.traced.qualifier,
      .str (← Function.signature kernel.traced.function).name]
    result (← launchFuncOp (.list grid) (.list block) symbol
      (.tuple (operands.map HeldValue.value)) .none .none)

def convertCells : List Nat → Build Unit
  | [] => return ()
  | cell :: cells => do
    convertInPlace (.list cell)
    convertCells cells

private theorem callPath_parallel (call : Caller) (starts stops steps : Value) :
    Library.callPath call "scf.par_range" ⟨[starts, stops, steps], []⟩ =
      openParallel starts stops steps := by rfl

private theorem callPath_load (call : Caller) (buffer indices : Value) :
    Library.callPath call "affine.load" ⟨[buffer, indices], []⟩ =
      affineLoad buffer indices := by rfl

private theorem callPath_store (call : Caller) (value buffer indices : Value) :
    Library.callPath call "affine.store" ⟨[value, buffer, indices], []⟩ =
      affineStore value buffer indices := by rfl

private theorem callPath_extract (call : Caller) (tensor indices : Value) :
    Library.callPath call "tensor.extract" ⟨[tensor, indices], []⟩ =
      Tensor.extract tensor indices := by rfl

private theorem launch_eq (f : TracedFunction) (operands : List Value) (grid block : Value) :
    Script.launch f ⟨operands, [("grid_size", grid), ("block_size", block)]⟩ =
      Function.launchTraced f operands grid block := by rfl

/-- All calls go the same way: lists are converted one after the other, and only then read. -/
private theorem run_eq (call : Caller) (c : ListCall) : c.run call = (do
    c.check
    convertCells c.cells
    c.rest) := by
  cases c with
  | parallel starts stops steps =>
    have hopening := LoopKind.openParallel_eq (.list starts) (.list stops) (.list steps)
    rw [run, callPath_parallel, ← LoopKind.opening, hopening]
    simp [check, cells, convertCells, rest, LoopKind.openWithSteps, Value.isNone]
  | load buffer indices =>
    rw [run, callPath_load]
    simp only [affineLoad, affineLoadOp, changeable,
      HeldValue.value, asValue, typeOf, check, cells, convertCells, rest, bind_assoc, pure_bind]
    rfl
  | store value buffer indices =>
    rw [run, callPath_store]
    simp only [affineStore, affineStoreOp, changeable,
      HeldValue.value, asValue, check, cells, convertCells, rest, bind_assoc, pure_bind]
    rfl
  | extract tensor indices =>
    rw [run, callPath_extract]
    simp only [Tensor.extract, check, cells, convertCells, rest, bind_assoc, pure_bind]
  | launch kernel operands grid block =>
    rw [run, launch_eq]
    simp only [Function.launchTraced, check, cells, convertCells, rest, bind_assoc, pure_bind]

private theorem exec_convertCells (cells : List Nat) (s : Session) :
    (convertCells cells).exec s = (.ok (), s.convertAll cells) := by
  induction cells generalizing s with
  | nil => rfl
  | cons cell cells ih =>
    rw [convertCells, exec_bind_ok (exec_convertInPlace_list cell s)]
    exact ih (s.convert cell)

private theorem reads_check (c : ListCall) : Reads c.check := by
  cases c with
  | parallel starts stops steps => simp [check]
  | _ => exact reads_pure _

variable {c : ListCall} {call : Caller} {s t : Session} {r : Value}

private theorem exec_rest_of_run (h : (c.run call).exec s = (.ok r, t)) :
    c.rest.exec (s.convertAll c.cells) = (.ok r, t) := by
  rw [run_eq, exec_bind_eq_ok] at h
  obtain ⟨⟨⟩, s', hcheck, hrest⟩ := h
  obtain rfl := (reads_check c).eq_of_exec hcheck
  rw [exec_bind_ok (exec_convertCells c.cells s')] at hrest
  exact hrest

/-! ## What calls ask for -/

end ListCall

/-- A value that is told by its type alone. -/
def Value.unnumbered : Value → Value
  | .ssa _ t view => .ssa 0 t view
  | v => v

/-- An event without the place where it happened and the numbers of what it made. -/
def Event.unnumbered : Event → Event
  | .create _ name _ results how => .create 0 name none (results.map Value.unnumbered) how
  | .block _ _ region args => .block 0 0 region (args.map Value.unnumbered)
  | .enter _ => .enter ⟨0, 0⟩
  | e => e

def Event.making (name : String) (types : List String) (how : Creation) : Event :=
  .create 0 name none (types.map fun type => .ssa 0 type .plain) how

theorem map_unnumbered_typedIds (n : Nat) (types : List String) :
    ((typedIds n types).map TypedId.value).map Value.unnumbered =
      types.map fun type => .ssa 0 type .plain := by
  induction types generalizing n with
  | nil => rfl
  | cons type types ih => simpa [typedIds, TypedId.value, Value.unnumbered] using ih (n + 1)

theorem unnumbered_create (s : Session) (name cls : String) (operands : List Value)
    (attributes : List (String × Value)) (types : List String) (regions : Nat) (how : Creation) :
    ∃ e, (s.create (s.newOp name cls operands attributes types regions) how).events =
      s.events ++ [e] ∧
      e.unnumbered = .making name types how :=
  ⟨_, rfl, congrArg (Event.create 0 name none · how) (map_unnumbered_typedIds s.values types)⟩

namespace ListCall

def kernelName (s : Session) : ListCall → Except Fault String
  | .launch kernel _ _ _ =>
    ((Function.signature kernel.traced.function).exec s).1.map Function.Signature.name
  | _ => .ok ""

/-- What a call asks for, by the items of its lists once they are all values. -/
def requests (items : Nat → List Value) (name : String) : ListCall → List Event
  | .parallel starts stops steps =>
    let n := (items starts).length
    [.making "scf.parallel" [] (.generic
      [.listed (items starts), .listed (items stops), .listed (items steps), .listed []]
      [(segmentSizes, .listed [.int n, .int n, .int n, .int 0])] 1),
     .block 0 0 0 (replicate n (.ssa 0 "index" .plain)), .enter ⟨0, 0⟩]
  | .load buffer indices =>
    [.making "affine.load" [(TypeText.element? buffer.type).getD ""]
      (.generic (buffer.value :: items indices)
        [("map", identityMap (items indices).length)] 0)]
  | .store value buffer indices =>
    [.making "affine.store" [] (.generic (buffer.value :: value.value :: items indices)
      [("map", identityMap (items indices).length)] 0)]
  | .extract tensor indices =>
    [.making "tensor.ExtractOp" [(TypeText.element? tensor.type).getD ""]
      (.native [tensor.value, .listed (items indices)] [])]
  | .launch kernel operands grid block =>
    [.making "gpu.launch_func" [AttributeText.asyncToken] (.generic
      (.listed [] :: items grid ++ items block ++ [.none, .tuple (operands.map HeldValue.value)])
      [("kernel", parsed
        ("::".intercalate ["@" ++ kernel.moduleName, "@" ++ name])), (segmentSizes,
        .listed ((0 :: replicate 6 1 ++ [0, operands.length]).map fun (n : Nat) => .int n))] 0)]

variable {c : ListCall} {call : Caller} {s t : Session} {r : Value} {operands vs : List Value}
  {cell indices a b : Nat} {u : Session}

/-- The record of a call is what it asks for, and lists that were there stay as they are. -/
structure Asks (c : ListCall) (s t : Session) (made : List Event) : Prop where
  lists_eq : ∃ more, t.lists = s.lists ++ more
  events_eq : t.events = s.events ++ made
  requests_eq : ∃ name, c.kernelName s = .ok name ∧ made.map Event.unnumbered =
    c.requests s.listItems name

theorem asks_create {name cls : String} {attributes : List (String × Value)} {types : List String}
    {regions : Nat} {how : Creation} {kernel : String} (hkernel : c.kernelName s = .ok kernel)
    (h : c.requests s.listItems kernel = [.making name types how]) :
    ∃ made, c.Asks s (s.create (s.newOp name cls operands attributes types regions) how) made := by
  obtain ⟨e, hevents, he⟩ := unnumbered_create s name cls operands attributes types regions how
  refine ⟨[e], ⟨[], (append_nil _).symm⟩, hevents, kernel, hkernel, ?_⟩
  rw [h, map_singleton, he]

theorem exec_asValues (h : AreValues (s.listItems cell)) :
    (asValues (.list cell)).exec s = (.ok (s.listItems cell), s) := by
  have hread : (asValues (.list cell)).exec s = (asValueAll (s.listItems cell)).exec s := rfl
  rw [hread, asValueAll_eq h, exec_pure]

theorem exec_length_list (cell : Nat) (s : Session) :
    (length (.list cell)).exec s = (.ok (s.listItems cell).length, s) := rfl

private theorem asks_store {value buffer : HeldValue} (hvalues : AreValues (s.listItems indices))
    (h : (store value buffer indices).rest.exec s = (.ok r, t)) :
    ∃ made, (store value buffer indices).Asks s t made := by
  have hoperands : AreValues (buffer.value :: value.value :: s.listItems indices) :=
    hvalues.cons.cons
  have hkind : storeKind.segments = none := rfl
  have htypes : (typeTexts []).exec s = (.ok [], s) := rfl
  have hmade := exec_generic_access hkind hoperands (s.listItems indices).length htypes
  rw [rest, exec_bind_ok (exec_length_list indices s),
    exec_bind_ok (exec_asValues hvalues), hmade] at h
  cases h
  exact asks_create rfl rfl

private theorem asks_load {buffer : HeldValue} (hvalues : AreValues (s.listItems indices))
    (h : (load buffer indices).rest.exec s = (.ok r, t)) :
    ∃ made, (load buffer indices).Asks s t made := by
  rw [rest, exec_bind_ok (exec_asValues hvalues)] at h
  rcases bufferElement_eq_or buffer.type with ⟨e, -, helement, he⟩ | ⟨-, he⟩
  · have hmade := exec_build_load hvalues buffer.id buffer.type buffer.view e
      (s.listItems indices).length s
    rw [he, pure_bind, exec_bind_ok (exec_length_list indices s)] at h
    have hresult := (exec_bind_ok hmade).symm.trans h
    rw [addAccess, exec_arithResult_create s _ rfl] at hresult
    cases hresult
    refine asks_create rfl ?_
    simp [requests, helement, HeldValue.value]
    rfl
  · rw [he] at h
    cases h

private theorem asks_extract {tensor : HeldValue} (hvalues : AreValues (s.listItems indices))
    (h : (extract tensor indices).rest.exec s = (.ok r, t)) :
    ∃ made, (extract tensor indices).Asks s t made := by
  have hresults : nativeResults "ExtractOp" [tensor.value, .list indices] =
      (do return [← elementOf tensor.value]) := rfl
  cases helement : TypeText.element? tensor.type with
  | none =>
    have hnone : elementOf tensor.value = throw .rejected := by
      simp [elementOf, typeOf, asValue, HeldValue.value, helement]
    rw [rest, native, hresults, hnone] at h
    cases h
  | some e =>
    have hsome : elementOf tensor.value = pure e := by
      simp [elementOf, typeOf, asValue, HeldValue.value, helement]
    rw [hsome, pure_bind] at hresults
    have hmade : (native "tensor" "ExtractOp" [tensor.value, .list indices]).exec s = _ :=
      exec_native "tensor" (by decide) (by rw [hresults]; rfl)
    rw [rest, exec_bind_ok hmade] at h
    obtain rfl := (reads_result _).eq_of_exec h
    refine asks_create rfl ?_
    simp [requests, helement, s.frozen_list hvalues.isIndex, HeldValue.value]

theorem areValues_map (held : List HeldValue) : AreValues (held.map HeldValue.value) := by
  intro v hv
  obtain ⟨h, -, rfl⟩ := mem_map.1 hv
  exact ⟨h.id, h.type, h.view, rfl⟩

theorem exists_held (h : AreValues vs) :
    ∃ held : List HeldValue, vs = held.map HeldValue.value := by
  induction vs with
  | nil => exact ⟨[], rfl⟩
  | cons v vs ih =>
    obtain ⟨⟨id, type, view, rfl⟩, hvs⟩ := forall_mem_cons.mp h
    obtain ⟨held, rfl⟩ := ih hvs
    exact ⟨⟨id, type, view⟩ :: held, rfl⟩

private theorem threeSizes_of_ok (h : AreValues (s.listItems cell))
    {sizes : List Value} (hok : (threeSizes (.list cell)).exec s = (.ok sizes, u)) :
    u = s ∧ sizes = s.listItems cell ∧ ∃ x y z : HeldValue,
      s.listItems cell = [x.value, y.value, z.value] := by
  have hitems : (items (.list cell)).exec s = (.ok (s.listItems cell), s) := rfl
  rw [threeSizes, exec_bind_ok hitems] at hok
  split at hok
  · rename_i hlength
    cases hok
    obtain ⟨held, hheld⟩ := exists_held h
    rw [hheld, length_map] at hlength
    obtain ⟨x, y, z, rfl⟩ := length_eq_three.1 hlength
    exact ⟨rfl, rfl, x, y, z, hheld⟩
  · cases hok

private theorem make_symbols (vs : List Value) (context : Value) :
    make "SymbolRefAttr" (.listed vs) context =
      symbols (.listed vs) context := rfl

private theorem exec_symbols {outer inner : String} {context v : Value} (h :
      (symbols (.listed [.str outer, .str inner]) context).exec s = (.ok v, u)) :
    u = s ∧ v = parsed ("::".intercalate ["@" ++ outer, "@" ++ inner]) := by
  have hitems :
      (items (.listed [.str outer, .str inner])).exec s = (.ok [.str outer, .str inner], s) := rfl
  have hnow : (nowAll [.str outer, .str inner]).exec s =
      (.ok ([.str outer, .str inner].map s.frozen), s) := rfl
  rw [symbols, exec_bind_ok hitems, exec_bind_ok hnow, exec_bind_eq_ok] at h
  obtain ⟨⟨⟩, s', hcontext, hv⟩ := h
  obtain rfl := (reads_checkContext context).eq_of_exec hcontext
  cases hv
  refine ⟨rfl, ?_⟩
  simp [frozen, freeze, Value.expand, Value.text]

private theorem exec_flatten_launch (x y z x' y' z' : HeldValue)
    (operands : List HeldValue) (symbol : Value) (s : Session) :
    (flattenOperands launchFuncKind
        (.listed [] :: [x.value, y.value, z.value] ++ [x'.value, y'.value, z'.value] ++
          [.none, .tuple (operands.map HeldValue.value)]) [("kernel", symbol)]).exec s =
      (.ok ([x.value, y.value, z.value, x'.value, y'.value, z'.value] ++
        operands.map HeldValue.value,
        [("kernel", symbol), (segmentSizes, .listed
          ((0 :: replicate 6 1 ++ [0, operands.length]).map fun (n : Nat) => .int n))]), s) := by
  have hgroups : operandGroups (launchSegments ++ [.variadic])
      (.listed [] :: [x.value, y.value, z.value] ++ [x'.value, y'.value, z'.value] ++
          [.none, .tuple (operands.map HeldValue.value)]) =
      pure [[], [x.value], [y.value], [z.value], [x'.value], [y'.value], [z'.value], [],
        operands.map HeldValue.value] := by
    simp [launchSegments, operandGroups, groupOperands, items?,
      Value.payload, operand, operandAll, HeldValue.value, operandAll_eq (areValues_map operands)]
  have hput (sizes : Value) : Table.put segmentSizes sizes [("kernel", symbol)] =
      [("kernel", symbol), (segmentSizes, sizes)] := rfl
  rw [flattenOperands, launchFuncKind]
  simp only
  rw [hgroups, pure_bind, hput, exec_pure]
  simp

private theorem asks_launch {kernel : Kernel} {operands : List HeldValue} {grid block : Nat}
    (hgrid : AreValues (s.listItems grid)) (hblock : AreValues (s.listItems block))
    (h : (launch kernel operands grid block).rest.exec s = (.ok r, t)) :
    ∃ made, (launch kernel operands grid block).Asks s t made := by
  rw [rest, exec_bind_eq_ok] at h
  obtain ⟨sig, s₁, hsig, h⟩ := h
  obtain rfl := (Function.reads_signature _).eq_of_exec hsig
  simp only [launchFuncOp, bind_assoc, exec_bind_eq_ok] at h
  obtain ⟨sizes, s₂, hsizes, threads, s₃, hthreads, symbol, s₄,
    hsymbol, made, s₅, hmade, hresult⟩ := h
  obtain ⟨rfl, rfl, x, y, z, hxyz⟩ := threeSizes_of_ok hgrid hsizes
  obtain ⟨rfl, rfl, x', y', z', hxyz'⟩ := threeSizes_of_ok hblock hthreads
  rw [kernel.qualifier_eq, make_symbols] at hsymbol
  obtain ⟨rfl, rfl⟩ := exec_symbols hsymbol
  obtain rfl := (reads_result made).eq_of_exec hresult
  have htypes : (typeTexts [tokenType]).exec s₄ = (.ok [AttributeText.asyncToken], s₄) := rfl
  have hflat := exec_flatten_launch x y z x' y' z' operands
    (parsed ("::".intercalate ["@" ++ kernel.moduleName, "@" ++ sig.name])) s₄
  rw [hxyz, hxyz', Value.isNone, if_pos rfl, exec_generic hflat htypes] at hmade
  cases hmade
  have hname : (launch kernel operands grid block).kernelName s₄ = .ok sig.name := by
    simp [kernelName, hsig, Except.map]
  refine asks_create hname ?_
  have hsymbol (text : String) :
      s₄.frozen (parsed text) = parsed text := by
    simp [parsed, frozen, freeze, Value.expand]
  simp [requests, hxyz, hxyz', launchFuncKind, HeldValue.value,
    hsymbol, (areValues_map operands).map_frozen_eq]

private theorem exec_parallelParts {c : Nat} (ha : AreValues (s.listItems a))
    (hb : AreValues (s.listItems b)) (hc : AreValues (s.listItems c)) {parts : Nat × List Value}
    (h : (LoopKind.parallelParts (.list a) (.list b) (.list c)).exec s = (.ok parts, u)) :
    u = s ∧ (s.listItems b).length = (s.listItems a).length ∧
      (s.listItems c).length = (s.listItems a).length ∧
      parts = ((s.listItems a).length,
        [.listed (s.listItems a), .listed (s.listItems b), .listed (s.listItems c)]) := by
  obtain rfl := (LoopKind.reads_parallelParts _ _ _).eq_of_exec h
  refine ⟨rfl, ?_⟩
  rw [LoopKind.parallelParts, sameLengths, bind_assoc,
    exec_bind_ok (exec_length_list a u), bind_assoc, exec_bind_ok (exec_length_list b u)] at h
  by_cases hab : (u.listItems a).length = (u.listItems b).length
  · rw [if_neg (by simpa using hab), bind_assoc, exec_bind_ok (exec_length_list c u),
      pure_bind] at h
    by_cases hac : (u.listItems a).length = (u.listItems c).length
    · have hgroup {cell : Nat} (hcell : AreValues (u.listItems cell)) :
          (do return Value.listed (← asValues (.list cell))).exec u =
            (.ok (.listed (u.listItems cell)), u) :=
        exec_bind_ok (exec_asValues hcell)
      have hgroups : ([Value.list a, .list b, .list c].mapM fun v => do
          return Value.listed (← asValues v)).exec u =
          (.ok [.listed (u.listItems a), .listed (u.listItems b), .listed (u.listItems c)], u) := by
        rw [mapM_cons, exec_bind_ok (hgroup ha), mapM_cons, bind_assoc, exec_bind_ok (hgroup hb),
          mapM_cons, bind_assoc, bind_assoc, exec_bind_ok (hgroup hc)]
        rfl
      simp only [hac, decide_true, require, if_true, pure_bind] at h
      rw [exec_bind_ok (exec_length_list a u), exec_bind_ok hgroups] at h
      cases h
      exact ⟨hab.symm, hac.symm, rfl⟩
    · simp only [hac, decide_false, require] at h
      cases h
  · rw [if_pos (by simpa using hab), pure_bind] at h
    cases h

private theorem exec_flatten_parallel {as bs cs : List Value}
    (ha : AreValues as) (hb : AreValues bs) (hc : AreValues cs) (s : Session) :
    (flattenOperands parallelKind
      ([.listed as, .listed bs, .listed cs] ++ [.listed []]) []).exec s =
      (.ok (as ++ bs ++ cs, [(segmentSizes,
        .listed [.int as.length, .int bs.length, .int cs.length, .int 0])]), s) := by
  have hgroups : operandGroups (replicate 4 .variadic)
      ([.listed as, .listed bs, .listed cs] ++ [.listed []]) = pure [as, bs, cs, []] := by
    simp [operandGroups, groupOperands, items?, Value.payload,
      replicate_succ, operandAll_eq ha, operandAll_eq hb, operandAll_eq hc, operandAll]
  have hput (sizes : Value) : Table.put segmentSizes sizes [] = [(segmentSizes, sizes)] := rfl
  rw [flattenOperands, parallelKind]
  simp only
  rw [hgroups, pure_bind, hput, exec_pure]
  simp

private theorem unnumbered_opened (s : Session) (name cls : String)
    (operands : List Value) (attributes : List (String × Value)) (types : List String)
    (regions : Nat) (how : Creation) (args : List String) (construct : Construct) :
    ∃ made,
      (s.opened (s.newOp name cls operands attributes types regions) how args construct).events =
        s.events ++ made ∧
      made.map Event.unnumbered = [.making name types how,
        .block 0 0 0 (args.map fun type => .ssa 0 type .plain), .enter ⟨0, 0⟩] := by
  obtain ⟨e, hevents, he⟩ := unnumbered_create s name cls operands attributes types regions how
  let made := s.create (s.newOp name cls operands attributes types regions) how
  let block :=
    Event.block made.blocks.length s.ops.length 0 ((typedIds made.values args).map TypedId.value)
  have hopened :
      (s.opened (s.newOp name cls operands attributes types regions) how args construct).events =
      made.events ++ [block] ++ [.enter ⟨made.points, s.blocks.length⟩] := rfl
  refine ⟨[e, block, .enter ⟨made.points, s.blocks.length⟩], ?_, ?_⟩
  · rw [hopened, hevents, append_assoc, append_assoc]
    rfl
  · rw [map_cons, he, map_cons, Event.unnumbered, map_unnumbered_typedIds]
    rfl

private theorem asks_parallel {c : Nat} (ha : AreValues (s.listItems a))
    (hb : AreValues (s.listItems b)) (hc : AreValues (s.listItems c))
    (h : (parallel a b c).rest.exec s = (.ok r, t)) :
    ∃ made, (parallel a b c).Asks s t made := by
  rw [rest, exec_bind_eq_ok] at h
  obtain ⟨parts, u, hparts, h⟩ := h
  obtain ⟨rfl, hb', hc', rfl⟩ := exec_parallelParts ha hb hc hparts
  have htypes : (typeTexts []).exec u = (.ok [], u) := rfl
  have hmade := exec_generic (exec_flatten_parallel ha hb hc u) htypes
  have hregions :
      (replicate parallelKind.regions ([] : List Nat)) = replicate (0 + 1) [] := rfl
  rw [exec_enterBody_of_make hmade hregions, exec_bind_ok (exec_castAll _ _)] at h
  cases h
  obtain ⟨made, hevents, hrequests⟩ :=
    unnumbered_opened u parallelKind.name parallelKind.cls
    (u.listItems a ++ u.listItems b ++ u.listItems c)
      [(segmentSizes, .listed [.int (u.listItems a).length,
      .int (u.listItems b).length, .int (u.listItems c).length, .int 0])] []
        parallelKind.regions _ (replicate (u.listItems a).length "index") .parallelLoop
  refine ⟨made, ⟨_, rfl⟩, hevents, "", rfl, hrequests.trans ?_⟩
  simp [requests, parallelKind, ha.map_frozen_eq,
    hb.map_frozen_eq, hc.map_frozen_eq, hb', hc']

private theorem asks_of_rest (hvalues : ∀ cell ∈ c.cells, AreValues (s.listItems cell))
    (h : c.rest.exec s = (.ok r, t)) :
    ∃ made, c.Asks s t made := by
  cases c with
  | parallel starts stops steps =>
    simp only [cells, forall_mem_cons] at hvalues
    exact asks_parallel hvalues.1 hvalues.2.1 hvalues.2.2.1 h
  | load buffer indices => exact asks_load (hvalues indices (mem_singleton_self _)) h
  | store value buffer indices => exact asks_store (hvalues indices (mem_singleton_self _)) h
  | extract tensor indices => exact asks_extract (hvalues indices (mem_singleton_self _)) h
  | launch kernel operands grid block =>
    simp only [cells, forall_mem_cons] at hvalues
    exact asks_launch hvalues.1 hvalues.2.1 h

private theorem signature_congr (f : Value) (h : t.objects = s.objects) :
    ((Function.signature f).exec t).1 = ((Function.signature f).exec s).1 := by
  cases f with
  | object id =>
    have hobject (u : Session) (n : Nat) :
        (object n).exec u = (.ok ((u.objects[n]?).getD default), u) := rfl
    simp only [Function.signature]
    rw [exec_bind_ok (hobject t id), exec_bind_ok (hobject s id), h]
    generalize (s.objects[id]?).getD default = o
    split
    · rename_i inner _
      rw [exec_bind_ok (hobject t inner), exec_bind_ok (hobject s inner), h]
      generalize (s.objects[inner]?).getD default = o
      cases o <;> rfl
    · cases o <;> rfl
  | _ => rfl

private theorem kernelName_convertAll (c : ListCall) (s : Session) (cells : List Nat) :
    c.kernelName (s.convertAll cells) = c.kernelName s := by
  cases c with
  | launch kernel operands grid block =>
    simp only [kernelName]
    rw [signature_congr kernel.traced.function (s.objects_convertAll cells)]
  | _ => rfl

private theorem requests_congr {items items' : Nat → List Value}
    (h : ∀ cell ∈ c.cells, items cell = items' cell) (name : String) :
    c.requests items name = c.requests items' name := by
  cases c <;> simp only [cells, forall_mem_cons] at h <;> simp [requests, h]

/-- A call puts the constants that it makes of integers into the lists of its caller.  So a list is
as before only if there are none in it, and the call asks for the same when it is repeated with its
lists only if there are none in any of them. -/
theorem calls_replace_integers (call : Caller) (c : ListCall) (s t : Session) (r : Value)
    (hcells : ∀ cell ∈ c.cells, cell < s.lists.length ∧ ∀ v ∈ s.listItems cell, v.isIndex = true)
    (hrun : (c.run call).exec s = (.ok r, t)) :
    (∀ cell < s.lists.length,
      (t.listItems cell = s.listItems cell ↔ cell ∉ c.cells ∨
        Value.integers (s.listItems cell) = [])) ∧
    (∀ cell ∈ c.cells, List.Forall₂ (Value.ReplacedBy (s.conversions c.cells))
      (s.listItems cell) (t.listItems cell)) ∧
    ∃ made, t.events = s.events ++ (s.conversions c.cells ++ made) ∧
      ∀ u v r', (∀ cell ∈ c.cells, u.listItems cell = t.listItems cell) →
        c.kernelName u = c.kernelName s →
        (c.run call).exec u = (.ok r', v) →
        ∃ again, v.events = u.events ++ again ∧
          again.map Event.unnumbered = made.map Event.unnumbered ∧
          (again.map Event.unnumbered = (s.conversions c.cells ++ made).map Event.unnumbered ↔
            ∀ cell ∈ c.cells, Value.integers (s.listItems cell) = []) := by
  have hconverted (cell : Nat) (hcell : cell ∈ c.cells) :=
    exists_convertAll_eq hcell (hcells cell hcell).2
  have hvalues : ∀ cell ∈ c.cells, AreValues ((s.convertAll c.cells).listItems cell) := by
    intro cell hcell
    obtain ⟨w, hw, -⟩ := hconverted cell hcell
    rw [hw]
    exact areValues_withConstants (hcells cell hcell).2 w.values
  obtain ⟨made, hasks⟩ := asks_of_rest hvalues (exec_rest_of_run hrun)
  have hitems : ∀ cell < s.lists.length,
      t.listItems cell = (s.convertAll c.cells).listItems cell := by
    intro cell hcell
    obtain ⟨more, hmore⟩ := hasks.lists_eq
    rw [← s.length_lists_convertAll c.cells] at hcell
    simp [listItems, hmore, List.getElem?_append_left hcell]
  refine ⟨fun cell hcell => ?_, fun cell hcell => ?_, made, ?_, fun u v r' hu hname hagain => ?_⟩
  · rw [hitems cell hcell]
    by_cases hmem : cell ∈ c.cells
    · obtain ⟨w, hw, -⟩ := hconverted cell hmem
      rw [hw, Value.withConstants_eq_self_iff]
      simp [hmem]
    · simp [listItems_convertAll_of_not_mem hmem, hmem]
  · obtain ⟨w, hw, hmade⟩ := hconverted cell hcell
    rw [hitems cell (hcells cell hcell).1, hw]
    exact (w.forall₂_replacedBy (s.listItems cell)).imp fun _ _ h => h.mono hmade
  · rw [hasks.events_eq, events_convertAll, List.append_assoc]
  · have hsame : ∀ cell ∈ c.cells, u.listItems cell = (s.convertAll c.cells).listItems cell :=
      fun cell hcell =>
      (hu cell hcell).trans (hitems cell (hcells cell hcell).1)
    have huvalues : ∀ cell ∈ c.cells, AreValues (u.listItems cell) := fun cell hcell => by
      rw [hsame cell hcell]
      exact hvalues cell hcell
    have hrest := exec_rest_of_run hagain
    rw [convertAll_eq_self huvalues] at hrest
    obtain ⟨again, hagain⟩ := asks_of_rest huvalues hrest
    obtain ⟨name, hkernel, hrequests⟩ := hasks.requests_eq
    obtain ⟨name', hkernel', hrequests'⟩ := hagain.requests_eq
    rw [kernelName_convertAll, ← hname, hkernel'] at hkernel
    cases hkernel
    have hequal : again.map Event.unnumbered = made.map Event.unnumbered := by
      rw [hrequests, hrequests', requests_congr hsame]
    refine ⟨again, hagain.events_eq, hequal, ?_⟩
    rw [hequal, ← conversions_eq_nil_iff, List.map_append]
    constructor
    · intro heq
      have hlength := congrArg List.length heq
      simp only [List.length_append, List.length_map] at hlength
      exact List.eq_nil_of_length_eq_zero (by omega)
    · intro hnil
      simp [hnil]

def element : ListCall := .extract ⟨0, "tensor<?x?xf32>", .tensor⟩ 0

def elementSession : Session := { values := 2, lists := [[.int 3, .ssa 1 "index" .plain]] }

theorem element_replaces_integer : (∀ cell ∈ element.cells, cell < elementSession.lists.length ∧
      ∀ v ∈ elementSession.listItems cell, v.isIndex = true) ∧
    ∃ r t, (element.run (Script.callWithin 0)).exec elementSession = (.ok r, t) ∧
      t.listItems 0 ≠ elementSession.listItems 0 ∧
      Forall₂ (Value.ReplacedBy (elementSession.conversions [0]))
        (elementSession.listItems 0) (t.listItems 0) := by
  have hcells : ∀ cell ∈ element.cells, cell < elementSession.lists.length ∧
      ∀ v ∈ elementSession.listItems cell, v.isIndex = true := by decide
  have hok : ((element.run (Script.callWithin 0)).exec elementSession).1.isOk = true := by
    decide +kernel
  refine ⟨hcells, ?_⟩
  rcases hrun : (element.run (Script.callWithin 0)).exec elementSession with ⟨fault | r, t⟩
  · rw [hrun] at hok
    cases hok
  · obtain ⟨hsame, hreplaced, -⟩ :=
      calls_replace_integers (Script.callWithin 0) element elementSession t r hcells hrun
    refine ⟨r, t, rfl, fun heq => ?_, hreplaced 0 (by decide)⟩
    rcases (hsame 0 (by decide)).1 heq with hmem | hnone
    · exact hmem (by decide)
    · cases hnone

/-- The first call makes a constant and the second, with the same list, makes none. -/
theorem repeated_element_makes_no_constant :
    let first := (element.run (Script.callWithin 0)).exec elementSession
    let second := (element.run (Script.callWithin 0)).exec first.2
    first.1.isOk = true ∧ second.1.isOk = true ∧ (elementSession.listItems 0).map Value.isInt =
      [true, false] ∧
      (first.2.listItems 0).map Value.isInt = [false, false] ∧
      first.2.events.length = 2 ∧ second.2.events.length = first.2.events.length + 1 := by
  decide +kernel

end ListCall

end Polyloom
