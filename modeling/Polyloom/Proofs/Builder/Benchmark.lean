import Polyloom.Proofs.Builder.Launch
import Polyloom.Proofs.Builder.Signature

/-!
# Programs that measure kernels

The wrapper of a kernel has the kernel's parameters and a buffer for times.  Its loop carries the
last parameters, as many as the kernel has results, and the kernel is called with the other
parameters and what the loop carries.  So the parameters are cut twice, and both cuts have to fit
together.
-/

namespace Polyloom

open Build TypedId TypeText List Session OpReader

/-! ## Going on from a session -/

/-- An operation by its number, with the values that it gives. -/
structure Operation where
  id : Nat
  results : List TypedId

def Operation.made (o : Operation) (name : String) (place : Option Nat)
    (args : List Value) : Event :=
  .create o.id name place (o.results.map value) (.native args [])

namespace Session

variable {s t u : Session} {es es' : List Event} {id : Nat} {inputs outputs types : List String}
  {o : Operation}

/-- Events were recorded, and operations are what they were but for their regions. -/
structure Appends (s t : Session) (es : List Event) : Prop extends s.Records t es where
  ops_le : s.ops.length ≤ t.ops.length
  op_eq : ∀ i < s.ops.length, ∃ regions, t.op i = { s.op i with regions }

namespace Appends

theorem trans (h : s.Appends t es) (h' : t.Appends u es') : s.Appends u (es ++ es') where
  toRecords := h.toRecords.trans h'.toRecords
  ops_le := h.ops_le.trans h'.ops_le
  op_eq i hi := by
    obtain ⟨regions, hop⟩ := h.op_eq i hi
    obtain ⟨regions', hop'⟩ := h'.op_eq i (hi.trans_le h.ops_le)
    exact ⟨regions', by rw [hop', hop]⟩

theorem create (s : Session) (o : OpRecord) (how : Creation) : s.Appends (s.create o how)
    [.create s.ops.length o.name s.current (o.results.map value) how] where
  toRecords := .create s o how
  ops_le := by simp
  op_eq i hi := ⟨_, op_create_of_lt hi o how⟩

theorem addBlock (s : Session) (op region : Nat) (types : List String) :
    s.Appends (s.addBlock op region types)
      [.block s.blocks.length op region ((typedIds s.values types).map value)] where
  toRecords := .addBlock s op region types
  ops_le := by simp
  op_eq i hi := by
    by_cases h : i = op
    · subst h
      exact ⟨_, op_addBlock_self hi region types⟩
    · exact ⟨_, op_addBlock_of_ne h region types⟩

theorem within {α : Type} {x : Build α} {b : Nat} {r : Except Fault α}
    (hx : x.exec (s.entered b) = (r, u)) (h : (s.entered b).Appends u es) :
    ∃ t, (Build.within b x).exec s = (r, t) ∧
      s.Appends t ([.enter ⟨s.points, b⟩] ++ es ++ [.exit ⟨s.points, b⟩ ⟨s.points, b⟩]) := by
  refine ⟨_, exec_within hx h.open_eq, ?_⟩
  exact {
    toFrame := frame_pair h.lists_eq rfl (by simp)
    events_eq := by
      rw [h.events_eq]
      simp [entered]
    ops_le := h.ops_le
    op_eq := h.op_eq }

end Appends

/-- An operation is there, and gives values of these types. -/
structure Gives (s : Session) (o : Operation) (types : List String) : Prop where
  lt : o.id < s.ops.length
  results_eq : (s.op o.id).results = o.results
  types_eq : o.results.map type = types

private theorem Gives.later (h : s.Gives o types) (h' : s.Appends t es) : t.Gives o types := by
  obtain ⟨regions, hop⟩ := h'.op_eq o.id h.lt
  exact ⟨h.lt.trans_le h'.ops_le, by rw [hop, h.results_eq], h.types_eq⟩

/-- An operation is a function of this type. -/
structure IsFunction (s : Session) (id : Nat) (inputs outputs : List String) : Prop where
  attribute_eq : ∃ v, (s.op id).attributes.lookup "function_type" = some v ∧
    v.payload = .type (function inputs outputs)
  inputs_types : ∀ t ∈ inputs, IsType t
  outputs_types : ∀ t ∈ outputs, IsType t

namespace IsFunction

section

variable (h : s.IsFunction id inputs outputs)

include h

theorem lt : id < s.ops.length := by
  by_contra hle
  obtain ⟨v, hv, -⟩ := h.attribute_eq
  rw [op, getElem?_eq_none (Nat.le_of_not_lt hle)] at hv
  cases hv

theorem later (h' : s.Appends t es) : t.IsFunction id inputs outputs where
  attribute_eq := by
    obtain ⟨regions, hop⟩ := h'.op_eq id h.lt
    rw [hop]
    exact h.attribute_eq
  inputs_types := h.inputs_types
  outputs_types := h.outputs_types

theorem entered (b : Nat) : (s.entered b).IsFunction id inputs outputs :=
  ⟨h.attribute_eq, h.inputs_types, h.outputs_types⟩

theorem signature_eq : signature (function inputs outputs) = (inputs, outputs) :=
  signature_function h.inputs_types h.outputs_types

theorem exec_functionTypeOf : (functionTypeOf id).exec s = (.ok (function inputs outputs), s) := by
  obtain ⟨v, hv, htype⟩ := h.attribute_eq
  have hop : (Build.op id).exec s = (.ok (s.op id), s) := rfl
  have htext : (typeText (.type (function inputs outputs))).exec s =
      (.ok (function inputs outputs), s) := rfl
  rw [functionTypeOf, exec_bind_ok hop, hv]
  simp only [htype]
  rw [exec_bind_ok htext, if_pos (classOf_function inputs outputs), exec_pure]

private theorem exec_addEntryBlock (hregions : (s.op id).regions = [[]]) :
    (addEntryBlock id).exec s = (.ok s.blocks.length, s.addBlock id 0 inputs) := by
  have hempty : s.regionBlocks id 0 = [] := by simp [regionBlocks, hregions]
  have hentry : (entryBlock id).exec (s.addBlock id 0 inputs) =
      (.ok s.blocks.length, s.addBlock id 0 inputs) := by
    refine exec_blockAt ?_
    rw [regionBlocks, op_addBlock_self h.lt, hregions]
    rfl
  rw [addEntryBlock, exec_bind_ok (exec_get s), hempty]
  refine (exec_bind_ok h.exec_functionTypeOf).trans ?_
  rw [h.signature_eq, exec_bind_ok (exec_appendBlock ..), hentry]

end

end IsFunction

private theorem Gives.exec_typeOf {type : String} (h : s.Gives o [type]) (cls : String) :
    (typeOf (.op o.id cls)).exec s = (.ok type, s) := by
  obtain ⟨r, hr, rfl⟩ := map_eq_singleton_iff.mp h.types_eq
  have hop : (Build.op o.id).exec s = (.ok (s.op o.id), s) := rfl
  rw [typeOf, asValue, bind_assoc, exec_bind_ok hop, h.results_eq, hr]
  rfl

private theorem Gives.exec_results (h : s.Gives o types) (cls : String) :
    (Build.results (.op o.id cls)).exec s = (.ok (o.results.map value), s) := by
  rw [← h.results_eq]
  rfl

end Session

/-! ## Steps that make an operation -/

theorem map_type_typedIds (n : Nat) (types : List String) :
    (typedIds n types).map type = types := by
  induction types generalizing n with
  | nil => rfl
  | cons type types ih => rw [typedIds, map_cons, ih]

private theorem typedIds_append (n : Nat) (types types' : List String) :
    typedIds n (types ++ types') = typedIds n types ++ typedIds (n + types.length) types' := by
  induction types generalizing n with
  | nil => rfl
  | cons type types ih =>
    rw [cons_append, typedIds, ih, typedIds, length_cons,
      Nat.add_right_comm, Nat.add_assoc]
    rfl

@[simp] theorem Session.frozen_value (s : Session) (v : TypedId) : s.frozen v.value = v.value :=
  frozen_ssa s v.type v.id .plain

@[simp] theorem Session.frozen_comp_value (s : Session) : s.frozen ∘ value = value :=
  funext s.frozen_value

@[simp] theorem Session.frozen_op (s : Session) (id : Nat) (cls : String) :
    s.frozen (.op id cls) = .op id cls := by
  simp [frozen, freeze, Value.expand]

def Session.nextOp (s : Session) (types : List String) : Operation :=
  ⟨s.ops.length, typedIds s.values types⟩

private theorem Session.gives_nextOp (s : Session) (name : String)
    (args : List Value) (types : List String) (regions : Nat) (how : Creation) :
    (s.create (s.newOp name name args [] types regions) how).Gives (s.nextOp types) types := by
  refine ⟨?_, ?_, map_type_typedIds s.values types⟩
  · simp [nextOp]
  · rw [nextOp, op_create_self]
    rfl

namespace Build

variable {s : Session} {place : Option Nat} {dialect cls name : String}
  {args : List Value} {types : List String}

/-- The step makes one operation at a place, with these arguments and values of these types. -/
def Adds (x : Build Value) (s : Session) (place : Option Nat) (name : String) (args : List Value)
    (types : List String) : Prop :=
  ∃ (o : Operation) (t : Session), x.exec s = (.ok (.op o.id name), t) ∧
    s.Appends t [o.made name place args] ∧ t.Gives o types ∧ t.current = place

theorem exec_nativeWith_of_frozen (hname : dialect ++ "." ++ cls = name)
    (hargs : args.map s.frozen = args) (types : List String) (regions : Nat) :
    (nativeWith dialect cls args [] types regions []).exec s =
      (.ok (.op s.ops.length name),
        s.create (s.newOp name name args [] types regions) (.native args [])) := by
  rw [exec_nativeWith, hname, hargs]
  rfl

section

variable (hplace : s.current = place) (hname : dialect ++ "." ++ cls = name)
  (hargs : args.map s.frozen = args)

include hplace hname hargs

theorem adds_nativeWith (types : List String) (regions : Nat) :
    Adds (nativeWith dialect cls args [] types regions []) s place name args types := by
  subst hplace
  exact ⟨s.nextOp types, _, exec_nativeWith_of_frozen hname hargs types regions,
    .create s (s.newOp name name args [] types regions) (.native args []),
      s.gives_nextOp name args types regions _, rfl⟩

theorem adds_native (hresults : (nativeResults cls args).exec s = (.ok types, s)) :
    Adds (native dialect cls args) s place name args types := by
  obtain ⟨o, t, hexec, hmade⟩ :=
    adds_nativeWith hplace hname hargs types (if cls = "PadOp" then 1 else 0)
  exact ⟨o, t, (exec_bind_ok hresults).trans hexec, hmade⟩

end

private theorem adds_constantOp (hplace : s.current = place) (n : Int) :
    Adds (indexConstantOp (.int n)) s place "arith.ConstantOp" [.type "index", .int n] ["index"] :=
  adds_native hplace rfl (by simp) rfl

private theorem adds_callOp {id : Nat} {inputs outputs : List String}
    (h : s.IsFunction id inputs outputs) (hplace : s.current = place)
    (callee : String) (operands : List TypedId) :
    Adds (callOp (.op id callee) [.listed (operands.map value)]) s place "func.CallOp"
      [.op id callee, .listed (operands.map value)] outputs := by
  obtain ⟨v, hv, htype⟩ := h.attribute_eq
  have hop : (Build.op id).exec s = (.ok (s.op id), s) := rfl
  have htext : (typeText (.type (function inputs outputs))).exec s =
      (.ok (function inputs outputs), s) := rfl
  have hadds : Adds (nativeWith "func" "CallOp"
      [.op id callee, .listed (operands.map value)] [] outputs 0 []) s
      place "func.CallOp" _ outputs := adds_nativeWith hplace rfl (by simp) outputs 0
  obtain ⟨o, t, hexec, hmade⟩ := hadds
  refine ⟨o, t, ?_, hmade⟩
  rw [callOp]
  simp only
  rw [exec_bind_ok hop, hv]
  simp only [htype, pure_bind]
  rw [exec_bind_ok htext, h.signature_eq]
  exact hexec

private theorem mapM_typeOf (ids : List TypedId) :
    (ids.map value).mapM typeOf = pure (ids.map type) := by
  rw [mapM_map]
  exact mapM_pure

private theorem mapM_memberType (ids : List TypedId) :
    (ids.map value).mapM memberType = pure ((ids.map type).map Value.type) := by
  rw [mapM_map, map_map]
  exact mapM_pure

private theorem typeTexts_map_type (types : List String) :
    typeTexts (types.map Value.type) = pure types := by
  induction types with
  | nil => rfl
  | cons type types ih =>
    have htype : typeText (.type type) = pure type := rfl
    rw [map_cons, typeTexts, htype, ih, pure_bind, pure_bind]

end Build

/-! ## Cutting the parameters -/

namespace Benchmark

variable {s : Session} {kernel timer : Nat} {inputs outputs : List String}

private theorem carriedPart_concat (n : Nat) (vs : List Value) (times : Value) :
    carriedPart n (vs ++ [times]) = vs.drop (vs.length - n) := by
  have hcut : (vs ++ [times]).length - (n + 1) = vs.length - n := by simp
  rw [carriedPart, hcut, drop_append_of_le_length (Nat.sub_le ..), dropLast_concat]

private theorem fixedPart_concat (n : Nat) (vs : List Value) (times : Value) :
    fixedPart n (vs ++ [times]) = vs.take (vs.length - n) := by
  have hcut : (vs ++ [times]).length - (n + 1) = vs.length - n := by simp
  rw [fixedPart, hcut, take_append_of_le_length (Nat.sub_le ..)]

/-! ## One run -/

/-- The operations in the loop. -/
structure Measurement where
  start : Operation
  run : Operation
  stop : Operation
  taken : Operation
  store : Operation
  yield : Operation

/-- The kernel is called between two calls of the timer.  The time between them is stored, and what
the kernel gives is what the loop goes on with. -/
def Measurement.events (m : Measurement) (body : Nat) (kernel timer : Value) (times index : TypedId)
    (operands : List TypedId) : List Event :=
  [m.start.made "func.CallOp" (some body) [timer, .listed []],
   m.run.made "func.CallOp" (some body) [kernel, .listed (operands.map value)],
   m.stop.made "func.CallOp" (some body) [timer, .listed []], m.taken.made "arith.SubIOp"
     (some body) [.op m.stop.id "func.CallOp", .op m.start.id "func.CallOp"],
   m.store.made "memref.StoreOp" (some body)
     [.op m.taken.id "arith.SubIOp", times.value, .listed [index.value]],
   m.yield.made "scf.YieldOp" (some body) [.listed (m.run.results.map value)]]

def measure (kernel timer times : Value) (fixed : List Value) (body : Nat) : Build Unit := do
  let inner ← blockArgs body
  let start ← callOp timer [.listed []]
  let run ← callOp kernel [.listed (fixed ++ inner.drop 1)]
  let stop ← callOp timer [.listed []]
  let taken ← native "arith" "SubIOp" [stop, start]
  let _ ← native "memref" "StoreOp" [taken, times, .listed (inner.take 1)]
  let _ ← native "scf" "YieldOp" [.listed (← results run)]

private theorem adds_yieldOp {place : Option Nat} (hplace : s.current = place)
    (ids : List TypedId) :
    Adds (native "scf" "YieldOp" [.listed (ids.map value)]) s place "scf.YieldOp"
      [.listed (ids.map value)] [] := by
  refine adds_native hplace rfl (by simp) ?_
  cases ids with
  | nil => rfl
  | cons v ids => rfl

private theorem exec_measure {type : String} {index : TypedId} {carried : List TypedId} {body : Nat}
    (hkernel : s.IsFunction kernel inputs outputs) (htimer : s.IsFunction timer [] [type])
    (hcurrent : s.current = some body) (hargs : (s.blockOf body).args = index :: carried)
    (kernelClass timerClass : String) (times : TypedId) (fixed : List TypedId) :
    ∃ (m : Measurement) (t : Session),
      (measure (.op kernel kernelClass) (.op timer timerClass) times.value
        (fixed.map value) body).exec s =
        (.ok (), t) ∧
      s.Appends t (m.events body (.op kernel kernelClass)
        (.op timer timerClass) times index (fixed ++ carried)) ∧
      m.run.results.map TypedId.type = outputs := by
  have hread : (blockArgs body).exec s = (.ok ((index :: carried).map value), s) := by
    rw [blockArgs, exec_bind_ok (exec_get s), hargs]
    rfl
  obtain ⟨start, s₁, hstart, happ₁, -, hplace₁⟩ := adds_callOp htimer hcurrent timerClass []
  obtain ⟨run, s₂, hrun, happ₂, hgives₂, hplace₂⟩ :=
    adds_callOp (hkernel.later happ₁) hplace₁ kernelClass (fixed ++ carried)
  obtain ⟨stop, s₃, hstop, happ₃, hgives₃, hplace₃⟩ :=
    adds_callOp ((htimer.later happ₁).later happ₂) hplace₂ timerClass []
  have hdifference :
      (nativeResults "SubIOp" [.op stop.id "func.CallOp", .op start.id "func.CallOp"]).exec s₃ =
      (.ok [type], s₃) := exec_bind_ok (hgives₃.exec_typeOf "func.CallOp")
  obtain ⟨taken, s₄, htaken, happ₄, -, hplace₄⟩ : Adds (native "arith" "SubIOp" _) s₃ (some body)
      "arith.SubIOp" _ _ := adds_native hplace₃ rfl (by simp) hdifference
  obtain ⟨store, s₅, hstore, happ₅, -, hplace₅⟩ : Adds (native "memref" "StoreOp"
      [.op taken.id "arith.SubIOp", times.value, .listed [index.value]]) s₄
        (some body) "memref.StoreOp" _ [] :=
    adds_native hplace₄ rfl (by simp) rfl
  obtain ⟨yield, s₆, hyield, happ₆, -, -⟩ := adds_yieldOp hplace₅ run.results
  have hresults := (((hgives₂.later happ₃).later happ₄).later happ₅).exec_results "func.CallOp"
  refine ⟨⟨start, run, stop, taken, store, yield⟩, s₆, ?_,
    ((((happ₁.trans happ₂).trans happ₃).trans happ₄).trans happ₅).trans happ₆, hgives₂.types_eq⟩
  rw [map_nil] at hstart hstop
  rw [map_append] at hrun
  rw [measure, exec_bind_ok hread, exec_bind_ok hstart]
  refine (exec_bind_ok hrun).trans ?_
  rw [exec_bind_ok hstop, exec_bind_ok htaken]
  refine (exec_bind_ok hstore).trans ?_
  rw [exec_bind_ok hresults, exec_bind_ok hyield]
  rfl

/-! ## The loop -/

/-- What the loop of a wrapper is made of, with the values that it carries. -/
structure TimedLoop where
  zero : Operation
  runs : Operation
  one : Operation
  loop : Operation
  body : Nat
  point : Nat
  index : TypedId
  carried : List TypedId
  measurement : Measurement
  finish : Operation

def loopArgs (zero runs one : Operation) (initial : List TypedId) : List Value :=
  [.op zero.id "arith.ConstantOp", .op runs.id "memref.DimOp", .op one.id "arith.ConstantOp"] ++
    if initial.isEmpty then [] else [.listed (initial.map value)]

/-- The parameters are those of the kernel and a buffer of times.  The loop begins with the last
ones of the kernel, and the kernel is called with the others and what the loop carries. -/
def TimedLoop.events (l : TimedLoop) (entry : Nat) (kernel timer : Value)
    (front : List TypedId) (times : TypedId) (n : Nat) : List Event :=
  [l.zero.made "arith.ConstantOp" (some entry) [.type "index", .int 0],
   l.runs.made "memref.DimOp" (some entry) [times.value, .op l.zero.id "arith.ConstantOp"],
   l.one.made "arith.ConstantOp" (some entry) [.type "index", .int 1], l.loop.made "scf.ForOp"
     (some entry) (loopArgs l.zero l.runs l.one (front.drop (front.length - n))),
   .block l.body l.loop.id 0 ((l.index :: l.carried).map value),
   .enter ⟨l.point, l.body⟩] ++
  l.measurement.events l.body kernel timer times l.index
    (front.take (front.length - n) ++ l.carried) ++
  [.exit ⟨l.point, l.body⟩ ⟨l.point, l.body⟩,
   l.finish.made "func.ReturnOp" (some entry) [.op l.loop.id "scf.ForOp"]]

/-- The types of what the loop carries, of what the kernel gives and of what the loop gives. -/
structure TimedLoop.Fits (l : TimedLoop) (carried outputs : List String) : Prop where
  carried_types : l.carried.map type = carried
  run_types : l.measurement.run.results.map type = outputs
  loop_types : l.loop.results.map type = carried

def loopOf (kernel timer : Value) (n entry : Nat) : Build Unit := do
  let args ← blockArgs entry
  let times := args.getLastD .none
  let zero ← indexConstantOp (.int 0)
  let runs ← native "memref" "DimOp" [times, zero]
  let one ← indexConstantOp (.int 1)
  let loop ← forOp zero runs one (carriedPart n args)
  let body ← blockAt (← opId loop) 0 0
  within body (measure kernel timer times (fixedPart n args) body)
  let _ ← native "func" "ReturnOp" [loop]

private theorem wrapperFunc_eq (kernel timer : Value) : wrapperFunc kernel timer = (do
    let id ← functionId kernel
    let (_, outputs) := signature (← functionTypeOf id)
    let inputs ← (← blockArgs (← entryBlock id)).mapM memberType
    let made ← funcOp (.str "main")
      (.tuple [.listed (inputs ++ [.type (ranked "memref" [outputs.length.repr] "i64")]),
        .listed (outputs.map Value.type)]) (.str "public")
    let main ← opId made
    setAttribute main "llvm.emit_c_interface" AttributeBuilder.unit
    let entry ← addEntryBlock main
    within entry (loopOf kernel timer outputs.length entry)
    return made) := rfl

private theorem map_frozen_loopArgs (zero runs one : Operation) (initial : List TypedId) :
    (loopArgs zero runs one initial).map s.frozen = loopArgs zero runs one initial := by
  unfold loopArgs
  split <;> simp

private theorem exec_forOp {place : Option Nat} (hplace : s.current = place)
    (zero runs one : Operation) (initial : List TypedId) :
    ∃ (loop : Operation) (body : Nat) (index : TypedId) (carried : List TypedId) (t : Session),
      (forOp (.op zero.id "arith.ConstantOp")
        (.op runs.id "memref.DimOp") (.op one.id "arith.ConstantOp")
        (initial.map value)).exec s = (.ok (.op loop.id "scf.ForOp"), t) ∧
      s.Appends t [loop.made "scf.ForOp" place (loopArgs zero runs one initial),
        .block body loop.id 0 ((index :: carried).map value)] ∧
      (blockAt loop.id 0 0).exec t = (.ok body, t) ∧ (t.blockOf body).args = index :: carried ∧
      loop.results.map type = initial.map type ∧
      carried.map type = initial.map type := by
  subst hplace
  let types := initial.map type
  let args := loopArgs zero runs one initial
  let made := s.create (s.newOp "scf.ForOp" "scf.ForOp" args [] types 1) (.native args [])
  have hmade : (nativeWith "scf" "ForOp" args [] types 1 []).exec s =
      (.ok (.op s.ops.length "scf.ForOp"), made) :=
    exec_nativeWith_of_frozen rfl (map_frozen_loopArgs zero runs one initial) types 1
  have hblocks : made.blocks.length = s.blocks.length := length_blocks_create ..
  have happends := (Appends.create s (s.newOp "scf.ForOp" "scf.ForOp" args [] types 1)
    (.native args [])).trans (.addBlock made s.ops.length 0 ("index" :: types))
  have hblock := made.blockOf_addBlock_self s.ops.length 0 ("index" :: types)
  rw [hblocks] at happends hblock
  refine ⟨s.nextOp types, s.blocks.length, ⟨made.values, "index"⟩, typedIds (made.values + 1) types,
    made.addBlock s.ops.length 0 ("index" :: types), ?_, happends,
      exec_blockAt_create rfl _ _, ?_, map_type_typedIds _ _, map_type_typedIds _ _⟩
  · have hempty : (initial.map value).isEmpty = initial.isEmpty := by simp
    rw [forOp, mapM_typeOf, pure_bind, hempty]
    refine (exec_bind_ok hmade).trans ?_
    rw [exec_bind_ok (exec_opId ..), exec_bind_ok (exec_appendBlock ..), exec_pure]
    rfl
  · rw [hblock]
    rfl

private theorem exec_loopOf {type : String} {front : List TypedId}
    {times : TypedId} {entry : Nat} (hkernel : s.IsFunction kernel inputs outputs)
    (htimer : s.IsFunction timer [] [type]) (hcurrent : s.current = some entry)
    (hargs : (s.blockOf entry).args = front ++ [times]) (kernelClass timerClass : String) :
    ∃ (l : TimedLoop) (t : Session),
      (loopOf (.op kernel kernelClass) (.op timer timerClass) outputs.length entry).exec s =
        (.ok (), t) ∧
      s.Appends t (l.events entry (.op kernel kernelClass)
        (.op timer timerClass) front times outputs.length) ∧
      l.Fits ((front.drop (front.length - outputs.length)).map TypedId.type) outputs := by
  have hread : (blockArgs entry).exec s = (.ok (front.map value ++ [times.value]), s) := by
    rw [blockArgs, exec_bind_ok (exec_get s), hargs, map_append]
    rfl
  obtain ⟨zero, s₁, hzero, happ₁, -, hplace₁⟩ := adds_constantOp hcurrent 0
  obtain ⟨runs, s₂, hruns, happ₂, -, hplace₂⟩ : Adds (native "memref" "DimOp"
      [times.value, .op zero.id "arith.ConstantOp"]) s₁ (some entry) "memref.DimOp" _ ["index"] :=
    adds_native hplace₁ rfl (by simp) rfl
  obtain ⟨one, s₃, hone, happ₃, -, hplace₃⟩ := adds_constantOp hplace₂ 1
  obtain ⟨loop, body, index, carried, s₄, hloop, happ₄, hbody, hinner, hresults, hcarried⟩ :=
    exec_forOp hplace₃ zero runs one (front.drop (front.length - outputs.length))
  have happ := ((happ₁.trans happ₂).trans happ₃).trans happ₄
  obtain ⟨m, u, hmeasure, happm, hrun⟩ := exec_measure ((hkernel.later happ).entered body)
    ((htimer.later happ).entered body) rfl hinner kernelClass timerClass times
    (front.take (front.length - outputs.length))
  obtain ⟨s₅, hwithin, happ₅⟩ := Appends.within hmeasure happm
  have hplace₅ : s₅.current = some entry := happ₅.current_eq.trans (happ₄.current_eq.trans hplace₃)
  obtain ⟨finish, s₆, hfinish, happ₆, -, -⟩ :
      Adds (native "func" "ReturnOp" [.op loop.id "scf.ForOp"]) s₅
      (some entry) "func.ReturnOp" _ [] := adds_native hplace₅ rfl (by simp) rfl
  refine ⟨⟨zero, runs, one, loop, body, s₄.points, index, carried, m, finish⟩, s₆, ?_,
    (happ.trans happ₅).trans happ₆, ⟨hcarried, hrun, hresults⟩⟩
  rw [map_drop] at hloop
  rw [map_take] at hwithin
  rw [loopOf, exec_bind_ok hread]
  simp only [getLastD_concat, carriedPart_concat, fixedPart_concat, length_map]
  rw [exec_bind_ok hzero, exec_bind_ok hruns, exec_bind_ok hone, exec_bind_ok hloop,
    exec_bind_ok (exec_opId ..), exec_bind_ok hbody, exec_bind_ok hwithin, exec_bind_ok hfinish]
  rfl

/-! ## The function around it -/

structure Wrapper extends TimedLoop where
  main : Nat
  entry : Nat
  outer : Nat
  front : List TypedId
  times : TypedId

def timesType (n : Nat) : String := ranked "memref" [n.repr] "i64"

def mainNames (inputs outputs : List String) : List (String × Value) :=
  [("name", .str "main"), ("type", .type (function inputs outputs)),
    ("visibility", .str "public")]

def Wrapper.events (w : Wrapper) (place : Option Nat) (kernel timer : Value)
    (inputs outputs : List String) : List Event :=
  [.create w.main "func.FuncOp" place []
    (.native [] (mainNames (inputs ++ [timesType outputs.length]) outputs)),
   .block w.entry w.main 0 ((w.front ++ [w.times]).map value)] ++
  ([.enter ⟨w.outer, w.entry⟩] ++ w.toTimedLoop.events w.entry
    kernel timer w.front w.times outputs.length ++ [.exit ⟨w.outer, w.entry⟩ ⟨w.outer, w.entry⟩])

def mainOp (s : Session) (inputs outputs : List String) (more : List (String × Value)) : OpRecord :=
  s.newOp "func.FuncOp" "func.FuncOp" [] ([("sym_name", .attribute "StringAttr" (.str "main")),
    ("function_type", .attribute "TypeAttr" (.type (function inputs outputs)))] ++ more) []
      1

private theorem exec_funcOp (inputs outputs : List String) (s : Session) :
    (funcOp (.str "main")
      (.tuple [.listed (inputs.map Value.type), .listed (outputs.map Value.type)])
      (.str "public")).exec s =
      (.ok (.op s.ops.length "func.FuncOp"),
        s.create (mainOp s inputs outputs []) (.native [] (mainNames inputs outputs))) := by
  have htype :
      functionType (.tuple [.listed (inputs.map Value.type), .listed (outputs.map Value.type)]) =
      pure (.type (function inputs outputs)) := by
    have hitems (vs : List Value) : items (.listed vs) = pure vs := rfl
    rw [functionType]
    simp only [hitems, typeTexts_map_type, pure_bind]
  have hnames : (mainNames inputs outputs).map (fun entry => (entry.1, s.frozen entry.2)) =
      mainNames inputs outputs := by
    simp [mainNames, frozen, freeze, Value.expand]
  rw [funcOp, htype, pure_bind, exec_nativeWith, ← mainNames, hnames]
  rfl

def mainMade (s : Session) (inputs outputs : List String) : Session :=
  s.create (mainOp s inputs outputs [("llvm.emit_c_interface", AttributeBuilder.unit)])
    (.native [] (mainNames inputs outputs))

private theorem modify_concat {α : Type} (l : List α) (a : α) (f : α → α) :
    (l ++ [a]).modify l.length f = l ++ [f a] := by
  induction l with
  | nil => rfl
  | cons b l ih => exact congrArg (b :: ·) ih

private theorem exec_setAttribute_main (s : Session) (inputs outputs : List String) :
    (setAttribute s.ops.length "llvm.emit_c_interface" AttributeBuilder.unit).exec
      (s.create (mainOp s inputs outputs []) (.native [] (mainNames inputs outputs))) =
        (.ok (), mainMade s inputs outputs) := by
  have hops := modify_concat s.ops (mainOp s inputs outputs []) fun o =>
    { o with attributes := Table.put "llvm.emit_c_interface" AttributeBuilder.unit o.attributes }
  exact congrArg (fun ops => (Except.ok (), { mainMade s inputs outputs with ops })) hops

private theorem isFunction_mainMade (hinputs : ∀ t ∈ inputs, IsType t)
    (houtputs : ∀ t ∈ outputs, IsType t) (s : Session) :
    (mainMade s inputs outputs).IsFunction s.ops.length inputs outputs where
  attribute_eq := by
    rw [mainMade, op_create_self]
    exact ⟨_, rfl, rfl⟩
  inputs_types := hinputs
  outputs_types := houtputs

private theorem length_blocks_mainMade (s : Session) (inputs outputs : List String) :
    (mainMade s inputs outputs).blocks.length = s.blocks.length := length_blocks_create ..

/-- An operation is a function with these parameters, and has a body. -/
structure IsKernel (s : Session) (id : Nat) (inputs outputs : List String) : Prop extends
    s.IsFunction id inputs outputs where
  entry_eq : ∃ b rest, s.regionBlocks id 0 = b :: rest ∧
    (s.blockOf b).args.map type = inputs

private theorem IsKernel.exec_entry (h : IsKernel s kernel inputs outputs) :
    ∃ (b : Nat) (ids : List TypedId),
      (entryBlock kernel).exec s = (.ok b, s) ∧
        (blockArgs b).exec s = (.ok (ids.map value), s) ∧
        ids.map type = inputs := by
  obtain ⟨b, rest, hblocks, hargs⟩ := h.entry_eq
  refine ⟨b, (s.blockOf b).args, ?_, rfl, hargs⟩
  rw [entryBlock, blockAt, exec_bind_ok (exec_get s), hblocks]
  rfl

/-- The wrapper has the parameters of the kernel and a buffer of times, and its loop carries as many
values as the kernel has results. -/
structure Wrapper.Wraps (w : Wrapper) (inputs outputs : List String) : Prop extends
    w.toTimedLoop.Fits (inputs.drop (inputs.length - outputs.length)) outputs where
  front_types : w.front.map type = inputs
  times_type : w.times.type = timesType outputs.length
  length_front : w.front.length = inputs.length
  length_carried : w.carried.length = outputs.length

private theorem exec_functionId {cls : String} (hcls : cls ∈ ["func.FuncOp", "gpu.FuncOp"])
    (id : Nat) (s : Session) :
    (functionId (.op id cls)).exec s = (.ok id, s) := by
  simp only [mem_cons, not_mem_nil, or_false] at hcls
  obtain rfl | rfl := hcls
  · rfl
  · rfl

/-- The step makes the wrapper of a kernel, and records nothing else. -/
def BuildsWrapper (step : Build Value) (s : Session) (kernel timer : Value)
    (inputs outputs : List String) : Prop :=
  ∃ (w : Wrapper) (t : Session), step.exec s = (.ok (.op w.main "func.FuncOp"), t) ∧
    s.Records t (w.events s.current kernel timer inputs outputs) ∧ w.Wraps inputs outputs

def wrapperParams : List Param := [.required "kernel_func", .required "timer_func"]

/-- The wrapper of a kernel is built whenever the kernel has as many parameters as results, or more.
It calls the kernel with its own parameters and what its loop carries, each in place, between two
calls of the timer. -/
theorem wraps_kernel {args : CallArgs Value} {kernelClass timerClass type : String}
    (hargs : bindParams wrapperParams args = .ok [.op kernel kernelClass, .op timer timerClass])
    (hcls : kernelClass ∈ ["func.FuncOp", "gpu.FuncOp"])
      (hkernel : IsKernel s kernel inputs outputs) (htimer : s.IsFunction timer [] [type])
      (hle : outputs.length ≤ inputs.length) (call : Caller) :
    BuildsWrapper (Library.callPath call "benchmark.emit_benchmark_wrapped_main_func" args) s
      (.op kernel kernelClass) (.op timer timerClass) inputs outputs := by
  have hcall : Library.callPath call "benchmark.emit_benchmark_wrapped_main_func" args = _ :=
    Library.callPath_of_fixed rfl hargs call
  have hcall : Library.callPath call "benchmark.emit_benchmark_wrapped_main_func" args =
    wrapperFunc (.op kernel kernelClass) (.op timer timerClass) := hcall
  let types := inputs ++ [timesType outputs.length]
  have htypes : ∀ t ∈ types, IsType t := by
    rw [forall_mem_append, forall_mem_singleton]
    exact ⟨hkernel.inputs_types, isType_times outputs.length⟩
  let times : TypedId := ⟨s.values + inputs.length, timesType outputs.length⟩
  have hparams : typedIds s.values types = typedIds s.values inputs ++ [times] := typedIds_append ..
  let made := (mainMade s types outputs).addBlock s.ops.length 0 types
  have happ : s.Appends made _ :=
    (Appends.create ..).trans (.addBlock (mainMade s types outputs) s.ops.length 0 types)
  have hentry := (isFunction_mainMade htypes hkernel.outputs_types s).exec_addEntryBlock (by
    rw [mainMade, op_create_self]
    rfl)
  have hargs := (mainMade s types outputs).blockOf_addBlock_self s.ops.length 0 types
  rw [length_blocks_mainMade] at hentry hargs happ
  have hread : ((made.entered s.blocks.length).blockOf s.blocks.length).args =
      typedIds s.values inputs ++ [times] :=
    (congrArg BlockRecord.args hargs).trans hparams
  obtain ⟨l, u, hloop, happl, hfits⟩ :=
    exec_loopOf ((hkernel.toIsFunction.later happ).entered s.blocks.length)
    ((htimer.later happ).entered s.blocks.length) rfl hread kernelClass timerClass
  obtain ⟨t, hwithin, happ'⟩ := Appends.within hloop happl
  obtain ⟨b, ids, hblock, hids, hinputs⟩ := hkernel.exec_entry
  have hfront : (typedIds s.values inputs).length = inputs.length := by simp
  rw [map_drop, map_type_typedIds, hfront] at hfits
  refine ⟨⟨l, s.ops.length, s.blocks.length, made.points, typedIds s.values inputs, times⟩, t, ?_,
    (hparams ▸ happ.trans happ').toRecords, ⟨hfits, map_type_typedIds _ _, rfl, hfront, ?_⟩⟩
  · have hmain := exec_funcOp types outputs s
    rw [map_append] at hmain
    rw [hcall, wrapperFunc_eq, exec_bind_ok (exec_functionId hcls kernel s),
      exec_bind_ok hkernel.exec_functionTypeOf, hkernel.signature_eq]
    simp only
    rw [exec_bind_ok hblock, exec_bind_ok hids, mapM_memberType, pure_bind, hinputs]
    refine (exec_bind_ok hmain).trans ?_
    rw [exec_bind_ok (exec_opId ..), exec_bind_ok (exec_setAttribute_main ..),
      exec_bind_ok hentry, exec_bind_ok hwithin, exec_pure]
  · have hlength := congrArg List.length hfits.carried_types
    rw [length_map, length_drop, Nat.sub_sub_self hle] at hlength
    exact hlength

def scaleInputs : List String := ["f64", "tensor<8xf64>", "memref<4x4xf32, strided<[4, 1]>>"]

def scaleOutputs : List String := ["tensor<8xf64>", "memref<4x4xf32, strided<[4, 1]>>"]

def scaleSession : Session :=
  { values := 3
    ops := [
      ⟨"func.FuncOp", "func.FuncOp", none, [], [], [("function_type",
        .attribute "TypeAttr" (.type (function scaleInputs scaleOutputs)))], [[0]]⟩,
      ⟨"func.FuncOp", "func.FuncOp", none, [], [],
        [("function_type", .attribute "TypeAttr" (.type (function [] ["i64"])))], [[]]⟩]
    blocks := [⟨0, 0, typedIds 0 scaleInputs, []⟩] }

theorem scale_wrapped :
    IsKernel scaleSession 0 scaleInputs scaleOutputs ∧ scaleSession.IsFunction 1 [] ["i64"] ∧
    BuildsWrapper (Library.callPath (Script.callWithin 0)
      "benchmark.emit_benchmark_wrapped_main_func"
      ⟨[.op 0 "func.FuncOp", .op 1 "func.FuncOp"], []⟩) scaleSession
        (.op 0 "func.FuncOp") (.op 1 "func.FuncOp")
      scaleInputs scaleOutputs := by
  have hkernel : IsKernel scaleSession 0 scaleInputs scaleOutputs :=
    { attribute_eq := ⟨_, rfl, rfl⟩
      inputs_types := by decide +kernel
      outputs_types := by decide +kernel
      entry_eq := ⟨0, [], rfl, rfl⟩ }
  have htimer : scaleSession.IsFunction 1 [] ["i64"] :=
    ⟨⟨_, rfl, rfl⟩, by decide, by decide +kernel⟩
  exact ⟨hkernel, htimer, wraps_kernel rfl (by decide) hkernel htimer
    (by decide) (Script.callWithin 0)⟩

end Benchmark

end Polyloom
