import Mathlib
import Polyloom.Proofs.Builder.Slice
import Polyloom.Proofs.Text.Occurrence
import Polyloom.Proofs.Text.Pieces

/-!
# Types of padded tensors

A padded tensor has the sizes of its source, each with the padding below and above it.  Unknown
sizes are added to as well, although a marker stands for them.  So they stay unknown only if their
padding adds up to nothing.
-/

namespace Polyloom

open Build List TypeText Session Value

/-! ## Sizes in types -/

namespace TypeText

theorem isDigit_or_of_mem_repr {n : Int} {c : Char} (h : c ∈ n.repr.toList) :
    c.isDigit = true ∨ c = '-' := by
  rw [Int.repr_eq_if] at h
  split at h
  · exact .inl (Text.isDigit_of_mem_repr h)
  · rw [String.toList_append, mem_append] at h
    rcases h with h | h
    · exact .inr (by simpa using h)
    · exact .inl (Text.isDigit_of_mem_repr h)

private theorem not_mem_sizeText (n : Int) : 'x' ∉ (sizeText n).toList := by
  rw [sizeText]
  split
  · decide
  · exact fun h => absurd (isDigit_or_of_mem_repr h) (by decide)

private theorem sizeText_injective : Function.Injective sizeText := by
  have hmark (k : Int) : k.repr ≠ "?" := by
    intro hk
    have hmem : '?' ∈ k.repr.toList := by simp [hk]
    exact absurd (isDigit_or_of_mem_repr hmem) (by decide)
  intro m n h
  rw [sizeText, sizeText] at h
  split at h <;> split at h
  · simp_all
  · exact absurd h.symm (hmark n)
  · exact absurd h (hmark m)
  · exact Option.some.inj (by rw [← Int.toInt?_repr m, h, Int.toInt?_repr])

private theorem splitOn_sizes (sizes : List Int) (element : String) :
    Text.splitOn (String.join ((sizes.map sizeText).map (· ++ "x")) ++ element) "x" =
      sizes.map sizeText ++ Text.splitOn element "x" := by
  induction sizes with
  | nil => simp
  | cons n sizes ih =>
    rw [map_cons, map_cons, String.join_cons, String.append_assoc,
      Text.splitOn_append_cons (a := 'x') rfl (not_mem_sizeText n), ih, cons_append]

private theorem tensor_inj {a b : List Int} {element : String}
    (h : tensor a element = tensor b element) : a = b := by
  simp only [tensor, ranked, String.append_left_inj, String.append_right_inj] at h
  have hpieces := congrArg (fun front => Text.splitOn (front ++ element) "x") h
  simp only [splitOn_sizes] at hpieces
  exact sizeText_injective.list_map (append_cancel_right hpieces)

end TypeText

inductive Dimension where
  | static (n : Int)
  | dynamic
  deriving DecidableEq

namespace Dimension

def ofSize (n : Int) : Dimension := if n = dynamicSize then .dynamic else .static n

def pad : Dimension → Int × Int → Dimension
  | static n, p => static (n + p.1 + p.2)
  | dynamic, _ => dynamic

end Dimension

namespace Tensor

variable {sizes ls hs : List Int} {s t : Session} {v padding low high : Value} {source : HeldValue}
  {P Q : List Int → Prop}

def addPadding (n : Int) (p : Int × Int) : Int := n + p.1 + p.2

/-- Padding that leaves an unknown size unknown and a known one known. -/
def KeepsKind (n : Int) (p : Int × Int) : Prop :=
  if n = dynamicSize then p.1 + p.2 = 0 else n + p.1 + p.2 ≠ dynamicSize

private theorem ofSize_addPadding_iff (n : Int) (p : Int × Int) :
    Dimension.ofSize (addPadding n p) = (Dimension.ofSize n).pad p ↔ KeepsKind n p := by
  rw [KeepsKind, addPadding, Dimension.ofSize, Dimension.ofSize]
  split_ifs <;> simp [Dimension.pad] <;> omega

theorem map_ofSize_iff (ns : List Int) (ps : List (Int × Int)) :
    (zipWith addPadding ns ps).map Dimension.ofSize =
      zipWith Dimension.pad (ns.map Dimension.ofSize) ps ↔
      ∀ e ∈ ns.zip ps, KeepsKind e.1 e.2 := by
  induction ns generalizing ps with
  | nil => simp
  | cons n ns ih =>
    cases ps with
    | nil => simp
    | cons p ps =>
      rw [zipWith_cons_cons, map_cons, map_cons, zipWith_cons_cons, cons.injEq,
        ofSize_addPadding_iff, ih, zip_cons_cons, forall_mem_cons]

private theorem mapM_zipIdx_eq {f : Int × Nat → Build Int} {ps : List (Int × Int)} {k : Nat}
    (hlength : ps.length = sizes.length)
    (hf : ∀ i p, ps[i]? = some p → ∀ n, f (n, k + i) = pure (addPadding n p)) :
    (sizes.zipIdx k).mapM f = pure (zipWith addPadding sizes ps) := by
  induction sizes generalizing ps k with
  | nil => rfl
  | cons n sizes ih =>
    cases ps with
    | nil => cases hlength
    | cons p ps =>
      have hrest := ih (k := k + 1) (Nat.succ.inj hlength) fun i q hq m => by
        rw [Nat.add_assoc, Nat.add_comm 1 i]
        exact hf (i + 1) q hq m
      have hfirst := hf 0 p rfl n
      rw [Nat.add_zero] at hfirst
      rw [zipIdx_cons, mapM_cons, hfirst, pure_bind, hrest, pure_bind, zipWith_cons_cons]

private theorem paddedSizes_eq (hls : ls.length = sizes.length) (hhs : hs.length = sizes.length) :
    paddedSizes sizes (ls.map .int) (hs.map .int) =
      pure (zipWith addPadding sizes (ls.zip hs)) := by
  refine mapM_zipIdx_eq (by simp [hls, hhs]) fun i p hp n => ?_
  obtain ⟨hl, hh⟩ := getElem?_zip_eq_some.mp hp
  simp [hl, hh, int?, addPadding]

/-! ## Making padded tensors -/

private theorem exec_literals {ns : List Int} (h : s.Enumerates (ns.map .int) v) (name : String) :
    (literals name v).exec s = (.ok (ns.map .int), s) := by
  have hnow : (now v).exec s = (.ok (s.frozen v), s) := rfl
  have hall : (ns.map int).all isInt = true := by simp [isInt, int?]
  rw [literals, exec_bind_ok h.exec_items, exec_bind_ok hnow, hall]
  rfl

structure RecordedPad where
  type : String
  low : Value
  high : Value
  id : Nat
  out : Nat
  block : Nat
  args : List Value
  point : Nat
  yield : Nat
  padding : Value

def RecordedPad.events (l : RecordedPad) (source : Value) (place : Option Nat) : List Event :=
  [.create l.id "tensor.PadOp" place [.ssa l.out l.type .plain]
     (.native [.type l.type, source, .listed [], .listed []]
       [("static_low", l.low), ("static_high", l.high)]),
   .block l.block l.id 0 l.args, .enter ⟨l.point, l.block⟩,
   .create l.yield "tensor.YieldOp" (some l.block) [] (.native [l.padding] []),
   .exit ⟨l.point, l.block⟩ ⟨l.point, l.block⟩]

private theorem leadingTypes_of_plain (h : isProgramValue v = true ∨ v.isNumber = true) :
    leadingTypes [v] = pure [] ∧ ∀ u : Session, u.frozen v = v := by
  cases v with
  | ssa | op | int | bool | real =>
    simp [leadingTypes, listedTypes, frozen, freeze, expand]
  | _ => simp [isProgramValue, isNumber] at h

private theorem exec_paddingValue (h : isProgramValue padding = true ∨ padding.isNumber = true)
    (element : String) (s : Session) : ∃ v t es,
      (if isProgramValue padding then pure padding else Arith.constant padding (.type element)).exec
        s = (.ok v, t) ∧
      s.Records t es ∧ Resolves element (fun v => !isProgramValue v) [padding] es [v] ∧
      leadingTypes [v] = pure [] ∧ ∀ u : Session, u.frozen v = v := by
  obtain ⟨hleading, hfrozen⟩ := leadingTypes_of_plain h
  cases hp : isProgramValue padding with
  | true => exact ⟨padding, s, [], rfl, .refl s, .kept (by simp [hp]) .nil, hleading, hfrozen⟩
  | false =>
    have hrecords := Records.create s
      (s.newOp "arith.ConstantOp" "arith.ConstantOp" [.type element, padding] [] [element] 0)
      (.native ([type element, padding].map s.frozen) [])
    have hargs : [type element, padding].map s.frozen = [.type element, padding] := by
      simp [hfrozen]
    rw [hargs] at hrecords
    have hmade := Arith.exec_constant_of_leadingTypes hleading element s
    rw [createNative, hargs] at hmade
    exact ⟨_, _, _, hmade, hrecords, .constant _ _ _ (by simp [hp]) .nil,
      leadingTypes_of_plain (.inl rfl)⟩

def padOf (type : String) (source low high padding : Value) (rank : Nat) : Build Value := do
  let made ← native "tensor" "PadOp" [.type type, source, .listed [], .listed []]
    [("static_low", low), ("static_high", high)]
  let block ← appendBlock (← opId made) 0 (replicate rank "index")
  within block do
    let _ ← native "tensor" "YieldOp" [padding]
  result made

private theorem exec_within_yield (hv : leadingTypes [v] = pure [])
    (hfrozen : ∀ u : Session, u.frozen v = v) (s : Session) (b : Nat) :
    ∃ t, (within b do let _ ← native "tensor" "YieldOp" [v]).exec s = (.ok (), t) ∧
      t.events = s.events ++
        [.enter ⟨s.points, b⟩, .create s.ops.length "tensor.YieldOp" (some b) [] (.native [v] []),
        .exit ⟨s.points, b⟩ ⟨s.points, b⟩] ∧
      ∀ id < s.ops.length, t.op id = s.op id := by
  have hresults : (nativeResults "YieldOp" [v]).exec (s.entered b) = (.ok [], s.entered b) := by
    have hnative : nativeResults "YieldOp" [v] = leadingTypes [v] := rfl
    rw [hnative, hv, exec_pure]
  have hmade : (native "tensor" "YieldOp" [v]).exec (s.entered b) = _ :=
    (exec_bind_ok hresults).trans (exec_nativeWith ..)
  rw [map_singleton, hfrozen] at hmade
  refine ⟨_, exec_within (exec_bind_ok hmade) rfl, ?_, fun id hid => ?_⟩
  · simp [create, entered, newOp, current, typedIds]
  · exact op_create_of_lt (s := s.entered b) hid _ (.native [v] [])

private theorem exec_result_of_op {id out : Nat} {type : String}
    (h : (s.op id).results = [⟨out, type⟩]) (cls : String) :
    (result (.op id cls)).exec s = (.ok (.ssa out type .plain), s) := by
  have hop : (Build.op id).exec s = (.ok (s.op id), s) := rfl
  rw [result, asValue, exec_bind_ok hop, h]
  rfl

def padArgs (type : String) (source : HeldValue) : List Value :=
  [.type type, source.value, .listed [], .listed []]

def padCreated (s : Session) (type : String) (source : HeldValue) (low high : Value) : Session :=
  s.create (s.newOp "tensor.PadOp" "tensor.PadOp" (padArgs type source) [] [type] 1)
    (.native (padArgs type source) [("static_low", s.frozen low), ("static_high", s.frozen high)])

private theorem exec_native_pad (s : Session) (type : String)
    (source : HeldValue) (low high : Value) :
    (native "tensor" "PadOp" (padArgs type source)
      [("static_low", low), ("static_high", high)]).exec s =
      (.ok (.op s.ops.length "tensor.PadOp"), padCreated s type source low high) := by
  have hresults : (nativeResults "PadOp" (padArgs type source)).exec s = (.ok [type], s) := rfl
  have hargs : (padArgs type source).map s.frozen = padArgs type source := by
    simp [padArgs, HeldValue.value]
  rw [native, exec_bind_ok hresults, exec_nativeWith, hargs]
  rfl

private theorem exec_padOf (hv : leadingTypes [v] = pure [])
    (hfrozen : ∀ u : Session, u.frozen v = v) (type : String)
    (source : HeldValue) (low high : Value) (rank : Nat) :
    ∃ (l : RecordedPad) (t : Session),
      (padOf type source.value low high v rank).exec s = (.ok (.ssa l.out type .plain), t) ∧
      t.events = s.events ++ l.events source.value s.current ∧
        l.type = type ∧ l.low = s.frozen low ∧
      l.high = s.frozen high ∧ l.padding = v ∧ l.args.length = rank ∧
      ∀ v ∈ l.args, ∃ id, v = .ssa id "index" .plain := by
  have hblock :=
    exec_appendBlock s.ops.length 0 (replicate rank "index") (padCreated s type source low high)
  have hblocks : (padCreated s type source low high).blocks.length = s.blocks.length := by
    simp [padCreated]
  rw [hblocks] at hblock
  obtain ⟨t, hyield, hevents, hops⟩ := exec_within_yield hv hfrozen
    ((padCreated s type source low high).addBlock s.ops.length 0 (replicate rank "index"))
      s.blocks.length
  have hout : (t.op s.ops.length).results = [⟨s.values, type⟩] := by
    rw [hops _ (by simp [padCreated]), op_addBlock_self (by simp [padCreated]), padCreated,
      op_create_self]
    rfl
  refine ⟨⟨type, s.frozen low, s.frozen high, s.ops.length, s.values, s.blocks.length,
    (typedIds (s.values + 1) (replicate rank "index")).map TypedId.value, s.points,
    ((padCreated s type source low high).addBlock s.ops.length 0
      (replicate rank "index")).ops.length, v⟩, t,
    ?_, ?_, rfl, rfl, rfl, rfl, by simp, fun v hv => exists_id_of_mem_typedIds hv⟩
  · rw [padOf, ← padArgs, exec_bind_ok (exec_native_pad ..),
      exec_bind_ok (exec_opId ..), exec_bind_ok hblock, exec_bind_ok hyield, exec_result_of_op hout]
  · have hrecords := (Records.create s _ _).trans
      (.addBlock (padCreated s type source low high) s.ops.length 0 (replicate rank "index"))
    rw [hevents, hrecords.events_eq, append_assoc, hblocks]
    rfl

/-- The call gave a padded tensor of `source` of the type with the sizes `Sizes` has, whose block
has an index for each dimension. -/
def Requests (s : Session) (result : Except Fault Value) (t : Session)
    (source : HeldValue) (padding : Value) (ls hs : List Int) (Sizes : List Int → Prop) : Prop :=
  ∃ (l : RecordedPad) (es : List Event) (sizes : List Int) (element : String), result =
    .ok (.ssa l.out l.type .plain) ∧ t.events = s.events ++ es ++ l.events source.value s.current ∧
    element? source.type = some element ∧ l.type = tensor sizes element ∧
      Sizes sizes ∧
    Resolves element (fun v => !isProgramValue v) [padding] es [l.padding] ∧
    l.low.shownItems? = some (ls.map .int) ∧ l.high.shownItems? = some (hs.map .int) ∧
    l.args.length = (shape source.type).length ∧ ∀ v ∈ l.args,
      ∃ id, v = .ssa id "index" .plain

theorem exec_pad (hsource : classOf source.type = .tensor)
    (hlow : s.Enumerates (ls.map .int) low) (hhigh : s.Enumerates (hs.map .int) high)
    (hls : ls.length = (shape source.type).length)
    (hhs : hs.length = (shape source.type).length)
    (hpadding : isProgramValue padding = true ∨ padding.isNumber = true) :
    ∃ result t, (pad source.value low high padding).exec s = (result, t) ∧
      Requests s result t source padding ls hs
      (· = zipWith addPadding (shape source.type) (ls.zip hs)) := by
  have helement :
      element? source.type = some (sizesAndElement source.type).2 := by
    rw [element?, hsource]
  obtain ⟨v, t, es, hvalue, hrecords, hresolves, hleading, hfrozen⟩ :=
    exec_paddingValue hpadding (sizesAndElement source.type).2 s
  obtain ⟨l, u, hmade, hevents, htype, hlow', hhigh', hv, hcount, hindex⟩ :=
    exec_padOf (s := t) hleading hfrozen
    (tensor (zipWith addPadding (shape source.type) (ls.zip hs))
      (sizesAndElement source.type).2) source low high (shape source.type).length
  have hints (ns : List Int) : ∀ v ∈ ns.map int, v.isIndex = true := by simp [isIndex]
  refine ⟨_, u, ?_, l, es, _, _, rfl, ?_, helement, htype, rfl, ?_, ?_, ?_, hcount, hindex⟩
  · rw [htype, pad, exec_bind_ok (exec_literals hlow "low"),
      exec_bind_ok (exec_literals hhigh "high"),
      exec_bind_ok (exec_tensorType (.inl hsource) s), helement]
    simp only [Option.getD_some, hsource, decide_true, if_true,
      paddedSizes_eq hls hhs, pure_bind, Bool.not_true, Bool.false_eq_true, if_false]
    rw [padOf] at hmade
    by_cases hp : isProgramValue padding = true
    · rw [if_pos hp] at hvalue ⊢
      cases hvalue
      exact hmade
    · rw [if_neg hp] at hvalue ⊢
      rw [exec_bind_ok hvalue, hmade]
  · rw [hevents, hrecords.events_eq, hrecords.current_eq]
  · rw [hv]
    exact hresolves
  · rw [hlow', (hlow.later hrecords.lists_kept).shownItems?_frozen (hints ls)]
  · rw [hhigh', (hhigh.later hrecords.lists_kept).shownItems?_frozen (hints hs)]

/-! ## Types of padded tensors -/

def padParams : List Param :=
  [.required "source", .required "low", .required "high", .required "pad_value"]

theorem callPath_pad {args : CallArgs Value} {source : Value}
    (hargs : bindParams padParams args = .ok [source, low, high, padding]) (call : Caller) :
    Library.callPath call "tensor.pad" args = pad source low high padding := by
  have hcall : Library.callPath call "tensor.pad" args = _ :=
    Library.callPath_of_fixed rfl hargs call
  exact hcall

def PaddedSizes (t : String) (ls hs sizes : List Int) : Prop :=
  sizes.map Dimension.ofSize = zipWith Dimension.pad
    ((shape t).map Dimension.ofSize) (ls.zip hs)

private theorem Requests.imp {result : Except Fault Value}
    (h : Requests s result t source padding ls hs P) (hPQ : ∀ sizes, P sizes → Q sizes) :
    Requests s result t source padding ls hs Q := by
  obtain ⟨l, es, sizes, element, hresult, hevents, helement, htype, hsizes, hrest⟩ := h
  exact ⟨l, es, sizes, element, hresult, hevents, helement, htype, hPQ sizes hsizes, hrest⟩

theorem Requests.exists_both {result : Except Fault Value}
    (h : Requests s result t source padding ls hs P)
    (h' : Requests s result t source padding ls hs Q) : ∃ sizes, P sizes ∧ Q sizes := by
  obtain ⟨l, es, sizes, element, hresult, -, helement, htype, hsizes, -⟩ := h
  obtain ⟨l', es', sizes', element', hresult', -, helement', htype', hsizes', -⟩ := h'
  obtain rfl : element = element' := Option.some.inj (helement.symm.trans helement')
  have htypes : l.type = l'.type := by
    have heq := hresult.symm.trans hresult'
    simp only [Except.ok.injEq, ssa.injEq] at heq
    exact heq.2.1
  rw [htype, htype'] at htypes
  exact ⟨sizes, hsizes, tensor_inj htypes ▸ hsizes'⟩

/-- All sizes are added to, unknown ones too.  So the type that is requested is the padded one
exactly if the padding leaves unknown sizes unknown and known ones known. -/
theorem pads_type_iff (call : Caller) {s : Session} {args : CallArgs Value}
    {source : HeldValue} {low high padding : Value} {ls hs : List Int}
    (hargs : bindParams padParams args = .ok [source.value, low, high, padding])
    (hsource : classOf source.type = .tensor)
      (hlow : s.Enumerates (ls.map .int) low) (hhigh : s.Enumerates (hs.map .int) high)
      (hls : ls.length = (shape source.type).length)
    (hhs : hs.length = (shape source.type).length)
    (hpadding : isProgramValue padding = true ∨ padding.isNumber = true) :
    ∃ result t, (Library.callPath call "tensor.pad" args).exec s = (result, t) ∧
      Requests s result t source padding ls hs
        (· = zipWith addPadding (shape source.type) (ls.zip hs)) ∧
      (Requests s result t source padding ls hs (PaddedSizes source.type ls hs) ↔
        ∀ e ∈ (shape source.type).zip (ls.zip hs), KeepsKind e.1 e.2) := by
  obtain ⟨result, t, hexec, hmade⟩ := exec_pad hsource hlow hhigh hls hhs hpadding
  rw [callPath_pad hargs]
  refine ⟨result, t, hexec, hmade, fun h => ?_, fun h => ?_⟩
  · obtain ⟨sizes, hsizes, hequal⟩ := h.exists_both hmade
    rw [PaddedSizes, hequal, map_ofSize_iff] at hsizes
    exact hsizes
  · refine hmade.imp fun sizes hsizes => ?_
    rw [PaddedSizes, hsizes, map_ofSize_iff]
    exact h

def rows : HeldValue := ⟨0, "tensor<?x4xf32>", .tensor⟩

theorem classOf_rows : classOf rows.type = .tensor := by decide +kernel

theorem shape_rows : shape rows.type = [dynamicSize, 4] := by
  have hpieces : Text.splitOn (inner rows.type) "x" = ["?", "4", "f32"] := by
    decide +kernel
  have hfour : "4".toInt? = some 4 := Int.toInt?_repr 4
  rw [shape, sizesAndElement, hpieces]
  simp [splitSizes, sizeOf?, hfour]

def padArguments (low high : List Int) : CallArgs Value :=
  ⟨[rows.value, .tuple (low.map .int), .tuple (high.map .int), .int 0], []⟩

/-- A row is taken away above and added below, and columns are added. -/
theorem shifted_rows_pad_type : classOf rows.type = .tensor ∧ ∃ result t,
    (Library.callPath (Script.callWithin 0) "tensor.pad" (padArguments [-1, 0] [1, 2])).exec
      { values := 1 } =
      (result, t) ∧
    Requests { values := 1 } result t rows (.int 0)
      [-1, 0] [1, 2] (PaddedSizes rows.type [-1, 0] [1, 2]) := by
  have hargs : bindParams padParams (padArguments [-1, 0] [1, 2]) =
      .ok [rows.value, .tuple ([-1, 0].map .int), .tuple ([1, 2].map .int), .int 0] := rfl
  obtain ⟨result, t, hexec, -, hpads⟩ :=
    pads_type_iff (Script.callWithin 0) (s := { values := 1 }) hargs classOf_rows
    .tuple .tuple (by rw [shape_rows]; rfl) (by rw [shape_rows]; rfl) (.inr rfl)
  refine ⟨classOf_rows, result, t, hexec, hpads.mpr ?_⟩
  rw [shape_rows]
  simp [KeepsKind, dynamicSize]

/-- A row that is added to an unknown number of rows is added to the marker. -/
theorem added_row_not_padded : ∃ result t,
    (Library.callPath (Script.callWithin 0) "tensor.pad" (padArguments [1, 0] [0, 2])).exec
      { values := 1 } =
      (result, t) ∧
    ¬ Requests { values := 1 } result t rows (.int 0)
      [1, 0] [0, 2] (PaddedSizes rows.type [1, 0] [0, 2]) := by
  have hargs : bindParams padParams (padArguments [1, 0] [0, 2]) =
      .ok [rows.value, .tuple ([1, 0].map .int), .tuple ([0, 2].map .int), .int 0] := rfl
  have hlow :
      ({ values := 1 } : Session).Enumerates ([1, 0].map .int) (.tuple ([1, 0].map .int)) := .tuple
  have hhigh :
      ({ values := 1 } : Session).Enumerates ([0, 2].map .int) (.tuple ([0, 2].map .int)) := .tuple
  have hpadding : isProgramValue (.int 0) = true ∨ (int 0).isNumber = true := .inr rfl
  obtain ⟨result, t, hexec, hmade⟩ :=
    exec_pad classOf_rows hlow hhigh (by rw [shape_rows]; rfl) (by rw [shape_rows]; rfl) hpadding
  rw [callPath_pad hargs]
  refine ⟨result, t, hexec, fun h => ?_⟩
  obtain ⟨sizes, hsizes, hequal⟩ := h.exists_both hmade
  rw [PaddedSizes, hequal, map_ofSize_iff, shape_rows] at hsizes
  simp [KeepsKind] at hsizes

end Tensor

end Polyloom
