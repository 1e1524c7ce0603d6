import Mathlib.Data.List.Infix
import Mathlib.Data.Option.Basic
import Polyloom.Proofs.Builder.Arguments

/-!
# Parts of slices

The offsets, sizes and strides of a slice are integers or values, each on its own.  An operation
takes two lists for each of them: the integers, with a marker for each value, and the values.  There
are always two markers, whatever the rank is.
-/

namespace Polyloom

open Build List Library

variable {args : CallArgs Value} {p₁ p₂ q₁ q₂ r₁ r₂ source : Value} {s t : Session}

/-! ## Lists that are added -/

namespace Session

/-- New lists were made, and nothing is recorded. -/
abbrev AddsLists (s t : Session) : Prop := s.Frame {.stack, .events} {.lists} t

private theorem Frame.lists_kept (h : s.AddsLists t) : s.lists <+: t.lists :=
  h.more .lists (by simp)

theorem Frame.events_eq (h : s.AddsLists t) : t.events = s.events :=
  h.same .events (by simp)

theorem exec_newList (s : Session) (vs : List Value) :
    ∃ v t, (newList vs).exec s = (.ok v, t) ∧ s.AddsLists t ∧ t.Enumerates vs v :=
  ⟨.list s.lists.length, _, rfl, frame_pair rfl rfl (by simp [Part.More]),
    .list getElem?_concat_length⟩

end Session

namespace Tensor

inductive SlicePart where
  | fixed (ns : List Int)
  | moving (vs : List HeldValue)

namespace SlicePart

def rank : SlicePart → Nat
  | fixed ns => ns.length
  | moving vs => vs.length

def isFixed : SlicePart → Bool
  | fixed _ => true
  | moving _ => false

def static (markers : List Value) : SlicePart → List Value
  | fixed ns => ns.map .int
  | moving _ => markers

def dynamic : SlicePart → List Value
  | fixed _ => []
  | moving vs => vs.map HeldValue.value

/-- One of the two arguments for a part is given. -/
inductive Given (s : Session) : SlicePart → Value → Value → Prop
  | fixed {ns : List Int} {v : Value} (h : s.Enumerates (ns.map .int) v) : Given s
    (.fixed ns) v .none
  | moving {vs : List HeldValue} {v : Value} (h : s.Enumerates (vs.map HeldValue.value) v) :
      Given s (.moving vs) .none v

def marker : Value := .int TypeText.dynamicSize

def markerPair : List Value := [marker, marker]

private theorem Given.later {p : SlicePart} {fixed moving : Value}
    (h : p.Given s fixed moving) (hlists : s.lists <+: t.lists) : p.Given t fixed moving := by
  cases h with
  | fixed h => exact .fixed (h.later hlists)
  | moving h => exact .moving (h.later hlists)

private theorem Given.exec_staticPart {s : Session} {p : SlicePart}
    {fixed moving : Value} (h : p.Given s fixed moving) :
    ∃ v t, (staticPart fixed moving).exec s = (.ok v, t) ∧
      s.AddsLists t ∧ t.Enumerates (p.static markerPair) v := by
  cases h with
  | fixed h =>
    refine ⟨fixed, s, ?_, .refl s, h⟩
    rw [staticPart, h.isNone_eq, if_neg (by simp), exec_pure]
  | moving h =>
    obtain ⟨v, t, hnew, hadds, henum⟩ := s.exec_newList markerPair
    have hnone : Value.none.isNone = true := rfl
    refine ⟨v, t, ?_, hadds, henum⟩
    rw [staticPart, if_pos hnone, h.isNone_eq]
    exact hnew

private theorem Given.exec_dynamicPart {s : Session} {p : SlicePart} {fixed moving v : Value}
    (h : p.Given s fixed moving) (hrank : p.rank ≠ 0) (hv : s.Enumerates (p.static markerPair) v) :
    ∃ w t, (dynamicPart v moving).exec s = (.ok w, t) ∧
      s.AddsLists t ∧ t.Enumerates p.dynamic w := by
  cases h with
  | fixed h =>
    obtain ⟨w, t, hnew, hadds, henum⟩ := s.exec_newList []
    have htruth : (truth v).exec s = (.ok true, s) := by
      rw [hv.exec_truth]
      simpa [static, rank] using hrank
    have hnone : Value.none.isNone = true := rfl
    refine ⟨w, t, ?_, hadds, henum⟩
    rw [dynamicPart, if_pos hnone, exec_bind_ok htruth]
    exact hnew
  | moving h =>
    refine ⟨moving, s, ?_, .refl s, h⟩
    rw [dynamicPart, h.isNone_eq, if_neg (by simp), exec_pure]

end SlicePart

/-! ## Handing over -/

section Completing

variable {s : Session} {p q r : SlicePart} {p₁ p₂ q₁ q₂ r₁ r₂ : Value} (hp : p.Given s p₁ p₂)
  (hq : q.Given s q₁ q₂) (hr : r.Given s r₁ r₂) (hranks : ∀ part ∈ [p, q, r], part.rank ≠ 0)

def lists (p q r : SlicePart) (markers : List Value) : List (List Value) :=
  [p, q, r].map SlicePart.dynamic ++ [p, q, r].map (SlicePart.static markers)

include hp hq hr hranks

theorem exec_complete :
    ∃ slice t, (Slice.complete ⟨p₁, q₁, r₁, p₂, q₂, r₂⟩).exec s = (.ok slice, t) ∧ s.AddsLists t ∧
      Forall₂ t.Enumerates (lists p q r SlicePart.markerPair) slice.arguments := by
  simp only [forall_mem_cons] at hranks
  obtain ⟨a, s₁, ha, h₁, ea⟩ := hp.exec_staticPart
  obtain ⟨b, s₂, hb, h₂, eb⟩ := (hq.later h₁.lists_kept).exec_staticPart
  obtain ⟨c, s₃, hc, h₃, ec⟩ := (hr.later (h₁.trans h₂).lists_kept).exec_staticPart
  have h₁₃ := (h₁.trans h₂).trans h₃
  obtain ⟨d, s₄, hd, h₄, ed⟩ :=
    (hp.later h₁₃.lists_kept).exec_dynamicPart hranks.1 (ea.later (h₂.trans h₃).lists_kept)
  obtain ⟨e, s₅, he, h₅, ee⟩ := (hq.later (h₁₃.trans h₄).lists_kept).exec_dynamicPart hranks.2.1
    (eb.later (h₃.trans h₄).lists_kept)
  have h₄₅ := h₄.trans h₅
  obtain ⟨f, s₆, hf, h₆, ef⟩ := (hr.later (h₁₃.trans h₄₅).lists_kept).exec_dynamicPart hranks.2.2.1
    (ec.later h₄₅.lists_kept)
  rw [Slice.complete, exec_bind_ok ha, exec_bind_ok hb, exec_bind_ok hc,
    exec_bind_ok hd, exec_bind_ok he, exec_bind_ok hf, exec_pure]
  refine ⟨_, s₆, rfl, (h₁₃.trans h₄₅).trans h₆, ?_⟩
  have h₄₆ := h₄₅.trans h₆
  exact .cons (ed.later (h₅.trans h₆).lists_kept) (.cons (ee.later h₆.lists_kept) (.cons ef
    (.cons (ea.later ((h₂.trans h₃).trans h₄₆).lists_kept)
      (.cons (eb.later (h₃.trans h₄₆).lists_kept) (.cons (ec.later h₄₆.lists_kept) .nil)))))

end Completing

/-- For each part of the slice, the operation was given the values, and the integers with the
markers. -/
def HandsOver (p q r : SlicePart) (markers shown : List Value) : Prop :=
  shown.map Value.shownItems? = (lists p q r markers).map some

private theorem isIndex_lists (p q r : SlicePart) {markers : List Value}
    (h : ∀ v ∈ markers, v.isIndex = true) :
    ∀ vs ∈ lists p q r markers, ∀ v ∈ vs, v.isIndex = true := by
  have hdynamic (part : SlicePart) : ∀ v ∈ part.dynamic, v.isIndex = true := by
    cases part <;> simp [SlicePart.dynamic, HeldValue.value, Value.isIndex]
  have hstatic (part : SlicePart) : ∀ v ∈ part.static markers, v.isIndex = true := by
    cases part with
    | fixed ns => simp [SlicePart.static, Value.isIndex]
    | moving vs => exact h
  intro vs hvs
  rw [lists, mem_append, mem_map, mem_map] at hvs
  obtain ⟨part, -, rfl⟩ | ⟨part, -, rfl⟩ := hvs
  · exact hdynamic part
  · exact hstatic part

theorem handsOver_of_forall₂ {p q r : SlicePart} {markers vs : List Value}
    (h : Forall₂ s.Enumerates (lists p q r markers) vs)
    (hmarkers : ∀ v ∈ markers, v.isIndex = true) : HandsOver p q r markers (vs.map s.frozen) := by
  have hindex := isIndex_lists p q r hmarkers
  rw [HandsOver]
  generalize lists p q r markers = vss at h hindex ⊢
  induction h with
  | nil => rfl
  | cons hv _ ih =>
    rw [forall_mem_cons] at hindex
    rw [map_cons, map_cons, hv.shownItems?_frozen hindex.1, ih hindex.2, map_cons]

/-- The call made a slice of `source` out of arguments that are as `Handed` says. -/
def Extracts (s : Session) (result : Except Fault Value) (t : Session) (source : Value)
    (Handed : List Value → Prop) : Prop :=
  ∃ id type v shown, result = .ok (.op id "tensor.ExtractSliceOp") ∧ t.events = s.events ++
    [.create id "tensor.ExtractSliceOp" s.current [v]
      (.native (.type type :: source :: shown) [])] ∧ Handed shown

/-- The call gave an object.  Whenever this is called, an insertion of `source` into `target` is
made out of arguments that are as `Handed` says. -/
def Inserts (s : Session) (result : Except Fault Value) (t : Session) (source target : Value)
    (Handed : List Value → Prop) : Prop :=
  ∃ id, result = .ok (.object id) ∧ t.events = s.events ∧ ∀ (u : Session) (depth : Nat),
    u.objects[id]? = t.objects[id]? → t.lists <+: u.lists → ∃ op v shown,
      (Script.callWithin (depth + 1) (.object id) ⟨[], []⟩).exec u =
        (.ok (.op op "tensor.ParallelInsertSliceOp"), v) ∧
      v.events = u.events ++ [.create op "tensor.ParallelInsertSliceOp" u.current []
        (.native (source :: target :: shown) [])] ∧ Handed shown

section Calling

variable {s t : Session} {result : Except Fault Value} {source target : Value}
  {H H' : List Value → Prop}

theorem Extracts.exists_both (h : Extracts s result t source H)
    (h' : Extracts s result t source H') :
    ∃ shown, H shown ∧ H' shown := by
  obtain ⟨id, type, v, shown, -, hevents, hshown⟩ := h
  obtain ⟨id', type', v', shown', -, hevents', hshown'⟩ := h'
  have heq := append_cancel_left (hevents.symm.trans hevents')
  simp only [cons.injEq, Event.create.injEq, Creation.native.injEq] at heq
  exact ⟨shown, hshown, heq.1.2.2.2.2.1.2.2 ▸ hshown'⟩

private theorem Inserts.exists_both (h : Inserts s result t source target H)
    (h' : Inserts s result t source target H') :
    ∃ shown, H shown ∧ H' shown := by
  obtain ⟨id, hid, -, hcall⟩ := h
  obtain ⟨id', hid', -, hcall'⟩ := h'
  obtain rfl : id = id' := by simpa using hid.symm.trans hid'
  obtain ⟨op, v, shown, hexec, hevents, hshown⟩ := hcall t 0 rfl prefix_rfl
  obtain ⟨op', v', shown', hexec', hevents', hshown'⟩ := hcall' t 0 rfl prefix_rfl
  obtain rfl : v = v' := congrArg Prod.snd (hexec.symm.trans hexec')
  have heq := append_cancel_left (hevents.symm.trans hevents')
  simp only [cons.injEq, Event.create.injEq, Creation.native.injEq] at heq
  exact ⟨shown, hshown, heq.1.2.2.2.2.1.2.2 ▸ hshown'⟩

end Calling

/-! ## Making slices -/

theorem exec_tensorType {source : HeldValue}
    (h : TypeText.classOf source.type = .tensor ∨ TypeText.classOf source.type = .unrankedTensor)
      (s : Session) :
    (tensorType source.value).exec s = (.ok source.type, s) := by
  have hmember : (memberType source.value).exec s = (.ok (.type source.type), s) := rfl
  have htext : (typeText (.type source.type)).exec s = (.ok source.type, s) := rfl
  rw [tensorType, exec_bind_ok hmember, exec_bind_ok htext]
  rcases h with h | h <;> rw [h] <;> rfl

private theorem exec_tensorAnnot {sizes : Value} {ns : List Value}
    (h : s.Enumerates ns sizes) (hns : ∀ n ∈ ns, n.isInt = true) (element : String) :
    ∃ holder type, (Buffer.tensorAnnot (.tuple [sizes, .type element])).exec s =
      (.ok (.annot holder (.type type)), s) := by
  have hlast : (Buffer.butLast sizes).exec s = (.ok ns.dropLast, s) := by
    have hitems := h.exec_items
    cases h <;> exact exec_bind_ok hitems
  have hall : ns.dropLast.all Value.isInt = true := by
    rw [all_eq_true]
    exact fun n hn => hns n (mem_of_mem_dropLast hn)
  have hshape : (Buffer.shapeAndElement (.tuple [sizes, .type element])).exec s =
      (.ok (sizes, .type element), s) := by
    have hnow (v : Value) : (now v).exec s = (.ok (s.frozen v), s) := rfl
    have hparts :
        (items (.tuple [sizes, .type element])).exec s = (.ok [sizes, .type element], s) := rfl
    rw [Buffer.shapeAndElement, exec_bind_ok hparts, exec_bind_ok (hnow _)]
    simp only
    rw [exec_bind_ok hlast, exec_bind_ok (hnow _), hall]
    rfl
  have htype : (rankedType "tensor" sizes (.type element)).exec s =
      (.ok (TypeText.ranked "tensor" (ns.map sizeText) element), s) := exec_bind_ok h.exec_items
  rw [Buffer.tensorAnnot, exec_bind_ok hshape]
  exact ⟨_, _, exec_bind_ok htype⟩

section Making

variable {s : Session} {p q r : SlicePart} {p₁ p₂ q₁ q₂ r₁ r₂ : Value} (hp : p.Given s p₁ p₂)
  (hq : q.Given s q₁ q₂) (hr : r.Given s r₁ r₂) (hranks : ∀ part ∈ [p, q, r], part.rank ≠ 0)

include hp hq hr hranks

theorem exec_extractSlice {source : HeldValue} (hsource : TypeText.classOf source.type = .tensor ∨
      TypeText.classOf source.type = .unrankedTensor) :
    ∃ result t, (extractSlice source.value ⟨p₁, q₁, r₁, p₂, q₂, r₂⟩).exec s = (result, t) ∧
      Extracts s result t source.value (HandsOver p q r SlicePart.markerPair) := by
  obtain ⟨slice, t, hcomplete, hadds, hforall⟩ := exec_complete hp hq hr hranks
  have hshown := handsOver_of_forall₂ hforall (by decide)
  simp only [lists, Slice.arguments, map_cons, map_nil, cons_append,
    nil_append, forall₂_cons] at hforall
  obtain ⟨-, -, -, -, hsizes, -⟩ := hforall
  have hints : ∀ n ∈ q.static SlicePart.markerPair, n.isInt = true := by
    cases q <;> simp [SlicePart.static, SlicePart.markerPair,
      SlicePart.marker, Value.isInt, Value.int?]
  obtain ⟨holder, type, hannot⟩ :=
    exec_tensorAnnot hsizes hints ((TypeText.element? source.type).getD "")
  have hresults :
      (nativeResults "ExtractSliceOp" (.type type :: source.value :: slice.arguments)).exec t =
      (.ok [type], t) := rfl
  have hmade := exec_native "tensor" (by decide) hresults
  rw [extractSlice, exec_bind_ok hcomplete, exec_bind_ok (exec_tensorType hsource t),
    exec_bind_ok hannot]
  refine ⟨_, _, hmade, t.ops.length, type, .ssa t.values type .plain,
    slice.arguments.map t.frozen, rfl, ?_, hshown⟩
  rw [← hadds.events_eq, ← hadds.current_eq]
  rfl

private theorem exec_parallelInsertSlice (source target : HeldValue) :
    ∃ result t, (parallelInsertSlice source.value target.value ⟨p₁, q₁, r₁, p₂, q₂, r₂⟩).exec s =
      (result, t) ∧
      Inserts s result t source.value target.value (HandsOver p q r SlicePart.markerPair) := by
  obtain ⟨slice, t, hcomplete, hadds, hforall⟩ := exec_complete hp hq hr hranks
  rw [parallelInsertSlice, exec_bind_ok hcomplete]
  refine ⟨_, _, rfl, _, rfl, hadds.events_eq, fun u depth hobject hlists => ?_⟩
  have hshown := handsOver_of_forall₂ (hforall.imp fun _ _ h => h.later hlists) (by decide)
  have hpending : u.objects[t.objects.length]? =
      some (.pendingInsertion (source.value :: target.value :: slice.arguments)) :=
    hobject.trans getElem?_concat_length
  have hcall : (Script.callWithin (depth + 1) (.object t.objects.length) ⟨[], []⟩).exec u =
      (insertPending (source.value :: target.value :: slice.arguments)).exec u := by
    rw [Script.callWithin, Script.invoke, Script.callObject, exec_bind_ok (exec_object hpending)]
    rfl
  rw [hcall]
  exact ⟨_, _, slice.arguments.map u.frozen, rfl, rfl, hshown⟩

end Making

/-! ## Markers for every dimension -/

theorem lists_replicate_eq_iff (p q r : SlicePart) (n : Nat) :
    lists p q r (List.replicate n SlicePart.marker) = lists p q r SlicePart.markerPair ↔
      n = 2 ∨ ∀ part ∈ [p, q, r], part.isFixed = true := by
  have hpart (part : SlicePart) :
      part.static (List.replicate n SlicePart.marker) = part.static SlicePart.markerPair ↔
      n = 2 ∨ part.isFixed = true := by
    cases part with
    | fixed ns => simp [SlicePart.static, SlicePart.isFixed]
    | moving vs =>
      simp only [SlicePart.static, SlicePart.isFixed, Bool.false_eq_true, or_false]
      refine ⟨fun h => ?_, fun h => by rw [h]; rfl⟩
      simpa [SlicePart.markerPair] using congrArg List.length h
  rw [lists, lists, List.append_cancel_left_eq, List.map_inj_left]
  simp only [hpart]
  by_cases hn : n = 2 <;> simp [hn]

theorem rank_eq_of_handsOver {p q r : SlicePart} {n : Nat} (h : ∃ shown,
      HandsOver p q r (replicate n SlicePart.marker) shown ∧
        HandsOver p q r SlicePart.markerPair shown) :
    n = 2 ∨ ∀ part ∈ [p, q, r], part.isFixed = true := by
  obtain ⟨shown, h, h'⟩ := h
  rw [← lists_replicate_eq_iff]
  exact map_injective_iff.mpr (Option.some_injective _) (h.symm.trans h')

theorem callPath_extract (hargs : bindParams (.required "source" :: sliceParams) args =
      .ok [source, p₁, q₁, r₁, p₂, q₂, r₂]) (call : Caller) :
    callPath call "tensor.extract_slice" args = extractSlice source ⟨p₁, q₁, r₁, p₂, q₂, r₂⟩ := by
  have hcall : callPath call "tensor.extract_slice" args = _ :=
    callPath_of_fixed rfl hargs call
  exact hcall

private theorem callPath_insert {target : Value}
    (hargs : bindParams (.required "source" :: .required "dest" :: sliceParams) args =
      .ok [source, target, p₁, q₁, r₁, p₂, q₂, r₂]) (call : Caller) :
    callPath call "tensor.parallel_insert_slice" args =
      parallelInsertSlice source target ⟨p₁, q₁, r₁, p₂, q₂, r₂⟩ := by
  have hcall : callPath call "tensor.parallel_insert_slice" args = _ :=
    callPath_of_fixed rfl hargs call
  exact hcall

/-- A slice is made of the values and integers that are given.  For each part that has values the
operation gets two markers.  So every dimension is described only if there are two of them or if all
parts are integers. -/
theorem describes_dimensions_iff (call : Caller) {s : Session}
    {n : Nat} {p q r : SlicePart} {p₁ p₂ q₁ q₂ r₁ r₂ : Value} {source source' target : HeldValue}
    {args args' : CallArgs Value} (hn : 1 ≤ n) (hranks : ∀ part ∈ [p, q, r], part.rank = n)
    (hp : p.Given s p₁ p₂) (hq : q.Given s q₁ q₂) (hr : r.Given s r₁ r₂)
    (hsource : TypeText.classOf source.type = .tensor ∨ TypeText.classOf source.type =
      .unrankedTensor) (hextract : bindParams (.required "source" :: sliceParams) args =
      .ok [source.value, p₁, q₁, r₁, p₂, q₂, r₂])
    (hinsert : bindParams (.required "source" :: .required "dest" :: sliceParams) args' =
      .ok [source'.value, target.value, p₁, q₁, r₁, p₂, q₂, r₂]) :
    ∃ result result' t t', (callPath call "tensor.extract_slice" args).exec s =
      (result, t) ∧
      (callPath call "tensor.parallel_insert_slice" args').exec s = (result', t') ∧
      Extracts s result t source.value (HandsOver p q r SlicePart.markerPair) ∧
      Inserts s result' t' source'.value target.value (HandsOver p q r SlicePart.markerPair) ∧
      (Extracts s result t source.value (HandsOver p q r (replicate n SlicePart.marker)) ↔
        n = 2 ∨ ∀ part ∈ [p, q, r], part.isFixed = true) ∧
      (Inserts s result' t' source'.value target.value
        (HandsOver p q r (replicate n SlicePart.marker)) ↔
        n = 2 ∨ ∀ part ∈ [p, q, r], part.isFixed = true) := by
  have hranks' : ∀ part ∈ [p, q, r], part.rank ≠ 0 := by
    intro part hpart
    have hrank := hranks part hpart
    omega
  obtain ⟨result, t, hexec, hmade⟩ := exec_extractSlice hp hq hr hranks' hsource
  obtain ⟨result', t', hexec', hmade'⟩ := exec_parallelInsertSlice hp hq hr hranks' source' target
  have hequal (h : n = 2 ∨ ∀ part ∈ [p, q, r], part.isFixed = true) :
      HandsOver p q r (replicate n SlicePart.marker) = HandsOver p q r SlicePart.markerPair := by
    simp only [funext_iff, HandsOver, (lists_replicate_eq_iff p q r n).mpr h, implies_true]
  rw [callPath_extract hextract, callPath_insert hinsert]
  refine ⟨result, result', t, t', hexec, hexec', hmade, hmade',
    ⟨fun h => ?_, fun h => ?_⟩, ⟨fun h => ?_, fun h => ?_⟩⟩
  · exact rank_eq_of_handsOver (h.exists_both hmade)
  · rwa [hequal h]
  · exact rank_eq_of_handsOver (h.exists_both hmade')
  · rwa [hequal h]

def offset (id : Nat) : HeldValue := ⟨id, "index", .plain⟩

def offsetArgs (operands : List HeldValue) (offsets sizes strides : List Value) : CallArgs Value :=
  ⟨operands.map HeldValue.value,
    [("offsets", .tuple offsets), ("static_sizes", .tuple sizes),
      ("static_strides", .tuple strides)]⟩

def plane : HeldValue := ⟨0, "tensor<?x?xf32>", .tensor⟩

theorem plane_describes_dimensions :
    TypeText.classOf plane.type = .tensor ∧ ∃ result t,
      (callPath (Script.callWithin 0) "tensor.extract_slice"
      (offsetArgs [plane] [(offset 1).value, (offset 2).value]
        [.int 4, .int 8] [.int 1, .int 1])).exec
        { values := 3 } = (result, t) ∧
      Extracts { values := 3 } result t plane.value
        (HandsOver (.moving [offset 1, offset 2]) (.fixed [4, 8])
        (.fixed [1, 1]) [SlicePart.marker, SlicePart.marker]) := by
  have hclass : TypeText.classOf plane.type = .tensor := by decide +kernel
  obtain ⟨result, -, t, -, hexec, -, -, -, hextracts, -⟩ :=
    describes_dimensions_iff (Script.callWithin 0)
    (s := { values := 3 }) (n := 2) (p := .moving [offset 1, offset 2])
      (q := .fixed [4, 8]) (r := .fixed [1, 1])
    (by decide) (by simp [SlicePart.rank]) (.moving .tuple) (.fixed .tuple)
      (.fixed .tuple) (.inl hclass)
    (rfl : bindParams _ (offsetArgs [plane] [(offset 1).value, (offset 2).value]
      [.int 4, .int 8] [.int 1, .int 1]) = _) (rfl : bindParams _
      (offsetArgs [offset 1, plane] [(offset 1).value, (offset 2).value] [.int 4, .int 8]
      [.int 1, .int 1]) = .ok [(offset 1).value, plane.value, _, _, _, _, _, _])
  exact ⟨hclass, result, t, hexec, hextracts.mpr (.inl rfl)⟩

def row : HeldValue := ⟨0, "tensor<8xf32>", .tensor⟩

/-- An offset into a row comes with two markers. -/
theorem row_dimension_not_described : ∃ result t,
    (callPath (Script.callWithin 0) "tensor.extract_slice"
      (offsetArgs [row] [(offset 1).value] [.int 4] [.int 1])).exec { values := 2 } = (result, t) ∧
    ¬ Extracts { values := 2 } result t row.value
      (HandsOver (.moving [offset 1]) (.fixed [4]) (.fixed [1]) [SlicePart.marker]) := by
  have hp : SlicePart.Given { values := 2 } (.moving [offset 1]) .none
      (.tuple [(offset 1).value]) := .moving .tuple
  have hq : SlicePart.Given { values := 2 } (.fixed [4]) (.tuple [.int 4]) .none := .fixed .tuple
  have hr : SlicePart.Given { values := 2 } (.fixed [1]) (.tuple [.int 1]) .none := .fixed .tuple
  have hclass : TypeText.classOf row.type = .tensor := by decide +kernel
  obtain ⟨result, t, hexec, hmade⟩ :=
    exec_extractSlice hp hq hr (by simp [SlicePart.rank]) (.inl hclass)
  have hargs : bindParams (.required "source" :: sliceParams)
      (offsetArgs [row] [(offset 1).value] [.int 4] [.int 1]) =
        .ok [row.value, .none, .tuple [.int 4], .tuple [.int 1],
        .tuple [(offset 1).value], .none, .none] := rfl
  rw [callPath_extract hargs]
  refine ⟨result, t, hexec, fun h => ?_⟩
  have hrank := rank_eq_of_handsOver (n := 1) (h.exists_both hmade)
  simp [SlicePart.isFixed] at hrank

end Tensor

end Polyloom
