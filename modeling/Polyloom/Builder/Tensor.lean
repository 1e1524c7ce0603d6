import Polyloom.Builder.Buffer

/-!
Tensors: sizes, elements, padding, reshaping and slices.
-/

namespace Polyloom.Tensor

open Build

def empty (sizes element : Value) : Build Value := do
  cast .tensor (← result (← native "tensor" "EmptyOp" [sizes, element]))

def dim (tensor dimension : Value) : Build Value := do
  let d ← Arith.constant dimension .none true
  result (← native "tensor" "DimOp" [tensor, d])

def extract (tensor indices : Value) : Build Value := do
  ControlFlow.convertInPlace indices
  result (← native "tensor" "ExtractOp" [tensor, indices])

def tensorType (source : Value) : Build String := do
  let t ← typeText (← memberType source)
  match TypeText.classOf t with
  | .tensor | .unrankedTensor => return t
  | _ => throw (.failure ("source is not a tensor type: source.type=" ++ t))

/-! ## Padding -/

def literals (name : String) (v : Value) : Build (List Value) := do
  let vs ← items v
  let shown ← now v
  require (vs.all Value.isInt)
    ("only literal pad values supported: " ++ name ++ "=" ++ shown.display)
  return vs

def paddedSizes (sizes : List Int) (low high : List Value) : Build (List Int) :=
  sizes.zipIdx.mapM fun (n, i) =>
    match (low[i]?).bind Value.int?, (high[i]?).bind Value.int? with
    | some l, some h => return n + l + h
    | _, _ => throw .outOfRange

def isProgramValue : Value → Bool
  | .ssa _ _ _ => true
  | .op _ cls => cls = "Operation"
  | _ => false

def pad (source low high padding : Value) : Build Value := do
  let lows ← literals "low" low
  let highs ← literals "high" high
  let t ← tensorType source
  let element := (TypeText.element? t).getD ""
  let padding ← if isProgramValue padding then pure padding
    else Arith.constant padding (.type element)
  let isRanked := TypeText.classOf t = .tensor
  let type ← if isRanked then
      pure (TypeText.tensor (← paddedSizes (TypeText.shape t) lows highs) element)
    else pure t
  let made ← native "tensor" "PadOp" [.type type, source, .listed [], .listed []]
    [("static_low", low), ("static_high", high)]
  if !isRanked then throw .noAttribute
  let block ← appendBlock (← opId made) 0 (List.replicate (TypeText.shape t).length "index")
  within block do
    let _ ← native "tensor" "YieldOp" [padding]
  result made

/-! ## Reshaping -/

def reshape (cls : String) (tensor reassociation sizes : Value) : Build Value := do
  let t ← typeText (← memberType tensor)
  match TypeText.classOf t, TypeText.element? t with
  | .tensor, some element =>
    let type ← rankedType "tensor" sizes (.type element)
    result (← native "tensor" cls [.type type, tensor] [("reassociation", reassociation)])
  | _, _ => throw .wrongCast

def expandShape : Value → Value → Value → Build Value := reshape "ExpandShapeOp"

def collapseShape : Value → Value → Value → Build Value := reshape "CollapseShapeOp"

/-! ## Slices -/

/-- The static and the dynamic part of offsets, sizes and strides. -/
structure Slice where
  staticOffsets : Value
  staticSizes : Value
  staticStrides : Value
  offsets : Value
  sizes : Value
  strides : Value

def unknownPair : Build Value := newList [.int TypeText.dynamicSize, .int TypeText.dynamicSize]

def staticPart (fixed moving : Value) : Build Value := do
  if fixed.isNone then
    require (!moving.isNone) ""
    unknownPair
  else return fixed

def dynamicPart (fixed moving : Value) : Build Value := do
  if moving.isNone then
    require (← truth fixed) ""
    newList []
  else return moving

def Slice.complete (s : Slice) : Build Slice := do
  let staticOffsets ← staticPart s.staticOffsets s.offsets
  let staticSizes ← staticPart s.staticSizes s.sizes
  let staticStrides ← staticPart s.staticStrides s.strides
  let offsets ← dynamicPart staticOffsets s.offsets
  let sizes ← dynamicPart staticSizes s.sizes
  let strides ← dynamicPart staticStrides s.strides
  return { staticOffsets, staticSizes, staticStrides, offsets, sizes, strides }

def Slice.arguments (s : Slice) : List Value :=
  [s.offsets, s.sizes, s.strides, s.staticOffsets, s.staticSizes, s.staticStrides]

def parallelInsertSlice (source target : Value) (slice : Slice) : Build Value := do
  let slice ← slice.complete
  newObject (.pendingInsertion (source :: target :: slice.arguments))

def insertPending (args : List Value) : Build Value := native "tensor" "ParallelInsertSliceOp" args

def extractSlice (source : Value) (slice : Slice) : Build Value := do
  let slice ← slice.complete
  let t ← tensorType source
  let element := (TypeText.element? t).getD ""
  match ← Buffer.tensorAnnot (.tuple [slice.staticSizes, .type element]) with
  | .annot _ type => native "tensor" "ExtractSliceOp" (type :: source :: slice.arguments)
  | _ => throw .wrongKind

end Polyloom.Tensor
