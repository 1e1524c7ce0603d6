import Polyloom.Builder.ControlFlow

/-!
Buffers: allocation, loads and stores, and the types of buffers as parameters.

A buffer is accessed by the operations of its class: affine classes by affine operations with
an identity map, the others by plain ones.
-/

namespace Polyloom.Buffer

open Build

/-! ## Plain accesses -/

def loadOp (buffer indices : Value) : Build Value := native "memref" "LoadOp" [buffer, indices]

def storeOp (buffer value indices : Value) : Build Value := do
  let buffer ← asValue buffer
  let value ← asValue value
  let indices ← if indices.isNone then pure [] else asValues indices
  native "memref" "StoreOp" [value, buffer, .listed indices]

/-! ## Affine accesses -/

def identityMap (n : Nat) : Value :=
  let dims := "(" ++ ", ".intercalate ((List.range n).map fun i => "d" ++ i.repr) ++ ")"
  .attribute "AffineMapAttr" (.map (dims ++ " -> " ++ dims))

def changeable : Value → Build Value
  | .tuple vs => newList vs
  | v => return v

def bufferElement (t : String) : Build String :=
  match TypeText.classOf t, TypeText.element? t with
  | .memref, some e => return e
  | _, _ => throw .wrongCast

def affineLoadOp (buffer indices : Value) : Build Value := do
  let indices ← changeable indices
  let buffer ← asValue buffer
  ControlFlow.convertInPlace indices
  let resolved ← asValues indices
  let element ← bufferElement (← typeOf buffer)
  let map := identityMap (← length indices)
  ({ OpDefinition.affineLoad with cls := "affine.LoadOp" }).build
    [("result", .type element), ("memref", buffer), ("indices", .listed resolved), ("map", map)]

def affineStoreOp (buffer value indices : Value) : Build Value := do
  let indices ← changeable indices
  let value ← asValue value
  ControlFlow.convertInPlace indices
  let map := identityMap (← length indices)
  let buffer ← asValue buffer
  let resolved ← asValues indices
  generic { OpDefinition.affineStore.kind with cls := "affine.StoreOp" }
    (value :: buffer :: resolved) [("map", map)] []

def affineStore (value buffer indices : Value) : Build Value := affineStoreOp value buffer indices

def affineLoad (buffer indices : Value) : Build Value := do
  Arith.arithResult (← affineLoadOp buffer indices)

def applyOp (map operands : Value) : Build Value :=
  ({ OpDefinition.affineApply with cls := "affine.Apply" }).build
    [("result", .type "index"), ("map", map), ("mapOperands", operands)]

/-! ## Allocation -/

def checkSizes (sizes : Value) : Build Unit := do
  require (← truth sizes) ""
  match (← items sizes).head? with
  | some v => require v.isInt ""
  | none => throw .outOfRange

def allocate (cls : String) (sizes element : Value) : Build Value := do
  let element := if element.isNone then .type "f64" else element
  checkSizes sizes
  let type ← rankedType "memref" sizes element
  native "memref" cls [.type type, .listed [], .listed []]

def allocOp : Value → Value → Build Value := allocate "AllocOp"

def allocaOp : Value → Value → Build Value := allocate "AllocaOp"

def allocateFor (view : View) (onStack : Bool) (sizes element : Value) : Build Value := do
  let made ← if onStack || view.isAffine then allocaOp sizes element else allocOp sizes element
  cast view (← firstResult made)

/-! ## Parameter types -/

def butLast (v : Value) : Build (List Value) := do
  match v with
  | .list _ | .listed _ | .tuple _ | .str _ => return (← items v).dropLast
  | _ => throw .wrongKind

def shapeAndElement (v : Value) : Build (Value × Value) := do
  let parts ← items v
  let shown ← now v
  match parts with
  | [sizes, element] =>
    require ((← butLast sizes).all Value.isInt)
      ("wrong type T args for tensor: " ++ (← now sizes).text)
    require element.isType ("wrong type T args for tensor: " ++ (← now element).text)
    return (sizes, element)
  | _ => throw (.assertion ("wrong dim_sizes_el_type: " ++ shown.text))

def dynamicIfNegativeOne (v : Value) : Value :=
  if v.same (.int (-1)) then .int TypeText.dynamicSize else v

def unrankedAnnot (view : View) (element : Value) : Build Value := do
  require element.isType ("wrong type T args for memref: " ++ (← now element).text)
  return .annot (.ref view.path) (.type (TypeText.unrankedMemref (← typeText element)))

def rankedAnnot (view : View) (v : Value) : Build Value := do
  let (sizes, element) ← shapeAndElement v
  let sizes := (← items sizes).map dynamicIfNegativeOne
  return .annot (.ref view.path) (.type (← rankedType "memref" (.listed sizes) element))

def tensorAnnot (v : Value) : Build Value := do
  let (sizes, element) ← shapeAndElement v
  return .annot (.ref View.tensor.path) (.type (← rankedType "tensor" sizes element))

def annotFor (view : View) (v : Value) : Build Value :=
  match view with
  | .tensor => tensorAnnot v
  | view =>
    if view.isUnranked then unrankedAnnot view v
    else if view.isBuffer then rankedAnnot view v
    else throw .wrongKind

/-! ## Accesses by index -/

def indexTuple (v : Value) : Build Value := do
  let vs := match v with
    | .tuple vs => vs
    | v => [v]
  return .tuple (← vs.mapM ControlFlow.indexValue)

def getItem (view : View) (buffer key : Value) : Build Value := do
  let indices ← indexTuple key
  let made ← if view.isAffine then affineLoadOp buffer indices else loadOp buffer indices
  Arith.arithResult made

def setItem (id : Nat) (view : View) (buffer key value : Value) : Build Unit := do
  let indices ← indexTuple key
  let made ← if view.isAffine then affineStoreOp buffer value indices
    else storeOp buffer value indices
  modify fun s => { s with recentStores := Table.put (id, view) made s.recentStores }

def load (buffer indices : Value) : Build Value := do
  Arith.arithResult (← loadOp buffer indices)

def castBuffer (source target : Value) : Build Value := do
  cast .memref (← result (← native "memref" "CastOp" [target, source]))

end Polyloom.Buffer
