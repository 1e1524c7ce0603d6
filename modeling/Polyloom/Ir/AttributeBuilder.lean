import Polyloom.Attribute.Text
import Polyloom.Ir.Build

/-!
Builders of attributes, which make an attribute of a known kind from plain data.

Builders are found by name.  Those of this library come first; a session may know more by
name only, and what those make is not looked into.
-/

namespace Polyloom.AttributeBuilder

open Build

abbrev Builder := Value → Value → Build Value

def defaultContext : Value := .object 0

def checkContext (context : Value) : Build Unit := do
  match context with
  | .none => return ()
  | .object id =>
    match ← object id with
    | .context _ => return ()
    | _ => throw .rejected
  | _ => throw .rejected

def isArray : Value → Bool
  | .attribute "ArrayAttr" _ => true
  | _ => false

def int64 (v : Value) : Value :=
  if v.isAttribute then v else .attribute "IntegerAttr" (.listed [.type "i64", v])

def array (items : List Value) : Value := .attribute "ArrayAttr" (.listed items)

def unit : Value := .attribute "UnitAttr" .none

def string (v : Value) : Value := .attribute "StringAttr" v

def int32 (n : Value) : Value := .attribute "IntegerAttr" (.listed [.type "i32", n])

def parsed (text : String) : Value := .attribute "Attribute" (.str text)

def denseInts : Builder := fun values context => do
  checkContext context
  match values with
  | .none => return .attribute "DenseI64ArrayAttr" (.listed [])
  | v => return .attribute "DenseI64ArrayAttr" v

def ints : Builder := fun values context => do
  match values with
  | .none => return array []
  | v =>
    if isArray v then return v
    let vs ← items v
    checkContext context
    return array (vs.map int64)

def entryAt (mapping : Value) (index : Nat) : Build Value := do
  match mapping with
  | .dict entries =>
    match entries.find? fun (k, _) => k.same (.int index) with
    | some (_, v) => return v
    | none => throw .noKey
  | v =>
    match (← items v)[index]? with
    | some v => return v
    | none => throw .outOfRange

def deviceMapping : Builder := fun mapping context => do
  if isArray mapping then return mapping
  let n ← length mapping
  let vs ← (List.range n).mapM (entryAt mapping)
  checkContext context
  return array vs

def indexLists : Builder := fun groups context => do
  if isArray groups then return groups
  let arrays ← (← items groups).mapM fun group => do
    let vs ← items group
    checkContext context
    return array (vs.map int64)
  checkContext context
  return array arrays

def flatSymbol : Builder := fun symbol context => do
  checkContext context
  return .attribute "FlatSymbolRefAttr" symbol

def symbols : Builder := fun names context => do
  let vs ← nowAll (← items names)
  checkContext context
  return parsed ("::".intercalate (vs.map fun q => "@" ++ q.text))

def dimension : Builder := fun dim context => do
  let d ← now dim
  checkContext context
  return parsed ("#gpu<dim " ++ d.text ++ ">")

def allReduce : Builder := fun _ _ => throw .noImport

def choice (alternatives : List String) : Builder := fun name _ => do
  if name.isMutable then throw .wrongKind
  match name with
  | .str s =>
    match alternatives.idxOf? s with
    | some i => return int32 (.int i)
    | none => throw .noKey
  | _ => throw .noKey

def contractLowering : Builder :=
  choice ["dot", "matmulintrinsics", "outerproduct", "parallelarith"]

def transposeLowering : Builder := choice ["eltwise", "flat_transpose", "shuffle"]

def transferSplit : Builder := choice ["none", "vector-transfer", "linalg-copy", "force-in-bounds"]

def registered : List (String × Builder) :=
  [("DenseI64ArrayAttr", denseInts), ("I64ArrayAttr", ints),
   ("DeviceMappingArrayAttr", deviceMapping), ("IndexListArrayAttr", indexLists),
   ("FlatSymbolRefAttr", flatSymbol), ("SymbolRefAttr", symbols),
   ("GPU_DimensionAttr", dimension), ("GPU_AllReduceOperationAttr", allReduce),
   ("VectorContractLoweringAttr", contractLowering),
   ("VectorTransposeLoweringAttr", transposeLowering), ("VectorTransferSplitAttr", transferSplit)]

def byName (name : String) : Builder := fun value context => do
  checkContext context
  return .built name value

def find? (name : String) : Build (Option Builder) := do
  match registered.lookup name with
  | some b => return some b
  | none => return if (← get).builders.contains name then some (byName name) else none

def make (builder : String) (value context : Value) : Build Value := do
  if value.isAttribute then return value
  match ← find? builder with
  | some b => b value context
  | none => return value

end Polyloom.AttributeBuilder
