import Polyloom.Builder.ControlFlow
import Polyloom.Ir.Definitions.Gpu

/-!
Device code: functions and modules of kernels, and the operations that launch them.
-/

namespace Polyloom.Launch

open Build

def launchSegments : List Segment := .variadic :: List.replicate 6 .single ++ [.optional]

def launchKind : OpKind :=
  { name := "gpu.launch", cls := "gpu.LaunchOp", regions := 1, segments := some launchSegments }

def launchFuncKind : OpKind :=
  { name := "gpu.launch_func", cls := "gpu.LaunchFuncOp",
    segments := some (launchSegments ++ [.variadic]) }

def threeSizes (v : Value) : Build (List Value) := do
  let vs ← items v
  if vs.length = 3 then return vs else throw (.badValue "")

def tokenType : Value := .type AttributeText.asyncToken

def launchFuncOp (grid block kernel operands dependencies sharedMemory : Value) : Build Value := do
  let dependencies := if dependencies.isNone then .listed [] else dependencies
  let grid ← threeSizes grid
  let block ← threeSizes block
  let kernel ← AttributeBuilder.make "SymbolRefAttr" kernel AttributeBuilder.defaultContext
  generic launchFuncKind (dependencies :: grid ++ block ++ [sharedMemory, operands])
    [("kernel", kernel)] [tokenType]

def launchOp (grid block dependencies sharedMemory : Value) : Build Value := do
  let results := if dependencies.isNone then [] else [tokenType]
  let dependencies := if dependencies.isNone then .listed [] else dependencies
  let grid ← threeSizes grid
  let block ← threeSizes block
  let made ← generic launchKind (dependencies :: grid ++ block ++ [sharedMemory]) [] results
  let _ ← appendBlock (← opId made) 0 (List.replicate 12 "index")
  return made

/-- Ones with the first `n` of them replaced by the given entries. -/
def overwrite (n : Nat) (entries : List Value) : List Value :=
  entries ++ (List.replicate 3 (.int 1)).drop n

def launch (body : List Value → List Value → Build Unit) (grid block : Value) : Build Unit := do
  let n ← length grid
  let gridSizes := overwrite n (← items grid)
  let blockSizes := overwrite n (← items block)
  let gridSizes ← gridSizes.mapM ControlFlow.indexValue
  let blockSizes ← blockSizes.mapM ControlFlow.indexValue
  let made ← launchOp (.listed gridSizes) (.listed blockSizes) .none .none
  let entry ← blockAt (← opId made) 0 0
  within entry do
    let args ← blockArgs entry
    body (args.take 3) ((args.drop 3).take 3)
    let _ ← native "gpu" "TerminatorOp" []

/-! ## Functions and modules -/

def funcOp (name type visibility : Value) : Build Value := do
  let name := AttributeBuilder.string (.str (← now name).text)
  let type := Value.attribute "TypeAttr" (← functionType type)
  let visibility ← if visibility.isNone then pure .none
    else pure (AttributeBuilder.string (.str (← now visibility).text))
  ({ OpDefinition.gpuFunc with cls := "gpu.FuncOp" }).build
    [("sym_name", name), ("function_type", type), ("sym_visibility", visibility)]

def moduleOp : Build Value := do
  let made ← generic { OpDefinition.gpuModule.kind with cls := "gpu.ModuleOp" } [] [] []
  let _ ← appendBlock (← opId made) 0 []
  return made

/-! ## Queries -/

def blockId (dim : Value) : Build Value := do
  Arith.arithResult (← native "gpu" "BlockIdOp" [dim])

def hostRegister (buffer : Value) : Build Value := native "gpu" "HostRegisterOp" [buffer]

def allReduce (op value uniform : Value) : Build Value := do
  result (← native "gpu" "AllReduceOp" [value] [("op", op), ("uniform", uniform)])

def setContainer (module : Value) : Build Value := do
  setAttribute (← opId module) "gpu.container_module" AttributeBuilder.unit
  return module

def axis (text : Datum → Except Fault String) (dim : Value) : Build Value := do
  let d : Datum := match dim with
    | .str s => .str s
    | .list _ | .listed _ | .dict _ => .list []
    | _ => .null
  return AttributeBuilder.parsed (← settle (text d))

end Polyloom.Launch
