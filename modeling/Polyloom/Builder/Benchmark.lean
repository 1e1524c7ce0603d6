import Polyloom.Builder.ControlFlow
import Polyloom.Ir.Reader

/-!
Programs that measure the time of a kernel.

The kernel's last parameters are its outputs.  The wrapper has the parameters of the kernel
and a buffer for the times, and runs the kernel in a loop that carries the outputs.
-/

namespace Polyloom.Benchmark

open Build

def timerFunc : Build Value := do
  let type := Value.tuple [.listed [], .listed [.type "i64"]]
  let made ← funcOp (.str "nanoTime") type (.str "private")
  setAttribute (← opId made) "llvm.emit_c_interface" AttributeBuilder.unit
  return made

def carriedPart (n : Nat) (vs : List Value) : List Value :=
  (vs.drop (vs.length - (n + 1))).dropLast

def fixedPart (n : Nat) (vs : List Value) : List Value := vs.take (vs.length - (n + 1))

def functionId : Value → Build Nat
  | .op id "func.FuncOp" | .op id "gpu.FuncOp" => return id
  | _ => throw .noAttribute

def wrapperFunc (kernel timer : Value) : Build Value := do
  let id ← functionId kernel
  let (_, outputs) := TypeText.signature (← OpReader.functionTypeOf id)
  let n := outputs.length
  let buffer := TypeText.ranked "memref" [n.repr] "i64"
  let inputs ← (← blockArgs (← OpReader.entryBlock id)).mapM memberType
  let made ← funcOp (.str "main")
    (.tuple [.listed (inputs ++ [.type buffer]), .listed (outputs.map Value.type)]) (.str "public")
  let main ← opId made
  setAttribute main "llvm.emit_c_interface" AttributeBuilder.unit
  let entry ← OpReader.addEntryBlock main
  within entry do
    let args ← blockArgs entry
    let times := args.getLastD .none
    let zero ← indexConstantOp (.int 0)
    let runs ← native "memref" "DimOp" [times, zero]
    let one ← indexConstantOp (.int 1)
    let loop ← forOp zero runs one (carriedPart n args)
    let body ← blockAt (← opId loop) 0 0
    within body do
      let inner ← blockArgs body
      let start ← callOp timer [.listed []]
      let run ← callOp kernel [.listed (fixedPart n args ++ inner.drop 1)]
      let stop ← callOp timer [.listed []]
      let taken ← native "arith" "SubIOp" [stop, start]
      let _ ← native "memref" "StoreOp" [taken, times, .listed (inner.take 1)]
      let _ ← native "scf" "YieldOp" [.listed (← results run)]
    let _ ← native "func" "ReturnOp" [loop]
  return made

def kernelOf (module : Value) : Build Value := do
  let id ← opId module
  let regions := (← op id).regions
  require (regions.length = 1) "Expected kernel module to have only one region"
  let blocks := regions.flatten
  require (blocks.length = 1) "Expected kernel module to have only one block"
  let ops := ((← get).blockOf (blocks.headD 0)).ops
  require (ops.length = 1) "Expected kernel module to have only one operation"
  let kernel := ops.headD 0
  return .op kernel (← op kernel).cls

def symbolText (v : Value) : Build String := do
  match v with
  | .op id _ =>
    match (← op id).attributes.lookup "sym_name" with
    | some name => return "@" ++ name.payload.text
    | none => return v.display
  | v => return v.display

def wrap (module : Value) : Build Value := do
  let kernel ← kernelOf module
  let timer ← timerFunc
  let wrapper ← wrapperFunc kernel timer
  let texts ← [timer, wrapper, kernel].mapM symbolText
  program (.str (String.join texts))

def doubles : ElementType := .floating 8 .little

/-- A tensor of zeros of which a number of elements is set.  Positions are drawn, so the tensor is
known where there is only one to draw. -/
def sparseTensor (dimensions count : Value) : Build Value := do
  let sizes ← match dimensions with
    | .int n => pure [Value.int n]
    | v => items v
  let sizes ← sizes.mapM fun
    | .int n =>
      if n < 0 then throw (.badValue "negative dimensions are not allowed") else pure n.toNat
    | _ => throw .wrongKind
  match count.int? with
  | none => throw .wrongKind
  | some n =>
    if n ≤ 0 then return Value.array doubles sizes []
    if !dimensions.isMutable && dimensions.isInt then throw .wrongKind
    if sizes.any (· = 0) then throw (.badValue "low >= high")
    if sizes.isEmpty then throw .outOfRange
    return Value.array doubles sizes [0]

end Polyloom.Benchmark
