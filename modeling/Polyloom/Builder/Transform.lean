import Polyloom.Builder.Arith
import Polyloom.Ir.Definitions.Transform

/-!
Sequences of transformations, and the transformations that they apply to handles.
-/

namespace Polyloom.Transform

open Build

def handleType (name : String) : Value := .type (TypeText.handle (some name))

def handleTypeOf (name : Value) : Build Value := do
  match ← now name with
  | .none => return .type (TypeText.handle none)
  | v => return handleType v.text

def anyHandle : Value := .type (TypeText.handle none)

/-! ## Sequences -/

def sequence (body : List Value → Build Unit) (target tag : Value) : Build Unit := do
  let target ← match target with
    | .str name => pure (handleType name)
    | v => pure v
  let made ← sequenceOp (.str "PROPAGATE") (.listed []) target
  let id ← opId made
  setAttribute id "transform.target_tag" (AttributeBuilder.string tag)
  let block ← blockAt id 0 0
  within block do
    body (← blockArgs block)
    let _ ← native "transform" "YieldOp" []

/-! ## Transformations -/

def structured (cls : String) (args : List Value) (named : List (String × Value) := []) :
    Build Value := native "transform.structured" cls args named

def loop (cls : String) (args : List Value) (named : List (String × Value) := []) : Build Value :=
  native "transform.loop" cls args named

def matchName (target name : Value) : Build Value := do
  let type ← handleTypeOf name
  let target ← asValue target
  result (← structured "MatchOp" [type, target]
    [("ops", AttributeBuilder.array [AttributeBuilder.string name])])

def matchNames (target names : Value) : Build Value := do result (← matchOpNames target names)

def parentLoop (target count : Value) : Build Value := do
  result (← loop "GetParentForOp" [handleType "scf.for", target] [("num_loops", count)])

def unroll (target factor : Value) : Build Unit := do
  let _ ← loop "LoopUnrollOp" [target] [("factor", factor)]

def tileToFor (target sizes : Value) : Build Value := do
  let t ← memberType target
  let n ← length sizes
  let made ← structured "TileToScfForOp"
    [t, .listed (List.replicate n t), target, .listed []] [("static_sizes", sizes)]
  return .tuple (← results made)

def tileLinalgToFor (target sizes : Value) : Build Value :=
  structured "TileOp" [handleType "scf.for", target] [("sizes", sizes)]

def tileToForall (target sizes mapping : Value) : Build Value := do
  let t ← memberType target
  let made ← structured "TileToForallOp" [t, t, target]
    [("num_threads", .listed []), ("tile_sizes", .listed []),
     ("static_tile_sizes", ← AttributeBuilder.denseInts sizes .none), ("mapping", mapping)]
  return .tuple (← results made)

def mapToThreads (target dims : Value) : Build Value := do
  firstResult (← OpDefinition.mapNestedForeachToThreads.build
    [("result", ← memberType target), ("target", target), ("blockDim", dims)])

def mapToBlocks (target dims generateLaunch : Value) : Build Value := do
  firstResult (← OpDefinition.mapForeachToBlocks.build
    [("result", ← memberType target), ("target", target), ("gridDim", dims),
     ("generate_gpu_launch", generateLaunch)])

def packGreedily (target sizes order : Value) : Build Value := do
  let sizes ← AttributeBuilder.denseInts sizes .none
  let order ← AttributeBuilder.denseInts order .none
  structured "PackGreedilyOp" [handleType "linalg.generic", target, .listed []]
    [("static_gemm_packed_sizes", sizes), ("gemm_inner_dims_order", order)]

def lowerPack (target : Value) : Build Value :=
  structured "LowerPackOp"
    [handleType "tensor.pad", handleType "tensor.expand_shape",
      handleType "linalg.transpose", target]

def lowerUnpack (target : Value) : Build Value :=
  structured "LowerUnPackOp"
    [handleType "tensor.empty", handleType "linalg.transpose", handleType "tensor.collapse_shape",
     handleType "tensor.extract_slice", target]

def applyPatterns (args : List (String × Value)) : Build Value :=
  OpDefinition.applyPatterns.build args

def castHandle (name target : Value) : Build Value := do
  result (← native "transform" "CastOp" [← handleTypeOf name, target])

def shareForallOperands (target operands : Value) : Build Value := do
  firstResult (← OpDefinition.shareForallOperands.build
    [("result", handleType "scf.forall"), ("forall_op", target), ("share_operands", operands)])

def generalize (target : Value) : Build Value := do result (← structured "GeneralizeOp" [target])

def vectorizeOptions : List String :=
  ["vectorize_padding", "vectorize_nd_extract", "disable_multi_reduction_to_contract_patterns",
   "disable_transfer_permutation_map_lowering_patterns"]

def vectorizeOp (target : Value) (options : List (String × Value)) : Build Value := do
  structured "VectorizeOp" [anyHandle, ← asValue target] options

def hoistRedundantSubsets (target : Value) : Build Unit := do
  let _ ← structured "HoistRedundantTensorSubsetsOp" [anyHandle, target]

def bufferize (target : Value) : Build Value := do
  firstResult (← OpDefinition.bufferize.build [("result", anyHandle), ("target", target)])

def lowerVectors (args : List (String × Value)) : Build Value := do
  firstResult (← OpDefinition.lowerVectors.build (("results_", anyHandle) :: args))

end Polyloom.Transform
