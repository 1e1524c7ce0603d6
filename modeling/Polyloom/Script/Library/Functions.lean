import Polyloom.Builder.ModuleClass
import Polyloom.Builder.Transform
import Polyloom.Script.Procedure

/-!
Procedures that define functions, kernels and sequences of transformations.
-/

namespace Polyloom.Library

open Build Procedure

/-! ## Functions -/

def optionOf (named : List (String × Value)) (name : String) : Value :=
  (named.lookup name).getD .none

def definitionParams : List String :=
  ["rewrite_ast_", "rewrite_bytecode_", "range_ctor", "func_ctor"]

def defineFunction (call : Caller) (args : CallArgs Value) : Build Value := do
  let (known, options) := args.named.partition fun (k, _) => k = "f" || definitionParams.contains k
  let params := .required "f" :: definitionParams.map (.optional ·)
  match ← settle (bindParams params ⟨args.positional, known⟩) with
  | [f, closing, recoding, range, ctor] =>
    Function.define call f closing recoding range ctor options
  | _ => throw .wrongKind

/-- A function that is defined when it is called, in the container that the options name. -/
def deferFunction (args : CallArgs Value) : Build Value := do
  match args.named.lookup "mlir_module" with
  | none => throw (.assertion "lazy eval necessitates providing a container module")
  | some container =>
    let options := args.named.filter fun (k, _) => k ≠ "mlir_module"
    newObject (.lazyFunction ⟨args.positional, options⟩ container)

def orElse (v default : Value) : Value := if v.isNone then default else v

def functionProcedures : List (String × Procedure) :=
  [("func.mlir_func", .decorator defineFunction),
   ("func.lazy_mlir_func", .decorator fun _ args => deferFunction args),
   ("func.MLIRFunc",
     .fixed ["f", .optional "func_op_ctor", .optional "func_op_terminator",
       .optional "attributes", .optional "build" (.bool true), .optional "qualname"]
       fun call vs => match vs with
       | [f, ctor, terminator, attributes, build, qualifier] =>
         Function.trace call ⟨f, [], attributes, orElse ctor (.ref "core.func.FuncOp"),
           orElse terminator (.ref "core.func.ReturnOp"), qualifier, false, none⟩ build
       | _ => throw .wrongKind),
   ("func.call_func",
     of3 "symbol_name" "call_args" "return_types" Function.callSymbol),
   ("func.declare",
     .fixed ["symbol_name", "input_annots", .optional "result_annots",
       .optional "func_op_ctor" (.ref "core.func.FuncOp")]
       fun call vs => match vs with
       | [symbol, inputs, outputs, ctor] => Function.declare call symbol inputs outputs ctor
       | _ => throw .wrongKind),
   ("func.visibility_attr", of1 "visibility" fun v => return AttributeBuilder.string v),
   ("annot.Annot", of2 "py_type" "mlir_type" fun holder t =>
     return .annot holder t)]

/-! ## Device code -/

def deviceFuncOp (call : Caller) (name type visibility builder : Value) : Build Value := do
  let made ← Launch.funcOp name type visibility
  if ← truth builder then
    let entry ← Function.addEntry made
    within entry do
      let _ ← call builder ⟨[made], []⟩
  return made

def launchProcedure : Procedure :=
  .decorator fun call args => do
    match ← settle (bindParams ["f", "grid_size", "block_size"] args) with
    | [f, grid, block] =>
      let body (blocks threads : List Value) : Build Unit := do
        let _ ← call f ⟨[], [("block_ids", .tuple blocks), ("thread_ids", .tuple threads)]⟩
      done (Launch.launch body grid block)
    | _ => throw .wrongKind

def dim : Param := .required "dim"

def deviceProcedures : List (String × Procedure) :=
  [("gpu.LaunchFuncOp",
     located (.fixed ["grid_size", "block_size", .optional "kernel",
       .optional "operands", .optional "asyncDependencies", .optional "dynamicSharedMemorySize"]
       fun _ vs => match vs with
       | [grid, block, kernel, operands, dependencies, memory] =>
         Launch.launchFuncOp grid block kernel operands dependencies memory
       | _ => throw .wrongKind)),
   ("gpu.LaunchOp",
     located (of4 "grid_size" "block_size" (.optional "asyncDependencies")
       (.optional "dynamicSharedMemorySize") Launch.launchOp)),
   ("gpu.gpu_launch", launchProcedure),
   ("gpu.FuncOp",
     located (.fixed ["name", "type", .keyword "visibility", .keyword "body_builder"]
       fun call vs => match vs with
       | [name, type, visibility, builder] => deviceFuncOp call name type visibility builder
       | _ => throw .wrongKind)),
   ("gpu.ModuleOp", located (of0 Launch.moduleOp)),
   ("gpu.MLIRFunc",
     .fixed ["f", .optional "attributes", .optional "build" (.bool true), .optional "qualname"]
       fun call vs => match vs with
       | [f, attributes, build, qualifier] => Function.traceKernel call f attributes build qualifier
       | _ => throw .wrongKind),
   ("gpu._dimAttr", of2 dim (.optional "context") AttributeBuilder.dimension),
   ("gpu.gpu_all_reduce_op_attr", of2 "op" (.optional "context") AttributeBuilder.allReduce),
   ("gpu.block_id", of1 dim Launch.blockId),
   ("gpu.block_id_x", of0 (Launch.blockId (.str "x"))),
   ("gpu.block_id_y", of0 (Launch.blockId (.str "y"))),
   ("gpu.block_attr", of1 dim (Launch.axis AttributeText.block)),
   ("gpu.thread_attr", of1 dim (Launch.axis AttributeText.thread)),
   ("gpu.gpu_async_token", of0 (return Launch.tokenType)),
   ("gpu.set_container_module", of1 "module" Launch.setContainer),
   ("gpu.host_register", of1 "memref" Launch.hostRegister),
   ("gpu.all_reduce", of3 "op" "val" (.optional "uniform" (.bool false))
     Launch.allReduce)]

/-! ## Sequences -/

def functionName (f : Value) : Build String := do
  match f with
  | .ref path => return Text.lastPiece path "."
  | f => return (← Function.signature f).name

def buildSequence (call : Caller) (args : CallArgs Value) : Build Value := do
  let params : List Param :=
    ["f", .optional "target" Transform.anyHandle, .optional "target_tag"]
  match ← settle (bindParams params args) with
  | [f, target, tag] =>
    let tag ← if tag.isNone then pure (Value.str (← functionName f)) else pure tag
    let body (vs : List Value) : Build Unit := do
      let _ ← call f ⟨vs, []⟩
    done (Transform.sequence body target tag)
  | _ => throw .wrongKind

def target : Param := .required "target"

def patternFlags : List String :=
  ["additional_patterns", "bubble_collapse", "bubble_expand",
   "bubble_pack_un_pack", "canonicalization",
   "cse", "erase_unnecessary_tensor_operands", "expand_memref_strided_metadata",
     "fold_memref_aliases",
   "fold_reassociative_reshapes", "fold_tensor_empty_extract", "licm",
   "linalg_elementwise_greedy_fusion", "lower_transfer_op_permutations", "lower_vector_masks",
   "rank_reducing_linalg", "rank_reducing_linalg_via_reshapes", "rank_reducing_vector",
   "swap_padding_elide_conditional", "swapping_patterns", "tiling_canonicalization",
   "unroll_vectors_gpu_mma_sync", "unroll_vectors_gpu_wmma"]

def loweringOptions : List String :=
  ["contraction_lowering", "multireduction_lowering", "split_transfers", "transpose_lowering",
   "transpose_avx2_lowering", "unroll_vector_transfers"]

def vectorize (args : List (String × Value)) : Build Value :=
  Transform.vectorizeOp (optionOf args "target") (args.filter fun (k, _) => k ≠ "target")

def sequenceProcedures : List (String × Procedure) :=
  [("transform.sequence", .decorator buildSequence),
   ("transform.lazy_sequence", .decorator fun _ args => newObject (.lazySequence args)),
   ("transform.match_name", of2 target "name" Transform.matchName),
   ("transform.match", of2 target "names" Transform.matchNames), ("transform.get_parent_for_loop",
     of2 target (.optional "num_loops" (.int 1)) Transform.parentLoop),
   ("transform.unroll", of2 target "factor" fun v n => done (Transform.unroll v n)),
   ("transform.tile_to_scf_for", of2 target "tile_sizes" Transform.tileToFor),
   ("transform.tile_linalg_to_scf_for", of2 target "sizes" Transform.tileLinalgToFor),
   ("transform.tile_to_scf_forall",
     of3 target "tile_sizes" (.optional "mapping") Transform.tileToForall),
   ("transform.map_nested_foreach_to_threads",
     of2 target "block_dims" Transform.mapToThreads),
   ("transform.map_foreach_to_blocks",
     of3 target "grid_dims" (.optional "generate_gpu_launch" (.bool true))
       Transform.mapToBlocks),
   ("transform.pack_greedily",
     of3 target "gemm_packed_sizes" "gemm_inner_dims_order"
       Transform.packGreedily),
   ("transform.lower_pack", of1 target Transform.lowerPack),
   ("transform.lower_unpack", of1 target Transform.lowerUnpack),
   ("transform.apply_patterns",
     named (target :: patternFlags.map (.optional ·)) Transform.applyPatterns),
   ("transform.cast", of2 "output" "input" Transform.castHandle),
   ("transform.share_forall_operands",
     of2 "forall_op" "share_operands" Transform.shareForallOperands),
   ("transform.generalize", of1 target Transform.generalize),
   ("transform.VectorizeOp",
     located (named (target :: Transform.vectorizeOptions.map (.keyword ·)) vectorize)),
   ("transform.vectorize",
     named (target :: Transform.vectorizeOptions.map (.optional ·)) fun args => do
       result (← vectorize args)),
   ("transform.hoist_redundant_tensor_subsets", of1 target fun v =>
     done (Transform.hoistRedundantSubsets v)),
   ("transform.bufferize", of1 target Transform.bufferize),
   ("transform.get_vector_lowering_attr",
     of2 "op" (.optional "context") AttributeBuilder.contractLowering),
   ("transform.get_transpose_lowering_attr",
     of2 "op" (.optional "context") AttributeBuilder.transposeLowering),
   ("transform.get_transfer_split_lowering_attr",
     of2 "op" (.optional "context") AttributeBuilder.transferSplit),
   ("transform.lower_vectors",
     named (target :: loweringOptions.map (.optional ·)) Transform.lowerVectors)]

end Polyloom.Library
