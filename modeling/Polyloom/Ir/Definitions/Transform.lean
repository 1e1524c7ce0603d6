import Polyloom.Ir.Definition

/-!
Operations that transform other operations: patterns, lowering, and mapping to devices.
-/

namespace Polyloom.OpDefinition

def applyPatterns : OpDefinition :=
  of "t_common.ApplyPatternsOp" "transform.apply_patterns" [.one "target",
    .flag "additional_patterns", .flag "bubble_collapse", .flag "bubble_expand",
    .flag "bubble_pack_un_pack", .flag "canonicalization", .flag "cse",
    .flag "erase_unnecessary_tensor_operands", .flag "expand_memref_strided_metadata",
    .flag "fold_memref_aliases", .flag "fold_reassociative_reshapes",
    .flag "fold_tensor_empty_extract", .flag "licm", .flag "linalg_elementwise_greedy_fusion",
    .flag "lower_transfer_op_permutations", .flag "lower_vector_masks",
    .flag "rank_reducing_linalg", .flag "rank_reducing_linalg_via_reshapes",
    .flag "rank_reducing_vector", .flag "swap_padding_elide_conditional", .flag "swapping_patterns",
    .flag "tiling_canonicalization", .flag "unroll_vectors_gpu_mma_sync",
    .flag "unroll_vectors_gpu_wmma"]

def shareForallOperands : OpDefinition :=
  of "t_common.ShareForallOperandsOp" "transform.share_forall_operands" [.one "forall_op",
    .attr? "share_operands" "DenseI64ArrayAttr"] [.one "result"]

def bufferize : OpDefinition :=
  of "t_common.TransformBufferizeOp" "transform.bufferize" [.one "target", .flag "target_gpu",
    .flag "test_analysis_only", .flag "print_conflicts"] [.one "result"]

def mapForeachToBlocks : OpDefinition :=
  of "t_gpu.MapForeachToBlocks" "transform.gpu.map_foreach_to_blocks" [.one "target",
    .attr? "gridDim" "I64ArrayAttr", .flag "generate_gpu_launch"] [.one "result"]

def mapNestedForeachToThreads : OpDefinition :=
  of "t_gpu.MapNestedForeachToThreads" "transform.gpu.map_nested_foreach_to_threads" [.one "target",
    .attr? "blockDim" "I64ArrayAttr", .bool? "syncAfterDistribute"] [.one "result"]

def lowerVectors : OpDefinition :=
  of "t_vector.LowerVectorsOp" "transform.vector.lower_vectors" [.one "target",
    .attr? "contraction_lowering" "VectorContractLoweringAttr",
    .attr? "multireduction_lowering" "VectorMultiReductionLoweringAttr",
    .attr? "split_transfers" "VectorTransferSplitAttr",
    .attr? "transpose_lowering" "VectorTransposeLoweringAttr", .bool? "transpose_avx2_lowering",
    .bool? "unroll_vector_transfers"] [.one "results_"]

def transformOps : List OpDefinition := [
  { of "t_common.ApplyBufferOptimizationsOp" "transform.apply_buffer_optimizations"
    [.one "target"] with constructible := false },
  applyPatterns,
  of "t_common.HoistStaticAllocOp" "transform.hoist_static_alloc" [.one "target"],
  shareForallOperands,
  bufferize,
  of "t_common.TransformEliminateEmptyTensorsOp" "transform.eliminate_empty_tensors"
    [.one "target"],
  mapForeachToBlocks,
  mapNestedForeachToThreads,
  of "t_llvm_gpu.CreateAsyncGroupsOp" "transform.create_async_groups" [.one "target",
    .attr "use_mma_sync" "BoolAttr" (.mandatory "BoolAttr")],
  of "t_llvm_gpu.LayoutAnalysisAndDistributionOp" "transform.layout_analysis_and_distribution"
    [.one "target"] [.many "result"],
  of "t_llvm_gpu.PromoteOperandsOp" "transform.promote_operands" [.one "target",
    .attr? "indices" "DenseI64ArrayAttr"] [.many "result"],
  of "t_llvm_gpu.VectorToMMAConversionOp" "transform.vector.vector_to_mma_conversion"
    [.one "target", .flag "use_mma_sync", .flag "use_wmma"],
  of "t_llvm_gpu.VectorToWarpExecuteOnLane0Op" "transform.vector.to_warp_execute_on_lane_0"
    [.one "target", .attr? "warp_size" "I64Attr" (.mandatory "IntegerAttr")] [.one "result"],
  { of "t_llvm_gpu.VectorWarpDistributionOp" "transform.vector.warp_distribute" [.one "target"] with
    constructible := false },
  of "t_structured.EmitRemarkOp" "transform.emit_remark" [.one "handle", .text "message"],
  of "t_structured.LowerToLLVMOp" "transform.lower_to_llvm" [.bool? "reassociate_fp_reductions",
    .bool? "enable_index_optimizations", .bool? "enable_arm_neon", .bool? "enable_arm_sve",
    .bool? "enable_amx", .bool? "enable_x86vector", .bool? "enable_async"],
  of "t_structured.MatchCallbackOp" "transform.match_callback" [.text "callback_name",
    .attr "failure_propagation_mode" "FailurePropagationMode", .many "inputs"] [.many "outputs"],
  of "t_structured.RegisterMatchCallbacksOp" "transform.register_match_callbacks",
  of "t_structured.TakeFirstOp" "transform.take_first" [.many "inputs"] [.one "first", .one "rest"],
  lowerVectors]

end Polyloom.OpDefinition
