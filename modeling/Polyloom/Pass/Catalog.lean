/-!
The passes that a pipeline can hold, with their options.

A pass is known under the words of its name joined by underscores.  An option that takes
lists writes them with commas.
-/

namespace Polyloom

structure PassOption where
  name : String
  takesList : Bool
  deriving DecidableEq, Repr, Inhabited

structure PassSpec where
  name : String
  options : List PassOption
  deriving DecidableEq, Repr, Inhabited

def PassOption.flag (name : String) : PassOption := ⟨name, false⟩

def PassOption.list (name : String) : PassOption := ⟨name, true⟩

namespace PassSpec

def plain (name : String) : PassSpec := ⟨name, []⟩

def firstPart : List PassSpec := [
  ⟨"sparse_compiler", [
    .flag "parallelization_strategy", .flag "enable_runtime_library",
    .flag "enable_buffer_initialization", .flag "vl", .flag "s2s_strategy",
    .flag "reassociate_fp_reductions", .flag "enable_index_optimizations", .flag "enable_amx",
    .flag "enable_arm_neon", .flag "enable_arm_sve", .flag "enable_x86vector"]⟩,
  .plain "add_outer_parallel_loop",
  ⟨"affine_data_copy_generate", [
    .list "fast_mem_capacity", .list "fast_mem_space", .flag "generate_dma",
    .list "min_dma_transfer", .flag "skip_non_unit_stride_loops", .list "slow_mem_space",
    .list "tag_mem_space"]⟩,
  .plain "affine_expand_index_ops", .plain "affine_loop_coalescing",
  ⟨"affine_loop_fusion", [
    .list "fusion_compute_tolerance", .list "fusion_fast_mem_space",
    .list "fusion_local_buf_threshold", .flag "fusion_maximal", .list "mode"]⟩,
  .plain "affine_loop_invariant_code_motion",
  ⟨"affine_loop_normalize", [.flag "promote_single_iter"]⟩,
  ⟨"affine_loop_tile", [
    .list "cache_size", .flag "separate", .list "tile_size", .list "tile_sizes"]⟩,
  ⟨"affine_loop_unroll", [
    .flag "cleanup_unroll", .list "unroll_factor", .flag "unroll_full",
    .list "unroll_full_threshold", .list "unroll_num_reps", .flag "unroll_up_to_factor"]⟩,
  ⟨"affine_loop_unroll_jam", [.list "unroll_jam_factor"]⟩,
  ⟨"affine_parallelize", [.list "max_nested", .flag "parallel_reductions"]⟩,
  .plain "affine_pipeline_data_transfer", .plain "affine_scalrep",
  .plain "affine_simplify_structures",
  ⟨"affine_super_vectorize", [
    .list "test_fastest_varying", .flag "vectorize_reductions", .list "virtual_vector_size"]⟩,
  ⟨"arith_bufferize", [.list "alignment"]⟩,
  ⟨"arith_emulate_wide_int", [.list "widest_int_supported"]⟩,
  .plain "arith_expand", .plain "arith_unsigned_when_equivalent", .plain "arm_neon_2d_to_intr",
  .plain "async_func_to_async_runtime",
  ⟨"async_parallel_for", [.flag "async_dispatch", .list "min_task_size", .list "num_workers"]⟩,
  .plain "async_runtime_policy_based_ref_counting", .plain "async_runtime_ref_counting",
  .plain "async_runtime_ref_counting_opt", .plain "async_to_async_runtime",
  .plain "buffer_deallocation", .plain "buffer_hoisting", .plain "buffer_host_register",
  .plain "buffer_loop_hoisting", .plain "buffer_results_to_out_params",
  .plain "bufferization_bufferize",
  ⟨"canonicalize", [
    .list "disable_patterns", .list "enable_patterns", .list "max_iterations",
    .list "max_num_rewrites", .flag "region_simplify", .flag "test_convergence", .flag "top_down"]⟩,
  .plain "control_flow_sink",
  ⟨"convert_affine_for_to_gpu", [.list "gpu_block_dims", .list "gpu_thread_dims"]⟩,
  ⟨"convert_amdgpu_to_rocdl", [.list "chipset"]⟩,
  ⟨"convert_arith_to_llvm", [.list "index_bitwidth"]⟩,
  ⟨"convert_arith_to_spirv", [.flag "emulate_lt_32_bit_scalar_types", .flag "enable_fast_math"]⟩,
  ⟨"convert_async_to_llvm", [.flag "use_opaque_pointers"]⟩,
  .plain "convert_bufferization_to_memref",
  ⟨"convert_cf_to_llvm", [.list "index_bitwidth", .flag "use_opaque_pointers"]⟩,
  ⟨"convert_cf_to_spirv", [.flag "emulate_lt_32_bit_scalar_types"]⟩,
  .plain "convert_complex_to_libm", .plain "convert_complex_to_llvm",
  .plain "convert_complex_to_standard", .plain "convert_elementwise_to_linalg",
  ⟨"convert_func_to_llvm", [
    .list "data_layout", .list "index_bitwidth", .flag "use_bare_ptr_memref_call_conv",
    .flag "use_opaque_pointers"]⟩,
  ⟨"convert_func_to_spirv", [.flag "emulate_lt_32_bit_scalar_types"]⟩,
  .plain "convert_gpu_launch_to_vulkan_launch"]

def secondPart : List PassSpec := [
  ⟨"convert_gpu_to_nvvm", [.flag "has_redux", .list "index_bitwidth", .flag "use_opaque_pointers"]⟩,
  ⟨"convert_gpu_to_rocdl", [
    .list "chipset", .list "index_bitwidth", .list "runtime", .flag "use_bare_ptr_memref_call_conv",
    .flag "use_opaque_pointers"]⟩,
  ⟨"convert_gpu_to_spirv", [.flag "use_64bit_index"]⟩,
  ⟨"convert_gpux_to_spirv", [
    .list "client_api", .flag "emulate_lt_32_bit_scalar_types", .flag "map_memory_space"]⟩,
  ⟨"convert_index_to_llvm", [.list "index_bitwidth"]⟩,
  .plain "convert_linalg_to_affine_loops",
  ⟨"convert_linalg_to_llvm", [.flag "use_opaque_pointers"]⟩,
  .plain "convert_linalg_to_loops", .plain "convert_linalg_to_parallel_loops",
  .plain "convert_linalg_to_std",
  ⟨"convert_math_to_funcs", [.list "min_width_of_fpowi_exponent"]⟩,
  .plain "convert_math_to_libm",
  ⟨"convert_math_to_llvm", [.flag "approximate_log1p"]⟩,
  .plain "convert_math_to_spirv",
  ⟨"convert_memref_to_spirv", [.list "bool_num_bits"]⟩,
  ⟨"convert_nvgpu_to_nvvm", [.flag "use_opaque_pointers"]⟩,
  ⟨"convert_openacc_to_llvm", [.flag "use_opaque_pointers"]⟩,
  .plain "convert_openacc_to_scf", .plain "convert_openmp_to_llvm",
  .plain "convert_parallel_loops_to_gpu", .plain "convert_pdl_to_pdl_interp",
  .plain "convert_scf_to_cf",
  ⟨"convert_scf_to_openmp", [.flag "use_opaque_pointers"]⟩,
  .plain "convert_scf_to_spirv", .plain "convert_shape_constraints", .plain "convert_shape_to_std",
  ⟨"convert_spirv_to_llvm", [.flag "use_opaque_pointers"]⟩,
  .plain "convert_tensor_to_linalg",
  ⟨"convert_tensor_to_spirv", [.flag "emulate_lt_32_bit_scalar_types"]⟩,
  .plain "convert_to_nvvm",
  ⟨"convert_vector_to_gpu", [.flag "use_nvgpu"]⟩,
  ⟨"convert_vector_to_llvm", [
    .flag "enable_amx", .flag "enable_arm_neon", .flag "enable_arm_sve", .flag "enable_x86vector",
    .flag "force_32bit_vector_indices", .flag "reassociate_fp_reductions",
    .flag "use_opaque_pointers"]⟩,
  ⟨"convert_vector_to_scf", [.flag "full_unroll", .flag "lower_tensors", .list "target_rank"]⟩,
  .plain "convert_vector_to_spirv", .plain "cse", .plain "decorate_spirv_composite_type_layout",
  .plain "drop_equivalent_buffer_results", .plain "duplicate_function_elimination",
  .plain "eliminate_empty_tensors", .plain "empty_tensor_to_alloc_tensor",
  .plain "ensure_debug_info_scope_on_llvm_func", .plain "expand_strided_metadata",
  ⟨"finalize_memref_to_llvm", [
    .list "index_bitwidth", .flag "use_aligned_alloc", .flag "use_generic_functions",
    .flag "use_opaque_pointers"]⟩,
  .plain "finalizing_bufferize", .plain "fold_memref_alias_ops", .plain "func_bufferize",
  .plain "generate_runtime_verification", .plain "gpu_async_region",
  ⟨"gpu_kernel_outlining", [.list "data_layout_str"]⟩,
  .plain "gpu_launch_sink_index_computations"]

def thirdPart : List PassSpec := [
  .plain "gpu_map_parallel_loops",
  ⟨"gpu_to_cubin", [.list "chip", .list "features", .list "gpu_binary_annotation", .list "triple"]⟩,
  ⟨"gpu_to_llvm", [
    .list "gpu_binary_annotation", .flag "use_bare_pointers_for_kernels",
    .flag "use_opaque_pointers"]⟩,
  ⟨"inline", [.list "default_pipeline", .list "max_iterations", .list "op_pipelines"]⟩,
  ⟨"insert_gpu_allocs", [.list "client_api"]⟩,
  .plain "int_range_optimizations",
  ⟨"launch_func_to_vulkan", [.flag "use_opaque_pointers"]⟩,
  .plain "linalg_bufferize",
  ⟨"linalg_detensorize", [.flag "aggressive_mode"]⟩,
  ⟨"linalg_fake_quantize", [.list "bits"]⟩,
  ⟨"linalg_fold_unit_extent_dims", [
    .flag "fold_one_trip_loops_only", .flag "use_rank_reducing_slices"]⟩,
  .plain "linalg_fuse_elementwise_ops", .plain "linalg_generalize_named_ops",
  .plain "linalg_inline_scalar_operands", .plain "linalg_named_op_conversion",
  ⟨"linalg_transform_patterns", [
    .flag "bubble_up_extract_slice_op_pattern", .flag "conv2d_im2col",
    .flag "decompose_convolutions", .flag "erase_unnecessary_inputs",
    .flag "erase_unused_operands_and_results", .flag "generalize_pad_tensor",
    .flag "generalize_tensor_pack", .flag "generalize_tensor_unpack",
    .flag "linalg_to_vector_patterns", .list "loop_type", .flag "patterns", .list "peeled_loops",
    .flag "skip_partial", .flag "swap_extract_slice_with_fill_pattern",
    .flag "swap_subtensor_padtensor", .list "tile_sizes", .flag "transform_pad_tensor",
    .flag "vector_transfer_forwarding_patterns"]⟩,
  .plain "llvm_legalize_for_export", .plain "llvm_optimize_for_nvvm_target",
  .plain "llvm_request_c_wrappers", .plain "llvmgpu_vector_lowering",
  .plain "loop_invariant_code_motion", .plain "lower_affine",
  ⟨"lower_host_to_llvm", [.flag "use_opaque_pointers"]⟩,
  .plain "lower_vector_mask",
  ⟨"map_memref_spirv_storage_class", [.list "client_api"]⟩,
  ⟨"memref_emulate_wide_int", [.list "widest_int_supported"]⟩,
  .plain "memref_expand",
  ⟨"nelli_map_memref_spirv_storage_class", [.list "client_api"]⟩,
  .plain "normalize_memrefs", .plain "nvgpu_optimize_shared_memory",
  ⟨"one_shot_bufferize", [
    .flag "allow_return_allocs", .flag "allow_unknown_ops", .list "analysis_fuzzer_seed",
    .list "analysis_heuristic", .flag "bufferize_function_boundaries", .flag "copy_before_write",
    .flag "create_deallocs", .list "dialect_filter", .list "function_boundary_type_conversion",
    .flag "must_infer_memory_space", .list "no_analysis_func_filter", .flag "print_conflicts",
    .flag "test_analysis_only", .list "unknown_type_conversion"]⟩,
  .plain "outline_shape_computation", .plain "pdl_bytecode_pass",
  ⟨"post_sparsification_rewrite", [
    .flag "enable_convert", .flag "enable_foreach", .flag "enable_runtime_library"]⟩,
  .plain "pre_sparsification_rewrite",
  ⟨"print_ir", [.list "label"]⟩,
  ⟨"print_op_stats", [.flag "json"]⟩,
  ⟨"promote_buffers_to_stack", [
    .list "max_alloc_size_in_bytes", .list "max_rank_of_allocated_memref"]⟩,
  ⟨"raise_scf_to_affine", [
    .flag "for_ops", .flag "load_ops", .flag "parallel_ops", .flag "store_ops"]⟩,
  .plain "reconcile_unrealized_casts", .plain "refbackend_generalize_tensor_pad",
  .plain "refbackend_munge_calling_conventions", .plain "refbackend_munge_memref_copy",
  .plain "remove_shape_constraints", .plain "resolve_ranked_shaped_type_result_dims",
  .plain "resolve_shaped_type_result_dims", .plain "sccp", .plain "scf_bufferize",
  .plain "scf_for_loop_canonicalization",
  ⟨"scf_for_loop_peeling", [.flag "skip_partial"]⟩]

def fourthPart : List PassSpec := [
  .plain "scf_for_loop_range_folding", .plain "scf_for_loop_specialization",
  .plain "scf_for_to_while",
  ⟨"scf_parallel_loop_collapsing", [
    .list "collapsed_indices_0", .list "collapsed_indices_1", .list "collapsed_indices_2"]⟩,
  .plain "scf_parallel_loop_fusion", .plain "scf_parallel_loop_specialization",
  ⟨"scf_parallel_loop_tiling", [.flag "no_min_max_bounds", .list "parallel_loop_tile_sizes"]⟩,
  .plain "serialize_spirv",
  ⟨"set_spirv_abi_attrs", [.list "workgroup_size"]⟩,
  ⟨"set_spirv_capabilities", [.list "client_api"]⟩,
  .plain "shape_bufferize", .plain "shape_to_shape_lowering",
  ⟨"snapshot_op_locations", [.list "filename", .list "tag"]⟩,
  ⟨"sparse_buffer_rewrite", [.flag "enable_buffer_initialization"]⟩,
  .plain "sparse_storage_specifier_to_llvm",
  ⟨"sparse_tensor_codegen", [.flag "enable_buffer_initialization"]⟩,
  ⟨"sparse_tensor_conversion", [.list "s2s_strategy"]⟩,
  ⟨"sparse_vectorization", [
    .flag "enable_simd_index32", .flag "enable_vla_vectorization", .list "vl"]⟩,
  ⟨"sparsification", [.flag "enable_index_reduction", .list "parallelization_strategy"]⟩,
  .plain "spirv_canonicalize_gl", .plain "spirv_lower_abi_attrs", .plain "spirv_rewrite_inserts",
  .plain "spirv_unify_aliased_resource", .plain "spirv_update_vce", .plain "spirv_webgpu_prepare",
  .plain "strip_debuginfo", .plain "symbol_dce",
  ⟨"symbol_privatize", [.list "exclude"]⟩,
  .plain "tensor_bufferize",
  ⟨"tiling_interface", [
    .list "filter_name", .list "interchange", .list "strategy", .list "tile_sizes"]⟩,
  .plain "topological_sort", .plain "tosa_infer_shapes", .plain "tosa_layerwise_constant_fold",
  .plain "tosa_make_broadcastable", .plain "tosa_optional_decompositions",
  ⟨"tosa_to_arith", [.flag "include_apply_rescale", .flag "use_32_bit"]⟩,
  .plain "tosa_to_linalg", .plain "tosa_to_linalg_named", .plain "tosa_to_scf",
  .plain "tosa_to_tensor",
  ⟨"tosa_validate", [.list "profile"]⟩,
  .plain "transform_dialect_check_uses", .plain "transform_dialect_erase_schedule",
  ⟨"transform_dialect_interpreter", [
    .list "bind_first_extra_to_ops", .list "bind_first_extra_to_params",
    .list "bind_first_extra_to_results_of_ops", .list "bind_second_extra_to_ops",
    .list "bind_second_extra_to_params", .list "bind_second_extra_to_results_of_ops",
    .list "debug_payload_root_tag", .list "debug_transform_root_tag",
    .flag "enable_expensive_checks", .list "transform_file_name"]⟩,
  .plain "vector_bufferize",
  ⟨"view_op_graph", [
    .list "max_label_len", .flag "print_attrs", .flag "print_control_flow_edges",
    .flag "print_data_flow_edges", .flag "print_result_types"]⟩]

def all : List PassSpec := firstPart ++ secondPart ++ thirdPart ++ fourthPart

def find? (name : String) : Option PassSpec := all.find? fun p => p.name = name

end PassSpec

end Polyloom
