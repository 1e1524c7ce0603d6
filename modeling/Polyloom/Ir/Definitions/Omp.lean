import Polyloom.Ir.Definition

/-!
Operations of the parallel programming dialect with worksharing loops, tasks and sections.
-/

namespace Polyloom.OpDefinition

def inRegion (d : OpDefinition) : OpDefinition :=
  { d with regions := ["region"], segmented := true, hasContext := false }

def ompParallel : OpDefinition :=
  inRegion (of "omp_gen.ParallelOp" "omp.parallel" [.maybe "if_expr_var", .maybe "num_threads_var",
    .many "allocate_vars", .many "allocators_vars", .many "reduction_vars",
    .attr? "reductions" "SymbolRefArrayAttr", .attr? "proc_bind_val" "ProcBindKindAttr"])

def ompTerminator : OpDefinition :=
  of "omp_gen.TerminatorOp" "omp.terminator"

def ompLoop : OpDefinition :=
  inRegion (of "omp_gen.WsLoopOp" "omp.wsloop" [.many "lowerBound", .many "upperBound",
    .many "step", .many "linear_vars", .many "linear_step_vars", .many "reduction_vars",
    .maybe "schedule_chunk_var", .attr? "reductions" "SymbolRefArrayAttr",
    .attr? "schedule_val" "ScheduleKindAttr", .attr? "schedule_modifier" "ScheduleModifierAttr",
    .flag "simd_modifier", .flag "nowait", .int? "ordered_val", .attr? "order_val" "OrderKindAttr",
    .flag "inclusive"])

def ompYield : OpDefinition :=
  of "omp_gen.YieldOp" "omp.yield" [.many "results_"]

def ompOps : List OpDefinition :=
  [ompParallel, ompTerminator, ompLoop, ompYield] ++ inDialect "omp" [
  { of "AtomicCaptureOp" "atomic.capture" [.int? "hint_val",
    .attr? "memory_order_val" "MemoryOrderKindAttr"] with
    regions := ["region"], hasContext := false },
  { of "AtomicReadOp" "atomic.read" [.one "x", .one "v", .int? "hint_val",
    .attr? "memory_order_val" "MemoryOrderKindAttr"] with hasContext := false },
  { of "AtomicUpdateOp" "atomic.update" [.one "x", .int? "hint_val",
    .attr? "memory_order_val" "MemoryOrderKindAttr"] with
    regions := ["region"], hasContext := false },
  { of "AtomicWriteOp" "atomic.write" [.one "address", .one "value", .int? "hint_val",
    .attr? "memory_order_val" "MemoryOrderKindAttr"] with hasContext := false },
  of "BarrierOp" "barrier",
  { of "CancelOp" "cancel" [.maybe "if_expr",
    .attr "cancellation_construct_type_val" "CancellationConstructTypeAttr"] with
    hasContext := false },
  { of "CancellationPointOp" "cancellationpoint"
    [.attr "cancellation_construct_type_val" "CancellationConstructTypeAttr"] with
    hasContext := false },
  { of "CriticalDeclareOp" "critical.declare" [.symbol,
    .attr? "hint_val" "I64Attr" (.mandatory "IntegerAttr")] with hasContext := false },
  { of "CriticalOp" "critical" [.attr? "name" "FlatSymbolRefAttr"] with
    regions := ["region"], hasContext := false },
  of "FlushOp" "flush" [.many "varList"],
  { of "MasterOp" "master" with regions := ["region"] },
  { of "OrderedOp" "ordered" [.many "depend_vec_vars",
    .attr? "depend_type_val" "ClauseDependAttr", .int? "num_loops_val"] with hasContext := false },
  { of "OrderedRegionOp" "ordered_region" [.flag "simd"] with
    regions := ["region"], hasContext := false },
  { of "ReductionDeclareOp" "reduction.declare" [.symbol,
    .attribute "type" "type_" (.required "TypeAttr") .hidden] with
    regions := ["initializerRegion", "reductionRegion", "atomicReductionRegion"],
    hasContext := false },
  of "ReductionOp" "reduction" [.one "operand", .one "accumulator"],
  { of "SectionOp" "section" with regions := ["region"] },
  inRegion (of "SectionsOp" "sections" [.many "reduction_vars", .many "allocate_vars",
    .many "allocators_vars", .attr? "reductions" "SymbolRefArrayAttr", .flag "nowait"]),
  inRegion (of "SimdLoopOp" "simdloop" [.many "lowerBound", .many "upperBound",
    .many "step", .many "aligned_vars", .maybe "if_expr", .many "nontemporal_vars",
    .attr? "alignment_values" "I64ArrayAttr", .attr? "order_val" "OrderKindAttr", .int? "simdlen",
    .int? "safelen", .flag "inclusive"]),
  inRegion (of "SingleOp" "single" [.many "allocate_vars", .many "allocators_vars",
    .flag "nowait"]),
  inRegion (of "TargetOp" "target" [.maybe "if_expr", .maybe "device",
    .maybe "thread_limit", .flag "nowait"]),
  inRegion (of "DataOp" "target_data" [.maybe "if_expr", .maybe "device",
    .many "use_device_ptr", .many "use_device_addr", .many "map_operands",
    .attr "map_types" "I64ArrayAttr"]),
  { of "EnterDataOp" "target_enter_data" [.maybe "if_expr", .maybe "device",
    .many "map_operands", .flag "nowait", .attr "map_types" "I64ArrayAttr"] with
    segmented := true, hasContext := false },
  { of "ExitDataOp" "target_exit_data" [.maybe "if_expr", .maybe "device",
    .many "map_operands", .flag "nowait", .attr "map_types" "I64ArrayAttr"] with
    segmented := true, hasContext := false },
  inRegion (of "TaskGroupOp" "taskgroup" [.many "task_reduction_vars",
    .many "allocate_vars", .many "allocators_vars", .attr? "task_reductions" "SymbolRefArrayAttr"]),
  inRegion (of "TaskLoopOp" "taskloop" [.many "lowerBound", .many "upperBound",
    .many "step", .maybe "if_expr", .maybe "final_expr", .many "in_reduction_vars",
    .many "reduction_vars", .maybe "priority", .many "allocate_vars", .many "allocators_vars",
    .maybe "grain_size", .maybe "num_tasks", .flag "inclusive", .flag "untied", .flag "mergeable",
    .attr? "in_reductions" "SymbolRefArrayAttr", .attr? "reductions" "SymbolRefArrayAttr",
    .flag "nogroup"]),
  inRegion (of "TaskOp" "task" [.maybe "if_expr", .maybe "final_expr",
    .many "in_reduction_vars", .maybe "priority", .many "allocate_vars", .many "allocators_vars",
    .flag "untied", .flag "mergeable", .attr? "in_reductions" "SymbolRefArrayAttr"]),
  of "TaskwaitOp" "taskwait",
  of "TaskyieldOp" "taskyield",
  of "ThreadprivateOp" "threadprivate" [.one "sym_addr"] [.one "tls_addr"]]

end Polyloom.OpDefinition
