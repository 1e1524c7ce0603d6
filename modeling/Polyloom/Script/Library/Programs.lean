import Polyloom.Benchmark.Passes
import Polyloom.Builder.Benchmark
import Polyloom.Builder.Compile
import Polyloom.Builder.Scope
import Polyloom.Script.Procedure

/-!
Procedures on whole programs: compiling and running them, searching and marking their
operations, measuring kernels, and the settings of contexts.
-/

namespace Polyloom.Library

open Build Procedure

/-! ## Settings and attributes -/

def context : Param := .optional "context"

def settingScope (setting : Setting) (context : Value) : Build Value :=
  newObject (.scope (.setting setting context) .fresh [])

def settingProcedures : List (String × Procedure) :=
  [("ir.Context", of0 (newObject (.context {}))),
   ("mutils.allow_unregistered_dialects", of1 context (settingScope .allowUnregistered)),
   ("mutils.enable_multithreading", of1 context (settingScope .enableMultithreading)),
   ("mutils.disable_multithreading", of1 context (settingScope .disableMultithreading)),
   ("mutils.enable_debug", of0 (settingScope .debug .none)),
   ("mutils.get_dense_int64_array_attr", of2 "values" context AttributeBuilder.denseInts),
   ("mutils.get_int64_array_attr", of2 "values" context AttributeBuilder.ints),
   ("mutils.get_device_mapping_array_attr",
     of2 "mapping" context AttributeBuilder.deviceMapping),
   ("mutils.get_index_list_array_attr",
     of2 "index_list" context AttributeBuilder.indexLists),
   ("mutils.get_flat_symbol_ref_attr", of2 "symbol" context AttributeBuilder.flatSymbol),
   ("mutils.get_symbol_ref_attr", of2 "symbols" context AttributeBuilder.symbols),
   ("omp_init.register_dialect_translation", of1 "ctx" fun v => do
     let _ ← Setting.flagsOf v
     done (record (.appendRegistry ["openmp"])))]

/-! ## Shaders -/

def datumOf : Value → Datum
  | .bool b => .bool b
  | .int n => .int n
  | .real bits => .real bits
  | .str s => .str s
  | .listed items | .tuple items => .list (items.map fun v => match v with
      | .bool b => .bool b
      | .int n => .int n
      | .real bits => .real bits
      | .str s => .str s
      | v => .str v.display)
  | .none => .null
  | v => .str v.display

def parsedAttribute (text : String) : Build Value := return AttributeBuilder.parsed text

def shaderProcedures : List (String × Procedure) :=
  [("spirv.entry_point_abi", of1 (.optional "workgroup_size") fun v => do
     if !v.isNone && (← items? v).isNone then throw .wrongKind
     parsedAttribute (← settle (AttributeText.entryPointAbi (datumOf (← now v))))),
   ("spirv.resource_limits", of0 (parsedAttribute AttributeText.resourceLimits)),
   ("spirv.vce", of0 (parsedAttribute AttributeText.versionCapabilitiesExtensions)),
   ("spirv.target_env", of0 (parsedAttribute AttributeText.targetEnvironment)),
   ("spirv.set_module_target_env", of1 "module" fun m => do
     let id ← opId m
     for (name, text) in AttributeText.moduleTargetEnvironment do
       setAttribute id name (AttributeBuilder.parsed text)
     return m)]

/-! ## Programs -/

def findOps (call : Caller) (op pred : Value) : Build Value := do
  let below ← OpReader.walkAll (← opId op)
  let found ← below.filterM fun id => do truth (← call pred ⟨[.op id "Operation"], []⟩)
  newList (found.map fun id => .op id "Operation")

def addNamedAttribute (op name value : Value) : Build Value := do
  let set (v : Value) : Build Value := do
    match op with
    | .op id _ =>
      setAttribute id name.text v
      return op
    | _ => throw .noAttribute
  match value with
  | .str s => set (AttributeBuilder.string (.str s))
  | v =>
    if v.isInt then set (AttributeBuilder.int32 v)
    else throw (.unsupported ("val=" ++ (← now v).display ++ " unsupported"))

def programProcedures : List (String × Procedure) :=
  [("ir.Module.create", located (of0 (program .none))),
   ("ir.Module.parse", of2 "source" context fun source _ => program source),
   ("utils.mlir_mod_ctx", of1 (.optional "src") fun source =>
     newObject (.scope (.program source) .fresh [])),
   ("utils.find_ops", .fixed ["op", "pred"] fun call vs => match vs with
     | [op, pred] => findOps call op pred
     | _ => throw .wrongKind),
   ("utils.mlir_gc", of0 (return .none)),
   ("utils.reset_disambig_names", of0 (return .none)),
   ("utils.shlib_ext", of0 (return .str "so")),
   ("utils.symp_sym", of1 "name" fun _ => return .shown "<Symbol>"),
   ("utils.add_named_attr", of3 "op" "name" "val" addNamedAttribute),
   ("mutils.NelliMlirCompilerError", of1 "value" fun v => newObject (.failure v)),
   ("mutils.get_module_name_for_debug_dump", of1 "module" fun m => do
     return .str (← Compile.moduleName (← Compile.moduleId m))),
   ("mutils.run_pipeline",
     .fixed ["module", "pipeline", .optional "description",
       .optional "enable_ir_printing" (.bool false), .optional "print_pipeline" (.bool false)]
       fun _ vs => match vs with
       | [m, pipeline, description, irPrinting, printPipeline] => do
         Compile.runPipeline m pipeline description (← truth irPrinting) (← truth printPipeline)
       | _ => throw .wrongKind),
   ("passes.Pipeline", of2 (.optional "pipeline") (.optional "wrapper") fun passes wrapper => do
     let passes ← if passes.isNone then pure [] else items passes
     newObject (.pipeline ⟨passes.map Value.text, datumOf wrapper⟩)),
   ("refbackend.LLVMJITBackend", of1 (.optional "shared_libs") fun libs => do
     newObject (.backend (if libs.isNone then .listed [] else libs))),
   ("refbackend.LLVMJITBackendInvoker",
     of4 "module" (.optional "consume_return_func") (.optional "opt_level" (.int 2))
       (.optional "shared_libs") Compile.invoker),
   ("refbackend.get_return_funcs", of1 "module" fun m => do
     newList ((← Compile.returnFunctions m).map Value.str)),
   ("benchmark.setup_passes", of1 "mlir_module" fun _ =>
     return .str Benchmark.sparsePipeline),
   ("benchmark.create_sparse_np_tensor",
     of2 "dimensions" "number_of_elements" Benchmark.sparseTensor),
   ("benchmark.get_kernel_func_from_module", of1 "module" Benchmark.kernelOf),
   ("benchmark.emit_timer_func", of0 Benchmark.timerFunc),
   ("benchmark.emit_benchmark_wrapped_main_func",
     of2 "kernel_func" "timer_func" Benchmark.wrapperFunc),
   ("benchmark.wrap", of1 "module" Benchmark.wrap)]

/-! ## Loops of a polyhedral model -/

def wrapped (v : Value) : Build Value := do
  match v with
  | .object id =>
    match ← object id with
    | .wrapper op => return op
    | _ => throw .noAttribute
  | _ => throw .noAttribute

def isList : Value → Bool
  | .list _ | .listed _ => true
  | _ => false

def requireList (what label : String) (v : Value) : Build Unit := do
  require (isList v) ("unexpected " ++ what ++ " " ++ label ++ (← now v).display)

def requireShown (what : String) (v : Value) : Build Unit := do
  require (isList v) ("unexpected " ++ what ++ " " ++ (← now v).text)

def polyhedralProcedures : List (String × Procedure) :=
  [("poly_op.Op", of1 "mlir_op" fun op => newObject (.wrapper op)),
   ("poly_affine.ForOp.skew", of2 "self" "shifts" fun self shifts => do
     done (record (.skew (← wrapped self) (← now shifts)))),
   ("poly_affine.ForOp.unroll_by_factor",
     of3 "self" "factor" (.optional "annotator") fun self factor annotator => do
       done (record (.unroll (← wrapped self) (← now factor) (← now annotator)))),
   ("z3_.sympy_to_z3", of1 "sympy_exp" fun _ => newList []),
   ("z3_.efsmt",
     of3 "constraints" "quantified_vars" (.optional "maxloops") fun cons vars _ => do
       requireShown "constraints" cons
       requireShown "quantified variables" vars
       return .none),
   ("z3_.opt_system",
     .fixed ["cons", "opt_vars", .optional "min" (.bool true),
       .optional "priority" (.str "lex"), .optional "limit" (.int 1)]
       fun _ vs => match vs with
       | cons :: vars :: _ => do
         requireList "constraints" "cons=" cons
         requireList "opt vars" "opt_vars=" vars
         return .none
       | _ => throw .wrongKind)]

end Polyloom.Library
