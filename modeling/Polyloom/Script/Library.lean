import Polyloom.Script.Library.Core
import Polyloom.Script.Library.Functions
import Polyloom.Script.Library.Loops
import Polyloom.Script.Library.Programs
import Polyloom.Script.Library.Values

/-!
The library that scripts use, by paths.

A path leads from a module through names.  Modules share names with each other, so the same
thing may have several paths; all of them lead to one canonical path.
-/

namespace Polyloom.Library

open Build

/-! ## Paths -/

def sharedNames : List (String × String) :=
  [("ArithValue", "arith.ArithValue"), ("constant", "arith.constant"),
   ("affine_range", "affine.affine_range"), ("affine_endfor", "affine.end_for"),
   ("scf_if", "scf.scf_if"), ("scf_else", "scf.scf_else"), ("scf_endif", "scf.scf_endif"),
   ("scf_endif_branch", "scf.scf_endif_branch"), ("scf_range", "scf.scf_range"),
   ("scf_endfor", "scf.end_for"), ("scf_par_range", "scf.par_range"),
   ("scf_end_parfor", "scf.end_parfor"), ("omp_range", "omp.ws_loop"),
     ("omp_endfor", "omp.end_for"),
   ("MemRefValue", "memref.MemRefValue"), ("AllocaOp", "memref.AllocaOp"),
   ("RankedAffineMemRefValue", "affine.RankedAffineMemRefValue"),
   ("UnrankedAffineMemRefValue", "affine.UnrankedAffineMemRefValue"),
   ("TensorValue", "tensor.TensorValue"), ("Annot", "annot.Annot"), ("MLIRFunc", "func.MLIRFunc"),
   ("mlir_func", "func.mlir_func"), ("lazy_mlir_func", "func.lazy_mlir_func"),
   ("Pipeline", "passes.Pipeline"), ("find_ops", "utils.find_ops"),
   ("run_pipeline", "mutils.run_pipeline"),
   ("get_dense_int64_array_attr", "mutils.get_dense_int64_array_attr"),
   ("ModuleOp", "core._builtin_ops_gen.ModuleOp"), ("Op", "poly_op.Op"),
   ("ShareForallOperandsOp", "t_common.ShareForallOperandsOp"),
   ("MapForeachToBlocks", "t_gpu.MapForeachToBlocks"),
   ("MapNestedForeachToThreads", "t_gpu.MapNestedForeachToThreads"), ("common_ext", "t_common"),
   ("vector_ext", "t_vector"), ("func_dialect", "core.func"), ("arith_dialect", "core.arith"),
   ("tensor_dialect", "core.tensor"), ("transform_dialect", "core.transform"),
   ("loop_ext", "core.transform.loop"), ("structured_ext", "core.transform.structured"),
   ("math", "core.math"), ("ir", "ir"),
   ("get_op_result_or_value", "ir.get_op_result_or_value"),
   ("get_op_results_or_values", "ir.get_op_results_or_values")]

def ownNames : List (String × String) :=
  [("arith.arith", "core.arith"), ("scf.scf", "core.scf"), ("memref.memref", "core.memref"),
   ("gpu.gpu", "core.gpu"), ("affine.affine", "affine_gen"), ("omp.omp", "omp_gen"),
   ("benchmark.arith", "core.arith"), ("benchmark.func", "core.func"),
   ("benchmark.memref", "core.memref"), ("benchmark.scf", "core.scf"),
   ("module.Module", "module.Module"), ("gpu.Module", "gpu.Module")]

def coreNames : List String :=
  ["Context", "Module", "Value", "AffineMap", "InsertionPoint"]
    ++ typeClasses.map Prod.fst ++ attributeClasses ++ otherAttributeClasses

def bases : List (String × String) :=
  [("gpu.FuncOp", "gpu_base.FuncOp"), ("gpu.ModuleOp", "gpu_base.ModuleOp"),
   ("gpu.MLIRFunc", "func.MLIRFunc"), ("gpu.Module", "module.Module"),
   ("gpu.LaunchOp", "core.gpu.LaunchOp"), ("gpu.LaunchFuncOp", "core.gpu.LaunchFuncOp"),
   ("gpu_base.FuncOp", "core.gpu.GPUFuncOp"), ("gpu_base.ModuleOp", "core.gpu.GPUModuleOp"),
   ("affine.LoadOp", "affine_gen.AffineLoadOp"), ("affine.StoreOp", "affine_gen.AffineStoreOp"),
   ("affine.Apply", "affine_gen.AffineApplyOp"),
   ("affine.RankedAffineMemRefValue", "memref.MemRefValue"),
   ("affine.UnrankedAffineMemRefValue", "affine.RankedAffineMemRefValue"),
   ("memref.UnrankedMemRefValue", "memref.MemRefValue"), ("memref.LoadOp", "core.memref.LoadOp"),
   ("memref.StoreOp", "core.memref.StoreOp"), ("memref.AllocOp", "core.memref.AllocOp"),
   ("memref.AllocaOp", "core.memref.AllocaOp"), ("omp.ParallelOp", "omp_gen.ParallelOp"),
   ("omp.WsLoopOp", "omp_gen.WsLoopOp"), ("scf.IfOp", "core.scf.IfOp"),
   ("scf.ParallelOp", "core.scf.ParallelOp"), ("scf.ForallOp", "core.scf.ForallOp"),
   ("scf.InParallelOp", "core.scf.InParallelOp"), ("arith.CmpFOp", "core.arith.CmpFOp"),
   ("arith.CmpIOp", "core.arith.CmpIOp"),
   ("transform.VectorizeOp", "core.transform.structured.VectorizeOp"),
     ("poly_affine.ForOp", "poly_op.Op")]

def procedures : List (String × Procedure) :=
  arithProcedures ++ memrefProcedures ++ tensorProcedures ++ loopProcedures ++ functionProcedures
    ++ deviceProcedures ++ sequenceProcedures ++ settingProcedures ++ shaderProcedures
    ++ programProcedures ++ polyhedralProcedures ++ typeProcedures ++ attributeProcedures
    ++ pointProcedures ++ everywhereProcedures

def definition? (path : String) : Option OpDefinition :=
  OpReader.definitions.find? fun d => d.cls = path

def genericMember : String := ".build_generic"

def procedure? (path : String) : Option Procedure :=
  match procedures.lookup path with
  | some p => some p
  | none =>
  match definition? path with
  | some d => some (.free fun _ args => d.construct args)
  | none =>
    if Text.endsWith path genericMember then
      (definition? (String.ofList (path.toList.take (path.length - genericMember.length)))).map
          fun d =>
        .free fun _ args => d.buildGeneric args
    else coreProcedure? path

def constants : List (String × Value) :=
  [("mutils.F32", .type "f32"), ("mutils.F64", .type "f64"), ("mutils.I64", .type "i64"),
   ("mutils.I32", .type "i32"), ("mutils.Index", .type "index"), ("omp.I32", .type "i32"),
   ("utils.DefaultContext", AttributeBuilder.defaultContext)]

def follow (path name : String) : String :=
  let whole := path ++ "." ++ name
  if name = "__base__" then (bases.lookup path).getD whole
  else match ownNames.lookup whole with
    | some p => p
    | none =>
      if (procedure? whole).isSome || (constants.lookup whole).isSome then whole
      else match sharedNames.lookup name with
        | some p => p
        | none => if coreNames.contains name then "ir." ++ name else whole

def canonical (path : String) : String :=
  match Text.splitOn path "." with
  | [] => path
  | first :: rest => rest.foldl follow first

def className? (path : String) : Option String :=
  let last := Text.lastPiece path "."
  if (last.toList.headD 'a').isUpper || everywhereClasses.contains last then some last else none

def resolve (path : String) : Value :=
  let path := canonical path
  (constants.lookup path).getD (.ref path)

def lastPointPaths : List (String × Construct) :=
  [("affine._for_ip", .affineLoop), ("scf._for_ip", .loop), ("scf._parfor_ip", .parallelLoop),
   ("omp._loop_ip", .worksharingLoop), ("scf._if_ip", .branch)]

def isPoint (p : InsertionPoint) : Object → Bool
  | .point q => q = p
  | _ => false

def pointObject (p : InsertionPoint) : Build Value := do
  match (← get).objects.findIdx? (isPoint p) with
  | some id => return .object id
  | none => newObject (.point p)

def dereference (path : String) : Build Value := do
  match lastPointPaths.lookup (canonical path) with
  | some construct =>
    match (← get).lastPoints.lookup construct with
    | some p => pointObject p
    | none => return .none
  | none => return resolve path

def callPath (call : Caller) (path : String) (args : CallArgs Value) : Build Value :=
  match procedure? path with
  | some p => p.apply path call args
  | none => throw .wrongKind

def decorate (call : Caller) (path : String) (args : CallArgs Value) (f : Value) : Build Value :=
  match procedure? path with
  | some p => p.run call { args with positional := f :: args.positional }
  | none => throw .wrongKind

end Polyloom.Library
