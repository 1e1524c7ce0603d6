import Polyloom.Builder.Tensor
import Polyloom.Script.Procedure

/-!
Procedures on numbers, buffers and tensors.
-/

namespace Polyloom.Library

open Build Procedure

def castTo (view : View) : Procedure := of1 "value" (cast view)

def operand : Param := .required "x"

def lhs : Param := .required "lhs"

def rhs : Param := .required "rhs"

def arithProcedures : List (String × Procedure) :=
  [("arith.ArithValue", castTo .arith),
   ("arith.CmpFOp", located (of3 "predicate" lhs rhs Arith.compareFloats)),
   ("arith.CmpIOp", located (of3 "predicate" lhs rhs Arith.compareIntegers)),
   ("arith.cast_to_integer", of3 "to_type" "operand" "is_unsigned_cast"
     fun target v unsigned => do Arith.castToInteger target v (← truth unsigned)),
   ("arith.cast_to_floating_point",
     of3 "to_type" "operand" "is_unsigned_cast"
       fun target v unsigned => do Arith.castToFloat target v (← truth unsigned)),
   ("arith.abs", of1 operand Arith.abs), ("arith.ceil", of1 operand Arith.ceil),
   ("arith.floor", of1 operand Arith.floor), ("arith.neg", of1 operand Arith.neg),
   ("arith.select", of3 "test" "true" "false" Arith.select),
   ("arith.add", of2 lhs rhs Arith.add), ("arith.sub", of2 lhs rhs Arith.sub),
   ("arith.mul", of2 lhs rhs Arith.mul), ("arith.gt", of2 lhs rhs Arith.gt),
   ("arith.lt", of2 lhs rhs Arith.lt), ("arith.ge", of2 lhs rhs Arith.ge),
   ("arith.le", of2 lhs rhs Arith.le), ("arith.eq", of2 lhs rhs Arith.eq),
   ("arith._is_integer_like_type", of1 "type" fun t => do
     return .bool (← Arith.isIntegerLikeType t)),
   ("arith._is_float_type", of1 "type" fun t => do return .bool (← Arith.isFloatType t)),
   ("arith.infer_mlir_type", of1 "py_val" Arith.inferType),
   ("arith.constant", of3 "py_cst" (.optional "type") (.optional "index" (.bool false))
     fun v type index => do Arith.constant v type (← truth index))]

def sizes : Param := .required "dim_sizes"

def element : Param := .required "el_type"

def bufferProcedures (view : View) : List (String × Procedure) :=
  [(view.path, castTo view),
   (view.path ++ ".alloc", of2 sizes element (Buffer.allocateFor view false)),
   (view.path ++ ".alloca", of2 sizes element (Buffer.allocateFor view true))]

def memrefProcedures : List (String × Procedure) :=
  [("memref.LoadOp", of2 "memref" (.optional "indices") Buffer.loadOp),
   ("memref.StoreOp",
     located (of3 "memref" "value" (.optional "indices") Buffer.storeOp)),
   ("memref.AllocOp", located (of2 sizes (.optional "el_type") Buffer.allocOp)),
   ("memref.AllocaOp", located (of2 sizes (.optional "el_type") Buffer.allocaOp)),
   ("memref.load", of2 "memref_" "indices" Buffer.load),
   ("memref.cast", of2 "src" "dst_type" Buffer.castBuffer),
   ("affine.LoadOp", located (of2 "memref" (.optional "indices") Buffer.affineLoadOp)),
   ("affine.StoreOp",
     located (of3 "memref" "value" (.optional "indices") Buffer.affineStoreOp)),
   ("affine.load", of2 "src_memref" "indices" Buffer.affineLoad),
   ("affine.store",
     of3 "store_value" "dst_memref" "indices" Buffer.affineStore),
   ("affine.Apply", of2 "map" "operands" Buffer.applyOp)]
  ++ [View.memref, .unrankedMemref, .rankedAffine, .unrankedAffine].flatMap bufferProcedures

def sliceParams : List Param :=
  ["static_offsets", "static_sizes", "static_strides", "offsets",
    "sizes", "strides"].map (.optional ·)

def sliceOf : List Value → Build Tensor.Slice
  | [staticOffsets, staticSizes, staticStrides, offsets, sizes, strides] =>
    return ⟨staticOffsets, staticSizes, staticStrides, offsets, sizes, strides⟩
  | _ => throw .wrongKind

def tensorProcedures : List (String × Procedure) :=
  [("tensor.TensorValue", castTo .tensor),
   ("tensor.TensorValue.empty", of2 sizes element Tensor.empty),
   ("tensor.dim", of2 "tensor" "dim" Tensor.dim),
   ("tensor.extract", of2 "tensor" "dims" Tensor.extract),
   ("tensor.get_tensor_type", of1 "source" fun v => do
     return .type (← Tensor.tensorType v)),
   ("tensor.pad",
     of4 "source" "low" "high" "pad_value" Tensor.pad),
   ("tensor.expand_shape",
     of3 "tensor" "reassociation_map" "shape" Tensor.expandShape),
   ("tensor.collapse_shape",
     of3 "tensor" "reassociation_map" "shape" Tensor.collapseShape),
   ("tensor.parallel_insert_slice",
     .fixed ("source" :: "dest" :: sliceParams) fun _ vs => match vs with
       | source :: target :: rest => do Tensor.parallelInsertSlice source target (← sliceOf rest)
       | _ => throw .wrongKind),
   ("tensor.extract_slice",
     .fixed ("source" :: sliceParams) fun _ vs => match vs with
       | source :: rest => do Tensor.extractSlice source (← sliceOf rest)
       | _ => throw .wrongKind)]

end Polyloom.Library
