import Polyloom.Ir.Native
import Polyloom.Ir.Reader
import Polyloom.Script.Procedure

/-!
Procedures of the core: constructors of its operations by dialect and class, and its types,
attributes and maps.
-/

namespace Polyloom.Library

open Build Procedure

/-! ## Operations -/

def coreDialects : List String :=
  ["arith", "math", "scf", "memref", "func", "gpu", "tensor", "transform", "transform.loop",
   "transform.structured", "_builtin_ops_gen"]

def unlocated (named : List (String × Value)) : List (String × Value) :=
  named.filter fun (k, _) => k ≠ "loc" && k ≠ "ip"

def coreSpecials : List (String × Procedure) :=
  [("core.arith.ConstantOp.create_index", located (of1 "value" indexConstantOp)),
   ("core.scf.IfOp", located (of2 "cond" (.optional "hasElse" (.bool false)) fun v hasElse => do
     ifOp v (← truth hasElse))),
   ("core.scf.ForOp",
     located (of4 "lower_bound" "upper_bound" "step"
       (.optional "iter_args" (.tuple [])) fun lower upper step carried => do
         forOp lower upper step (← items carried))),
   ("core.func.FuncOp",
     located (of3 "name" "type" (.optional "visibility") funcOp)),
   ("core.func.CallOp", .free fun _ args =>
     match args.positional with
     | callee :: rest => callOp callee rest
     | [] => throw .wrongKind),
   ("core.transform.SequenceOp",
     located (of3 "mode" "results" "target" sequenceOp)),
   ("core.transform.structured.MatchOp.match_op_names",
     located (of2 "target" "names" matchOpNames)),
   ("core._builtin_ops_gen.ModuleOp", located (of0 moduleOp))]

def coreClass? (path : String) : Option (String × String) :=
  if Text.startsWith path "core." then
    let pieces := (Text.splitOn path ".").drop 1
    let dialect := ".".intercalate pieces.dropLast
    if coreDialects.contains dialect then some (dialect, pieces.getLastD "") else none
  else none

def coreProcedure? (path : String) : Option Procedure :=
  match coreSpecials.lookup path with
  | some p => some p
  | none => (coreClass? path).map fun (dialect, cls) =>
    .free fun _ args => native dialect cls args.positional (unlocated args.named)

/-! ## Types -/

def typeClasses : List (String × Option TypeClass) :=
  [("Type", none), ("IntegerType", some .integer), ("IndexType", some .index),
   ("F16Type", some .f16),
   ("BF16Type", some .bf16), ("F32Type", some .f32), ("F64Type", some .f64),
   ("ComplexType", some .complex), ("MemRefType", some .memref),
   ("UnrankedMemRefType", some .unrankedMemref), ("RankedTensorType", some .tensor),
   ("UnrankedTensorType", some .unrankedTensor), ("FunctionType", some .function)]

def isOfClass (kind : Option TypeClass) (t : String) : Bool :=
  match kind with
  | none => true
  | some k => TypeText.classOf t = k

def castType (kind : Option TypeClass) (v : Value) : Build Value := do
  let t ← typeText v
  if isOfClass kind t then return .type t else throw .wrongCast

def fixedType (text : String) : Procedure := of1 (.optional "context") fun _ => return .type text

def integerType (mark : String) : Procedure :=
  of2 "width" (.optional "context") fun width _ => do
    return .type (mark ++ "i" ++ (← now width).text)

def rankedProcedure (kind : String) : Procedure :=
  of2 "shape" "element_type" fun shape element => do
    return .type (← rankedType kind shape element)

def typeProcedures : List (String × Procedure) :=
  typeClasses.flatMap (fun (cls, kind) =>
    [("ir." ++ cls, of1 "cast_from_type" (castType kind)),
     ("ir." ++ cls ++ ".isinstance", of1 "other" fun v => do
       return .bool (isOfClass kind (← typeText v)))])
  ++ [("ir.Type.parse", of2 "asm" (.optional "context") fun v _ => return .type v.text),
      ("ir.IndexType.get", fixedType "index"), ("ir.F16Type.get", fixedType "f16"),
      ("ir.BF16Type.get", fixedType "bf16"), ("ir.F32Type.get", fixedType "f32"),
      ("ir.F64Type.get", fixedType "f64"), ("ir.IntegerType.get_signless", integerType ""),
      ("ir.IntegerType.get_signed", integerType "s"),
        ("ir.IntegerType.get_unsigned", integerType "u"),
      ("ir.MemRefType.get", rankedProcedure "memref"),
      ("ir.RankedTensorType.get", rankedProcedure "tensor"),
      ("ir.FunctionType.get", of2 "inputs" "results" fun ins outs =>
        functionType (.tuple [ins, outs])),
      ("ir.Value", of1 "value" (cast .plain)),
      ("ir.get_op_result_or_value", of1 "arg" asValue),
      ("ir.get_op_results_or_values", of1 "arg" fun v => do
        return .listed (← asValues v))]

/-! ## Attributes and maps -/

def attributeClasses : List String :=
  ["StringAttr", "TypeAttr", "ArrayAttr", "DenseI64ArrayAttr", "FlatSymbolRefAttr", "AffineMapAttr"]

def otherAttributeClasses : List String := ["Attribute", "UnitAttr", "IntegerAttr"]

def castAttributeTo (cls : String) (v : Value) : Build Value :=
  if v.isAttribute then return OpDefinition.castAttribute cls v else throw .rejected

def constantMapOf (v : Value) : Build Value :=
  match v.int? with
  | some n => return .map ("() -> (" ++ n.repr ++ ")")
  | none => throw .rejected

def dimensionNames (n : Nat) : String :=
  ", ".intercalate ((List.range n).map fun i => "d" ++ i.repr)

def identityMapOf (v : Value) : Build Value :=
  match v.int? with
  | some n =>
    return .map ("(" ++ dimensionNames n.toNat ++ ") -> (" ++ dimensionNames n.toNat ++ ")")
  | none => throw .rejected

def attributeProcedures : List (String × Procedure) :=
  attributeClasses.map (fun cls =>
    ("ir." ++ cls ++ ".get", of2 "value" (.optional "context") fun v context => do
      AttributeBuilder.checkContext context
      return .attribute cls v))
  ++ (attributeClasses ++ otherAttributeClasses).flatMap (fun cls =>
    [("ir." ++ cls, of1 "cast_from_attr" (castAttributeTo cls)),
     ("ir." ++ cls ++ ".parse", of2 "asm" (.optional "context") fun v context => do
       AttributeBuilder.checkContext context
       return .attribute cls v)])
  ++ [("ir.UnitAttr.get", of1 (.optional "context") fun context => do
        AttributeBuilder.checkContext context
        return AttributeBuilder.unit),
      ("ir.IntegerAttr.get", of2 "type" "value" fun t v =>
        return .attribute "IntegerAttr" (.listed [t, v])),
      ("ir.AffineMap.get_constant", of2 "value" (.optional "context") fun v _ =>
        constantMapOf v),
      ("ir.AffineMap.get_identity", of2 "n_dims" (.optional "context") fun v _ =>
        identityMapOf v)]

/-! ## Insertion points -/

def insertionPoint (v : Value) : Build Value := do
  match v with
  | .block b => newObject (.point (← newPoint b))
  | _ => throw .rejected

def pointProcedures : List (String × Procedure) :=
  [("ir.InsertionPoint", of1 "block" insertionPoint),
   ("ir.InsertionPoint.at_block_begin", of1 "block" insertionPoint)]

def sequenceOfInts : List Value → Build (List Int) :=
  List.mapM fun v => match v.int? with
    | some n => return n
    | none => throw .wrongKind

def rangeOf (start stop step : Int) : List Value :=
  let count := if 0 < step then (stop - start + step - 1) / step
    else if step < 0 then (start - stop - step - 1) / (-step) else 0
  (List.range count.toNat).map fun (i : Nat) => .int (start + step * i)

def everywhereProcedures : List (String × Procedure) :=
  [("range", .free fun _ args => do
     match ← sequenceOfInts args.positional with
     | [stop] => return .tuple (rangeOf 0 stop 1)
     | [start, stop] => return .tuple (rangeOf start stop 1)
     | [start, stop, step] =>
       if step = 0 then throw (.badValue "range() arg 3 must not be zero")
       return .tuple (rangeOf start stop step)
     | _ => throw .wrongKind),
   ("len", of1 "obj" fun v => return .int (← length v)),
   ("list", of1 (.optional "iterable" (.tuple [])) fun v => do newList (← items v)),
   ("tuple", of1 (.optional "iterable" (.tuple [])) fun v => return .tuple (← items v))]

def everywhereClasses : List String := ["int", "float", "str", "bool", "object", "dict", "complex"]

end Polyloom.Library
