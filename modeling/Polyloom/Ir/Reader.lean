import Polyloom.Ir.Definitions.Affine
import Polyloom.Ir.Definitions.Async
import Polyloom.Ir.Definitions.Gpu
import Polyloom.Ir.Definitions.Llvm
import Polyloom.Ir.Definitions.Omp
import Polyloom.Ir.Definitions.Transform

/-!
Reading and changing the parts of operations by name.

What an operation offers depends on the class it is seen through: parts that classes with
regions name, parts of its definition, and what every operation has.
-/

namespace Polyloom.OpReader

open Build

/-! ## Definitions by class -/

def definitions : List OpDefinition :=
  OpDefinition.affineOps ++ OpDefinition.ompOps ++ OpDefinition.llvmOps ++ OpDefinition.asyncOps
    ++ OpDefinition.transformOps ++ [OpDefinition.gpuFunc, OpDefinition.gpuModule]

/-- Classes that add a constructor to a definition and share its parts. -/
def derived : List (String × OpDefinition) :=
  [("affine.LoadOp", .affineLoad), ("affine.StoreOp", .affineStore), ("affine.Apply", .affineApply),
   ("omp.ParallelOp", .ompParallel), ("omp.WsLoopOp", .ompLoop), ("gpu.FuncOp", .gpuFunc),
   ("gpu.ModuleOp", .gpuModule)]

def definition? (cls : String) : Option OpDefinition :=
  match derived.lookup cls with
  | some d => some d
  | none => definitions.find? fun d => d.cls = cls

/-! ## Functions -/

def functionTypeOf (id : Nat) : Build String := do
  match (← op id).attributes.lookup "function_type" with
  | some v =>
    let t ← typeText v.payload
    if TypeText.classOf t = .function then return t else throw .wrongCast
  | none => throw .noKey

def entryBlock (id : Nat) : Build Nat := blockAt id 0 0

def addEntryBlock (id : Nat) : Build Nat := do
  if !((← get).regionBlocks id 0).isEmpty then throw .outOfRange
  let _ ← appendBlock id 0 (TypeText.signature (← functionTypeOf id)).1
  entryBlock id

def attributeOf (id : Nat) (name : String) : Build Value := do
  match (← op id).attributes.lookup name with
  | some v => return v
  | none => throw .noKey

def attributeAs (cls : String) (id : Nat) (name : String) : Build Value := do
  return OpDefinition.castAttribute cls (← attributeOf id name)

def functionPart? (id : Nat) (name : String) : Build (Option Value) := do
  match name with
  | "is_external" => return some (.bool ((← get).regionBlocks id 0).isEmpty)
  | "body" => return some (.region id 0)
  | "type" => return some (.type (← functionTypeOf id))
  | "visibility" => return some (← attributeOf id "sym_visibility")
  | "name" | "sym_name" => return some (← attributeAs "StringAttr" id "sym_name")
  | "entry_block" => return some (.block (← entryBlock id))
  | "arguments" => return some (.listed (← blockArgs (← entryBlock id)))
  | "arg_attrs" => return some (← attributeAs "ArrayAttr" id "arg_attrs")
  | "result_attrs" => return some (← attributeOf id "res_attrs")
  | _ => return none

/-! ## Parts of operations with regions -/

def bodyArgument (id index : Nat) : Build Value := do
  match (← blockArgs (← blockAt id 0 0))[index]? with
  | some v => return v
  | none => throw .outOfRange

def bodyArguments (id skip : Nat) : Build Value := do
  return .listed ((← blockArgs (← blockAt id 0 0)).drop skip)

def bodyParts : List (String × List String) :=
  [("scf.ForOp", ["induction_variable", "inner_iter_args"]),
   ("scf.ParallelOp", ["induction_variables"]),
   ("scf.ForallOp", ["arguments"]), ("scf.InParallelOp", []),
   ("affine.AffineForOp", ["induction_variable", "inner_iter_args"]), ("omp.ParallelOp", []),
   ("omp.WsLoopOp", ["induction_variable"]), ("gpu.ModuleOp", []),
     ("_builtin_ops_gen.ModuleOp", []),
   ("builtin.ModuleOp", []), ("transform.SequenceOp", ["bodyTarget", "bodyExtraArgs"])]

def bodyPart? (cls : String) (id : Nat) (name : String) : Build (Option Value) := do
  match bodyParts.lookup cls with
  | none => return none
  | some parts =>
    if name = "body" then return some (.block (← blockAt id 0 0))
    if !parts.contains name then return none
    match name with
    | "induction_variable" | "bodyTarget" => return some (← bodyArgument id 0)
    | "inner_iter_args" | "bodyExtraArgs" => return some (← bodyArguments id 1)
    | _ => return some (← bodyArguments id 0)

def specialPart? (cls : String) (id : Nat) (name : String) : Build (Option Value) := do
  match cls, name with
  | "scf.IfOp", "then_block" => return some (.block (← blockAt id 0 0))
  | "scf.IfOp", "else_block" => return some (.block (← blockAt id 1 0))
  | "affine.AffineForOp", "results_" => return some (.listed ((← op id).results.map TypedId.value))
  | "affine.AffineForOp", "region" => return some (.region id 0)
  | "gpu.LaunchOp", "entry_block" => return some (.block (← blockAt id 0 0))
  | "gpu.LaunchOp", "arguments" => return some (← bodyArguments id 0)
  | "_builtin_ops_gen.ModuleOp", "sym_name" => return some (← attributeOf id "sym_name")
  | "memref.AllocOp", "memref" | "memref.AllocaOp", "memref" =>
    return some (← firstResult (.op id cls))
  | "func.FuncOp", name | "gpu.FuncOp", name => functionPart? id name
  | _, _ => return none

/-! ## All operations -/

def commonPart? (cls : String) (id : Nat) (name : String) : Build (Option Value) := do
  let o ← op id
  match name with
  | "operation" => return some (.op id "Operation")
  | "opview" => return some (.op id o.cls)
  | "result" => return some (← result (.op id cls))
  | "results" => return some (.listed (o.results.map TypedId.value))
  | "operands" => return some (.listed o.operands)
  | "regions" => return some (.listed ((List.range o.regions.length).map (.region id ·)))
  | "attributes" => return some (.dict (o.attributes.map fun (k, v) => (.str k, v)))
  | "name" => return some (.str o.name)
  | "context" => return some AttributeBuilder.defaultContext
  | _ => return none

def read (cls : String) (id : Nat) (name : String) : Build Value := do
  match ← specialPart? cls id name with
  | some v => return v
  | none =>
  match ← bodyPart? cls id name with
  | some v => return v
  | none =>
  match ← (definition? cls).elim (pure none) fun d => d.read? id name with
  | some v => return v
  | none =>
  match ← commonPart? cls id name with
  | some v => return v
  | none => throw .noAttribute

def write (cls : String) (id : Nat) (name : String) (v : Value) : Build Unit := do
  match cls, name with
  | "_builtin_ops_gen.ModuleOp", "sym_name" | "func.FuncOp", "sym_name" => setAttribute id name v
  | "gpu.FuncOp", "arg_attrs" | "func.FuncOp", "arg_attrs" =>
    setAttribute id name (if AttributeBuilder.isArray v then v else .attribute "ArrayAttr" v)
  | "gpu.FuncOp", "result_attrs" | "func.FuncOp", "result_attrs" => setAttribute id "res_attrs" v
  | _, _ =>
    match (definition? cls).bind (·.attributeReader? name) with
    | some reader => OpDefinition.writeAttribute id name reader v
    | none => throw .noAttribute

def delete (cls : String) (id : Nat) (name : String) : Build Unit := do
  match (definition? cls).bind (·.attributeReader? name) with
  | some reader => OpDefinition.deleteAttribute id name reader
  | none => throw .noAttribute

/-! ## Walking -/

/-- All operations below an operation, itself first.  `depth` bounds the nesting. -/
def walk (s : Session) : Nat → Nat → List Nat
  | 0, id => [id]
  | depth + 1, id =>
    id :: (s.op id).regions.flatten.flatMap fun b => (s.blockOf b).ops.flatMap (walk s depth)

def walkAll (id : Nat) : Build (List Nat) := do
  let s ← get
  return walk s s.ops.length id

def symbolOf (id : Nat) : Build (Option String) := do
  let o ← op id
  match ← attempt (read o.cls id "sym_name") with
  | .ok (.attribute _ (.str s)) => return some s
  | _ => return none

end Polyloom.OpReader
