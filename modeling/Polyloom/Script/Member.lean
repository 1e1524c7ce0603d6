import Polyloom.Script.Library

/-!
Members of values: what can be read, changed and called by a name.

What a value offers depends on its kind.  Instances offer the fields that were given to them and
the members of their class; functions of a class become methods of its instances.
-/

namespace Polyloom.Member

open Build

/-! ## Classes -/

def bindsAsMethod (v : Value) : Build Bool := do
  match v with
  | .object id =>
    match ← object id with
    | .scripted .. | .sourced .. | .decorator .. | .pendingInsertion _ | .lazySequence _
    | .lazyFunction .. | .declared .. | .entryPoint .. => return true
    | _ => return false
  | .ref path => return (Library.className? path).isNone
  | _ => return false

/-- The members of a class and of those it extends, nearest first; `depth` bounds the chain. -/
def chain (s : Session) : Nat → Value → List (String × Value)
  | 0, _ => []
  | depth + 1, .object id =>
    match (s.objects[id]?).getD default with
    | .cls _ base members => members ++ chain s depth base
    | _ => []
  | _, _ => []

def membersOf (cls : Value) : Build (List (String × Value)) := do
  let s ← get
  return chain s (s.objects.length + 1) cls

def rootOf (s : Session) : Nat → Value → Option String
  | 0, _ => none
  | _, .ref path => some path
  | depth + 1, .object id =>
    match (s.objects[id]?).getD default with
    | .cls _ base _ => rootOf s depth base
    | _ => none
  | _, _ => none

def methodsOf (cls : Value) : Build (List (String × Value)) := do
  let members ← membersOf cls
  let names := (members.map Prod.fst).eraseDups.mergeSort fun a b => a ≤ b
  let found := names.filterMap fun n => (members.lookup n).map fun v => (n, v)
  found.filterM fun (n, v) => do
    let isMethod ← bindsAsMethod v
    return n ≠ "__init__" && isMethod

def instanceMember (self cls : Value) (fields : List (String × Value))
    (name : String) : Build Value := do
  match fields.lookup name with
  | some v => return v
  | none =>
    match (← membersOf cls).lookup name with
    | some v => if ← bindsAsMethod v then newObject (.bound v self) else return v
    | none => throw .noAttribute

/-! ## Reading -/

def typeMember (t name : String) : Build Value := do
  match TypeText.classOf t, name with
  | .integer, "width" => return .int (← Arith.integerWidth t)
  | .memref, "element_type" | .tensor, "element_type" | .unrankedMemref, "element_type"
  | .unrankedTensor, "element_type" | .complex, "element_type" =>
    match TypeText.element? t with
    | some e => return .type e
    | none => throw .noAttribute
  | .memref, "shape" | .tensor, "shape" => return .listed ((TypeText.shape t).map Value.int)
  | .memref, "rank" | .tensor, "rank" => return .int (TypeText.shape t).length
  | .function, "inputs" => return .listed ((TypeText.signature t).1.map Value.type)
  | .function, "results" => return .listed ((TypeText.signature t).2.map Value.type)
  | _, _ => throw .noAttribute

def valueMember (id : Nat) (t : String) (view : View) (name : String) : Build Value := do
  match name with
  | "type" => return .type t
  | "most_recent_store" =>
    if view.isBuffer then
      return (((← get).recentStores.find? fun (k, _) => k = (id, view)).map Prod.snd).getD .none
    else throw .noAttribute
  | _ => throw .noAttribute

def tracedMember (call : Caller) (id : Nat) (f : TracedFunction) (name : String) : Build Value := do
  match name with
  | "func_op" => Function.funcOp call id
  | "_func_op" => return f.funcOp.getD .none
  | "f" => return f.function
  | "qualname" => return f.qualifier
  | "attributes" => return f.attributes
  | "annots" => return .listed f.annots
  | "func_op_ctor" => return f.ctor
  | "func_op_terminator" => return f.terminator
  | _ => throw .noAttribute

def objectMember (call : Caller) (id : Nat) (name : String) : Build Value := do
  match ← object id, name with
  | .context flags, "allow_unregistered_dialects" => return .bool flags.allowUnregistered
  | .record cls _ fields, name => instanceMember (.object id) cls fields name
  | .cls n _ _, "__name__" => return .str n
  | .cls _ _ _, name =>
    match (← membersOf (.object id)).lookup name with
    | some v => return v
    | none => throw .noAttribute
  | .traced f, name => tracedMember call id f name
  | .pipeline p, "_pipeline" => return .listed (p.passes.map Value.str)
  | .pipeline p, "_wrapper" => return .ofDatum p.wrapper
  | .backend libs, "shared_libs" => return libs
  | .invoker returnFunction _, "return_func" => return (returnFunction.map Value.str).getD .none
  | .invoker (some _) types, "ret_types" => return .listed (types.map Value.str)
  | .invoker _ _, "ee" => return .shown "<ExecutionEngine>"
  | .invoker _ _, name => newObject (.entryPoint id name)
  | .failure text, "value" => return text
  | .wrapper op, "mlir_op" => return op
  | o, "__name__" => return .str (← Function.signatureOf o).name
  | _, _ => throw .noAttribute

def blockMember (b : Nat) (name : String) : Build Value := do
  let s ← get
  match name with
  | "arguments" => return .listed (← blockArgs b)
  | "operations" => return .listed ((s.blockOf b).ops.map fun id => .op id (s.op id).cls)
  | "owner" => return .op (s.blockOf b).op (s.op (s.blockOf b).op).cls
  | _ => throw .noAttribute

def read (call : Caller) (v : Value) (name : String) : Build Value := do
  match v with
  | .ssa id t view => valueMember id t view name
  | .type t => typeMember t name
  | .attribute _ payload => if name = "value" then return payload else throw .noAttribute
  | .op id cls => OpReader.read cls id name
  | .block b => blockMember b name
  | .region owner i =>
    if name = "blocks" then return .listed (((← get).regionBlocks owner i).map Value.block)
    else throw .noAttribute
  | .module id =>
    match name with
    | "operation" => return .op id "Operation"
    | "body" => return .block (← blockAt id 0 0)
    | "context" => return AttributeBuilder.defaultContext
    | _ => throw .noAttribute
  | .annot holder t =>
    match name with
    | "py_type" => return holder
    | "mlir_type" => return t
    | _ => throw .noAttribute
  | .ref path => Library.dereference (path ++ "." ++ name)
  | .object id => objectMember call id name
  | _ => throw .noAttribute

/-! ## Changing -/

def write (v : Value) (name : String) (value : Value) : Build Unit := do
  match v with
  | .op id cls => OpReader.write cls id name value
  | .ssa id _ view =>
    if view.isBuffer && name = "most_recent_store" then
      modify fun s => { s with recentStores := Table.put (id, view) value s.recentStores }
    else throw .noAttribute
  | .object id =>
    match ← object id with
    | .context _ =>
      if name = "allow_unregistered_dialects" then Setting.setUnregistered v (← truth value)
      else throw .noAttribute
    | .record _ _ _ => ModuleClass.setField v name value
    | _ => throw .noAttribute
  | _ => throw .noAttribute

def delete (v : Value) (name : String) : Build Unit := do
  match v with
  | .op id cls => OpReader.delete cls id name
  | .object id =>
    match ← object id with
    | .record cls n fields =>
      if (fields.lookup name).isNone then throw .noAttribute
      setObject id (.record cls n (fields.filter fun (k, _) => k ≠ name))
    | _ => throw .noAttribute
  | _ => throw .noAttribute

/-! ## Methods -/

def pipelineMethod (id : Nat) (p : Pipeline) (name : String)
    (args : CallArgs Value) : Build Value := do
  match name with
  | "materialize" =>
    match ← settle (bindParams [.optional "module" (.bool true)] args) with
    | [asModule] => return .str (p.materialize (← truth asModule))
    | _ => throw .wrongKind
  | "lower_to_llvm_" =>
    let _ ← settle (bindParams [] args)
    return .bool p.lowersToLlvm
  | name =>
    let plain (v : Value) : Build Datum := return Library.datumOf (← now v)
    let positional ← args.positional.mapM plain
    let named ← args.named.mapM fun (k, v) => return (k, ← plain v)
    let (outcome, p) := (Pipeline.invoke name ⟨positional, named⟩).run.run p
    setObject id (.pipeline p)
    return if ← settle outcome then .object id else .none

def backendMethod (libs : Value) (name : String) (args : CallArgs Value) : Build Value := do
  match name with
  | "compile" =>
    match ← settle (bindParams
        ["module", "pipeline", .optional "kernel_name" (.str "main"),
         .optional "enable_ir_printing" (.bool false)] args) with
    | [m, pipeline, kernel, irPrinting] => Compile.compile m pipeline kernel (← truth irPrinting)
    | _ => throw .wrongKind
  | "load" =>
    match ← settle (bindParams
        ["module", .optional "consume_return_func", .optional "opt_level" (.int 2)] args) with
    | [m, consume, level] => Compile.invoker m consume level libs
    | _ => throw .wrongKind
  | _ => throw .noAttribute

def contextMethod (v : Value) (name : String) (args : CallArgs Value) : Build Value := do
  match name, args.positional, args.named with
  | "enable_multithreading", [flag], [] => do
    Setting.setMultithreading v (← truth flag)
    return .none
  | "enable_multithreading", _, _ => throw .wrongKind
  | _, _, _ => throw .noAttribute

def callMethod (call : Caller) (v : Value) (name : String)
    (args : CallArgs Value) : Build Value := do
  let readAndCall : Build Value := do call (← read call v name) args
  match v, name with
  | .op id "scf.IfOp", "add_else" =>
    let _ ← settle (bindParams [] args)
    return .block (← ControlFlow.addElse id)
  | .op id "func.FuncOp", "add_entry_block" | .op id "gpu.FuncOp", "add_entry_block" =>
    let _ ← settle (bindParams [] args)
    return .block (← OpReader.addEntryBlock id)
  | .ssa _ _ view, name =>
    if (Library.procedure? (view.path ++ "." ++ name)).isSome then
      call (.ref (view.path ++ "." ++ name)) args
    else readAndCall
  | .object id, name =>
    match ← object id with
    | .pipeline p => pipelineMethod id p name args
    | .backend libs => backendMethod libs name args
    | .context _ => contextMethod v name args
    | _ => readAndCall
  | _, _ => readAndCall

end Polyloom.Member
