import Polyloom.Datum
import Polyloom.Decorate
import Polyloom.Fault
import Polyloom.Pass.Catalog
import Polyloom.Table
import Polyloom.Text.Pieces

/-!
Pass pipelines and their text.

A pipeline is a list of pass texts and possibly an open scope, which every pass that is
added is put into.  A call may stop in the middle: what it added until then stays.
-/

namespace Polyloom

structure Pipeline where
  passes : List String := []
  /-- The operation that passes are scoped to, null for none. -/
  wrapper : Datum := .null
  deriving Repr, Inhabited

abbrev PipelineCall (α : Type) := ExceptT Fault (StateM Pipeline) α

namespace Pipeline

def materialize (p : Pipeline) (asModule : Bool) : String :=
  let text := ",".intercalate p.passes
  if asModule then "builtin.module(" ++ text ++ ")" else text

def lowersToLlvm (p : Pipeline) : Bool := p.passes.any fun s => Text.contains s "to-llvm"

def isNull : Datum → Bool
  | .null => true
  | _ => false

/-! ## Passes -/

def optionKey (name : String) : String := Text.replace name "_" "-"

def optionValue : Datum → Datum
  | .bool b => .int (if b then 1 else 0)
  | d => d

/-- Options by key, in the order of their first occurrence; a later value wins. -/
def optionTable (options : List (String × Datum)) : List (String × Datum) := Table.putAll [] options

/-- The text of a pass with its options; options without a value are left out. -/
def passText (name : String) (options : List (String × Datum)) : String :=
  let given := optionTable ((options.filter fun (_, v) => !isNull v).map fun (k, v) =>
    (optionKey k, optionValue v))
  if given.isEmpty then name
  else
    let inner := " ".intercalate (given.map fun (k, v) => k ++ "=" ++ v.text)
    name ++ "\x7b " ++ inner ++ " \x7d"

def inScope (wrapper : Datum) (text : String) : String :=
  if isNull wrapper then text else wrapper.text ++ "(" ++ text ++ ")"

def addPass (name : String) (options : List (String × Datum)) : PipelineCall Unit :=
  modify fun p => { p with passes := p.passes ++ [inScope p.wrapper (passText name options)] }

/-! ## Scopes -/

def openScope (scope : Datum) (complaint : String) : PipelineCall Unit := do
  if isNull (← get).wrapper then modify fun p => { p with wrapper := scope }
  else throw (.assertion complaint)

def closeScope (scope : Datum) : PipelineCall Unit := do
  if (← get).wrapper.same scope then modify fun p => { p with wrapper := .null }
  else throw (.assertion "")

/-- The scopes that have calls of their own: what opens them, what closes them, and the
operation. -/
structure NamedScope where
  opener : String
  closer : String
  operation : String
  /-- The closing call that the complaint about an open scope names. -/
  hint : String
  deriving DecidableEq, Repr, Inhabited

def funcScope : NamedScope := ⟨"FUNC", "CNUF", "func.func", "CNUF"⟩

def spirvScope : NamedScope := ⟨"SPIRV", "VRIPS", "spirv.module", "VRIPS"⟩

def gpuScope : NamedScope := ⟨"GPU", "UPG", "gpu.module", "VRIPS"⟩

def namedScopes : List NamedScope := [funcScope, spirvScope, gpuScope]

def NamedScope.complaint (s : NamedScope) : String :=
  "you probably forgot to close a " ++ s.opener ++ " with a matching " ++ s.hint

def NamedScope.enter (s : NamedScope) : PipelineCall Unit :=
  openScope (.str s.operation) s.complaint

def NamedScope.leave (s : NamedScope) : PipelineCall Unit := closeScope (.str s.operation)

/-! ## Calls by name -/

def bindOptional (params : List String) (call : CallArgs Datum) :
    Except Fault (List (String × Datum)) := do
  if params.length < call.positional.length then throw .wrongKind
  let given := params.take call.positional.length
  let rest := params.drop call.positional.length
  if call.named.any fun (k, _) => k ∉ rest then throw .wrongKind
  return given.zip call.positional ++ rest.map fun p => (p, (call.named.lookup p).getD .null)

/-- The value of an option that takes lists is its elements with commas. -/
def joinedValue (o : PassOption) (v : Datum) : Datum :=
  match o.takesList, v with
  | true, .list items => .str (",".intercalate (items.map Datum.text))
  | _, v => v

def callMethod (pass : String) (options : List PassOption) (call : CallArgs Datum) :
    PipelineCall Unit := do
  match bindOptional (options.map PassOption.name) call with
  | .error fault => throw fault
  | .ok values =>
    addPass pass (List.zipWith (fun o (k, v) => (k, joinedValue o v)) options values)

def callPass (spec : PassSpec) (call : CallArgs Datum) : PipelineCall Unit :=
  callMethod (optionKey spec.name) spec.options call

inductive Step where
  | enter (scope : NamedScope)
  | leave (scope : NamedScope)
  | pass (name : String)
  | passWith (name option : String) (value : Datum)
  deriving Repr, Inhabited

def Step.run : Step → PipelineCall Unit
  | .enter s => s.enter
  | .leave s => s.leave
  | .pass name => addPass (optionKey name) []
  | .passWith name option value => addPass (optionKey name) [(option, value)]

def runSteps : List Step → PipelineCall Unit
  | [] => return ()
  | s :: rest => do
    s.run
    runSteps rest

def bufferizeSteps : List Step :=
  [.enter funcScope, .pass "scf_bufferize", .pass "empty_tensor_to_alloc_tensor",
   .pass "linalg_bufferize", .leave funcScope, .pass "func_bufferize", .pass "arith_bufferize",
   .enter funcScope, .pass "tensor_bufferize", .pass "finalizing_bufferize",
   .pass "buffer_deallocation", .leave funcScope]

def lowerToLlvmSteps : List Step :=
  [.pass "cse", .enter funcScope, .pass "lower_affine", .pass "arith_expand",
   .pass "convert_math_to_llvm", .leave funcScope, .pass "convert_math_to_libm",
   .pass "convert_linalg_to_llvm", .pass "expand_strided_metadata", .pass "finalize_memref_to_llvm",
   .pass "convert_scf_to_cf", .pass "convert_cf_to_llvm", .pass "cse", .pass "lower_affine",
   .enter funcScope, .pass "convert_arith_to_llvm", .leave funcScope, .pass "convert_func_to_llvm",
   .pass "canonicalize", .pass "convert_openmp_to_llvm", .pass "cse",
   .pass "reconcile_unrealized_casts"]

def lowerToOpenmpSteps : List Step :=
  [.pass "convert_scf_to_openmp", .enter funcScope, .pass "lower_affine", .leave funcScope]

def lowerToVulkanSteps (indexBitwidth : Datum) : List Step :=
  [.pass "gpu_kernel_outlining", .pass "fold_memref_alias_ops", .pass "convert_gpu_to_spirv",
   .enter spirvScope, .pass "spirv_lower_abi_attrs", .pass "spirv_update_vce", .leave spirvScope,
   .pass "convert_gpu_launch_to_vulkan_launch", .pass "finalize_memref_to_llvm", .enter funcScope,
   .pass "llvm_request_c_wrappers", .leave funcScope,
   .passWith "convert_func_to_llvm" "index_bitwidth"
     (joinedValue ⟨"index_bitwidth", true⟩ indexBitwidth),
   .pass "reconcile_unrealized_casts", .pass "launch_func_to_vulkan"]

def bindOne (param : String) (call : CallArgs Datum) : Except Fault Datum :=
  match call.positional, call.named with
  | [v], [] => .ok v
  | [], [(k, v)] => if k = param then .ok v else .error .wrongKind
  | _, _ => .error .wrongKind

def bindNone (call : CallArgs Datum) : Except Fault Unit :=
  if call.positional.isEmpty && call.named.isEmpty then .ok () else .error .wrongKind

/-- Call by name.  The answer says whether the call gives the pipeline back, so that calls can
be chained. -/
def invoke (name : String) (call : CallArgs Datum) : PipelineCall Bool := do
  let steps (s : List Step) : PipelineCall Bool := do
    MonadExcept.ofExcept (bindNone call)
    runSteps s
    return true
  match name with
  | "WRAP" =>
    openScope (← MonadExcept.ofExcept (bindOne "scope" call)) funcScope.complaint
    return true
  | "UNWRAP" =>
    closeScope (← MonadExcept.ofExcept (bindOne "scope" call))
    return true
  | "_add_pass" =>
    match call.positional, call.named.lookup "pass_name" with
    | [n], none =>
      addPass n.text call.named
      return false
    | [], some n =>
      addPass n.text (call.named.filter fun (k, _) => k ≠ "pass_name")
      return false
    | _, _ => throw .wrongKind
  | "bufferize" => steps bufferizeSteps
  | "lower_to_llvm" => steps lowerToLlvmSteps
  | "lower_to_openmp" => steps lowerToOpenmpSteps
  | "lower_to_vulkan" =>
    match ← MonadExcept.ofExcept (bindOptional ["index_bitwidth"] call) with
    | [(_, v)] =>
      runSteps (lowerToVulkanSteps v)
      return true
    | _ => throw .wrongKind
  | name =>
    match namedScopes.find? fun s => s.opener = name with
    | some s => steps [.enter s]
    | none => match namedScopes.find? fun s => s.closer = name with
        | some s => steps [.leave s]
        | none => match PassSpec.find? name with
            | some spec =>
              callPass spec call
              return true
            | none => throw .noAttribute

end Pipeline

end Polyloom
