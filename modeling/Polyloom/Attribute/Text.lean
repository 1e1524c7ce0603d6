import Polyloom.Datum
import Polyloom.Fault

/-!
The texts of attributes and types that a parser of the target language reads: shader entry
points and environments, launch dimensions, and nested symbol references.
-/

namespace Polyloom.AttributeText

def entryPointAbi (workgroupSize : Datum) : Except Fault String :=
  match workgroupSize with
  | .null => .ok "#spirv.entry_point_abi<>"
  | size =>
    match size.elements? with
    | some items =>
      .ok ("#spirv.entry_point_abi<workgroup_size = " ++ (Datum.list items).display ++ ">")
    | none => .error .wrongKind

def resourceLimits : String := "#spirv.resource_limits<>"

def versionCapabilitiesExtensions : String :=
  "#spirv.vce<v1.0, [Shader], [SPV_KHR_storage_buffer_storage_class]>"

def targetEnvironment : String :=
  "#spirv.target_env<" ++ versionCapabilitiesExtensions ++ ", " ++ resourceLimits ++ ">"

def moduleTargetEnvironment : List (String × String) :=
  [("spirv.target_env", targetEnvironment)]

def dimension (dim : Datum) : String :=
  "#gpu<dim " ++ dim.text ++ ">"

def axis (kind : String) (dim : Datum) : Except Fault String :=
  match dim with
  | .str "x" | .str "y" | .str "z" => .ok ("#gpu." ++ kind ++ "<" ++ dim.text ++ ">")
  | .list _ | .map _ => .error .wrongKind
  | _ => .error (.assertion "")

def block : Datum → Except Fault String := axis "block"

def thread : Datum → Except Fault String := axis "thread"

def asyncToken : String := "!gpu.async.token"

def symbolRef (symbols : Datum) : Except Fault String :=
  match symbols.elements? with
  | some items => .ok ("::".intercalate (items.map fun q => "@" ++ q.text))
  | none => .error .wrongKind

/-! ## By name -/

def constants : List (String × String) :=
  [("resource_limits", resourceLimits), ("vce", versionCapabilitiesExtensions),
   ("target_env", targetEnvironment), ("async_token", asyncToken)]

def families : List (String × (Datum → Except Fault String)) :=
  [("entry_point_abi", entryPointAbi), ("dim", fun d => .ok (dimension d)), ("block", block),
   ("thread", thread), ("symbol_ref", symbolRef)]

/-- The text of a name for the given arguments.  An entry point may go without its size, and
reductions have no text of their own. -/
def byName (name : String) (args : List Datum) : Except Fault String :=
  if name = "all_reduce" then .error .noImport
  else match constants.lookup name, families.lookup name, args with
    | some text, _, [] => .ok text
    | none, some text, [a] => text a
    | none, some text, [] => if name = "entry_point_abi" then text .null else .error .wrongKind
    | none, none, _ => .error .noAttribute
    | _, _, _ => .error .wrongKind

end Polyloom.AttributeText
