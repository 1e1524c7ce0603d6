import Polyloom.Backend.ReturnFunction
import Polyloom.Builder.Setting
import Polyloom.Ir.Reader
import Polyloom.Text.Margin

/-!
Running pass pipelines on a module, and executing what was compiled.
-/

namespace Polyloom.Compile

open Build

def nameAttribute : String := "nelli.debug_module_name"

/-- The name that a module is reported under.  Only a string attribute can be one. -/
def nameIn (attributes : List (String × Value)) : Except Fault String :=
  match attributes.lookup nameAttribute with
  | some (.attribute "StringAttr" (.str name)) => .ok name
  | some v => .error (.badValue ("Cannot cast attribute to StringAttr (from " ++ v.display ++ ")"))
  | none => .ok "UnnammedModule"

def moduleName (id : Nat) : Build String := do settle (nameIn (← op id).attributes)

def stage (here : PipelineStage) (fault : String → Fault) : Build Unit := do
  match (← get).failure with
  | some (failing, text) => if failing = here then throw (fault text)
  | none => return ()

def getAsm : Build String := do
  record (.getAsm 10 true)
  stage .asm .failure
  return (← get).asm

def print (text : String) : Build Unit :=
  modify fun s => { s with printed := s.printed ++ text ++ "\n" }

def runPasses (id : Nat) (pipeline : Value) (irPrinting printPipeline : Bool) : Build Unit := do
  record (.parsePipeline (← now pipeline))
  stage .parse .badValue
  if printPipeline then print (← now pipeline).text
  let run : Build Unit := do
    record (.runPipeline id)
    stage .run .failure
  if irPrinting then
    Setting.within .disableMultithreading .none do
      record .enableIrPrinting
      stage .printing .failure
      run
  else run

def debugOptions : String := "-mlir-print-ir-after-all -mlir-disable-threading"

def rule : String := String.ofList (List.replicate 80 '*')

def report (description diagnostics pipeline file : String) : String :=
  let text := "\n".intercalate
    [description ++ " failed with the following diagnostics:", "", rule,
     String.ofList (Text.strip diagnostics.toList), rule, "",
       "For developers, the error can be reproduced with:",
     "$ mlir-opt " ++ debugOptions ++ " -pass-pipeline='" ++ pipeline ++ "' " ++ file, ""]
  "\n".intercalate ((Text.lines text).map fun line => String.ofList (Text.stripFront line.toList))

def diagnosticsOf (fault : Fault) : String := (fault.message.getD "") ++ "\n"

/-- The file that a failing module is written to; a name that is a path from the root is its own
place. -/
def reportFile (directory name : String) : String :=
  if Text.startsWith name "/" then name ++ ".mlir"
  else if directory.isEmpty || Text.endsWith directory "/" then directory ++ name ++ ".mlir"
  else directory ++ "/" ++ name ++ ".mlir"

/-- What opening a file to write to it stops with where no directory has others inside.  A name
takes at most 255 bytes. -/
def emptyDirectories (path : String) : Option Fault :=
  let names := Text.splitOn path "/"
  let isStep (name : String) : Bool := ["", ".", ".."].contains name
  if path.toList.contains '\x00' then some (.badValue "embedded null byte")
  else if (names.drop 1).dropLast.any fun name => !isStep name then
    some (.file 2 ("[Errno 2] No such file or directory: " ++ Text.quoted path))
  else if names.any fun name => 255 < name.utf8ByteSize then
    some (.file 36 ("[Errno 36] File name too long: " ++ Text.quoted path))
  else none

def moduleId : Value → Build Nat
  | .module id => return id
  | .op id _ => return id
  | _ => throw .noAttribute

def readText : Build String := do
  stage .context .failure
  getAsm

def collectIn (place : Option String) : Build Unit := modify fun s => { s with collected := place }

def openReport (name : String) : Build String := do
  let s ← get
  let file := reportFile s.temporaryDirectory name
  match s.unwritable file with
  | some fault => throw fault
  | none => return file

def reportFailure (name : String) (pipeline description : Value) (before : Option String)
    (fault : Fault) : Build Value := do
  let diagnostics := (← get).collected.getD "" ++ diagnosticsOf fault
  collectIn before
  let file ← openReport name
  let given ← truth description
  let s ← get
  let shown := if given then (s.frozen description).text else name ++ " compile"
  throw (.compilation (report shown diagnostics (s.frozen pipeline).text file))

/-- Run a pipeline on a module.  A failure before the text for a report was read leaves nothing to
write to the file that was opened for it. -/
def runPipeline (module pipeline description : Value) (irPrinting printPipeline : Bool) :
    Build Value := do
  let id ← moduleId module
  let name ← moduleName id
  let before := (← get).collected
  collectIn (some "")
  match ← attempt readText with
  | .error _ => do
    collectIn before
    let _ ← openReport name
    throw .unassigned
  | .ok _ =>
    match ← attempt (runPasses id pipeline irPrinting printPipeline) with
    | .error fault => reportFailure name pipeline description before fault
    | .ok () => do
      collectIn before
      return module

/-! ## Execution -/

/-- The functions of a module that take a result back, by the printed names of its functions. -/
def returnFunctionsBy (print : Value → String) (module : Value) : Build (List String) := do
  let id ← moduleId module
  let block ← blockAt id 0 0
  let names ← ((← get).blockOf block).ops.mapM fun o => do
    let name ← OpReader.attributeOf o "sym_name"
    return print (← now name)
  return ReturnFunction.select names

def returnFunctions (module : Value) : Build (List String) := returnFunctionsBy Value.text module

def invoker (module consume optLevel sharedLibs : Value) : Build Value := do
  let sharedLibs := if sharedLibs.isNone then .listed [] else sharedLibs
  let id ← moduleId module
  record (.engine id (← now optLevel) (← now sharedLibs))
  if consume.isNone then return ← newObject (.invoker none [])
  match ← returnFunctions module with
  | [name] =>
    let signature ← settle (ReturnFunction.signature name)
    if !(← get).isCallable consume then throw .wrongKind
    record (.registerRuntime name)
    newObject (.invoker (some name) (signature.map Prod.fst))
  | _ => throw (.assertion "multiple return funcs not supported")

def foreignArgument (hasReturn : Bool) : Value → Build Value
  | .machineInt _ => return .str "c_int"
  | .array element shape _ => do
    settle (ElementType.checkSupported element)
    return .listed [.str (if hasReturn then "unranked" else "ranked"), .str element.text,
      .listed (shape.map fun (n : Nat) => Value.int n)]
  | _ => throw .noAttribute

def invoke (name : String) (hasReturn : Bool) (args : List Value) : Build Value := do
  let args ← args.mapM (foreignArgument hasReturn)
  record (.invoke name args)
  return .none

def pipelineText (pipeline : Value) : Build (Value × Bool) := do
  match pipeline with
  | .str s => return (.str s, Text.contains s "to-llvm")
  | .object id =>
    match ← object id with
    | .pipeline p => return (.str (p.materialize true), p.lowersToLlvm)
    | _ => throw .unassigned
  | _ => throw .unassigned

def compile (module pipeline kernelName : Value) (irPrinting : Bool) : Build Value := do
  let (text, needsInterface) ← pipelineText pipeline
  if needsInterface then
    let below ← OpReader.walkAll (← moduleId module)
    let kernels ← below.filterM fun id => do
      match ← OpReader.symbolOf id with
      | some s => return kernelName.same (.str s)
      | none => return false
    match kernels with
    | [id] => setAttribute id "llvm.emit_c_interface" AttributeBuilder.unit
    | found =>
      let shown := Value.listed (found.map fun id => .op id "Operation")
      throw (.assertion ("kernel func " ++ shown.display ++ " not found"))
  runPipeline module text (.str "Lowering IR") irPrinting false

end Polyloom.Compile
