import Polyloom.Builder.Function

/-!
Classes whose instances are modules.

An instance makes or takes a module and puts what its methods stand for into it, at once or
when a method is first called.
-/

namespace Polyloom.ModuleClass

open Build

abbrev Methods := List (String × Value)

def option (options : List (String × Value)) (name : String) : Value :=
  (options.lookup name).getD .none

def setName (module : Value) (name : String) : Build Unit := do
  match module with
  | .op id cls => OpReader.write cls id "sym_name" (AttributeBuilder.string (.str name))
  | _ => throw .noAttribute

def moduleOf (call : Caller) (name : String) (options : List (String × Value)) : Build Value := do
  let ctor := option options "ctor"
  let given := option options "mlir_module"
  if ← truth ctor then
    let made ← call ctor ⟨[], []⟩
    setName made name
    return made
  else if ← truth given then
    setAttribute (← opId given) "sym_name" (AttributeBuilder.string (.str name))
    return given
  else
    let made ← moduleOp
    setName made name
    return made

def methodOptions (options : List (String × Value)) : List (String × Value) :=
  [("func_ctor", option options "func_ctor"), ("range_ctor", option options "range_ctor"),
   ("attributes", option options "func_attributes"), ("qualname", option options "func_qualname")]

def isSequence (f : Value) : Build Bool := do
  match f with
  | .object id =>
    match ← object id with
    | .lazySequence _ => return true
    | _ => return false
  | _ => return false

def setField (self : Value) (name : String) (v : Value) : Build Unit := do
  match self with
  | .object id =>
    match ← object id with
    | .record cls n fields => setObject id (.record cls n (Table.put name v fields))
    | _ => throw .noAttribute
  | _ => throw .noAttribute

/-- Define methods at once: sequences are run, all others become functions.  A method sees those
before it as functions already. -/
def defineAll (call : Caller) (options : List (String × Value))
    (self : Value) : Methods → Build Unit
  | [] => return ()
  | (name, f) :: rest => do
    if ← isSequence f then
      let _ ← call f ⟨[], []⟩
      defineAll call options self rest
    else
      let bound ← newObject (.bound f self)
      let made ← Function.define call bound .none .none (option options "range_ctor")
        (option options "func_ctor") [("attributes", option options "func_attributes"),
          ("qualname", option options "func_qualname")]
      setField self name made
      defineAll call options self rest

def deferAll (options : List (String × Value)) (container self : Value) : Methods → Build Unit
  | [] => return ()
  | (name, f) :: rest => do
    if ← isSequence f then deferAll options container self rest
    else
      let bound ← newObject (.bound f self)
      setField self name (← newObject (.lazyFunction ⟨[bound], methodOptions options⟩ container))
      deferAll options container self rest

def initialise (call : Caller) (name : String) (methods : Methods) (self : Value)
    (options : List (String × Value)) : Build Value := do
  let module ← moduleOf call name options
  setField self "mlir_module" module
  if ← truth (option options "lazy") then
    match options.lookup "mlir_module" with
    | none => throw (.assertion "lazy eval necessitates providing a container module")
    | some container => deferAll options container self methods
  else
    within (← Function.bodyOf module) (defineAll call options self methods)
    let attributes := option options "mod_attributes"
    if ← truth attributes then Function.setAttributes (← opId module) attributes
  return module

def deviceOptions (name : String) : List (String × Value) :=
  [("ctor", .ref "gpu.ModuleOp"), ("func_ctor", .ref "gpu.MLIRFunc"),
   ("range_ctor", .ref "scf.scf_range"), ("func_qualname", .str name)]

def initialiseDevice (call : Caller) (name : String) (methods : Methods) (self : Value)
    (options : List (String × Value)) : Build Value := do
  let fixed := deviceOptions name
  if options.any fun (k, _) => (fixed.lookup k).isSome then throw .wrongKind
  let module ← initialise call name methods self (fixed ++ options)
  within (← Function.bodyOf module) do
    let _ ← native "gpu" "ModuleEndOp" []
  return module

end Polyloom.ModuleClass
