import Polyloom.Ir.AttributeBuilder

/-!
Settings of contexts, and the scopes that change them while they are open.

A scope sets its setting when it is entered and resets it when it is left; how a setting was
before is not remembered.
-/

namespace Polyloom.Setting

open Build

def contextOf (context : Value) : Value :=
  if context.isNone then AttributeBuilder.defaultContext else context

def flagsOf (context : Value) : Build (Nat × ContextFlags) := do
  match context with
  | .object id =>
    match ← object id with
    | .context flags => return (id, flags)
    | _ => throw .noAttribute
  | _ => throw .noAttribute

def setUnregistered (context : Value) (flag : Bool) : Build Unit := do
  let (id, flags) ← flagsOf context
  setObject id (.context { flags with allowUnregistered := flag })

def setMultithreading (context : Value) (flag : Bool) : Build Unit := do
  let (id, flags) ← flagsOf context
  setObject id (.context { flags with multithreading := flag })
  record (.multithreading flag)

def apply (setting : Setting) (context : Value) (inside : Bool) : Build Unit :=
  match setting with
  | .allowUnregistered => setUnregistered context inside
  | .enableMultithreading => setMultithreading context inside
  | .disableMultithreading => setMultithreading context (!inside)
  | .debug => modify fun s => { s with debug := inside }

/-- Run a step with a setting.  A step that fails leaves the setting as it is then. -/
def within {α : Type} (setting : Setting) (context : Value) (step : Build α) : Build α := do
  apply setting (contextOf context) true
  let a ← step
  apply setting (contextOf context) false
  return a

def defaultFlags (s : Session) : ContextFlags :=
  match s.objects.head? with
  | some (.context flags) => flags
  | _ => {}

end Polyloom.Setting
