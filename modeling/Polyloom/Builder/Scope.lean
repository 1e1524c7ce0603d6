import Polyloom.Builder.Setting
import Polyloom.Builder.Worksharing

/-!
Scopes: objects that are entered and left once.

Entering runs the first part of a scope and leaving the second.  Leaving a scope that was not
entered runs its first part, too late; a scope that is finished is left again without effect
and cannot be entered again.
-/

namespace Polyloom.Scope

open Build

def start : ScopeKind → Build (Value × List InsertionPoint)
  | .setting setting context => do
    Setting.apply setting (Setting.contextOf context) true
    return (.none, [])
  | .program source => do
    let made ← program source
    match made with
    | .module id =>
      let p ← newPoint (← blockAt id 0 0)
      enter p
      return (made, [p])
    | _ => throw .noAttribute
  | .parallel threads => return (.none, [← Worksharing.openParallel threads])

def finish : ScopeKind → List InsertionPoint → Build Unit
  | .setting setting context, _ => Setting.apply setting (Setting.contextOf context) false
  | .program _, [p] => leave p
  | .parallel _, [p] => Worksharing.closeParallel p
  | _, _ => return ()

def enterScope (id : Nat) (kind : ScopeKind) (state : ScopeState) : Build Value := do
  if state ≠ .fresh then throw .noAttribute
  setObject id (.scope kind .finished [])
  let (v, points) ← start kind
  setObject id (.scope kind .inside points)
  return v

def leaveScope (id : Nat) (kind : ScopeKind) (state : ScopeState) (points : List InsertionPoint) :
    Build Value := do
  match state with
  | .finished => return .bool false
  | .inside =>
    setObject id (.scope kind .finished [])
    finish kind points
    return .bool false
  | .fresh =>
    let _ ← enterScope id kind .fresh
    throw (.failure "generator didn't stop")

def enterObject (v : Value) : Build Value := do
  match v with
  | .object id =>
    match ← object id with
    | .scope kind state _ => enterScope id kind state
    | .point p => do
      enter p
      return v
    | .context _ => return v
    | _ => throw .noAttribute
  | _ => throw .noAttribute

def leaveObject (v : Value) : Build Value := do
  match v with
  | .object id =>
    match ← object id with
    | .scope kind state points => leaveScope id kind state points
    | .point p => do
      leave p
      return .none
    | .context _ => return .none
    | _ => throw .noAttribute
  | _ => throw .noAttribute

end Polyloom.Scope
