import Polyloom.Script.Member
import Polyloom.Script.Operator
import Polyloom.Source.Program

/-!
Running programs that are given as source.

A call has a frame with its variables.  A name that the function binds anywhere is looked up in
the frame only; all other names are looked up around the definition, from the inside out, then
among the globals of the source and last among what is known everywhere.
-/

namespace Polyloom

structure Surroundings where
  frame : Nat
  /-- The names that belong to the frame, bound or not. -/
  locals : List String
  /-- The frames around the definition, innermost first. -/
  outer : List Nat
  globals : List (String × Value)
  /-- Is it the body of a class?  Its names are seen by nothing inside of it. -/
  isClass : Bool

namespace Execute

open Build

/-! ## Names -/

def newFrame (bindings : List (String × Value)) : Build Nat := do
  let s ← get
  set { s with frames := s.frames ++ [bindings] }
  return s.frames.length

def frame (id : Nat) : Build (List (String × Value)) := return ((← get).frames[id]?).getD []

def bind (env : Surroundings) (name : String) (v : Value) : Build Unit :=
  modify fun s => { s with frames := s.frames.modify env.frame (Table.put name v) }

def inFrames (name : String) : List Nat → Build (Option Value)
  | [] => return none
  | id :: rest => do
    match (← frame id).lookup name with
    | some v => return some v
    | none => inFrames name rest

def everywhere? (name : String) : Option Value :=
  if (Library.everywhereProcedures.lookup name).isSome ||
      Library.everywhereClasses.contains name then
    some (.ref name)
  else none

def lookup (env : Surroundings) (name : String) : Build Value := do
  let own := (← frame env.frame).lookup name
  match own with
  | some v => return v
  | none =>
  if env.locals.contains name && !env.isClass then throw .unassigned
  match ← inFrames name env.outer with
  | some v => return v
  | none =>
  match env.globals.lookup name with
  | some v => return v
  | none =>
  match everywhere? name with
  | some v => return v
  | none => throw .unboundName

/-! ## Expressions -/

def compareBy (sign : ComparisonSign) (a b : Value) : Build Value := do
  match sign with
  | .operator op => Operator.binary op a b
  | .differs => return .bool (!(← truth (← Operator.binary .eq a b)))

mutual

def evaluate (call : Caller) (env : Surroundings) : Expression → Build Value
  | .name id => lookup env id
  | .constant d => return .ofDatum d
  | .list es => do newList (← evaluateAll call env es)
  | .tuple es => return .tuple (← evaluateAll call env es)
  | .binary op a b => do
    let x ← evaluate call env a
    let y ← evaluate call env b
    Operator.binary op x y
  | .compare first rest => do
    let x ← evaluate call env first
    compareAll call env x rest
  | .call (.attribute of name) args named => do
    let v ← evaluate call env of
    let positional ← evaluateAll call env args
    let keywords ← evaluateNamed call env named
    Member.callMethod call v name ⟨positional, keywords⟩
  | .call f args named => do
    let v ← evaluate call env f
    let positional ← evaluateAll call env args
    let keywords ← evaluateNamed call env named
    call v ⟨positional, keywords⟩
  | .attribute of name => do Member.read call (← evaluate call env of) name
  | .item of key => do
    let v ← evaluate call env of
    let k ← evaluate call env key
    Operator.getItem v k
  | .unknown => throw (.unsupported "")

def evaluateAll (call : Caller) (env : Surroundings) : List Expression → Build (List Value)
  | [] => return []
  | e :: rest => do
    let v ← evaluate call env e
    return v :: (← evaluateAll call env rest)

def evaluateNamed (call : Caller) (env : Surroundings) :
    List (String × Expression) → Build (List (String × Value))
  | [] => return []
  | (name, e) :: rest => do
    let v ← evaluate call env e
    return (name, v) :: (← evaluateNamed call env rest)

def compareAll (call : Caller) (env : Surroundings) (x : Value) :
    List (ComparisonSign × Expression) → Build Value
  | [] => return .bool true
  | (sign, e) :: rest => do
    let y ← evaluate call env e
    let result ← compareBy sign x y
    if rest.isEmpty then return result
    if ← truth result then compareAll call env y rest else return result

end

/-! ## Statements -/

def bindAll (env : Surroundings) : List String → List Value → Build Unit
  | [], [] => return ()
  | name :: names, v :: vs => do
    bind env name v
    bindAll env names vs
  | _, _ => throw (.badValue "")

def assign (call : Caller) (env : Surroundings) (v : Value) : Target → Build Unit
  | .name id => bind env id v
  | .names ids => do
    let vs ← items v
    if vs.length ≠ ids.length then throw (.badValue "")
    bindAll env ids vs
  | .item of key => do
    let target ← evaluate call env of
    let k ← evaluate call env key
    Operator.setItem target k v
  | .unknown => throw (.unsupported "")

def assignAll (call : Caller) (env : Surroundings) (v : Value) : List Target → Build Unit
  | [] => return ()
  | t :: rest => do
    assign call env v t
    assignAll call env v rest

def forItems (step : Value → Build (Option Value)) : List Value → Build (Option Value)
  | [] => return none
  | v :: rest => do
    match ← step v with
    | some result => return some result
    | none => forItems step rest

def inside (env : Surroundings) : List Nat :=
  if env.isClass then env.outer else env.frame :: env.outer

mutual

def run (call : Caller) (env : Surroundings) : Statement → Build (Option Value)
  | .function tree annots defaults result => do
    let defaults ← evaluateNamed call env defaults
    let annots ← evaluateNamed call env annots
    match result with
    | some e => let _ ← evaluate call env e
    | none => pure ()
    bind env (Function.nameOf tree)
      (← newObject (.sourced tree annots defaults env.globals (inside env)))
    return none
  | .cls name bases body => do
    let bases ← evaluateAll call env bases
    let own ← newFrame []
    let names : Surroundings := ⟨own, Statement.boundAll body, inside env, env.globals, true⟩
    let _ ← runAll call names body
    bind env name (← newObject (.cls name (bases.headD .none) (← frame own)))
    return none
  | .loop target sequence body after => do
    let vs ← items (← evaluate call env sequence)
    let outcome ← forItems (fun v => do
      assign call env v target
      runAll call env body) vs
    match outcome with
    | some v => return some v
    | none => runAll call env after
  | .branch test yes no => do
    if ← truth (← evaluate call env test) then runAll call env yes else runAll call env no
  | .assign targets value => do
    assignAll call env (← evaluate call env value) targets
    return none
  | .result none => return some .none
  | .result (some e) => return some (← evaluate call env e)
  | .evaluate e => do
    let _ ← evaluate call env e
    return none
  | .nothing => return none
  | .unknown => throw (.unsupported "")

def runAll (call : Caller) (env : Surroundings) : List Statement → Build (Option Value)
  | [] => return none
  | s :: rest => do
    match ← run call env s with
    | some v => return some v
    | none => runAll call env rest

end

/-! ## Functions and classes -/

def callSource (call : Caller) (tree : SourceTree) (defaults globals : List (String × Value))
    (outer : List Nat) (args : CallArgs Value) : Build Value := do
  let names := Function.paramNames tree
  let params : List Param := names.map fun p => ⟨p, defaults.lookup p, false⟩
  let values ← settle (bindParams params args)
  let own ← newFrame (names.zip values)
  let body := tree.statements
  let env : Surroundings := ⟨own, names ++ Statement.boundAll body, outer, globals, false⟩
  return (← runAll call env body).getD .none

def define (call : Caller) (tree : SourceTree) (globals : List (String × Value)) : Build Value := do
  let own ← newFrame []
  let env : Surroundings := ⟨own, [], [], globals, true⟩
  let _ ← run call env tree.statement
  match (← frame own).lookup (tree.field "name").text with
  | some v => return v
  | none => throw .noKey

end Execute

end Polyloom
