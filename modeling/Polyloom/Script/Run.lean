import Polyloom.Script.Execute

/-!
Running scripts.

Everything that can be called is called by one function, which is bounded by how deep calls may
nest.  Arguments are evaluated from left to right, and a step that fails keeps what it did.
-/

namespace Polyloom

namespace Argument

open Build

def key (text : String) : Value :=
  if !text.isEmpty && text.toList.all Char.isDigit then
    .int (text.toList.foldl (fun n c => 10 * n + (c.toNat - '0'.toNat)) 0 : Nat)
  else .str text

mutual

def evaluate (call : Caller) : Argument → Build Value
  | .scalar d => return .ofDatum d
  | .list items => do newList (← evaluateAll call items)
  | .variable name => do
    match (← get).vars.lookup name with
    | some v => return v
    | none => throw .noKey
  | .type text => return .type text
  | .fresh t => return (← freshId t).value
  | .tuple items => return .tuple (← evaluateAll call items)
  | .attribute cls payload => return .attribute cls (← evaluate call payload)
  | .map text => return .map text
  | .ref path => Library.dereference path
  | .dict entries => return .dict ((← evaluateNamed call entries).map fun (k, v) => (key k, v))
  | .array element shape => return .array element shape []
  | .machineInt n => return .machineInt n
  | .function name params steps result => do
    newObject (.scripted name (← evaluateParams call params) steps result)
  | .source tree globals => do Execute.define call tree (← evaluateNamed call globals)

def evaluateAll (call : Caller) : List Argument → Build (List Value)
  | [] => return []
  | a :: rest => do
    let v ← evaluate call a
    return v :: (← evaluateAll call rest)

def evaluateNamed (call : Caller) : List (String × Argument) → Build (List (String × Value))
  | [] => return []
  | (name, a) :: rest => do
    let v ← evaluate call a
    return (name, v) :: (← evaluateNamed call rest)

def evaluateParams (call : Caller) :
    List (String × Option Argument) → Build (List (String × Option Value))
  | [] => return []
  | (name, none) :: rest => return (name, none) :: (← evaluateParams call rest)
  | (name, some a) :: rest => do
    let v ← evaluate call a
    return (name, some v) :: (← evaluateParams call rest)

end

end Argument

namespace Script

open Build Argument

/-! ## Texts -/

def textOf (v : Value) : Build String := do
  match v with
  | .op id _ =>
    match (← op id).attributes.lookup "sym_name" with
    | some name => return "@" ++ name.payload.text
    | none => return v.display
  | .object id =>
    match ← object id with
    | .failure text => return (← now text).text
    | .wrapper (.op op cls) =>
      match (← Build.op op).attributes.lookup "sym_name" with
      | some name => return "Op(@" ++ name.payload.text ++ ")"
      | none => return "Op(" ++ (Value.op op cls).display ++ ")"
    | .wrapper inner => return "Op(" ++ (← now inner).text ++ ")"
    | _ => return (← now v).text
  | v => return (← now v).text

def displayOf (v : Value) : Build String := do
  match v with
  | .object id =>
    match ← object id with
    | .wrapper _ => textOf v
    | _ => return (← now v).display
  | v => return (← now v).display

/-! ## Steps -/

def perform (call : Caller) : Action → Build Value
  | .call target args named again => do
    let f ← evaluate call target
    let positional ← evaluateAll call args
    let keywords ← evaluateNamed call named
    let v ← call f ⟨positional, keywords⟩
    match again with
    | none => return v
    | some args => call v ⟨← evaluateAll call args, []⟩
  | .method name of args named => do
    let v ← evaluate call of
    let positional ← evaluateAll call args
    let keywords ← evaluateNamed call named
    Member.callMethod call v name ⟨positional, keywords⟩
  | .get name of => do Member.read call (← evaluate call of) name
  | .set name of value => do
    let target ← evaluate call of
    Member.write target name (← evaluate call value)
    return .none
  | .del name of => do
    Member.delete (← evaluate call of) name
    return .none
  | .binary op a b => do
    let x ← evaluate call a
    let y ← evaluate call b
    Operator.binary op x y
  | .unary op a => do Operator.unary op (← evaluate call a)
  | .getItem of key => do
    let v ← evaluate call of
    Operator.getItem v (← evaluate call key)
  | .setItem of key value => do
    let v ← evaluate call of
    let k ← evaluate call key
    Operator.setItem v k (← evaluate call value)
    return .none
  | .enter of => do Scope.enterObject (← evaluate call of)
  | .leave of => do Scope.leaveObject (← evaluate call of)
  | .text of => do return .str (← textOf (← evaluate call of))
  | .display of => do return .str (← displayOf (← evaluate call of))
  | .keep of => evaluate call of

def bind (name : String) (v : Value) : Build Unit :=
  modify fun s => { s with vars := Table.put name v s.vars }

def runStep (call : Caller) : Step → Build Value
  | .mk action keepAs => do
    let v ← perform call action
    match keepAs with
    | some name => bind name v
    | none => pure ()
    return v

def runSteps (call : Caller) : List Step → Build Unit
  | [] => return ()
  | s :: rest => do
    let _ ← runStep call s
    runSteps call rest

/-! ## Calls -/

def bindAll : List (String × Value) → Build Unit
  | [] => return ()
  | (name, v) :: rest => do
    bind name v
    bindAll rest

/-- Call a function of the script.  Its parameters become variables, which stay bound. -/
def callScripted (call : Caller) (params : List (String × Option Value)) (steps : List Step)
    (result : Option Argument) (args : CallArgs Value) : Build Value := do
  let names := params.map Prod.fst
  let values ← settle (bindParams (names.map .required) args)
  bindAll (names.zip values)
  runSteps call steps
  match result with
  | some a => evaluate call a
  | none => return .none

def instantiate (call : Caller) (cls : Value) (name : String)
    (args : CallArgs Value) : Build Value := do
  let self ← newObject (.record cls name [])
  let s ← get
  match (← Member.membersOf cls).lookup "__init__" with
  | some init =>
    let _ ← call init { args with positional := self :: args.positional }
    return self
  | none =>
    if !args.positional.isEmpty then throw .wrongKind
    match Member.rootOf s (s.objects.length + 1) cls with
    | some "module.Module" =>
      let _ ← ModuleClass.initialise call name (← Member.methodsOf cls) self args.named
      return self
    | some "gpu.Module" =>
      let _ ← ModuleClass.initialiseDevice call name (← Member.methodsOf cls) self args.named
      return self
    | _ => if args.named.isEmpty then return self else throw .wrongKind

def launch (f : TracedFunction) (args : CallArgs Value) : Build Value := do
  match ← settle (bindParams [.keyword "grid_size", .keyword "block_size"] ⟨[], args.named⟩) with
  | [grid, block] => Function.launchTraced f args.positional grid block
  | _ => throw .wrongKind

def positionalOnly (args : CallArgs Value) : Build (List Value) :=
  if args.named.isEmpty then return args.positional else throw .wrongKind

def callObject (call : Caller) (id : Nat) (args : CallArgs Value) : Build Value := do
  match ← object id with
  | .scripted _ params steps result => callScripted call params steps result args
  | .sourced tree _ defaults globals frames =>
    Execute.callSource call tree defaults globals frames args
  | .bound f self => call f { args with positional := self :: args.positional }
  | .decorator path given =>
    match args.positional, args.named with
    | [f], [] => Library.decorate call path given f
    | _, _ => throw .wrongKind
  | .pendingInsertion given =>
    let _ ← settle (bindParams [] args)
    Tensor.insertPending given
  | .lazySequence given =>
    let _ ← settle (bindParams [] args)
    Library.buildSequence call given
  | .lazyFunction given container => do
    let vs ← positionalOnly args
    Function.callLazy (Library.defineFunction call given) (fun f => call f ⟨vs, []⟩) container
  | .declared symbol annots => do Function.callDeclared symbol annots (← positionalOnly args)
  | .entryPoint invoker name =>
    match ← object invoker with
    | .invoker returnFunction _ => do
      Compile.invoke name returnFunction.isSome (← positionalOnly args)
    | _ => throw .wrongKind
  | .cls name _ _ => instantiate call (.object id) name args
  | .traced f => if f.isKernel then launch f args else do
      Function.callTraced call id (← positionalOnly args)
  | _ => throw .wrongKind

def moduleClasses : List String := ["module.Module", "gpu.Module"]

def invoke (call : Caller) (f : Value) (args : CallArgs Value) : Build Value :=
  match f with
  | .ref path =>
    if moduleClasses.contains path then instantiate call f "Module" args
    else Library.callPath call path args
  | .object id => callObject call id args
  | _ => throw .wrongKind

def callWithin : Nat → Caller
  | 0 => fun _ _ => throw .exhausted
  | depth + 1 => invoke (callWithin depth)

end Script

/-! ## Whole scripts -/

structure Script where
  steps : List Step
  builders : List String := []
  failure : Option (PipelineStage × String) := none
  asm : String := ""
  temporaryDirectory : String := ""
  unwritable : String → Option Fault := Compile.emptyDirectories

structure StepOutcome where
  result : Except Fault Value
  events : List Event
  printed : String

namespace Script

def depthLimit : Nat := 400

def start (script : Script) : Session :=
  { builders := script.builders, failure := script.failure, asm := script.asm,
    temporaryDirectory := script.temporaryDirectory, unwritable := script.unwritable }

def outcome (s : Session) (step : Step) : StepOutcome × Session :=
  let (result, s) :=
    (runStep (callWithin depthLimit) step).run.run { s with events := [], printed := "" }
  (⟨result.map s.frozen, s.events, s.printed⟩, s)

/-- Run steps one after the other; one that fails does not stop the others. -/
def runFrom (s : Session) : List Step → List StepOutcome × Session
  | [] => ([], s)
  | step :: rest =>
    let (first, s) := outcome s step
    let (outcomes, s) := runFrom s rest
    (first :: outcomes, s)

def run (script : Script) : List StepOutcome × Session := runFrom script.start script.steps

end Script

end Polyloom
