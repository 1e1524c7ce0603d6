import Polyloom.Ir.Value
import Polyloom.Pass.Pipeline
import Polyloom.Script.Syntax

/-!
The state of a build: operations, blocks and values made so far, the open insertion points,
the objects of the script, and the record of everything that was handed to the program under
construction.
-/

namespace Polyloom

/-! ## The program under construction -/

structure TypedId where
  id : Nat
  type : String
  deriving DecidableEq, Repr, Inhabited

def TypedId.value (v : TypedId) : Value := .ssa v.id v.type .plain

structure OpRecord where
  name : String
  cls : String
  parent : Option Nat
  operands : List Value
  results : List TypedId
  attributes : List (String × Value)
  regions : List (List Nat)
  deriving Inhabited

structure BlockRecord where
  op : Nat
  region : Nat
  args : List TypedId
  ops : List Nat
  deriving Inhabited

/-- A place to insert operations, which can be entered and left. -/
structure InsertionPoint where
  number : Nat
  block : Nat
  deriving DecidableEq, Repr, Inhabited

inductive Creation where
  | generic (operands : List Value) (attributes : List (String × Value)) (regions : Nat)
  | native (args : List Value) (named : List (String × Value))
  | module (source : Value)
  deriving Inhabited

/-- What was handed over, in the order of the calls. -/
inductive Event where
  | create (op : Nat) (name : String) (parent : Option Nat) (results : List Value) (how : Creation)
  | block (id op region : Nat) (args : List Value)
  | enter (point : InsertionPoint)
  /-- Leaving was asked of a point, and the innermost one was closed. -/
  | exit (asked closed : InsertionPoint)
  | getAsm (largeElementsLimit : Nat) (enableDebugInfo : Bool)
  | parsePipeline (text : Value)
  | enableIrPrinting
  | runPipeline (op : Nat)
  | engine (op : Nat) (optLevel sharedLibs : Value)
  | registerRuntime (name : String)
  | invoke (name : String) (args : List Value)
  | multithreading (flag : Bool)
  | appendRegistry (names : List String)
  | skew (op shifts : Value)
  | unroll (op factor annotator : Value)
  deriving Inhabited

/-! ## Objects of a script -/

structure ContextFlags where
  allowUnregistered : Bool := false
  multithreading : Bool := true
  deriving DecidableEq, Repr, Inhabited

inductive Setting where
  | allowUnregistered
  | enableMultithreading
  | disableMultithreading
  | debug
  deriving DecidableEq, Repr

inductive ScopeKind where
  | setting (setting : Setting) (context : Value)
  | program (source : Value)
  | parallel (threads : Value)
  deriving Inhabited

inductive ScopeState where
  | fresh
  | inside
  | finished
  deriving DecidableEq, Repr, Inhabited

structure TracedFunction where
  function : Value
  annots : List Value
  attributes : Value
  ctor : Value
  terminator : Value
  qualifier : Value
  isKernel : Bool
  funcOp : Option Value
  deriving Inhabited

inductive Object where
  | context (flags : ContextFlags)
  | scripted (name : String) (params : List (String × Option Value)) (steps : List Step)
      (result : Option Argument)
  /-- A function from a source tree, with the values around its definition. -/
  | sourced (tree : SourceTree) (annots defaults : List (String × Value))
      (globals : List (String × Value)) (frames : List Nat)
  | bound (function self : Value)
  | decorator (path : String) (args : CallArgs Value)
  | pendingInsertion (args : List Value)
  | lazySequence (args : CallArgs Value)
  | lazyFunction (args : CallArgs Value) (container : Value)
  | declared (symbol : Value) (annots : List Value)
  | entryPoint (invoker : Nat) (name : String)
  | cls (name : String) (base : Value) (members : List (String × Value))
  | record (cls : Value) (name : String) (fields : List (String × Value))
  | traced (f : TracedFunction)
  | scope (kind : ScopeKind) (state : ScopeState) (points : List InsertionPoint)
  | pipeline (p : Pipeline)
  | backend (sharedLibs : Value)
  | invoker (returnFunction : Option String) (returnTypes : List String)
  | failure (text : Value)
  | wrapper (op : Value)
  | point (p : InsertionPoint)

instance : Inhabited Object := ⟨.context {}⟩

/-! ## The session -/

/-- The loops and branches whose ends are marked by calls without arguments. -/
inductive Construct where
  | affineLoop
  | loop
  | parallelLoop
  | worksharingLoop
  | branch
  deriving DecidableEq, Repr

inductive PipelineStage where
  | context
  | asm
  | parse
  | printing
  | run
  deriving DecidableEq, Repr

namespace PipelineStage

def name : PipelineStage → String
  | .context => "context"
  | .asm => "asm"
  | .parse => "parse"
  | .printing => "printing"
  | .run => "run"

def all : List PipelineStage := [.context, .asm, .parse, .printing, .run]

def ofName? (text : String) : Option PipelineStage := all.find? fun stage => stage.name = text

end PipelineStage

structure Session where
  values : Nat := 0
  ops : List OpRecord := []
  blocks : List BlockRecord := []
  points : Nat := 0
  /-- The open insertion points, the innermost first. -/
  stack : List InsertionPoint := []
  openIfs : List Nat := []
  lastPoints : List (Construct × InsertionPoint) := []
  events : List Event := []
  printed : String := ""
  lists : List (List Value) := []
  frames : List (List (String × Value)) := []
  objects : List Object := [.context {}]
  vars : List (String × Value) := []
  /-- The last store through each buffer. -/
  recentStores : List ((Nat × View) × Value) := []
  debug : Bool := false
  /-- The text that error output is collected in, while it is. -/
  collected : Option String := none
  /-- Attribute builders that are known by name only. -/
  builders : List String := []
  failure : Option (PipelineStage × String) := none
  asm : String := ""
  temporaryDirectory : String := ""
  /-- What opening a file to write to it stops with, if it does. -/
  unwritable : String → Option Fault := fun _ => none

instance : Inhabited Session := ⟨{}⟩

/-- A step of a build.  It may stop with a fault; what it did before stays done. -/
abbrev Build (α : Type) := ExceptT Fault (StateM Session) α

abbrev Caller := Value → CallArgs Value → Build Value

namespace Session

def listItems (s : Session) (cell : Nat) : List Value := (s.lists[cell]?).getD []

def op (s : Session) (id : Nat) : OpRecord := (s.ops[id]?).getD default

def blockOf (s : Session) (id : Nat) : BlockRecord := (s.blocks[id]?).getD default

def regionBlocks (s : Session) (op index : Nat) : List Nat := ((s.op op).regions[index]?).getD []

def openBlocks (s : Session) : List Nat := (s.stack.map InsertionPoint.block).reverse

def current (s : Session) : Option Nat := s.stack.head?.map InsertionPoint.block

end Session

/-! ## Values at one moment -/

namespace Value

mutual

def expand (look : Value → Value) : Value → Value
  | .list cell => look (.list cell)
  | .region owner i => look (.region owner i)
  | .object id => look (.object id)
  | .listed items => .listed (expandAll look items)
  | .tuple items => .tuple (expandAll look items)
  | .dict entries => .dict (expandEntries look entries)
  | .attribute c v => .attribute c (expand look v)
  | .built b v => .built b (expand look v)
  | .annot holder t => .annot (expand look holder) (expand look t)
  | v => v

def expandAll (look : Value → Value) : List Value → List Value
  | [] => []
  | v :: rest => expand look v :: expandAll look rest

def expandEntries (look : Value → Value) : List (Value × Value) → List (Value × Value)
  | [] => []
  | (k, v) :: rest => (expand look k, expand look v) :: expandEntries look rest

end

end Value

namespace Object

def shown : Object → Value
  | .context _ => .shown "<Context>"
  | .cls name _ _ => .named name
  | .record _ name _ => .shown ("<" ++ name ++ ">")
  | .traced _ => .shown "<MLIRFunc>"
  | .scope _ _ _ => .shown "<_GeneratorContextManager>"
  | .pipeline _ => .shown "<Pipeline>"
  | .backend _ => .shown "<LLVMJITBackend>"
  | .invoker _ _ => .shown "<LLVMJITBackendInvoker>"
  | .failure _ => .shown "<NelliMlirCompilerError>"
  | .wrapper _ => .shown "<Op>"
  | .point _ => .shown "<InsertionPoint>"
  | _ => .shown "<function>"

end Object

namespace Session

/-- A value as it is now: lists by their items, regions by their blocks, objects by what is
shown of them.  `depth` bounds how deep lists are followed. -/
def freeze (s : Session) : Nat → Value → Value
  | 0, v => v
  | depth + 1, v => v.expand fun
      | .list cell => .listed ((s.listItems cell).map (s.freeze depth))
      | .region op index => .blocks (s.regionBlocks op index)
      | .object id => ((s.objects[id]?).getD default).shown
      | v => v

def isCallable (s : Session) : Value → Bool
  | .ref _ | .named _ => true
  | .object id =>
    match (s.objects[id]?).getD default with
    | .scripted .. | .sourced .. | .bound .. | .decorator .. | .pendingInsertion _ | .lazySequence _
    | .lazyFunction .. | .declared .. | .entryPoint .. | .cls .. | .traced _ => true
    | _ => false
  | _ => false

def frozen (s : Session) (v : Value) : Value := s.freeze (s.lists.length + 1) v

def attributeTable (s : Session) : List (Nat × List (String × Value)) :=
  s.ops.zipIdx.filterMap fun (o, i) =>
    if o.attributes.isEmpty then none else some (i, o.attributes.map fun (k, v) => (k, s.frozen v))

end Session

end Polyloom
