import Polyloom.Builder.Launch
import Polyloom.Ir.Reader
import Polyloom.Source.Closing

/-!
Functions that become function operations.

The body of a function is run once with the arguments of its first block.  Whatever it builds
goes into that block, and the type of the operation follows from what it returns.
-/

namespace Polyloom.Function

open Build

/-! ## Signatures -/

structure Signature where
  name : String
  params : List (String × Value)

def missing : Value := .ref "missing"

def paramNames (f : SourceTree) : List String :=
  ((f.field "args").field "args").items.map fun p => (p.field "arg").text

def nameOf (f : SourceTree) : String := (f.field "name").text

/-- The signature of an object.  A bound function does not show the parameter that is taken. -/
def signatureOf : Object → Build Signature
  | .scripted name params _ _ => return ⟨name, params.map fun (p, annot) => (p, annot.getD missing)⟩
  | .sourced tree annots _ _ _ =>
    return ⟨nameOf tree, (paramNames tree).map fun p => (p, (annots.lookup p).getD missing)⟩
  | _ => throw .wrongKind

def signature (f : Value) : Build Signature := do
  match f with
  | .object id =>
    match ← object id with
    | .bound (.object inner) _ =>
      let s ← signatureOf (← object inner)
      return ⟨s.name, s.params.drop 1⟩
    | o => signatureOf o
  | _ => throw .wrongKind

def isAnnot : Value → Bool
  | .type _ | .annot _ _ => true
  | _ => false

def annotsOf (s : Signature) : Build (List Value) := do
  let params ← if s.params.any fun (p, _) => p = "self" then
      match s.params with
      | ("self", _) :: rest => pure rest
      | _ => throw (.assertion "")
    else pure s.params
  let annots := params.map Prod.snd
  if annots.all isAnnot then return annots
  throw (.assertion ("wrong func args " ++ (← now (.listed annots)).display))

def annotType : Value → Value
  | .annot _ t => t
  | v => v

/-! ## Holding values -/

def holders : List View := [.rankedAffine, .memref, .tensor]

/-- A value held as its annotation says.  Only buffers and tensors look at it. -/
def hold (annot v : Value) : Build Value := do
  match TypeText.classOf (← typeOf v) with
  | .memref | .tensor =>
    match annot with
    | .annot holder _ =>
      let view? := match holder with
        | .ref path => (View.ofPath? path).filter holders.contains
        | _ => none
      match view? with
      | some view => cast view v
      | none =>
        if holder.isMutable then throw .wrongKind
        throw (.failure ("unknown annotation: " ++ (← now holder).display))
    | _ => throw .noAttribute
  | _ => cast .arith v

def holdAll : List Value → List Value → Build (List Value)
  | annot :: annots, v :: vs => do
    let w ← hold annot v
    return w :: (← holdAll annots vs)
  | _, vs => return vs

/-! ## Building -/

def returned (v : Value) : Build (List Value) := do
  match v with
  | .none => return []
  | .tuple vs => return vs
  | .ssa id t view => return [.ssa id t view]
  | .op id _ => return (← op id).results.map TypedId.value
  | v => items v

def returnedType : Value → Build Value
  | .op id cls => OpReader.read cls id "type"
  | v => memberType v

def setAttributes (id : Nat) (attributes : Value) : Build Unit := do
  match attributes with
  | .dict entries =>
    for (k, v) in entries do
      setAttribute id k.text (if v.isNone then AttributeBuilder.unit else v)
  | _ => throw .noAttribute

def addEntry : Value → Build Nat
  | .op id "func.FuncOp" | .op id "gpu.FuncOp" => OpReader.addEntryBlock id
  | _ => throw .noAttribute

/-- How a function operation comes about: made from its name and type, and ended by what its
body returned. -/
structure Shape where
  make : String → Value → Build Value
  finish : List Value → Build Unit

def buildOp (shape : Shape) (name : String) (annots : List Value) (attributes : Value)
    (body : List Value → Build Value) : Build Value := do
  let inputs ← typeTexts (annots.map annotType)
  let made ← shape.make name (.type (TypeText.function inputs []))
  setAttributes (← opId made) attributes
  let entry ← addEntry made
  let results ← within entry do
    let args ← holdAll annots (← blockArgs entry)
    let results ← returned (← body args)
    shape.finish results
    return results
  let types ← typeTexts (← results.mapM returnedType)
  setAttribute (← opId made) "function_type"
    (.attribute "TypeAttr" (.type (TypeText.function inputs types)))
  return made

def buildTraced (call : Caller) (f : TracedFunction) : Build Value := do
  let shape : Shape :=
    { make := fun name type => call f.ctor ⟨[], [("name", .str name), ("type", type)]⟩
      finish := fun results => do
        let _ ← call f.terminator ⟨[.listed results], []⟩ }
  buildOp shape (← signature f.function).name f.annots f.attributes fun args =>
    call f.function ⟨args, []⟩

def funcOp (call : Caller) (id : Nat) : Build Value := do
  match ← object id with
  | .traced f =>
    match f.funcOp with
    | some made => return made
    | none =>
      let made ← buildTraced call f
      setObject id (.traced { f with funcOp := some made })
      return made
  | _ => throw .noAttribute

def trace (call : Caller) (f : TracedFunction) (build : Value) : Build Value := do
  let annots ← annotsOf (← signature f.function)
  let attributes := if f.attributes.isNone then .dict [] else f.attributes
  let traced : TracedFunction := { f with annots, attributes, funcOp := none }
  if ← truth build then
    let made ← buildTraced call traced
    newObject (.traced { traced with funcOp := some made })
  else newObject (.traced traced)

def traceKernel (call : Caller) (f attributes build qualifier : Value) : Build Value := do
  let traced ← trace call
    ⟨f, [], attributes, .ref "gpu.FuncOp", .ref "core.gpu.ReturnOp", qualifier, true, none⟩ build
  match traced with
  | .object id =>
    setAttribute (← opId (← funcOp call id)) "gpu.kernel" AttributeBuilder.unit
    return traced
  | v => return v

/-! ## Calling -/

def callResults (made : Value) (count : Nat) : Build Value := do
  if count = 1 then result made else return .listed (← results made)

def callTraced (call : Caller) (id : Nat) (args : List Value) : Build Value := do
  let made ← funcOp call id
  let type ← OpReader.functionTypeOf (← opId made)
  callResults (← callOp made [.listed args]) (TypeText.signature type).2.length

def launchTraced (f : TracedFunction) (operands : List Value)
    (grid block : Value) : Build Value := do
  ControlFlow.convertInPlace grid
  ControlFlow.convertInPlace block
  let kernel := Value.listed [f.qualifier, .str (← signature f.function).name]
  result (← Launch.launchFuncOp grid block kernel (.tuple operands) .none .none)

def bodyOf : Value → Build Nat
  | .module id => blockAt id 0 0
  | .op id cls => do
    match ← OpReader.read cls id "body" with
    | .block b => return b
    | _ => throw .rejected
  | _ => throw .noAttribute

/-- Call a function that is only now defined, inside of its container.  Every call defines it
anew. -/
def callLazy (define : Build Value) (callIt : Value → Build Value) (container : Value) :
    Build Value := do
  let f ← within (← bodyOf container) define
  callIt f

def callSymbol (symbol args types : Value) : Build Value := do
  let made ← callOp types [.attribute "FlatSymbolRefAttr" symbol, args]
  if types.isNone then return .none
  callResults made (← length types)

/-! ## Declarations -/

def checkAnnots (what : String) (annots : Value) : Build (List Value) := do
  let vs ← items annots
  if vs.all isAnnot then return vs
  throw (.assertion ("wrong func " ++ what ++ " " ++ (← now annots).display))

def declare (call : Caller) (symbol inputs outputs ctor : Value) : Build Value := do
  let outputs := if outputs.isNone then .listed [] else outputs
  let ins ← checkAnnots "args" inputs
  let outs ← checkAnnots "results" outputs
  let type := Value.type
    (TypeText.function (← typeTexts (ins.map annotType)) (← typeTexts (outs.map annotType)))
  let made ← call ctor ⟨[], [("name", symbol), ("type", type), ("visibility", .str "private")]⟩
  match made with
  | .op id cls => newObject (.declared (← OpReader.read cls id "sym_name").payload outs)
  | _ => throw .noAttribute

def callDeclared (symbol : Value) (annots args : List Value) : Build Value := do
  let types := annots.map annotType
  let made ← callOp (.listed types) [.attribute "FlatSymbolRefAttr" symbol, .tuple args]
  if types.isEmpty then return .none
  match ← holdAll annots (← results made) with
  | [v] => return v
  | vs => return .listed vs

/-! ## Functions from source -/

def loopEndings : List (String × String) :=
  [("affine.affine_range", "end_for"), ("scf.scf_range", "end_for"), ("omp.ws_loop", "end_for"),
   ("scf.par_range", "end_parfor")]

def endingPath (range ending : String) : String :=
  (Text.splitOn range ".").headD "" ++ "." ++ ending

def tracedGlobals (range ending : String) : List (String × Value) :=
  [(ending, .ref (endingPath range ending)), ("range", .ref range),
   (SourceTree.wrapperName, .ref "arith.ArithValue"), (SourceTree.elseName, .ref "scf.scf_else"),
   (SourceTree.testName, .ref "scf.scf_if"),
     (SourceTree.endBranchName, .ref "scf.scf_endif_branch"),
   (SourceTree.endIfName, .ref "scf.scf_endif")]

/-- A function whose loops and branches are closed.  It stands by itself: the variables around
its definition are among its own names. -/
def closeSource (range ending : String) : Object → Build Object
  | .sourced tree annots defaults globals frames => do
    let closed ← settle (SourceTree.trace ending tree)
    let s ← get
    let around := frames.reverse.flatMap fun i => (s.frames[i]?).getD []
    let globals := Table.putAll (Table.putAll globals around) (tracedGlobals range ending)
    return .sourced closed annots defaults globals []
  | _ => throw .wrongKind

def close (f range : Value) : Build Value := do
  match range with
  | .ref path =>
    match loopEndings.lookup path, f with
    | some ending, .object id =>
      match ← object id with
      | .bound (.object inner) self =>
        let closed ← newObject (← closeSource path ending (← object inner))
        newObject (.bound closed self)
      | o => newObject (← closeSource path ending o)
    | some _, _ => throw .wrongKind
    | none, _ => throw (.failure ("unsupported range_ctor=" ++ SourceTree.placeText))
  | v => throw (.failure ("unsupported range_ctor=" ++ (← now v).display))

/-- Define a function: its source is closed unless that is declined, and a constructor makes
the rest.  Code in another form than source cannot be changed. -/
def define (call : Caller) (f closing recoding range ctor : Value)
    (options : List (String × Value)) : Build Value := do
  let range := if range.isNone then .ref "affine.affine_range" else range
  let ctor := if ctor.isNone then .ref "func.MLIRFunc" else ctor
  let closes ← if closing.isNone then pure true else truth closing
  let f ← if closes then close f range else pure f
  let recodes ← if recoding.isNone then pure true else truth recoding
  if recodes then throw (.unsupported "")
  call ctor ⟨[f], options⟩

end Polyloom.Function
