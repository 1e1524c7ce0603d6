import Polyloom.Builder.Arith
import Polyloom.Ir.Definitions.Affine

/-!
Loops and branches that are opened by one call and closed by another.

Opening makes the operation and enters its body.  Closing adds the terminator and leaves the
point that was made last for the kind of construct; what is closed is the innermost point.
-/

namespace Polyloom

namespace ControlFlow

open Build

/-! ## Opening and closing -/

def openAt (construct : Construct) (block : Nat) : Build Unit := do
  let p ← newPoint block
  modify fun s => { s with lastPoints := Table.put construct p s.lastPoints }
  enter p

def closeLast (construct : Construct) : Build Unit := do
  match (← get).lastPoints.lookup construct with
  | some p => leave p
  | none => throw .noAttribute

def scfYield : Build Unit := do
  let _ ← native "scf" "YieldOp" [.listed []]

/-! ## Branches -/

def isArith : Value → Bool
  | .ssa _ _ .arith => true
  | _ => false

def openIf (condition : Value) : Build Value := do
  require (isArith condition) ""
  let made ← ifOp condition false
  let id ← opId made
  modify fun s => { s with openIfs := id :: s.openIfs }
  openAt .branch (← blockAt id 0 0)
  return .bool true

def addElse (id : Nat) : Build Nat := do
  let _ ← appendBlock id 1 []
  blockAt id 1 0

def openElse : Build Value := do
  match (← get).openIfs with
  | [] => throw .outOfRange
  | id :: _ =>
    openAt .branch (← addElse id)
    return .bool true

def closePart : Build Value := do
  scfYield
  closeLast .branch
  return .none

def closeIf : Build Value := do
  match (← get).openIfs with
  | [] => throw .outOfRange
  | _ :: outer =>
    modify fun s => { s with openIfs := outer }
    return .none

/-! ## Loops with a step -/

def bounds (start stop : Value) : Value × Value :=
  if stop.isNone then (.int 0, start) else (start, stop)

def indexValue (v : Value) : Build Value := if v.isInt then Arith.indexConstant v else return v

def openLoop (start stop step : Value) : Build Value := do
  let (start, stop) := bounds start stop
  let start ← indexValue start
  let stop ← indexValue stop
  let step ← indexValue step
  let made ← forOp start stop step []
  let body ← blockAt (← opId made) 0 0
  openAt .loop body
  newList (← castAll .arith ((← blockArgs body).take 1))

def closeLoop : Build Value := do
  scfYield
  closeLast .loop
  return .none

/-! ## Parallel loops -/

def convertItems (v : Value) : List Value → Nat → Build Unit
  | [], _ => return ()
  | a :: rest, i => do
    if a.isInt then
      let c ← Arith.indexConstant a
      match v with
      | .list cell => setList cell (((← get).listItems cell).set i c)
      | _ => throw .wrongKind
    convertItems v rest (i + 1)

def convertInPlace (v : Value) : Build Unit := do convertItems v (← items v) 0

def parallelKind : OpKind :=
  { name := "scf.parallel", cls := "scf.ParallelOp", regions := 1,
    segments := some (List.replicate 4 .variadic) }

def sameLengths (a b c : Value) : Build Bool := do
  let n ← length a
  if n ≠ (← length b) then return false
  return n = (← length c)

def parallelOp (lowers uppers steps : Value) : Build Value := do
  require (← sameLengths lowers uppers steps) ""
  let n ← length lowers
  let groups ← [lowers, uppers, steps].mapM fun v => return .listed (← asValues v)
  let made ← generic parallelKind (groups ++ [.listed []]) [] []
  let _ ← appendBlock (← opId made) 0 (List.replicate n "index")
  return made

def openParallel (starts stops steps : Value) : Build Value := do
  require ((← length starts) = (← length stops)) ""
  let steps ← if steps.isNone then newList (List.replicate (← length starts) (.int 1))
    else pure steps
  convertInPlace starts
  convertInPlace stops
  convertInPlace steps
  let made ← parallelOp starts stops steps
  let body ← blockAt (← opId made) 0 0
  openAt .parallelLoop body
  newList [.tuple (← castAll .arith (← blockArgs body))]

def closeParallel : Build Value := do
  scfYield
  closeLast .parallelLoop
  return .none

/-! ## Loops over all -/

def forallKind : OpKind :=
  { name := "scf.forall", cls := "scf.ForallOp", regions := 1,
    segments := some (List.replicate 4 .variadic) }

def inParallelKind : OpKind :=
  { name := "scf.forall.in_parallel", cls := "scf.InParallelOp", regions := 1 }

def forallOp (lowers uppers steps outs : Value) : Build Value := do
  require (← sameLengths lowers uppers steps) ""
  let results ← (← items outs).mapM memberType
  let n ← length lowers
  let bound (v : Value) := AttributeBuilder.denseInts v .none
  let attributes :=
    [("staticLowerBound", ← bound lowers), ("staticUpperBound", ← bound uppers),
     ("staticStep", ← bound steps)]
  let shared ← asValues outs
  let made ← generic forallKind [.listed [], .listed [], .listed [], .listed shared]
    attributes results
  let _ ← appendBlock (← opId made) 0 (List.replicate n "index" ++ (← typeTexts results))
  return made

def inParallelOp : Build Value := do
  let made ← generic inParallelKind [] [] []
  let _ ← appendBlock (← opId made) 0 []
  return made

/-- Build a loop over all points.  The body gets the indices and the shared results, and
returns what is to be done with its results in parallel. -/
def forall' (body : List Value → List Value → Build (Build Unit))
    (lowers uppers steps outs : Value) : Build Unit := do
  let (lowers, uppers) ← if uppers.isNone then do
      pure (← newList (List.replicate (← length lowers) (.int 0)), lowers)
    else pure (lowers, uppers)
  let steps ← if steps.isNone then newList (List.replicate (← length uppers) (.int 1))
    else pure steps
  let outs ← if outs.isNone then newList [] else pure outs
  let lowers ← newList (← items lowers)
  let uppers ← newList (← items uppers)
  let steps ← newList (← items steps)
  let outs ← newList (← items outs)
  let made ← forallOp lowers uppers steps outs
  let block ← blockAt (← opId made) 0 0
  within block do
    let args ← blockArgs block
    let n ← length lowers
    let indices ← castAll .arith (args.take n)
    let shared := args.drop n
    require (shared.length = (← length outs)) ""
    let finish ← body indices shared
    let inner ← inParallelOp
    within (← blockAt (← opId inner) 0 0) finish

/-! ## Affine loops -/

def affineForKind : OpKind := { name := "affine.for", cls := "affine.AffineForOp", regions := 1 }

def constantMap (v : Value) : Build Value :=
  match v.int? with
  | some n => return .attribute "AffineMapAttr" (.map ("() -> (" ++ n.repr ++ ")"))
  | none => throw .rejected

def affineForOp (lower upper step : Value) : Build Value := do
  let attributes :=
    [("lower_bound", ← constantMap lower), ("upper_bound", ← constantMap upper),
     ("step", Value.attribute "IntegerAttr" (.listed [.type "i64", step]))]
  let made ← generic affineForKind [] attributes []
  let _ ← appendBlock (← opId made) 0 ["index"]
  return made

def openAffine (start stop step : Value) : Build Value := do
  let (start, stop) := bounds start stop
  let made ← affineForOp start stop step
  let body ← blockAt (← opId made) 0 0
  openAt .affineLoop body
  newList (← castAll .arith (← blockArgs body))

def closeAffine : Build Value := do
  let _ ← OpDefinition.affineYield.build [("operands_", .listed [])]
  closeLast .affineLoop
  return .none

end ControlFlow

end Polyloom
