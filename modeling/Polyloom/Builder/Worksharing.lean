import Polyloom.Builder.ControlFlow
import Polyloom.Ir.Definitions.Omp

/-!
Parallel sections of threads, and the loops that they share.
-/

namespace Polyloom.Worksharing

open Build

def i32Constant (v : Value) : Build Value := Arith.constant v (.type "i32")

/-! ## Parallel sections -/

def parallelOp (threads : Value) : Build Value := do
  let threads ← if threads.isInt then i32Constant threads else pure threads
  let made ← ({ OpDefinition.ompParallel with cls := "omp.ParallelOp" }).build
    [("allocate_vars", .listed []), ("allocators_vars", .listed []), ("reduction_vars", .listed []),
     ("num_threads_var", threads)]
  let _ ← appendBlock (← opId made) 0 []
  return made

def openParallel (threads : Value) : Build InsertionPoint := do
  let made ← parallelOp threads
  let p ← newPoint (← blockAt (← opId made) 0 0)
  enter p
  return p

/-- Close a parallel section; its point is left even if the end cannot be marked. -/
def closeParallel (p : InsertionPoint) : Build Unit := do
  let outcome ← attempt (OpDefinition.ompTerminator.build [])
  leave p
  let _ ← settle outcome

/-! ## Loops -/

/-- Bounds as values: all are made constants if the first is an integer. -/
def boundValues (v : Value) : Build Value := do
  match v with
  | .dict _ => throw .noKey
  | v =>
    let vs ← items v
    match vs with
    | [] => throw .outOfRange
    | first :: _ => if first.isInt then return .listed (← vs.mapM i32Constant) else return v

/-- A loop whose iterations are shared.  Its body has one argument. -/
def loopOp (lowers uppers steps : Value) : Build Value := do
  let n ← length lowers
  require (n = (← length uppers)) ""
  let steps ← if steps.isNone then pure (Value.listed (List.replicate n (.int 1)))
    else do
      require ((← length steps) = n) ""
      pure steps
  let lowers ← boundValues lowers
  let uppers ← boundValues uppers
  let steps ← boundValues steps
  let made ← ({ OpDefinition.ompLoop with cls := "omp.WsLoopOp" }).build
    [("lowerBound", lowers), ("upperBound", uppers), ("step", steps), ("linear_vars", .listed []),
     ("linear_step_vars", .listed []), ("reduction_vars", .listed [])]
  let _ ← appendBlock (← opId made) 0 ["i32"]
  return made

def openLoop (start stop step : Value) : Build Value := do
  let made ← loopOp (.listed [start]) (.listed [stop]) (.listed [step])
  let body ← blockAt (← opId made) 0 0
  ControlFlow.openAt .worksharingLoop body
  newList ((← blockArgs body).take 1)

def closeLoop : Build Value := do
  let _ ← OpDefinition.ompYield.build [("results_", .listed [])]
  ControlFlow.closeLast .worksharingLoop
  return .none

end Polyloom.Worksharing
