import Polyloom.Builder.Worksharing
import Polyloom.Script.Procedure

/-!
Procedures for loops, branches and parallel sections.
-/

namespace Polyloom.Library

open Build Procedure

def start : Param := .required "start"

def step : Param := .optional "step" (.int 1)

def lowerBounds : Param := .required "lower_bounds"

def upperBounds : Param := .required "upper_bounds"

def forallProcedure : Procedure :=
  .decorator fun call args => do
    let params : List Param :=
      ["f", lowerBounds, .optional "upper_bounds", .optional "steps", .optional "shared_outs"]
    match ← settle (bindParams params args) with
    | [f, lowers, uppers, steps, outs] =>
      let body (indices shared : List Value) : Build (Build Unit) := do
        let finish ← call f ⟨[], [("ivs", .listed indices), ("shared_outs", .listed shared)]⟩
        return do
          let _ ← call finish ⟨[], []⟩
      done (ControlFlow.forall' body lowers uppers steps outs)
    | _ => throw .wrongKind

def loopProcedures : List (String × Procedure) :=
  [("scf.IfOp", located (of1 "cond" fun v => ifOp v false)),
   ("scf.scf_if", of1 "cond" ControlFlow.openIf),
   ("scf.scf_else", of0 ControlFlow.openElse),
   ("scf.scf_endif_branch", of0 ControlFlow.closePart),
   ("scf.scf_endif", of0 ControlFlow.closeIf),
   ("scf.scf_range", of3 start (.optional "stop") step ControlFlow.openLoop),
   ("scf.end_for", of0 ControlFlow.closeLoop),
   ("scf.ParallelOp", located (of3 lowerBounds upperBounds "steps" ControlFlow.parallelOp)),
   ("scf.par_range",
     of3 "starts" "stops" (.optional "steps") ControlFlow.openParallel),
   ("scf.end_parfor", of0 ControlFlow.closeParallel),
   ("scf.ForallOp",
     located (of4 lowerBounds upperBounds "steps" (.optional "shared_outs") ControlFlow.forallOp)),
   ("scf.InParallelOp", located (of0 ControlFlow.inParallelOp)),
   ("scf.forall", forallProcedure),
   ("affine.AffineForOp",
     located (of3 "lower_bound" "upper_bound" "step"
       ControlFlow.affineForOp)),
   ("affine.affine_range", of3 start (.optional "stop") step ControlFlow.openAffine),
   ("affine.end_for", of0 ControlFlow.closeAffine),
   ("omp.ParallelOp", located (of1 (.optional "num_threads") Worksharing.parallelOp)),
   ("omp.parallel", of1 (.optional "num_threads") fun n =>
     newObject (.scope (.parallel n) .fresh [])),
   ("omp.WsLoopOp", located (of3 lowerBounds upperBounds (.optional "steps") Worksharing.loopOp)),
   ("omp.ws_loop", of3 start "stop" step Worksharing.openLoop),
   ("omp.end_for", of0 Worksharing.closeLoop)]

end Polyloom.Library
