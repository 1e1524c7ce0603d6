import Polyloom.Ir.Build

/-!
Procedures: what a script can call by a path.

Most have a fixed list of parameters.  Some take what they get, and decorators wait for the
function that they decorate unless they get it at once.
-/

namespace Polyloom

inductive Procedure where
  | fixed (params : List Param) (run : Caller → List Value → Build Value)
  | free (run : Caller → CallArgs Value → Build Value)
  | decorator (run : Caller → CallArgs Value → Build Value)

namespace Procedure

open Build

/-! ## Writing procedures -/

def done (step : Build Unit) : Build Value := do
  step
  return .none

def of0 (step : Build Value) : Procedure := .fixed [] fun _ _ => step

def of1 (a : Param) (f : Value → Build Value) : Procedure :=
  .fixed [a] fun _ vs => match vs with
    | [x] => f x
    | _ => throw .wrongKind

def of2 (a b : Param) (f : Value → Value → Build Value) : Procedure :=
  .fixed [a, b] fun _ vs => match vs with
    | [x, y] => f x y
    | _ => throw .wrongKind

def of3 (a b c : Param) (f : Value → Value → Value → Build Value) : Procedure :=
  .fixed [a, b, c] fun _ vs => match vs with
    | [x, y, z] => f x y z
    | _ => throw .wrongKind

def of4 (a b c d : Param) (f : Value → Value → Value → Value → Build Value) : Procedure :=
  .fixed [a, b, c, d] fun _ vs => match vs with
    | [x, y, z, w] => f x y z w
    | _ => throw .wrongKind

def named (params : List Param) (f : List (String × Value) → Build Value) : Procedure :=
  .fixed params fun _ vs => f ((params.map Param.name).zip vs)

/-- The procedure also takes a location and an insertion point, which change nothing here. -/
def located : Procedure → Procedure
  | .fixed params run =>
    .fixed (params ++ [.keyword "loc", .keyword "ip"]) fun call vs =>
      run call (vs.take params.length)
  | p => p

/-! ## Calling -/

def run (p : Procedure) (call : Caller) (args : CallArgs Value) : Build Value := do
  match p with
  | .fixed params run => run call (← settle (bindParams params args))
  | .free run | .decorator run => run call args

/-- Call a procedure by its path.  A decorator that has only arguments so far is an object that
waits for its function. -/
def apply (p : Procedure) (path : String) (call : Caller)
    (args : CallArgs Value) : Build Value := do
  match p with
  | .decorator run =>
    if args.isBare (← get).isCallable then run call args
    else newObject (.decorator path args)
  | p => p.run call args

end Procedure

end Polyloom
