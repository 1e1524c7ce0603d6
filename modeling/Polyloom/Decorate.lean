/-!
A decorator that may be used with or without arguments.

Used bare, it is called with the function it decorates and nothing else.  Used with
arguments, it first returns a decorator, which later gets the function and puts it in front
of those arguments.
-/

namespace Polyloom

structure CallArgs (α : Type) where
  positional : List α
  named : List (String × α)
  deriving DecidableEq, Repr

namespace CallArgs

variable {α : Type}

def isBare (callable : α → Bool) (call : CallArgs α) : Bool :=
  match call.positional, call.named with
  | [f], [] => callable f
  | _, _ => false

/-- The arguments the decorator body finally sees, and whether `target` was needed for it. -/
def decorate (callable : α → Bool) (call : CallArgs α) (target : α) : Bool × CallArgs α :=
  if call.isBare callable then (false, call)
  else (true, { call with positional := target :: call.positional })

end CallArgs

end Polyloom
