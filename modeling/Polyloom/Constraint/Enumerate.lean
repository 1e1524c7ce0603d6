import Polyloom.Constraint.Optimum

/-!
Enumerating the models of constraints.

The solver holds a stack of assertions.  After a model is found, the remaining solutions are
split by the first term in which they differ from it: for each term in turn, the solver is
asked for models where this term differs and the terms before it agree.  An enumeration rests
between two models, so that only as many are looked for as are asked for.
-/

namespace Polyloom

abbrev AssertionStack := List (List Constraint)

namespace AssertionStack

def ofList (cs : List Constraint) : AssertionStack := [cs]

def assertions (s : AssertionStack) : List Constraint := s.reverse.flatten

def push (s : AssertionStack) : AssertionStack := [] :: s

def pop (s : AssertionStack) : AssertionStack := s.tail

def assert (c : Constraint) : AssertionStack → AssertionStack
  | [] => [[c]]
  | level :: rest => (level ++ [c]) :: rest

def assertAll (cs : List Constraint) (s : AssertionStack) : AssertionStack :=
  cs.foldl (fun s c => s.assert c) s

end AssertionStack

/-- What is asserted to find models that first differ from `m` in the term after `fixed`. -/
def splitting (m : Model) (fixed : List IntTerm) (t : IntTerm) : List Constraint :=
  .differs t (t.eval m.value) :: fixed.map fun u => .equals u (u.eval m.value)

inductive EnumerationTask where
  | enter (cs : List Constraint)
  /-- Yield a model, if there is one, and after it those that differ from it in some term. -/
  | models (terms : List IntTerm)
  | leave
  deriving DecidableEq, Repr

/-- What is left to do once `m` was yielded: the other models, by the first term after `fixed`
in which they differ from it. -/
def otherModels (m : Model) (fixed : List IntTerm) : List IntTerm → List EnumerationTask
  | [] => []
  | t :: rest =>
    .enter (splitting m fixed t) :: .models (t :: rest) :: .leave
      :: otherModels m (fixed ++ [t]) rest

/-- An enumeration at rest: the solver with its assertions and the number of its checks, and
what is left to do. -/
structure Enumeration where
  stack : AssertionStack
  checks : Nat
  tasks : List EnumerationTask
  deriving DecidableEq, Repr

namespace Enumeration

def start (terms : List IntTerm) (stack : AssertionStack) : Enumeration :=
  ⟨stack, 0, [.models terms]⟩

def advance (solver : IncrementalSolver) :
    List EnumerationTask → AssertionStack → Nat → Option Model × Enumeration
  | [], stack, checks => (none, ⟨stack, checks, []⟩)
  | .enter cs :: tasks, stack, checks =>
    advance solver tasks (AssertionStack.assertAll cs (AssertionStack.push stack)) checks
  | .leave :: tasks, stack, checks => advance solver tasks (AssertionStack.pop stack) checks
  | .models terms :: tasks, stack, checks =>
    match solver.check checks (AssertionStack.assertions stack) with
    | none => advance solver tasks stack (checks + 1)
    | some m => (some m, ⟨stack, checks + 1, otherModels m [] terms ++ tasks⟩)

def next (solver : IncrementalSolver) (e : Enumeration) : Option Model × Enumeration :=
  advance solver e.tasks e.stack e.checks

def take (solver : IncrementalSolver) : Nat → Enumeration → List Model × Enumeration
  | 0, e => ([], e)
  | n + 1, e =>
    match e.next solver with
    | (none, e) => ([], e)
    | (some m, e) =>
      let later := take solver n e
      (m :: later.1, later.2)

end Enumeration

def enumerate (solver : IncrementalSolver) (wanted : Nat) (terms : List IntTerm)
    (cs : List Constraint) : List Model :=
  ((Enumeration.start terms (.ofList cs)).take solver wanted).1

inductive Optimum where
  | none
  | one (m : Model)
  | several (ms : List Model)
  deriving DecidableEq, Repr, Inhabited

def Optimum.model? : Optimum → Option Model
  | .one m => some m
  | _ => Option.none

/-- Optimal models: one model for the limit one, otherwise up to one more than the limit, in the
order of their texts. -/
def optimize (solver : IncrementalSolver) (limit : Int) (names : List String)
    (cs : List Constraint) : Optimum :=
  let wanted := if limit = 1 then 1 else (max limit 0).toNat + 1
  match (enumerate solver wanted (names.map .var) cs).map Model.byName with
  | [] => .none
  | m :: rest =>
    if limit = 1 then .one m
    else .several ((m :: rest).mergeSort fun a b => a.text ≤ b.text)

end Polyloom
