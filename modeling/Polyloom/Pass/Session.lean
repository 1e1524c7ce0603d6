import Polyloom.Pass.Pipeline

/-!
Named pipelines that may share their list of passes.

A pipeline made from another one's list sees the passes that are later added through either
of them.  Adding two pipelines makes a new list; adding in place extends the shared one.
-/

namespace Polyloom

/-- A pipeline whose list of passes is kept by number. -/
structure SharedPipeline where
  list : Nat
  wrapper : Datum
  deriving Repr, Inhabited

structure PipelineSession where
  lists : List (List String) := [[]]
  pipelines : List (String × SharedPipeline) := [("p", ⟨0, .null⟩)]
  deriving Repr, Inhabited

abbrev PipelineStep (α : Type) := ExceptT Fault (StateM PipelineSession) α

namespace PipelineSession

def passesOf (s : PipelineSession) (p : SharedPipeline) : List String := (s.lists[p.list]?).getD []

def view (s : PipelineSession) (p : SharedPipeline) : Pipeline := ⟨s.passesOf p, p.wrapper⟩

def find (name : String) : PipelineStep SharedPipeline := do
  match (← get).pipelines.lookup name with
  | some p => return p
  | none => throw .noKey

def pipeline (name : String) : PipelineStep Pipeline := do
  let p ← find name
  return (← get).view p

def create (name : String) (passes : List String) (wrapper : Datum) : PipelineStep Unit :=
  modify fun s => { s with
    lists := s.lists ++ [passes]
    pipelines := Table.put name ⟨s.lists.length, wrapper⟩ s.pipelines }

def share (name other : String) (wrapper : Datum) : PipelineStep Unit := do
  let p ← find other
  modify fun s => { s with pipelines := Table.put name ⟨p.list, wrapper⟩ s.pipelines }

def add (name a b : String) : PipelineStep Unit := do
  create name ((← pipeline a).passes ++ (← pipeline b).passes) .null

def addInPlace (name b : String) : PipelineStep Unit := do
  let p ← find name
  let more := (← pipeline b).passes
  modify fun s => { s with lists := s.lists.modify p.list (· ++ more) }

structure CallOutcome where
  added : List String
  result : Except Fault Bool

def invoke (name call : String) (args : CallArgs Datum) : PipelineStep CallOutcome := do
  let p ← find name
  let before := (← get).view p
  let (result, after) := (Pipeline.invoke call args).run.run before
  modify fun s => { s with
    lists := s.lists.set p.list after.passes
    pipelines := Table.put name ⟨p.list, after.wrapper⟩ s.pipelines }
  return ⟨after.passes.drop before.passes.length, result⟩

end PipelineSession

end Polyloom
