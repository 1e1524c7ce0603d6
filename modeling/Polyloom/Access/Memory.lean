import Polyloom.Access.Apply
import Polyloom.Constraint.Row

/-!
Loads and stores in loop nests, and the constraints that relate loop variables to memory
elements.
-/

namespace Polyloom

inductive AccessKind where
  | load
  | store
  | other
  deriving DecidableEq, Repr, Inhabited

/-- A bound of a loop variable by its kind; a bound may be unknown. -/
structure LoopBound where
  kind : String
  value : Option Int
  deriving DecidableEq, Repr, Inhabited

structure MemoryOp where
  kind : AccessKind
  memref : String
  /-- The enclosing loop variables, outermost first. -/
  loops : List String
  applications : List Application
  indices : List String
  dims : List String
  bounds : List (String × List LoopBound)
  deriving Repr, Inhabited

inductive IndexSource where
  | application (a : Apply)
  | loop
  deriving Repr, Inhabited

structure Access where
  kind : AccessKind
  memref : String
  loops : List String
  operands : List (String × IndexSource)
  /-- The names that index maps take as symbols, without repetition. -/
  symbolic : List String
  bounds : List (String × List LoopBound)
  relations : List Proposition
  constraints : List Constraint
  deriving Repr, Inhabited

def setEntry {β : Type} (key : String) (value : β) : List (String × β) → List (String × β)
  | [] => [(key, value)]
  | (k, v) :: rest => if k = key then (k, value) :: rest else (k, v) :: setEntry key value rest

def accessConstraints (relations : List Proposition) : Except Fault (List Constraint) := do
  if relations.isEmpty then throw (.assertion "")
  relations.mapM Proposition.toConstraint

namespace MemoryOp

def application? (op : MemoryOp) (value : String) : Option Application :=
  op.applications.find? fun a => a.result = value

def namedBounds : List (String × List LoopBound) → List (String × List LoopBound) →
    Named (List (String × List LoopBound))
  | [], acc => return acc
  | (iv, bounds) :: rest, acc => do
    namedBounds rest (setEntry (← Named.nameOf iv) bounds acc)

def sources (op : MemoryOp) : List String → List (String × IndexSource) → List String →
    Named (List (String × IndexSource) × List String)
  | [], acc, symbolic => return (acc, symbolic)
  | v :: rest, acc, symbolic => do
    let name ← Named.nameOf v
    match op.application? v with
    | some a => do
      let apply ← a.analyze
      op.sources rest (setEntry name (.application apply) acc)
        (symbolic ++ apply.symbols.map MapInput.operand)
    | none =>
      if v ∈ op.loops then op.sources rest (setEntry name .loop acc) symbolic
      else throw (.unsupported ("unknown idx operand " ++ v))

def dimensions (operands : List (String × IndexSource)) : List String → Named (List IndexSource)
  | [] => return []
  | v :: rest => do
    match operands.lookup (← Named.nameOf v) with
    | some s => return s :: (← dimensions operands rest)
    | none => throw .noKey

def dimensionRelations (memref : String) : Nat → List IndexSource → Named (List Proposition)
  | _, [] => return []
  | i, s :: rest => do
    let name ← Named.nameOf memref
    match s with
    | .application a =>
      let p := Proposition.ofEquation (.sym (name ++ "_dim_" ++ i.repr)) (.sym a.result)
      return p :: (← dimensionRelations memref (i + 1) rest)
    | .loop => throw .noAttribute

def boundRelation (iv : String) (b : LoopBound) : Except Fault (List Proposition) :=
  match b.kind, b.value with
  | "LB", some n => .ok [.compare .le (Term.int n) (.sym iv)]
  | "UB", some n => .ok [.compare .le (.sym iv) (Term.int n)]
  | "LB", none | "UB", none => .error .wrongKind
  | "EQ", some n => .ok [.compare .eq (Term.int n) (.sym iv)]
  | "EQ", none => .ok []
  | kind, _ => .error (.refused ("unknown bound type: " ++ kind))

def boundRelations : List (String × List LoopBound) → Except Fault (List Proposition)
  | [] => .ok []
  | (iv, bounds) :: rest => do
    let ps ← bounds.mapM (boundRelation iv)
    return ps.flatten ++ (← boundRelations rest)

def access (op : MemoryOp) : Named Access := do
  let bounds ← namedBounds op.bounds []
  let (operands, symbolic) ← op.sources op.indices [] []
  let dims ← dimensions operands op.dims
  let dimRelations ← dimensionRelations op.memref 0 dims
  let applyRelations := operands.filterMap fun (_, s) => match s with
    | .application a => some a.relation
    | .loop => none
  let relations := dimRelations ++ applyRelations ++ (← Named.lift (boundRelations bounds))
  let constraints ← Named.lift (accessConstraints relations)
  return {
    kind := op.kind, memref := op.memref, loops := op.loops,
      operands, bounds, relations, constraints
    symbolic := symbolic.eraseDups }

def analyze (op : MemoryOp) : Named Access :=
  match op.kind with
  | .other => throw (.unsupported "")
  | _ => op.access

def analyzeAs (kind : AccessKind) (op : MemoryOp) : Named Access :=
  if op.kind = kind then op.access else throw (.assertion "")

end MemoryOp

end Polyloom
