import Polyloom.Affine.Numbering

/-!
A session that writes affine expressions, keeps them in variables and builds them against
named states.

Dimensions and symbols exist once per name; every other expression is an object of its own.
-/

namespace Polyloom

/-- What makes two results of a session the same object. -/
inductive Identity where
  | dim (name : String)
  | sym (name : String)
  | object (number : Nat)
  | datum (shown : String)
  deriving DecidableEq, Repr

structure Handle where
  identity : Identity
  operand : AffineOperand
  deriving Repr

inductive AffineWritten where
  | datum (d : Datum)
  | var (name : String)
  | dim (name : String)
  | sym (name : String)
  | const (d : Datum)
  | coerce (e : AffineWritten)
  | bare
  | binary (op : AffineOperator) (lhs rhs : AffineWritten)
  deriving Repr, Inhabited

structure AffineSession where
  objects : Nat := 0
  vars : List (String × Handle) := []
  scopes : List AffineScope := []
  states : List (String × Nat × AffineBuild) := []
  deriving Repr, Inhabited

/-- A step of a session; what it did before a fault stays done. -/
abbrev AffineStep (α : Type) := ExceptT Fault (StateM AffineSession) α

namespace AffineSession

def fresh (e : AffineDef) : AffineStep Handle := do
  let s ← get
  set { s with objects := s.objects + 1 }
  return ⟨.object s.objects, .expr e⟩

def handleOf : AffineOperand → AffineStep Handle
  | .plain d => return ⟨.datum d.display, .plain d⟩
  | .expr (.dim s) => return ⟨.dim s, .expr (.dim s)⟩
  | .expr (.sym s) => return ⟨.sym s, .expr (.sym s)⟩
  | .expr e => fresh e

def evaluate : AffineWritten → AffineStep Handle
  | .datum d => handleOf (.plain d)
  | .var s => do
    match (← get).vars.lookup s with
    | some h => return h
    | none => throw .noKey
  | .dim s => handleOf (.expr (.dim s))
  | .sym s => handleOf (.expr (.sym s))
  | .const d => do
    match AffineOperand.coerce (.plain d) with
    | .ok e => fresh e
    | .error fault => throw fault
  | .bare => fresh .bare
  | .coerce w => do
    let h ← evaluate w
    match h.operand with
    | .expr _ => return h
    | .plain d => match AffineOperand.coerce (.plain d) with
        | .ok e => fresh e
        | .error fault => throw fault
  | .binary op l r => do
    let a ← evaluate l
    let b ← evaluate r
    match AffineOperand.apply op a.operand b.operand with
    | .ok result => handleOf result
    | .error fault => throw fault

def text (h : Handle) : String :=
  match h.operand with
  | .plain d => d.display
  | .expr e => e.text

def define (name : String) (w : AffineWritten) : AffineStep String := do
  let h ← evaluate w
  modify fun s => { s with vars := Table.put name h s.vars }
  return text h

def newState (name : String) (scopeOf : Option String) (allowNewDims allowNewSymbols : Bool) :
    AffineStep Unit := do
  let s ← get
  let build : AffineBuild := { allowNewDims, allowNewSymbols }
  match scopeOf with
  | none =>
    set { s with
      scopes := s.scopes ++ [default]
      states := Table.put name (s.scopes.length, build) s.states }
  | some other =>
    match s.states.lookup other with
    | some (scope, _) => set { s with states := Table.put name (scope, build) s.states }
    | none => throw .noKey

def stateOf (name : String) : AffineStep (Nat × AffineScope × AffineBuild) := do
  let s ← get
  match s.states.lookup name with
  | some (scope, build) => return (scope, (s.scopes[scope]?).getD default, build)
  | none => throw .noKey

def numbered {α : Type} (name : String) (action : Numbered α) : AffineStep α := do
  let (index, scope, build) ← stateOf name
  let (result, scope, build) := action.run.run (scope, build)
  modify fun s => { s with
    scopes := s.scopes.set index scope
    states := Table.put name (index, build) s.states }
  match result with
  | .ok a => return a
  | .error fault => throw fault

def expression (w : AffineWritten) (otherwise : Fault) : AffineStep AffineDef := do
  match (← evaluate w).operand with
  | .expr e => return e
  | .plain _ => throw otherwise

def build (w : AffineWritten) : Option String → AffineStep AffineExpr
  | some name => do
    let e ← expression w .noAttribute
    numbered name e.build
  | none => do
    let e ← expression w .noAttribute
    match (e.build.run.run ({}, {})).1 with
    | .ok built => return built
    | .error fault => throw fault

def visit (w : AffineWritten) : AffineStep (List String) := do
  return (← expression w .noAttribute).parts.map AffineDef.text

def same (a b : AffineWritten) : AffineStep Bool := do
  let x ← evaluate a
  let y ← evaluate b
  return x.identity = y.identity

def applied (w : AffineWritten) : AffineStep AffineMap := do
  match (← expression w .wrongKind).toMap with
  | .ok map => return map
  | .error fault => throw fault

end AffineSession

end Polyloom
