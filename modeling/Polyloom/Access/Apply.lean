import Polyloom.Affine.Expr
import Polyloom.Naming
import Polyloom.Term.Written

/-!
Applications of affine maps, and the relation that one states.

The result of an application equals the first result of its map at its operands: dimensions
stand for the first operands and symbols for those after them.
-/

namespace Polyloom

/-- A computation that asks for the names of values.  Values are told apart by identifiers;
how a value prints is given from outside. -/
abbrev Named (α : Type) := ReaderT (String → String) (ExceptT Fault (StateM (NameTable String))) α

namespace Named

def nameOf (value : String) : Named String := do
  let printed := (← read) value
  let table ← get
  let (name, table) := table.request value printed
  set table
  return name

def namesOf : List String → Named (List String)
  | [] => return []
  | v :: vs => do
    let n ← nameOf v
    return n :: (← namesOf vs)

def lift {α : Type} (r : Except Fault α) : Named α :=
  match r with
  | .ok a => return a
  | .error fault => throw fault

end Named

structure Application where
  operation : String := "affine.apply"
  result : String
  operands : List String
  map : AffineMap
  deriving Repr, Inhabited

structure MapInput where
  name : String
  position : Nat
  operand : String
  deriving DecidableEq, Repr, Inhabited

structure Apply where
  operands : List String
  dims : List MapInput
  symbols : List MapInput
  constants : List Int
  result : String
  expr : Term
  map : Proposition
  relation : Proposition
  deriving Repr, Inhabited

namespace AffineExpr

def dimName (i : Nat) : String := "d" ++ i.repr

def symName (i : Nat) : String := "s" ++ i.repr

def leafText? : AffineExpr → Option String
  | .const n => some n.repr
  | .dim i => some (dimName i)
  | .sym i => some (symName i)
  | _ => none

def combine : AffineOp → Term → Term → Except Fault Term
  | .add, a, b => .ok (Term.add [a, b])
  | .mul, a, b => .ok (Term.mul [a, b])
  | .mod, a, b => Term.modulo a b
  | .floorDiv, a, b => Term.floorDiv a b
  | .ceilDiv, a, b => do return Term.add [← Term.floorDiv a b, .one]

/-- The term of an expression, parts before the whole.  A dimension or symbol that the map
does not have has none, which is a fault only where its term is needed. -/
def term? (dims symbols : Nat) : AffineExpr → Except Fault (Option Term)
  | .const n => .ok (some (Term.int n))
  | .dim i => .ok (if i < dims then some (.sym (dimName i)) else none)
  | .sym i => .ok (if i < symbols then some (.sym (symName i)) else none)
  | .binary op l r => do
    match ← l.term? dims symbols, ← r.term? dims symbols with
    | some a, some b => return some (← combine op a b)
    | _, _ => throw .noKey
  | .unknownBinary l r => do
    let _ ← l.term? dims symbols
    let _ ← r.term? dims symbols
    throw (.refused "unhandled expr type")
  | .unknown => throw (.refused "")

def constants : AffineExpr → List Int
  | .const n => [n]
  | .binary _ l r | .unknownBinary l r => l.constants ++ r.constants
  | _ => []

end AffineExpr

namespace Application

def inputs (name : Nat → String) (operands : List String) : Nat → Nat → Except Fault (List MapInput)
  | _, 0 => .ok []
  | i, n + 1 => do
    match operands with
    | [] => throw .outOfRange
    | o :: rest => return ⟨name i, i, o⟩ :: (← inputs name rest (i + 1) n)

def substitution (inputs : List MapInput) : List (String × Term) :=
  inputs.map fun input => (input.name, .sym input.operand)

def terms (map : AffineMap) : List AffineExpr → Except Fault (List (Option Term))
  | [] => .ok []
  | e :: rest => do
    let t ← e.term? map.dims map.symbols
    return t :: (← terms map rest)

def statedTerm (a : Application) (terms : List (Option Term)) (result : String) :
    Except Fault Term :=
  match a.map.results, terms with
  | e :: _, t :: _ =>
    if e.leafText? = some result then .ok (.sym result)
    else match t with
      | some t => .ok t
      | none => .error .noKey
  | _, _ => .error .outOfRange

def analyze (a : Application) : Named Apply :=
  if a.operation ≠ "affine.apply" then throw (.assertion "")
  else do
    let operands ← Named.namesOf a.operands
    let dims ← Named.lift (inputs AffineExpr.dimName operands 0 a.map.dims)
    let symbols ← Named.lift (inputs AffineExpr.symName (operands.drop a.map.dims) 0 a.map.symbols)
    let terms ← Named.lift (terms a.map a.map.results)
    let result ← Named.nameOf a.result
    let expr ← Named.lift (a.statedTerm terms result)
    let map := Proposition.ofEquation (.sym result) expr
    let relation ← Named.lift do
      (← map.substitute (substitution dims)).substitute (substitution symbols)
    return {
      operands, dims, symbols, result, expr, map, relation
      constants := (a.map.results.flatMap AffineExpr.constants).eraseDups }

end Application

end Polyloom
