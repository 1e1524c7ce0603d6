import Polyloom.Ir.Build

/-!
Operations that are asked for by operands, attributes and result types.

The operands of some operations come in groups, one per declared segment; the sizes of the
groups are then an attribute of the operation.
-/

namespace Polyloom

inductive Segment where
  | single
  | optional
  | variadic
  deriving DecidableEq, Repr

structure OpKind where
  name : String
  cls : String
  segments : Option (List Segment) := none
  regions : Nat := 0
  deriving Inhabited

def segmentSizes : String := "operand_segment_sizes"

namespace Build

def operand : Value → Build Value
  | .ssa id type view => return .ssa id type view
  | _ => throw .rejected

def operandAll : List Value → Build (List Value)
  | [] => return []
  | v :: rest => do
    let w ← operand v
    return w :: (← operandAll rest)

def groupOperands (segment : Segment) (group : Value) : Build (List Value) := do
  match segment, group with
  | .optional, .none => return []
  | .variadic, group =>
    match ← items? group with
    | some vs => operandAll vs
    | none => throw .rejected
  | _, v => return [← operand v]

def operandGroups : List Segment → List Value → Build (List (List Value))
  | [], [] => return []
  | segment :: segments, group :: groups => do
    let vs ← groupOperands segment group
    return vs :: (← operandGroups segments groups)
  | _, _ => throw .rejected

/-- The operands in order, and the attributes with the sizes of the groups. -/
def flattenOperands (kind : OpKind) (operands : List Value) (attributes : List (String × Value)) :
    Build (List Value × List (String × Value)) := do
  match kind.segments with
  | none => return (← operandAll operands, attributes)
  | some segments =>
    let groups ← operandGroups segments operands
    let sizes := Value.listed (groups.map fun g => .int g.length)
    return (groups.flatten, Table.put segmentSizes sizes attributes)

def generic (kind : OpKind) (operands : List Value) (attributes : List (String × Value))
    (results : List Value) : Build Value := do
  let (flat, attributes) ← flattenOperands kind operands attributes
  let types ← typeTexts results
  let how := Creation.generic (← nowAll operands) (← nowNamed attributes) kind.regions
  let id ← createOp kind.name kind.cls flat attributes types kind.regions how
  return .op id kind.cls

end Build

end Polyloom
