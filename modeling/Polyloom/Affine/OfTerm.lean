import Polyloom.Affine.Numbering
import Polyloom.Term.Written

/-!
Reading symbolic terms as affine expressions.
-/

namespace Polyloom

def Interpretation.affine (symbol : String → Except Fault AffineDef) :
    Interpretation AffineOperand where
  symbol s := (symbol s).map .expr
  literal n := .plain (.int n)
  add := AffineOperand.apply .add
  mul := AffineOperand.apply .mul
  mod := AffineOperand.apply .mod
  floorDiv := AffineOperand.apply .floorDiv

namespace AffineDef

/-- Names that begin with `d` are dimensions and all others symbols. -/
def dimOrSymbol (name : String) : AffineDef :=
  if name.toList.head? = some 'd' then .dim name else .sym name

/-- Names that begin with `s` are symbols, those with `d` dimensions, and no others allowed. -/
def strictDimOrSymbol (name : String) : Except Fault AffineDef :=
  match name.toList.head? with
  | some 's' => .ok (.sym name)
  | some 'd' => .ok (.dim name)
  | _ => .error (.unsupported ("unexpected " ++ name))

end AffineDef

/-- The text of what is denoted, as an affine expression.  An equation compares two objects that
are never the same one, and other comparisons are no expressions. -/
def Denotation.affineText (d : Denotation) : Except Fault String := do
  let target := Interpretation.affine fun s => .ok (AffineDef.dimOrSymbol s)
  match d with
  | .term t =>
    match ← t.interpret target with
    | .plain d => return d.display
    | .expr e => return e.text
  | .prop p =>
    match ← p.interpret target with
    | (.eq, _, _) => return "False"
    | _ => throw .wrongKind

/-- A term applied to operands: the map it stands for.  A term without names is no map. -/
def Term.toAffineMap (t : Term) : Except Fault AffineMap := do
  match ← t.interpret (.affine AffineDef.strictDimOrSymbol) with
  | .expr e => e.toMap
  | .plain _ => throw .wrongKind

end Polyloom
