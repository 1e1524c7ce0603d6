import Polyloom.Affine.Definition
import Polyloom.Table

/-!
Numbering the dimensions and symbols of affine expressions.

A scope holds a position for each name and may be shared by many build states; each state
also remembers the positions that it used itself, and may refuse new names.
-/

namespace Polyloom

structure AffineScope where
  dimPositions : List (String × Nat) := []
  symbolPositions : List (String × Nat) := []
  deriving DecidableEq, Repr, Inhabited

structure AffineBuild where
  localDims : List (String × Nat) := []
  localSymbols : List (String × Nat) := []
  allowNewDims : Bool := true
  allowNewSymbols : Bool := true
  deriving DecidableEq, Repr, Inhabited

def positionsText (table : List (String × Nat)) : String :=
  "\x7b" ++ ", ".intercalate (table.map fun (s, n) => Text.quoted s ++ ": " ++ n.repr) ++ "\x7d"

namespace AffineScope

def dims (scope : AffineScope) : List String := scope.dimPositions.map Prod.fst

def symbols (scope : AffineScope) : List String := scope.symbolPositions.map Prod.fst

end AffineScope

namespace AffineBuild

def getDim (scope : AffineScope) (build : AffineBuild) (name : String) :
    Except Fault (Nat × AffineScope × AffineBuild) :=
  match scope.dimPositions.lookup name with
  | some i => .ok (i, scope, { build with localDims := Table.put name i build.localDims })
  | none =>
    let i := scope.dimPositions.length
    if build.allowNewDims then
      .ok (i, { scope with dimPositions := Table.put name i scope.dimPositions },
        { build with localDims := Table.put name i build.localDims })
    else
      .error (.badValue ("New dimensions not allowed in the current affine expression: Requested '"
        ++ name ++ "', Availble: " ++ positionsText scope.dimPositions))

def getSymbol (scope : AffineScope) (build : AffineBuild) (name : String) :
    Except Fault (Nat × AffineScope × AffineBuild) :=
  match scope.symbolPositions.lookup name with
  | some i => .ok (i, scope, { build with localSymbols := Table.put name i build.localSymbols })
  | none =>
    let i := scope.symbolPositions.length
    if build.allowNewSymbols then
      .ok (i, { scope with symbolPositions := Table.put name i scope.symbolPositions },
        { build with localSymbols := Table.put name i build.localSymbols })
    else
      .error (.badValue ("New symbols not allowed in the current affine expression: Requested '"
        ++ name ++ "', Availble: " ++ positionsText scope.symbolPositions))

def text (build : AffineBuild) : String :=
  "AffineBuildState<\n  symbols=" ++ positionsText build.localSymbols
    ++ "\n  dims=" ++ positionsText build.localDims ++ ">"

end AffineBuild

/-- A computation that numbers names and may stop, keeping what it numbered until then. -/
abbrev Numbered (α : Type) := ExceptT Fault (StateM (AffineScope × AffineBuild)) α

namespace Numbered

def dim (name : String) : Numbered Nat := do
  let (scope, build) ← get
  match build.getDim scope name with
  | .ok (i, scope, build) => set (scope, build); return i
  | .error fault => throw fault

def symbol (name : String) : Numbered Nat := do
  let (scope, build) ← get
  match build.getSymbol scope name with
  | .ok (i, scope, build) => set (scope, build); return i
  | .error fault => throw fault

end Numbered

namespace AffineDef

/-- The expression over positions.  Names are numbered from left to right; a difference
cannot be built. -/
def build : AffineDef → Numbered AffineExpr
  | .const l => return .const l.value
  | .dim s => return .dim (← Numbered.dim s)
  | .sym s => return .sym (← Numbered.symbol s)
  | .binary op l r => do
    let l' ← l.build
    let r' ← r.build
    return .binary op l' r'
  | .difference _ _ => throw .noAttribute
  | .bare => throw (.unsupported "")

def toMap (e : AffineDef) : Except Fault AffineMap :=
  match (e.build.run).run ({}, {}) with
  | (.ok built, scope, _) => .ok ⟨scope.dimPositions.length, scope.symbolPositions.length, [built]⟩
  | (.error fault, _) => .error fault

end AffineDef

end Polyloom
