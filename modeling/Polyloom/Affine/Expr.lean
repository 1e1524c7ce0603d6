/-!
Affine expressions over numbered dimensions and symbols, and maps of them.
-/

namespace Polyloom

inductive AffineOp where
  | add
  | mul
  | mod
  | floorDiv
  | ceilDiv
  deriving DecidableEq, Repr

namespace AffineOp

def symbol : AffineOp → String
  | .add => "+"
  | .mul => "*"
  | .mod => "%"
  | .floorDiv => "//"
  | .ceilDiv => "ceil"

def all : List AffineOp := [.add, .mul, .mod, .floorDiv, .ceilDiv]

def ofSymbol? (text : String) : Option AffineOp := all.find? fun op => op.symbol = text

def eval : AffineOp → Int → Int → Int
  | .add, a, b => a + b
  | .mul, a, b => a * b
  | .mod, a, b => Int.fmod a b
  | .floorDiv, a, b => Int.fdiv a b
  | .ceilDiv, a, b => -(Int.fdiv (-a) b)

end AffineOp

inductive AffineExpr where
  | const (n : Int)
  | dim (position : Nat)
  | sym (position : Nat)
  | binary (op : AffineOp) (lhs rhs : AffineExpr)
  | unknownBinary (lhs rhs : AffineExpr)
  | unknown
  deriving DecidableEq, Repr, Inhabited

namespace AffineExpr

def eval (dims syms : Nat → Int) : AffineExpr → Option Int
  | .const n => some n
  | .dim i => some (dims i)
  | .sym i => some (syms i)
  | .binary op l r => do return op.eval (← l.eval dims syms) (← r.eval dims syms)
  | .unknownBinary _ _ | .unknown => none

end AffineExpr

structure AffineMap where
  dims : Nat
  symbols : Nat
  results : List AffineExpr
  deriving DecidableEq, Repr, Inhabited

end Polyloom
