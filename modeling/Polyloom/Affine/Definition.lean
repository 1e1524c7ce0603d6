import Polyloom.Affine.Expr
import Polyloom.Datum
import Polyloom.Fault

/-!
Affine expressions over named dimensions and symbols, as they are written with operators.

Plain numbers may stand on the right of every operator, and on the left of sums and
products.  A difference is kept as its own kind of node, whose right side is negated.
-/

namespace Polyloom

inductive AffineLiteral where
  | int (n : Int)
  | bool (b : Bool)
  deriving DecidableEq, Repr

namespace AffineLiteral

def value : AffineLiteral → Int
  | .int n => n
  | .bool b => if b then 1 else 0

def text : AffineLiteral → String
  | .int n => n.repr
  | .bool b => if b then "True" else "False"

end AffineLiteral

inductive AffineDef where
  | const (literal : AffineLiteral)
  | dim (name : String)
  | sym (name : String)
  | binary (op : AffineOp) (lhs rhs : AffineDef)
  /-- A difference; the right side is already negated. -/
  | difference (lhs negatedRhs : AffineDef)
  | bare
  deriving DecidableEq, Repr, Inhabited

namespace AffineDef

def opName : AffineOp → String
  | .add => "AffineAddExpr"
  | .mul => "AffineMulExpr"
  | .mod => "AffineModExpr"
  | .floorDiv => "AffineFloorDivExpr"
  | .ceilDiv => "AffineCeilDivExpr"

def text : AffineDef → String
  | .const l => "Const(" ++ l.text ++ ")"
  | .dim s => "Dim(" ++ s ++ ")"
  | .sym s => "Symbol(" ++ s ++ ")"
  | .binary op l r => opName op ++ "(" ++ l.text ++ ", " ++ r.text ++ ")"
  | .difference l r => "AffineExpr(" ++ l.text ++ ", " ++ r.text ++ ")"
  | .bare => "<AffineExprDef>"

def parts : AffineDef → List AffineDef
  | .binary op l r => .binary op l r :: (l.parts ++ r.parts)
  | .difference l r => .difference l r :: (l.parts ++ r.parts)
  | e => [e]

def eval (dims syms : String → Int) : AffineDef → Option Int
  | .const l => some l.value
  | .dim s => some (dims s)
  | .sym s => some (syms s)
  | .binary op l r => do return op.eval (← l.eval dims syms) (← r.eval dims syms)
  | .difference l r => do return (← l.eval dims syms) + (← r.eval dims syms)
  | .bare => none

end AffineDef

inductive AffineOperand where
  | plain (d : Datum)
  | expr (e : AffineDef)
  deriving Repr, Inhabited

inductive AffineOperator where
  | add
  | sub
  | mul
  | mod
  | floorDiv
  | div
  deriving DecidableEq, Repr

namespace AffineOperator

def symbol : AffineOperator → String
  | .add => "+"
  | .sub => "-"
  | .mul => "*"
  | .mod => "%"
  | .floorDiv => "//"
  | .div => "/"

def all : List AffineOperator := [.add, .sub, .mul, .mod, .floorDiv, .div]

def ofSymbol? (text : String) : Option AffineOperator := all.find? fun op => op.symbol = text

end AffineOperator

namespace AffineOperand

def coerce : AffineOperand → Except Fault AffineDef
  | .plain (.int n) => .ok (.const (.int n))
  | .plain (.bool b) => .ok (.const (.bool b))
  | .plain _ => .error (.assertion "")
  | .expr e => .ok e

def negated : AffineOperand → Except Fault AffineOperand
  | .plain (.int n) => .ok (.plain (.int (-n)))
  | .plain (.bool b) => .ok (.plain (.int (if b then -1 else 0)))
  | .plain (.real bits) => .ok (.plain (.real (bits ^^^ 0x8000000000000000)))
  | .plain (.str _) => .ok (.plain (.str ""))
  | .plain (.list _) => .ok (.plain (.list []))
  | .plain _ => .error .wrongKind
  | .expr e => .ok (.expr (.binary .mul e (.const (.int (-1)))))

def onExpr (op : AffineOperator) (l : AffineDef) (r : AffineOperand) : Except Fault AffineDef :=
  match op with
  | .add => do return .binary .add l (← r.coerce)
  | .mul => do return .binary .mul l (← r.coerce)
  | .mod => do return .binary .mod l (← r.coerce)
  | .floorDiv => do return .binary .floorDiv l (← r.coerce)
  | .div => do return .binary .ceilDiv l (← r.coerce)
  | .sub => do return .difference l (← (← r.negated).coerce)

private def intOf? : Datum → Option Int
  | .int n => some n
  | .bool b => some (if b then 1 else 0)
  | _ => none

private def floatOf? : Datum → Option Float
  | .real bits => some (Float.ofBits bits)
  | d => (intOf? d).map Float.ofInt

def onPlain (op : AffineOperator) (a b : Datum) : Except Fault Datum :=
  match intOf? a, intOf? b with
  | some m, some n =>
    match op with
    | .add => .ok (.int (m + n))
    | .sub => .ok (.int (m - n))
    | .mul => .ok (.int (m * n))
    | .mod => if n = 0 then .error .divisionByZero else .ok (.int (Int.fmod m n))
    | .floorDiv => if n = 0 then .error .divisionByZero else .ok (.int (Int.fdiv m n))
    | .div =>
      if n = 0 then .error .divisionByZero
      else .ok (.real (Float.ofInt m / Float.ofInt n).toBits)
  | _, _ =>
    match floatOf? a, floatOf? b with
    | some x, some y =>
      match op with
      | .add => .ok (.real (x + y).toBits)
      | .sub => .ok (.real (x - y).toBits)
      | .mul => .ok (.real (x * y).toBits)
      | .div => if y == 0 then .error .divisionByZero else .ok (.real (x / y).toBits)
      | .floorDiv => if y == 0 then .error .divisionByZero else .ok (.real (x / y).floor.toBits)
      | .mod =>
        if y == 0 then .error .divisionByZero
        else .ok (.real (x - (x / y).floor * y).toBits)
    | _, _ => .error .wrongKind

def apply (op : AffineOperator) : AffineOperand → AffineOperand → Except Fault AffineOperand
  | .expr l, r => (onExpr op l r).map .expr
  | .plain a, .plain b => (onPlain op a b).map .plain
  | .plain a, .expr r =>
    match op with
    | .add => (onExpr .add r (.plain a)).map .expr
    | .mul => (onExpr .mul r (.plain a)).map .expr
    | _ => .error .wrongKind

end AffineOperand

end Polyloom
