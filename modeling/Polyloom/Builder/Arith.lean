import Polyloom.Ir.Native

/-!
Arithmetic: constants, operations that are chosen by the type of the first operand, casts,
and the operators of arithmetic values.
-/

namespace Polyloom.Arith

open Build

/-! ## Kinds of types -/

def isInteger (t : String) : Bool := TypeText.classOf t = .integer

def isIndex (t : String) : Bool := TypeText.classOf t = .index

def isComplex (t : String) : Bool := TypeText.classOf t = .complex

def isIntegerLikeType (type : Value) : Build Bool := do
  let t ← typeText type
  return isInteger t || isIndex t

def isFloatType (type : Value) : Build Bool := return TypeText.isFloat (← typeText type)

def integerWidth (t : String) : Build Nat :=
  match TypeText.width? t with
  | some n => return n
  | none => throw .wrongCast

def floatWidth (t : String) : Build Nat :=
  match TypeText.floatWidth? t with
  | some n => return n
  | none => throw .rejected

/-! ## Constants -/

def kindName : Value → String
  | .none => "NoneType"
  | .bool _ => "bool"
  | .int _ => "int"
  | .real _ => "float"
  | .str _ => "str"
  | .list _ | .listed _ => "list"
  | .tuple _ => "tuple"
  | .dict _ => "dict"
  | _ => "object"

def inferType (value : Value) : Build Value := do
  match value with
  | .int _ | .bool _ => return .type "si64"
  | .real _ => return .type "f64"
  | v =>
    let shown ← now v
    throw (.refused ("unsupported val type <class '" ++ kindName v ++ "'> " ++ shown.text))

def constant (value : Value) (type : Value := .none) (index : Bool := false) : Build Value := do
  let made ← if index then indexConstantOp value
    else do
      let type ← if type.isNone then inferType value else pure type
      constantOp type value
  cast .arith (← result made)

def indexConstant (n : Value) : Build Value := constant n .none true

/-! ## Comparisons -/

def floatPredicates : List String :=
  ["false", "oeq", "ogt", "oge", "olt", "ole", "one", "ord", "ueq", "ugt", "uge", "ult", "ule",
   "une", "uno", "true"]

def integerPredicates : List String :=
  ["eq", "ne", "slt", "sle", "sgt", "sge", "ult", "ule", "ugt", "uge"]

def predicateAttribute (predicates : List String) (predicate : Value) : Build Value := do
  if predicate.isMutable then throw .wrongKind
  let shown ← now predicate
  match predicate with
  | .str s =>
    match predicates.idxOf? s with
    | some i => return .attribute "IntegerAttr" (.listed [.type "i64", .int i])
    | none => throw (.assertion ("predicate " ++ s ++ " not in predicates"))
  | _ => throw (.assertion ("predicate " ++ shown.text ++ " not in predicates"))

def compareBy (cls : String) (predicates : List String)
    (predicate lhs rhs : Value) : Build Value := do
  let number ← predicateAttribute predicates predicate
  let lhs ← asValue lhs
  let rhs ← asValue rhs
  native "arith" cls [number, lhs, rhs]

def compareFloats : Value → Value → Value → Build Value := compareBy "CmpFOp" floatPredicates

def compareIntegers : Value → Value → Value → Build Value := compareBy "CmpIOp" integerPredicates

/-! ## Casts -/

def cannotCast {α : Type} (source target : String) : Build α :=
  throw (.badValue ("Unable to cast body expression from " ++ source ++ " to " ++ target))

def castToInteger (target operand : Value) (unsigned : Bool) : Build Value := do
  let operand ← asValue operand
  let wide ← integerWidth (← typeText target)
  let source ← typeOf operand
  if TypeText.isFloat source then
    return ← native "arith" (if unsigned then "FPToUIOp" else "FPToSIOp") [target, operand]
  if isIndex source then return ← native "arith" "IndexCastOp" [target, operand]
  let narrow ← integerWidth source
  if narrow < wide then
    native "arith" (if unsigned then "ExtUIOp" else "ExtSIOp") [target, operand]
  else if wide < narrow then native "arith" "TruncIOp" [target, operand]
  else cannotCast source (← typeText target)

def castToFloat (target operand : Value) (unsigned : Bool) : Build Value := do
  let operand ← asValue operand
  let source ← typeOf operand
  if isInteger source then
    return ← native "arith" (if unsigned then "UIToFPOp" else "SIToFPOp") [target, operand]
  let wide ← floatWidth (← typeText target)
  let narrow ← floatWidth source
  if narrow < wide then native "arith" "ExtFOp" [target, operand]
  else if wide < narrow then native "arith" "TruncFOp" [target, operand]
  else cannotCast source (← typeText target)

/-! ## Operations by the type of the first operand -/

def unsupportedOperand {α : Type} (name : String) : Build α :=
  throw (.unsupported ("Unsupported '" ++ name ++ "' operand: \x7bx\x7d"))

def unsupportedOperands {α : Type} (name : String) : Build α :=
  throw (.unsupported ("Unsupported '" ++ name ++ "' operands: \x7blhs\x7d, \x7brhs\x7d"))

def floatOp (dialect cls name : String) (x : Value) : Build Value := do
  let x ← asValue x
  if TypeText.isFloat (← typeOf x) then native dialect cls [x] else unsupportedOperand name

def abs : Value → Build Value := floatOp "math" "AbsFOp" "abs"

def ceil : Value → Build Value := floatOp "math" "CeilOp" "ceil"

def floor : Value → Build Value := floatOp "math" "FloorOp" "floor"

def neg (x : Value) : Build Value := do
  let x ← asValue x
  let t ← typeOf x
  if TypeText.isFloat t then native "arith" "NegFOp" [x]
  else if isComplex t then throw .noAttribute
  else unsupportedOperand "negf"

def select (test yes no : Value) : Build Value := do
  let test ← asValue test
  let yes ← asValue yes
  let no ← asValue no
  result (← native "arith" "SelectOp" [test, yes, no])

def combine (floats integers name : String) (lhs rhs : Value) : Build Value := do
  let lhs ← asValue lhs
  let rhs ← asValue rhs
  let t ← typeOf lhs
  if TypeText.isFloat t then native "arith" floats [lhs, rhs]
  else if isInteger t || isIndex t then native "arith" integers [lhs, rhs]
  else if isComplex t then throw .noAttribute
  else unsupportedOperands name

def add : Value → Value → Build Value := combine "AddFOp" "AddIOp" "add"

def sub : Value → Value → Build Value := combine "SubFOp" "SubIOp" "sub"

def mul : Value → Value → Build Value := combine "MulFOp" "MulIOp" "mul"

/-- A comparison: ordered for floating-point numbers, signed for integers, unsigned for
indices. -/
def order (floats integers indices name : String) (lhs rhs : Value) : Build Value := do
  let t ← typeOf lhs
  if TypeText.isFloat t then compareFloats (.str floats) lhs rhs
  else if isInteger t then compareIntegers (.str integers) lhs rhs
  else if isIndex t then compareIntegers (.str indices) lhs rhs
  else unsupportedOperands name

def lt (lhs rhs : Value) : Build Value := do
  order "olt" "slt" "ult" "lt" (← asValue lhs) (← asValue rhs)

def ge (lhs rhs : Value) : Build Value := do
  order "oge" "sge" "uge" "ge" (← asValue lhs) (← asValue rhs)

def le (lhs rhs : Value) : Build Value := do
  order "ole" "sle" "ule" "le" (← asValue lhs) (← asValue rhs)

def eq (lhs rhs : Value) : Build Value := do
  order "oeq" "eq" "eq" "eq" (← asValue lhs) (← asValue rhs)

/-- The comparison that also takes an integer on the right of a floating-point number. -/
def gt (lhs rhs : Value) : Build Value := do
  let lhs ← asValue lhs
  let rhs ← asValue rhs
  let t ← typeOf rhs
  let rhs ← if TypeText.isFloat (← typeOf lhs) && (isInteger t || isIndex t) then
      castToFloat (.type "f64") rhs true
    else pure rhs
  order "ogt" "sgt" "ugt" "gt" lhs rhs

/-! ## Operators of arithmetic values -/

def operandFor (self other : Value) : Build Value := do
  if other.isNumber then constant other (.type (← typeOf self)) else return other

def arithResult (made : Value) : Build Value := do cast .arith (← result made)

def binary : BinaryOperator → Value → Value → Build Value
  | .add => add
  | .sub => sub
  | .mul => mul
  | .lt => lt
  | .gt => gt
  | .le => le
  | .ge => ge
  | .eq => eq

def unary : UnaryOperator → Value → Build Value
  | .neg => neg
  | .abs => abs
  | .ceil => ceil
  | .floor => floor

def applyBinary (op : BinaryOperator) (self other : Value) : Build Value := do
  let other ← operandFor self other
  arithResult (← binary op self other)

def applyUnary (op : UnaryOperator) (self : Value) : Build Value := do
  arithResult (← unary op self)

/-- The operator to use when the arithmetic value stands on the right: comparisons turn
around, all else is applied as if it stood on the left. -/
def reflected : BinaryOperator → BinaryOperator
  | .lt => .gt
  | .gt => .lt
  | .le => .ge
  | .ge => .le
  | op => op

end Polyloom.Arith
