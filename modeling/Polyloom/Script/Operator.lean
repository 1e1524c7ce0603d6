import Polyloom.Builder.Buffer

/-!
Operators on the values of a script.

Values of the program under construction that are held for arithmetic build operations, on
whichever side of an operator they stand.  Plain data is computed with at once.
-/

namespace Polyloom.Operator

open Build

def isArith : Value → Bool
  | .ssa _ _ .arith => true
  | _ => false

/-! ## Plain data -/

def real? : Value → Option Float
  | .real bits => some (Float.ofBits bits)
  | v => v.int?.map Float.ofInt

def addReals (op : BinaryOperator) (a b : Float) : Build Value :=
  match op with
  | .add => return .real (a + b).toBits
  | .sub => return .real (a - b).toBits
  | .mul => return .real (a * b).toBits
  | .lt => return .bool (a < b)
  | .gt => return .bool (b < a)
  | .le => return .bool (a ≤ b)
  | .ge => return .bool (b ≤ a)
  | .eq => return .bool (a == b)

def addInts (op : BinaryOperator) (a b : Int) : Value :=
  match op with
  | .add => .int (a + b)
  | .sub => .int (a - b)
  | .mul => .int (a * b)
  | .lt => .bool (a < b)
  | .gt => .bool (b < a)
  | .le => .bool (a ≤ b)
  | .ge => .bool (b ≤ a)
  | .eq => .bool (a = b)

def orderTexts (op : BinaryOperator) (a b : String) : Build Value :=
  match op with
  | .add => return .str (a ++ b)
  | .lt => return .bool (a < b)
  | .gt => return .bool (b < a)
  | .le => return .bool (!(b < a))
  | .ge => return .bool (!(a < b))
  | .eq => return .bool (a = b)
  | _ => throw .wrongKind

def sequence? (v : Value) : Build (Option (List Value × (List Value → Build Value))) := do
  match v with
  | .list _ | .listed _ => return some (← items v, newList)
  | .tuple vs => return some (vs, fun ws => return .tuple ws)
  | _ => return none

def repeatItems (vs : List Value) (n : Int) : List Value := (List.replicate n.toNat vs).flatten

def equal : Value → Value → Bool
  | .attribute c v, .attribute d w => c == d && v.payload.display == w.payload.display
  | .annot h t, .annot k u => h.same k && t.same u
  | .map s, .map t => s == t
  | v, w => v.same w || (v.isNumber && w.isNumber && v.display == w.display)

def plain (op : BinaryOperator) (a b : Value) : Build Value := do
  match a.int?, b.int? with
  | some m, some n => return addInts op m n
  | _, _ =>
  match real? a, real? b with
  | some x, some y => addReals op x y
  | _, _ =>
  match a, b with
  | .str s, .str t => orderTexts op s t
  | _, _ =>
  match ← sequence? a, ← sequence? b, op with
  | some (vs, make), some (ws, _), .add => make (vs ++ ws)
  | some (vs, _), some (ws, _), .eq => return .bool ((vs.length == ws.length) &&
      (vs.zip ws).all fun (v, w) => equal v w)
  | some (vs, make), none, .mul =>
    match b.int? with
    | some n => make (repeatItems vs n)
    | none => throw .wrongKind
  | none, some (ws, make), .mul =>
    match a.int? with
    | some n => make (repeatItems ws n)
    | none => throw .wrongKind
  | _, _, .eq =>
    match a, b with
    | .object i, .object j => return .bool (i = j)
    | _, _ => return .bool (equal (← now a) (← now b))
  | _, _, _ => throw .wrongKind

/-! ## Operators -/

def passes? (v : Value) : Build (Option (List String)) := do
  match v with
  | .object id =>
    match ← object id with
    | .pipeline p => return some p.passes
    | _ => return none
  | _ => return none

def binary (op : BinaryOperator) (a b : Value) : Build Value := do
  if op = .add then
    match ← passes? a with
    | some first =>
      match ← passes? b with
      | some second => return ← newObject (.pipeline ⟨first ++ second, .null⟩)
      | none => throw .noAttribute
    | none => pure ()
  if isArith a then Arith.applyBinary op a b
  else if isArith b then Arith.applyBinary (Arith.reflected op) b a
  else plain op a b

def wholePart (round : Float → Float) (bits : UInt64) : Build Value := do
  let x := round (Float.ofBits bits)
  if x.isNaN then throw (.badValue "cannot convert float NaN to integer")
  if x.isInf then throw (.failure "cannot convert float infinity to integer")
  let n := x.abs.toUInt64.toNat
  return .int (if x < 0 then -(n : Int) else n)

def unary (op : UnaryOperator) (v : Value) : Build Value := do
  if isArith v then return ← Arith.applyUnary op v
  match v.int?, v, op with
  | some n, _, .neg => return .int (-n)
  | some n, _, .abs => return .int n.natAbs
  | some n, _, _ => return .int n
  | none, .real bits, .neg => return .real (bits ^^^ 0x8000000000000000)
  | none, .real bits, .abs => return .real (bits &&& 0x7FFFFFFFFFFFFFFF)
  | none, .real bits, .ceil => wholePart Float.ceil bits
  | none, .real bits, .floor => wholePart Float.floor bits
  | none, _, _ => throw .wrongKind

/-! ## Items -/

def position (n : Nat) (key : Value) : Build Nat := do
  match key.int? with
  | none => throw .wrongKind
  | some i =>
    let place := if i < 0 then i + n else i
    if 0 ≤ place && place < n then return place.toNat else throw .outOfRange

def getItem (v key : Value) : Build Value := do
  match v with
  | .ssa _ _ view => if view.isBuffer then Buffer.getItem view v key else throw .wrongKind
  | .ref path =>
    match View.ofPath? path with
    | some view =>
      if view = .plain || view = .arith then throw .wrongKind else Buffer.annotFor view key
    | none => throw .wrongKind
  | .dict entries =>
    if key.isMutable then throw .wrongKind
    match entries.find? fun (k, _) => equal k key with
    | some (_, w) => return w
    | none => throw .noKey
  | .list _ | .listed _ | .tuple _ | .str _ =>
    let vs ← items v
    return (vs[← position vs.length key]?).getD .none
  | _ => throw .wrongKind

def setItem (v key value : Value) : Build Unit := do
  match v with
  | .ssa id _ view => if view.isBuffer then Buffer.setItem id view v key value else throw .wrongKind
  | .list cell =>
    let vs ← items v
    setList cell (vs.set (← position vs.length key) value)
  | _ => throw .wrongKind

end Polyloom.Operator
