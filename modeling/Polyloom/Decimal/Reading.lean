/-!
Reading floating-point numbers from decimal text: the nearest number to what is written.
-/

namespace Polyloom.Decimal

def nearest (negative : Bool) (digits : Nat) (exponent : Int) : UInt64 :=
  let bits := (Float.ofScientific digits (exponent < 0) exponent.natAbs).toBits
  if negative then bits ||| 0x8000000000000000 else bits

def digitsNumber (digits : List Char) : Nat :=
  digits.foldl (fun n c => 10 * n + (c.toNat - '0'.toNat)) 0

def exponentNumber (text : List Char) : Int :=
  match text.drop 1 with
  | '-' :: digits => -(digitsNumber digits : Int)
  | '+' :: digits | digits => digitsNumber digits

/-- A number without a sign: digits, a fraction and an exponent, the latter two if there are any;
or one of the two words for what has no digits. -/
def readUnsigned (negative : Bool) (text : List Char) : UInt64 :=
  if text = "Infinity".toList then
    if negative then 0xFFF0000000000000 else 0x7FF0000000000000
  else if text = "NaN".toList then 0x7FF8000000000000
  else
    let whole := text.takeWhile Char.isDigit
    let rest := text.dropWhile Char.isDigit
    let fraction := match rest with
      | '.' :: more => more.takeWhile Char.isDigit
      | _ => []
    let mark := match rest with
      | '.' :: more => more.dropWhile Char.isDigit
      | _ => rest
    nearest negative (digitsNumber (whole ++ fraction)) (exponentNumber mark - fraction.length)

def read (text : String) : UInt64 :=
  match text.toList with
  | '-' :: rest => readUnsigned true rest
  | rest => readUnsigned false rest

end Polyloom.Decimal
