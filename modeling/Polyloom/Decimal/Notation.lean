import Polyloom.Decimal.Shortest

/-!
How a floating-point number is written: with the fewest digits that identify it,
positionally when the leading digit has a weight from `10 ^ -4` to `10 ^ 15`, and otherwise
with a signed exponent of at least two digits.
-/

namespace Polyloom.Decimal

private def zeros (n : Nat) : List Char := List.replicate n '0'

def exponentText (e : Int) : List Char :=
  let digits := Nat.toDigits 10 e.natAbs
  'e' :: (if e < 0 then '-' else '+') :: (zeros (2 - digits.length) ++ digits)

def layout (d : Scaled) : List Char :=
  let digits := Nat.toDigits 10 d.digits
  let count := digits.length
  let leading := d.exponent + (count : Int) - 1
  if -4 ≤ leading ∧ leading < 16 then
    if 0 ≤ d.exponent then
      digits ++ zeros d.exponent.toNat ++ ['.', '0']
    else if 0 ≤ leading then
      digits.take (leading.toNat + 1) ++ '.' :: digits.drop (leading.toNat + 1)
    else
      '0' :: '.' :: (zeros (-leading - 1).toNat ++ digits)
  else
    match digits with
    | [] => []
    | [single] => single :: exponentText leading
    | first :: others => first :: '.' :: (others ++ exponentText leading)

def render (bits : UInt64) : String :=
  let negative := bits >>> 63 == 1
  let exponent := (bits >>> 52) &&& 0x7FF
  let fraction := bits &&& 0xFFFFFFFFFFFFF
  if exponent == 0x7FF then
    if fraction != 0 then "nan" else if negative then "-inf" else "inf"
  else
    let sign := if negative then ['-'] else []
    let body := if exponent == 0 && fraction == 0 then ['0', '.', '0']
      else layout (Binary.ofBits bits).shortest
    String.ofList (sign ++ body)

end Polyloom.Decimal
