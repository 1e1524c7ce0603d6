/-!
The shortest decimal that reads back to a given binary floating-point number.

A finite number is `m * 2 ^ q`.  The reals that round to it form an interval, and the
decimal that is written is the one with the fewest digits in this interval, the closest
such one if there are two.  Every comparison is between natural numbers.
-/

namespace Polyloom.Decimal

/-- A finite non-negative number `m * 2 ^ q`. -/
structure Binary where
  m : Nat
  q : Int
  /-- The gap to the next smaller number is half the gap to the next larger one. -/
  narrowBelow : Bool
  deriving DecidableEq, Repr

structure Scaled where
  digits : Nat
  exponent : Int
  deriving DecidableEq, Repr

namespace Binary

def ofBits (bits : UInt64) : Binary :=
  let exponent := ((bits >>> 52) &&& 0x7FF).toNat
  let fraction := (bits &&& 0xFFFFFFFFFFFFF).toNat
  if exponent = 0 then ⟨fraction, -1074, false⟩
  else ⟨0x10000000000000 + fraction, (exponent : Int) - 1075, fraction == 0 && exponent > 1⟩

def compareScaled (a : Nat) (i : Int) (n : Nat) (j : Int) : Ordering :=
  compare (a * Nat.pow 10 i.toNat * Nat.pow 2 (-j).toNat)
    (n * Nat.pow 2 j.toNat * Nat.pow 10 (-i).toNat)

/-- Does the decimal lie among the reals that round to `x`, ties going to even `m`? -/
def readsBack (x : Binary) (d : Scaled) : Bool :=
  let low := if x.narrowBelow then 4 * x.m - 1 else 4 * x.m - 2
  let high := 4 * x.m + 2
  let closed := x.m % 2 == 0
  let fromLow := compareScaled d.digits d.exponent low (x.q - 2)
  let fromHigh := compareScaled d.digits d.exponent high (x.q - 2)
  (fromLow == .gt || (closed && fromLow == .eq)) && (fromHigh == .lt || (closed && fromHigh == .eq))

/-- The least `k`, searched upwards from `start`, with `m * 2 ^ q < 10 ^ k`. -/
def scaleFrom (x : Binary) : Nat → Int → Int
  | 0, start => start
  | fuel + 1, start =>
    if compareScaled 1 start x.m x.q == .gt then start else scaleFrom x fuel (start + 1)

def scale (x : Binary) : Int :=
  let log2 : Int := (x.m.log2 : Int) + x.q
  scaleFrom x 8 (Int.fdiv (log2 * 30103) 100000 - 2)

def floorOn (x : Binary) (exponent : Int) : Nat :=
  (x.m * Nat.pow 2 x.q.toNat * Nat.pow 10 (-exponent).toNat)
    / (Nat.pow 2 (-x.q).toNat * Nat.pow 10 exponent.toNat)

/-- On one decimal grid, the neighbour of `x` that reads back and is the closer one. -/
def onGrid? (x : Binary) (exponent : Int) : Option Scaled :=
  let below : Scaled := ⟨x.floorOn exponent, exponent⟩
  let above : Scaled := ⟨x.floorOn exponent + 1, exponent⟩
  match x.readsBack below && below.digits != 0, x.readsBack above with
  | true, true =>
    match compareScaled (below.digits + above.digits) exponent (2 * x.m) x.q with
    | .gt => some below
    | .lt => some above
    | .eq => some (if below.digits % 2 == 0 then below else above)
  | true, false => some below
  | false, true => some above
  | false, false => none

def stripZeros : Nat → Scaled → Scaled
  | 0, d => d
  | fuel + 1, d =>
    if d.digits != 0 && d.digits % 10 == 0 then stripZeros fuel
      ⟨d.digits / 10, d.exponent + 1⟩ else d

def exact (x : Binary) : Scaled :=
  if x.q < 0 then ⟨x.m * Nat.pow 5 (-x.q).toNat, x.q⟩ else ⟨x.m * Nat.pow 2 x.q.toNat, 0⟩

/-- The shortest decimal of a positive number, tried with one, two, ... seventeen digits. -/
def shortest (x : Binary) : Scaled :=
  let top := x.scale
  let found := (List.range 17).findSome? fun (n : Nat) => x.onGrid? (top - ((n : Int) + 1))
  let d := found.getD x.exact
  stripZeros (d.digits.log2 + 1) d

end Binary

end Polyloom.Decimal
