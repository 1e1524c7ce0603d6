/-!
Ranges of code points, given by the lengths of the runs in and between them.

The lengths are written in base sixty-two, where digits come before small and capital letters.
A length of several digits stands behind a mark of their number.
-/

namespace Polyloom.Text

/-- The ranges from a code point on, where the listed numbers of code points are, in turn, left
out and taken. -/
def rangesFrom (start : Nat) : List Nat → List (Nat × Nat)
  | left :: taken :: rest =>
    (start + left, start + left + taken - 1) :: rangesFrom (start + left + taken) rest
  | _ => []

def digitValue (c : Char) : Nat :=
  c.toNat - (if c.isDigit then 48 else if c.isLower then 87 else 29)

def numberOf (digits : List Char) : Nat := digits.foldl (fun n c => 62 * n + digitValue c) 0

def runLengths : List Char → List Nat
  | '.' :: a :: b :: rest => numberOf [a, b] :: runLengths rest
  | ':' :: a :: b :: c :: rest => numberOf [a, b, c] :: runLengths rest
  | ';' :: a :: b :: c :: d :: rest => numberOf [a, b, c, d] :: runLengths rest
  | a :: rest => digitValue a :: runLengths rest
  | [] => []

def rangesIn (runs : String) : List (Nat × Nat) :=
  rangesFrom 0 (runLengths (runs.toList.filter fun c => !c.isWhitespace))

end Polyloom.Text
