import Polyloom.Text.Pieces

/-!
Blank characters, lines with their ends, and the left margin of a text.
-/

namespace Polyloom.Text

def isBlank (c : Char) : Bool :=
  let n := c.toNat
  (9 ≤ n && n ≤ 13) || (28 ≤ n && n ≤ 32) || n = 0x85 || n = 0xA0 || n = 0x1680
    || (0x2000 ≤ n && n ≤ 0x200A) || n = 0x2028 || n = 0x2029 || n = 0x202F || n = 0x205F
    || n = 0x3000

def stripFront (text : List Char) : List Char := text.dropWhile isBlank

def strip (text : List Char) : List Char :=
  (stripFront (stripFront text).reverse).reverse

def endsLine (c : Char) : Bool :=
  let n := c.toNat
  (10 ≤ n && n ≤ 13) || (28 ≤ n && n ≤ 30) || n = 0x85 || n = 0x2028 || n = 0x2029

def consLine (c : Char) : List (List Char) → List (List Char)
  | [] => [[c]]
  | line :: rest => (c :: line) :: rest

def fullLines : List Char → List (List Char)
  | [] => []
  | '\r' :: '\n' :: rest => ['\r', '\n'] :: fullLines rest
  | c :: rest => if endsLine c then [c] :: fullLines rest else consLine c (fullLines rest)

def isMargin (c : Char) : Bool := c = ' ' || c = '\t'

def sharedStart : List Char → List Char → List Char
  | x :: xs, y :: ys => if x = y then x :: sharedStart xs ys else []
  | _, _ => []

/-- The margin shared by all lines that hold more than a margin, `none` if there are none. -/
def sharedMargin : List (List Char) → Option (List Char)
  | [] => none
  | line :: rest =>
    if line.all isMargin then sharedMargin rest
    else
      let margin := line.takeWhile isMargin
      match sharedMargin rest with
      | none => some margin
      | some other => some (sharedStart margin other)

/-- A line without a margin; a line that is nothing but margin becomes empty. -/
def dropMargin (margin line : List Char) : List Char :=
  if line.all isMargin then []
  else if margin.isPrefixOf line then line.drop margin.length
  else line

def dedent (text : List Char) : List Char :=
  let lines := pieces ['\n'] text
  let margin := (sharedMargin lines).getD []
  ['\n'].intercalate (lines.map (dropMargin margin))

def indent (margin text : List Char) : List Char :=
  ((fullLines text).map fun line => if line.all isBlank then line else margin ++ line).flatten

end Polyloom.Text
