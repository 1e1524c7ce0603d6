/-!
Cutting text at a separator and gluing it together again.

All functions work on lists of characters; the versions on strings only convert.
A separator is found from the left and its occurrences do not overlap.
-/

namespace Polyloom.Text

/--
The piece before the first occurrence of `separator` and the pieces after it.
`skip` counts the characters of an occurrence that are still to be passed over.
-/
def cut (separator : List Char) : Nat → List Char → List Char × List (List Char)
  | _, [] => ([], [])
  | skip + 1, _ :: rest => cut separator skip rest
  | 0, c :: rest =>
    if separator.isPrefixOf (c :: rest) then
      let (piece, pieces) := cut separator (separator.length - 1) rest
      ([], piece :: pieces)
    else
      let (piece, pieces) := cut separator 0 rest
      (c :: piece, pieces)

def pieces (separator text : List Char) : List (List Char) :=
  let (piece, rest) := cut separator 0 text
  piece :: rest

def replaceAll (pattern new text : List Char) : List Char :=
  new.intercalate (pieces pattern text)

def occurs (part : List Char) : List Char → Bool
  | [] => part.isEmpty
  | c :: rest => part.isPrefixOf (c :: rest) || occurs part rest

def splitOn (text separator : String) : List String :=
  (pieces separator.toList text.toList).map String.ofList

def replace (text pattern new : String) : String :=
  String.ofList (replaceAll pattern.toList new.toList text.toList)

def contains (text part : String) : Bool :=
  occurs part.toList text.toList

def startsWith (text part : String) : Bool :=
  part.toList.isPrefixOf text.toList

def endsWith (text part : String) : Bool :=
  part.toList.isSuffixOf text.toList

def dropFront (text : String) (n : Nat) : String :=
  String.ofList (text.toList.drop n)

def lastPiece (text separator : String) : String :=
  (splitOn text separator).getLastD ""

def lines (text : String) : List String :=
  splitOn text "\n"

/-- Carriage returns, alone or before a line feed, read as line feeds. -/
def universalNewlines : List Char → List Char
  | [] => []
  | '\r' :: '\n' :: rest => '\n' :: universalNewlines rest
  | c :: rest => (if c = '\r' then '\n' else c) :: universalNewlines rest

end Polyloom.Text
