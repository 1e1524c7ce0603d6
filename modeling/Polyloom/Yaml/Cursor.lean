import Polyloom.Fault

/-!
A place in a document: what is still to be read, with its line and column.
-/

namespace Polyloom.Yaml

def endMark : Char := '\x00'

def isBreak (c : Char) : Bool :=
  c = '\n' || c = '\r' || c = '\x85' || c = '\u2028' || c = '\u2029'

def isBreakOrEnd (c : Char) : Bool := isBreak c || c = endMark

def isSpacing (c : Char) : Bool := isBreakOrEnd c || c = ' ' || c = '\t'

def isAllowed (c : Char) : Bool :=
  let n := c.toNat
  n = 9 || n = 10 || n = 13 || (0x20 ≤ n && n ≤ 0x7E) || n = 0x85 || (0xA0 ≤ n && n ≤ 0xFFFD)
    || 0x10000 ≤ n

structure Cursor where
  rest : List Char
  index : Nat := 0
  line : Nat := 0
  column : Nat := 0
  deriving DecidableEq, Repr, Inhabited

namespace Cursor

def peekAt (c : Cursor) (distance : Nat) : Char := c.rest.getD distance endMark

def peek (c : Cursor) : Char := c.peekAt 0

def breaksBefore (c : Char) (rest : List Char) : Bool :=
  if c = '\r' then rest.head? ≠ some '\n' else isBreak c

def next (c : Cursor) : Cursor :=
  match c.rest with
  | [] => c
  | x :: rest =>
    if breaksBefore x rest then ⟨rest, c.index + 1, c.line + 1, 0⟩
    else ⟨rest, c.index + 1, c.line, if x = '\ufeff' then c.column else c.column + 1⟩

def skip : Nat → Cursor → Cursor
  | 0, c => c
  | n + 1, c => skip n c.next

def span (p : Char → Bool) (c : Cursor) : List Char × Cursor :=
  let taken := c.rest.takeWhile p
  (taken, c.skip taken.length)

def skipWhile (p : Char → Bool) (c : Cursor) : Cursor := (c.span p).2

/-- Pass over a line break, which reads as a line feed unless it is one of the separators of
lines and paragraphs; without one the text is empty. -/
def lineBreak (c : Cursor) : List Char × Cursor :=
  match c.rest with
  | '\r' :: '\n' :: _ => (['\n'], c.skip 2)
  | x :: _ =>
    if x = '\u2028' || x = '\u2029' then ([x], c.next)
    else if isBreak x then (['\n'], c.next)
    else ([], c)
  | [] => ([], c)

def atMark (c : Cursor) : Bool :=
  let start := c.rest.take 3
  (start = ['-', '-', '-'] || start = ['.', '.', '.']) && isSpacing (c.peekAt 3)

end Cursor

end Polyloom.Yaml
