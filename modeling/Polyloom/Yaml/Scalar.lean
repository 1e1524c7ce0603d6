import Polyloom.Yaml.Cursor

/-!
Reading the text of scalars: plain, quoted and block.

Every reader starts at the first character of the scalar and returns the text and the place
after it.  The loops take the number of characters left as their bound, since every round
passes over at least one.
-/

namespace Polyloom.Yaml

abbrev Chars := List Char × Cursor

/-! ## Plain scalars -/

def endsPlain (inFlow : Bool) (c following : Char) : Bool :=
  isSpacing c
    || (c = ':' && (isSpacing following || (inFlow && following ∈ [',', '[', ']', '\x7b', '\x7d'])))
    || (inFlow && c ∈ [',', '?', '[', ']', '\x7b', '\x7d'])

def plainRun (inFlow : Bool) : List Char → List Char
  | [] => []
  | c :: rest =>
    if endsPlain inFlow c (rest.headD endMark) then [] else c :: plainRun inFlow rest

def plainBreaks : Nat → Cursor → Option Chars
  | 0, c => some ([], c)
  | fuel + 1, c =>
    if c.peek = ' ' then plainBreaks fuel c.next
    else if isBreak c.peek then
      let (text, here) := c.lineBreak
      if here.atMark then none
      else (plainBreaks fuel here).map fun (more, after) => (text ++ more, after)
    else some ([], c)

def folded (first breaks : List Char) : List Char :=
  if first ≠ ['\n'] then first ++ breaks
  else if breaks.isEmpty then [' ']
  else breaks

/-- The spacing inside of a plain scalar: its text, the place after it, and whether it holds a
line break. -/
def plainSpacing (c : Cursor) : List Char × Cursor × Bool :=
  let (blanks, here) := c.span (· = ' ')
  if isBreak here.peek then
    let (first, after) := here.lineBreak
    if after.atMark then ([], after, true)
    else match plainBreaks (after.rest.length + 1) after with
      | none => ([], after, true)
      | some (breaks, later) => (folded first breaks, later, true)
  else (blanks, here, false)

/-- A plain scalar at least `least` columns deep: its text, the place after it, and whether a
line break follows its last word. -/
def plainFrom (inFlow : Bool) (least : Int) :
    Nat → List Char → Bool → Cursor → List Char × Cursor × Bool
  | 0, _, broken, c => ([], c, broken)
  | fuel + 1, spacing, broken, c =>
    let word := if c.peek = '#' then [] else plainRun inFlow c.rest
    if word.isEmpty then ([], c, broken)
    else
      let (next, here, brokenHere) := plainSpacing (c.skip word.length)
      if next.isEmpty || here.peek = '#' || (!inFlow && (here.column : Int) < least) then
        (spacing ++ word, here, brokenHere)
      else
        let (more, after, brokenAtEnd) := plainFrom inFlow least fuel next brokenHere here
        (spacing ++ word ++ more, after, brokenAtEnd)

/-! ## Quoted scalars -/

def escapes : List (Char × Char) :=
  [('0', '\x00'), ('a', '\x07'), ('b', '\x08'), ('t', '\t'), ('\t', '\t'), ('n', '\n'),
   ('v', '\x0b'), ('f', '\x0c'), ('r', '\r'), ('e', '\x1b'), (' ', ' '), ('"', '"'),
   ('\\', '\\'), ('/', '/'), ('N', '\x85'), ('_', '\xa0'), ('L', '\u2028'), ('P', '\u2029')]

def escapeWidths : List (Char × Nat) := [('x', 2), ('u', 4), ('U', 8)]

def hexDigit? (c : Char) : Option Nat :=
  if '0' ≤ c && c ≤ '9' then some (c.toNat - 48)
  else if 'a' ≤ c && c ≤ 'f' then some (c.toNat - 87)
  else if 'A' ≤ c && c ≤ 'F' then some (c.toNat - 55)
  else none

def hexValue? (digits : List Char) : Option Nat :=
  digits.foldlM (fun n c => (hexDigit? c).map (16 * n + ·)) 0

def quotedBreaks : Nat → Cursor → Except Fault Chars
  | 0, c => .ok ([], c)
  | fuel + 1, c =>
    if c.atMark then .error (.malformed .token)
    else
      let here := c.skipWhile fun x => x = ' ' || x = '\t'
      if isBreak here.peek then do
        let (text, after) := here.lineBreak
        let (more, later) ← quotedBreaks fuel after
        return (text ++ more, later)
      else .ok ([], here)

def quotedSpacing (c : Cursor) : Except Fault Chars := do
  let (blanks, here) := c.span fun x => x = ' ' || x = '\t'
  if here.peek = endMark then throw (.malformed .token)
  if isBreak here.peek then
    let (first, after) := here.lineBreak
    let (breaks, later) ← quotedBreaks (after.rest.length + 1) after
    return (folded first breaks, later)
  return (blanks, here)

def escaped (c : Cursor) : Except Fault Chars :=
  match escapes.lookup c.peek, escapeWidths.lookup c.peek with
  | some x, _ => .ok ([x], c.next)
  | none, some width =>
    let here := c.next
    let digits := here.rest.take width
    match hexValue? digits with
    | some n =>
      if digits.length = width then .ok ([Char.ofNat n], here.skip width)
      else .error (.malformed .token)
    | none => .error (.malformed .token)
  | none, none =>
    if isBreak c.peek then
      let (_, here) := c.lineBreak
      quotedBreaks (here.rest.length + 1) here
    else .error (.malformed .token)

def quotedFrom (double : Bool) : Nat → Cursor → Except Fault Chars
  | 0, _ => .error (.malformed .token)
  | fuel + 1, c => do
    let x := c.peek
    if x = '\x27' && !double then
      if c.peekAt 1 = '\x27' then
        let (more, here) ← quotedFrom double fuel (c.skip 2)
        return ('\x27' :: more, here)
      else return ([], c.next)
    else if x = '"' && double then return ([], c.next)
    else if x = '\\' && double then
      let (text, here) ← escaped c.next
      let (more, after) ← quotedFrom double fuel here
      return (text ++ more, after)
    else if isSpacing x then
      let (text, here) ← quotedSpacing c
      let (more, after) ← quotedFrom double fuel here
      return (text ++ more, after)
    else
      let (more, here) ← quotedFrom double fuel c.next
      return (x :: more, here)

def quoted (double : Bool) (c : Cursor) : Except Fault Chars :=
  quotedFrom double (c.rest.length + 1) c.next

/-! ## Block scalars -/

inductive Chomping where
  | strip
  | clip
  | keep
  deriving DecidableEq, Repr

def chomping? : Char → Option Chomping
  | '+' => some .keep
  | '-' => some .strip
  | _ => none

def depth? (c : Char) : Option Nat := if c.isDigit then some (c.toNat - 48) else none

def blockHeader (c : Cursor) : Except Fault (Chomping × Option Nat × Cursor) := do
  let (chomping, depth, c) := match chomping? c.peek with
    | some chomping => match depth? c.next.peek with
        | some n => (chomping, some n, c.skip 2)
        | none => (chomping, none, c.next)
    | none => match depth? c.peek with
        | some n => match chomping? c.next.peek with
            | some chomping => (chomping, some n, c.skip 2)
            | none => (Chomping.clip, some n, c.next)
        | none => (Chomping.clip, none, c)
  if depth = some 0 then throw (.malformed .token)
  unless isBreakOrEnd c.peek || c.peek = ' ' do throw (.malformed .token)
  let c := c.skipWhile (· = ' ')
  let c := if c.peek = '#' then c.skipWhile (!isBreakOrEnd ·) else c
  unless isBreakOrEnd c.peek do throw (.malformed .token)
  return (chomping, depth, c.lineBreak.2)

/-- Blank lines in front of a block scalar, with the deepest column they reach. -/
def blockLead : Nat → Nat → Cursor → List Char × Nat × Cursor
  | 0, deepest, c => ([], deepest, c)
  | fuel + 1, deepest, c =>
    if c.peek = ' ' then
      let here := c.next
      blockLead fuel (max deepest here.column) here
    else if isBreak c.peek then
      let (text, here) := c.lineBreak
      let (more, reached, after) := blockLead fuel deepest here
      (text ++ more, reached, after)
    else ([], deepest, c)

def toColumn (column : Nat) : Nat → Cursor → Cursor
  | 0, c => c
  | fuel + 1, c => if c.column < column && c.peek = ' ' then toColumn column fuel c.next else c

def blockBreaks (column : Nat) : Nat → Cursor → List Char × Cursor
  | 0, c => ([], c)
  | fuel + 1, c =>
    let here := toColumn column c.rest.length c
    if isBreak here.peek then
      let (text, after) := here.lineBreak
      let (more, later) := blockBreaks column fuel after
      (text ++ more, later)
    else ([], here)

def blockLines (fold : Bool) (column : Nat) :
    Nat → List Char → Cursor → List Char × List Char × List Char × Cursor
  | 0, breaks, c => ([], [], breaks, c)
  | fuel + 1, breaks, c =>
    if c.column = column && c.peek ≠ endMark then
      let leads := c.peek ≠ ' ' && c.peek ≠ '\t'
      let (line, here) := c.span (!isBreakOrEnd ·)
      let (lineBreak, after) := here.lineBreak
      let (breaksAfter, later) := blockBreaks column (after.rest.length + 1) after
      if later.column = column && later.peek ≠ endMark then
        let joint :=
          if fold && lineBreak = ['\n'] && leads && later.peek ≠ ' ' && later.peek ≠ '\t' then
            if breaksAfter.isEmpty then [' '] else []
          else lineBreak
        let (more, last, trailing, finish) := blockLines fold column fuel breaksAfter later
        (breaks ++ line ++ joint ++ more, last, trailing, finish)
      else (breaks ++ line, lineBreak, breaksAfter, later)
    else ([], [], breaks, c)

def block (fold : Bool) (indent : Int) (c : Cursor) : Except Fault Chars := do
  let (chomping, depth, c) ← blockHeader c.next
  let least := max 1 (indent + 1).toNat
  let bound := c.rest.length + 1
  let (column, breaks, c) := match depth with
    | none =>
      let (breaks, deepest, c) := blockLead bound 0 c
      (max least deepest, breaks, c)
    | some n =>
      let column := least + n - 1
      let (breaks, c) := blockBreaks column bound c
      (column, breaks, c)
  let (text, last, trailing, c) := blockLines fold column bound breaks c
  match chomping with
  | .strip => return (text, c)
  | .clip => return (text ++ last, c)
  | .keep => return (text ++ last ++ trailing, c)

end Polyloom.Yaml
