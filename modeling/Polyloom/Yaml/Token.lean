import Polyloom.Yaml.Scalar

/-!
The tokens of a document and the reader that finds them.

Block structure is found from columns: a deeper column opens a collection and a shallower one
closes it.  That a token was the key of a mapping shows only at the colon after it, so the
reader notes where keys may have started and puts the key token in afterwards; a token is
handed out once it is certain that none has to come before it.
-/

namespace Polyloom.Yaml

inductive Token where
  | streamEnd
  | directive (name value : String)
  | documentStart
  | documentEnd
  | blockSequenceStart
  | blockMappingStart
  | blockEnd
  | flowSequenceStart
  | flowSequenceEnd
  | flowMappingStart
  | flowMappingEnd
  | blockEntry
  | flowEntry
  | key
  | value
  | alias (name : String)
  | anchor (name : String)
  | tag (handle : Option String) (suffix : String)
  | scalar (text : String) (plain : Bool)
  deriving DecidableEq, Repr

structure KeyPlace where
  token : Nat
  /-- The key has to be one: nothing else may stand at its column. -/
  required : Bool
  index : Nat
  line : Nat
  column : Nat
  deriving DecidableEq, Repr

structure TokenReader where
  cursor : Cursor
  ended : Bool := false
  queue : List Token := []
  taken : Nat := 0
  /-- The column of the innermost block collection, -1 outside of all. -/
  indent : Int := -1
  outerIndents : List Int := []
  flow : Int := 0
  keyAllowed : Bool := true
  keyPlaces : List (Int × KeyPlace) := []
  deriving Repr

abbrev TokenStep (α : Type) := StateT TokenReader (Except Fault) α

namespace TokenReader

def ofText (text : List Char) : TokenReader := { cursor := { rest := text } }

def inFlow (r : TokenReader) : Bool := r.flow ≠ 0

def stop {α : Type} : TokenStep α := throw (.malformed .token)

def emit (t : Token) : TokenStep Unit := modify fun r => { r with queue := r.queue ++ [t] }

def allowKey (allowed : Bool) : TokenStep Unit := modify fun r => { r with keyAllowed := allowed }

def moveTo (c : Cursor) : TokenStep Unit := modify fun r => { r with cursor := c }

def advance (n : Nat) : TokenStep Unit := modify fun r => { r with cursor := r.cursor.skip n }

/-! ## Places of keys -/

/-- Forget the place on the current level; a required key must not be forgotten. -/
def forgetKey : TokenStep Unit := do
  let r ← get
  if (r.keyPlaces.lookup r.flow).any KeyPlace.required then stop
  set { r with keyPlaces := r.keyPlaces.filter fun (level, _) => level ≠ r.flow }

def isStale (c : Cursor) (k : KeyPlace) : Bool := k.line ≠ c.line || 1024 < c.index - k.index

def forgetStaleKeys : TokenStep Unit := do
  let r ← get
  if r.keyPlaces.any fun (_, k) => isStale r.cursor k && k.required then stop
  set { r with keyPlaces := r.keyPlaces.filter fun (_, k) => !isStale r.cursor k }

def noteKey : TokenStep Unit := do
  let r ← get
  let required := !r.inFlow && r.indent = r.cursor.column
  if r.keyAllowed then
    forgetKey
    let place : KeyPlace :=
      ⟨r.taken + r.queue.length, required, r.cursor.index, r.cursor.line, r.cursor.column⟩
    modify fun r => { r with keyPlaces := (r.flow, place) :: r.keyPlaces }

/-! ## Columns of block collections -/

def closeBeyond (column : Int) : List Int → Int → List Token → List Int × Int × List Token
  | [], indent, tokens =>
    if indent ≤ column then ([], indent, tokens) else ([], -1, tokens ++ [.blockEnd])
  | outer :: rest, indent, tokens =>
    if indent ≤ column then (outer :: rest, indent, tokens)
    else closeBeyond column rest outer (tokens ++ [.blockEnd])

def unwind (column : Int) : TokenStep Unit :=
  modify fun r =>
    if r.inFlow || r.indent ≤ column then r
    else
      let (outer, indent, tokens) := closeBeyond column r.outerIndents r.indent []
      { r with outerIndents := outer, indent := indent, queue := r.queue ++ tokens }

def deepen (column : Int) : TokenStep Bool := do
  let r ← get
  if r.indent < column then
    set { r with indent := column, outerIndents := r.indent :: r.outerIndents }
    return true
  return false

/-! ## Tokens -/

def skipSpacing : Nat → TokenStep Unit
  | 0 => return ()
  | fuel + 1 => do
    let r ← get
    let c := r.cursor.skipWhile (· = ' ')
    let c := if c.peek = '#' then c.skipWhile (!isBreakOrEnd ·) else c
    if isBreak c.peek then
      set { r with cursor := c.lineBreak.2, keyAllowed := r.keyAllowed || !r.inFlow }
      skipSpacing fuel
    else moveTo c

def closeAll : TokenStep Unit := do
  unwind (-1)
  forgetKey
  allowKey false

def fetchEnd : TokenStep Unit := do
  closeAll
  modify fun r => { r with keyPlaces := [], ended := true }
  emit .streamEnd

def isNameChar (c : Char) : Bool := c.isAlphanum || c = '-' || c = '_'

def isVersion (text : List Char) : Bool :=
  let (major, rest) := text.span Char.isDigit
  match rest with
  | '.' :: minor => !major.isEmpty && !minor.isEmpty && minor.all Char.isDigit
  | _ => false

def fetchDirective : TokenStep Unit := do
  closeAll
  let c := (← get).cursor.next
  let (name, c) := c.span isNameChar
  if name.isEmpty || !(isBreakOrEnd c.peek || c.peek = ' ') then stop
  let (line, c) := c.span (!isBreakOrEnd ·)
  let value := (line.dropWhile (· = ' ')).takeWhile (· ≠ ' ')
  if name = "YAML".toList && !isVersion value then stop
  moveTo c.lineBreak.2
  emit (.directive (String.ofList name) (String.ofList value))

def fetchMark (t : Token) : TokenStep Unit := do
  closeAll
  advance 3
  emit t

def fetchFlowStart (t : Token) : TokenStep Unit := do
  noteKey
  modify fun r => { r with flow := r.flow + 1 }
  allowKey true
  advance 1
  emit t

def fetchFlowEnd (t : Token) : TokenStep Unit := do
  forgetKey
  modify fun r => { r with flow := r.flow - 1 }
  allowKey false
  advance 1
  emit t

def fetchFlowEntry : TokenStep Unit := do
  allowKey true
  forgetKey
  advance 1
  emit .flowEntry

def openBlock (start : Token) : TokenStep Unit := do
  let r ← get
  unless r.inFlow do
    unless r.keyAllowed do stop
    if ← deepen r.cursor.column then emit start

def fetchBlockEntry : TokenStep Unit := do
  openBlock .blockSequenceStart
  allowKey true
  forgetKey
  advance 1
  emit .blockEntry

def fetchKey : TokenStep Unit := do
  openBlock .blockMappingStart
  allowKey !(← get).inFlow
  forgetKey
  advance 1
  emit .key

def insertAt (number : Nat) (t : Token) : TokenStep Unit :=
  modify fun r =>
    let n := number - r.taken
    { r with queue := r.queue.take n ++ t :: r.queue.drop n }

def fetchValue : TokenStep Unit := do
  let r ← get
  match r.keyPlaces.lookup r.flow with
  | some k =>
    set { r with keyPlaces := r.keyPlaces.filter fun (level, _) => level ≠ r.flow }
    insertAt k.token .key
    unless r.inFlow do
      if ← deepen k.column then insertAt k.token .blockMappingStart
    allowKey false
  | none =>
    openBlock .blockMappingStart
    allowKey !r.inFlow
    forgetKey
  advance 1
  emit .value

def fetchName (make : String → Token) : TokenStep Unit := do
  noteKey
  allowKey false
  let (name, c) := (← get).cursor.next.span isNameChar
  if name.isEmpty then stop
  unless isSpacing c.peek || c.peek ∈ "?:,]\x7d%@`".toList do stop
  moveTo c
  emit (make (String.ofList name))

def isTagChar (c : Char) : Bool := c.isAlphanum || c ∈ "-;/?:@&=+$,_.!~*'()[]%".toList

def readTag (c : Cursor) : Except Fault (Option String × String × Cursor) :=
  if c.peekAt 1 = '<' then
    let (suffix, c) := (c.skip 2).span isTagChar
    if suffix.isEmpty || c.peek ≠ '>' then .error (.malformed .token)
    else .ok (none, String.ofList suffix, c.next)
  else if isSpacing (c.peekAt 1) then .ok (none, "!", c.next)
  else
    let word := c.next.rest.takeWhile fun x => !(isBreakOrEnd x || x = ' ')
    if '!' ∈ word then
      let name := c.next.rest.takeWhile isNameChar
      let c := c.skip (name.length + 1)
      let (suffix, rest) := c.next.span isTagChar
      if c.peek ≠ '!' || suffix.isEmpty then .error (.malformed .token)
      else .ok (some (String.ofList ('!' :: name ++ ['!'])), String.ofList suffix, rest)
    else
      let (suffix, rest) := c.next.span isTagChar
      if suffix.isEmpty then .error (.malformed .token)
      else .ok (some "!", String.ofList suffix, rest)

def fetchTag : TokenStep Unit := do
  noteKey
  allowKey false
  let (handle, suffix, c) ← readTag (← get).cursor
  unless isBreakOrEnd c.peek || c.peek = ' ' do stop
  moveTo c
  emit (.tag handle suffix)

def fetchBlockScalar (fold : Bool) : TokenStep Unit := do
  allowKey true
  forgetKey
  let r ← get
  let (text, c) ← block fold r.indent r.cursor
  moveTo c
  emit (.scalar (String.ofList text) false)

def fetchQuoted (double : Bool) : TokenStep Unit := do
  noteKey
  allowKey false
  let (text, c) ← quoted double (← get).cursor
  moveTo c
  emit (.scalar (String.ofList text) false)

def fetchPlain : TokenStep Unit := do
  noteKey
  let r ← get
  let (text, c, broken) :=
    plainFrom r.inFlow (r.indent + 1) (r.cursor.rest.length + 1) [] false r.cursor
  allowKey broken
  moveTo c
  emit (.scalar (String.ofList text) true)

def startsPlain (r : TokenReader) : Bool :=
  let c := r.cursor.peek
  !(isSpacing c || c ∈ "-?:,[]\x7b\x7d#&*!|>'\"%@`".toList)
    || (!isSpacing (r.cursor.peekAt 1) && (c = '-' || (!r.inFlow && (c = '?' || c = ':'))))

def fetch : TokenStep Unit := do
  let r ← get
  if r.cursor.index = 0 && r.cursor.peek = '\ufeff' then advance 1
  skipSpacing (r.cursor.rest.length + 1)
  forgetStaleKeys
  unwind (← get).cursor.column
  let r ← get
  let c := r.cursor
  let spaced := isSpacing (c.peekAt 1)
  let atEdge := c.column = 0
  if c.rest.isEmpty then fetchEnd
  else if c.peek = '%' && atEdge then fetchDirective
  else if c.peek = '-' && atEdge && c.atMark then fetchMark .documentStart
  else if c.peek = '.' && atEdge && c.atMark then fetchMark .documentEnd
  else match c.peek with
    | '[' => fetchFlowStart .flowSequenceStart
    | '\x7b' => fetchFlowStart .flowMappingStart
    | ']' => fetchFlowEnd .flowSequenceEnd
    | '\x7d' => fetchFlowEnd .flowMappingEnd
    | ',' => fetchFlowEntry
    | '*' => fetchName .alias
    | '&' => fetchName .anchor
    | '!' => fetchTag
    | '\x27' => fetchQuoted false
    | '"' => fetchQuoted true
    | x =>
      if x = '-' && spaced then fetchBlockEntry
      else if x = '?' && (r.inFlow || spaced) then fetchKey
      else if x = ':' && (r.inFlow || spaced) then fetchValue
      else if x = '|' && !r.inFlow then fetchBlockScalar false
      else if x = '>' && !r.inFlow then fetchBlockScalar true
      else if r.startsPlain then fetchPlain
      else stop

/-- Could the next token still get a key token in front of it? -/
def isOpen (r : TokenReader) : Bool := r.keyPlaces.any fun (_, k) => k.token = r.taken

def settle : Nat → TokenStep Unit
  | 0 => return ()
  | fuel + 1 => do
    let r ← get
    if r.ended then return ()
    if r.queue.isEmpty then
      fetch
      settle fuel
    else
      forgetStaleKeys
      if (← get).isOpen then
        fetch
        settle fuel

def peek : TokenStep Token := do
  let r ← get
  settle (r.cursor.rest.length + 2)
  return (← get).queue.headD .streamEnd

def take : TokenStep Token := do
  let t ← peek
  modify fun r => { r with queue := r.queue.tail, taken := r.taken + 1 }
  return t

end TokenReader

end Polyloom.Yaml
