import Polyloom.Yaml.Token

/-!
The tree of a document.

A node is a scalar, a sequence or a mapping, possibly with a tag of its own.  An alias stands
for the node that carries its anchor.
-/

namespace Polyloom.Yaml

inductive Node where
  | scalar (tag : Option String) (plain : Bool) (text : String)
  | sequence (tag : Option String) (items : List Node)
  | mapping (tag : Option String) (entries : List (Node × Node))
  deriving Repr, Inhabited

structure NodeReader where
  tokens : TokenReader
  anchors : List (String × Node) := []
  openAnchors : List String := []
  deriving Repr

abbrev NodeStep (α : Type) := StateT NodeReader (Except Fault) α

namespace Node

def missing : Node := .scalar none true ""

def broken {α : Type} : NodeStep α := throw (.malformed .grammar)

def onTokens {α : Type} (step : TokenStep α) : NodeStep α := do
  let s ← get
  let (a, tokens) ← step.run s.tokens
  set { s with tokens }
  return a

def peek : NodeStep Token := onTokens TokenReader.peek

def drop : NodeStep Unit := do
  let _ ← onTokens TokenReader.take

def isNext (tokens : List Token) : NodeStep Bool := return (← peek) ∈ tokens

def accept (t : Token) : NodeStep Bool := do
  if (← peek) = t then
    drop
    return true
  return false

def fullTag : Option String → String → NodeStep String
  | none, suffix => return suffix
  | some "!", suffix => return "!" ++ suffix
  | some "!!", suffix => return "tag:yaml.org,2002:" ++ suffix
  | some _, _ => broken

def properties : NodeStep (Option String × Option String) := do
  match ← peek with
  | .anchor name => do
    drop
    match ← peek with
    | .tag handle suffix => do
      drop
      return (some name, some (← fullTag handle suffix))
    | _ => return (some name, none)
  | .tag handle suffix => do
    drop
    match ← peek with
    | .anchor name => do
      drop
      return (some name, some (← fullTag handle suffix))
    | _ => return (none, some (← fullTag handle suffix))
  | _ => return (none, none)

def anchored (anchor : Option String) (read : NodeStep Node) : NodeStep Node := do
  match anchor with
  | none => read
  | some name =>
    let s ← get
    if (s.anchors.lookup name).isSome || name ∈ s.openAnchors then throw (.malformed .reference)
    set { s with openAnchors := name :: s.openAnchors }
    let node ← read
    modify fun s => { s with anchors := (name, node) :: s.anchors }
    return node

def aliased (name : String) : NodeStep Node := do
  match (← get).anchors.lookup name with
  | some node => return node
  | none => throw (.malformed .reference)

def unlessNext (ends : List Token) (read : NodeStep Node) : NodeStep Node := do
  if ← isNext ends then return missing else read

def entry (read : NodeStep Node) (keyEnds valueEnds : List Token) : NodeStep (Node × Node) := do
  let key ← unlessNext keyEnds read
  let value ← if ← accept .value then unlessNext valueEnds read else pure missing
  return (key, value)

mutual

/-- A node; `block` allows block collections, and `bare` a sequence that is not indented. -/
def node : Nat → Bool → Bool → NodeStep Node
  | 0, _, _ => broken
  | fuel + 1, block, bare => do
    match ← peek with
    | .alias name =>
      drop
      aliased name
    | _ =>
      let (anchor, tag) ← properties
      let next ← peek
      if bare && next = .blockEntry then
        anchored anchor do return .sequence tag (← bareItems fuel)
      else match next with
        | .scalar text plain =>
          drop
          anchored anchor
            (return if tag = some "!" then .scalar none true text else .scalar tag plain text)
        | .flowSequenceStart =>
          drop
          anchored anchor do return .sequence tag (← flowItems fuel true)
        | .flowMappingStart =>
          drop
          anchored anchor do return .mapping tag (← flowEntries fuel true)
        | _ =>
          if block && next = .blockSequenceStart then
            drop
            anchored anchor do return .sequence tag (← blockItems fuel)
          else if block && next = .blockMappingStart then
            drop
            anchored anchor do return .mapping tag (← blockEntries fuel)
          else if anchor.isSome || tag.isSome then
            anchored anchor (return if tag = some "!" then missing else .scalar tag true "")
          else broken

def blockItems : Nat → NodeStep (List Node)
  | 0 => broken
  | fuel + 1 => do
    if ← accept .blockEntry then
      let item ← unlessNext [.blockEntry, .blockEnd] (node fuel true false)
      return item :: (← blockItems fuel)
    else if ← accept .blockEnd then return []
    else broken

def bareItems : Nat → NodeStep (List Node)
  | 0 => broken
  | fuel + 1 => do
    if ← accept .blockEntry then
      let item ← unlessNext [.blockEntry, .key, .value, .blockEnd] (node fuel true false)
      return item :: (← bareItems fuel)
    else return []

def blockEntries : Nat → NodeStep (List (Node × Node))
  | 0 => broken
  | fuel + 1 => do
    if ← accept .key then
      let ends := [.key, .value, .blockEnd]
      let item ← entry (node fuel true true) ends ends
      return item :: (← blockEntries fuel)
    else if ← accept .blockEnd then return []
    else broken

def flowItems : Nat → Bool → NodeStep (List Node)
  | 0, _ => broken
  | fuel + 1, first => do
    if ← accept .flowSequenceEnd then return []
    else
      unless first do
        unless ← accept .flowEntry do broken
      if ← accept .key then
        let item ← entry (node fuel false false) [.value, .flowEntry, .flowSequenceEnd]
          [.flowEntry, .flowSequenceEnd]
        return .mapping none [item] :: (← flowItems fuel false)
      else if ← accept .flowSequenceEnd then return []
      else
        let item ← node fuel false false
        return item :: (← flowItems fuel false)

def flowEntries : Nat → Bool → NodeStep (List (Node × Node))
  | 0, _ => broken
  | fuel + 1, first => do
    if ← accept .flowMappingEnd then return []
    else
      unless first do
        unless ← accept .flowEntry do broken
      if ← accept .key then
        let item ← entry (node fuel false false) [.value, .flowEntry, .flowMappingEnd]
          [.flowEntry, .flowMappingEnd]
        return item :: (← flowEntries fuel false)
      else if ← accept .flowMappingEnd then return []
      else
        let key ← node fuel false false
        return (key, missing) :: (← flowEntries fuel false)

end

def directives : Nat → Bool → NodeStep Unit
  | 0, _ => broken
  | fuel + 1, versioned => do
    match ← peek with
    | .directive "YAML" value =>
      drop
      if versioned || !(value.toList.takeWhile (· ≠ '.') = ['1']) then broken
      directives fuel true
    | .directive _ _ =>
      drop
      directives fuel versioned
    | _ => return ()

def skipDocumentEnds : Nat → NodeStep Unit
  | 0 => return ()
  | fuel + 1 => do if ← accept .documentEnd then skipDocumentEnds fuel

/-- Start a document that is marked as one; `false` at the end of the text. -/
def startDocument (fuel : Nat) : NodeStep Bool := do
  skipDocumentEnds fuel
  if ← isNext [.streamEnd] then return false
  directives fuel false
  if ← accept .documentStart then return true
  broken

def single (fuel : Nat) : NodeStep (Option Node) := do
  let marked ← match ← peek with
    | .directive _ _ | .documentStart | .streamEnd => pure true
    | _ => pure false
  if marked then
    unless ← startDocument fuel do return none
  let root ← match ← peek with
    | .directive _ _ | .documentStart | .documentEnd | .streamEnd =>
      if marked then pure missing else node fuel true false
    | _ => node fuel true false
  let _ ← accept .documentEnd
  if ← startDocument fuel then throw (.malformed .reference)
  return some root

def parse (text : List Char) : Except Fault (Option Node) :=
  if text.all isAllowed then
    ((single (8 * text.length + 16)).run { tokens := TokenReader.ofText text }).map Prod.fst
  else .error (.malformed .character)

end Node

end Polyloom.Yaml
