import Polyloom.Decimal.Reading
import Polyloom.Datum
import Polyloom.Text.Pieces
import Polyloom.Yaml.Node

/-!
What a document says, as plain data.

A plain scalar that looks like a truth value, a number or nothing is one; all other scalars
are texts.
-/

namespace Polyloom.Yaml

def truthWords : List (String × Bool) :=
  [("yes", true), ("no", false), ("true", true), ("false", false), ("on", true), ("off", false)]

def spellings (word : String) : List String :=
  [word, word.toUpper, word.capitalize]

def truth? (text : String) : Option Bool :=
  (truthWords.find? fun (word, _) => text ∈ spellings word).map Prod.snd

def isNull (text : String) : Bool := text = "" || text = "~" || text ∈ spellings "null"

/-! ## Numbers -/

def isDigitOrLine (c : Char) : Bool := c.isDigit || c = '_'

def digitsValue (base : Nat) (digits : List Char) : Option Nat :=
  if digits.isEmpty then none
  else digits.foldlM (fun n c => (hexDigit? c).bind fun d =>
    if d < base then some (base * n + d) else none) 0

def splitSign : List Char → Bool × List Char
  | '-' :: rest => (true, rest)
  | '+' :: rest => (false, rest)
  | text => (false, text)

def withSign (negative : Bool) (n : Nat) : Int := if negative then -(n : Int) else n

/-- A part of a number in base sixty: one digit or two, up to 59. -/
def isSixtieth (text : List Char) : Bool :=
  match text with
  | [a] => a.isDigit
  | [a, b] => '0' ≤ a && a ≤ '5' && b.isDigit
  | _ => false

/-- A whole number: binary, octal, decimal, hexadecimal or in base sixty.  The text may be
that of a number without being one, if it has no digits; then there is no value. -/
def int? (text : List Char) : Option (Option Int) :=
  let (negative, body) := splitSign text
  let value (base : Nat) (digits : List Char) :=
    some ((digitsValue base (digits.filter (· ≠ '_'))).map (withSign negative))
  match body with
  | ['0'] => some (some 0)
  | '0' :: 'b' :: rest =>
    if !rest.isEmpty && rest.all fun c => c = '0' || c = '1' || c = '_' then value 2 rest else none
  | '0' :: 'x' :: rest =>
    if !rest.isEmpty && rest.all fun c => (hexDigit? c).isSome || c =
      '_' then value 16 rest else none
  | '0' :: rest =>
    if rest.all fun c => ('0' ≤ c && c ≤ '7') || c = '_' then value 8 ('0' :: rest) else none
  | c :: rest =>
    if !c.isDigit then none
    else if rest.all isDigitOrLine then value 10 body
    else
      let first := body.takeWhile isDigitOrLine
      match body.dropWhile isDigitOrLine with
      | ':' :: more =>
        let parts := Text.pieces [':'] more
        if parts.all isSixtieth then
          let total := (first.filter (· ≠ '_') :: parts).foldl
            (fun n part => 60 * n + (digitsValue 10 part).getD 0) 0
          some (some (withSign negative total))
        else none
      | _ => none
  | [] => none

def exponent? : List Char → Option Int
  | [] => some 0
  | e :: sign :: digits =>
    if (e = 'e' || e = 'E') && digits.all Char.isDigit then
      match sign with
      | '+' => (digitsValue 10 digits).map fun n => (n : Int)
      | '-' => (digitsValue 10 digits).map fun n => -(n : Int)
      | _ => none
    else none
  | _ => none

def infinity : List (List Char) := [".inf", ".Inf", ".INF"].map String.toList

def notNumber : List (List Char) := [".nan", ".NaN", ".NAN"].map String.toList

def real? (text : List Char) : Option UInt64 :=
  let (negative, body) := splitSign text
  let signed := body.length < text.length
  if body ∈ infinity then some (if negative then 0xFFF0000000000000 else 0x7FF0000000000000)
  else if text ∈ notNumber then some 0x7FF8000000000000
  else
    let whole := body.takeWhile isDigitOrLine
    match body.dropWhile isDigitOrLine with
    | '.' :: rest =>
      let part := rest.takeWhile isDigitOrLine
      let tail := rest.dropWhile isDigitOrLine
      let starts := match whole, part with
        | c :: _, _ => c.isDigit
        | [], c :: _ => c.isDigit && !signed
        | [], [] => false
      if starts then (exponent? tail).map fun e =>
        let digits := (whole ++ part).filter (· ≠ '_')
        let places := (part.filter (· ≠ '_')).length
        Decimal.nearest negative ((digitsValue 10 digits).getD 0) (e - places)
      else none
    | _ => none

/-! ## Nodes as data -/

def tagOf (name : String) : Option String := some ("tag:yaml.org,2002:" ++ name)

def unknown {α : Type} : Except Fault α := .error (.malformed .content)

def ofInt (text : String) : Except Fault Datum :=
  match int? text.toList with
  | some (some n) => .ok (.int n)
  | _ => .error (.badValue "")

def ofReal (text : String) : Except Fault Datum :=
  match real? text.toList with
  | some bits => .ok (.real bits)
  | none => .error (.badValue "")

def ofPlain (text : String) : Except Fault Datum :=
  match truth? text with
  | some b => .ok (.bool b)
  | none =>
    if isNull text then .ok .null
    else if text = "<<" || text = "=" then unknown
    else match real? text.toList with
      | some bits => .ok (.real bits)
      | none => match int? text.toList with
          | some (some n) => .ok (.int n)
          | some none => .error (.badValue "")
          | none => .ok (.str text)

def ofScalar (tag : Option String) (plain : Bool) (text : String) : Except Fault Datum :=
  if tag = none then if plain then ofPlain text else .ok (.str text)
  else if tag = tagOf "str" then .ok (.str text)
  else if tag = tagOf "null" then .ok .null
  else if tag = tagOf "int" then ofInt text
  else if tag = tagOf "float" then ofReal text
  else if tag = tagOf "bool" then
    match truth? text.toLower with
    | some b => .ok (.bool b)
    | none => .error .noKey
  else unknown

def setEntry (key value : Datum) : List (Datum × Datum) → List (Datum × Datum)
  | [] => [(key, value)]
  | (k, v) :: rest => if k.same key then (k, value) :: rest else (k, v) :: setEntry key value rest

def isKey : Datum → Bool
  | .list _ | .map _ => false
  | _ => true

def isMerge : Node → Bool
  | .scalar none true "<<" => true
  | _ => false

mutual

def ofNode : Node → Except Fault Datum
  | .scalar tag plain text => ofScalar tag plain text
  | .sequence tag items =>
    if tag = none || tag = some "!" || tag = tagOf "seq" then return .list (← ofItems items)
    else unknown
  | .mapping tag entries =>
    if tag = none || tag = some "!" || tag = tagOf "map" then do
      let (merged, own) ← ofEntries entries
      return .map ((merged ++ own).foldl (fun acc (k, v) => setEntry k v acc) [])
    else unknown

def ofItems : List Node → Except Fault (List Datum)
  | [] => .ok []
  | item :: rest => do
    let d ← ofNode item
    return d :: (← ofItems rest)

def ofEntries : List (Node × Node) → Except Fault (List (Datum × Datum) × List (Datum × Datum))
  | [] => .ok ([], [])
  | (key, value) :: rest => do
    if isMerge key then
      let merged ← mergedEntries value
      let (others, own) ← ofEntries rest
      return (merged ++ others, own)
    else
      let k ← match key with
        | .scalar none true "=" => pure (.str "=")
        | _ => ofNode key
      unless isKey k do unknown
      let v ← ofNode value
      let (merged, own) ← ofEntries rest
      return (merged, (k, v) :: own)

/-- The entries of a mapping or of several, of which the first wins. -/
def mergedEntries : Node → Except Fault (List (Datum × Datum))
  | .mapping _ entries => do
    let (merged, own) ← ofEntries entries
    return merged ++ own
  | .sequence _ items => mergedItems items
  | .scalar _ _ _ => unknown

def mergedItems : List Node → Except Fault (List (Datum × Datum))
  | [] => .ok []
  | .mapping _ entries :: rest => do
    let (merged, own) ← ofEntries entries
    return (← mergedItems rest) ++ merged ++ own
  | _ :: _ => unknown

end

def load (text : List Char) : Except Fault Datum := do
  match ← Node.parse text with
  | some root => ofNode root
  | none => return .null

end Polyloom.Yaml
