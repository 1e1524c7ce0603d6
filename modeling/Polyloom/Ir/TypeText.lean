import Polyloom.Text.Pieces

/-!
Types of the program that is being built, by their texts.

Two types are the same if their texts are; what kind of type a text is, and its parts, are
read off the text.
-/

namespace Polyloom

inductive TypeClass where
  | integer
  | index
  | f16
  | bf16
  | f32
  | f64
  | complex
  | memref
  | unrankedMemref
  | tensor
  | unrankedTensor
  | function
  | plain
  deriving DecidableEq, Repr

namespace TypeText

def dynamicSize : Int := -9223372036854775808

def widthDigits : List Char → List Char
  | 's' :: 'i' :: digits | 'u' :: 'i' :: digits | 'i' :: digits => digits
  | _ => []

def width? (text : String) : Option Nat :=
  match widthDigits text.toList with
  | [] => none
  | digits => if digits.all Char.isDigit then (String.ofList digits).toNat? else none

def classOf (text : String) : TypeClass :=
  if (width? text).isSome then .integer
  else match text with
    | "index" => .index
    | "f16" => .f16
    | "bf16" => .bf16
    | "f32" => .f32
    | "f64" => .f64
    | _ =>
      if Text.startsWith text "complex<" then .complex
      else if Text.startsWith text "memref<*x" then .unrankedMemref
      else if Text.startsWith text "memref<" then .memref
      else if Text.startsWith text "tensor<*x" then .unrankedTensor
      else if Text.startsWith text "tensor<" then .tensor
      else if Text.startsWith text "(" && Text.contains text ") -> (" then .function
      else .plain

def isFloat (text : String) : Bool :=
  match classOf text with
  | .f16 | .bf16 | .f32 | .f64 => true
  | _ => false

def floatWidth? (text : String) : Option Nat :=
  match classOf text with
  | .f16 | .bf16 => some 16
  | .f32 => some 32
  | .f64 => some 64
  | _ => none

/-! ## Shaped types -/

/-- One size in front of a type: digits, possibly negative, or the mark of an unknown size. -/
def sizeOf? (text : String) : Option Int :=
  if text = "?" then some dynamicSize else text.toInt?

def inner (text : String) : String :=
  String.ofList (((text.toList.dropWhile (· ≠ '<')).drop 1).dropLast)

def splitSizes : List String → List Int × List String
  | [] => ([], [])
  | [last] => ([], [last])
  | piece :: rest =>
    match sizeOf? piece with
    | some n =>
      let (sizes, element) := splitSizes rest
      (n :: sizes, element)
    | none => ([], piece :: rest)

def sizesAndElement (text : String) : List Int × String :=
  let (sizes, element) := splitSizes (Text.splitOn (inner text) "x")
  (sizes, "x".intercalate element)

def shape (text : String) : List Int := (sizesAndElement text).1

def element? (text : String) : Option String :=
  match classOf text with
  | .memref | .tensor => some (sizesAndElement text).2
  | .unrankedMemref | .unrankedTensor => some (Text.dropFront (inner text) 2)
  | .complex => some (inner text)
  | _ => none

def sizeText (n : Int) : String := if n = dynamicSize then "?" else n.repr

def ranked (kind : String) (sizes : List String) (element : String) : String :=
  kind ++ "<" ++ String.join (sizes.map (· ++ "x")) ++ element ++ ">"

def tensor (sizes : List Int) (element : String) : String :=
  ranked "tensor" (sizes.map sizeText) element

def unrankedMemref (element : String) : String := "memref<*x" ++ element ++ ">"

/-! ## Function types -/

def function (inputs results : List String) : String :=
  "(" ++ ", ".intercalate inputs ++ ") -> (" ++ ", ".intercalate results ++ ")"

/-- Cut a list of types at the commas that are outside of all brackets. -/
def cutTypes : Nat → List Char → List Char → List String
  | _, piece, [] => [String.ofList piece.reverse]
  | depth, piece, '-' :: '>' :: rest => cutTypes depth ('>' :: '-' :: piece) rest
  | depth, piece, ',' :: ' ' :: rest =>
    if depth = 0 then String.ofList piece.reverse :: cutTypes 0 [] rest
    else cutTypes depth (' ' :: ',' :: piece) rest
  | depth, piece, c :: rest =>
    if c = '<' || c = '(' || c = '[' then cutTypes (depth + 1) (c :: piece) rest
    else if c = '>' || c = ')' || c = ']' then cutTypes (depth - 1) (c :: piece) rest
    else cutTypes depth (c :: piece) rest

def typeList (text : List Char) : List String :=
  if text.isEmpty then [] else cutTypes 0 [] text

def upToClosing : Nat → List Char → List Char × List Char
  | _, [] => ([], [])
  | depth, c :: rest =>
    if c = '(' then
      let (a, b) := upToClosing (depth + 1) rest
      (c :: a, b)
    else if c = ')' then
      match depth with
      | 0 => ([], rest)
      | depth + 1 =>
        let (a, b) := upToClosing depth rest
        (c :: a, b)
    else
      let (a, b) := upToClosing depth rest
      (c :: a, b)

def signature (text : String) : List String × List String :=
  let (inputs, rest) := upToClosing 0 (text.toList.drop 1)
  let results := ((rest.dropWhile (· ≠ '(')).drop 1).dropLast
  (typeList inputs, typeList results)

def handle : Option String → String
  | none => "!pdl.operation"
  | some name => "!transform.op<\"" ++ name ++ "\">"

end TypeText

end Polyloom
