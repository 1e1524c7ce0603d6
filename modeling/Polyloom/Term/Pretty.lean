import Polyloom.Term.Written
import Polyloom.Text.Pieces

/-!
Terms as pictures of text: fractions are stacked, exponents are raised, and brackets grow with
what they hold.
-/

namespace Polyloom

inductive Binding where
  | atom
  | function
  | fraction
  | power
  | product
  | negation
  | sum
  | open
  deriving DecidableEq, Repr, Inhabited

def Binding.rank : Binding → Nat
  | .atom => 0
  | .function => 1
  | .fraction => 2
  | .power => 3
  | .product => 4
  | .negation => 5
  | .sum => 6
  | .open => 7

/-- Lines of one width, the line that they are aligned on, and their outermost operation. -/
structure Picture where
  lines : List (List Char)
  baseline : Nat := 0
  binding : Binding := .atom
  deriving DecidableEq, Repr, Inhabited

namespace Picture

def ofText (s : String) : Picture := { lines := [s.toList] }

def height (p : Picture) : Nat := p.lines.length

def width (p : Picture) : Nat := (p.lines.map List.length).foldl max 0

def blanks (n : Nat) : List Char := List.replicate n ' '

def padTo (above below : Nat) (p : Picture) : List (List Char) :=
  List.replicate (above - p.baseline) (blanks p.width) ++ p.lines
    ++ List.replicate (below - (p.height - p.baseline)) (blanks p.width)

def beside (p q : Picture) : Picture :=
  let above := max p.baseline q.baseline
  let below := max (p.height - p.baseline) (q.height - q.baseline)
  { lines := List.zipWith (· ++ ·) (p.padTo above below) (q.padTo above below), baseline := above }

def row : List Picture → Picture
  | [] => ofText ""
  | p :: rest => rest.foldl beside p

/-- A line in the middle of a width; of an odd rest, the wider part goes to the left of an odd
width and to the right of an even one. -/
def center (width : Nat) (line : List Char) : List Char :=
  let rest := width - line.length
  let left := rest / 2 + (if rest % 2 = 1 && width % 2 = 1 then 1 else 0)
  blanks left ++ line ++ blanks (rest - left)

def stack (ps : List Picture) : List (List Char) :=
  let width := (ps.map Picture.width).foldl max 0
  ps.flatMap fun p => p.lines.map (center width)

def bracket (single top middle bottom : Char) (height : Nat) : List (List Char) :=
  if height = 1 then [[single]]
  else [top] :: List.replicate (height - 2) [middle] ++ [[bottom]]

def brackets (p : Picture) : Picture :=
  let left : Picture := { lines := bracket '(' '/' '|' '\\' p.height, baseline := p.baseline }
  let right : Picture := { lines := bracket ')' '\\' '|' '/' p.height, baseline := p.baseline }
  row [left, p, right]

def bracketsIf (b : Bool) (p : Picture) : Picture := if b then p.brackets else p

def looser (p : Picture) (b : Binding) : Bool := b.rank < p.binding.rank

def sum : List Picture → Picture
  | [] => ofText ""
  | p :: rest =>
    let parts := rest.flatMap fun q =>
      let shown := q.bracketsIf (q.looser .negation)
      if q.binding = .negation then [shown] else [ofText " + ", shown]
    { row (p.bracketsIf (p.looser .negation) :: parts) with binding := .sum }

def negated (first : Bool) (p : Picture) : Picture :=
  let sign := if first then if 1 < p.height then "- " else "-" else " - "
  { row [ofText sign, p.bracketsIf (p.looser .negation)] with binding := .negation }

def startsWithMinus (p : Picture) : Bool :=
  match p.lines with
  | ('-' :: _) :: _ => true
  | _ => false

def product : List Picture → Picture
  | [] => ofText "1"
  | [p] => p
  | p :: rest =>
    let shown (q : Picture) := q.bracketsIf (q.looser .product && q.binding ≠ .negation)
    let times := rest.flatMap fun q => [ofText "*", shown q]
    let parts := if p.lines = ["-1".toList] then ofText "-" :: times.drop 1 else shown p :: times
    let negative := parts.head?.any startsWithMinus
    { row parts with binding := if negative then .negation else .product }

def fraction (above below : Picture) : Picture :=
  let above' := above.bracketsIf (above.binding = .fraction)
  let below' := below.bracketsIf (below.binding = .fraction)
  let top := if above.binding = .negation then row [above', ofText " "] else above'
  let width := max top.width below'.width
  let bar : Picture := { lines := [List.replicate width '-'] }
  { lines := stack [top, bar, below'], baseline := top.height, binding := .fraction }

def power (base exponent : Picture) : Picture :=
  let base :=
    base.bracketsIf (base.looser .function || (base.binding = .function && 1 < exponent.height))
  let exponent := exponent.bracketsIf (exponent.binding = .power)
  let top := row [ofText (String.ofList (blanks base.width)), exponent]
  let bottom := row [base, ofText (String.ofList (blanks exponent.width))]
  { lines := stack [top, bottom], baseline := exponent.height + base.baseline, binding := .power }

def functionPower (name : String) (exponent arg : Picture) : Picture :=
  row [ofText name, { exponent with baseline := exponent.height }, arg.brackets]

def render (p : Picture) : List String :=
  p.lines.map fun line => String.ofList (line.reverse.dropWhile (· = ' ')).reverse

end Picture

namespace Term

def numPicture (q : Rat) : Picture :=
  if q.den = 1 then { Picture.ofText q.num.repr with binding := if q < 0 then .negation else .atom }
  else if 10 ≤ q.num.natAbs && 10 ≤ q.den then
    .fraction { Picture.ofText q.num.repr with binding := if q < 0 then .negation else .atom }
      (.ofText q.den.repr)
  else .ofText (numText q)

def splitCoefficient : List Term → Rat × List Term
  | .num c :: rest => (c, rest)
  | rest => (1, rest)

/-- The exponent under which a power stands below a fraction bar. -/
def divisorExponent? : Term → Option Rat
  | .pow _ (.num e) => if e < 0 then some (-e) else none
  | _ => none

def pictureWithin : Nat → Term → Picture
  | 0, _ => .ofText ""
  | fuel + 1, t =>
    let divisor (s : Term) : Picture := match s with
      | .pow b (.num e) =>
        if e = -1 then pictureWithin fuel b else pictureWithin fuel (.pow b (.num (-e)))
      | s => pictureWithin fuel s
    let product (c : Rat) (factors : List Term) : Picture :=
      let above := (if c.num = 1 then [] else [numPicture c.num])
        ++ (factors.filter fun s => s.divisorExponent?.isNone).map (pictureWithin fuel)
      let below := (if c.den = 1 then [] else [numPicture c.den])
        ++ (factors.filter fun s => s.divisorExponent?.isSome).map divisor
      if below.isEmpty then .product above
      else .fraction (.product (if above.isEmpty then [.ofText "1"] else above)) (.product below)
    match t with
    | .num q => numPicture q
    | .sym s => .ofText s
    | .infinity => .ofText "zoo"
    | .undefined => .ofText "nan"
    | .floor a =>
      { Picture.row [.ofText "floor", (pictureWithin fuel a).brackets] with binding := .function }
    | .mod a b =>
      let left := pictureWithin fuel a
      { Picture.row [left.bracketsIf (left.looser .product), .ofText " mod ", pictureWithin fuel b]
        with binding := .open }
    | .pow b e =>
      match t.divisorExponent?, b with
      | some _, _ => .fraction (.ofText "1") (divisor t)
      | none, .floor a =>
        let exponent := pictureWithin fuel e
        if exponent.height = 1 then .functionPower "floor" exponent (pictureWithin fuel a)
        else .power (pictureWithin fuel b) exponent
      | none, _ => .power (pictureWithin fuel b) (pictureWithin fuel e)
    | .prod ts =>
      let (c, rest) := splitCoefficient ts
      product c (writtenFactors rest)
    | .sum ts =>
      let terms := writtenTerms ts
      let isFraction (s : Term) : Bool := match s with
        | .num q => q.den ≠ 1
        | _ => false
      let positive (s : Term) : Bool × Picture := match s with
        | .num q => (0 ≤ q, numPicture (if q < 0 then -q else q))
        | .prod (.num c :: rest) =>
          if c < 0 then
            (false, match c, rest with
              | -1, [single] => pictureWithin fuel single
              | c, rest => product (-c) (writtenFactors rest))
          else (true, pictureWithin fuel s)
        | s => (true, pictureWithin fuel s)
      let tall := terms.any fun s => !isFraction s && 1 < (positive s).2.height
      let parts := terms.zipIdx.map fun (s, i) =>
        let (plus, p) := positive s
        let p := match s with
          | .num q =>
            if isFraction s && tall then
              Picture.fraction (.ofText q.num.natAbs.repr) (.ofText q.den.repr)
            else p
          | _ => p
        if plus then p else p.negated (i = 0)
      .sum parts

def picture (t : Term) : Picture := pictureWithin (t.size + 1) t

end Term

namespace Proposition

def picture : Proposition → Picture
  | .truth b => .ofText (if b then "True" else "False")
  | .compare op l r =>
    let sign := match op with
      | .le => "<="
      | .lt => "<"
      | .ge => ">="
      | .gt => ">"
      | .eq => "="
      | .ne => "!="
    { Picture.row [l.picture, .ofText (" " ++ sign ++ " "), r.picture] with binding := .open }

end Proposition

def Denotation.picture : Denotation → Picture
  | .term t => t.picture
  | .prop p => p.picture

def bracedPictures (ps : List Picture) : List String :=
  let item (p : Picture) (last : Bool) : String :=
    "  " ++ "\n".intercalate p.render ++ (if last then "\n" else ", \n")
  Text.lines ("\n\x7b\n"
    ++ String.join (ps.zipIdx.map fun (p, i) => item p (i + 1 = ps.length)) ++ "\x7d")

end Polyloom
