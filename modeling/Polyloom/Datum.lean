import Polyloom.Decimal.Notation
import Polyloom.Text.Quoted

/-!
Plain data: the option values of passes, the arguments of attribute texts and the contents
of documents.

`Datum.display` writes a datum so that its kind can be seen (texts are quoted);
`Datum.text` is the same except that a text stands for itself.
-/

namespace Polyloom

inductive Datum where
  | null
  | bool (b : Bool)
  | int (n : Int)
  | real (bits : UInt64)
  | str (s : String)
  | list (items : List Datum)
  /-- A mapping in the order of first insertion. -/
  | map (entries : List (Datum × Datum))
  deriving Repr, Inhabited

namespace Datum

mutual

def display : Datum → String
  | .null => "None"
  | .bool true => "True"
  | .bool false => "False"
  | .int n => n.repr
  | .real bits => Decimal.render bits
  | .str s => Text.quoted s
  | .list items => "[" ++ ", ".intercalate (displayAll items) ++ "]"
  | .map entries => "\x7b" ++ ", ".intercalate (displayEntries entries) ++ "\x7d"

def displayAll : List Datum → List String
  | [] => []
  | d :: rest => d.display :: displayAll rest

def displayEntries : List (Datum × Datum) → List String
  | [] => []
  | (k, v) :: rest => (k.display ++ ": " ++ v.display) :: displayEntries rest

end

def text : Datum → String
  | .str s => s
  | d => d.display

def number? : Datum → Option Rat
  | .bool b => some (if b then 1 else 0)
  | .int n => some n
  | .real bits =>
    if (bits >>> 52) &&& 0x7FF = 0x7FF then none
    else
      let x := Decimal.Binary.ofBits bits
      let size : Rat := (x.m * Nat.pow 2 x.q.toNat : Nat) / (Nat.pow 2 (-x.q).toNat : Rat)
      some (if bits >>> 63 = 1 then -size else size)
  | _ => none

mutual

/-- Do two data say the same?  Numbers are compared by value, mappings by what they map. -/
def same : Datum → Datum → Bool
  | .null, .null => true
  | .str s, .str t => s == t
  | .list xs, .list ys => sameAll xs ys
  | .map xs, .map ys => xs.length == ys.length && sameEntries xs ys
  | x, y => match x.number?, y.number? with
      | some p, some q => p == q
      | _, _ => false

def sameAll : List Datum → List Datum → Bool
  | [], [] => true
  | x :: xs, y :: ys => same x y && sameAll xs ys
  | _, _ => false

def sameEntries : List (Datum × Datum) → List (Datum × Datum) → Bool
  | [], _ => true
  | (k, v) :: rest, ys =>
    (ys.any fun (k', v') => same k k' && same v v') && sameEntries rest ys

end

def elements? : Datum → Option (List Datum)
  | .list items => some items
  | .str s => some (s.toList.map fun c => .str c.toString)
  | .map entries => some (entries.map Prod.fst)
  | _ => none

def truth : Datum → Bool
  | .null => false
  | .bool b => b
  | .int n => n ≠ 0
  | .real bits => bits <<< 1 ≠ 0
  | .str s => s ≠ ""
  | .list items => !items.isEmpty
  | .map entries => !entries.isEmpty

end Datum

end Polyloom
