import Polyloom.Term.Basic

/-!
The order of the members of sums and products.

Terms are compared first by size and then by a key: numbers, then symbols, then products,
sums and powers by what they are built from, then remainders and floors.  A numeric factor
and an exponent are taken off before a term is ranked, so `3 * x` stands beside `x ^ 2`.
-/

namespace Polyloom

/-- What a term is ranked by, in the order of the fields. -/
inductive SortKey where
  | mk (rank family : Nat) (kind : String) (text : String) (parts exponent : List SortKey)
      (coefficient : Rat)
  deriving Repr, Inhabited

namespace SortKey

mutual

def cmp : SortKey → SortKey → Ordering
  | .mk r f k t ps es c, .mk r' f' k' t' ps' es' c' =>
    (compare r r').then <| (compare f f').then <| (compare k k').then <|
      (compare ps.length ps'.length).then <| (compare t t').then <|
        (cmpAll ps ps').then <| (cmpAll es es').then <|
          if c < c' then .lt else if c' < c then .gt else .eq

def cmpAll : List SortKey → List SortKey → Ordering
  | [], [] => .eq
  | [], _ :: _ => .lt
  | _ :: _, [] => .gt
  | a :: as, b :: bs => (cmp a b).then (cmpAll as bs)

end

def number (q : Rat) : SortKey := .mk 1 0 "Number" "" [] [] q

def unit : SortKey := number 1

def atom (kind name : String) : SortKey := .mk 2 0 kind name [] [unit] 1

def sort (keys : List SortKey) : List SortKey :=
  keys.mergeSort fun a b => (cmp a b).isLE

def withPower (exponent : SortKey) : SortKey → SortKey
  | .mk r f k t ps _ _ => .mk r f k t ps [exponent] 1

def withCoefficient (coefficient : Rat) : SortKey → SortKey
  | .mk r f k t ps e _ => .mk r f k t ps e coefficient

end SortKey

/--
A member of a sum, taken apart: its key, its numeric factor, and the integral powers of
its other factors, these by their keys.
-/
structure Monomial where
  term : Term
  key : SortKey
  coefficient : Rat
  powers : List (SortKey × Int)

namespace Monomial

def powerOf (m : Monomial) (base : SortKey) : Int :=
  match m.powers.find? fun (b, _) => SortKey.cmp b base == .eq with
  | some (_, e) => e
  | none => 0

def bases (ms : List Monomial) : List SortKey :=
  let all := SortKey.sort (ms.flatMap fun m => m.powers.map Prod.fst)
  all.foldr (fun b later => match later with
    | c :: _ => if SortKey.cmp b c == .eq then later else b :: later
    | [] => [b]) []

/-- Larger powers of earlier bases come first; equal members go by their numeric factor. -/
def cmpOver (m n : Monomial) : List SortKey → Ordering
  | [] => if m.coefficient < n.coefficient then .lt
      else if n.coefficient < m.coefficient then .gt else .eq
  | b :: rest => (compare (n.powerOf b) (m.powerOf b)).then (cmpOver m n rest)

def isNumber (m : Monomial) : Bool :=
  match m.term with
  | .num _ => true
  | _ => false

/-- A positive number beside a single negative multiple: the number is written first. -/
def numberFirst (ms : List Monomial) : Bool :=
  let negativeMultiple (m : Monomial) : Bool :=
    match m.term with
    | .prod [.num c, _] => c < 0
    | _ => false
  match ms with
  | [m, n] => (m.isNumber && 0 < m.coefficient && negativeMultiple n)
      || (n.isNumber && 0 < n.coefficient && negativeMultiple m)
  | _ => false

def written (ms : List Monomial) : List Monomial :=
  if numberFirst ms then ms.filter isNumber ++ ms.filter (!·.isNumber)
  else
    let shared := bases ms
    ms.mergeSort fun m n => (cmpOver m n shared).isLE

end Monomial

namespace Term

mutual

def sortKey : Term → SortKey
  | .num q => .number q
  | .sym s => .atom "Symbol" s
  | .infinity => .atom "ComplexInfinity" "zoo"
  | .undefined => .atom "NaN" "nan"
  | .sum ts => .mk 3 1 "Add" "" ((Monomial.written (monomials ts)).map Monomial.key) [.unit] 1
  | .prod [.num c, t] => SortKey.withCoefficient c t.sortKey
  | .prod (.num c :: ts) => .mk 3 0 "Mul" "" (SortKey.sort (sortKeys ts)) [.unit] c
  | .prod ts => .mk 3 0 "Mul" "" (SortKey.sort (sortKeys ts)) [.unit] 1
  | .pow b e => SortKey.withPower e.sortKey b.sortKey
  | .floor a => .mk 4 10000 "floor" "" [a.sortKey] [.unit] 1
  | .mod a b => .mk 4 10000 "Mod" "" [a.sortKey, b.sortKey] [.unit] 1

def sortKeys : List Term → List SortKey
  | [] => []
  | t :: ts => t.sortKey :: sortKeys ts

def monomials : List Term → List Monomial
  | [] => []
  | t :: ts => t.monomial :: monomials ts

def monomial : Term → Monomial
  | .num q => ⟨.num q, .number q, q, []⟩
  | .prod (.num c :: ts) => ⟨.prod (.num c :: ts), sortKey (.prod (.num c :: ts)), c, powersOf ts⟩
  | .prod ts => ⟨.prod ts, sortKey (.prod ts), 1, powersOf ts⟩
  | t => ⟨t, t.sortKey, 1, [t.powerKey]⟩

def powersOf : List Term → List (SortKey × Int)
  | [] => []
  | t :: ts => t.powerKey :: powersOf ts

def powerKey : Term → SortKey × Int
  | .pow b (.num e) => if e.den = 1 then (b.sortKey, e.num) else (sortKey (.pow b (.num e)), 1)
  | t => (t.sortKey, 1)

end

def before (s t : Term) : Bool :=
  ((compare s.size t.size).then (SortKey.cmp s.sortKey t.sortKey)).isLE

def arrange (ts : List Term) : List Term :=
  ts.mergeSort before

def writtenTerms (ts : List Term) : List Term :=
  (Monomial.written (monomials ts)).map Monomial.term

def writtenFactors (ts : List Term) : List Term :=
  ts.mergeSort fun s t => (SortKey.cmp s.sortKey t.sortKey).isLE

end Term

end Polyloom
