import Polyloom.Fault
import Polyloom.Term.Product

/-!
Floors and remainders in normal form.

A floor lets integers out.  A remainder by a number reduces constants, lets common factors
out and drops inner remainders that it makes superfluous.
-/

namespace Polyloom.Term

def floorOf (t : Term) : Term :=
  match t with
  | .num q => int q.floor
  | .infinity | .undefined => t
  | t =>
    let (integers, others) := t.summands.partition fun s => s.asInt?.isSome
    match add others with
    | .floor s => add (.floor s :: integers)
    | .num q => add (int q.floor :: integers)
    | s => add (.floor s :: integers)

def floorDiv (s t : Term) : Except Fault Term :=
  match s.asInt?, t.asInt? with
  | some m, some n => if n = 0 then .error .divisionByZero else .ok (int (Int.fdiv m n))
  | _, _ => .ok (floorOf (div s t))

mutual

def countMods : Term → Nat
  | .num _ | .sym _ | .infinity | .undefined => 0
  | .sum ts | .prod ts => countModsAll ts
  | .pow a b => a.countMods + b.countMods
  | .floor a => a.countMods
  | .mod a b => 1 + a.countMods + b.countMods

def countModsAll : List Term → Nat
  | [] => 0
  | t :: ts => t.countMods + countModsAll ts

end

mutual

def content : Term → Option Nat
  | .num q => if q.den = 1 then some q.num.natAbs else none
  | .sum ts => contentSum ts
  | .prod ts => contentProd ts
  | .pow b (.num e) =>
    if e.den = 1 ∧ 0 ≤ e.num then b.content.map (Nat.pow · e.num.toNat) else some 1
  | _ => some 1

def contentSum : List Term → Option Nat
  | [] => some 0
  | t :: ts => do return Nat.gcd (← t.content) (← contentSum ts)

def contentProd : List Term → Option Nat
  | [] => some 1
  | t :: ts => do return (← t.content) * (← contentProd ts)

end

def isNegative : Term → Bool
  | .num q => q < 0
  | .prod (.num c :: _) => c < 0
  | .sum ts =>
    let negatives := (ts.filter fun t => t.coefficient.1 < 0 || (match t with
      | .num q => q < 0
      | _ => false)).length
    if ts.length < 2 * negatives then true
    else if 2 * negatives < ts.length then false
    else SortKey.cmp (sortKey (.sum ts)) (neg (.sum ts)).sortKey == .lt
  | _ => false

def knownMod (p q : Term) : Except Fault (Option Term) :=
  if q = zero then .error .divisionByZero
  else if p = .undefined ∨ q = .undefined ∨ p = .infinity ∨ q = .infinity then
    .ok (some .undefined)
  else if p = zero ∨ p = q ∨ p = neg q then .ok (some zero)
  else match p, q with
    | .num a, .num b => .ok (some (.num (a - b * ((a / b).floor : Rat))))
    | _, _ => .ok none

/-- The product with every integer factor reduced, unless it would vanish. -/
def reduceFactors (n : Int) (factors : List Term) : Term :=
  mul (factors.map fun t => match t.asInt? with
    | some m => if Int.fmod m n = 0 then t else int (Int.fmod m n)
    | none => t)

/-- The dividend without what the divisor makes superfluous, or a finished remainder. -/
def denest (p q : Term) : Except Fault (Term ⊕ (Term × Term)) :=
  match p with
  | .mod a inner => do
    if (← knownMod inner q) == some zero then return .inr (a, q)
    else match inner, q with
      | .num i, .num n => if 0 ≤ i * (n - i) then return .inl p else return .inr (p, q)
      | _, _ => return .inr (p, q)
  | .prod [.num (-1), .mod a inner] => do
    if (← knownMod inner q) == some zero then return .inr (neg a, q)
    else match inner, q with
      | .num i, .num n => if i * (n + i) ≤ 0 then return .inl p else return .inr (p, q)
      | _, _ => return .inr (p, q)
  | .sum ts =>
    let inner := ts.filterMap fun t => match t with
      | .mod a b => some (a, b)
      | _ => none
    let outer := ts.filter fun t => match t with
      | .mod _ _ => false
      | _ => true
    if !inner.isEmpty && inner.all (fun (_, b) => b == q) then
      return .inr (add (outer ++ inner.map Prod.fst), q)
    else return .inr (p, q)
  | .prod ts =>
    match q.asInt? with
    | some n => if n = 1 then return .inr (p, q) else return .inr (reduceFactors n ts, q)
    | none => return .inr (p, q)
  | _ => return .inr (p, q)

def commonFactor (p q : Term) : Nat :=
  match p.content, q.asInt? with
  | some c, some n => if Nat.gcd c n.natAbs = 0 then 1 else Nat.gcd c n.natAbs
  | _, _ => 1

/-- The remainder of a flooring division, with a bound on how often it is simplified. -/
def modWithin : Nat → Term → Term → Except Fault Term
  | 0, p, q => do return (← knownMod p q).getD (.mod p q)
  | fuel + 1, p, q => do
    if let some r ← knownMod p q then return r
    match ← denest p q with
    | .inl r => return r
    | .inr (p', q') =>
      if p'.size < p.size && p'.countMods < p.countMods then return ← modWithin fuel p' q'
      let g : Rat := commonFactor p' q'
      let p₁ := if g = 1 then p' else mul [.num (1 / g), p']
      let q₁ := if g = 1 then q' else mul [.num (1 / g), q']
      let p₂ ← match p₁ with
        | .sum ts => do
          let reduced ← ts.mapM fun t => do
            let r ← modWithin fuel t q₁
            return if t.countMods < r.countMods then t else r
          pure (add reduced)
        | t => pure t
      let flip := p₂.isNegative && q₁.isNegative
      let (g, p₃, q₃) := if flip then (-g, neg p₂, neg q₁) else (g, p₂, q₁)
      match ← knownMod p₃ q₃ with
      | some r => return mul [r, .num g]
      | none =>
        if p₃ = p₁ ∧ q₃ = q₁ then return mul [.num g, .mod p₃ q₃]
        else return mul [.num g, ← modWithin fuel p₃ q₃]

def modulo (p q : Term) : Except Fault Term :=
  modWithin (2 * (p.size + q.size) + 2) p q

end Polyloom.Term
