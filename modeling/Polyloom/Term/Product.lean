import Polyloom.Term.Sum

/-!
Products, powers and quotients in normal form: nested products are flattened, numbers
multiplied out, powers of the same base collected, and a number times a sum alone is
distributed over the sum.
-/

namespace Polyloom.Term

def addPower (b e : Term) : List (Term × Term) → List (Term × Term)
  | [] => [(b, e)]
  | (c, f) :: rest => if c = b then (c, add [f, e]) :: rest else (c, f) :: addPower b e rest

def collectPowers : List Term → Rat × List (Term × Term)
  | [] => (1, [])
  | t :: rest =>
    let (c, powers) := collectPowers rest
    match t with
    | .num q => (c * q, powers)
    | t => (c, addPower t.basePower.1 t.basePower.2 powers)

def factor? (b e : Term) : Option Term :=
  if e = zero then none else if e = one then some b else some (.pow b e)

def ofFactors (factors : List Term) : Term :=
  match arrange factors with
  | [] => one
  | [t] => t
  | ts => .prod ts

def mul (terms : List Term) : Term :=
  let flat := terms.flatMap multiplicands
  let finite := flat.filter (· ≠ .infinity)
  if flat.contains .undefined then .undefined
  else
    let (c, powers) := collectPowers finite
    let factors := powers.filterMap fun (b, e) => factor? b e
    if finite.length < flat.length then
      if c = 0 then .undefined else ofFactors (.infinity :: factors)
    else if c = 0 then zero
    else if c = 1 then ofFactors factors
    else match factors with
      | [] => .num c
      | [.sum ts] => add (ts.map (scaleMember c))
      | _ => ofFactors (.num c :: factors)

def neg (t : Term) : Term := mul [.num (-1), t]

def sub (s t : Term) : Term := add [s, neg t]

def numPow (q : Rat) (n : Int) : Term :=
  if 0 ≤ n then .num (q ^ n.toNat)
  else if q = 0 then .infinity
  else .num ((1 / q) ^ (-n).toNat)

def powAtom (n : Int) : Term → Term
  | .num q => numPow q n
  | .pow b e => (factor? b (mul [e, int n])).getD one
  | .infinity => if n < 0 then zero else .infinity
  | .undefined => .undefined
  | t => (factor? t (int n)).getD one

/-- A power.  Integral powers go into products and powers; all others stay as they are. -/
def power (b e : Term) : Term :=
  match e.asInt? with
  | some 0 => one
  | some 1 => b
  | some n =>
    match b with
    | .prod factors => mul (factors.map (powAtom n))
    | b => powAtom n b
  | none => if b = one then one else .pow b e

def div (s t : Term) : Term := mul [s, power t (int (-1))]

end Polyloom.Term
