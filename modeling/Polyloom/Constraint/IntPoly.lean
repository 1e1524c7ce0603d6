import Polyloom.Constraint.Basic

/-!
Integer terms as polynomials.

A polynomial is a list of monomials with nonzero coefficients; a monomial is a list of atoms,
which are variables, quotients and remainders.  Remainders by a positive number have the
coefficients of their dividend reduced.
-/

namespace Polyloom

abbrev AtomProduct := List IntTerm

abbrev IntPoly := List (AtomProduct × Int)

namespace IntTerm

def rank (t : IntTerm) : String :=
  match t with
  | .const n => n.repr
  | .var s => s
  | .add l r => "(" ++ l.rank ++ "+" ++ r.rank ++ ")"
  | .mul l r => "(" ++ l.rank ++ "*" ++ r.rank ++ ")"
  | .div l r => "(" ++ l.rank ++ "/" ++ r.rank ++ ")"
  | .mod l r => "(" ++ l.rank ++ "%" ++ r.rank ++ ")"

end IntTerm

namespace IntPoly

def const (n : Int) : IntPoly := if n = 0 then [] else [([], n)]

def atom (t : IntTerm) : IntPoly := [([t], 1)]

def addMonomial (m : AtomProduct) (c : Int) : IntPoly → IntPoly
  | [] => if c = 0 then [] else [(m, c)]
  | (n, d) :: rest =>
    if n = m then (if d + c = 0 then rest else (n, d + c) :: rest)
    else (n, d) :: addMonomial m c rest

def add (p q : IntPoly) : IntPoly := q.foldl (fun acc (m, c) => addMonomial m c acc) p

def scale (c : Int) (p : IntPoly) : IntPoly :=
  if c = 0 then [] else p.map fun (m, d) => (m, c * d)

def mulMonomial (m n : AtomProduct) : AtomProduct := (m ++ n).mergeSort fun a b => a.rank ≤ b.rank

def mul (p q : IntPoly) : IntPoly :=
  p.foldl (fun acc (m, c) =>
    q.foldl (fun acc (n, d) => addMonomial (mulMonomial m n) (c * d) acc) acc) []

def sub (p q : IntPoly) : IntPoly := add p (scale (-1) q)

def constPart (p : IntPoly) : Int := (p.lookup []).getD 0

def nonconst (p : IntPoly) : IntPoly := p.filter fun (m, _) => m ≠ []

def asConst? : IntPoly → Option Int
  | [] => some 0
  | [([], n)] => some n
  | _ => none

def monomialTerm : AtomProduct → IntTerm
  | [] => .const 1
  | [a] => a
  | a :: rest => .mul a (monomialTerm rest)

def summandTerm : AtomProduct × Int → IntTerm
  | ([], c) => .const c
  | (m, 1) => monomialTerm m
  | (m, c) => .mul (.const c) (monomialTerm m)

def toTerm : IntPoly → IntTerm
  | [] => .const 0
  | [s] => summandTerm s
  | s :: rest => .add (summandTerm s) (toTerm rest)

/-- The remainder of a polynomial by a positive number, if that is no atom: a remainder by the
same number is opened, and the coefficients are reduced. -/
def reduceMod (k : Int) (p : IntPoly) : IntPoly :=
  (p.map fun (m, c) => (m, c % k)).filter fun (_, c) => c ≠ 0

end IntPoly

namespace IntTerm

def polynomial : IntTerm → IntPoly
  | .const n => IntPoly.const n
  | .var s => IntPoly.atom (.var s)
  | .add l r => IntPoly.add l.polynomial r.polynomial
  | .mul l r => IntPoly.mul l.polynomial r.polynomial
  | .div l r =>
    let p := l.polynomial
    let q := r.polynomial
    match p.asConst?, q.asConst? with
    | some a, some b =>
      if b = 0 then IntPoly.atom (.div p.toTerm q.toTerm) else IntPoly.const (a / b)
    | _, some 1 => p
    | _, some (-1) => IntPoly.scale (-1) p
    | _, _ => IntPoly.atom (.div p.toTerm q.toTerm)
  | .mod l r =>
    let p := l.polynomial
    let q := r.polynomial
    match p.asConst?, q.asConst? with
    | some a, some b =>
      if b = 0 then IntPoly.atom (.mod p.toTerm q.toTerm) else IntPoly.const (a % b)
    | _, some b =>
      if b = 1 ∨ b = -1 then []
      else if 0 < b then
        let reduced := IntPoly.reduceMod b p
        match reduced.asConst?, reduced with
        | some a, _ => IntPoly.const (a % b)
        | none, [([.mod x (.const d)], 1)] =>
          if d = b then [([.mod x (.const d)], 1)]
          else IntPoly.atom (.mod (IntPoly.toTerm reduced) (.const b))
        | none, _ => IntPoly.atom (.mod (IntPoly.toTerm reduced) (.const b))
      else IntPoly.atom (.mod p.toTerm (.const b))
    | _, none => IntPoly.atom (.mod p.toTerm q.toTerm)

end IntTerm

end Polyloom
