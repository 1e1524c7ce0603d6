import Polyloom.Constraint.IntPoly

/-!
Constraints in a simplified form.

A comparison becomes a row: a sum of monomials on the left, a number on the right and one of
the relations `=`, `≤` and `≥` between them; strict comparisons are negations of rows.  Monomials
are moved to the left only if there is something to move.  A single monomial has its
coefficient divided out, the number being rounded; a sum that had nothing to move and
has a coefficient minus one is negated.
-/

namespace Polyloom

inductive RowOp where
  | eq
  | le
  | ge
  deriving DecidableEq, Repr, Inhabited

namespace RowOp

def flip : RowOp → RowOp
  | .eq => .eq
  | .le => .ge
  | .ge => .le

def holds : RowOp → Int → Int → Bool
  | .eq, a, b => a = b
  | .le, a, b => a ≤ b
  | .ge, a, b => b ≤ a

end RowOp

structure Row where
  terms : IntPoly
  op : RowOp
  const : Int
  deriving DecidableEq, Repr, Inhabited

def IntPoly.eval (env : String → Int) (p : IntPoly) : Int :=
  p.foldr (fun (m, c) total => c * (m.map fun a => a.eval env).foldl (· * ·) 1 + total) 0

def Row.holds (env : String → Int) (row : Row) : Bool :=
  row.op.holds (IntPoly.eval env row.terms) row.const

inductive Reduced where
  | truth (b : Bool)
  | row (r : Row)
  | not (c : Reduced)
  | and (l r : Reduced)
  | or (l r : Reduced)
  deriving DecidableEq, Repr, Inhabited

namespace Reduced

def negate : Reduced → Reduced
  | .truth b => .truth !b
  | .not c => c
  | c => .not c

def conj : Reduced → Reduced → Reduced
  | .truth true, c => c
  | c, .truth true => c
  | .truth false, _ => .truth false
  | _, .truth false => .truth false
  | c, d => if c = d then c else .and c d

def disj : Reduced → Reduced → Reduced
  | .truth false, c => c
  | c, .truth false => c
  | .truth true, _ => .truth true
  | _, .truth true => .truth true
  | c, d => if c = d then c else .or c d

def vars : Reduced → List String
  | .truth _ => []
  | .row r => r.terms.flatMap fun (m, _) => m.flatMap IntTerm.vars
  | .not c => c.vars
  | .and l r | .or l r => l.vars ++ r.vars

end Reduced

namespace Row

def decideMod (m : AtomProduct) (op : RowOp) (c : Int) : Option Bool :=
  match m with
  | [.mod _ (.const b)] =>
    if b = 0 then none
    else if c < 0 then some (op = .ge)
    else if c = 0 ∧ op = .ge then some true
    else if b.natAbs ≤ c then some (op = .le)
    else if c + 1 = b.natAbs ∧ op = .le then some true
    else none
  | _ => none

def single (m : AtomProduct) (a : Int) (op : RowOp) (c : Int) : Reduced :=
  let op' := if a < 0 then op.flip else op
  let c' := if a < 0 then -c else c
  let a' : Int := a.natAbs
  let bound : Option Int := match op' with
    | .le => some (Int.fdiv c' a')
    | .ge => some (-(Int.fdiv (-c') a'))
    | .eq => if c' % a' = 0 then some (c' / a') else none
  match bound with
  | none => .truth false
  | some b => match decideMod m op' b with
      | some value => .truth value
      | none => .row ⟨[(m, 1)], op', b⟩

def reduce (op : RowOp) (p q : IntPoly) : Reduced :=
  let moved := !q.nonconst.isEmpty || (p.constPart ≠ 0)
  let d := IntPoly.sub p q
  match d.nonconst with
  | [] => .truth (op.holds d.constPart 0)
  | [(m, a)] => single m a op (-d.constPart)
  | terms =>
    if !moved && op ≠ .eq && terms.any fun (_, c) => c = -1 then
      .row ⟨IntPoly.scale (-1) terms, op.flip, d.constPart⟩
    else .row ⟨terms, op, -d.constPart⟩

end Row

namespace IntTerm

def parts : IntTerm → List IntTerm
  | .const n => [.const n]
  | .var s => [.var s]
  | .add l r => l.parts ++ r.parts ++ [.add l r]
  | .mul l r => l.parts ++ r.parts ++ [.mul l r]
  | .div l r => l.parts ++ r.parts ++ [.div l r]
  | .mod l r => l.parts ++ r.parts ++ [.mod l r]

end IntTerm

namespace Constraint

def parts : Constraint → List IntTerm
  | .truth _ => []
  | .compare _ l r => l.parts ++ r.parts
  | .not c => c.parts
  | .and l r | .or l r => l.parts ++ r.parts

def termOrder (cs : List Constraint) : List IntTerm := (cs.flatMap parts).eraseDups

/-- Turn equations of two terms around where the right one came up first. -/
def orient (order : List IntTerm) : Constraint → Constraint
  | .truth b => .truth b
  | .compare op l r =>
    let turned := match op, l.polynomial.asConst?, r.polynomial.asConst? with
      | .eq, none, none => decide (order.idxOf r < order.idxOf l)
      | _, _, _ => false
    if turned then .compare op r l else .compare op l r
  | .not c => .not (c.orient order)
  | .and l r => .and (l.orient order) (r.orient order)
  | .or l r => .or (l.orient order) (r.orient order)

def reduce : Constraint → Reduced
  | .truth b => .truth b
  | .compare op l r =>
    let p := l.polynomial
    let q := r.polynomial
    match op with
    | .le => Row.reduce .le p q
    | .ge => Row.reduce .ge p q
    | .eq => Row.reduce .eq p q
    | .lt => (Row.reduce .ge p q).negate
    | .gt => (Row.reduce .le p q).negate
    | .ne => (Row.reduce .eq p q).negate
  | .not c => c.reduce.negate
  | .and l r => l.reduce.conj r.reduce
  | .or l r => l.reduce.disj r.reduce

/-- The truth of a constraint where only some variables have values, if that decides it. -/
def truthAt (point : String → Option Int) (c : Constraint) : Option Bool :=
  match (c.substitute fun s => (point s).map .const).reduce with
  | .truth b => some b
  | _ => none

end Constraint

end Polyloom
