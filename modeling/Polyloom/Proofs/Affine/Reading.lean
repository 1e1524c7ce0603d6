import Polyloom.Access.Apply
import Polyloom.Proofs.Term.Reading

/-!
# Affine expressions as terms

The term of an expression has the value of the expression, except that a ceiling is read as the
next integer after the floor, also where the division leaves no remainder.  Where products have
a number on one side, the term is linear.
-/

namespace Polyloom

open AffineOp Term Bool Except

variable {a b : Term} {n : Int} {product : AffineExpr → AffineExpr → Bool} {d s : Nat → Int}

namespace AffineOp

def reading : AffineOp → Int → Int → Int
  | .ceilDiv, a, b => Int.fdiv a b + 1
  | op, a, b => op.eval a b

end AffineOp

namespace AffineExpr

variable {e l r : AffineExpr} {dims symbols : Nat}

def isConst : AffineExpr → Bool
  | .const _ => true
  | _ => false

/-- Is an expression over so many dimensions and symbols made with such products only?  A
divisor is a positive number. -/
def isFormed (product : AffineExpr → AffineExpr → Bool) (dims symbols : Nat) :
    AffineExpr → Bool
  | .const _ => true
  | .dim i => i < dims
  | .sym i => i < symbols
  | .binary .add l r => l.isFormed product dims symbols && r.isFormed product dims symbols
  | .binary .mul l r =>
    l.isFormed product dims symbols && r.isFormed product dims symbols && product l r
  | .binary _ l (.const n) => l.isFormed product dims symbols && 0 < n
  | _ => false

/-- Is an expression over so many dimensions and symbols affine?  A product has a number on one
side. -/
abbrev isAffine (dims symbols : Nat) (e : AffineExpr) : Bool :=
  e.isFormed (fun l r => l.isConst || r.isConst) dims symbols

/-- The value that the term of an expression has. -/
def read (dims syms : Nat → Int) : AffineExpr → Option Int
  | .const n => some n
  | .dim i => some (dims i)
  | .sym i => some (syms i)
  | .binary op l r => do return op.reading (← l.read dims syms) (← r.read dims syms)
  | .unknownBinary _ _ | .unknown => none

/-- Only a ceiling has two values. -/
def ceilingFree : AffineExpr → Bool
  | .binary op l r => op ≠ .ceilDiv && l.ceilingFree && r.ceilingFree
  | _ => true

theorem read_eq_eval (h : e.ceilingFree = true) (dims syms : Nat → Int) :
    e.read dims syms = e.eval dims syms := by
  induction e with
  | const | dim | sym | unknownBinary | unknown => rfl
  | binary op l r ihl ihr =>
    simp only [ceilingFree, and_eq_true, decide_eq_true_eq] at h
    rw [read, eval, ihl h.1.2, ihr h.2]
    cases op with
    | ceilDiv => exact absurd rfl h.1.1
    | add | mul | mod | floorDiv => rfl

/-- Is no ceiling of a whole quotient?  Then all are one above the floor. -/
def roundsUp (dims syms : Nat → Int) : AffineExpr → Bool
  | .binary op l r =>
    l.roundsUp dims syms && r.roundsUp dims syms && (op ≠ .ceilDiv ||
      match l.eval dims syms, r.eval dims syms with
      | some a, some b => a % b ≠ 0
      | _, _ => true)
  | _ => true

private theorem neg_fdiv_neg {a : Int} (hn : 0 < n) (h : a % n ≠ 0) :
    -(Int.fdiv (-a) n) = Int.fdiv a n + 1 := by
  have hdvd : ¬ n ∣ a := fun hdvd => h (Int.emod_eq_zero_of_dvd hdvd)
  rw [Int.fdiv_eq_ediv_of_nonneg _ hn.le, Int.fdiv_eq_ediv_of_nonneg _ hn.le, Int.neg_ediv,
    if_neg hdvd, Int.sign_eq_one_of_pos hn]
  ring

theorem read_eq_eval_of_roundsUp
    (h : e.isFormed product dims symbols = true)
    (hround : e.roundsUp d s = true) : e.read d s = e.eval d s := by
  fun_induction isFormed product dims symbols e with
  | case1 | case2 | case3 => rfl
  | case4 l r ihl ihr =>
    simp only [roundsUp, and_eq_true] at h hround
    rw [read, eval, ihl h.1 hround.1.1, ihr h.2 hround.1.2]
    rfl
  | case5 l r ihl ihr =>
    simp only [roundsUp, and_eq_true] at h hround
    rw [read, eval, ihl h.1.1 hround.1.1, ihr h.1.2 hround.1.2]
    rfl
  | case6 op l n hadd hmul ih =>
    simp only [roundsUp, and_eq_true, decide_eq_true_eq] at h hround
    rw [read, eval, ih h.1 hround.1.1, read, eval]
    cases op with
    | ceilDiv =>
      cases hl : l.eval d s with
      | none => rfl
      | some a =>
        have hrest : a % n ≠ 0 := by simpa [hl, eval] using hround.2
        simp [AffineOp.reading, AffineOp.eval, neg_fdiv_neg h.2 hrest]
    | add | mul | mod | floorDiv => rfl
  | case7 => simp at h

theorem read_congr
    (h : e.isFormed product dims symbols = true) {d' s' : Nat → Int}
    (hd : ∀ i < dims, d i = d' i) (hs : ∀ j < symbols, s j = s' j) : e.read d s = e.read d' s' := by
  fun_induction isFormed product dims symbols e with
  | case1 n => rfl
  | case2 i => rw [read, read, hd i (by simpa using h)]
  | case3 i => rw [read, read, hs i (by simpa using h)]
  | case4 l r ihl ihr =>
    rw [and_eq_true] at h
    rw [read, read, ihl h.1, ihr h.2]
  | case5 l r ihl ihr =>
    rw [and_eq_true, and_eq_true] at h
    rw [read, read, ihl h.1.1, ihr h.1.2]
  | case6 op l n hadd hmul ih =>
    rw [and_eq_true] at h
    rw [read, read, ih h.1, read, read]
  | case7 => simp at h

/-! ## The term of an expression -/

/-- A term of some kind has the value that an expression is read with. -/
def Stated (kind : Term → Prop) (e : AffineExpr) (t : Term) : Prop :=
  kind t ∧ ∀ env : String → Int, ∃ m : Int,
    e.read (fun i => env (dimName i)) (fun j => env (symName j)) = some m ∧ t.value env = m

def Multiplied (kind : Term → Prop) (a b : Term) : Prop :=
  kind (mul [a, b]) ∧ ∀ env, (mul [a, b]).value env = a.value env * b.value env

private theorem Stated.mul {kind : Term → Prop} (hl : l.Stated kind a) (hr : r.Stated kind b)
    (hproduct : Multiplied kind a b) : Stated kind (.binary .mul l r) (Term.mul [a, b]) := by
  refine ⟨hproduct.1, fun env => ?_⟩
  obtain ⟨m, hm, ha⟩ := hl.2 env
  obtain ⟨n, hn, hb⟩ := hr.2 env
  refine ⟨m * n, by simp [read, hm, hn, AffineOp.reading, AffineOp.eval], ?_⟩
  rw [hproduct.2, ha, hb]
  push_cast
  rfl

section

variable {rational whole : Term → Prop} (A : Arithmetic rational whole) {l : AffineExpr}

include A

private theorem Stated.add {r : AffineExpr} (hl : l.Stated whole a) (hr : r.Stated whole b) :
    Stated whole (.binary .add l r) (Term.add [a, b]) := by
  have hwhole : ∀ t ∈ [a, b], whole t := by simp [hl.1, hr.1]
  refine ⟨A.add hwhole, fun env => ?_⟩
  obtain ⟨m, hm, ha⟩ := hl.2 env
  obtain ⟨n, hn, hb⟩ := hr.2 env
  refine ⟨m + n, by simp [read, hm, hn, AffineOp.reading, AffineOp.eval], ?_⟩
  rw [A.value_add hwhole]
  simp [ha, hb]

private theorem Stated.mod_const (hl : l.Stated whole a) (hn : 0 < n) :
    ∃ t, Term.modulo a (Term.int n) = .ok t ∧ Stated whole (.binary .mod l (.const n)) t := by
  obtain ⟨t, ht, hwhole, hvalue⟩ := A.modulo_spec hl.1 hn
  refine ⟨t, ht, hwhole, fun env => ?_⟩
  obtain ⟨m, hm, ha⟩ := hl.2 env
  refine ⟨m % n, ?_, ?_⟩
  · simp [read, hm, AffineOp.reading, AffineOp.eval, Int.fmod_eq_emod_of_nonneg _ hn.le]
  · rw [hvalue, ha, Term.residue_int m hn]

private theorem Stated.floorDiv_const (hl : l.Stated whole a) (hn : 0 < n) :
    ∃ t, Term.floorDiv a (Term.int n) = .ok t ∧
      Stated whole (.binary .floorDiv l (.const n)) t := by
  obtain ⟨t, ht, hwhole, hvalue⟩ := A.floorDiv_spec hl.1 hn
  refine ⟨t, ht, hwhole, fun env => ?_⟩
  obtain ⟨m, hm, ha⟩ := hl.2 env
  refine ⟨Int.fdiv m n, by simp [read, hm, AffineOp.reading, AffineOp.eval], ?_⟩
  rw [hvalue, ha, Term.floor_intCast_div]

private theorem Stated.ceilDiv_const {t : Term}
    (h : Stated whole (.binary .floorDiv l (.const n)) t) (hl : l.Stated whole a) :
    Stated whole (.binary .ceilDiv l (.const n)) (Term.add [t, .one]) := by
  have hone : whole Term.one := by
    have hint := A.int 1
    rwa [Int.cast_one] at hint
  have hwhole : ∀ s ∈ [t, Term.one], whole s := by simp [h.1, hone]
  refine ⟨A.add hwhole, fun env => ?_⟩
  obtain ⟨m, hm, -⟩ := hl.2 env
  obtain ⟨k, hk, ht⟩ := h.2 env
  obtain rfl : Int.fdiv m n = k := by
    simpa [read, hm, AffineOp.reading, AffineOp.eval] using hk
  refine ⟨Int.fdiv m n + 1, by simp [read, hm, AffineOp.reading], ?_⟩
  rw [A.value_add hwhole]
  simp [ht]

/-- Every expression has a term, and the term has the value that the expression is read with,
if the products in it can be multiplied out. -/
theorem exists_term {dims symbols : Nat}
    (hproduct : ∀ l r a b, product l r = true → l.term? dims symbols = .ok (some a) →
      r.term? dims symbols = .ok (some b) → whole a → whole b → Multiplied whole a b)
    {e : AffineExpr} (h : e.isFormed product dims symbols = true) :
    ∃ t, e.term? dims symbols = .ok (some t) ∧ e.Stated whole t := by
  fun_induction isFormed product dims symbols e with
  | case1 n =>
    exact ⟨Term.int n, rfl, A.int n, fun env => ⟨n, rfl, Term.value_int n⟩⟩
  | case2 i =>
    refine ⟨.sym (dimName i), ?_, A.sym _, fun env => ⟨env (dimName i), rfl, ?_⟩⟩
    · simpa [term?] using h
    · exact Term.value_sym _
  | case3 i =>
    refine ⟨.sym (symName i), ?_, A.sym _, fun env => ⟨env (symName i), rfl, ?_⟩⟩
    · simpa [term?] using h
    · exact Term.value_sym _
  | case4 l r ihl ihr =>
    rw [Bool.and_eq_true] at h
    obtain ⟨a, ha, hl⟩ := ihl h.1
    obtain ⟨b, hb, hr⟩ := ihr h.2
    exact ⟨Term.add [a, b],
      by simp [term?, ha, hb, combine, bind, Except.bind, pure, Except.pure], hl.add A hr⟩
  | case5 l r ihl ihr =>
    rw [Bool.and_eq_true, Bool.and_eq_true] at h
    obtain ⟨a, ha, hl⟩ := ihl h.1.1
    obtain ⟨b, hb, hr⟩ := ihr h.1.2
    exact ⟨Term.mul [a, b],
      by simp [term?, ha, hb, combine, bind, Except.bind, pure, Except.pure],
      hl.mul hr (hproduct l r a b h.2 ha hb hl.1 hr.1)⟩
  | case6 op l n hadd hmul ih =>
    rw [Bool.and_eq_true, decide_eq_true_eq] at h
    obtain ⟨a, ha, hl⟩ := ih h.1
    cases op with
    | add => exact absurd rfl hadd
    | mul => exact absurd rfl hmul
    | mod =>
      obtain ⟨t, ht, hstated⟩ := hl.mod_const A h.2
      exact ⟨t, by simp [term?, ha, combine, ht, bind, Except.bind, pure, Except.pure], hstated⟩
    | floorDiv =>
      obtain ⟨t, ht, hstated⟩ := hl.floorDiv_const A h.2
      exact ⟨t, by simp [term?, ha, combine, ht, bind, Except.bind, pure, Except.pure], hstated⟩
    | ceilDiv =>
      obtain ⟨t, ht, hstated⟩ := hl.floorDiv_const A h.2
      exact ⟨Term.add [t, .one],
        by simp [term?, ha, combine, ht, bind, Except.bind, pure, Except.pure],
        hstated.ceilDiv_const A hl⟩
  | case7 => simp at h

end

section

variable (h : (l.isConst || r.isConst) = true) (ha : l.term? dims symbols = .ok (some a))
  (hb : r.term? dims symbols = .ok (some b))

include h ha hb

/-- A product with a number on one side is a multiple of the other side. -/
theorem mul_eq_multiple :
    ∃ n : Int, a = .num n ∨ b = .num n ∧ Term.mul [a, b] = Term.mul [.num n, a] := by
  rw [Bool.or_eq_true] at h
  obtain hconst | hconst := h
  · cases l with
    | const n => exact ⟨n, .inl (by simpa [term?, int, eq_comm] using ha)⟩
    | dim | sym | binary | unknownBinary | unknown => simp [isConst] at hconst
  · cases r with
    | const n =>
      obtain rfl : int n = b := by simpa [term?] using hb
      exact ⟨n, .inr ⟨rfl, mul_num_comm a n⟩⟩
    | dim | sym | binary | unknownBinary | unknown => simp [isConst] at hconst

theorem multiplied_linear (hl : IntegerLinear Set.univ a) (hr : IntegerLinear Set.univ b) :
    Multiplied (IntegerLinear Set.univ) a b := by
  obtain ⟨n, rfl | ⟨rfl, heq⟩⟩ := mul_eq_multiple h ha hb
  · exact ⟨arithmetic_linear.mul_num hr n, fun env => by
      rw [arithmetic_linear.value_mul_num hr, value_num]⟩
  · rw [Multiplied, heq]
    exact ⟨arithmetic_linear.mul_num hl n, fun env => by
      rw [arithmetic_linear.value_mul_num hl, value_num, mul_comm]⟩

end

end AffineExpr

end Polyloom
