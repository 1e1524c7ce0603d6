import Mathlib.Algebra.Algebra.Operations
import Mathlib.Algebra.Order.BigOperators.Group.List
import Mathlib.Algebra.Order.Kleene
import Polyloom.Proofs.Term.Remainder

/-!
# Products and coefficients

What the coefficients of a term span is a submodule of the rational numbers.  It is read off a
term much as the value is, and no sum or product in normal form spans more than its parts.
-/

namespace Polyloom.Term

open List

variable {ts : List Term} {powers : List (Term × Term)} {env : String → Int}

/-! ## What coefficients span -/

mutual

/-- The integer combinations of the coefficients that a term has when its products are
multiplied out. -/
noncomputable def span : Term → Submodule Int Rat
  | .num q => Submodule.span Int {q}
  | .sum ts => spanSum ts
  | .prod ts => spanProd ts
  | .pow b (.num e) => b.span ^ ⌊e⌋.toNat
  | _ => 1

noncomputable def spanSum : List Term → Submodule Int Rat
  | [] => 0
  | t :: ts => t.span + spanSum ts

noncomputable def spanProd : List Term → Submodule Int Rat
  | [] => 1
  | t :: ts => t.span * spanProd ts

end

@[simp] theorem span_num (q : Rat) : (num q).span = Submodule.span Int {q} := rfl

@[simp] theorem span_sum (ts : List Term) : (sum ts).span = (ts.map span).sum := by
  rw [span]
  induction ts with
  | nil => simp [spanSum]
  | cons t ts ih => simp [spanSum, ih]

@[simp] theorem span_prod (ts : List Term) : (prod ts).span = (ts.map span).prod := by
  rw [span]
  induction ts with
  | nil => simp [spanProd]
  | cons t ts ih => simp [spanProd, ih]

@[simp] theorem span_sym (s : String) : (sym s).span = 1 := rfl

@[simp] theorem span_floor (t : Term) : (floor t).span = 1 := rfl

@[simp] theorem span_mod (p q : Term) : (mod p q).span = 1 := rfl

@[simp] theorem span_pow (b : Term) (n : Nat) : (pow b (.num n)).span = b.span ^ n := by
  simp [span]

theorem span_num_one : (num 1).span = 1 := by rw [span_num, Submodule.one_eq_span]

theorem span_num_mul (p q : Rat) : (num (p * q)).span = (num p).span * (num q).span := by
  simp [Submodule.span_mul_span]

private theorem span_num_add (p q : Rat) : (num (p + q)).span ≤ (num p).span + (num q).span := by
  rw [span_num, Submodule.span_singleton_le_iff_mem]
  exact Submodule.add_mem_sup (by simp) (by simp)

theorem additive_span : Additive (· ≤ ·) span where
  num_zero := by simp
  num_one := span_num_one
  num_mul := span_num_mul
  prod := span_prod
  pow := span_pow
  refl := le_refl
  trans := .trans
  both := add_le_add
  sum := span_sum
  num_add p q x := (mul_le_mul' (span_num_add p q) le_rfl).trans_eq (add_mul ..)

/-- Are the coefficients of a term whole, however its products are multiplied out? -/
def Whole (t : Term) : Prop := t.span ≤ 1

theorem whole_num (n : Int) : (num (n : Rat)).Whole := by
  rw [Whole, span_num, Submodule.span_singleton_le_iff_mem, Submodule.mem_one]
  exact ⟨n, by simp⟩

theorem mem_integers_of_mem_one {q : Rat} (h : q ∈ (1 : Submodule Int Rat)) : q ∈ integers := by
  obtain ⟨n, hn⟩ := Submodule.mem_one.mp h
  exact mem_integers.mpr ⟨n, by simpa using hn.symm⟩

theorem intCast_mem_one (n : Int) : (n : Rat) ∈ (1 : Submodule Int Rat) :=
  Submodule.mem_one.mpr ⟨n, by simp⟩

/-! ## Products -/

private theorem merge_cons_of_le {α : Type} {le : α → α → Bool} {a : α} (s : List α) {u : List α}
    (h : ∀ b ∈ u, le a b = true) : ∃ l', (a :: s).merge u le = a :: l' := by
  cases u with
  | nil => exact ⟨s, by simp⟩
  | cons b u => exact ⟨s.merge (b :: u) le, by rw [cons_merge_cons, if_pos (h b (by simp))]⟩

private theorem mergeSort_cons_of_le {α : Type} {le : α → α → Bool} (n : Nat) :
    ∀ (a : α) (l : List α), l.length ≤ n → (∀ b ∈ l, le a b = true) →
      ∃ l', (a :: l).mergeSort le = a :: l' := by
  induction n with
  | zero =>
    intro a l hl h
    obtain rfl : l = [] := eq_nil_of_length_eq_zero (by omega)
    exact ⟨[], by simp⟩
  | succ n ih =>
    intro a l hl h
    cases l with
    | nil => exact ⟨[], by simp⟩
    | cons b l =>
      rw [mergeSort]
      simp only [MergeSort.Internal.splitInTwo_fst, MergeSort.Internal.splitInTwo_snd]
      obtain ⟨k, hk⟩ : ∃ k, ((a :: b :: l).length + 1) / 2 = k + 1 :=
        ⟨(l.length + 1) / 2, by simp only [length_cons]; omega⟩
      have hlength : (take k (b :: l)).length ≤ n := by
        simp only [length_take, length_cons] at hl hk ⊢
        omega
      obtain ⟨s, hs⟩ := ih a (take k (b :: l)) hlength fun c hc =>
        h c (mem_of_mem_take hc)
      rw [hk, take_succ_cons, hs]
      refine merge_cons_of_le s fun c hc => h c ?_
      rw [drop_succ_cons] at hc
      exact mem_of_mem_drop ((mergeSort_perm _ _).mem_iff.mp hc)

theorem arrange_num_cons (h : ∀ t ∈ ts, t.isNum = false) (q : Rat) :
    ∃ us, arrange (.num q :: ts) = .num q :: us ∧ us.Perm ts := by
  obtain ⟨us, hus⟩ := mergeSort_cons_of_le ts.length (.num q) ts le_rfl fun t ht =>
    before_num q (h t ht)
  refine ⟨us, hus, (perm_cons (.num q)).mp ?_⟩
  rw [← hus]
  exact mergeSort_perm _ _

theorem add_nums (p q : Rat) : add [.num p, .num q] = .num (p + q) := by
  rw [add_comm p q]
  by_cases h : q + p = 0
  · simp [add, summands, collect, members, ofMembers, arrange, h, zero]
  · simp [add, summands, collect, members, ofMembers, arrange, h]

/-- Positive powers of terms that satisfy `P`. -/
def PositivePowers (P : Term → Prop) (powers : List (Term × Term)) : Prop :=
  ∀ p ∈ powers, P p.1 ∧ ∃ n : Nat, 0 < n ∧ p.2 = .num n

variable {P : Term → Prop}

private theorem PositivePowers.addPower (h : PositivePowers P powers) {n : Nat}
    (hn : 0 < n) {b : Term} (hb : P b) : PositivePowers P (Term.addPower b (.num n) powers) := by
  induction powers with
  | nil =>
    intro p hp
    obtain rfl : p = (b, .num n) := by simpa [Term.addPower] using hp
    exact ⟨hb, n, hn, rfl⟩
  | cons entry rest ih =>
    obtain ⟨c, e⟩ := entry
    unfold PositivePowers at h
    rw [forall_mem_cons] at h
    obtain ⟨hc, m, hm, rfl⟩ := h.1
    rw [Term.addPower]
    split
    · refine forall_mem_cons.mpr ⟨⟨hc, m + n, by omega, ?_⟩, h.2⟩
      simp [add_nums]
    · exact forall_mem_cons.mpr ⟨⟨hc, m, hm, rfl⟩, ih h.2⟩

theorem positivePowers_collect
    (h : ∀ t ∈ ts, t.isNum = false → P t.basePower.1 ∧ ∃ n : Nat, 0 < n ∧ t.basePower.2 = .num n) :
    PositivePowers P (collectPowers ts).2 := by
  induction ts with
  | nil => simp [collectPowers, PositivePowers]
  | cons t ts ih =>
    rw [forall_mem_cons] at h
    have hrest := ih h.2
    obtain ⟨q, rfl⟩ | hnum := t.eq_num_or_isNum_eq_false
    · exact hrest
    · obtain ⟨hbase, n, hn, hpower⟩ := h.1 hnum
      rw [collectPowers_cons hnum, hpower]
      exact hrest.addPower hn hbase

namespace Multiplicative

variable {M : Type} [CommSemiring M] {ev : Term → M}

section

variable (hev : Multiplicative ev)

include hev

theorem first_power (b : Term) : ev (.pow b Term.one) = ev b := by
  have hone := hev.pow b 1
  rwa [Nat.cast_one, pow_one] at hone

theorem basePower (t : Term) : ev (.pow t.basePower.1 t.basePower.2) = ev t := by
  unfold Term.basePower
  split
  · rfl
  · exact hev.first_power t

private theorem addPower (h : PositivePowers P powers) (b : Term) (n : Nat) :
    ((Term.addPower b (.num n) powers).map fun p => ev (.pow p.1 p.2)).prod =
      ev (.pow b (.num n)) * (powers.map fun p => ev (.pow p.1 p.2)).prod := by
  induction powers with
  | nil => simp [Term.addPower]
  | cons entry rest ih =>
    obtain ⟨c, e⟩ := entry
    unfold PositivePowers at h
    rw [forall_mem_cons] at h
    obtain ⟨-, m, hm, rfl⟩ := h.1
    rw [Term.addPower]
    split
    · rename_i hbase
      obtain rfl : c = b := hbase
      have hsum : (m : Rat) + n = ((m + n : Nat) : Rat) := by push_cast; rfl
      simp only [map_cons, prod_cons, add_nums, hsum, hev.pow, pow_add]
      ring
    · simp only [map_cons, prod_cons, ih h.2]
      ring

theorem collectPowers
    (h : ∀ t ∈ ts, t.isNum = false → P t.basePower.1 ∧ ∃ n : Nat, 0 < n ∧ t.basePower.2 = .num n) :
    ev (.num (Term.collectPowers ts).1) *
      ((Term.collectPowers ts).2.map fun p => ev (.pow p.1 p.2)).prod = (ts.map ev).prod := by
  induction ts with
  | nil => simp [Term.collectPowers, hev.num_one]
  | cons t ts ih =>
    rw [forall_mem_cons] at h
    have hrest := ih h.2
    rw [map_cons, prod_cons, ← hrest]
    obtain ⟨q, rfl⟩ | hnum := t.eq_num_or_isNum_eq_false
    · rw [collectPowers_num_cons, hev.num_mul]
      ring
    · obtain ⟨-, n, hn, hpower⟩ := h.1 hnum
      rw [collectPowers_cons hnum, hpower, hev.addPower (positivePowers_collect h.2),
        ← hpower, hev.basePower]
      ring

theorem factors (h : PositivePowers P powers) :
    ((powers.filterMap fun p => factor? p.1 p.2).map ev).prod =
      (powers.map fun p => ev (.pow p.1 p.2)).prod := by
  induction powers with
  | nil => simp
  | cons entry rest ih =>
    obtain ⟨b, e⟩ := entry
    unfold PositivePowers at h
    rw [forall_mem_cons] at h
    obtain ⟨-, n, hn, rfl⟩ := h.1
    have hzero : (num (n : Rat)) ≠ Term.zero := by
      simpa [Term.zero] using hn.ne'
    rw [filterMap_cons, factor?, if_neg hzero]
    split_ifs with hone
    · have hfirst : ev (.pow b (.num n)) = ev b := by
        rw [show num (n : Rat) = Term.one from hone, hev.first_power]
      simp [hfirst, ih h.2]
    · simp [ih h.2]

private theorem ofFactors (ts : List Term) : ev (Term.ofFactors ts) = (ts.map ev).prod := by
  have hperm : ((arrange ts).map ev).prod = (ts.map ev).prod :=
    ((mergeSort_perm ts before).map _).prod_eq
  rw [← hperm]
  unfold Term.ofFactors
  split
  · simp_all [Term.one, hev.num_one]
  · simp_all
  · rw [hev.prod]

theorem ofProduct (c : Rat) (ts : List Term) :
    ev (Term.ofProduct c ts) = ev (.num c) * (ts.map ev).prod ∨
      ∃ us, ts = [.sum us] ∧ Term.ofProduct c ts = Term.add (us.map (Term.scaleMember c)) := by
  unfold Term.ofProduct
  split_ifs with hzero hone
  · left
    rw [hzero, Term.zero, hev.num_zero, zero_mul]
  · left
    rw [hone, hev.num_one, one_mul, hev.ofFactors]
  · split
    · left
      simp
    · rename_i us
      exact .inr ⟨us, rfl, rfl⟩
    · left
      rw [hev.ofFactors, map_cons, prod_cons]

end

end Multiplicative

end Polyloom.Term
