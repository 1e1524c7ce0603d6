import Polyloom.Proofs.Term.Polynomial

/-!
# Linear terms

A linear term adds up numbers and multiples of atoms.  The atoms are symbols, floors of linear
terms, and remainders of linear terms by positive integers.  Sums, numeric multiples and remainders
of linear terms are linear again, without a floor that their parts do not have.
-/

namespace Polyloom.Term

open List

mutual

/-- What a linear term multiplies by numbers.  Floors are of terms in `S`. -/
inductive Atomic (S : Set Term) : Term → Prop
  | sym (s : String) : Atomic S (.sym s)
  | floor {t : Term} (hmem : t ∈ S) (h : Linear S t) : Atomic S (.floor t)
  | mod {p : Term} {n : Int} (h : Linear S p) (hp : p.isNum = false) (hn : 0 < n) :
      Atomic S (.mod p (.num n))

/-- A member of a linear term. -/
inductive Member (S : Set Term) : Term → Prop
  | num (q : Rat) : Member S (.num q)
  | atom {t : Term} (h : Atomic S t) : Member S t
  | multiple (c : Rat) {t : Term} (h : Atomic S t) : Member S (.prod [.num c, t])

/-- A sum of members, or a single one. -/
inductive Linear (S : Set Term) : Term → Prop
  | member {t : Term} (h : Member S t) : Linear S t
  | sum {ts : List Term} (hne : ts ≠ []) (h : ∀ t ∈ ts, Member S t) : Linear S (.sum ts)

end

variable {S : Set Term} {t p q : Term} {ts : List Term}

theorem Linear.atom (h : Atomic S t) : Linear S t := .member (.atom h)

theorem Linear.ofNum (q : Rat) : Linear S (.num q) := .member (.num q)

theorem Linear.member_of_mem_summands (h : Linear S t) : ∀ s ∈ t.summands, Member S s := by
  cases h with
  | sum _ h => simpa [summands] using h
  | member h =>
    have hself : t.summands = [t] := by
      cases h with
      | num => rfl
      | atom h => cases h <;> rfl
      | multiple => rfl
    simpa [hself] using h

theorem Atomic.ne_infinite (h : Atomic S t) : t ≠ .infinity ∧ t ≠ .undefined := by
  cases h <;> simp

theorem Linear.finite (h : Linear S t) : t.Finite := by
  intro s hs
  cases h.member_of_mem_summands s hs with
  | num => simp
  | atom h => exact h.ne_infinite
  | multiple => simp

/-! ## Sums and multiples -/

theorem Atomic.isNum_eq (h : Atomic S t) : t.isNum = false := by
  cases h <;> rfl

theorem Atomic.multiple_eq (h : Atomic S t) (c : Rat) :
    multiple c t = if c = 1 then t else .prod [.num c, t] := by
  cases h <;> rfl

theorem Atomic.member_multiple (h : Atomic S t) (c : Rat) : Member S (multiple c t) := by
  rw [h.multiple_eq]
  split
  · exact .atom h
  · exact .multiple c h

theorem Member.multiple_coefficient (h : Member S t) (hnum : t.isNum = false) (c : Rat) :
    Member S (Term.multiple c t.coefficient.2) := by
  cases h with
  | num => simp [isNum] at hnum
  | multiple _ h => exact h.member_multiple c
  | atom h =>
    have hself : t.coefficient.2 = t := by cases h <;> rfl
    rw [hself]
    exact h.member_multiple c

theorem Linear.add (h : ∀ t ∈ ts, Linear S t) : Linear S (Term.add ts) := by
  obtain hmember | ⟨us, hne, heq, hmembers⟩ := add_cases (P := Member S)
    (fun t ht => (h t ht).finite) .num fun t ht s hs =>
      ((h t ht).member_of_mem_summands s hs).multiple_coefficient
  · exact .member hmember
  · exact heq ▸ .sum hne hmembers

theorem Atomic.mul_num (h : Atomic S t) (c : Rat) : mul [.num c, t] = scaled c t := by
  have hpower : t.basePower = (t, one) := by cases h <;> rfl
  have hself : t.multiplicands = [t] := by cases h <;> rfl
  exact mul_num_base h.isNum_eq hpower hself h.ne_infinite c

private theorem Atomic.mul_num_multiple (h : Atomic S t) (c d : Rat) :
    mul [.num c, .prod [.num d, t]] = scaled (d * c) t := by
  have hpower : t.basePower = (t, one) := by cases h <;> rfl
  refine mul_eq_scaled h.isNum_eq ?_ ?_
  · simpa [multiplicands_num, multiplicands_prod] using h.ne_infinite
  · simp only [flatMap_cons, multiplicands_num, multiplicands_prod, flatMap_nil, append_nil,
      singleton_append, collectPowers_num_cons, collectPowers_cons h.isNum_eq, hpower]
    simp [collectPowers, addPower]

theorem Atomic.scaled_eq (h : Atomic S t) (k : Rat) :
    scaled k t = if k = 0 then zero else multiple k t := by
  cases h <;> rfl

private theorem Atomic.linear_scaled (h : Atomic S t) (k : Rat) : Linear S (scaled k t) := by
  rw [h.scaled_eq]
  split
  · exact .ofNum 0
  · exact .member (h.member_multiple k)

private theorem Member.scaleMember (h : Member S t) (c : Rat) :
    Member S (Term.scaleMember c t) := by
  obtain ⟨q, rfl⟩ | hnum := t.eq_num_or_isNum_eq_false
  · exact .num _
  · rw [scaleMember_eq hnum]
    exact h.multiple_coefficient hnum _

theorem Linear.mul_num (h : Linear S t) (c : Rat) : Linear S (mul [.num c, t]) := by
  cases h with
  | sum hne h =>
    rw [mul_num_sum, scaled]
    split_ifs
    · exact .ofNum 0
    · exact .sum hne h
    · refine .add fun s hs => ?_
      obtain ⟨u, hu, rfl⟩ := mem_map.mp hs
      exact .member ((h u hu).scaleMember c)
  | member h =>
    cases h with
    | num q =>
      rw [mul_nums]
      exact .ofNum _
    | atom h =>
      rw [h.mul_num c]
      exact h.linear_scaled c
    | multiple d h =>
      rw [h.mul_num_multiple c d]
      exact h.linear_scaled _

/-! ## Arithmetic -/

private theorem Linear.of_mod (h : Linear S (.mod p q)) : Linear S p := by
  cases h with
  | member h =>
    cases h with
    | atom h =>
      cases h with
      | mod h => exact h

private theorem Linear.of_multiple {c : Rat} (h : Linear S (.prod [.num c, t])) : Atomic S t := by
  cases h with
  | member h =>
    cases h with
    | atom h => cases h
    | multiple _ h => exact h

private theorem Atomic.reduceFactor_eq (h : Atomic S t) (n : Int) : reduceFactor n t = t := by
  cases h <;> rfl

private theorem Linear.reduceFactors (h : Linear S (.prod ts)) (n : Int) :
    Linear S (Term.reduceFactors n ts) := by
  cases h with
  | member h =>
    cases h with
    | atom h => cases h
    | multiple c ht =>
      obtain ⟨d, hd, -⟩ := exists_reduceFactor_num c n
      rw [reduceFactors_eq, map_cons, hd, map_singleton, ht.reduceFactor_eq]
      exact (Linear.atom ht).mul_num d

structure RationalLinear (t : Term) : Prop where
  linear : Linear Set.univ t
  polynomial : Polynomial t

structure IntegerLinear (S : Set Term) (t : Term) : Prop where
  linear : Linear S t
  integral : Integral t

theorem reduction_linear (S : Set Term) : Reduction (IntegerLinear S) where
  int n := ⟨.ofNum n, .ofInt n⟩
  finite h := h.linear.finite
  integral h := h.integral.value_mem
  summand h s hs :=
    ⟨.member (h.linear.member_of_mem_summands s hs), arithmetic_polynomial.summand h.integral s hs⟩
  add h := ⟨.add fun t ht => (h t ht).linear, .add fun t ht => (h t ht).integral⟩
  mul_num h n := ⟨h.linear.mul_num n, h.integral.mul_num n⟩
  value_mul_num h := h.integral.polynomial.value_mul_num
  mod h hp hn := ⟨.atom (.mod h.linear hp hn), arithmetic_polynomial.mod h.integral hp hn⟩
  of_mod h := (arithmetic_polynomial.of_mod h.integral).imp_left fun hp => ⟨h.linear.of_mod, hp⟩
  of_neg_mod h := ⟨.atom h.linear.of_multiple, arithmetic_polynomial.of_neg_mod h.integral⟩
  divide h hg hc hdvd := ⟨h.linear.mul_num _, h.integral.divide hg hc hdvd⟩
  reduceFactors h :=
    ⟨⟨h.linear.reduceFactors _, (h.integral.reducedFactors _).1⟩, (h.integral.reducedFactors _).2⟩

theorem arithmetic_linear : Arithmetic RationalLinear (IntegerLinear Set.univ) where
  toReduction := reduction_linear Set.univ
  of_whole h := ⟨h.linear, h.integral.polynomial⟩
  sym s := ⟨.atom (.sym s), arithmetic_polynomial.sym s⟩
  finite_rational h := h.linear.finite
  evalInt_eq h := h.polynomial.evalInt_eq
  rational_summand h s hs :=
    ⟨.member (h.linear.member_of_mem_summands s hs),
      arithmetic_polynomial.rational_summand h.polynomial s hs⟩
  rational_add h := ⟨.add fun t ht => (h t ht).linear, .add fun t ht => (h t ht).polynomial⟩
  rational_mul_num h c :=
    ⟨h.linear.mul_num c, arithmetic_polynomial.rational_mul_num h.polynomial c⟩
  floor h := ⟨.atom (.floor (Set.mem_univ _) h.linear), arithmetic_polynomial.floor h.polynomial⟩
  whole_floor h := ⟨h.linear, arithmetic_polynomial.whole_floor h.polynomial⟩

end Polyloom.Term
