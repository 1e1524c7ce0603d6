import Polyloom.Proofs.Term.Span

/-!
# Polynomial terms

A polynomial term adds up products of factors with a number in front.  The factors are symbols,
floors, remainders, sums and powers, and their coefficients are whole; only the number in front
of a product need not be.  Sums, products, floors and remainders of such terms are of this kind
again and have the value that they should have.
-/

namespace Polyloom.Term

open List Term

variable {env : String → Int} {t b : Term} {ts : List Term} {c n : Nat} {M : Type}

def isSum : Term → Bool
  | .sum _ => true
  | _ => false

theorem eq_sum_or_isSum_eq_false (t : Term) : (∃ ts, t = .sum ts) ∨ t.isSum = false := by
  cases t with
  | sum ts => exact .inl ⟨ts, rfl⟩
  | _ => exact .inr rfl

private theorem summands_eq (h : t.isSum = false) : t.summands = [t] := by
  cases t with
  | sum => simp [isSum] at h
  | _ => rfl

def isFactor : Term → Bool
  | .num _ | .prod _ => false
  | _ => true

inductive Polynomial : Term → Prop
  | num (q : Rat) : Polynomial (.num q)
  | sym (s : String) : Polynomial (.sym s)
  | floor {t : Term} (h : Polynomial t) : Polynomial (.floor t)
  | mod {p : Term} {n : Int} (h : Polynomial p) (hwhole : p.Whole) (hn : 0 < n) :
    Polynomial (.mod p (.num n))
  | sum {ts : List Term} (h : ∀ t ∈ ts, Polynomial t)
      (hwhole : ∀ t ∈ ts, t.isSum = true → t.Whole) : Polynomial (.sum ts)
  | prod {ts : List Term} (h : ∀ t ∈ ts, Polynomial t) (hwhole : ∀ t ∈ ts, t.Whole)
      (hfactor : ∀ t ∈ ts, t.isFactor = true) : Polynomial (.prod ts)
  | multiple (c : Rat) {ts : List Term} (h : ∀ t ∈ ts, Polynomial t) (hwhole : ∀ t ∈ ts, t.Whole)
      (hfactor : ∀ t ∈ ts, t.isFactor = true) : Polynomial (.prod (.num c :: ts))
  | pow {b : Term} {n : Nat} (h : Polynomial b) (hwhole : b.Whole) (hfactor : b.isFactor = true)
      (hn : 0 < n) : Polynomial (.pow b (.num n))

structure Integral (t : Term) : Prop where
  polynomial : Polynomial t
  whole : t.Whole

structure Factor (t : Term) : Prop extends Integral t where
  isFactor : t.isFactor = true

structure Summand (t : Term) : Prop where
  polynomial : Polynomial t
  whole_of_isSum : t.isSum = true → t.Whole

theorem Integral.summand (h : Integral t) : Summand t := ⟨h.polynomial, fun _ => h.whole⟩

theorem Polynomial.summand_of_isSum (h : Polynomial t) (hsum : t.isSum = false) : Summand t :=
  ⟨h, by simp [hsum]⟩

theorem Integral.ofInt (n : Int) : Integral (.num n) := ⟨.num n, whole_num n⟩

theorem Polynomial.ofFactors (h : ∀ t ∈ ts, Factor t) : Polynomial (.prod ts) :=
  .prod (fun t ht => (h t ht).polynomial) (fun t ht => (h t ht).whole) fun t ht => (h t ht).isFactor

theorem Polynomial.ofMultiple (c : Rat) (h : ∀ t ∈ ts, Factor t) :
    Polynomial (.prod (.num c :: ts)) :=
  .multiple c (fun t ht => (h t ht).polynomial) (fun t ht => (h t ht).whole) fun t ht =>
    (h t ht).isFactor

theorem Polynomial.ne_infinite (h : Polynomial t) : t ≠ .infinity ∧ t ≠ .undefined := by
  cases h <;> simp

theorem Polynomial.summand (h : Polynomial t) : ∀ s ∈ t.summands, Summand s := by
  obtain ⟨ts, rfl⟩ | hsum := t.eq_sum_or_isSum_eq_false
  · cases h with
    | sum h hwhole => exact fun s hs => ⟨h s hs, hwhole s hs⟩
  · rw [summands_eq hsum]
    simpa using h.summand_of_isSum hsum

theorem Polynomial.finite (h : Polynomial t) : t.Finite :=
  fun s hs => (h.summand s hs).polynomial.ne_infinite

theorem Summand.factor (h : Summand t) (hfactor : t.isFactor = true) : Factor t := by
  refine ⟨⟨h.polynomial, ?_⟩, hfactor⟩
  cases h.polynomial with
  | num => simp [isFactor] at hfactor
  | sym => simp [Whole]
  | floor => simp [Whole]
  | mod => simp [Whole]
  | sum => exact h.whole_of_isSum rfl
  | prod => simp [isFactor] at hfactor
  | multiple => simp [isFactor] at hfactor
  | pow hb hwhole =>
    rw [Whole, span_pow]
    exact pow_le_one' hwhole _

theorem Polynomial.of_multiple {q : Rat} (h : Polynomial (.prod [.num q, t])) : Polynomial t := by
  cases h with
  | prod h => exact h t (by simp)
  | multiple _ h => exact h t (by simp)

/-! ## Values and coefficients -/

private theorem sum_mem_span (h : ∀ t ∈ ts, t.value env ∈ t.span) :
    (ts.map (value env)).sum ∈ (ts.map span).sum := by
  induction ts with
  | nil => simp
  | cons t ts ih =>
    rw [forall_mem_cons] at h
    exact Submodule.add_mem_sup h.1 (ih h.2)

theorem prod_mem_span (h : ∀ t ∈ ts, t.value env ∈ t.span) :
    (ts.map (value env)).prod ∈ (ts.map span).prod := by
  induction ts with
  | nil => simp
  | cons t ts ih =>
    rw [forall_mem_cons] at h
    exact Submodule.mul_mem_mul h.1 (ih h.2)

theorem sum_span_le {m : Submodule Int Rat} (h : ∀ t ∈ ts, t.span ≤ m) : (ts.map span).sum ≤ m := by
  induction ts with
  | nil => simp
  | cons t ts ih =>
    rw [forall_mem_cons] at h
    exact add_le_iff.mpr ⟨h.1, ih h.2⟩

theorem prod_span_le_one (h : ∀ t ∈ ts, t.Whole) : (ts.map span).prod ≤ 1 := by
  induction ts with
  | nil => simp
  | cons t ts ih =>
    rw [forall_mem_cons] at h
    exact mul_le_one' h.1 (ih h.2)

theorem Polynomial.value_mem_span (h : Polynomial t) (env : String → Int) :
    t.value env ∈ t.span := by
  induction h with
  | num q => simp
  | sym s => simp
  | floor _ => simp
  | @mod p n _ hwhole _ ih =>
    rw [value_mod, value_num, span_mod]
    refine sub_mem (hwhole ih) ?_
    exact_mod_cast intCast_mem_one (n * ⌊p.value env / n⌋)
  | sum _ _ ih =>
    rw [value_sum, span_sum]
    exact sum_mem_span ih
  | prod _ _ _ ih =>
    rw [value_prod, span_prod]
    exact prod_mem_span ih
  | multiple c _ _ _ ih =>
    rw [value_prod, span_prod]
    refine prod_mem_span ?_
    rw [forall_mem_cons]
    exact ⟨by simp, ih⟩
  | pow _ _ _ _ ih =>
    rw [(additive_value env).pow, span_pow]
    exact Submodule.pow_mem_pow _ ih _

theorem Integral.value_mem (h : Integral t) (env : String → Int) : t.value env ∈ integers :=
  mem_integers_of_mem_one (h.whole (h.polynomial.value_mem_span env))

private theorem evalSum_eq (h : ∀ t ∈ ts, t.evalInt env = some (t.value env)) :
    evalSum (fun s => (env s : Rat)) ts = some (ts.map (value env)).sum := by
  induction ts with
  | nil => rfl
  | cons t ts ih =>
    rw [forall_mem_cons, evalInt] at h
    rw [evalSum, h.1, ih h.2, map_cons, sum_cons]
    rfl

private theorem evalProd_eq (h : ∀ t ∈ ts, t.evalInt env = some (t.value env)) :
    evalProd (fun s => (env s : Rat)) ts = some (ts.map (value env)).prod := by
  induction ts with
  | nil => rfl
  | cons t ts ih =>
    rw [forall_mem_cons, evalInt] at h
    rw [evalProd, h.1, ih h.2, map_cons, prod_cons]
    rfl

theorem Polynomial.evalInt_eq (h : Polynomial t) : t.evalInt env = some (t.value env) := by
  induction h with
  | num q => simp [evalInt, eval]
  | sym s => simp [evalInt, eval]
  | floor _ ih =>
    rw [evalInt] at ih
    simp [evalInt, eval, ih]
    rfl
  | @mod p n _ _ hn ih =>
    rw [evalInt] at ih
    have hne : n ≠ 0 := hn.ne'
    simp [evalInt, eval, ih, hne]
    rfl
  | sum _ _ ih => rw [evalInt, eval, evalSum_eq ih, value_sum]
  | prod _ _ _ ih => rw [evalInt, eval, evalProd_eq ih, value_prod]
  | multiple c _ _ _ ih =>
    rw [evalInt, eval, evalProd_eq (forall_mem_cons.mpr ⟨by simp [evalInt, eval], ih⟩), value_prod]
  | @pow b n _ _ _ _ ih =>
    rw [evalInt] at ih
    rw [(additive_value env).pow]
    simp [evalInt, eval, ih, ratPow?]

/-! ## Common factors -/

theorem span_num_le {a b : Int} (h : b ∣ a) : (num (a : Rat)).span ≤ (num (b : Rat)).span := by
  obtain ⟨k, rfl⟩ := h
  rw [Int.cast_mul, span_num_mul]
  exact mul_le_of_le_one_right' (whole_num k)

private theorem span_prod_le (hc : contentProd ts = some c)
    (h : ∀ t ∈ ts, ∀ d : Nat, t.content = some d → t.span ≤ (num (d : Rat)).span) :
    (ts.map span).prod ≤ (num (c : Rat)).span := by
  induction ts generalizing c with
  | nil =>
    obtain rfl : 1 = c := by simpa [contentProd] using hc
    rw [Nat.cast_one, span_num_one]
    simp
  | cons t ts ih =>
    rw [forall_mem_cons] at h
    simp only [contentProd, Option.bind_eq_bind, Option.bind_eq_some_iff] at hc
    obtain ⟨d, hd, e, he, hde⟩ := hc
    obtain rfl : d * e = c := Option.some.inj hde
    rw [Nat.cast_mul, span_num_mul]
    exact mul_le_mul' (h.1 d hd) (ih he h.2)

private theorem span_le_of_content_num {q : Rat} (h : (num q).content = some c) :
    (num q).span ≤ (num (c : Rat)).span := by
  simp only [content, Option.ite_none_right_eq_some, Option.some.injEq] at h
  obtain ⟨hden, rfl⟩ := h
  have hle := span_num_le (a := q.num) (b := q.num.natAbs) Int.natAbs_dvd_self
  rwa [Rat.coe_int_num_of_den_eq_one hden, Int.cast_natCast] at hle

private theorem Polynomial.span_le_of_content (h : Polynomial t) :
    ∀ c : Nat, t.content = some c → t.span ≤ (Term.num (c : Rat)).span := by
  induction h with
  | num q => exact fun c hc => span_le_of_content_num hc
  | sym | floor | mod =>
    intro c hc
    obtain rfl : 1 = c := by simpa [content] using hc
    rw [Nat.cast_one, span_num_one]
    simp
  | sum _ _ ih =>
    intro c hc
    rw [span_sum]
    refine sum_span_le fun t ht => ?_
    obtain ⟨d, hd, hdvd⟩ := contentSum_dvd (by simpa [content] using hc) t ht
    refine (ih t ht d hd).trans ?_
    exact_mod_cast span_num_le (Int.natCast_dvd_natCast.mpr hdvd)
  | prod _ _ _ ih =>
    intro c hc
    rw [span_prod]
    exact span_prod_le (by simpa [content] using hc) ih
  | multiple q _ _ _ ih =>
    intro c hc
    rw [span_prod]
    refine span_prod_le (by simpa [content] using hc) ?_
    rw [forall_mem_cons]
    exact ⟨fun d => span_le_of_content_num, ih⟩
  | @pow b n _ _ _ _ ih =>
    intro c hc
    simp only [content, Rat.den_natCast, Rat.num_natCast, Int.natCast_nonneg, and_self, if_true,
      Int.toNat_natCast, Option.map_eq_some_iff] at hc
    obtain ⟨d, hd, hdc⟩ := hc
    obtain rfl : d ^ n = c := hdc
    rw [span_pow, Nat.cast_pow]
    refine (pow_le_pow_left' (ih d hd) n).trans_eq ?_
    simp [Submodule.span_pow]

/-! ## Sums -/

/-- What a sum multiplies by numbers. -/
def Base (t : Term) : Prop := Factor t ∨ ∃ ts, t = .prod ts ∧ ∀ s ∈ ts, Factor s

theorem Base.summand_multiple (h : Base t) (c : Rat) : Summand (multiple c t) := by
  obtain hfactor | ⟨ts, rfl, hfactors⟩ := h
  · unfold multiple
    split
    · exact hfactor.toIntegral.summand
    · split
      · have := hfactor.isFactor
        simp [isFactor] at this
      · exact (Polynomial.ofMultiple c (by simpa using hfactor)).summand_of_isSum rfl
  · unfold multiple
    split
    · exact (Polynomial.ofFactors hfactors).summand_of_isSum rfl
    · exact (Polynomial.ofMultiple c hfactors).summand_of_isSum rfl

private theorem coefficient_prod (h : ∀ t ∈ ts, t.isFactor = true) :
    (prod ts).coefficient = (1, .prod ts) := by
  cases ts with
  | nil => rfl
  | cons t ts =>
    have ht := h t (by simp)
    cases t with
    | num => simp [isFactor] at ht
    | _ => rfl

theorem Summand.base (h : Summand t) (hnum : t.isNum = false) : Base t.coefficient.2 := by
  cases h.polynomial with
  | num => simp [isNum] at hnum
  | sym | floor | mod | sum | pow => exact .inl (h.factor rfl)
  | prod hts hwhole hfactor =>
    rw [coefficient_prod hfactor]
    exact .inr ⟨_, rfl, fun t ht => ⟨⟨hts t ht, hwhole t ht⟩, hfactor t ht⟩⟩
  | @multiple c ts hts hwhole hfactor =>
    have hfactors : ∀ t ∈ ts, Factor t := fun t ht =>
      ⟨⟨hts t ht, hwhole t ht⟩, hfactor t ht⟩
    simp only [coefficient]
    split
    · exact .inl (hfactors _ (by simp))
    · exact .inr ⟨_, rfl, hfactors⟩

theorem Polynomial.add (h : ∀ t ∈ ts, Polynomial t) : Polynomial (add ts) := by
  obtain hsummand | ⟨us, -, heq, hsummands⟩ := add_cases (P := Summand)
    (fun t ht => (h t ht).finite) (fun q => (Polynomial.num q).summand_of_isSum rfl)
    fun t ht s hs hnum => (((h t ht).summand s hs).base hnum).summand_multiple
  · exact hsummand.polynomial
  · rw [heq]
    exact .sum (fun t ht => (hsummands t ht).polynomial) fun t ht => (hsummands t ht).whole_of_isSum

theorem Polynomial.span_add (h : ∀ t ∈ ts, Polynomial t) : (Term.add ts).span ≤ (ts.map span).sum :=
  additive_span.add fun t ht => (h t ht).finite

theorem Integral.add (h : ∀ t ∈ ts, Integral t) : Integral (add ts) := by
  have hpolynomial : ∀ t ∈ ts, Polynomial t := fun t ht => (h t ht).polynomial
  exact ⟨.add hpolynomial, (Polynomial.span_add hpolynomial).trans
    (sum_span_le fun t ht => (h t ht).whole)⟩

/-! ## Products -/

/-- A term that has the value and at most the coefficients of a product. -/
structure ProductOf (ts : List Term) (t : Term) : Prop where
  polynomial : Polynomial t
  span_le : t.span ≤ (ts.map span).prod
  value_eq (env : String → Int) : t.value env = (ts.map (value env)).prod

private theorem Summand.scaleMember (h : Summand t) (c : Rat) : Polynomial (scaleMember c t) := by
  obtain ⟨q, rfl⟩ | hnum := t.eq_num_or_isNum_eq_false
  · exact .num _
  · rw [scaleMember_eq hnum]
    exact ((h.base hnum).summand_multiple _).polynomial

theorem productOf_scaled {us : List Term} (h : Polynomial (.sum us)) (c : Rat) :
    ProductOf [.num c, .sum us] (add (us.map (scaleMember c))) := by
  have hscaled : ∀ t ∈ us.map (scaleMember c), Polynomial t := by
    intro t ht
    obtain ⟨u, hu, rfl⟩ := mem_map.mp ht
    exact (h.summand u hu).scaleMember c
  refine ⟨.add hscaled, ?_, fun env => ?_⟩
  · refine (Polynomial.span_add hscaled).trans_eq ?_
    simp only [map_map, map_cons, map_nil, prod_cons, prod_nil,
      mul_one, span_sum, ← sum_map_mul_left]
    simp only [Function.comp_def, additive_span.scaleMember]
  · rw [value_add fun t ht => (hscaled t ht).finite]
    simp only [map_map, map_cons, map_nil, prod_cons, prod_nil,
      mul_one, value_sum, ← sum_map_mul_left]
    simp only [Function.comp_def, (additive_value env).scaleMember, value_num]

private theorem Factor.polynomial_ofFactors (h : ∀ t ∈ ts, Factor t) :
    Polynomial (ofFactors ts) := by
  have harranged : ∀ t ∈ arrange ts, Factor t := fun t ht =>
    h t ((mergeSort_perm ts before).mem_iff.mp ht)
  unfold ofFactors
  split
  · exact .num 1
  · rename_i t heq
    exact (harranged t (by simp [heq])).polynomial
  · exact .ofFactors harranged

private theorem Factor.isNum_eq (h : Factor t) : t.isNum = false := by
  have hfactor := h.isFactor
  cases t with
  | num => simp [Term.isFactor] at hfactor
  | _ => rfl

private theorem Factor.polynomial_ofFactors_num (h : ∀ t ∈ ts, Factor t) (c : Rat) :
    Polynomial (ofFactors (.num c :: ts)) := by
  obtain ⟨us, hus, hperm⟩ := arrange_num_cons (fun t ht => (h t ht).isNum_eq) c
  have hfactors : ∀ t ∈ us, Factor t := fun t ht => h t (hperm.mem_iff.mp ht)
  unfold ofFactors
  rw [hus]
  cases us with
  | nil => exact .num c
  | cons => exact .ofMultiple c hfactors

private theorem productOf_ofProduct (h : ∀ t ∈ ts, Factor t) (c : Rat) :
    ProductOf (.num c :: ts) (ofProduct c ts) := by
  have hpolynomial : (∃ us, ts = [.sum us] ∧ ofProduct c ts = add (us.map (scaleMember c))) ∨
      Polynomial (ofProduct c ts) := by
    unfold ofProduct
    split_ifs
    · exact .inr (.num 0)
    · exact .inr (Factor.polynomial_ofFactors h)
    · split
      · exact .inr (.num c)
      · exact .inl ⟨_, rfl, rfl⟩
      · exact .inr (Factor.polynomial_ofFactors_num h c)
  by_cases hsum : ∃ us, ts = [.sum us] ∧ ofProduct c ts = add (us.map (scaleMember c))
  · obtain ⟨us, rfl, heq⟩ := hsum
    rw [heq]
    exact productOf_scaled (h _ (by simp)).polynomial c
  · refine ⟨hpolynomial.resolve_left hsum, ?_, fun env => ?_⟩
    · exact ((additive_span.ofProduct c ts).resolve_right hsum).le
    · exact ((additive_value env).ofProduct c ts).resolve_right hsum

theorem Factor.basePower (h : Factor t) :
    Factor t.basePower.1 ∧ ∃ n : Nat, 0 < n ∧ t.basePower.2 = .num n := by
  cases h.polynomial with
  | num | prod | multiple => simpa [Term.isFactor] using h.isFactor
  | sym | floor | mod | sum => exact ⟨h, 1, by simp, by simp [basePower, one]⟩
  | pow hb hwhole hfactor hn => exact ⟨⟨⟨hb, hwhole⟩, hfactor⟩, _, hn, rfl⟩

private theorem factor_factors {powers : List (Term × Term)} (h : PositivePowers Factor powers) :
    ∀ t ∈ powers.filterMap (fun p => factor? p.1 p.2), Factor t := by
  intro t ht
  obtain ⟨⟨b, e⟩, hp, hfactor⟩ := mem_filterMap.mp ht
  obtain ⟨hb, n, hn, he⟩ := h _ hp
  obtain rfl : e = .num n := he
  unfold factor? at hfactor
  split_ifs at hfactor
  · exact Option.some.inj hfactor ▸ hb
  · rw [← Option.some.inj hfactor]
    have hpow : Polynomial (.pow b (.num n)) := .pow hb.polynomial hb.whole hb.isFactor hn
    exact (hpow.summand_of_isSum rfl).factor rfl

theorem Summand.multiplicand (h : Summand t) :
    ∀ s ∈ t.multiplicands, s.isNum = false → Factor s := by
  cases h.polynomial with
  | num => simp [multiplicands, isNum]
  | sym | floor | mod | sum | pow => simpa [multiplicands] using fun _ => h.factor rfl
  | prod hts hwhole hfactor => exact fun t ht _ => ⟨⟨hts t ht, hwhole t ht⟩, hfactor t ht⟩
  | multiple c hts hwhole hfactor =>
    simp only [multiplicands, forall_mem_cons]
    exact ⟨by simp [isNum], fun t ht _ => ⟨⟨hts t ht, hwhole t ht⟩, hfactor t ht⟩⟩

private theorem Multiplicative.multiplicands [CommSemiring M]
    {ev : Term → M} (hev : Multiplicative ev) (ts : List Term) :
    ((ts.flatMap multiplicands).map ev).prod = (ts.map ev).prod := by
  induction ts with
  | nil => simp
  | cons t ts ih =>
    rw [flatMap_cons, map_append, prod_append, ih, map_cons, prod_cons]
    congr 1
    cases t with
    | prod => exact (hev.prod _).symm
    | _ => simp [Term.multiplicands]

/-- Products are brought into normal form without a change of value. -/
theorem productOf_mul (h : ∀ t ∈ ts, Summand t) : ProductOf ts (mul ts) := by
  have hfactor : ∀ s ∈ ts.flatMap multiplicands, s.isNum = false → Factor s := by
    intro s hs
    obtain ⟨t, ht, hst⟩ := mem_flatMap.mp hs
    exact (h t ht).multiplicand s hst
  have hfinite : ∀ s ∈ ts.flatMap multiplicands, s ≠ .infinity ∧ s ≠ .undefined := by
    intro s hs
    obtain ⟨q, rfl⟩ | hnum := s.eq_num_or_isNum_eq_false
    · simp
    · exact (hfactor s hs hnum).polynomial.ne_infinite
  have hpowers : ∀ s ∈ ts.flatMap multiplicands, s.isNum = false →
      Factor s.basePower.1 ∧ ∃ n : Nat, 0 < n ∧ s.basePower.2 = .num n := fun s hs hnum =>
    (hfactor s hs hnum).basePower
  have hpositive := positivePowers_collect hpowers
  have hproduct :=
    productOf_ofProduct (factor_factors hpositive) (collectPowers (ts.flatMap multiplicands)).1
  rw [mul_eq_ofProduct hfinite]
  refine ⟨hproduct.polynomial, hproduct.span_le.trans_eq ?_, fun env => ?_⟩
  · rw [map_cons, prod_cons, additive_span.factors hpositive,
      additive_span.collectPowers hpowers, additive_span.multiplicands]
  · have hev := additive_value env
    rw [hproduct.value_eq, map_cons, prod_cons, hev.factors hpositive,
      hev.collectPowers hpowers, hev.multiplicands]

theorem Polynomial.productOf_num (h : Polynomial t) (c : Rat) :
    ProductOf [.num c, t] (mul [.num c, t]) := by
  obtain ⟨us, rfl⟩ | hsum := t.eq_sum_or_isSum_eq_false
  · rw [mul_num_sum, scaled]
    split_ifs with hzero hone
    · exact ⟨.num 0, by simp [hzero, zero], fun env => by simp [hzero]⟩
    · refine ⟨h, ?_, fun env => by simp [hone]⟩
      rw [map_cons, prod_cons, hone, span_num_one, one_mul]
      simp
    · exact productOf_scaled h c
  · refine productOf_mul ?_
    simpa using ⟨(Polynomial.num c).summand_of_isSum rfl, h.summand_of_isSum hsum⟩

theorem Integral.mul {s : Term} (hs : Integral s) (ht : Integral t) : Integral (Term.mul [s, t]) ∧
      ∀ env, (Term.mul [s, t]).value env = s.value env * t.value env := by
  have hproduct : ProductOf [s, t] (Term.mul [s, t]) :=
    productOf_mul (by simpa using ⟨hs.summand, ht.summand⟩)
  refine ⟨⟨hproduct.polynomial, hproduct.span_le.trans ?_⟩, fun env => ?_⟩
  · exact prod_span_le_one (by simpa using ⟨hs.whole, ht.whole⟩)
  · rw [hproduct.value_eq]
    simp

/-! ## Powers -/

theorem Factor.exists_powAtom (h : Factor t) (hn : 1 < n) :
    ∃ m : Nat, 0 < m ∧ t.basePower.2 = .num m ∧
      powAtom n t = .pow t.basePower.1 (.num ((m * n : Nat) : Rat)) := by
  have hnumber : ∀ {k : Nat}, 1 < k → ∀ b, (factor? b (.num k)).getD one = .pow b (.num k) := by
    intro k hk b
    have hzero : num (k : Rat) ≠ zero := by
      simp only [zero, ne_eq, num.injEq, Nat.cast_eq_zero]
      omega
    have hone : num (k : Rat) ≠ one := by
      simp only [one, ne_eq, num.injEq, Nat.cast_eq_one]
      omega
    simp [factor?, hzero, hone]
  have hatom : (factor? t (int n)).getD one = .pow t (.num ((1 * n : Nat) : Rat)) := by
    rw [Nat.one_mul]
    simpa [int] using hnumber hn t
  cases h.polynomial with
  | num | prod | multiple => simpa [Term.isFactor] using h.isFactor
  | sym | floor | mod | sum => exact ⟨1, by simp, by simp [Term.basePower, one], hatom⟩
  | @pow b m hb hwhole hfactor hm =>
    refine ⟨m, hm, rfl, ?_⟩
    have hmul : mul [.num (m : Rat), int n] = .num ((m * n : Nat) : Rat) := by
      rw [int, mul_nums]
      push_cast
      ring_nf
    rw [powAtom, hmul]
    exact hnumber (by nlinarith) b

theorem numPow_natCast (q : Rat) (n : Nat) : numPow q n = .num (q ^ n) := by
  simp [numPow]

private theorem Multiplicative.num_pow [CommSemiring M] {ev : Term → M}
    (hev : Multiplicative ev) (q : Rat) (n : Nat) : ev (.num (q ^ n)) = ev (.num q) ^ n := by
  induction n with
  | zero => simp [hev.num_one]
  | succ n ih => rw [pow_succ, hev.num_mul, ih, pow_succ]

theorem Multiplicative.powAtom [CommSemiring M] {ev : Term → M} (hev : Multiplicative ev)
    (h : t.isNum = false → Factor t) (hn : 1 < n) : ev (powAtom n t) = ev t ^ n := by
  obtain ⟨q, rfl⟩ | hnum := t.eq_num_or_isNum_eq_false
  · rw [powAtom, numPow_natCast, hev.num_pow]
  · obtain ⟨m, -, hexponent, hpower⟩ := (h hnum).exists_powAtom hn
    rw [hpower, hev.pow, pow_mul, ← hev.pow, ← hexponent, hev.basePower]

private theorem summand_powAtom (h : t.isNum = false → Factor t) (hn : 1 < n) :
    Summand (powAtom n t) := by
  obtain ⟨q, rfl⟩ | hnum := t.eq_num_or_isNum_eq_false
  · rw [powAtom, numPow_natCast]
    exact (Polynomial.num _).summand_of_isSum rfl
  · obtain ⟨m, hm, -, hpower⟩ := (h hnum).exists_powAtom hn
    have hbase := (h hnum).basePower.1
    rw [hpower]
    exact (Polynomial.pow hbase.polynomial hbase.whole hbase.isFactor
      (by positivity)).summand_of_isSum rfl

private theorem Multiplicative.map_powAtom [CommSemiring M] {ev : Term → M}
    (hev : Multiplicative ev) (h : ∀ t ∈ ts, t.isNum = false → Factor t) (hn : 1 < n) :
    ((ts.map (Term.powAtom n)).map ev).prod = (ts.map ev).prod ^ n := by
  induction ts with
  | nil => simp
  | cons t ts ih =>
    rw [forall_mem_cons] at h
    simp only [map_cons, prod_cons]
    rw [hev.powAtom h.1 hn, ih h.2, mul_pow]

def isProd : Term → Bool
  | .prod _ => true
  | _ => false

private theorem power_one (b : Term) : power b (.num 1) = b := by
  simp [power, asInt?]

private theorem power_of_one_lt (hn : 1 < n) :
    (∀ ts, power (.prod ts) (.num n) = mul (ts.map (powAtom n))) ∧
      ∀ b, b.isProd = false → power b (.num n) = powAtom n b := by
  have hexponent : (num (n : Rat)).asInt? = some (n : Int) := by
    exact_mod_cast asInt?_num_int n
  obtain ⟨k, rfl⟩ : ∃ k, n = k + 2 := ⟨n - 2, by omega⟩
  constructor
  · intro ts
    rw [power, hexponent]
    rfl
  · intro b hb
    rw [power, hexponent]
    cases b with
    | prod => simp [isProd] at hb
    | _ => rfl

theorem Integral.productOf_power (h : Integral b) (hn : 0 < n) :
    ProductOf (replicate n b) (power b (.num n)) := by
  have hfactors := h.summand.multiplicand
  obtain hone | hlarge := Nat.eq_or_lt_of_le hn
  · obtain rfl : 1 = n := hone
    rw [Nat.cast_one, power_one]
    exact ⟨h.polynomial, by simp, by simp⟩
  cases hprod : b.isProd with
  | true =>
    cases b with
    | prod ts =>
      have hsummands : ∀ t ∈ ts.map (powAtom n), Summand t := by
        intro t ht
        obtain ⟨s, hs, rfl⟩ := mem_map.mp ht
        exact summand_powAtom (hfactors s hs) hlarge
      have hproduct := productOf_mul hsummands
      rw [multiplicands] at hfactors
      rw [(power_of_one_lt hlarge).1]
      refine ⟨hproduct.polynomial, hproduct.span_le.trans_eq ?_, fun env => ?_⟩
      · rw [additive_span.map_powAtom hfactors hlarge, map_replicate, prod_replicate, span_prod]
      · rw [hproduct.value_eq, (additive_value env).map_powAtom hfactors hlarge,
          map_replicate, prod_replicate, value_prod]
    | _ => simp [isProd] at hprod
  | false =>
    have hself : b.isNum = false → Factor b := by
      refine hfactors b ?_
      cases b with
      | prod ts => simp [isProd] at hprod
      | _ => simp [multiplicands]
    rw [(power_of_one_lt hlarge).2 b hprod]
    refine ⟨(summand_powAtom hself hlarge).polynomial, ?_, fun env => ?_⟩
    · rw [additive_span.powAtom hself hlarge, map_replicate, prod_replicate]
    · rw [(additive_value env).powAtom hself hlarge, map_replicate, prod_replicate]

/-! ## Floors and remainders -/

theorem Integral.mul_num (h : Integral t) (n : Int) : Integral (Term.mul [.num n, t]) :=
  (Integral.mul (.ofInt n) h).1

theorem Polynomial.value_mul_num (h : Polynomial t) (c : Rat) :
    (mul [.num c, t]).value env = c * t.value env := by
  rw [(h.productOf_num c).value_eq]
  simp

theorem Integral.divide (h : Integral t) {g : Nat} (hg : 0 < g) (hc : t.content = some c)
    (hdvd : g ∣ c) : Integral (Term.mul [.num (1 / (g : Rat)), t]) := by
  have hproduct := h.polynomial.productOf_num (1 / (g : Rat))
  obtain ⟨k, rfl⟩ := hdvd
  have hcast : (g : Rat) ≠ 0 := by exact_mod_cast hg.ne'
  have hquotient : 1 / (g : Rat) * ((g * k : Nat) : Rat) = ((k : Int) : Rat) := by
    push_cast
    field_simp
  refine ⟨hproduct.polynomial, hproduct.span_le.trans ?_⟩
  calc ([.num (1 / (g : Rat)), t].map span).prod
      = (num (1 / (g : Rat))).span * t.span := by simp
    _ ≤ (num (1 / (g : Rat))).span * (num ((g * k : Nat) : Rat)).span :=
        mul_le_mul' le_rfl (h.polynomial.span_le_of_content _ hc)
    _ = (num ((k : Int) : Rat)).span := by rw [← span_num_mul, hquotient]
    _ ≤ 1 := whole_num k

private theorem Factor.asInt?_eq (h : Factor t) : t.asInt? = none := by
  have hfactor := h.isFactor
  cases t with
  | num => simp [Term.isFactor] at hfactor
  | _ => rfl

def reduceFactor (n : Int) (t : Term) : Term :=
  match t.asInt? with
  | some m => if Int.fmod m n = 0 then t else int (Int.fmod m n)
  | none => t

theorem reduceFactors_eq (n : Int) (ts : List Term) :
    reduceFactors n ts = mul (ts.map (reduceFactor n)) := rfl

private theorem map_reduceFactor (h : ∀ t ∈ ts, Factor t) (n : Int) :
    ts.map (reduceFactor n) = ts := by
  conv_rhs => rw [← map_id ts]
  refine map_congr_left fun t ht => ?_
  simp [reduceFactor, (h t ht).asInt?_eq]

theorem exists_reduceFactor_num (c : Rat) (n : Int) : ∃ d, reduceFactor n (.num c) = .num d ∧
      (d = c ∨ (num d).Whole ∧ ∃ k : Int, d = c + n * k) := by
  unfold reduceFactor
  cases hc : (num c).asInt? with
  | none => exact ⟨c, rfl, .inl rfl⟩
  | some m =>
    obtain rfl : c = m := by simpa using asInt?_eq_some.mp hc
    simp only
    split_ifs
    · exact ⟨_, rfl, .inl rfl⟩
    · obtain ⟨k, hk⟩ := fmod_eq_add_mul m n
      exact ⟨Int.fmod m n, rfl, .inr ⟨whole_num _, k, by rw [hk]; push_cast; rfl⟩⟩

theorem Integral.reducedFactors (h : Integral (.prod ts)) (n : Int) :
    ReducedFactors Integral n ts := by
  have hwhole : (ts.map span).prod ≤ 1 := span_prod ts ▸ h.whole
  unfold ReducedFactors
  rw [reduceFactors_eq]
  cases h.polynomial with
  | prod hts hfactorWhole hfactor =>
    have hfactors : ∀ t ∈ ts, Factor t := fun t ht =>
      ⟨⟨hts t ht, hfactorWhole t ht⟩, hfactor t ht⟩
    have hproduct := productOf_mul fun t ht => (hfactors t ht).summand
    rw [map_reduceFactor hfactors]
    refine ⟨⟨hproduct.polynomial, hproduct.span_le.trans hwhole⟩, fun env => ⟨0, ?_⟩⟩
    rw [hproduct.value_eq, value_prod]
    simp
  | @multiple c us hus husWhole hfactor =>
    have hfactors : ∀ t ∈ us, Factor t := fun t ht =>
      ⟨⟨hus t ht, husWhole t ht⟩, hfactor t ht⟩
    obtain ⟨d, hd, hcases⟩ := exists_reduceFactor_num c n
    have hsummands : ∀ t ∈ .num d :: us, Summand t := by
      rw [forall_mem_cons]
      exact ⟨(Polynomial.num d).summand_of_isSum rfl, fun t ht => (hfactors t ht).summand⟩
    have hproduct := productOf_mul hsummands
    rw [map_cons, hd, map_reduceFactor hfactors]
    obtain rfl | ⟨hdWhole, k, hk⟩ := hcases
    · refine ⟨⟨hproduct.polynomial, hproduct.span_le.trans hwhole⟩, fun env => ⟨0, ?_⟩⟩
      rw [hproduct.value_eq, value_prod]
      simp
    · refine ⟨⟨hproduct.polynomial, hproduct.span_le.trans ?_⟩, fun env => ?_⟩
      · rw [map_cons, prod_cons]
        exact mul_le_one' hdWhole (prod_span_le_one husWhole)
      · -- the other factors are integers, so the difference is a multiple of `n`
        have hothers : (us.map (value env)).prod ∈ (us.map span).prod :=
          prod_mem_span fun t ht => (hus t ht).value_mem_span env
        obtain ⟨x, hx⟩ :=
          mem_integers.mp (mem_integers_of_mem_one (prod_span_le_one husWhole hothers))
        refine ⟨k * x, ?_⟩
        rw [hproduct.value_eq, value_prod, map_cons, prod_cons,
          map_cons, prod_cons, value_num, value_num, hx, hk]
        push_cast
        ring

theorem arithmetic_polynomial : Arithmetic Polynomial Integral where
  int n := .ofInt n
  finite h := h.polynomial.finite
  integral h := h.value_mem
  summand h s hs :=
    ⟨(h.polynomial.summand s hs).polynomial,
      (le_sum_of_mem (mem_map_of_mem hs)).trans (additive_span.summands _ ▸ h.whole)⟩
  add h := .add h
  mul_num h n := h.mul_num n
  value_mul_num h := h.polynomial.value_mul_num
  mod h _ hn := ⟨.mod h.polynomial h.whole hn, by simp [Whole]⟩
  of_mod h := by
    cases h.polynomial with
    | mod hp hwhole hn => exact ⟨⟨hp, hwhole⟩, _, rfl, hn⟩
  of_neg_mod h := by
    cases h.polynomial with
    | prod _ _ hfactor => simpa [isFactor] using hfactor (.num (-1)) (by simp)
    | multiple _ hts hwhole => exact ⟨hts _ (by simp), hwhole _ (by simp)⟩
  divide h hg hc hdvd := h.divide hg hc hdvd
  reduceFactors h := h.reducedFactors _
  of_whole h := h.polynomial
  sym s := ⟨.sym s, by simp [Whole]⟩
  finite_rational h := h.finite
  evalInt_eq h := h.evalInt_eq
  rational_summand h s hs := (h.summand s hs).polynomial
  rational_add h := .add h
  rational_mul_num h c := (h.productOf_num c).polynomial
  floor h := ⟨.floor h, by simp [Whole]⟩
  whole_floor h := ⟨h, by simp [Whole]⟩

end Polyloom.Term
