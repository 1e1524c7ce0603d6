import Mathlib.Tactic.Positivity
import Mathlib.Tactic.Ring
import Polyloom.Term.Round
import Polyloom.Proofs.Term.Multiple

/-!
# Floors and remainders

Floors and remainders are simplified without a change of value, and the simplified terms are
of the same kind.  That takes few facts about the kind of terms, which a `Reduction` lists for
remainders and an `Arithmetic` for floors as well.  Remainders are by positive integers throughout.
-/

namespace Polyloom.Term

open Term Except List Option

variable {env : String → Int} {t p : Term} {n : Int}
  {rational whole : Term → Prop} {x : Rat} {c g : Nat}

/-- The integer factors of a product are reduced by `n`. -/
def ReducedFactors (whole : Term → Prop) (n : Int) (factors : List Term) : Prop :=
  whole (reduceFactors n factors) ∧
    ∀ env, ∃ k : Int, (reduceFactors n factors).value env = (prod factors).value env + n * k

/-- Terms that are added, multiplied by integers and reduced.  They have `whole` coefficients, so
they are integers. -/
structure Reduction (whole : Term → Prop) : Prop where
  int (n : Int) : whole (.num n)
  finite {t : Term} : whole t → t.Finite
  integral {t : Term} : whole t → ∀ env, t.value env ∈ integers
  summand {t : Term} : whole t → ∀ s ∈ t.summands, whole s
  add {ts : List Term} : (∀ t ∈ ts, whole t) → whole (Term.add ts)
  mul_num {t : Term} : whole t → ∀ n : Int, whole (mul [.num n, t])
  value_mul_num {t : Term} {env : String → Int} :
    whole t → ∀ c, (mul [.num c, t]).value env = c * t.value env
  mod {p : Term} {n : Int} : whole p → p.isNum = false → 0 < n → whole (.mod p (.num n))
  of_mod {p q : Term} : whole (.mod p q) → whole p ∧ ∃ n : Int, q = .num n ∧ 0 < n
  of_neg_mod {p q : Term} : whole (.prod [.num (-1), .mod p q]) → whole (.mod p q)
  divide {t : Term} {g c : Nat} :
    whole t → 0 < g → t.content = some c → g ∣ c → whole (mul [.num (1 / (g : Rat)), t])
  reduceFactors {n : Int} {factors : List Term} :
    whole (.prod factors) → ReducedFactors whole n factors

/-- Terms that are floored, too, with `rational` coefficients before that. -/
structure Arithmetic (rational whole : Term → Prop) : Prop extends Reduction whole where
  of_whole {t : Term} : whole t → rational t
  sym (s : String) : whole (.sym s)
  finite_rational {t : Term} : rational t → t.Finite
  evalInt_eq {t : Term} {env : String → Int} : rational t → t.evalInt env = some (t.value env)
  rational_summand {t : Term} : rational t → ∀ s ∈ t.summands, rational s
  rational_add {ts : List Term} : (∀ t ∈ ts, rational t) → rational (Term.add ts)
  rational_mul_num {t : Term} : rational t → ∀ c, rational (mul [.num c, t])
  floor {t : Term} : rational t → whole (.floor t)
  whole_floor {t : Term} : rational (.floor t) → whole (.floor t)

theorem asInt?_eq_some : t.asInt? = some n ↔ t = .num n := by
  constructor
  · intro h
    cases t with
    | num q =>
      simp only [asInt?, ite_none_right_eq_some, some.injEq] at h
      rw [← h.2, Rat.coe_int_num_of_den_eq_one h.1]
    | _ => simp [asInt?] at h
  · rintro rfl
    simp [asInt?]

@[simp] theorem asInt?_num_int (n : Int) : (num (n : Rat)).asInt? = some n :=
  asInt?_eq_some.mpr rfl

/-! ## Floors -/

private theorem value_partition (env : String → Int) (p : Term → Bool) (ts : List Term) :
    ((ts.filter p).map (value env)).sum + ((ts.filter fun t => !p t).map (value env)).sum =
      (ts.map (value env)).sum := by
  induction ts with
  | nil => simp
  | cons t ts ih =>
    cases h : p t <;> simp [h] <;> linarith

def floorBeside (s : Term) (integers : List Term) : Term :=
  match s with
  | .floor t => add (.floor t :: integers)
  | .num q => add (int q.floor :: integers)
  | t => add (.floor t :: integers)

theorem floorOf_eq (h : t.isNum = false) (hfinite : t ≠ .infinity ∧ t ≠ .undefined) : floorOf t =
      floorBeside (add (t.summands.filter fun s => !s.asInt?.isSome)) (t.summands.filter fun s =>
        s.asInt?.isSome) := by
  cases t with
  | num => simp [isNum] at h
  | infinity => simp at hfinite
  | undefined => simp at hfinite
  | _ =>
    simp only [floorOf, partition_eq_filter_filter, Function.comp_def]
    rfl

namespace Reduction

variable (A : Reduction whole) {s : Term}

include A

private theorem whole_zero : whole zero := by
  have h := A.int 0
  rwa [Int.cast_zero] at h

theorem value_add {ts : List Term} (h : ∀ t ∈ ts, whole t) :
    (Term.add ts).value env = (ts.map (value env)).sum :=
  Term.value_add fun t ht => A.finite (h t ht)

theorem whole_neg (h : whole t) : whole t.neg := by
  have hmul := A.mul_num h (-1)
  push_cast at hmul
  exact hmul

theorem value_neg (h : whole t) : t.neg.value env = -t.value env := by
  rw [neg, A.value_mul_num h, neg_one_mul]

theorem value_sub (hs : whole s) (ht : whole t) :
    (Term.sub s t).value env = s.value env - t.value env := by
  have hboth : ∀ u ∈ [s, t.neg], whole u := by
    simpa using ⟨hs, A.whole_neg ht⟩
  rw [Term.sub, A.value_add hboth]
  simp [A.value_neg ht, sub_eq_add_neg]

end Reduction

namespace Arithmetic

variable (A : Arithmetic rational whole) {s : Term}

include A

private theorem floorBeside_spec {ints : List Term} (hs : rational s)
    (hints : ∀ t ∈ ints, whole t) :
    whole (floorBeside s ints) ∧
      ∀ env, (floorBeside s ints).value env = ⌊s.value env⌋ + (ints.map (value env)).sum := by
  have hadd : ∀ u : Term, whole u → whole (Term.add (u :: ints)) ∧
      ∀ env, (Term.add (u :: ints)).value env = u.value env + (ints.map (value env)).sum := by
    intro u hu
    have hall : ∀ t ∈ u :: ints, whole t := by
      rw [forall_mem_cons]
      exact ⟨hu, hints⟩
    refine ⟨A.add hall, fun env => ?_⟩
    rw [A.value_add hall, map_cons, sum_cons]
  unfold floorBeside
  split
  · obtain ⟨hwhole, hvalue⟩ := hadd _ (A.whole_floor hs)
    exact ⟨hwhole, fun env => by rw [hvalue]; simp⟩
  · rename_i q
    obtain ⟨hwhole, hvalue⟩ := hadd (Term.int q.floor) (A.int q.floor)
    exact ⟨hwhole, fun env => by rw [hvalue]; simp; rfl⟩
  · obtain ⟨hwhole, hvalue⟩ := hadd _ (A.floor hs)
    exact ⟨hwhole, fun env => by rw [hvalue]; simp⟩

theorem integer_summands (ts : List Term) :
    ∀ s ∈ ts.filter (fun s => s.asInt?.isSome), whole s := by
  intro s hs
  obtain ⟨n, hn⟩ := isSome_iff_exists.mp (mem_filter.mp hs).2
  rw [asInt?_eq_some.mp hn]
  exact A.int n

private theorem integer_summands_sum (env : String → Int) (ts : List Term) :
    ∃ n : Int, ((ts.filter fun s => s.asInt?.isSome).map (value env)).sum = n := by
  refine mem_integers.mp (list_sum_mem fun x hx => ?_)
  obtain ⟨s, hs, rfl⟩ := mem_map.mp hx
  exact A.integral (A.integer_summands ts s hs) env

theorem floorOf_spec (h : rational t) :
    whole (floorOf t) ∧ ∀ env, (floorOf t).value env = ⌊t.value env⌋ := by
  obtain ⟨q, rfl⟩ | hnum := t.eq_num_or_isNum_eq_false
  · exact ⟨A.int _, fun env => by simp [floorOf]; rfl⟩
  · have hothers : ∀ s ∈ t.summands.filter (fun s => !s.asInt?.isSome), rational s :=
      fun s hs => A.rational_summand h s (mem_of_mem_filter hs)
    rw [floorOf_eq hnum (A.finite_rational h).ne]
    obtain ⟨hwhole, hvalue⟩ :=
      A.floorBeside_spec (A.rational_add hothers) (A.integer_summands t.summands)
    refine ⟨hwhole, fun env => ?_⟩
    obtain ⟨n, hn⟩ := A.integer_summands_sum env t.summands
    have hsplit := value_partition env (fun s => s.asInt?.isSome) t.summands
    rw [(additive_value env).summands, hn] at hsplit
    rw [hvalue, Term.value_add fun s hs => A.finite_rational (hothers s hs), hn, ← hsplit,
      Int.floor_intCast_add]
    push_cast
    ring

end Arithmetic

theorem div_int (t : Term) (hn : n ≠ 0) : div t (int n) = mul [t, .num (1 / (n : Rat))] := by
  have hpower : power (int n) (int (-1)) = .num (1 / (n : Rat)) := by
    have hexponent : (int (-1)).asInt? = some (-1) := asInt?_num_int (-1)
    have hcast : (n : Rat) ≠ 0 := by exact_mod_cast hn
    rw [power, hexponent]
    simp [int, powAtom, numPow, hcast]
  rw [div, hpower]

theorem floor_intCast_div (m n : Int) : ⌊(m / n : Rat)⌋ = Int.fdiv m n := by
  obtain ⟨k, rfl | rfl⟩ := Int.eq_nat_or_neg n
  · rw [Int.fdiv_eq_ediv_of_nonneg _ (Int.natCast_nonneg k)]
    exact_mod_cast Rat.floor_intCast_div_natCast m k
  · have hfloor := Rat.floor_intCast_div_natCast (-m) k
    rw [← Int.neg_fdiv_neg, neg_neg, Int.fdiv_eq_ediv_of_nonneg _ (Int.natCast_nonneg k), ← hfloor]
    push_cast
    rw [div_neg, neg_div]

theorem Arithmetic.floorDiv_spec (A : Arithmetic rational whole) (h : whole t) (hn : 0 < n) :
    ∃ r, floorDiv t (Term.int n) = .ok r ∧ whole r ∧ ∀ env, r.value env = ⌊t.value env / n⌋ := by
  have hdivisor : (Term.int n).asInt? = some n := asInt?_num_int n
  cases hint : t.asInt? with
  | some m =>
    refine ⟨Term.int (Int.fdiv m n), ?_, A.int _, fun env => ?_⟩
    · simp [floorDiv, hint, hdivisor, hn.ne']
    · rw [asInt?_eq_some.mp hint, value_int, value_num, floor_intCast_div]
  | none =>
    have hquotient : rational (div t (Term.int n)) := by
      rw [div_int t hn.ne', mul_num_comm]
      exact A.rational_mul_num (A.of_whole h) _
    obtain ⟨hwhole, hvalue⟩ := A.floorOf_spec hquotient
    refine ⟨floorOf (div t (Term.int n)), ?_, hwhole, fun env => ?_⟩
    · simp [floorDiv, hint]
    · rw [hvalue, div_int t hn.ne', mul_num_comm, A.value_mul_num h, one_div_mul_eq_div]

/-! ## Residues -/

def residue (x n : Rat) : Rat := x - n * ⌊x / n⌋

theorem residue_add_mul {n : Rat} (hn : 0 < n) (x : Rat) (k : Int) :
    residue (x + n * k) n = residue x n := by
  unfold residue
  have hquotient : (x + n * k) / n = x / n + k := by field_simp
  rw [hquotient, Int.floor_add_intCast]
  push_cast
  ring

private theorem residue_mul {g : Rat} (hg : 0 < g) (x n : Rat) :
    residue (g * x) (g * n) = g * residue x n := by
  unfold residue
  rw [mul_div_mul_left _ _ hg.ne']
  ring

theorem residue_eq_self {n : Rat} (h0 : 0 ≤ x) (hlt : x < n) : residue x n = x := by
  have hfloor : ⌊x / n⌋ = 0 := by
    rw [Int.floor_eq_zero_iff, Set.mem_Ico]
    exact ⟨div_nonneg h0 (h0.trans hlt.le), (div_lt_one (h0.trans_lt hlt)).mpr hlt⟩
  simp [residue, hfloor]

private theorem residue_nonneg {n : Rat} (hn : 0 < n) (x : Rat) : 0 ≤ residue x n := by
  have hle := Int.floor_le (x / n)
  have hmul := mul_le_mul_of_nonneg_left hle hn.le
  rw [mul_div_cancel₀ _ hn.ne'] at hmul
  unfold residue
  linarith

private theorem residue_lt {n : Rat} (hn : 0 < n) (x : Rat) : residue x n < n := by
  have hlt := Int.lt_floor_add_one (x / n)
  have hmul := mul_lt_mul_of_pos_left hlt hn
  rw [mul_div_cancel₀ _ hn.ne'] at hmul
  unfold residue
  linarith

theorem residue_congr {n : Rat} (hn : 0 < n) {y : Rat} (h : ∃ k : Int, x = y + n * k) :
    residue x n = residue y n := by
  obtain ⟨k, rfl⟩ := h
  exact residue_add_mul hn y k

theorem exists_residue (x n : Rat) : ∃ k : Int, residue x n = x + n * k :=
  ⟨-⌊x / n⌋, by simp [residue]; ring⟩

theorem fmod_eq_add_mul (m n : Int) : ∃ k : Int, Int.fmod m n = m + n * k :=
  ⟨-Int.fdiv m n, by rw [Int.fmod_def]; ring⟩

theorem value_mod_num (p : Term) (n : Rat) :
    (mod p (.num n)).value env = residue (p.value env) n := by
  simp [residue]

/-! ## Common factors -/

theorem contentSum_dvd {ts : List Term} (h : contentSum ts = some c) :
    ∀ t ∈ ts, ∃ d, t.content = some d ∧ c ∣ d := by
  induction ts generalizing c with
  | nil => simp
  | cons t ts ih =>
    simp only [contentSum, bind_eq_bind, bind_eq_some_iff] at h
    obtain ⟨d, hd, e, he, hc⟩ := h
    obtain rfl : Nat.gcd d e = c := some.inj hc
    rw [forall_mem_cons]
    refine ⟨⟨d, hd, Nat.gcd_dvd_left d e⟩, fun s hs => ?_⟩
    obtain ⟨k, hk, hdvd⟩ := ih he s hs
    exact ⟨k, hk, (Nat.gcd_dvd_right d e).trans hdvd⟩

theorem commonFactor_spec (hn : 0 < n) :
    0 < commonFactor p (.num n) ∧ commonFactor p (.num n) ∣ n.natAbs ∧
      (commonFactor p (.num n) = 1 ∨ ∃ c, p.content = some c ∧ commonFactor p (.num n) ∣ c) := by
  have hpos : 0 < n.natAbs := Int.natAbs_pos.mpr hn.ne'
  unfold commonFactor
  rw [asInt?_num_int]
  cases hc : p.content with
  | none => simp
  | some c =>
    have hgcd : Nat.gcd c n.natAbs ≠ 0 := (Nat.gcd_pos_of_pos_right c hpos).ne'
    simp only [if_neg hgcd]
    exact ⟨Nat.pos_of_ne_zero hgcd, Nat.gcd_dvd_right _ _, .inr ⟨c, rfl, Nat.gcd_dvd_left _ _⟩⟩

def without (g : Rat) (t : Term) : Term := if g = 1 then t else mul [.num (1 / g), t]

private theorem Reduction.without_spec (A : Reduction whole) (h : whole p) (hn : 0 < n) :
    whole (without (commonFactor p (.num n)) p) ∧
      ∀ env, p.value env = commonFactor p (.num n) *
        (without (commonFactor p (.num n)) p).value env := by
  obtain ⟨hg, -, hfactor⟩ := commonFactor_spec (p := p) hn
  generalize commonFactor p (.num n) = g at *
  unfold without
  split
  · rename_i hone
    exact ⟨h, fun env => by rw [hone, one_mul]⟩
  · rename_i hone
    have hcast : (g : Rat) ≠ 0 := by exact_mod_cast hg.ne'
    refine ⟨?_, fun env => ?_⟩
    · rcases hfactor with rfl | ⟨c, hc, hdvd⟩
      · simp at hone
      · exact A.divide h hg hc hdvd
    · rw [A.value_mul_num h]
      field_simp

private theorem without_divisor (hn : 0 < n) : ∃ m : Int, 0 < m ∧ n = commonFactor p (.num n) * m ∧
      without (commonFactor p (.num n)) (.num n) = .num m := by
  obtain ⟨hg, hdvd, -⟩ := commonFactor_spec (p := p) hn
  generalize commonFactor p (.num n) = g at *
  obtain ⟨m, hm⟩ := Int.natCast_dvd.mpr hdvd
  have hcast : (g : Rat) ≠ 0 := by exact_mod_cast hg.ne'
  have hmpos : 0 < m := by
    refine Int.pos_of_mul_pos_right (a := (g : Int)) ?_ ?_
    · exact_mod_cast hm ▸ hn
    · exact_mod_cast hg
  refine ⟨m, hmpos, hm, ?_⟩
  unfold without
  split
  · rename_i hone
    have : g = 1 := by exact_mod_cast hone
    simp [hm, this]
  · rw [mul_nums, hm]
    congr 1
    push_cast
    field_simp

/-! ## Remainders -/

/-- A term that stands for the remainder of `p` by `n`. -/
def IsRemainder (whole : Term → Prop) (p : Term) (n : Int) (r : Term) : Prop :=
  whole r ∧ ∀ env, r.value env = residue (p.value env) n

private theorem neg_num_int (n : Int) : (num (n : Rat)).neg = .num ((-n : Int) : Rat) := by
  rw [neg, mul_nums]
  push_cast
  ring_nf

private theorem residue_int_mul {n : Rat} (hn : 0 < n) (k : Int) : residue (n * k) n = 0 := by
  have h := residue_add_mul hn 0 k
  rw [zero_add] at h
  rw [h, residue_eq_self le_rfl hn]

section

variable (A : Reduction whole) {p a q : Term} {n g m : Int}
  {ts : List Term} {fuel : Nat}

include A

theorem Reduction.knownMod_spec (h : whole p) (hn : 0 < n) :
    (knownMod p (.num n) = .ok none ∧ p.isNum = false) ∨
      ∃ r, knownMod p (.num n) = .ok (some r) ∧ IsRemainder whole p n r := by
  have hcast : (0 : Rat) < n := by exact_mod_cast hn
  have hzero : num (n : Rat) ≠ zero := by simpa [zero] using hn.ne'
  have hfinite : ¬ (p = .undefined ∨ num (n : Rat) = .undefined ∨
      p = .infinity ∨ num (n : Rat) = .infinity) := by
    simpa [and_comm] using (A.finite h).ne
  unfold knownMod
  rw [if_neg hzero, if_neg hfinite]
  split
  · rename_i hcases
    refine .inr ⟨zero, rfl, A.whole_zero, fun env => ?_⟩
    have hmultiple : ∃ k : Int, p.value env = n * k := by
      rcases hcases with rfl | rfl | rfl
      · exact ⟨0, by simp⟩
      · exact ⟨1, by simp⟩
      · exact ⟨-1, by rw [neg_num_int]; simp⟩
    obtain ⟨k, hk⟩ := hmultiple
    rw [hk, residue_int_mul hcast, value_zero]
  · obtain ⟨a, rfl⟩ | hnum := p.eq_num_or_isNum_eq_false
    · right
      have ha := A.integral h fun _ => 0
      rw [value_num] at ha
      obtain ⟨m, hm⟩ := mem_integers.mp (sub_mem ha
        (mul_mem (intCast_mem_integers n) (intCast_mem_integers ⌊a / n⌋)))
      exact ⟨_, rfl, hm ▸ A.int m, fun env => by rw [value_num, value_num]; rfl⟩
    · left
      cases p with
      | num => simp [isNum] at hnum
      | _ => simp [isNum]

theorem Reduction.exists_knownMod (i : Int) (hn : 0 < n) :
    ∃ o, knownMod (.num (i : Rat)) (.num (n : Rat)) = .ok o := by
  rcases A.knownMod_spec (A.int i) hn with ⟨h, -⟩ | ⟨r, h, -⟩
  · exact ⟨_, h⟩
  · exact ⟨_, h⟩

theorem Reduction.knownMod_num_eq_zero {i : Int} (hn : 0 < n)
    (h : knownMod (.num i) (.num n) = .ok (some zero)) : ∃ k : Int, (i : Rat) = n * k := by
  rcases A.knownMod_spec (A.int i) hn with ⟨-, hnum⟩ | ⟨r, hr, -, hvalue⟩
  · simp [isNum] at hnum
  · rw [h] at hr
    obtain rfl : zero = r := by simpa using hr
    have hresidue := hvalue fun _ => 0
    rw [value_zero, value_num] at hresidue
    exact ⟨⌊(i : Rat) / n⌋, by unfold residue at hresidue; linarith⟩

/-- What a dividend is replaced by. -/
def Denested (whole : Term → Prop) (p : Term) (n : Int) : Term ⊕ (Term × Term) → Prop
  | .inl r => IsRemainder whole p n r
  | .inr (p', q) => q = .num n ∧ whole p' ∧ ∀ env, ∃ k : Int, p'.value env = p.value env + n * k

omit A in
theorem Denested.self (h : whole p) (n : Int) : Denested whole p n (.inr (p, .num n)) :=
  ⟨rfl, h, fun env => ⟨0, by simp⟩⟩

private theorem Reduction.denest_mod (h : whole (.mod a q)) (hn : 0 < n) :
    ∃ d, denest (.mod a q) (.num n) = .ok d ∧ Denested whole (.mod a q) n d := by
  obtain ⟨ha, i, rfl, hi⟩ := A.of_mod h
  have hicast : (0 : Rat) < i := by exact_mod_cast hi
  obtain ⟨k, hk⟩ := A.exists_knownMod i hn
  simp only [denest, hk, bind, Except.bind, pure, Except.pure]
  split
  · rename_i hzero
    refine ⟨_, rfl, rfl, ha, fun env => ?_⟩
    obtain ⟨m, hm⟩ := A.knownMod_num_eq_zero hn (by rw [hk, eq_of_beq hzero])
    obtain ⟨l, hl⟩ := exists_residue (a.value env) i
    refine ⟨-(m * l), ?_⟩
    rw [value_mod_num, hl, hm]
    push_cast
    ring
  · split
    · rename_i hrange
      refine ⟨_, rfl, h, fun env => ?_⟩
      rw [value_mod_num]
      have hin : (i : Rat) ≤ n := by
        by_contra hlt
        have := mul_neg_of_pos_of_neg hicast (show (n : Rat) - i < 0 by linarith)
        linarith
      exact (residue_eq_self (residue_nonneg hicast _) ((residue_lt hicast _).trans_le hin)).symm
    · exact ⟨_, rfl, .self h n⟩

omit A in
theorem denest_neg_mod_eq (a : Term) (i n : Rat) :
    denest (.prod [.num (-1), .mod a (.num i)]) (.num n) = do
      if (← knownMod (.num i) (.num n)) == some zero then return .inr (a.neg, .num n)
      else if i * (n + i) ≤ 0 then return .inl (.prod [.num (-1), .mod a (.num i)])
      else return .inr (.prod [.num (-1), .mod a (.num i)], .num n) := rfl

private theorem Reduction.denest_neg_mod (h : whole (.prod [.num (-1), .mod a q])) (hn : 0 < n) :
    ∃ d, denest (.prod [.num (-1), .mod a q]) (.num n) = .ok d ∧
      Denested whole (.prod [.num (-1), .mod a q]) n d := by
  obtain ⟨ha, i, rfl, hi⟩ := A.of_mod (A.of_neg_mod h)
  have hicast : (0 : Rat) < i := by exact_mod_cast hi
  have hncast : (0 : Rat) < n := by exact_mod_cast hn
  obtain ⟨k, hk⟩ := A.exists_knownMod i hn
  simp only [denest_neg_mod_eq, hk, bind, Except.bind, pure, Except.pure]
  split
  · rename_i hzero
    refine ⟨_, rfl, rfl, A.whole_neg ha, fun env => ?_⟩
    obtain ⟨m, hm⟩ := A.knownMod_num_eq_zero hn (by rw [hk, eq_of_beq hzero])
    obtain ⟨l, hl⟩ := exists_residue (a.value env) i
    refine ⟨m * l, ?_⟩
    rw [A.value_neg ha, value_prod]
    simp only [List.map_cons, List.map_nil, List.prod_cons, List.prod_nil,
      value_num, value_mod_num, hl]
    rw [hm]
    push_cast
    ring
  · split
    · rename_i hrange
      have := mul_pos hicast (add_pos hncast hicast)
      linarith
    · exact ⟨_, rfl, .self h n⟩

private theorem Reduction.denest_prod (h : whole (.prod ts)) (hn : 0 < n) :
    ∃ d, denest (.prod ts) (.num n) = .ok d ∧ Denested whole (.prod ts) n d := by
  by_cases hmod : ∃ a i, ts = [.num (-1), .mod a i]
  · obtain ⟨a, i, rfl⟩ := hmod
    exact A.denest_neg_mod h hn
  · unfold denest
    split
    · simp_all
    · rename_i a inner heq
      exact absurd ⟨a, inner, prod.inj heq⟩ hmod
    · simp_all
    · rename_i us _ heq
      obtain rfl : ts = us := prod.inj heq
      rw [asInt?_num_int]
      simp only [pure, pure]
      split
      · exact ⟨_, rfl, .self h n⟩
      · exact ⟨_, rfl, rfl, A.reduceFactors h⟩
    · exact ⟨_, rfl, .self h n⟩

def modParts : Term → Option (Term × Term)
  | .mod a b => some (a, b)
  | _ => none

def isMod : Term → Bool
  | .mod _ _ => true
  | _ => false

omit A in
private theorem denest_sum_value (env : String → Int)
    (h : (ts.filterMap modParts).all fun m => m.2 == .num n) :
    ∃ k : Int, ((ts.filter fun t => !t.isMod).map (value env)).sum +
      ((ts.filterMap modParts).map fun m => m.1.value env).sum =
        (ts.map (value env)).sum + n * k := by
  induction ts with
  | nil => exact ⟨0, by simp⟩
  | cons t ts ih =>
    cases hmod : t.isMod with
    | true =>
      cases t with
      | mod a b =>
        simp only [filterMap_cons, modParts, all_cons, Bool.and_eq_true, beq_iff_eq] at h
        obtain ⟨k, hk⟩ := ih h.2
        obtain ⟨l, hl⟩ := exists_residue (a.value env) n
        refine ⟨k - l, ?_⟩
        rw [h.1, filter_cons_of_neg (by simp [isMod])]
        simp only [filterMap_cons, modParts, map_cons, sum_cons, value_mod_num, hl]
        push_cast
        linarith
      | _ => simp [isMod] at hmod
    | false =>
      have hparts : t.modParts = none := by
        cases t with
        | mod => simp [isMod] at hmod
        | _ => rfl
      rw [filterMap_cons, hparts] at h
      obtain ⟨k, hk⟩ := ih h
      refine ⟨k, ?_⟩
      simp only [filter_cons, hmod, filterMap_cons, hparts, map_cons,
        sum_cons, Bool.not_false, if_true]
      linarith

def denestSum (parts : Term → Option (Term × Term)) (rest : Term → Bool)
    (ts : List Term) (q : Term) :
    Except Fault (Term ⊕ (Term × Term)) :=
  if !(ts.filterMap parts).isEmpty && (ts.filterMap parts).all fun m => m.2 == q then
    .ok (.inr (add (ts.filter rest ++ (ts.filterMap parts).map Prod.fst), q))
  else .ok (.inr (.sum ts, q))

omit A in
private theorem denest_sum_eq (ts : List Term) (q : Term) :
    denest (.sum ts) q = denestSum modParts (fun t => !t.isMod) ts q := by
  have hcongr : ∀ parts rest, parts = modParts → rest = (fun t => !t.isMod) →
      denestSum parts rest ts q = denestSum modParts (fun t => !t.isMod) ts q := by
    rintro _ _ rfl rfl
    rfl
  exact hcongr _ _ (funext fun t => by cases t <;> rfl) (funext fun t => by cases t <;> rfl)

private theorem Reduction.denest_sum (h : whole (.sum ts)) :
    ∃ d, denest (.sum ts) (.num n) = .ok d ∧ Denested whole (.sum ts) n d := by
  have hmembers : ∀ t ∈ ts, whole t := A.summand h
  rw [denest_sum_eq, denestSum]
  split
  · rename_i hall
    rw [Bool.and_eq_true] at hall
    have hwhole :
        ∀ t ∈ (ts.filter fun t => !t.isMod) ++ (ts.filterMap modParts).map Prod.fst, whole t := by
      intro t ht
      rw [List.mem_append] at ht
      rcases ht with ht | ht
      · exact hmembers t (List.mem_of_mem_filter ht)
      · obtain ⟨m, hm, rfl⟩ := List.mem_map.mp ht
        obtain ⟨s, hs, hparts⟩ := List.mem_filterMap.mp hm
        cases s with
        | mod a b =>
          obtain rfl : (a, b) = m := Option.some.inj hparts
          exact (A.of_mod (hmembers _ hs)).1
        | _ => simp [modParts] at hparts
    refine ⟨_, rfl, rfl, A.add hwhole, fun env => ?_⟩
    obtain ⟨k, hk⟩ := denest_sum_value env hall.2
    refine ⟨k, ?_⟩
    rw [A.value_add hwhole, List.map_append, List.sum_append, List.map_map, value_sum]
    exact hk
  · exact ⟨_, rfl, .self h n⟩

private theorem Reduction.denest_spec (h : whole p) (hn : 0 < n) :
    ∃ d, denest p (.num n) = .ok d ∧ Denested whole p n d := by
  cases p with
  | mod => exact A.denest_mod h hn
  | sum => exact A.denest_sum h
  | prod => exact A.denest_prod h hn
  | _ => exact ⟨_, rfl, .self h n⟩

def reduceMembers (fuel : Nat) (q : Term) : Term → Except Fault Term
  | .sum ts => do
    let reduced ← ts.mapM fun t => do
      let r ← modWithin fuel t q
      return if t.countMods < r.countMods then t else r
    pure (add reduced)
  | t => pure t

/-- The remainder is found within a number of steps. -/
def FoundWithin (whole : Term → Prop) (fuel : Nat) : Prop :=
  ∀ (p : Term) (n : Int), whole p → 0 < n → ∃ r, modWithin fuel p (.num n) = .ok r ∧
    IsRemainder whole p n r

omit A in
private theorem mapM_reduce_spec (ih : FoundWithin whole fuel)
    (hn : 0 < n) (h : ∀ t ∈ ts, whole t) : ∃ rs, (ts.mapM fun t => do
        let r ← modWithin fuel t (.num n)
        return if t.countMods < r.countMods then t else r) = .ok rs ∧
      (∀ r ∈ rs, whole r) ∧
      ∀ env, ∃ k : Int, (rs.map (value env)).sum = (ts.map (value env)).sum + n * k := by
  induction ts with
  | nil => exact ⟨[], rfl, by simp, fun env => ⟨0, by simp⟩⟩
  | cons t ts ihts =>
    rw [forall_mem_cons] at h
    obtain ⟨rs, hrs, hwhole, hvalue⟩ := ihts h.2
    obtain ⟨r, hr, hrwhole, hrvalue⟩ := ih t n h.1 hn
    have hhead : whole (if t.countMods < r.countMods then t else r) ∧
        ∀ env, ∃ k : Int, (if t.countMods < r.countMods then t else r).value env =
          t.value env + n * k := by
      split
      · exact ⟨h.1, fun env => ⟨0, by simp⟩⟩
      · exact ⟨hrwhole, fun env => hrvalue env ▸ exists_residue _ _⟩
    refine ⟨(if t.countMods < r.countMods then t else r) :: rs, ?_, ?_, fun env => ?_⟩
    · rw [mapM_cons, hr, hrs]
      rfl
    · rw [forall_mem_cons]
      exact ⟨hhead.1, hwhole⟩
    · obtain ⟨k, hk⟩ := hvalue env
      obtain ⟨l, hl⟩ := hhead.2 env
      refine ⟨k + l, ?_⟩
      rw [map_cons, sum_cons, map_cons, sum_cons, hk, hl]
      push_cast
      ring

private theorem Reduction.reduceMembers_spec (ih : FoundWithin whole fuel)
    (hn : 0 < n) (h : whole p) :
    ∃ p', reduceMembers fuel (.num n) p = .ok p' ∧
      whole p' ∧ ∀ env, ∃ k : Int, p'.value env = p.value env + n * k := by
  cases hp : p with
  | sum ts =>
    subst hp
    obtain ⟨rs, hrs, hwhole, hvalue⟩ := mapM_reduce_spec ih hn (A.summand h)
    refine ⟨Term.add rs, ?_, A.add hwhole, fun env => ?_⟩
    · rw [reduceMembers]
      simp only [summands] at hrs
      rw [hrs]
      rfl
    · rw [A.value_add hwhole, value_sum]
      exact hvalue env
  | _ => exact ⟨_, rfl, hp ▸ h, fun env => ⟨0, by simp⟩⟩

def closeMod (fuel : Nat) (g : Rat) (p q : Term) : Except Fault Term := do
  let p' ← reduceMembers fuel q p
  let (g, p'', q') := if p'.isNegative && q.isNegative then (-g, neg p', neg q) else (g, p', q)
  match ← knownMod p'' q' with
  | some r => return mul [r, .num g]
  | none =>
    if p'' = p ∧ q' = q then return mul [.num g, .mod p'' q']
    else return mul [.num g, ← modWithin fuel p'' q']

omit A in
private theorem modWithin_succ (fuel : Nat) (p q : Term) : modWithin (fuel + 1) p q = (do
      match ← knownMod p q with
      | some r => return r
      | none =>
        match ← denest p q with
        | .inl r => return r
        | .inr (p', q') =>
          if p'.size < p.size && p'.countMods < p.countMods then modWithin fuel p' q'
          else
            let g : Rat := commonFactor p' q'
            closeMod fuel g (without g p') (without g q')) := by
  rw [modWithin]
  cases knownMod p q with
  | error => rfl
  | ok known =>
    cases known with
    | some => rfl
    | none =>
      cases denest p q with
      | error => rfl
      | ok found =>
        cases found with
        | inl => rfl
        | inr rest =>
          obtain ⟨p', q'⟩ := rest
          simp only [bind, Except.bind]
          split
          · rfl
          · unfold closeMod without
            generalize (if (commonFactor p' q' : Rat) = 1 then p' else _) = p₁
            generalize (if (commonFactor p' q' : Rat) = 1 then q' else _) = q₁
            cases p₁ with
            | sum ts =>
              simp only [reduceMembers, bind, Except.bind, pure, Except.pure]
              generalize List.mapM (m := Except Fault) _ ts = reduced
              cases reduced <;> rfl
            | _ => rfl

private theorem Reduction.mul_num_remainder {p' r : Term} (h : IsRemainder whole p' m r)
    (hvalue : ∀ env, residue (p.value env) n = g * residue (p'.value env) m) :
    IsRemainder whole p n (mul [.num g, r]) :=
  ⟨A.mul_num h.1 g, fun env => by
    rw [A.value_mul_num h.1, h.2, hvalue]⟩

private theorem Reduction.closeMod_spec (ih : FoundWithin whole fuel) (hm : 0 < m) (h : whole p) :
    ∃ r r', closeMod fuel g p (.num m) = .ok r ∧
      IsRemainder whole p m r' ∧ r = mul [.num g, r'] := by
  obtain ⟨p', hp', hwhole, hvalue⟩ := A.reduceMembers_spec ih hm h
  have hcast : (0 : Rat) < m := by exact_mod_cast hm
  have hpositive : (num (m : Rat)).isNegative = false := by
    simp only [isNegative, decide_eq_false_iff_not, not_lt]
    exact hcast.le
  have hsame : ∀ {r : Term}, IsRemainder whole p' m r → IsRemainder whole p m r := fun hr =>
    ⟨hr.1, fun env => by rw [hr.2, residue_congr hcast (hvalue env)]⟩
  unfold closeMod
  simp only [hp', bind, Except.bind, hpositive, Bool.and_false, Bool.false_eq_true, if_false]
  rcases A.knownMod_spec hwhole hm with ⟨hknown, hnum⟩ | ⟨r, hknown, hr⟩
  · rw [hknown]
    simp only [and_true]
    split
    · refine ⟨_, .mod p' (.num m), rfl, hsame ⟨A.mod hwhole hnum hm, fun env => ?_⟩, rfl⟩
      rw [value_mod_num]
    · obtain ⟨r, hr, hrem⟩ := ih p' m hwhole hm
      rw [hr]
      exact ⟨_, r, rfl, hsame hrem, rfl⟩
  · rw [hknown]
    exact ⟨_, r, rfl, hsame hr, by rw [mul_num_comm]⟩

/-- One more step keeps what fewer steps find. -/
private theorem Reduction.foundWithin_succ (ih : FoundWithin whole fuel) :
    FoundWithin whole (fuel + 1) := by
  intro p n hp hn
  have hcast : (0 : Rat) < n := by exact_mod_cast hn
  rw [modWithin_succ]
  rcases A.knownMod_spec hp hn with ⟨hknown, -⟩ | ⟨r, hknown, hr⟩
  · obtain ⟨d, hd, hdenested⟩ := A.denest_spec hp hn
    rw [hknown]
    simp only [bind, Except.bind, hd]
    cases d with
    | inl r => exact ⟨r, rfl, hdenested⟩
    | inr rest =>
      obtain ⟨p', q'⟩ := rest
      obtain ⟨rfl, hwhole, hvalue⟩ := hdenested
      have hresidue : ∀ env, residue (p.value env) n = residue (p'.value env) n := fun env =>
        (residue_congr hcast (hvalue env)).symm
      simp only
      split
      · obtain ⟨r, hr, hrem⟩ := ih p' n hwhole hn
        exact ⟨r, hr, hrem.1, fun env => by rw [hrem.2, hresidue]⟩
      · obtain ⟨m, hm, hnm, hdivisor⟩ := without_divisor (p := p') hn
        obtain ⟨hwithout, hpvalue⟩ := A.without_spec hwhole hn
        have hg : 0 < (commonFactor p' (.num n) : Int) := by
          exact_mod_cast (commonFactor_spec (p := p') hn).1
        obtain ⟨r, r', hr, hrem, rfl⟩ :=
          A.closeMod_spec ih (g := commonFactor p' (.num n)) hm hwithout
        rw [hdivisor]
        refine ⟨_, by exact_mod_cast hr, A.mul_num_remainder hrem fun env => ?_⟩
        have hgcast : (0 : Rat) < (commonFactor p' (.num n) : Rat) := by exact_mod_cast hg
        rw [hresidue, hpvalue]
        nth_rewrite 3 [hnm]
        push_cast
        exact residue_mul hgcast _ _
  · rw [hknown]
    exact ⟨r, rfl, hr⟩

private theorem Reduction.foundWithin (fuel : Nat) : FoundWithin whole fuel := by
  induction fuel with
  | zero =>
    intro p n hp hn
    rcases A.knownMod_spec hp hn with ⟨hknown, hnum⟩ | ⟨r, hknown, hr⟩
    · refine ⟨.mod p (.num n), by simp [modWithin, hknown, bind, Except.bind, pure, Except.pure],
        A.mod hp hnum hn, fun env => value_mod_num p n⟩
    · exact ⟨r, by simp [modWithin, hknown, bind, Except.bind, pure, Except.pure], hr⟩
  | succ fuel ih => exact A.foundWithin_succ ih

theorem Reduction.modulo_spec (h : whole p) (hn : 0 < n) :
    ∃ r, modulo p (.num n) = .ok r ∧ IsRemainder whole p n r :=
  A.foundWithin _ p n h hn

end

end Polyloom.Term
