import Mathlib
import Polyloom.Proofs.Access.Relation
import Polyloom.Proofs.Term.Floors

/-!
# Which affine expressions can be analysed

The equation of a result with an affine expression is put as a constraint if every floor in the
term of the expression is of a unit fraction.  Floors come from quotients only: sums, multiples
and remainders add none, so an expression without quotients is always analysed.
-/

namespace Polyloom

open Proposition Term

namespace AffineExpr

variable {dims symbols : Nat} {e : AffineExpr} {t : Term}

def quotients : AffineExpr → List AffineExpr
  | .binary op l r =>
    (if op = .floorDiv ∨ op = .ceilDiv then [.binary op l r] else []) ++
      (l.quotients ++ r.quotients)
  | _ => []

def floors (dims symbols : Nat) (e : AffineExpr) : List Term :=
  match e.term? dims symbols with
  | .ok (some t) => t.floored
  | _ => []

private theorem floors_eq (h : e.term? dims symbols = .ok (some t)) :
    e.floors dims symbols = t.floored := by
  rw [floors, h]

theorem term?_binary {op : AffineOp} {l r : AffineExpr}
    (h : (binary op l r).term? dims symbols = .ok (some t)) :
    ∃ a b, l.term? dims symbols = .ok (some a) ∧
      r.term? dims symbols = .ok (some b) ∧ combine op a b = .ok t := by
  obtain ⟨a?, ha, h⟩ := bind_eq_ok.mp h
  obtain ⟨b?, hb, h⟩ := bind_eq_ok.mp h
  cases a? with
  | none => simp [throw, throwThe, MonadExceptOf.throw] at h
  | some a =>
    cases b? with
    | none => simp [throw, throwThe, MonadExceptOf.throw] at h
    | some b =>
      obtain ⟨s, hs, h⟩ := bind_eq_ok.mp h
      obtain rfl : s = t := by simpa [pure, Except.pure] using h
      exact ⟨a, b, ha, hb, hs⟩

theorem exists_linear_term (h : e.isAffine dims symbols = true) :
    ∃ t, e.term? dims symbols = .ok (some t) ∧ e.Stated (IntegerLinear Set.univ) t :=
  exists_term arithmetic_linear
    (fun _ _ _ _ hproduct ha hb hl hr => multiplied_linear hproduct ha hb hl hr)
    h

private theorem integerLinear_term (h : e.isAffine dims symbols = true)
    (ht : e.term? dims symbols = .ok (some t)) :
    IntegerLinear Set.univ t := by
  obtain ⟨t', ht', hstated⟩ := exists_linear_term h
  obtain rfl := Option.some.inj (Except.ok.inj (ht'.symm.trans ht))
  exact hstated.1

/-- Floors in the term of an expression are floors in the terms of its quotients. -/
private theorem linear_term {S : Set Term} (h : e.isAffine dims symbols = true)
    (hS : ∀ q ∈ e.quotients, ∀ u ∈ q.floors dims symbols, u ∈ S)
    (ht : e.term? dims symbols = .ok (some t)) : t.Linear S := by
  have hwhole := integerLinear_term h ht
  rw [isAffine] at h
  fun_induction isFormed _ dims symbols e generalizing t with
  | case1 n =>
    obtain rfl : Term.int n = t := by simpa [term?] using ht
    exact .ofNum n
  | case2 i =>
    obtain ⟨-, rfl⟩ : i < dims ∧ Term.sym (dimName i) = t := by simpa [term?] using ht
    exact .atom (.sym _)
  | case3 i =>
    obtain ⟨-, rfl⟩ : i < symbols ∧ Term.sym (symName i) = t := by simpa [term?] using ht
    exact .atom (.sym _)
  | case4 l r ihl ihr =>
    simp only [quotients, reduceCtorEq, or_self, if_false, List.nil_append,
      List.forall_mem_append] at hS
    rw [Bool.and_eq_true] at h
    obtain ⟨a, b, ha, hb, hab⟩ := term?_binary ht
    obtain rfl := Except.ok.inj hab
    exact .add (by simpa using ⟨ihl h.1 hS.1 ha (integerLinear_term h.1 ha),
      ihr h.2 hS.2 hb (integerLinear_term h.2 hb)⟩)
  | case5 l r ihl ihr =>
    simp only [quotients, reduceCtorEq, or_self, if_false, List.nil_append,
      List.forall_mem_append] at hS
    rw [Bool.and_eq_true, Bool.and_eq_true] at h
    obtain ⟨a, b, ha, hb, hab⟩ := term?_binary ht
    obtain rfl := Except.ok.inj hab
    obtain ⟨n, rfl | ⟨-, heq⟩⟩ := mul_eq_multiple h.2 ha hb
    · exact (ihr h.1.2 hS.2 hb (integerLinear_term h.1.2 hb)).mul_num n
    · exact heq ▸ (ihl h.1.1 hS.1 ha (integerLinear_term h.1.1 ha)).mul_num n
  | case6 op l n hadd hmul ih =>
    rw [Bool.and_eq_true, decide_eq_true_eq] at h
    rw [quotients, List.forall_mem_append, List.forall_mem_append] at hS
    obtain ⟨a, b, ha, hb, hab⟩ := term?_binary ht
    obtain rfl : Term.int n = b := by simpa [term?] using hb
    cases op with
    | add => exact absurd rfl hadd
    | mul => exact absurd rfl hmul
    | mod =>
      have hdividend := integerLinear_term h.1 ha
      obtain ⟨r, hr, hremainder⟩ := (reduction_linear S).modulo_spec
        ⟨ih h.1 hS.2.1 ha hdividend, hdividend.integral⟩ h.2
      obtain rfl := Except.ok.inj (hr.symm.trans hab)
      exact hremainder.1.linear
    | floorDiv | ceilDiv =>
      refine hwhole.linear.restrict ?_
      simpa [floors_eq ht] using hS.1
  | case7 => simp at h

/-! ## The equation of a result -/

theorem settled_equation {result : String} (hlinear : IntegerLinear Set.univ t)
    (hopen : ∀ b, ofEquation (.sym result) t ≠ .truth b) :
    Settled t.floored (accessConstraints [ofEquation (.sym result) t]) := by
  unfold ofEquation at hopen ⊢
  cases hequal : equal? (.sym result) t with
  | some b => exact absurd (by rw [hequal]) (hopen b)
  | none =>
    rw [accessConstraints_eq, List.mapM_cons]
    refine Settled.map ?_ fun c => ⟨[c], rfl⟩
    refine Settled.map ?_ fun c => ⟨_, rfl⟩
    rw [interpret_compare (by simp)]
    exact (hlinear.linear.interpret_settled hlinear.integral).map fun a => ⟨_, rfl⟩

/-- A dimension or symbol, perhaps divided by numbers above one. -/
def isTile : AffineExpr → Bool
  | .dim _ | .sym _ => true
  | .binary .floorDiv l (.const n) => l.isTile && 2 ≤ n
  | _ => false

private theorem atomic_tile (h : e.isTile = true) (ht : e.term? dims symbols = .ok (some t)) :
    t.Atomic Set.univ ∧ ∀ u ∈ t.floored, u.IsUnitFraction := by
  fun_induction isTile e generalizing t with
  | case1 i =>
    obtain ⟨-, rfl⟩ : i < dims ∧ Term.sym (dimName i) = t := by simpa [term?] using ht
    exact ⟨.sym _, by simp [Term.floored]⟩
  | case2 i =>
    obtain ⟨-, rfl⟩ : i < symbols ∧ Term.sym (symName i) = t := by simpa [term?] using ht
    exact ⟨.sym _, by simp [Term.floored]⟩
  | case3 l n ih =>
    rw [Bool.and_eq_true, decide_eq_true_eq] at h
    obtain ⟨a, b, ha, hb, hab⟩ := term?_binary ht
    obtain rfl : Term.int n = b := by simpa [term?] using hb
    obtain ⟨hatom, hunit⟩ := ih h.1 ha
    obtain rfl := Except.ok.inj ((hatom.floorDiv_int h.2).symm.trans hab)
    refine ⟨.floor (Set.mem_univ _) (.member (.multiple _ hatom)), ?_⟩
    rw [Term.floored, Term.floored_multiple, List.forall_mem_cons]
    have hpos : 0 < n := by omega
    exact ⟨⟨_, a, rfl, by simp [hpos]⟩, hunit⟩
  | case4 => simp at h

private theorem isUnitFraction_of_mem_floors {q : AffineExpr} {u : Term} (h : q.isTile = true)
    (hu : u ∈ q.floors dims symbols) : u.IsUnitFraction := by
  unfold floors at hu
  split at hu
  · rename_i ht
    exact (atomic_tile h ht).2 u hu
  · simp at hu

theorem equation_undecided (h : e.isAffine dims symbols = true)
    (hstated : e.Stated (IntegerLinear Set.univ) t) {result : String}
    (hdims : ∀ i < dims, dimName i ≠ result) (hsymbols : ∀ j < symbols, symName j ≠ result)
    (b : Bool) : Proposition.ofEquation (.sym result) t ≠ .truth b := by
  intro hdecided
  obtain ⟨m, hm, -⟩ := hstated.2 fun _ => 0
  -- the result takes any value, and the expression keeps its own
  have hvalue : ∀ x : Int, t.value (Function.update (fun _ => 0) result x) = m := by
    intro x
    obtain ⟨k, hk, ht⟩ := hstated.2 (Function.update (fun _ => 0) result x)
    have hsame := read_congr h
      (fun i hi => Function.update_of_ne (hdims i hi) x (fun _ => (0 : Int)))
      fun j hj => Function.update_of_ne (hsymbols j hj) x (fun _ => (0 : Int))
    obtain rfl : k = m := Option.some.inj (hk.symm.trans (hsame.trans hm))
    exact ht
  have hiff : ∀ x : Int, b = true ↔ x = m := by
    intro x
    have hholds := (Proposition.ofEquation_spec Term.arithmetic_linear
      (arithmetic_linear.sym result) hstated.1).2 (Function.update (fun _ => 0) result x)
    rw [hdecided, Proposition.holds_truth, Term.value_sym, hvalue] at hholds
    simpa using hholds
  have htrue := (hiff m).mpr rfl
  have hnext := (hiff (m + 1)).mp htrue
  omega

def tiledIndex : AffineExpr :=
  .binary .add (.binary .mul (.const 4) (.binary .floorDiv (.dim 0) (.const 4)))
    (.binary .mod (.binary .add (.dim 0) (.binary .mul (.const 3) (.sym 0))) (.const 4))

def halvedSum : AffineExpr := .binary .floorDiv (.binary .add (.dim 0) (.const 1)) (.const 2)

end AffineExpr

end Polyloom
