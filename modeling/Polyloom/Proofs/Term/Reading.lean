import Polyloom.Constraint.Basic
import Polyloom.Proofs.Term.Substitution

/-!
# Linear comparisons and their constraints

A comparison of linear terms is decided, renamed and turned into a constraint on integers
without a change of meaning.  A constraint exists exactly for the terms that are covered: their
numbers are integers, and their floors are of unit fractions of covered terms.
-/

namespace Polyloom

open Comparison IntTerm Term Except List

variable {op : Comparison} {ts : List Term}

/-! ## Terms as integer terms -/

namespace Interpretation

@[simp] theorem terms_symbol (s : String) : terms.symbol s = .ok (.var s) := rfl

@[simp] theorem terms_literal (n : Int) : terms.literal n = .const n := rfl

@[simp] theorem terms_add (a b : IntTerm) : terms.add a b = .ok (.add a b) := rfl

@[simp] theorem terms_mul (a b : IntTerm) : terms.mul a b = .ok (.mul a b) := rfl

@[simp] theorem terms_mod (a b : IntTerm) : terms.mod a b = .ok (.mod a b) := rfl

@[simp] theorem terms_floorDiv (a b : IntTerm) : terms.floorDiv a b = .ok (.div a b) := rfl

end Interpretation

namespace Term

variable {env : String → Int} {S : Set Term}

theorem floor_unit_fraction {q : Rat} (hq : q.num = 1) (m : Int) : ⌊q * m⌋ = m / (q.den : Int) := by
  have hq' : q = 1 / (q.den : Rat) := by
    conv_lhs => rw [← Rat.num_div_den q, hq]
    simp
  rw [hq', one_div_mul_eq_div]
  have hden : (1 / (q.den : Rat)).den = q.den := by rw [← hq']
  rw [hden]
  exact_mod_cast Rat.floor_intCast_div_natCast m q.den

theorem residue_int (m : Int) {n : Int} (hn : 0 < n) :
    residue (m : Rat) n = ((m % n : Int) : Rat) := by
  rw [residue, floor_intCast_div, Int.fdiv_eq_ediv_of_nonneg _ hn.le, Int.emod_def]
  push_cast
  ring

theorem interpretSum_value {acc r : IntTerm}
    (h : ∀ t ∈ ts, ∀ r, t.interpret .terms = .ok r → t.value env = r.eval env)
    (hr : interpretSum .terms ts acc = .ok r) :
    (r.eval env : Rat) = acc.eval env + (ts.map (value env)).sum := by
  induction ts generalizing acc with
  | nil =>
    obtain rfl : acc = r := by simpa [interpretSum] using hr
    simp
  | cons t ts ih =>
    rw [forall_mem_cons] at h
    simp only [interpretSum, bind_eq_ok, Interpretation.terms_add, ok.injEq, exists_eq_left'] at hr
    obtain ⟨s, ht, hr⟩ := hr
    rw [ih h.2 hr, map_cons, sum_cons, h.1 s ht, IntTerm.eval]
    push_cast
    ring

mutual

theorem Atomic.interpret_value : ∀ {t : Term}, Atomic S t → ∀ r : IntTerm,
    t.interpret .terms = .ok r → t.value env = r.eval env
  | .sym s, .sym _, r, hr => by
    obtain rfl : IntTerm.var s = r := by simpa [interpret] using hr
    simp [IntTerm.eval]
  | .floor t, .floor _ h, r, hr => by
    cases h with
    | sum => simp [interpret] at hr
    | member h =>
      cases h with
      | num => simp [interpret] at hr
      | atom h => cases h <;> simp [interpret] at hr
      | multiple q h =>
        rw [interpret] at hr
        split at hr
        · rename_i hunit
          obtain ⟨x, hx, ⟨⟩⟩ := bind_eq_ok.mp hr
          rw [value_floor, value_prod_num, h.interpret_value x hx, floor_unit_fraction hunit]
          rfl
        · simp at hr
  | .mod p (.num _), .mod (n := n) h hp hn, r, hr => by
    rw [interpret, if_pos (before_num _ hp), asInt?_num_int] at hr
    obtain ⟨x, hx, ⟨⟩⟩ := bind_eq_ok.mp hr
    rw [value_mod_num, h.interpret_value x hx, residue_int _ hn]
    rfl

theorem Member.interpret_value : ∀ {t : Term}, Member S t → ∀ r : IntTerm,
    t.interpret .terms = .ok r → t.value env = r.eval env
  | .num q, .num _, r, hr => by
    rw [interpret] at hr
    split at hr
    · rename_i hden
      obtain rfl : IntTerm.const q.num = r := by simpa using hr
      rw [value_num, IntTerm.eval, Rat.coe_int_num_of_den_eq_one hden]
    · simp at hr
  | _, .atom h, r, hr => h.interpret_value r hr
  | .prod [.num c, t], .multiple _ h, r, hr => by
    simp only [interpret, interpretProd] at hr
    split at hr
    · rename_i hden
      obtain ⟨x, hx, rfl⟩ : ∃ x, t.interpret .terms = .ok x ∧ (IntTerm.const c.num).mul x = r := by
        simpa [bind_eq_ok] using hr
      rw [value_prod_num, h.interpret_value x hx, IntTerm.eval, IntTerm.eval, Int.cast_mul,
        Rat.coe_int_num_of_den_eq_one hden]
    · simp [bind_eq_ok] at hr

theorem Linear.interpret_value : ∀ {t : Term}, Linear S t → ∀ r : IntTerm,
    t.interpret .terms = .ok r → t.value env = r.eval env
  | _, .member h, r, hr => h.interpret_value r hr
  | .sum [], .sum hne _, _, _ => absurd rfl hne
  | .sum (t :: ts), .sum _ h, r, hr => by
    have hall : ∀ s ∈ t :: ts, ∀ r, s.interpret .terms = .ok r → s.value env = r.eval env :=
      fun s hs r hr => (h s hs).interpret_value r hr
    rw [forall_mem_cons] at hall
    rw [interpret] at hr
    obtain ⟨x, hx, hr⟩ := bind_eq_ok.mp hr
    rw [interpretSum_value hall.2 hr, value_sum, map_cons, sum_cons, hall.1 x hx]

end

mutual

def covered : Term → Bool
  | .num q => q.den = 1
  | .sym _ => true
  | .sum ts | .prod ts => !ts.isEmpty && coveredAll ts
  | .mod p _ => p.covered
  | .floor (.prod [.num q, t]) => q.num = 1 && t.covered
  | _ => false

def coveredAll : List Term → Bool
  | [] => true
  | t :: ts => t.covered && coveredAll ts

end

private theorem isOk_bind {α β : Type} (x : Except Fault α) (f : α → Except Fault β) (b : Bool)
    (h : ∀ a, (f a).isOk = b) : (x >>= f).isOk = (x.isOk && b) := by
  cases x with
  | error => rfl
  | ok a => exact (h a).trans (Bool.true_and b).symm

theorem interpretSum_isOk (h : ∀ t ∈ ts, (t.interpret .terms).isOk = t.covered) (acc : IntTerm) :
    (interpretSum .terms ts acc).isOk = coveredAll ts := by
  induction ts generalizing acc with
  | nil => rfl
  | cons t ts ih =>
    rw [forall_mem_cons] at h
    rw [interpretSum, isOk_bind _ _ (coveredAll ts) fun a => ?_, h.1, coveredAll]
    exact ih h.2 (acc.add a)

mutual

theorem Atomic.interpret_isOk : ∀ {t : Term}, Atomic S t → (t.interpret .terms).isOk = t.covered
  | .sym s, .sym _ => by simp [interpret, covered, Except.isOk, Except.toBool]
  | .floor t, .floor _ h => by
    cases h with
    | sum => rfl
    | member h =>
      cases h with
      | num => rfl
      | atom h => cases h <;> rfl
      | multiple q h =>
        rename_i s
        rw [interpret, covered, ← h.interpret_isOk]
        split
        · rename_i hunit
          rw [isOk_bind _ _ true fun _ => rfl]
          simp [hunit]
        · rename_i hunit
          simp [hunit, Except.isOk, Except.toBool]
  | .mod p (.num _), .mod h hp hn => by
    rw [interpret, if_pos (before_num _ hp), asInt?_num_int, covered, ← h.interpret_isOk]
    exact (isOk_bind _ _ true fun _ => rfl).trans (Bool.and_true _)

theorem Member.interpret_isOk : ∀ {t : Term}, Member S t → (t.interpret .terms).isOk = t.covered
  | .num q, .num _ => by
    rw [interpret, covered]
    split <;> rename_i hden <;> simp [hden, Except.isOk, Except.toBool]
  | _, .atom h => h.interpret_isOk
  | .prod [.num c, t], .multiple _ h => by
    simp only [interpret, interpretProd, covered, coveredAll, ← h.interpret_isOk]
    split
    · rename_i hden
      simp only [bind, Except.bind]
      cases t.interpret .terms <;> simp [hden, Except.isOk, Except.toBool]
    · rename_i hden
      simp [hden, bind, Except.bind, Except.isOk, Except.toBool]

theorem Linear.interpret_isOk : ∀ {t : Term}, Linear S t → (t.interpret .terms).isOk = t.covered
  | _, .member h => h.interpret_isOk
  | .sum [], .sum hne _ => absurd rfl hne
  | .sum (t :: ts), .sum _ h => by
    have hall : ∀ s ∈ t :: ts, (s.interpret .terms).isOk = s.covered :=
      fun s hs => (h s hs).interpret_isOk
    rw [forall_mem_cons] at hall
    rw [interpret, isOk_bind _ _ (coveredAll ts) fun a => interpretSum_isOk hall.2 a, hall.1]
    simp [covered, coveredAll]

end

end Term

/-! ## Comparisons -/

namespace Proposition

variable {env : String → Int} {p : Proposition}

/-- A comparison of terms of one kind, or one that is already decided. -/
def Compares (kind : Term → Prop) : Proposition → Prop
  | .truth _ => True
  | .compare _ l r => kind l ∧ kind r

/-- A comparison of linear terms. -/
abbrev IsLinear (p : Proposition) : Prop := p.Compares (IntegerLinear Set.univ)

/-- Is a proposition true where the symbols are integers? -/
def Holds (env : String → Int) (p : Proposition) : Prop :=
  p.eval (fun s => (env s : Rat)) = some true

@[simp] theorem holds_truth (b : Bool) : (truth b).Holds env ↔ b = true := by
  simp [Holds, eval]

section

variable {rational whole : Term → Prop} (A : Arithmetic rational whole) {l r : Term}

include A

theorem holds_compare (h : (compare op l r).Compares whole) :
    (compare op l r).Holds env ↔ op.holds (l.value env) (r.value env) = true := by
  have hl : l.evalInt env = some (l.value env) := A.evalInt_eq (A.of_whole h.1)
  have hr : r.evalInt env = some (r.value env) := A.evalInt_eq (A.of_whole h.2)
  unfold evalInt at hl hr
  simp [Holds, eval, hl, hr]

theorem equal?_eq_some (hl : whole l) (hr : whole r) {b : Bool} (h : equal? l r = some b)
    (env : String → Int) : l.value env = r.value env ↔ b = true := by
  unfold equal? at h
  split at h
  · rename_i heq
    obtain rfl : true = b := Option.some.inj h
    simp [heq]
  · have hsub : (sub l r).value env = l.value env - r.value env := A.value_sub hl hr
    split at h
    · rename_i q hq
      obtain rfl : decide (q = 0) = b := Option.some.inj h
      rw [hq, value_num] at hsub
      rw [decide_eq_true_eq, hsub, sub_eq_zero]
    · simp at h

theorem ofEquation_spec (hl : whole l) (hr : whole r) : (ofEquation l r).Compares whole ∧
      ∀ env, (ofEquation l r).Holds env ↔ l.value env = r.value env := by
  unfold ofEquation
  cases h : equal? l r with
  | some b => exact ⟨trivial, fun env => by rw [holds_truth, equal?_eq_some A hl hr h env]⟩
  | none =>
    refine ⟨⟨hl, hr⟩, fun env => ?_⟩
    rw [holds_compare A ⟨hl, hr⟩]
    simp [holds]

theorem Compares.substitute {table : List (String × String)}
    (hrename : ∀ t, whole t → RenamedTo table whole t) {p : Proposition}
    (h : p.Compares whole) (hop : ∀ op l r, p = compare op l r → op = .eq) :
    ∃ p', p.substitute (symbolTable table) = .ok p' ∧
      p'.Compares whole ∧ (∀ op l r, p' = compare op l r → op = .eq) ∧
      ∀ env, p'.Holds env ↔ p.Holds (renamed table env) := by
  cases p with
  | truth b => exact ⟨.truth b, rfl, trivial, by simp, fun env => by simp⟩
  | compare op l r =>
    obtain rfl : op = .eq := hop op l r rfl
    obtain ⟨l', hl', hlwhole, hlvalue⟩ := hrename l h.1
    obtain ⟨r', hr', hrwhole, hrvalue⟩ := hrename r h.2
    obtain ⟨hof, hofHolds⟩ := ofEquation_spec A hlwhole hrwhole
    have hequation : ∀ env, (compare .eq l r).Holds (renamed table env) ↔
        l'.value env = r'.value env := fun env => by
      rw [holds_compare A h, hlvalue, hrvalue]
      simp [holds]
    by_cases hsame : l' = l ∧ r' = r
    · obtain ⟨rfl, rfl⟩ := hsame
      refine ⟨compare .eq l' r', ?_, h, by simp, fun env => ?_⟩
      · rw [Proposition.substitute, hl', hr']
        simp [bind, Except.bind, pure, Except.pure]
      · rw [hequation, holds_compare A h]
        simp [holds]
    · refine ⟨ofEquation l' r', ?_, hof, ?_, fun env => by rw [hofHolds, hequation]⟩
      · rw [Proposition.substitute, hl', hr']
        simp [bind, Except.bind, hsame, Proposition.of]
      · unfold ofEquation
        split <;> simp

end

/-! ## Comparisons as constraints -/

def covered : Proposition → Bool
  | .truth _ => false
  | .compare op l r => op ≠ .ne && l.covered && r.covered

theorem interpret_compare (hop : op ≠ .ne) (l r : Term) : (compare op l r).interpret .terms =
    (do let a ← l.interpret .terms let b ← r.interpret .terms return (op, a, b)) := by
  cases op with
  | ne => exact absurd rfl hop
  | le | lt | ge | gt | eq => rfl

theorem toConstraint_isOk (h : p.IsLinear) : p.toConstraint.isOk = p.covered := by
  cases p with
  | truth b => rfl
  | compare op l r =>
    rw [toConstraint]
    by_cases hop : op = .ne
    · subst hop
      rfl
    · rw [interpret_compare hop, covered, ← h.1.linear.interpret_isOk, ← h.2.linear.interpret_isOk]
      cases l.interpret .terms with
      | error => simp [bind, Except.bind, Except.isOk, Except.toBool]
      | ok a =>
        cases r.interpret .terms with
        | error => simp [bind, Except.bind, Except.isOk, Except.toBool]
        | ok b => simp [bind, Except.bind, pure, Except.pure, Except.isOk, Except.toBool, hop]

theorem holds_intCast (op : Comparison) (a b : Int) :
    op.holds (a : Rat) (b : Rat) = op.holdsInt a b := by
  cases op <;> simp [holds, holdsInt]

theorem holds_toConstraint (h : p.IsLinear) {c : Constraint} (hc : p.toConstraint = .ok c) :
    c.holds env = true ↔ p.Holds env := by
  cases p with
  | truth b => simp [toConstraint, interpret, bind, Except.bind] at hc
  | compare op l r =>
    have hop : op ≠ .ne := by
      rintro rfl
      simp [toConstraint, interpret, bind, Except.bind] at hc
    rw [toConstraint, interpret_compare hop] at hc
    simp only [bind_eq_ok] at hc
    obtain ⟨_, ⟨a, ha, b, hb, ⟨⟩⟩, ⟨⟩⟩ := hc
    rw [holds_compare arithmetic_linear h, h.1.linear.interpret_value a ha,
      h.2.linear.interpret_value b hb, holds_intCast, Constraint.holds]

end Proposition

end Polyloom
