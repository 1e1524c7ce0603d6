import Mathlib.Data.Rat.Floor
import Mathlib.Algebra.BigOperators.Group.List.Basic
import Mathlib.Algebra.Ring.Subring.Basic
import Polyloom.Term.Product

/-!
# Values of symbolic terms

Every term has a number as its value where the symbols are integers.  Sums and numeric multiples
are brought into normal form without a change of value.
-/

namespace Polyloom.Term

open Option List

variable {ts : List Term}

mutual

/-- The value of a term; an infinite or undefined term counts as zero. -/
def value (env : String → Int) : Term → Rat
  | .num q => q
  | .sym s => env s
  | .sum ts => valueSum env ts
  | .prod ts => valueProd env ts
  | .pow b e => b.value env ^ ⌊e.value env⌋
  | .floor t => ⌊t.value env⌋
  | .mod p q => p.value env - q.value env * ⌊p.value env / q.value env⌋
  | .infinity | .undefined => 0

def valueSum (env : String → Int) : List Term → Rat
  | [] => 0
  | t :: ts => t.value env + valueSum env ts

def valueProd (env : String → Int) : List Term → Rat
  | [] => 1
  | t :: ts => t.value env * valueProd env ts

end

def evalInt (env : String → Int) (t : Term) : Option Rat := t.eval fun s => (env s : Rat)

variable {env : String → Int}

@[simp] theorem value_num (q : Rat) : (num q).value env = q := rfl

@[simp] theorem value_int (n : Int) : (int n).value env = n := by simp [int]

@[simp] theorem value_zero : zero.value env = 0 := by simp [zero]

@[simp] theorem value_one : one.value env = 1 := by simp [one]

@[simp] theorem value_sym (s : String) : (sym s).value env = env s := rfl

@[simp] theorem value_floor (t : Term) : (floor t).value env = ⌊t.value env⌋ := rfl

@[simp] theorem value_mod (p q : Term) :
    (mod p q).value env = p.value env - q.value env * ⌊p.value env / q.value env⌋ := rfl

@[simp] theorem value_sum (ts : List Term) : (sum ts).value env = (ts.map (value env)).sum := by
  rw [value]
  induction ts with
  | nil => simp [valueSum]
  | cons t ts ih => simp [valueSum, ih]

@[simp] theorem value_prod (ts : List Term) : (prod ts).value env = (ts.map (value env)).prod := by
  rw [value]
  induction ts with
  | nil => simp [valueProd]
  | cons t ts ih => simp [valueProd, ih]

theorem value_prod_num (c : Rat) (t : Term) : (prod [.num c, t]).value env = c * t.value env := by
  simp

/-! ## Readings -/

/-- A reading of terms that takes products to products and powers to powers. -/
structure Multiplicative {M : Type} [CommSemiring M] (ev : Term → M) : Prop where
  num_zero : ev (.num 0) = 0
  num_one : ev (.num 1) = 1
  num_mul (p q : Rat) : ev (.num (p * q)) = ev (.num p) * ev (.num q)
  prod (ts : List Term) : ev (.prod ts) = (ts.map ev).prod
  pow (b : Term) (n : Nat) : ev (.pow b (.num n)) = ev b ^ n

/-- It takes sums to sums as well, where numbers add up in one direction of `r`. -/
structure Additive {M : Type} [CommSemiring M] (r : M → M → Prop) (ev : Term → M) : Prop extends
    Multiplicative ev where
  refl (a : M) : r a a
  trans {a b c : M} : r a b → r b c → r a c
  both {a b c d : M} : r a b → r c d → r (a + c) (b + d)
  sum (ts : List Term) : ev (.sum ts) = (ts.map ev).sum
  num_add (p q : Rat) (x : M) : r (ev (.num (p + q)) * x) (ev (.num p) * x + ev (.num q) * x)

theorem additive_value (env : String → Int) : Additive Eq (value env) where
  num_zero := value_num 0
  num_one := value_num 1
  num_mul p q := by simp
  prod := value_prod
  pow b n := by simp [value]
  refl _ := rfl
  trans := .trans
  both := congrArg₂ _
  sum := value_sum
  num_add p q x := by simp [add_mul]

section

variable {M : Type} [CommSemiring M] {r : M → M → Prop} {ev : Term → M}

namespace Multiplicative

theorem coefficient (hev : Multiplicative ev) (t : Term) :
    ev (.num t.coefficient.1) * ev t.coefficient.2 = ev t := by
  unfold Term.coefficient
  split
  · split <;> simp [hev.prod]
  · rw [hev.num_one, one_mul]

theorem multiple (hev : Multiplicative ev) (c : Rat) (t : Term) :
    ev (Term.multiple c t) = ev (.num c) * ev t := by
  unfold Term.multiple
  split
  · rename_i hc
    rw [hc, hev.num_one, one_mul]
  · split <;> simp [hev.prod]

theorem scaleMember (hev : Multiplicative ev) (c : Rat) (t : Term) :
    ev (Term.scaleMember c t) = ev (.num c) * ev t := by
  unfold Term.scaleMember
  split
  · rw [hev.num_mul]
  · rw [hev.multiple, hev.num_mul, mul_assoc, hev.coefficient]

end Multiplicative

/-- What a constant and multiples of terms add up to. -/
def table (ev : Term → M) (constant : Rat) (multiples : List (Term × Rat)) : M :=
  ev (.num constant) + (multiples.map fun m => ev (.num m.2) * ev m.1).sum

namespace Additive

section

variable (hev : Additive r ev)

include hev

theorem summands (t : Term) : (t.summands.map ev).sum = ev t := by
  cases t <;> simp [Term.summands, hev.sum]

private theorem flatMap_summands (ts : List Term) :
    ((ts.flatMap Term.summands).map ev).sum = (ts.map ev).sum := by
  induction ts with
  | nil => simp
  | cons t ts ih => simp [ih, hev.summands]

private theorem addMultiple (t : Term) (constant c : Rat) (multiples : List (Term × Rat)) :
    r (table ev constant (Term.addMultiple t c multiples))
      (ev (.num c) * ev t + table ev constant multiples) := by
  unfold table
  rw [add_left_comm]
  refine hev.both (hev.refl _) ?_
  induction multiples with
  | nil => simpa [Term.addMultiple] using hev.refl _
  | cons m rest ih =>
    obtain ⟨u, d⟩ := m
    simp only [Term.addMultiple]
    split
    · rename_i h
      subst h
      simp only [map_cons, sum_cons]
      rw [← add_assoc, add_comm (ev (.num c) * _)]
      exact hev.both (hev.num_add d c _) (hev.refl _)
    · simp only [map_cons, sum_cons]
      rw [add_left_comm]
      exact hev.both (hev.refl _) ih

private theorem collect (ts : List Term) :
    r (table ev (Term.collect ts).1 (Term.collect ts).2) (ts.map ev).sum := by
  induction ts with
  | nil => simpa [Term.collect, table, hev.num_zero] using hev.refl 0
  | cons t rest ih =>
    simp only [Term.collect, map_cons, sum_cons]
    split
    · rename_i q
      have hadd := hev.num_add (Term.collect rest).1 q 1
      simp only [mul_one] at hadd
      refine hev.trans ?_ (hev.both (hev.refl (ev (.num q))) ih)
      unfold table
      rw [← add_assoc, add_comm (ev (.num q))]
      exact hev.both hadd (hev.refl _)
    · refine hev.trans (hev.addMultiple ..) ?_
      rw [hev.coefficient]
      exact hev.both (hev.refl _) ih

private theorem members (constant : Rat) (multiples : List (Term × Rat)) :
    ((Term.members constant multiples).map ev).sum = table ev constant multiples := by
  have hmultiples :
      (((multiples.filter fun m => m.2 ≠ 0).map fun m => Term.multiple m.2 m.1).map ev).sum =
      (multiples.map fun m => ev (.num m.2) * ev m.1).sum := by
    induction multiples with
    | nil => simp
    | cons m rest ih =>
      by_cases h : m.2 = 0
      · simpa [h, hev.num_zero] using ih
      · simpa [h, hev.multiple] using congrArg _ ih
  unfold Term.members table
  rw [map_append, sum_append, hmultiples]
  congr 1
  split <;> simp_all [hev.num_zero]

private theorem ofMembers (ts : List Term) : ev (Term.ofMembers ts) = (ts.map ev).sum := by
  have hperm : ((arrange ts).map ev).sum = (ts.map ev).sum :=
    ((mergeSort_perm ts before).map _).sum_eq
  rw [← hperm]
  unfold Term.ofMembers
  split <;> simp_all [zero, hev.num_zero, hev.sum]

end

end Additive

/-! ## Sums -/

/-- A term that is a number rather than an infinity or a gap. -/
def Finite (t : Term) : Prop := ∀ s ∈ t.summands, s ≠ .infinity ∧ s ≠ .undefined

theorem Finite.ne {t : Term} (h : t.Finite) : t ≠ .infinity ∧ t ≠ .undefined := by
  constructor
  · rintro rfl
    exact (h .infinity (by simp [summands])).1 rfl
  · rintro rfl
    exact (h .undefined (by simp [summands])).2 rfl

private theorem filter_finite (h : ∀ t ∈ ts, t.Finite) :
    (ts.flatMap summands).filter (· ≠ .infinity) = ts.flatMap summands := by
  rw [filter_eq_self]
  intro s hs
  obtain ⟨t, ht, hst⟩ := mem_flatMap.mp hs
  simpa using (h t ht s hst).1

theorem add_eq_ofMembers (h : ∀ t ∈ ts, t.Finite) :
    add ts =
      ofMembers (members (collect (ts.flatMap summands)).1 (collect (ts.flatMap summands)).2) := by
  have hundefined : ¬ (ts.flatMap summands).contains .undefined := by
    intro hmem
    rw [contains_iff_mem] at hmem
    obtain ⟨t, ht, hst⟩ := mem_flatMap.mp hmem
    exact (h t ht _ hst).2 rfl
  unfold add
  simp only [filter_finite h, if_neg hundefined, Nat.sub_self]

theorem Additive.add (hev : Additive r ev) (h : ∀ t ∈ ts, t.Finite) :
    r (ev (Term.add ts)) (ts.map ev).sum := by
  rw [add_eq_ofMembers h, hev.ofMembers, hev.members, ← hev.flatMap_summands]
  exact hev.collect _

theorem value_add (h : ∀ t ∈ ts, t.Finite) : (add ts).value env = (ts.map (value env)).sum :=
  (additive_value env).add h

end

end Polyloom.Term
