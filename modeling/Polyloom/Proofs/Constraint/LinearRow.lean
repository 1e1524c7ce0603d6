import Mathlib.Algebra.BigOperators.Group.List.Basic
import Mathlib.Tactic.Ring
import Polyloom.Constraint.Row
import Polyloom.Proofs.Constraint.Solution

/-!
# Linear constraints and their simplified form

A sum of multiples of different variables is compared with a number.  Simplifying such a
constraint gives a row on the same variables that the same values satisfy; it may be turned
around, with the coefficients negated.
-/

namespace Polyloom

open List IntPoly

variable {c : Constraint} {k : Int} {op : RowOp}

variable {t : IntTerm} {terms ps qs : LinearTerms}

/-! ## Sums -/

abbrev LinearTerms := List (String × Int)

namespace LinearTerms

def value (terms : LinearTerms) (env : String → Int) : Int :=
  (terms.map fun p => p.2 * env p.1).sum

def polynomial (terms : LinearTerms) : IntPoly := terms.map fun p => ([.var p.1], p.2)

theorem value_cons (p : String × Int) (terms : LinearTerms) (env : String → Int) :
    value (p :: terms) env = p.2 * env p.1 + value terms env := sum_cons

private theorem value_append (terms terms' : LinearTerms) (env : String → Int) :
    value (terms ++ terms') env = value terms env + value terms' env := by
  simp [value]

theorem value_neg (terms : LinearTerms) (env : String → Int) :
    value (terms.map fun p => (p.1, -p.2)) env = -value terms env := by
  induction terms with
  | nil => rfl
  | cons p terms ih => rw [map_cons, value_cons, value_cons, ih, neg_mul, neg_add]

/-- Each variable has one coefficient, and it is not zero. -/
structure Proper (terms : LinearTerms) : Prop where
  nodup : (terms.map Prod.fst).Nodup
  nonzero : ∀ p ∈ terms, p.2 ≠ 0

end LinearTerms

inductive IntTerm.IsSum : IntTerm → LinearTerms → Prop
  | var (x : String) : IsSum (.var x) [(x, 1)]
  | scaled (c : Int) (x : String) : IsSum (.mul (.const c) (.var x)) [(x, c)]
  | add {l r : IntTerm} {ps qs : LinearTerms} : IsSum l ps →
    IsSum r qs → IsSum (.add l r) (ps ++ qs)

private theorem IntTerm.IsSum.eval (h : t.IsSum terms) (env : String → Int) :
    t.eval env = terms.value env := by
  induction h with
  | var x => simp [IntTerm.eval, LinearTerms.value]
  | scaled c x => simp [IntTerm.eval, LinearTerms.value]
  | add _ _ ihl ihr => rw [IntTerm.eval, ihl, ihr, LinearTerms.value_append]

private theorem IntTerm.IsSum.vars (h : t.IsSum terms) : t.vars = terms.map Prod.fst := by
  induction h with
  | var x => rfl
  | scaled c x => rfl
  | add _ _ ihl ihr => rw [IntTerm.vars, ihl, ihr, map_append]

/-! ## Polynomials -/

theorem addMonomial_of_notMem {m : AtomProduct} {c : Int} (hc : c ≠ 0) {p : IntPoly}
    (h : ∀ e ∈ p, e.1 ≠ m) : addMonomial m c p = p ++ [(m, c)] := by
  induction p with
  | nil => simp [addMonomial, hc]
  | cons e p ih =>
    obtain ⟨n, d⟩ := e
    rw [forall_mem_cons] at h
    rw [addMonomial, if_neg h.1, ih h.2, cons_append]

private theorem add_polynomial (h : (ps ++ qs).Proper) :
    add ps.polynomial qs.polynomial = LinearTerms.polynomial (ps ++ qs) := by
  induction qs generalizing ps with
  | nil => simp [add, LinearTerms.polynomial]
  | cons q qs ih =>
    have happend : ps ++ q :: qs = (ps ++ [q]) ++ qs := by simp
    have hq : q.2 ≠ 0 := h.nonzero q (by simp)
    have hnew : ∀ e ∈ ps.polynomial, e.1 ≠ [.var q.1] := by
      intro e he heq
      obtain ⟨p, hp, rfl⟩ := mem_map.mp he
      have hname : p.1 = q.1 := by simpa using heq
      have hnodup := h.nodup
      rw [map_append, nodup_append] at hnodup
      exact hnodup.2.2 p.1 (mem_map_of_mem hp) q.1 (by simp) hname
    have hstep : add ps.polynomial (LinearTerms.polynomial (q :: qs)) =
        add (addMonomial [.var q.1] q.2 ps.polynomial)
          (LinearTerms.polynomial qs) := rfl
    have hextended : ps.polynomial ++ [([.var q.1], q.2)] =
        LinearTerms.polynomial (ps ++ [q]) := by simp [LinearTerms.polynomial]
    rw [hstep, addMonomial_of_notMem hq hnew, hextended, ih (happend ▸ h), ← happend]

private theorem LinearTerms.Proper.sublist (h : qs.Proper) (hsub : ps.Sublist qs) : ps.Proper :=
  ⟨h.nodup.sublist (hsub.map Prod.fst), fun p hp => h.nonzero p (hsub.subset hp)⟩

private theorem IntTerm.IsSum.polynomial (h : t.IsSum terms) (hproper : terms.Proper) :
    t.polynomial = terms.polynomial := by
  induction h with
  | var x => rfl
  | scaled c x =>
    have hc : c ≠ 0 := hproper.nonzero (x, c) (by simp)
    simp [IntTerm.polynomial, IntPoly.const, IntPoly.atom, IntPoly.mul, IntPoly.mulMonomial,
      IntPoly.addMonomial, hc, LinearTerms.polynomial]
  | add _ _ ihl ihr =>
    rw [IntTerm.polynomial, ihl (hproper.sublist (sublist_append_left _ _)),
      ihr (hproper.sublist (sublist_append_right _ _)), add_polynomial hproper]

/-! ## Rows -/

def RowOp.comparison : RowOp → Comparison
  | .eq => .eq
  | .le => .le
  | .ge => .ge

/-- A variable, or a sum of at least two multiples of different variables, compared with a
number. -/
structure Constraint.IsLinear (c : Constraint) (op : RowOp) (terms : LinearTerms) (k : Int) :
    Prop where
  form : ∃ lhs : IntTerm, lhs.IsSum terms ∧ c = .compare op.comparison lhs (.const k)
  proper : terms.Proper
  shape : (∃ x, terms = [(x, 1)]) ∨ 2 ≤ terms.length

private theorem RowOp.holdsInt_comparison (op : RowOp) (a b : Int) :
    op.comparison.holdsInt a b = op.holds a b := by
  cases op <;> rfl

private theorem RowOp.holds_flip_neg (op : RowOp) (a b : Int) :
    op.flip.holds (-a) (-b) = op.holds a b := by
  cases op <;> simp [RowOp.flip, RowOp.holds]

namespace Constraint.IsLinear

variable {c : Constraint} {op : RowOp} {terms : LinearTerms} {k : Int}

private theorem holds (h : c.IsLinear op terms k) (env : String → Int) :
    c.holds env = op.holds (terms.value env) k := by
  obtain ⟨lhs, hsum, rfl⟩ := h.form
  rw [Constraint.holds, RowOp.holdsInt_comparison, hsum.eval]
  rfl

theorem vars (h : c.IsLinear op terms k) : c.vars = terms.map Prod.fst := by
  obtain ⟨lhs, hsum, rfl⟩ := h.form
  simp [Constraint.vars, IntTerm.vars, hsum.vars]

theorem orient (h : c.IsLinear op terms k) (order : List IntTerm) : c.orient order = c := by
  obtain ⟨lhs, hsum, rfl⟩ := h.form
  have hconst : (IntTerm.polynomial (.const k)).asConst? = some k := by
    by_cases hk : k = 0 <;> simp [IntTerm.polynomial, const, asConst?, hk]
  cases op <;> simp [Constraint.orient, RowOp.comparison, hconst]

end Constraint.IsLinear

/-! ## Simplifying -/

private theorem nonconst_polynomial (terms : LinearTerms) :
    nonconst terms.polynomial = terms.polynomial := by
  simp [nonconst, LinearTerms.polynomial, filter_map, Function.comp_def]

theorem constPart_append (terms : LinearTerms) (rest : IntPoly) :
    constPart (terms.polynomial ++ rest) = rest.constPart := by
  induction terms with
  | nil => rfl
  | cons p terms ih => exact ih

theorem constPart_polynomial (terms : LinearTerms) : constPart terms.polynomial = 0 := by
  rw [← append_nil terms.polynomial, constPart_append]
  rfl

private theorem nonconst_const (k : Int) : (const k).nonconst = [] := by
  by_cases hk : k = 0 <;> simp [const, nonconst, hk]

theorem sub_const (terms : LinearTerms) (k : Int) :
    (sub terms.polynomial (const k)).nonconst = terms.polynomial ∧
      (sub terms.polynomial (const k)).constPart = -k := by
  by_cases hk : k = 0
  · subst hk
    exact ⟨nonconst_polynomial terms, constPart_polynomial terms⟩
  · have hnew : ∀ e ∈ terms.polynomial, e.1 ≠ [] := by
      intro e he
      obtain ⟨p, -, rfl⟩ := mem_map.mp he
      exact cons_ne_nil _ _
    have hsub :
        sub terms.polynomial (const k) = terms.polynomial ++ [([], -k)] := by
      rw [const, if_neg hk, ← addMonomial_of_notMem (by omega) hnew]
      simp [sub, scale, add]
    rw [hsub]
    constructor
    · rw [nonconst, filter_append]
      exact (congrArg (· ++ []) (nonconst_polynomial terms)).trans (append_nil _)
    · rw [constPart_append]
      rfl

private theorem reduce_single (x : String) (op : RowOp) (k : Int) :
    Row.single [.var x] 1 op k = .row ⟨LinearTerms.polynomial [(x, 1)], op, k⟩ := by
  cases op <;> simp [Row.single, Row.decideMod, LinearTerms.polynomial]

private theorem scale_polynomial (terms : LinearTerms) : scale (-1) terms.polynomial =
      LinearTerms.polynomial (terms.map fun p => (p.1, -p.2)) := by
  simp [scale, LinearTerms.polynomial, Function.comp_def]

private theorem reduce_sum (p q : String × Int) (rest : LinearTerms) (op : RowOp) (k : Int) :
    Row.reduce op (LinearTerms.polynomial (p :: q :: rest)) (const k) =
        .row ⟨LinearTerms.polynomial (p :: q :: rest), op, k⟩ ∨
      Row.reduce op (LinearTerms.polynomial (p :: q :: rest)) (const k) =
        .row ⟨LinearTerms.polynomial ((p :: q :: rest).map fun p => (p.1, -p.2)), op.flip, -k⟩ := by
  obtain ⟨hnonconst, hconst⟩ := sub_const (p :: q :: rest) k
  have hsum : Row.reduce op (LinearTerms.polynomial (p :: q :: rest)) (const k) =
      if (op ≠ .eq && (LinearTerms.polynomial (p :: q :: rest)).any fun s => s.2 = -1) = true then
        .row ⟨scale (-1) (LinearTerms.polynomial (p :: q :: rest)), op.flip, -k⟩
      else .row ⟨LinearTerms.polynomial (p :: q :: rest), op, k⟩ := by
    simp only [Row.reduce, hnonconst, hconst, nonconst_const, constPart_polynomial, neg_neg]
    rfl
  rw [hsum, scale_polynomial]
  split
  · exact .inr rfl
  · exact .inl rfl

/-- A linear constraint is simplified to a row with the same terms, or to one that is turned
around. -/
private theorem Constraint.IsLinear.reduce_eq (h : c.IsLinear op terms k) :
    c.reduce = .row ⟨terms.polynomial, op, k⟩ ∨
      c.reduce = .row ⟨LinearTerms.polynomial (terms.map fun p => (p.1, -p.2)), op.flip, -k⟩ := by
  obtain ⟨lhs, hsum, rfl⟩ := h.form
  have hreduce : (Constraint.compare op.comparison lhs (.const k)).reduce =
      Row.reduce op terms.polynomial (const k) := by
    cases op <;> simp [Constraint.reduce, RowOp.comparison, hsum.polynomial h.proper,
      IntTerm.polynomial]
  rw [hreduce]
  obtain ⟨x, rfl⟩ | hlength := h.shape
  · left
    obtain ⟨hnonconst, hconst⟩ := sub_const [(x, 1)] k
    rw [← reduce_single, Row.reduce, hnonconst, hconst]
    simp [LinearTerms.polynomial]
  · cases terms with
    | nil => simp at hlength
    | cons p terms =>
      cases terms with
      | nil => simp at hlength
      | cons q rest => exact reduce_sum p q rest op k

theorem Constraint.IsLinear.exists_row (h : c.IsLinear op terms k) : ∃ op' terms' k',
    c.reduce = .row ⟨LinearTerms.polynomial terms', op', k'⟩ ∧ terms'.Proper ∧ terms'.map Prod.fst =
    terms.map Prod.fst ∧ ∀ env, c.holds env = op'.holds (terms'.value env) k' := by
  obtain hreduce | hreduce := h.reduce_eq
  · exact ⟨op, terms, k, hreduce, h.proper, rfl, h.holds⟩
  · have hnames : (terms.map fun p => (p.1, -p.2)).map Prod.fst = terms.map Prod.fst := by
      simp [Function.comp_def]
    refine ⟨op.flip, _, -k, hreduce, ⟨?_, ?_⟩, hnames, fun env => ?_⟩
    · rw [hnames]
      exact h.proper.nodup
    · intro p hp
      obtain ⟨q, hq, rfl⟩ := mem_map.mp hp
      exact neg_ne_zero.mpr (h.proper.nonzero q hq)
    · rw [h.holds, LinearTerms.value_neg, RowOp.holds_flip_neg]

end Polyloom
