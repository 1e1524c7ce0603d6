import Mathlib
import Polyloom.Constraint.Tableau
import Polyloom.Proofs.Constraint.LinearRow
import Polyloom.Proofs.Outcome

/-!
# Reading a table of constraints

A row of a table is read as the sum of its coefficients, each times its variable, compared with
its number.  Moving columns changes nothing of this.  A row of a linear constraint says the same
as the constraint, unless it was an at-most row with a coefficient other than one: such rows are
turned into at-least rows, but only bare variables change their sign.
-/

namespace Polyloom

open List LinearTerms TableauRow

variable {cs : List Constraint} {p : String × Int} {table : String → Int} {α : Type}

/-! ## Reading -/

def TableauRelation.holds : TableauRelation → Int → Int → Prop
  | .equal, a, b => a = b
  | .atLeast, a, b => b ≤ a

namespace TableauRow

variable {columns : List String} {terms : LinearTerms}

def value (columns : List String) (row : TableauRow) (env : String → Int) : Int :=
  LinearTerms.value (columns.zip row.coeffs) env

def Holds (columns : List String) (row : TableauRow) (env : String → Int) : Prop :=
  row.relation.holds (row.value columns env) row.const

/-! ## Entries -/

def shown (turned : Bool) (c : Int) : Int := if c = 1 then (if turned then -1 else 1) else c

private theorem entry_var (turned : Bool) (x : String) (c : Int) :
    entry turned ([.var x], c) = .ok (some (x, shown turned c)) := by
  have hnames : distinct (IntTerm.var x).vars = [x] := rfl
  by_cases hc : c = 1
  · subst hc
    rfl
  · simp [entry, hnames, shown, hc]

private theorem entries_polynomial (turned : Bool) (terms : LinearTerms) :
    entries turned terms.polynomial = .ok (terms.map fun p => (p.1, shown turned p.2)) := by
  induction terms with
  | nil => rfl
  | cons p terms ih =>
    have hcons : polynomial (p :: terms) =
        ([.var p.1], p.2) :: polynomial terms := rfl
    rw [hcons, entries, entry_var, ih]
    rfl

private theorem summands_polynomial (terms : LinearTerms) :
    summands terms.polynomial = terms.polynomial := by
  cases terms with
  | nil => rfl
  | cons p terms =>
    cases terms with
    | nil => rfl
    | cons q rest => rfl

/-! ## Coefficients -/

def withEntry (table : String → Int) (entry : String × Int) (s : String) : Int :=
  if s = entry.1 then entry.2 else table s

private theorem put_map (columns : List String) (table : String → Int) (entry : String × Int) :
    put columns entry.1 entry.2 (columns.map table) = columns.map (withEntry table entry) := by
  rw [put, zipWith_map_right, zipWith_self]
  rfl

private theorem foldl_put (columns : List String) (es : LinearTerms) (table : String → Int) :
    es.foldl (fun acc p => put columns p.1 p.2 acc) (columns.map table) =
      columns.map (es.foldl withEntry table) := by
  induction es generalizing table with
  | nil => rfl
  | cons e es ih => rw [foldl_cons, foldl_cons, put_map, ih]

private theorem value_zip (columns : List String) (table env : String → Int) :
    LinearTerms.value (columns.zip (columns.map table)) env =
      (columns.map fun s => table s * env s).sum := by
  induction columns with
  | nil => rfl
  | cons s columns ih =>
    rw [map_cons, zip_cons_cons, value_cons, ih, map_cons, sum_cons]

private theorem sum_withEntry (hcolumns : columns.Nodup) {entry : String × Int}
    (hmem : entry.1 ∈ columns) (hnew : table entry.1 = 0) (env : String → Int) :
    (columns.map fun s => withEntry table entry s * env s).sum =
      entry.2 * env entry.1 + (columns.map fun s => table s * env s).sum := by
  induction columns with
  | nil => simp at hmem
  | cons s columns ih =>
    rw [nodup_cons] at hcolumns
    rw [map_cons, sum_cons, map_cons, sum_cons]
    by_cases hs : s = entry.1
    · have hrest : (columns.map fun s => withEntry table entry s * env s) =
          columns.map fun s => table s * env s := by
        refine map_congr_left fun u hu => ?_
        have hne : u ≠ entry.1 := fun h => hcolumns.1 (hs ▸ h ▸ hu)
        rw [withEntry, if_neg hne]
      rw [hrest, withEntry, if_pos hs, hs, hnew, zero_mul, zero_add]
    · have hrest : entry.1 ∈ columns := (mem_cons.mp hmem).resolve_left (Ne.symm hs)
      rw [ih hcolumns.2 hrest, withEntry, if_neg hs]
      ring

private theorem sum_foldl_withEntry (hcolumns : columns.Nodup)
    {es : LinearTerms} (hes : (es.map Prod.fst).Nodup) (hmem : ∀ e ∈ es, e.1 ∈ columns)
    (hnew : ∀ e ∈ es, table e.1 = 0) (env : String → Int) :
    (columns.map fun s => es.foldl withEntry table s * env s).sum =
      es.value env + (columns.map fun s => table s * env s).sum := by
  induction es generalizing table with
  | nil => simp [LinearTerms.value]
  | cons e es ih =>
    rw [map_cons, nodup_cons] at hes
    rw [forall_mem_cons] at hmem hnew
    have hlater : ∀ e' ∈ es, withEntry table e e'.1 = 0 := by
      intro e' he'
      have hne : e'.1 ≠ e.1 := fun h => hes.1 (h ▸ mem_map_of_mem he')
      rw [withEntry, if_neg hne]
      exact hnew.2 e' he'
    rw [foldl_cons, ih hes.2 hmem.2 hlater, sum_withEntry hcolumns hmem.1 hnew.1,
      value_cons]
    ring

private theorem ofRow_linear (hcolumns : columns.Nodup) (hterms : terms.Proper)
    (hmem : ∀ p ∈ terms, p.1 ∈ columns) (op : RowOp) (k : Int) :
    ∃ row, ofRow columns ⟨terms.polynomial, op, k⟩ = .ok row ∧ row.coeffs.length = columns.length ∧
      row.relation = (if op = .eq then .equal else .atLeast) ∧
      row.const = (if op = .le then -k else k) ∧
      ∀ env, row.value columns env =
        LinearTerms.value (terms.map fun p => (p.1, shown (op = .le) p.2)) env := by
  let es : LinearTerms := terms.map fun p => (p.1, shown (op = .le) p.2)
  have hcoeffs : es.foldl (fun acc p => put columns p.1 p.2 acc) (columns.map fun _ => 0) =
      columns.map (es.foldl withEntry fun _ => 0) := foldl_put columns es fun _ => 0
  refine ⟨⟨columns.map (es.foldl withEntry fun _ => 0), if op = .eq then .equal else .atLeast,
    if op = .le then -k else k⟩, ?_, by simp, rfl, rfl, fun env => ?_⟩
  · rw [← hcoeffs, ofRow, summands_polynomial, entries_polynomial]
    simp [bind, Except.bind, pure, Except.pure, es]
  · have hes : (es.map Prod.fst).Nodup := by
      simpa [es, Function.comp_def] using hterms.nodup
    have hnames : ∀ e ∈ es, e.1 ∈ columns := by
      intro e he
      obtain ⟨p, hp, rfl⟩ := mem_map.mp he
      exact hmem p hp
    have hnew : ∀ e ∈ es, (fun _ => 0 : String → Int) e.1 = 0 := fun _ _ => rfl
    rw [value, value_zip, sum_foldl_withEntry hcolumns hes hnames hnew env]
    simp [es]

/-! ## Faithful rows -/

private theorem shown_false (c : Int) : shown false c = c := by
  simp +contextual [shown]

private theorem value_bare (h : ∀ p ∈ terms, p.2 = 1) (env : String → Int) :
    LinearTerms.value (terms.map fun p => (p.1, shown true p.2)) env = -terms.value env := by
  rw [← value_neg]
  refine congrArg (LinearTerms.value · env) (map_congr_left fun p hp => ?_)
  rw [h p hp]
  rfl

def alone (x : String) (n : Int) (s : String) : Int := if s = x then n else 0

private theorem value_alone (h : (terms.map Prod.fst).Nodup) (hp : p ∈ terms) (n : Int) :
    terms.value (alone p.1 n) = p.2 * n := by
  induction terms with
  | nil => simp at hp
  | cons q terms ih =>
    rw [map_cons, nodup_cons] at h
    rw [value_cons]
    obtain rfl | hp := mem_cons.mp hp
    · have hzero : LinearTerms.value terms (alone p.1 n) = 0 := by
        refine sum_eq_zero fun v hv => ?_
        obtain ⟨q, hq, rfl⟩ := mem_map.mp hv
        have hne : q.1 ≠ p.1 := fun heq => h.1 (heq ▸ mem_map_of_mem hq)
        rw [alone, if_neg hne, mul_zero]
      rw [hzero, alone, if_pos rfl, add_zero]
    · have hne : q.1 ≠ p.1 := fun heq => h.1 (heq ▸ mem_map_of_mem hp)
      rw [ih h.2 hp, alone, if_neg hne, mul_zero, zero_add]

/-- An at-most row with a coefficient admits other values: with only this variable, and so far
from zero that the sum is below both the number and its negation, the constraint holds and the
row does not. -/
private theorem exists_differs (hterms : terms.Proper) (hp : p ∈ terms)
    (hcoeff : p.2 ≠ 1) (k : Int) : ∃ env, terms.value env ≤ k ∧
    ¬ -k ≤ LinearTerms.value (terms.map fun p => (p.1, shown true p.2)) env := by
  let n : Int := -(p.2 * (k.natAbs + 1))
  have hlarge : p.2 * n ≤ -(k.natAbs + 1) := by
    have hsquare : 1 ≤ p.2 * p.2 := Int.add_one_le_iff.mpr (mul_self_pos.mpr (hterms.nonzero p hp))
    calc p.2 * n = -(p.2 * p.2 * (k.natAbs + 1)) := by ring
      _ ≤ -(1 * (k.natAbs + 1)) := neg_le_neg (mul_le_mul_of_nonneg_right hsquare (by omega))
      _ = -(k.natAbs + 1) := by ring
  have hnames : ((terms.map fun p => (p.1, shown true p.2)).map Prod.fst).Nodup := by
    simpa [Function.comp_def] using hterms.nodup
  have hentry : p ∈ terms.map fun p => (p.1, shown true p.2) :=
    mem_map.mpr ⟨p, hp, by rw [shown, if_neg hcoeff]⟩
  refine ⟨alone p.1 n, ?_, ?_⟩
  · rw [value_alone hterms.nodup hp]
    omega
  · rw [value_alone hnames hentry]
    omega

end TableauRow

/-- The simplified constraint is an at-most row with a coefficient other than one. -/
def Constraint.LosesSign (c : Constraint) : Prop :=
  ∃ row, c.reduce = .row row ∧ row.op = .le ∧ ∃ summand ∈ row.terms, summand.2 ≠ 1

/-- The row of a linear constraint exists, and it is satisfied by exactly the values that satisfy
the constraint, unless it loses a sign. -/
private theorem Constraint.IsLinear.rowOf_faithful_iff {c : Constraint}
    {op : RowOp} {terms : LinearTerms} {k : Int} (h : c.IsLinear op terms k)
    {columns : List String} (hcolumns : columns.Nodup) (hmem : ∀ s ∈ c.vars, s ∈ columns) :
    ∃ row, Tableau.rowOf columns c.reduce = .ok row ∧ row.coeffs.length = columns.length ∧
      ((∀ env, row.Holds columns env ↔ c.holds env = true) ↔ ¬ c.LosesSign) := by
  obtain ⟨op', terms', k', hreduce, hproper, hnames, hholds⟩ := h.exists_row
  have hmem' : ∀ p ∈ terms', p.1 ∈ columns := by
    intro p hp
    exact hmem p.1 (h.vars ▸ hnames ▸ mem_map_of_mem hp)
  obtain ⟨row, hrow, hlength, hrelation, hconst, hvalue⟩ :=
    ofRow_linear hcolumns hproper hmem' op' k'
  have hloses : c.LosesSign ↔ op' = .le ∧ ∃ p ∈ terms', p.2 ≠ 1 := by
    constructor
    · rintro ⟨row, hrow, hop, summand, hsummand, hcoeff⟩
      obtain rfl := Reduced.row.inj (hreduce.symm.trans hrow)
      obtain ⟨p, hp, rfl⟩ := mem_map.mp hsummand
      exact ⟨hop, p, hp, hcoeff⟩
    · rintro ⟨hop, p, hp, hcoeff⟩
      exact ⟨_, hreduce, hop, _, mem_map_of_mem hp, hcoeff⟩
  refine ⟨row, by rw [hreduce]; exact hrow, hlength, ?_⟩
  rw [hloses]
  simp only [Holds, hrelation, hconst, hvalue, hholds]
  cases op' with
  | eq => simp [TableauRelation.holds, RowOp.holds, shown_false]
  | ge => simp [TableauRelation.holds, RowOp.holds, shown_false]
  | le =>
    simp only [reduceCtorEq, if_false, if_true, decide_true, TableauRelation.holds, RowOp.holds,
      decide_eq_true_eq, true_and]
    constructor
    · rintro hfaithful ⟨p, hp, hcoeff⟩
      obtain ⟨env, hconstraint, hfails⟩ := exists_differs hproper hp hcoeff k'
      exact hfails ((hfaithful env).mpr hconstraint)
    · intro hbare env
      have hones : ∀ p ∈ terms', p.2 = 1 := fun p hp => by_contra fun hne => hbare ⟨p, hp, hne⟩
      rw [value_bare hones, neg_le_neg_iff]

/-! ## Moving columns -/

def moveToEnd {α : Type} (i : Nat) (xs : List α) : List α := xs.eraseIdx i ++ (xs[i]?).toList

private theorem moveToEnd_perm (i : Nat) (xs : List α) : (moveToEnd i xs).Perm xs := by
  by_cases hi : i < xs.length
  · have hlast : (xs[i]?).toList = [xs[i]] := by simp [hi]
    rw [moveToEnd, hlast]
    exact perm_append_comm.trans (getElem_cons_eraseIdx_perm hi)
  · have hnone : xs[i]? = none := getElem?_eq_none (Nat.le_of_not_lt hi)
    rw [moveToEnd, hnone, eraseIdx_of_length_le (Nat.le_of_not_lt hi),
      Option.toList_none, append_nil]

private theorem zip_moveToEnd {β : Type} (i : Nat) {xs : List α}
    {ys : List β} (h : xs.length = ys.length) :
    (moveToEnd i xs).zip (moveToEnd i ys) = moveToEnd i (xs.zip ys) := by
  induction xs generalizing i ys with
  | nil =>
    obtain rfl := length_eq_zero_iff.mp h.symm
    simp [moveToEnd]
  | cons x xs ih =>
    cases ys with
    | nil => simp at h
    | cons y ys =>
      have hrest : xs.length = ys.length := Nat.succ.inj h
      cases i with
      | zero => exact zip_append hrest
      | succ i => exact congrArg ((x, y) :: ·) (ih i hrest)

namespace Tableau

variable {t t' : Tableau}

def Full (t : Tableau) : Prop := ∀ row ∈ t.rows, row.coeffs.length = t.columns.length

/-- The same table with its columns in another order: the relation and the number of each row stay,
and so do the entries with their columns. -/
structure Reordered (t t' : Tableau) : Prop where
  columns : t'.columns.Perm t.columns
  rows : Forall₂ (fun row row' => row'.relation = row.relation ∧ row'.const = row.const ∧
    (t'.columns.zip row'.coeffs).Perm (t.columns.zip row.coeffs)) t.rows t'.rows

private theorem reordered_refl (t : Tableau) : t.Reordered t :=
  ⟨.refl _, forall₂_same.mpr fun _ _ => ⟨rfl, rfl, .refl _⟩⟩

private theorem Reordered.trans {t'' : Tableau} (h : t.Reordered t') (h' : t'.Reordered t'') :
    t.Reordered t'' := by
  refine ⟨h'.columns.trans h.columns,
    forall₂_comp (fun row row' row'' hrow hrow' => ?_) h.rows h'.rows⟩
  exact ⟨hrow'.1.trans hrow.1, hrow'.2.1.trans hrow.2.1, hrow'.2.2.trans hrow.2.2⟩

private theorem moveColumn_eq (i : Nat) (t : Tableau) : t.moveColumn i = ⟨moveToEnd i t.columns,
      t.rows.map fun row => { row with coeffs := moveToEnd i row.coeffs }⟩ := rfl

private theorem reordered_moveColumn (i : Nat) (h : t.Full) :
    t.Reordered (t.moveColumn i) ∧ (t.moveColumn i).Full := by
  rw [moveColumn_eq]
  refine ⟨⟨moveToEnd_perm i t.columns, ?_⟩, fun row hrow => ?_⟩
  · rw [forall₂_map_right_iff, forall₂_same]
    intro row hrow
    refine ⟨rfl, rfl, ?_⟩
    rw [zip_moveToEnd i (h row hrow).symm]
    exact moveToEnd_perm i _
  · obtain ⟨row', hrow', rfl⟩ := mem_map.mp hrow
    rw [(moveToEnd_perm i _).length_eq, (moveToEnd_perm i _).length_eq, h row' hrow']

private theorem reordered_moveAll (positions : List Nat) (h : t.Full) :
    t.Reordered (positions.foldl (fun t i => t.moveColumn i) t) := by
  induction positions generalizing t with
  | nil => exact reordered_refl t
  | cons i positions ih =>
    obtain ⟨hmoved, hfull⟩ := reordered_moveColumn i h
    exact hmoved.trans (ih hfull)

private theorem exists_moveColumns {names : List String} (h : t.Full)
    (hnames : ∀ s ∈ names, s ∈ t.columns) :
    ∃ moved, t.moveColumns names = .ok moved ∧ t.Reordered moved := by
  have hfound : ∀ s ∈ names, ∃ i, t.columnIndex s = .ok i := by
    intro s hs
    obtain ⟨i, hi⟩ := Option.isSome_iff_exists.mp (isSome_idxOf?.mpr (hnames s hs))
    exact ⟨i, by rw [columnIndex, hi]⟩
  obtain ⟨positions, hpositions⟩ := exists_mapM.mpr hfound
  exact ⟨_, bind_eq_ok.mpr ⟨positions, hpositions, rfl⟩, reordered_moveAll _ h⟩

/-! ## Tables -/

private theorem nodup_columnsOf (cs : List Constraint) : (columnsOf cs).Nodup :=
  (mergeSort_perm _ _).nodup_iff.mpr (nodup_distinct _)

theorem mem_columnsOf {s : String} : s ∈ columnsOf cs ↔ s ∈ cs.flatMap Constraint.vars := by
  rw [columnsOf, (mergeSort_perm _ _).mem_iff, mem_distinct]

private theorem exists_ofConstraints (h : ∀ c ∈ cs, ∃ op terms k, c.IsLinear op terms k) :
    ∃ t, ofConstraints cs = .ok t ∧ t.columns = columnsOf cs ∧ t.Full ∧ Forall₂ (fun c row =>
      (∀ env, row.Holds t.columns env ↔ c.holds env = true) ↔ ¬ c.LosesSign) cs t.rows := by
  have hrows : ∀ c ∈ cs, ∃ row, rowOf (columnsOf cs) (c.orient (Constraint.termOrder cs)).reduce =
      .ok row ∧ row.coeffs.length = (columnsOf cs).length ∧
        ((∀ env, row.Holds (columnsOf cs) env ↔ c.holds env = true) ↔ ¬ c.LosesSign) := by
    intro c hc
    obtain ⟨op, terms, k, hlinear⟩ := h c hc
    rw [hlinear.orient]
    exact hlinear.rowOf_faithful_iff (nodup_columnsOf cs) fun s hs =>
      mem_columnsOf.mpr (mem_flatMap.mpr ⟨c, hc, hs⟩)
  obtain ⟨rows, hmap, hall⟩ := exists_mapM_forall₂ hrows
  refine ⟨⟨columnsOf cs, rows⟩, bind_eq_ok.mpr ⟨rows, hmap, rfl⟩, rfl, ?_, ?_⟩
  · exact forall_mem_of_forall₂ (hall.imp fun _ _ hrow => hrow.1)
  · exact hall.imp fun _ _ hrow => hrow.2

private theorem Reordered.holds_iff {row row' : TableauRow}
    (hrow : row'.relation = row.relation ∧ row'.const = row.const ∧
      (t'.columns.zip row'.coeffs).Perm (t.columns.zip row.coeffs)) (env : String → Int) :
    row'.Holds t'.columns env ↔ row.Holds t.columns env := by
  have hvalue : row'.value t'.columns env = row.value t.columns env := by
    have hproducts := hrow.2.2.map fun p : String × Int => p.2 * env p.1
    exact hproducts.sum_eq
  rw [Holds, Holds, hrow.1, hrow.2.1, hvalue]

/-- A table of linear constraints, with the columns of some of their variables moved, is the table
without moving but for the order of its columns.  The row of a constraint is satisfied by exactly
the values that satisfy the constraint if and only if the constraint, once simplified, is no
at-most row with a coefficient other than one. -/
theorem rows_faithful_iff {cs : List Constraint} {moved : List String}
    (hcs : ∀ c ∈ cs, ∃ op terms k, c.IsLinear op terms k)
    (hmoved : ∀ s ∈ moved, s ∈ cs.flatMap Constraint.vars) :
    ∃ t t', ofConstraints cs = .ok t ∧ t.moveColumns moved = .ok t' ∧ t.Reordered t' ∧
      Forall₂ (fun c row => (∀ env, row.Holds t'.columns env ↔ c.holds env = true) ↔ ¬ c.LosesSign)
        cs t'.rows := by
  obtain ⟨t, ht, hcolumns, hfull, hrows⟩ := exists_ofConstraints hcs
  have hnames : ∀ s ∈ moved, s ∈ t.columns := fun s hs =>
    hcolumns ▸ mem_columnsOf.mpr (hmoved s hs)
  obtain ⟨t', ht', hreordered⟩ := exists_moveColumns hfull hnames
  refine ⟨t, t', ht, ht', hreordered,
    forall₂_comp (fun c row row' hrow hrow' => ?_) hrows hreordered.rows⟩
  simpa only [Reordered.holds_iff hrow'] using hrow

/-! ## Two rows -/

def tripled : Constraint :=
  .compare .ge (.add (.var "x") (.mul (.const 3) (.var "y"))) (.const 1)

def doubled : Constraint :=
  .compare .le (.add (.mul (.const 2) (.var "x")) (.var "y")) (.const 4)

private theorem isLinear_tripled : tripled.IsLinear .ge [("x", 1), ("y", 3)] 1 :=
  ⟨⟨_, .add (.var "x") (.scaled 3 "y"), rfl⟩, ⟨by decide, by decide⟩, .inr (by decide)⟩

private theorem isLinear_doubled : doubled.IsLinear .le [("x", 2), ("y", 1)] 4 :=
  ⟨⟨_, .add (.scaled 2 "x") (.var "y"), rfl⟩, ⟨by decide, by decide⟩, .inr (by decide)⟩

theorem tripled_doubled_faithful_iff :
    ∃ t t', ofConstraints [tripled, doubled] = .ok t ∧ t.moveColumns ["x"] = .ok t' ∧
      t.Reordered t' ∧
      Forall₂ (fun c row => (∀ env, row.Holds t'.columns env ↔ c.holds env = true) ↔
        ¬ c.LosesSign) [tripled, doubled] t'.rows := by
  refine rows_faithful_iff ?_ (by decide)
  rintro c hc
  obtain rfl | rfl : c = tripled ∨ c = doubled := by simpa using hc
  · exact ⟨_, _, _, isLinear_tripled⟩
  · exact ⟨_, _, _, isLinear_doubled⟩

/-- The row of `2 * x + y <= 4` reads `2 * x + -y >= -4`.  Where `x` is minus three and `y` is zero,
the constraint holds and the row does not. -/
theorem doubled_misread : ofConstraints [doubled] = .ok ⟨["x", "y"], [⟨[2, -1], .atLeast, -4⟩]⟩ ∧
      doubled.holds (alone "x" (-3)) = true ∧
      ¬ Holds ["x", "y"] ⟨[2, -1], .atLeast, -4⟩ (alone "x" (-3)) := by
  refine ⟨by cbv, by decide, ?_⟩
  show ¬ (-4 : Int) ≤ -6
  decide

end Tableau

end Polyloom
