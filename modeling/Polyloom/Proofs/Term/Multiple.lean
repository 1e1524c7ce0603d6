import Mathlib.Tactic.Linarith
import Mathlib.Tactic.FieldSimp
import Polyloom.Proofs.Term.Value

/-!
# Normal sums and products

A sum in normal form adds up a number and multiples of what its summands multiply.  A product in
normal form is a number and powers of its other factors.  If there is one other factor, the number
is put in front of it, or in front of its members if it is a sum.
-/

namespace Polyloom.Term

open SortKey Term List

variable {P : Term → Prop} {env : String → Int} {q k : Rat} {t b : Term} {ts : List Term}

def integers : Subring Rat := (Int.castRingHom Rat).range

theorem mem_integers : q ∈ integers ↔ ∃ n : Int, q = n := by
  simp only [integers, RingHom.mem_range, eq_intCast]
  exact ⟨fun ⟨n, h⟩ => ⟨n, h.symm⟩, fun ⟨n, h⟩ => ⟨n, h.symm⟩⟩

@[simp] theorem intCast_mem_integers (n : Int) : (n : Rat) ∈ integers := mem_integers.mpr ⟨n, rfl⟩

def isNum : Term → Bool
  | .num _ => true
  | _ => false

theorem eq_num_or_isNum_eq_false (t : Term) : (∃ q, t = .num q) ∨ t.isNum = false := by
  cases t with
  | num q => exact .inl ⟨q, rfl⟩
  | _ => exact .inr rfl

/-! ## Sums -/

private theorem forall_addMultiple (ht : P t) (c : Rat) {multiples : List (Term × Rat)}
    (h : ∀ m ∈ multiples, P m.1) : ∀ m ∈ addMultiple t c multiples, P m.1 := by
  induction multiples with
  | nil => simpa [addMultiple] using ht
  | cons m rest ih =>
    obtain ⟨u, d⟩ := m
    rw [forall_mem_cons] at h
    rw [addMultiple]
    split
    · exact forall_mem_cons.mpr ⟨h.1, h.2⟩
    · exact forall_mem_cons.mpr ⟨h.1, ih h.2⟩

private theorem forall_collect (h : ∀ t ∈ ts, t.isNum = false → P t.coefficient.2) :
    ∀ m ∈ (collect ts).2, P m.1 := by
  induction ts with
  | nil => simp [collect]
  | cons t rest ih =>
    rw [forall_mem_cons] at h
    cases t with
    | num => exact ih h.2
    | _ => exact forall_addMultiple (h.1 rfl) _ (ih h.2)

/-- A sum in normal form has numbers and multiples of what its summands multiply. -/
theorem add_cases (hfinite : ∀ t ∈ ts, t.Finite) (hnum : ∀ q, P (.num q)) (hmultiple : ∀ t ∈ ts,
      ∀ s ∈ t.summands, s.isNum = false → ∀ c, P (multiple c s.coefficient.2)) :
    P (add ts) ∨ ∃ us, us ≠ [] ∧ add ts = .sum us ∧ ∀ u ∈ us, P u := by
  have hbase : ∀ m ∈ (collect (ts.flatMap summands)).2, ∀ c, P (multiple c m.1) := by
    refine forall_collect (P := fun b => ∀ c, P (multiple c b)) fun s hs => ?_
    obtain ⟨t, ht, hst⟩ := mem_flatMap.mp hs
    exact hmultiple t ht s hst
  rw [add_eq_ofMembers hfinite]
  generalize collect (ts.flatMap summands) = table at hbase ⊢
  have hmembers : ∀ u ∈ arrange (members table.1 table.2), P u := by
    intro u hu
    have hu := (mergeSort_perm _ before).mem_iff.mp hu
    rw [members, mem_append] at hu
    obtain hu | hu := hu
    · split at hu
      · simp at hu
      · exact mem_singleton.mp hu ▸ hnum _
    · obtain ⟨m, hm, rfl⟩ := mem_map.mp hu
      exact hbase m (mem_of_mem_filter hm) _
  unfold ofMembers
  split
  · exact .inl (hnum 0)
  · rename_i u heq
    exact .inl (hmembers u (by simp [heq]))
  · rename_i hne _
    exact .inr ⟨_, hne, rfl, hmembers⟩

theorem scaleMember_eq (h : t.isNum = false) (c : Rat) :
    scaleMember c t = multiple (c * t.coefficient.1) t.coefficient.2 := by
  cases t with
  | num => simp [isNum] at h
  | _ => rfl

/-! ## Products -/

def scaled (k : Rat) (b : Term) : Term :=
  if k = 0 then zero
  else if k = 1 then b
  else match b with
    | .sum ts => add (ts.map (scaleMember k))
    | b => .prod [.num k, b]

theorem size_pos (t : Term) : 0 < t.size := by
  cases t <;> simp only [size] <;> omega

theorem cmp_number (q : Rat) (h : t.isNum = false) (hsize : t.size = 1) :
    SortKey.cmp (.number q) t.sortKey = .lt ∧ SortKey.cmp t.sortKey (.number q) = .gt := by
  cases t with
  | num => simp [isNum] at h
  | sum ts => simp [sortKey, SortKey.number, SortKey.cmp]; exact ⟨rfl, rfl⟩
  | prod ts =>
    cases ts with
    | nil => simp [sortKey, SortKey.number, SortKey.cmp]; exact ⟨rfl, rfl⟩
    | cons s ss =>
      have := s.size_pos
      simp [size, sizeAll] at hsize
      omega
  | pow b e =>
    have := b.size_pos
    simp [size] at hsize
    omega
  | floor a =>
    have := a.size_pos
    simp [size] at hsize
    omega
  | mod a b =>
    have := a.size_pos
    simp [size] at hsize
    omega
  | _ => simp [sortKey, SortKey.number, SortKey.atom, SortKey.cmp]; exact ⟨rfl, rfl⟩

theorem before_num (q : Rat) (h : t.isNum = false) : before (.num q) t = true := by
  have hsize := t.size_pos
  unfold before
  rcases Nat.lt_or_eq_of_le (show (num q).size ≤ t.size by simp only [size]; omega) with
    hlt | heq
  · simp [compare_lt_iff_lt.mpr hlt]
  · rw [heq, sortKey]
    simp [(cmp_number q h heq.symm).1]

theorem before_num_right (h : t.isNum = false) (q : Rat) : before t (.num q) = false := by
  have hsize := t.size_pos
  unfold before
  rcases Nat.lt_or_eq_of_le (show (num q).size ≤ t.size by simp only [size]; omega) with
    hlt | heq
  · simp [compare_gt_iff_gt.mpr hlt]
  · rw [heq, sortKey]
    simp [(cmp_number q h heq.symm).2]

private theorem ofFactors_num_cons (q : Rat) (h : t.isNum = false) :
    ofFactors [.num q, t] = .prod [.num q, t] := by
  have harrange : arrange [.num q, t] = [.num q, t] :=
    mergeSort_of_pairwise (by simpa using before_num q h)
  simp [ofFactors, harrange]

def ofProduct (c : Rat) (factors : List Term) : Term :=
  if c = 0 then zero
  else if c = 1 then ofFactors factors
  else match factors with
    | [] => .num c
    | [.sum ts] => add (ts.map (scaleMember c))
    | _ => ofFactors (.num c :: factors)

theorem mul_eq_ofProduct
    (hfinite : ∀ s ∈ ts.flatMap multiplicands, s ≠ .infinity ∧ s ≠ .undefined) :
    mul ts = ofProduct (collectPowers (ts.flatMap multiplicands)).1
      ((collectPowers (ts.flatMap multiplicands)).2.filterMap fun p => factor? p.1 p.2) := by
  have hfilter : (ts.flatMap multiplicands).filter (· ≠ .infinity) = ts.flatMap multiplicands := by
    rw [filter_eq_self]
    intro s hs
    simpa using (hfinite s hs).1
  have hundefined : ¬ (ts.flatMap multiplicands).contains .undefined := by
    intro hmem
    rw [contains_iff_mem] at hmem
    exact (hfinite _ hmem).2 rfl
  unfold mul
  simp only [hfilter, if_neg hundefined, Nat.lt_irrefl, if_false]
  rfl

theorem mul_eq_scaled (hb : b.isNum = false)
    (hfinite : ∀ s ∈ ts.flatMap multiplicands, s ≠ .infinity ∧ s ≠ .undefined)
    (hcollect : collectPowers (ts.flatMap multiplicands) = (k, [(b, one)])) :
    mul ts = scaled k b := by
  have hone : (one = zero) = False := by simp [one, zero]
  have harrange : arrange [b] = [b] := by simp [arrange]
  rw [mul_eq_ofProduct hfinite, hcollect]
  unfold ofProduct scaled
  simp only [filterMap_cons, filterMap_nil, factor?, hone, if_true, if_false]
  split
  · rfl
  split
  · simp [ofFactors, harrange]
  · cases b with
    | num => simp [isNum] at hb
    | sum => rfl
    | _ => exact ofFactors_num_cons _ hb

theorem mul_nums (c q : Rat) : mul [.num c, .num q] = .num (q * c) := by
  have harrange : arrange [] = [] := by simp [arrange]
  by_cases h0 : q * c = 0
  · simp [mul, multiplicands, collectPowers, h0, zero]
  by_cases h1 : q * c = 1
  · simp [mul, multiplicands, collectPowers, h1, ofFactors, harrange, one]
  · simp [mul, multiplicands, collectPowers, h0, h1]

theorem multiplicands_num (q : Rat) : (num q).multiplicands = [.num q] := rfl

theorem multiplicands_prod (ts : List Term) : (prod ts).multiplicands = ts := rfl

theorem collectPowers_num_cons (q : Rat) (rest : List Term) :
    collectPowers (.num q :: rest) = ((collectPowers rest).1 * q, (collectPowers rest).2) := rfl

theorem collectPowers_cons (hnum : t.isNum = false) (rest : List Term) :
    collectPowers (t :: rest) =
      ((collectPowers rest).1, addPower t.basePower.1 t.basePower.2 (collectPowers rest).2) := by
  cases t with
  | num => simp [isNum] at hnum
  | _ => rfl

private theorem collectPowers_append_num (ts : List Term) (c : Rat) :
    collectPowers (ts ++ [.num c]) = ((collectPowers ts).1 * c, (collectPowers ts).2) := by
  induction ts with
  | nil => rfl
  | cons t ts ih =>
    cases t with
    | num q => simp [collectPowers, ih, mul_right_comm]
    | _ => simp [collectPowers, ih]

theorem mul_num_comm (t : Term) (c : Rat) : mul [t, .num c] = mul [.num c, t] := by
  have hlast : (t.multiplicands ++ [num c]).filter (· ≠ infinity) =
      t.multiplicands.filter (· ≠ infinity) ++ [num c] := by simp
  have hfirst : (num c :: t.multiplicands).filter (· ≠ infinity) =
      num c :: t.multiplicands.filter (· ≠ infinity) := by simp
  have hcontains : (t.multiplicands ++ [num c]).contains undefined =
      (num c :: t.multiplicands).contains undefined := by simp
  unfold mul
  simp only [flatMap_cons, flatMap_nil, multiplicands_num, append_nil,
    singleton_append, hlast, hfirst, hcontains, collectPowers_append_num,
    collectPowers_num_cons, length_append, length_cons, length_nil, Nat.zero_add]

theorem mul_num_base (hnum : t.isNum = false) (hpower : t.basePower = (t, one))
    (hmul : t.multiplicands = [t]) (hfinite : t ≠ .infinity ∧ t ≠ .undefined) (c : Rat) :
    mul [.num c, t] = scaled c t := by
  refine mul_eq_scaled hnum ?_ ?_
  · simpa [multiplicands_num, hmul] using hfinite
  · simp only [flatMap_cons, multiplicands_num, hmul, flatMap_nil, append_nil,
      singleton_append, collectPowers_num_cons, collectPowers_cons hnum, hpower]
    simp [collectPowers, addPower]

theorem mul_num_sum (c : Rat) (ts : List Term) : mul [.num c, .sum ts] = scaled c (.sum ts) :=
  mul_num_base rfl rfl rfl (by simp) c

end Polyloom.Term
