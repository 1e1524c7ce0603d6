import Polyloom.Proofs.Access.Naming
import Polyloom.Proofs.Affine.Reading
import Polyloom.Proofs.Text.Occurrence

/-!
# What an application states

The relation of an application says that its result is the value that the first result of its
map is read with, at the operands.  Names keep apart the values, the inputs of maps, the numbers
and the variables of memory dimensions.
-/

namespace Polyloom

open AffineExpr NameTable Proposition Term List

variable {e : AffineExpr} {product : AffineExpr → AffineExpr → Bool}

open NameTable (Tickless)

/-! ## Names apart -/

/-- Texts that values print as: none is empty, has a tick or an underscore, or is that of a
number, a dimension or a symbol. -/
structure PlainNames (printed : String → String) : Prop where
  nonempty : ∀ v, printed v ≠ ""
  tickless : ∀ v, Tickless (printed v)
  unscored : ∀ v, '_' ∉ (printed v).toList
  apart : ∀ v e, leafText? e ≠ some (printed v)

/-- Names of values that are told apart from each other and from all other names. -/
structure NamesApart (name : String → String) : Prop where
  injective : Function.Injective name
  leaf : ∀ v e, leafText? e ≠ some (name v)
  dimension : ∀ m k v, MemoryOp.dimensionVariable (name m) k ≠ name v

theorem tickless_repr (n : Nat) : Tickless n.repr :=
  fun h => absurd (Text.isDigit_of_mem_repr h) (by decide)

theorem mem_leafText {s : String} (h : e.leafText? = some s) {c : Char}
    (hc : c ∈ s.toList) : c.isDigit = true ∨ c ∈ ['-', 'd', 's'] := by
  cases e with
  | const n =>
    obtain rfl : n.repr = s := Option.some.inj h
    rw [Int.repr_eq_if] at hc
    split at hc
    · exact .inl (Text.isDigit_of_mem_repr hc)
    · obtain hc | hc := mem_append.mp (String.toList_append ▸ hc)
      · exact .inr (by simp_all)
      · exact .inl (Text.isDigit_of_mem_repr hc)
  | dim i =>
    obtain rfl : dimName i = s := Option.some.inj h
    obtain hc | hc := mem_append.mp (String.toList_append ▸ hc)
    · exact .inr (by simp_all)
    · exact .inl (Text.isDigit_of_mem_repr hc)
  | sym i =>
    obtain rfl : symName i = s := Option.some.inj h
    obtain hc | hc := mem_append.mp (String.toList_append ▸ hc)
    · exact .inr (by simp_all)
    · exact .inl (Text.isDigit_of_mem_repr hc)
  | binary | unknownBinary | unknown => simp [leafText?] at h

private theorem tickless_leafText {s : String} (h : e.leafText? = some s) : Tickless s :=
  fun htick => absurd (mem_leafText h htick) (by decide)

theorem dimName_injective : Function.Injective dimName :=
  fun _ _ h => Text.repr_injective ((String.append_right_inj "d").mp h)

theorem symName_injective : Function.Injective symName :=
  fun _ _ h => Text.repr_injective ((String.append_right_inj "s").mp h)

private theorem dimName_ne_symName (i j : Nat) : dimName i ≠ symName j := by
  intro h
  have hlist := congrArg (fun s => s.toList.head?) h
  simp [dimName, symName] at hlist

private theorem getLast_dimensionVariable (memref : String) (k : Nat) :
    (MemoryOp.dimensionVariable memref k).toList.getLast? ≠ some '\'' := by
  intro h
  have hne : k.repr.toList ≠ [] := by
    rw [Nat.toList_repr]
    exact Nat.toDigits_ne_nil
  rw [MemoryOp.dimensionVariable, String.toList_append, getLast?_append_of_ne_nil _ hne] at h
  exact tickless_repr k (mem_of_getLast? h)

theorem PlainNames.namesApart {printed : String → String} (h : PlainNames printed)
    {table : NameTable String} (htable : table.Ticked) : NamesApart (table.name printed) where
  injective := htable.name_injective h.tickless h.nonempty
  leaf v e hleaf := by
    obtain ⟨k, -, hname⟩ | hname := htable.name_cases printed v
    · rw [hname] at hleaf
      cases k with
      | zero => exact h.apart v e (by simpa using hleaf)
      | succ k =>
        refine tickless_leafText hleaf ?_
        simp [toList_ticked, replicate_succ]
    · exact tickless_leafText hleaf (by simp [hname])
  dimension m k v hdimension := by
    obtain ⟨l, -, hname⟩ | hname := htable.name_cases printed v
    · -- a recorded name has no underscore
      have hscore : '_' ∈ (ticked (printed v) l).toList := by
        rw [← hname, ← hdimension]
        simp [MemoryOp.dimensionVariable]
      rw [toList_ticked, mem_append, mem_replicate] at hscore
      obtain hscore | ⟨-, hscore⟩ := hscore
      · exact h.unscored v hscore
      · exact absurd hscore (by decide)
    · refine getLast_dimensionVariable (table.name printed m) k ?_
      rw [hdimension, hname, String.toList_append, getLast?_append_of_ne_nil _ (by simp)]
      simp

/-! ## The meaning of an application -/

namespace Application

variable {a : Application} {name : String → String} {operands : List String}

def valueBy (value : (Nat → Int) → (Nat → Int) → AffineExpr → Option Int) (p : String → Int)
    (a : Application) : Option Int := do
  let e ← a.map.results.head?
  value (fun i => p (a.operands.getD i "")) (fun j => p (a.operands.getD (a.map.dims + j) "")) e

theorem valueBy_eq {rest : List AffineExpr} (h : a.map.results = e :: rest)
    (value : (Nat → Int) → (Nat → Int) → AffineExpr → Option Int) (p : String → Int) :
    a.valueBy value p = value (fun i => p (a.operands.getD i ""))
      (fun j => p (a.operands.getD (a.map.dims + j) "")) e := by
  simp [valueBy, h]

def Computes (p : String → Int) (a : Application) : Prop :=
  a.valueBy eval p = some (p a.result)

def Reads (p : String → Int) (a : Application) : Prop :=
  a.valueBy read p = some (p a.result)

/-- An application of a map that is made with such products only to enough operands. -/
structure Formed (product : AffineExpr → AffineExpr → Bool) (a : Application) : Prop where
  operation : a.operation = "affine.apply"
  results : a.map.results ≠ []
  formed : ∀ e ∈ a.map.results, e.isFormed product a.map.dims a.map.symbols = true
  operands : a.map.dims + a.map.symbols ≤ a.operands.length

/-- An application of an affine map to enough operands. -/
abbrev WellFormed (a : Application) : Prop := a.Formed fun l r => l.isConst || r.isConst

/-- The names of operands and result are none of an input, and the result is not named as the
map is written. -/
structure NamedApart (name : String → String) (a : Application) : Prop where
  dim : ∀ v ∈ a.result :: a.operands, ∀ i, name v ≠ dimName i
  sym : ∀ v ∈ a.result :: a.operands, ∀ j, name v ≠ symName j
  result : ∀ e ∈ a.map.results.head?, e.leafText? ≠ some (name a.result)

theorem namedApart (h : NamesApart name) (a : Application) : a.NamedApart name where
  dim v _ i hi := h.leaf v (.dim i) (by simp [leafText?, hi])
  sym v _ j hj := h.leaf v (.sym j) (by simp [leafText?, hj])
  result e _ := h.leaf a.result e

/-! ## Inputs and operands -/

def operandTable (inputs : List MapInput) : List (String × String) :=
  inputs.map fun input => (input.name, input.operand)

private theorem substitution_eq (inputs : List MapInput) :
    substitution inputs = symbolTable (operandTable inputs) := by
  simp [substitution, symbolTable, operandTable]

private theorem exists_inputs {label : Nat → String} (hlabel : Function.Injective label)
    (i : Nat) {n : Nat} (h : n ≤ operands.length) :
    ∃ l, inputs label operands i n = .ok l ∧
      (∀ k < n, (operandTable l).lookup (label (i + k)) = some (operands.getD k "")) ∧
      ∀ s, (∀ k, s ≠ label k) → (operandTable l).lookup s = none := by
  induction n generalizing operands i with
  | zero => exact ⟨[], by simp [inputs], by simp, fun s _ => rfl⟩
  | succ n ih =>
    cases operands with
    | nil => simp at h
    | cons o rest =>
      obtain ⟨l, hl, hfound, hother⟩ := ih (i + 1) (Nat.le_of_succ_le_succ h)
      refine ⟨⟨label i, i, o⟩ :: l,
        by simp [inputs, hl, bind, Except.bind, pure, Except.pure], ?_, ?_⟩
      · intro k hk
        cases k with
        | zero => simp [operandTable]
        | succ k =>
          have hne : label (i + (k + 1)) ≠ label i := fun he => by
            have := hlabel he
            omega
          have hrest := hfound k (by omega)
          rw [show i + 1 + k = i + (k + 1) by omega] at hrest
          rw [operandTable, map_cons, lookup_cons_of_ne hne]
          simpa [operandTable] using hrest
      · intro s hs
        rw [operandTable, map_cons, lookup_cons_of_ne (hs i)]
        exact hother s hs

private theorem ofEquation_eq {l r l' r' : Term} {op : Comparison}
    (h : ofEquation l r = .compare op l' r') : op = .eq := by
  unfold ofEquation at h
  split at h
  · simp at h
  · exact (compare.inj h).1.symm

private theorem getD_map_name (name : String → String) {i : Nat} (h : i < operands.length) :
    (operands.map name).getD i "" = name (operands.getD i "") := by
  simp [getD_eq_getElem?_getD, h]

theorem getD_mem {i : Nat} (h : i < operands.length) : operands.getD i "" ∈ operands := by
  simp [getD_eq_getElem?_getD, h]

private theorem exists_operandTables (hname : a.NamedApart name)
    (henough : a.map.dims + a.map.symbols ≤ a.operands.length) :
    ∃ dims symbols, inputs dimName (a.operands.map name) 0 a.map.dims = .ok dims ∧
      inputs symName ((a.operands.map name).drop a.map.dims) 0 a.map.symbols = .ok symbols ∧
      ∀ env, ∃ env', env' = renamed (operandTable dims) (renamed (operandTable symbols) env) ∧
        env' (name a.result) = env (name a.result) ∧
        (∀ i < a.map.dims, env' (dimName i) = env (name (a.operands.getD i ""))) ∧
        ∀ j < a.map.symbols, env' (symName j) =
          env (name (a.operands.getD (a.map.dims + j) "")) := by
  have hlength : (a.operands.map name).length = a.operands.length := length_map name
  obtain ⟨dims, hdims, hdim, hnodim⟩ := exists_inputs dimName_injective 0
    (show a.map.dims ≤ (a.operands.map name).length by omega)
  obtain ⟨symbols, hsymbols, hsym, hnosym⟩ := exists_inputs symName_injective 0
    (show a.map.symbols ≤ ((a.operands.map name).drop a.map.dims).length by
      rw [length_drop]
      omega)
  have hvalue : ∀ v ∈ a.result :: a.operands, (operandTable symbols).lookup (name v) = none :=
    fun v hv => hnosym _ (hname.sym v hv)
  refine ⟨dims, symbols, hdims, hsymbols, fun env => ⟨_, rfl, ?_, fun i hi => ?_, fun j hj => ?_⟩⟩
  · have hnone := hnodim (name a.result) (hname.dim _ (by simp))
    simp [renamed, hnone, hvalue a.result (by simp)]
  · have hfound := hdim i hi
    have hoperand : a.operands.getD i "" ∈ a.operands := getD_mem (by omega)
    rw [Nat.zero_add, getD_map_name name (by omega)] at hfound
    simp only [renamed, hfound, Option.getD_some, hvalue _ (mem_cons_of_mem _ hoperand),
      Option.getD_none]
  · have hnone := hnodim (symName j) fun k hk => dimName_ne_symName k j hk.symm
    have hfound := hsym j hj
    rw [Nat.zero_add, ← map_drop, getD_map_name name (by rw [length_drop]; omega)] at hfound
    simp only [renamed, hnone, Option.getD_none, hfound, Option.getD_some]
    simp [getD_eq_getElem?_getD]

section

variable {rational whole : Term → Prop} (A : Arithmetic rational whole)

include A

private theorem terms_ok {map : AffineMap}
    (hproduct : ∀ l r a b, product l r = true → l.term? map.dims map.symbols = .ok (some a) →
      r.term? map.dims map.symbols = .ok (some b) → whole a → whole b → Multiplied whole a b)
    {results : List AffineExpr}
    (h : ∀ e ∈ results, e.isFormed product map.dims map.symbols = true) :
    ∃ ts, terms map results = .ok ts ∧ ∀ e ∈ results.head?,
      ∃ t, ts.head? = some (some t) ∧ e.Stated whole t := by
  induction results with
  | nil => exact ⟨[], rfl, by simp⟩
  | cons e rest ih =>
    rw [forall_mem_cons] at h
    obtain ⟨t, ht, hstated⟩ := exists_term A hproduct h.1
    obtain ⟨ts, hts, -⟩ := ih h.2
    exact ⟨some t :: ts, by simp [terms, ht, hts, bind, Except.bind, pure, Except.pure],
      by simpa using hstated⟩

/-- The relation of an application says that the result is what the map is read as. -/
theorem analyzeUnder_formed (hrename : ∀ table t, whole t → RenamedTo table whole t)
    {a : Application}
    (hproduct : ∀ l r s t, product l r = true → l.term? a.map.dims a.map.symbols = .ok (some s) →
      r.term? a.map.dims a.map.symbols = .ok (some t) → whole s → whole t → Multiplied whole s t)
    {name : String → String} (hname : a.NamedApart name) (ha : a.Formed product) :
    ∃ apply, a.analyzeUnder name = .ok apply ∧
      apply.result = name a.result ∧ apply.relation.Compares whole ∧
      ∀ env, apply.relation.Holds env ↔ a.Reads fun v => env (name v) := by
  obtain ⟨dims, symbols, hdims, hsymbols, henv⟩ := exists_operandTables hname ha.operands
  obtain ⟨ts, hts, hhead⟩ := terms_ok A hproduct ha.formed
  obtain ⟨e, rest, hresults⟩ := exists_cons_of_ne_nil ha.results
  obtain ⟨t, htop, hwhole, hvalue⟩ := hhead e (by simp [hresults])
  have hstated : a.statedTerm ts (name a.result) = .ok t := by
    obtain ⟨ts', rfl⟩ : ∃ ts', ts = some t :: ts' := head?_eq_some_iff.mp htop
    simp [statedTerm, hresults, hname.result e (by simp [hresults])]
  obtain ⟨hof, hofHolds⟩ := ofEquation_spec A (A.sym (name a.result)) hwhole
  obtain ⟨first, hfirst, hfirstWhole, hfirstEq, hfirstHolds⟩ :=
    hof.substitute A (hrename (operandTable dims)) (fun _ _ _ => ofEquation_eq)
  obtain ⟨relation, hrelation, hrelationWhole, -, hrelationHolds⟩ :=
    hfirstWhole.substitute A (hrename (operandTable symbols)) hfirstEq
  have hrun : a.analyzeUnder name = .ok
      { operands := a.operands.map name, dims, symbols, result := name a.result, expr := t
        map := ofEquation (.sym (name a.result)) t, relation
        constants := (a.map.results.flatMap constants).eraseDups } := by
    simp [analyzeUnder, ha.operation, hdims, hsymbols, hts, hstated, substitution_eq, hfirst,
      hrelation, bind, Except.bind, pure, Except.pure]
  refine ⟨_, hrun, rfl, hrelationWhole, fun env => ?_⟩
  obtain ⟨env', henv', hresult, hdim, hsym⟩ := henv env
  obtain ⟨m, hread, hm⟩ := hvalue env'
  have hformed := ha.formed e (by simp [hresults])
  rw [hrelationHolds, hfirstHolds, ← henv', hofHolds, value_sym, hresult, hm, Int.cast_inj,
    Reads, valueBy_eq hresults, ← read_congr hformed hdim hsym, hread, Option.some_inj]
  exact eq_comm

end

theorem analyzeUnder_spec (hname : NamesApart name) (ha : a.WellFormed) :
    ∃ apply, a.analyzeUnder name = .ok apply ∧
      apply.result = name a.result ∧ apply.relation.IsLinear ∧
      ∀ env, apply.relation.Holds env ↔ a.Reads fun v => env (name v) := by
  obtain ⟨apply, hrun, hresult, hlinear, hholds⟩ :=
    analyzeUnder_formed arithmetic_linear (fun table t h => h.substitute table)
      (fun l r s t => multiplied_linear) (namedApart hname a) ha
  exact ⟨apply, hrun, hresult, hlinear, hholds⟩

theorem reads_congr (ha : a.Formed product)
    {p q : String → Int} (hoperands : ∀ v ∈ a.operands, p v = q v)
    (hresult : p a.result = q a.result) : a.Reads p ↔ a.Reads q := by
  have henough := ha.operands
  obtain ⟨e, rest, hresults⟩ := exists_cons_of_ne_nil ha.results
  have hread := read_congr (ha.formed e (by simp [hresults]))
    (fun i hi => hoperands _ (getD_mem (show i < a.operands.length by omega)))
    (fun j hj => hoperands _ (getD_mem (show a.map.dims + j < a.operands.length by omega)))
  rw [Reads, Reads, valueBy_eq hresults, valueBy_eq hresults, hread, hresult]

theorem reads_iff_computes (h : ∀ e ∈ a.map.results, e.ceilingFree = true) (p : String → Int) :
    a.Reads p ↔ a.Computes p := by
  rw [Reads, Computes]
  cases hresults : a.map.results with
  | nil => simp [valueBy, hresults]
  | cons e rest =>
    rw [valueBy_eq hresults, valueBy_eq hresults, read_eq_eval (h e (by simp [hresults]))]

def Expressible (name : String → String) (a : Application) : Prop :=
  ∀ apply, a.analyzeUnder name = .ok apply → apply.relation.covered = true

end Application

end Polyloom
