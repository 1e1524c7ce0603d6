import Polyloom.Proofs.Access.System

/-!
# Dependences and what a system sees of them

A dependence is a pair of executions of two accesses that touch the same element, in the order
of a depth.  What the system of the accesses sees is a pair in which every value is shared but
the variables of common loops, and of these only the ones that were named as they are printed.
So the system misses and adds dependences exactly where these two kinds of pairs come apart.
-/

namespace Polyloom

open Access AffineExpr Application Function List

variable {d : Nat} {i v : String} {op : MemoryOp}

open NameTable (Tickless ticked)
open Access (later primed_ne)

namespace MemoryOp

/-! ## Names in a history -/

def naming (printed : String → String) (history : List MemoryOp) : String → String :=
  (tableAfter printed history).name printed

/-- A value is named as it is printed: it was the first one that was asked for among those that
print alike. -/
def PlainlyNamed (printed : String → String) (history : List MemoryOp) (v : String) : Prop :=
  naming printed history v = printed v

/-- The loops of a nest are different, and the printer tells the values at an operation apart. -/
structure Scoped (printed : String → String) (op : MemoryOp) : Prop where
  loops : op.loops.Nodup
  printed : ∀ v w, op.Mentions v → op.Mentions w → printed v = printed w → v = w

def common (s t : MemoryOp) : List String := commonLoops s.loops t.loops

/-- Two accesses that were built in one history, of any order and with any others. -/
structure Analyzed (printed : String → String) (history : List MemoryOp) (s t : MemoryOp)
    (src dst : Access) : Prop where
  plain : PlainNames printed
  source : Constructed printed history s src
  target : Constructed printed history t dst
  sourceFormed : s.WellFormed
  targetFormed : t.WellFormed
  sourceScoped : s.Scoped printed
  targetScoped : t.Scoped printed

variable {printed : String → String} {history : List MemoryOp} {s t : MemoryOp} {src dst : Access}
  {memref v : String} {kind : AccessKind} {loops dims : List String} {upper : Int}
  {applications : List Application} {p q : String → Int}

theorem mem_common (h : i ∈ common s t) : i ∈ s.loops ∧ i ∈ t.loops :=
  ⟨(prefix_commonLoops s.loops t.loops).1.subset h, (prefix_commonLoops s.loops t.loops).2.subset h⟩

theorem Constructed.accessUnder_eq {access : Access} (h : Constructed printed history op access)
    (hkind : op.kind ≠ .other) : op.accessUnder (naming printed history) = .ok access := by
  have hunder := h.analyzeUnder_eq
  unfold analyzeUnder at hunder
  cases hk : op.kind with
  | other => exact absurd hk hkind
  | load | store => simpa [hk, naming] using hunder

namespace Analyzed

variable (h : Analyzed printed history s t src dst)

include h

theorem namesApart : NamesApart (naming printed history) :=
  h.plain.namesApart (ticked_tableAfter printed history)

theorem source_eq : s.accessUnder (naming printed history) = .ok src :=
  h.source.accessUnder_eq h.sourceFormed.kind

theorem target_eq : t.accessUnder (naming printed history) = .ok dst :=
  h.target.accessUnder_eq h.targetFormed.kind

theorem memrefs : src.memref = s.memref ∧ dst.memref = t.memref := by
  obtain ⟨-, -, -, -, -, -, hs, -⟩ := accessUnder_cases h.namesApart h.sourceFormed h.source_eq
  obtain ⟨-, -, -, -, -, -, ht, -⟩ := accessUnder_cases h.namesApart h.targetFormed h.target_eq
  exact ⟨hs, ht⟩

theorem commonVariables_eq : commonVariables printed src dst = (common s t).map printed := by
  obtain ⟨-, -, -, -, -, -, -, hs⟩ := accessUnder_cases h.namesApart h.sourceFormed h.source_eq
  obtain ⟨-, -, -, -, -, -, -, ht⟩ := accessUnder_cases h.namesApart h.targetFormed h.target_eq
  rw [commonVariables, hs, ht, common]

theorem eq_of_printed_eq (hv : s.Mentions v ∨ t.Mentions v) (hi : i ∈ common s t)
    (hprinted : printed v = printed i) : v = i := by
  obtain hv | hv := hv
  · exact h.sourceScoped.printed v i hv (.inl (mem_common hi).1) hprinted
  · exact h.targetScoped.printed v i hv (.inl (mem_common hi).2) hprinted

theorem printed_of_naming {w : String} {k : Nat}
    (hv : naming printed history v = ticked (printed w) k) : printed v = printed w :=
  (ticked_tableAfter printed history).printed_eq h.plain.tickless h.plain.nonempty hv

theorem common_injective (k l : Nat) (i j : String) (hi : (common s t)[k]? = some i)
    (hj : (common s t)[l]? = some j) (hij : printed i = printed j) : k = l := by
  obtain rfl : i = j := h.eq_of_printed_eq
    (.inl (.inl (mem_common (List.mem_of_getElem? hi)).1)) (List.mem_of_getElem? hj) hij
  have hnodup : (common s t).Nodup :=
    h.sourceScoped.loops.sublist (prefix_commonLoops s.loops t.loops).1.sublist
  exact (List.getElem?_inj (List.getElem?_eq_some_iff.mp hi).1 hnodup).mp (hi.trans hj.symm)

/-- The tick reaches a value of either operation only if it is a plainly named common loop
variable. -/
theorem naming_mem_iff (hv : s.Mentions v ∨ t.Mentions v) : naming printed history v ∈
    (common s t).map printed ↔ v ∈ common s t ∧ PlainlyNamed printed history v := by
  constructor
  · intro hmem
    obtain ⟨i, hi, hname⟩ := mem_map.mp hmem
    have hprinted : printed v = printed i :=
      h.printed_of_naming (k := 0) (by simpa using hname.symm)
    obtain rfl := h.eq_of_printed_eq hv hi hprinted
    exact ⟨hi, hname.symm⟩
  · rintro ⟨hi, hplain⟩
    exact mem_map.mpr ⟨v, hi, hplain.symm⟩

theorem dimensionVariable_ne_ticked (memref : String) (k : Nat) (v : String) (l : Nat) :
    dimensionVariable memref k ≠ ticked (printed v) l := by
  intro heq
  have hscore : '_' ∈ (ticked (printed v) l).toList := by
    rw [← heq]
    simp [dimensionVariable]
  rw [NameTable.toList_ticked, mem_append, mem_replicate] at hscore
  obtain hscore | ⟨-, hscore⟩ := hscore
  · exact h.plain.unscored v hscore
  · exact absurd hscore (by decide)

theorem later_dimensionVariable (memref : String) (k : Nat) :
    later ((common s t).map printed) (dimensionVariable memref k) = dimensionVariable memref k := by
  refine if_neg fun hmem => ?_
  obtain ⟨i, -, hi⟩ := mem_map.mp hmem
  exact h.dimensionVariable_ne_ticked memref k i 0 (by simpa using hi.symm)

end Analyzed

/-! ## Pairs of executions -/

def SameElement (s t : MemoryOp) (p q : String → Int) : Prop :=
  ∀ (k : Nat) (v w : String), s.dims[k]? = some v → t.dims[k]? = some w → p v = q w

/-- An execution: loop variables within bounds, and every application computed. -/
def Runs (p : String → Int) (op : MemoryOp) : Prop :=
  op.InBounds p ∧ ∀ a ∈ op.applications, a.Computes p

def Outside (s t : MemoryOp) (v : String) : Prop :=
  v ∉ s.loops ∧ v ∉ t.loops ∧ ∀ a ∈ s.applications ++ t.applications, a.result ≠ v

/-- A dependence at a depth: executions that touch the same element, the second one later in the
loop of the depth and in the same iteration of the common loops around it. -/
structure Depends (s t : MemoryOp) (d : Nat) (p q : String → Int) : Prop where
  source : s.Runs p
  target : t.Runs q
  element : SameElement s t p q
  outside : ∀ v, Outside s t v → q v = p v
  ordered : ∀ (k : Nat) (i : String), (common s t)[k]? = some i → Step d k (p i) (q i)

/-- What a system sees: bounds and the maps of indices as they are read hold on both sides, and
all values but the plainly named common loop variables are shared. -/
structure Seen (plain : String → Prop) (s t : MemoryOp) (d : Nat) (p q : String → Int) :
    Prop where
  source : s.InBounds p ∧ s.Indexed Reads p
  target : t.InBounds q ∧ t.Indexed Reads q
  element : SameElement s t p q
  shared : ∀ v, ¬ (v ∈ common s t ∧ plain v) → q v = p v
  ordered : ∀ (k : Nat) (i : String), (common s t)[k]? = some i → plain i → Step d k (p i) (q i)

namespace Analyzed

variable (h : Analyzed printed history s t src dst)

include h

theorem solves_system_iff (hmemref : s.memref = t.memref) (d : Nat) (env : String → Int) :
    Solves (system printed src dst d).2 env ↔ s.Denotes Reads (naming printed history) env ∧
      t.Denotes Reads (naming printed history) (fun n => env (later ((common s t).map printed) n)) ∧
      ∀ k i, (common s t)[k]? = some i → Step d k (env (printed i)) (env (primed (printed i))) := by
  have hmemref' : src.memref = dst.memref := by rw [h.memrefs.1, h.memrefs.2, hmemref]
  rw [solves_system h.plain.tickless hmemref', h.commonVariables_eq,
    solves_constraints h.namesApart h.sourceFormed h.source_eq,
    solves_constraints h.namesApart h.targetFormed h.target_eq]
  simp only [getElem?_map, Option.map_eq_some_iff, forall_exists_index,
    and_imp, forall_apply_eq_imp_iff₂]

private theorem seen_of_solves (hmemref : s.memref = t.memref)
    {env : String → Int} (henv : Solves (system printed src dst d).2 env) :
    ∃ p q, Seen (PlainlyNamed printed history) s t d p q ∧ ∀ i ∈ common s t,
      PlainlyNamed printed history i → p i = env (printed i) ∧ q i = env (primed (printed i)) := by
  classical
  obtain ⟨⟨hsb, hsi, hsd⟩, ⟨htb, hti, htd⟩, hordered⟩ := (h.solves_system_iff hmemref d env).mp henv
  let p : String → Int := fun v => env (naming printed history v)
  let q : String → Int := fun v =>
    if v ∈ common s t ∧ PlainlyNamed printed history v then env (primed (printed v)) else p v
  have hq : ∀ v, t.Mentions v →
      env (later ((common s t).map printed) (naming printed history v)) = q v := by
    intro v hv
    rw [later]
    simp only [h.naming_mem_iff (.inr hv), q]
    split
    · rename_i hplain
      rw [show naming printed history v = printed v from hplain.2]
    · rfl
  have hloops : ∀ i ∈ common s t, PlainlyNamed printed history i →
      p i = env (printed i) ∧ q i = env (primed (printed i)) :=
    fun i hi hplain => ⟨congrArg env hplain, if_pos ⟨hi, hplain⟩⟩
  refine ⟨p, q, ⟨⟨hsb, hsi⟩, ⟨(inBounds_congr hq).mp htb,
    (indexed_reads_congr h.targetFormed hq).mp hti⟩, ?_, fun v hv => if_neg hv, ?_⟩, hloops⟩
  · intro k v w hv hw
    have hw' : env (later ((common s t).map printed)
        (dimensionVariable (naming printed history t.memref) k)) =
        env (later ((common s t).map printed) (naming printed history w)) := htd k w hw
    have hmention : t.Mentions w := .inr (.inr (.inl (h.targetFormed.dims w (mem_of_getElem? hw))))
    rw [h.later_dimensionVariable, hq w hmention, ← hmemref, hsd k v hv] at hw'
    exact hw'
  · intro k i hi hplain
    obtain ⟨hpi, hqi⟩ := hloops i (mem_of_getElem? hi) hplain
    rw [hqi, hpi]
    exact hordered k i hi

private theorem exists_system_environment (memref : String) (p q : String → Int) (f : Nat → Int) :
    ∃ env : String → Int,
      (∀ v, s.Mentions v ∨ t.Mentions v → env (naming printed history v) = p v) ∧
      (∀ i ∈ common s t, PlainlyNamed printed history i → env (primed (printed i)) = q i) ∧
      ∀ k, env (dimensionVariable (naming printed history memref) k) = f k := by
  let value : {v // s.Mentions v ∨ t.Mentions v} → String := fun v => naming printed history v
  let ahead : {i // i ∈ common s t ∧ PlainlyNamed printed history i} → String :=
    fun i => primed (printed i)
  let dimension := dimensionVariable (naming printed history memref)
  have hvalue : Injective value := fun v w hvw => Subtype.ext (h.namesApart.injective hvw)
  have hahead : Injective ahead := by
    rintro ⟨i, hi, hplain⟩ ⟨j, hj, hplain'⟩ hij
    have hticked : ticked (printed i) 1 = ticked (printed j) 1 := hij
    have hprinted := (NameTable.ticked_inj (h.plain.tickless i) (h.plain.tickless j) hticked).1
    exact Subtype.ext (h.eq_of_printed_eq (.inl (.inl (mem_common hi).1)) hj hprinted)
  have hvalue_ahead : ∀ i, ¬ ∃ v, value v = ahead i := by
    rintro ⟨i, hi, hplain⟩ ⟨⟨v, hv⟩, heq⟩
    have hticked : naming printed history v = ticked (printed i) 1 := heq
    obtain rfl := h.eq_of_printed_eq hv hi (h.printed_of_naming hticked)
    exact primed_ne (h.plain.tickless v) (hticked.symm.trans hplain)
  have hvalue_dimension : ∀ k, ¬ ∃ v, value v = dimension k :=
    fun k ⟨v, hv⟩ => h.namesApart.dimension memref k v hv.symm
  have hahead_dimension : ∀ k, ¬ ∃ i, ahead i = dimension k :=
    fun k ⟨i, hi⟩ => h.dimensionVariable_ne_ticked _ k i 1 hi.symm
  refine ⟨extend value (fun v => p v) (extend ahead (fun i => q i) (extend dimension f 0)),
    ?_, ?_, ?_⟩
  · exact fun v hv => hvalue.extend_apply _ _ ⟨v, hv⟩
  · intro i hi hplain
    exact (extend_apply' _ _ _ (hvalue_ahead ⟨i, hi, hplain⟩)).trans
      (hahead.extend_apply _ _ ⟨i, hi, hplain⟩)
  · intro k
    rw [show dimensionVariable (naming printed history memref) k = dimension k from rfl,
      extend_apply' _ _ _ (hvalue_dimension k),
      extend_apply' _ _ _ (hahead_dimension k),
      (dimensionVariable_injective _).extend_apply]

private theorem exists_ordered_environment (memref : String)
    (p q : String → Int) (f : Nat → Int) (d : Nat) :
    ∃ env : String → Int,
      (∀ v, s.Mentions v ∨ t.Mentions v → env (naming printed history v) = p v) ∧
      (∀ i ∈ common s t, PlainlyNamed printed history i → env (primed (printed i)) = q i) ∧
      (∀ k, env (dimensionVariable (naming printed history memref) k) = f k) ∧
      ∀ (k : Nat) (i : String), (common s t)[k]? = some i → ¬ PlainlyNamed printed history i →
        Step d k (env (printed i)) (env (primed (printed i))) := by
  obtain ⟨env₀, hvalues₀, hahead₀, hdims₀⟩ := h.exists_system_environment memref p q f
  obtain ⟨env, hkept, hordered⟩ := exists_ordered h.common_injective h.plain.tickless d
    (fun i => ¬ PlainlyNamed printed history i) env₀
  refine ⟨env, fun v hv => ?_, fun i hi hplain => ?_, fun k => ?_, hordered⟩
  · rw [hkept, hvalues₀ v hv]
    intro i hi hplain heq
    have hprinted : printed v = printed i := h.printed_of_naming (k := 0) (by simpa using heq.symm)
    obtain rfl := h.eq_of_printed_eq hv hi hprinted
    exact hplain heq.symm
  · rw [hkept, hahead₀ i hi hplain]
    exact fun j _ _ => (primed_ne (h.plain.tickless j)).symm
  · rw [hkept, hdims₀]
    intro i _ _ heq
    exact h.dimensionVariable_ne_ticked _ k i 0 (by simpa using heq.symm)

private theorem exists_solves_of_seen (hmemref : s.memref = t.memref)
    {p q : String → Int} (hseen : Seen (PlainlyNamed printed history) s t d p q) :
    ∃ env : String → Int, Solves (system printed src dst d).2 env ∧ ∀ i ∈ common s t,
      PlainlyNamed printed history i → p i = env (printed i) ∧ q i = env (primed (printed i)) := by
  classical
  -- a memory dimension has the index of the first access, or of the second where there is none
  let f : Nat → Int := fun k => (s.dims[k]?.map p).getD (q (t.dims.getD k ""))
  obtain ⟨env, hvalues, hahead, hdims, hordered⟩ := h.exists_ordered_environment s.memref p q f d
  have hq : ∀ v, t.Mentions v →
      env (later ((common s t).map printed) (naming printed history v)) = q v := by
    intro v hv
    rw [later]
    simp only [h.naming_mem_iff (.inr hv)]
    split
    · rename_i hplain
      rw [show naming printed history v = printed v from hplain.2]
      exact hahead v hplain.1 hplain.2
    · rename_i hplain
      rw [hvalues v (.inr hv), hseen.shared v hplain]
  have hloops : ∀ i ∈ common s t, PlainlyNamed printed history i →
      p i = env (printed i) ∧ q i = env (primed (printed i)) := by
    intro i hi hplain
    refine ⟨?_, (hahead i hi hplain).symm⟩
    rw [← hvalues i (.inl (.inl (mem_common hi).1))]
    exact congrArg env hplain
  refine ⟨env, (h.solves_system_iff hmemref d env).mpr ⟨⟨?_, ?_, ?_⟩, ⟨?_, ?_, ?_⟩, ?_⟩, hloops⟩
  · exact (inBounds_congr fun v hv => hvalues v (.inl hv)).mpr hseen.source.1
  · exact (indexed_reads_congr h.sourceFormed fun v hv => hvalues v (.inl hv)).mpr hseen.source.2
  · intro k v hv
    have hmention : s.Mentions v := .inr (.inr (.inl (h.sourceFormed.dims v (mem_of_getElem? hv))))
    rw [hdims, hvalues v (.inl hmention)]
    simp [f, hv]
  · exact (inBounds_congr hq).mpr hseen.target.1
  · exact (indexed_reads_congr h.targetFormed hq).mpr hseen.target.2
  · intro k w hw
    have hmention : t.Mentions w := .inr (.inr (.inl (h.targetFormed.dims w (mem_of_getElem? hw))))
    simp only [h.later_dimensionVariable, hq w hmention, ← hmemref, hdims]
    cases hv : s.dims[k]? with
    | none => simp [f, hv, getD_eq_getElem?_getD, hw]
    | some v => simpa [f, hv] using hseen.element k v w hv hw
  · intro k i hi
    by_cases hplain : PlainlyNamed printed history i
    · obtain ⟨hpi, hqi⟩ := hloops i (mem_of_getElem? hi) hplain
      rw [← hpi, ← hqi]
      exact hseen.ordered k i hi hplain
    · exact hordered k i hi hplain

theorem satisfiable_iff_seen (hmemref : s.memref = t.memref) (d : Nat) :
    (∃ env : String → Int, Solves (system printed src dst d).2 env) ↔
      ∃ p q, Seen (PlainlyNamed printed history) s t d p q := by
  constructor
  · rintro ⟨env, henv⟩
    obtain ⟨p, q, hseen, -⟩ := h.seen_of_solves hmemref henv
    exact ⟨p, q, hseen⟩
  · rintro ⟨p, q, hseen⟩
    obtain ⟨env, henv, -⟩ := h.exists_solves_of_seen hmemref hseen
    exact ⟨env, henv⟩

theorem satisfiable_of_ne (hmemref : s.memref ≠ t.memref) (d : Nat) :
    ∃ env : String → Int, Solves (system printed src dst d).2 env := by
  have hmemref' : src.memref ≠ dst.memref := by rwa [h.memrefs.1, h.memrefs.2]
  obtain ⟨env, -, hordered⟩ :=
    exists_ordered h.common_injective h.plain.tickless d (fun _ => True) 0
  refine ⟨env, (solves_system_of_ne printed hmemref' d env).mpr fun k iv hiv => ?_⟩
  rw [h.commonVariables_eq, getElem?_map, Option.map_eq_some_iff] at hiv
  obtain ⟨i, hi, rfl⟩ := hiv
  exact hordered k i hi trivial

end Analyzed

/-! ## Small pairs of accesses -/

theorem mentions_inLoops (h : (inLoops kind memref loops upper applications dims).Mentions v) :
    v ∈ loops ++ dims ++ applications.flatMap Application.operands := by
  simp only [mem_append, mem_flatMap]
  obtain hv | hv | hv | ⟨w, -, a, ha, hv⟩ := h
  · exact .inl (.inl hv)
  · exact .inl (.inl (by simpa [inLoops] using hv))
  · exact .inl (.inr hv)
  · exact .inr ⟨a, mem_of_find?_eq_some ha, hv⟩

theorem scoped_inLoops (hloops : loops.Nodup)
    (h : ∀ v ∈ loops ++ dims ++ applications.flatMap Application.operands,
      v ∈ ["a", "b", "c", "e", "i", "j", "m", "n"]) :
    (inLoops kind memref loops upper applications dims).Scoped shown := by
  refine ⟨hloops, fun v w hv hw hvw => ?_⟩
  rwa [shown, shown, if_pos (h v (mentions_inLoops hv)), if_pos (h w (mentions_inLoops hw))] at hvw

theorem formed_inLoops {result : String} {operands : List String} {e : AffineExpr}
    (hkind : kind ≠ .other) (hloops : loops.Nodup) (he : e.isAffine operands.length 0 = true)
    (hshown : ∀ v ∈ loops ++ [result] ++ operands, v ∈ ["a", "b", "c", "e", "i", "j", "m", "n"]) :
    (inLoops kind memref loops upper [applied result operands e] [result]).WellFormed ∧
      (inLoops kind memref loops upper [applied result operands e] [result]).Scoped shown := by
  refine ⟨wellFormed_inLoops hkind memref hloops upper ?_ (by simp [applied]), ?_⟩
  · simpa using wellFormed_applied he result
  · exact scoped_inLoops hloops (by simpa [applied] using hshown)

theorem exists_analyzed (hplain : PlainNames printed) (hs : s.WellFormed ∧ s.Scoped printed)
    (ht : t.WellFormed ∧ t.Scoped printed)
    (hsource : (s.construct printed (tableAfter printed [])).1.isOk = true)
    (htarget : (t.construct printed (tableAfter printed [s])).1.isOk = true) :
    ∃ src dst, Analyzed printed [s, t] s t src dst := by
  cases hsrc : (s.construct printed (tableAfter printed [])).1 with
  | error => simp [hsrc, Except.isOk, Except.toBool] at hsource
  | ok src =>
    cases hdst : (t.construct printed (tableAfter printed [s])).1 with
    | error => simp [hdst, Except.isOk, Except.toBool] at htarget
    | ok dst =>
      exact ⟨src, dst, hplain, ⟨[], [t], rfl, hsrc⟩, ⟨[s], [], rfl, hdst⟩, hs.1, ht.1, hs.2, ht.2⟩

def rowStore : MemoryOp := inLoops .store "m" ["i"] 9 [applied "a" ["i"] (.dim 0)] ["a"]

def previousLoad : MemoryOp :=
  inLoops .load "m" ["i"] 9 [applied "b" ["i"] (.binary .add (.dim 0) (.const (-1)))] ["b"]

private theorem mentions_rowStore (h : rowStore.Mentions v) : v = "i" ∨ v = "a" := by
  have hv := mentions_inLoops h
  simp only [applied, mem_append, mem_singleton, flatMap_cons, flatMap_nil, append_nil] at hv
  tauto

private theorem mentions_previousLoad (h : previousLoad.Mentions v) : v = "i" ∨ v = "b" := by
  have hv := mentions_inLoops h
  simp only [applied, mem_append, mem_singleton, flatMap_cons, flatMap_nil, append_nil] at hv
  tauto

private theorem eq_of_mentions_both (hs : rowStore.Mentions v)
    (ht : previousLoad.Mentions v) : v = "i" := by
  obtain rfl | rfl := mentions_rowStore hs
  · rfl
  · simpa using mentions_previousLoad ht

theorem analyzed_rowStore_previousLoad :
    ∃ src dst, Analyzed shown [rowStore, previousLoad] rowStore previousLoad src dst :=
  exists_analyzed plainNames_shown (formed_inLoops (by simp) (by simp) rfl (by decide))
    (formed_inLoops (by simp) (by simp) rfl (by decide)) (by cbv) (by cbv)

private theorem ceilingFree_inLoops
    (h : ∀ a ∈ applications, ∀ e ∈ a.map.results, e.ceilingFree = true) :
    (inLoops kind memref loops upper applications dims).CeilingFree :=
  fun _ _ a ha => h a (mem_of_find?_eq_some ha)

theorem ceilingFree_rowStore_previousLoad : rowStore.CeilingFree ∧ previousLoad.CeilingFree :=
  ⟨ceilingFree_inLoops (by simp [applied, ceilingFree]),
    ceilingFree_inLoops (by simp [applied, ceilingFree])⟩

theorem plainlyNamed_rowStore_previousLoad :
    ∀ i ∈ common rowStore previousLoad, PlainlyNamed shown [rowStore, previousLoad] i := by
  intro i hi
  obtain rfl : i = "i" := by simpa [rowStore, inLoops] using (mem_common hi).1
  cbv

/-! ## Missed dependences -/

/-- Values that both operations are about take part in a dependence as the system has them:
common loop variables are named as they are printed, no other loop variables are shared, and
shared results of applications stand at a common position among the indices. -/
structure Traceable (printed : String → String) (history : List MemoryOp) (s t : MemoryOp) :
    Prop where
  loops : ∀ i ∈ common s t, PlainlyNamed printed history i
  nest : ∀ v, s.Mentions v → t.Mentions v → v ∈ s.loops ∨ v ∈ t.loops → v ∈ common s t
  results : ∀ v, s.Mentions v → t.Mentions v →
    (∃ a ∈ s.applications ++ t.applications, a.result = v) →
      ∃ k : Nat, s.dims[k]? = some v ∧ t.dims[k]? = some v
  ceilings : s.CeilingFree ∧ t.CeilingFree

private theorem Runs.indexed (h : op.Runs p) : op.Indexed Computes p :=
  fun _ _ a ha => h.2 a (mem_of_find?_eq_some ha)

private theorem Traceable.agree (h : Traceable printed history s t) (hdepends : Depends s t d p q)
    (hs : s.Mentions v) (ht : t.Mentions v) (hv : v ∉ common s t) : q v = p v := by
  by_cases hresult : ∃ a ∈ s.applications ++ t.applications, a.result = v
  · obtain ⟨k, hsk, htk⟩ := h.results v hs ht hresult
    exact (hdepends.element k v v hsk htk).symm
  · refine hdepends.outside v ⟨fun hloop => hv (h.nest v hs ht (.inl hloop)),
      fun hloop => hv (h.nest v hs ht (.inr hloop)), fun a ha heq => hresult ⟨a, ha, heq⟩⟩

private theorem Traceable.seen_of_depends (h : Traceable printed history s t)
    (hs : s.WellFormed) (ht : t.WellFormed) (hdepends : Depends s t d p q) :
    ∃ p' q', Seen (PlainlyNamed printed history) s t d p' q' := by
  classical
  -- the first execution, with the values of the second where the first operation is silent
  let p' : String → Int := fun v => if s.Mentions v then p v else q v
  let q' : String → Int := fun v => if v ∈ common s t then q v else p' v
  have hp : ∀ v, s.Mentions v → p' v = p v := fun v hv => if_pos hv
  have hq : ∀ v, t.Mentions v → q' v = q v := by
    intro v hv
    by_cases hcommon : v ∈ common s t
    · exact if_pos hcommon
    · by_cases hsv : s.Mentions v
      · have hagree := h.agree hdepends hsv hv hcommon
        simp [q', p', hcommon, hsv, hagree]
      · simp [q', p', hcommon, hsv]
  refine ⟨p', q', ⟨?_, ?_⟩, ⟨?_, ?_⟩, ?_, ?_, ?_⟩
  · exact (inBounds_congr hp).mpr hdepends.source.1
  · exact (indexed_reads_congr hs hp).mpr ((h.ceilings.1.indexed_iff p).mpr hdepends.source.indexed)
  · exact (inBounds_congr hq).mpr hdepends.target.1
  · exact (indexed_reads_congr ht hq).mpr ((h.ceilings.2.indexed_iff q).mpr hdepends.target.indexed)
  · intro k v w hv hw
    rw [hp v (.inr (.inr (.inl (hs.dims v (mem_of_getElem? hv))))),
      hq w (.inr (.inr (.inl (ht.dims w (mem_of_getElem? hw)))))]
    exact hdepends.element k v w hv hw
  · exact fun v hv => if_neg fun hcommon => hv ⟨hcommon, h.loops v hcommon⟩
  · intro k i hi _
    have hi' := mem_common (mem_of_getElem? hi)
    rw [hp i (.inl hi'.1), hq i (.inl hi'.2)]
    exact hdepends.ordered k i hi

/-- No dependence is missed exactly if the system sees a pair of executions wherever there is a
dependence.  It does so for traceable operations. -/
theorem dependence_found_iff (h : Analyzed printed history s t src dst)
    (hmemref : s.memref = t.memref) (d : Nat) :
    (((∃ p q, Depends s t d p q) → ∃ env, Solves (system printed src dst d).2 env) ↔
      ((∃ p q, Depends s t d p q) →
        ∃ p q, Seen (PlainlyNamed printed history) s t d p q)) ∧
    (Traceable printed history s t → (∃ p q, Depends s t d p q) →
      ∃ env, Solves (system printed src dst d).2 env) := by
  rw [h.satisfiable_iff_seen hmemref d]
  exact ⟨Iff.rfl, fun htraceable ⟨_, _, hdepends⟩ =>
    htraceable.seen_of_depends h.sourceFormed h.targetFormed hdepends⟩

private theorem depends_rowStore_previousLoad :
    Depends rowStore previousLoad 1 (fun _ => 0) fun v => if v = "i" then 1 else 0 := by
  refine ⟨⟨?_, ?_⟩, ⟨?_, ?_⟩, ?_, ?_, ?_⟩
  · simp [InBounds, rowStore, inLoops, LoopBound.Admits]
  · simp [rowStore, inLoops, applied, Application.Computes, Application.valueBy, AffineExpr.eval]
  · simp [InBounds, previousLoad, inLoops, LoopBound.Admits]
  · simp [previousLoad, inLoops, applied, Application.Computes,
      Application.valueBy, AffineExpr.eval, AffineOp.eval]
  · intro k v w hv hw
    cases k with
    | zero =>
      obtain rfl : "b" = w := by simpa [previousLoad, inLoops] using hw
      simp
    | succ k => simp [rowStore, inLoops] at hv
  · intro v hv
    have hne : v ≠ "i" := fun heq => hv.1 (by simp [heq, rowStore, inLoops])
    simp [hne]
  · intro k i hi
    have hcommon : common rowStore previousLoad = ["i"] := rfl
    cases k with
    | zero =>
      obtain rfl : "i" = i := by simpa [hcommon] using hi
      simp [Access.Step]
    | succ k => simp [hcommon] at hi

theorem rowStore_previousLoad_found :
    ∃ src dst, Analyzed shown [rowStore, previousLoad] rowStore previousLoad src dst ∧
      rowStore.memref = previousLoad.memref ∧
      ∃ env, Solves (system shown src dst (1 : Nat)).2 env := by
  obtain ⟨src, dst, h⟩ := analyzed_rowStore_previousLoad
  refine ⟨src, dst, h, rfl, (dependence_found_iff h rfl 1).2
    ⟨plainlyNamed_rowStore_previousLoad, ?_, ?_, ceilingFree_rowStore_previousLoad⟩
    ⟨_, _, depends_rowStore_previousLoad⟩⟩
  · intro v hs ht _
    obtain rfl := eq_of_mentions_both hs ht
    exact mem_singleton.mpr rfl
  · intro v hs ht hresult
    obtain rfl := eq_of_mentions_both hs ht
    simp [rowStore, previousLoad, inLoops, applied] at hresult

def gridStore : MemoryOp :=
  inLoops .store "m" ["i", "j"] 9 [applied "a" ["i"] (.dim 0),
    applied "b" ["j"] (.dim 0)] ["a", "b"]

def transposedLoad : MemoryOp :=
  inLoops .load "m" ["i", "j"] 9 [applied "a" ["i"] (.dim 0), applied "b" ["j"] (.dim 0)] ["b", "a"]

private theorem analyzed_gridStore_transposedLoad :
    ∃ src dst, Analyzed shown [gridStore, transposedLoad] gridStore transposedLoad src dst := by
  have happlications :
      ∀ a ∈ [applied "a" ["i"] (.dim 0), applied "b" ["j"] (.dim 0)], a.WellFormed := by
    simp only [forall_mem_cons, not_mem_nil, false_imp_iff, implies_true, and_true]
    exact ⟨wellFormed_applied rfl "a", wellFormed_applied rfl "b"⟩
  refine exists_analyzed plainNames_shown ⟨?_, ?_⟩ ⟨?_, ?_⟩ (by cbv) (by cbv)
  · exact wellFormed_inLoops (by simp) "m" (by simp) 9 happlications (by simp [applied])
  · exact scoped_inLoops (by simp) (by decide)
  · exact wellFormed_inLoops (by simp) "m" (by simp) 9 happlications (by simp [applied])
  · exact scoped_inLoops (by simp) (by decide)

private theorem reads_copy (result operand : String) (p : String → Int) :
    (applied result [operand] (.dim 0)).Reads p ↔ p operand = p result := by
  simp [Application.Reads, Application.valueBy, applied, AffineExpr.read]

private theorem depends_gridStore_transposedLoad :
    Depends gridStore transposedLoad 1 (fun v => if v = "j" ∨ v = "b" then 1 else 0)
      fun v => if v = "i" ∨ v = "a" then 1 else 0 := by
  have hcommon : common gridStore transposedLoad = ["i", "j"] := rfl
  refine ⟨⟨?_, ?_⟩, ⟨?_, ?_⟩, ?_, ?_, ?_⟩
  · simp [InBounds, gridStore, inLoops, LoopBound.Admits]
  · simp [gridStore, inLoops, applied, Application.Computes, Application.valueBy, AffineExpr.eval]
  · simp [InBounds, transposedLoad, inLoops, LoopBound.Admits]
  · simp [transposedLoad, inLoops, applied, Application.Computes,
      Application.valueBy, AffineExpr.eval]
  · intro k v w hv hw
    cases k with
    | zero =>
      obtain rfl : "a" = v := by simpa [gridStore, inLoops] using hv
      obtain rfl : "b" = w := by simpa [transposedLoad, inLoops] using hw
      simp
    | succ k =>
      cases k with
      | zero =>
        obtain rfl : "b" = v := by simpa [gridStore, inLoops] using hv
        obtain rfl : "a" = w := by simpa [transposedLoad, inLoops] using hw
        simp
      | succ k => simp [gridStore, inLoops] at hv
  · rintro v ⟨hloops, -, hresults⟩
    have hi : v ≠ "i" := fun heq => hloops (by simp [heq, gridStore, inLoops])
    have hj : v ≠ "j" := fun heq => hloops (by simp [heq, gridStore, inLoops])
    have ha : v ≠ "a" := fun heq =>
      hresults (applied "a" ["i"] (.dim 0)) (by simp [gridStore, inLoops]) heq.symm
    have hb : v ≠ "b" := fun heq =>
      hresults (applied "b" ["j"] (.dim 0)) (by simp [gridStore, inLoops]) heq.symm
    simp [hi, hj, ha, hb]
  · intro k i hi
    cases k with
    | zero =>
      obtain rfl : "i" = i := by simpa [hcommon] using hi
      simp [Access.Step]
    | succ k => simp [Access.Step]

/-- An index that the store and the transposed load share can have only one value in the system. -/
theorem transposedLoad_missed :
    ∃ src dst, Analyzed shown [gridStore, transposedLoad] gridStore transposedLoad src dst ∧
      gridStore.memref = transposedLoad.memref ∧
      (∃ p q, Depends gridStore transposedLoad 1 p q) ∧
      ¬ ∃ env, Solves (system shown src dst (1 : Nat)).2 env := by
  obtain ⟨src, dst, h⟩ := analyzed_gridStore_transposedLoad
  refine ⟨src, dst, h, rfl, ⟨_, _, depends_gridStore_transposedLoad⟩, ?_⟩
  rw [h.satisfiable_iff_seen rfl 1]
  rintro ⟨p, q, hseen⟩
  have hsource :=
    (reads_copy "a" "i" p).mp (hseen.source.2 "a" (by simp [gridStore, inLoops]) _ rfl)
  have htarget :=
    (reads_copy "a" "i" q).mp (hseen.target.2 "a" (by simp [transposedLoad, inLoops]) _ rfl)
  have hcommon : common gridStore transposedLoad = ["i", "j"] := rfl
  have hshared : q "a" = p "a" := hseen.shared "a" (by simp [hcommon])
  have hplain : PlainlyNamed shown [gridStore, transposedLoad] "i" := by cbv
  have hstep := (hseen.ordered 0 "i" rfl hplain).2 rfl
  omega

/-! ## Spurious dependences -/

/-- The system has all that an execution is about: common loop variables are named as they are
printed, and every application gives an index and takes no ceiling. -/
structure Complete (printed : String → String) (history : List MemoryOp) (s t : MemoryOp) :
    Prop where
  loops : ∀ i ∈ common s t, PlainlyNamed printed history i
  source : ∀ a ∈ s.applications, s.application? a.result = some a ∧ a.result ∈ s.indices
  target : ∀ a ∈ t.applications, t.application? a.result = some a ∧ a.result ∈ t.indices
  ceilings : s.CeilingFree ∧ t.CeilingFree

private theorem Complete.depends_of_seen (h : Complete printed history s t) {d : Nat}
    (hseen : Seen (PlainlyNamed printed history) s t d p q) :
    Depends s t d p q where
  source := ⟨hseen.source.1, fun a ha => (h.ceilings.1.indexed_iff p).mp hseen.source.2
    a.result (h.source a ha).2 a (h.source a ha).1⟩
  target := ⟨hseen.target.1, fun a ha => (h.ceilings.2.indexed_iff q).mp hseen.target.2
    a.result (h.target a ha).2 a (h.target a ha).1⟩
  element := hseen.element
  outside v hv := hseen.shared v fun hcommon => hv.1 (mem_common hcommon.1).1
  ordered k i hi := hseen.ordered k i hi (h.loops i (mem_of_getElem? hi))

/-- No dependence is spurious exactly if the accesses are to the same memory and there is a
dependence wherever the system sees a pair of executions.  So it is for complete operations. -/
theorem dependence_real_iff (h : Analyzed printed history s t src dst) (d : Nat) :
    (((∃ env, Solves (system printed src dst d).2 env) →
      s.memref = t.memref ∧ ∃ p q, Depends s t d p q) ↔
      s.memref = t.memref ∧
        ((∃ p q, Seen (PlainlyNamed printed history) s t d p q) → ∃ p q, Depends s t d p q)) ∧
    (Complete printed history s t → s.memref = t.memref →
      (∃ env, Solves (system printed src dst d).2 env) →
        ∃ p q, Depends s t d p q) := by
  refine ⟨?_, fun hcomplete hmemref hsatisfiable => ?_⟩
  · by_cases hmemref : s.memref = t.memref
    · rw [h.satisfiable_iff_seen hmemref d]
      simp [hmemref]
    · simp [hmemref, h.satisfiable_of_ne hmemref d]
  · obtain ⟨p, q, hseen⟩ := (h.satisfiable_iff_seen hmemref d).mp hsatisfiable
    exact ⟨p, q, hcomplete.depends_of_seen hseen⟩

theorem rowStore_previousLoad_real :
    ∃ src dst, Analyzed shown [rowStore, previousLoad] rowStore previousLoad src dst ∧
      ∀ d : Nat, (∃ env, Solves (system shown src dst d).2 env) →
        rowStore.memref = previousLoad.memref ∧ ∃ p q, Depends rowStore previousLoad d p q := by
  obtain ⟨src, dst, h⟩ := analyzed_rowStore_previousLoad
  refine ⟨src, dst, h, fun d hsatisfiable => ⟨rfl, (dependence_real_iff h d).2
    ⟨plainlyNamed_rowStore_previousLoad, ?_, ?_, ceilingFree_rowStore_previousLoad⟩ rfl
    hsatisfiable⟩⟩
  · simp [rowStore, inLoops, applied, application?]
  · simp [previousLoad, inLoops, applied, application?]

def columnStore : MemoryOp :=
  inLoops .store "m" ["i", "j"] 9 [applied "a" ["i"] (.dim 0)] ["a"]

def otherLoad : MemoryOp :=
  inLoops .load "n" ["i", "j"] 9 [applied "a" ["i"] (.dim 0)] ["a"]

/-- The order of iterations alone counts as a dependence between different memories. -/
theorem otherLoad_reported :
    ∃ src dst, Analyzed shown [columnStore, otherLoad] columnStore otherLoad src dst ∧
      columnStore.memref ≠ otherLoad.memref ∧
      ∃ env, Solves (system shown src dst (2 : Nat)).2 env := by
  obtain ⟨src, dst, h⟩ :
      ∃ src dst, Analyzed shown [columnStore, otherLoad] columnStore otherLoad src dst :=
    exists_analyzed plainNames_shown (formed_inLoops (by simp) (by simp) rfl (by decide))
      (formed_inLoops (by simp) (by simp) rfl (by decide)) (by cbv) (by cbv)
  have hmemref : columnStore.memref ≠ otherLoad.memref := by simp [columnStore, otherLoad, inLoops]
  exact ⟨src, dst, h, hmemref, h.satisfiable_of_ne hmemref 2⟩

end MemoryOp

end Polyloom
