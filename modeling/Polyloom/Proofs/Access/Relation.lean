import Polyloom.Proofs.Access.Application
import Polyloom.Proofs.Constraint.Solution

/-!
# The relation of an access

The relations of a load or store say that the loop variables are within their bounds, that the
indices are what their maps are read as, and that the variables of the memory dimensions are the
indices.  An access exists exactly if every memory dimension is indexed by the result of an
application, no lower or upper bound is unknown, the maps can be put as constraints, and there
is something to say at all.
-/

namespace Polyloom

open Application LoopBound Proposition Term Except List

variable {a : Application} {b : LoopBound} {cs : List Constraint} {dims : List String}
  {op : MemoryOp} {ps : List Proposition} {p q : String → Int}
  {bounds : List (String × List LoopBound)}

/-! ## Lists of propositions -/

namespace Proposition

variable {ps qs : List Proposition} {M N : (String → Int) → Prop}

/-- Linear propositions that together mean something. -/
def Say (ps : List Proposition) (meaning : (String → Int) → Prop) : Prop :=
  (∀ p ∈ ps, p.IsLinear) ∧ ∀ env, (∀ p ∈ ps, p.Holds env) ↔ meaning env

theorem Say.append (hp : Say ps M) (hq : Say qs N) : Say (ps ++ qs) fun env => M env ∧ N env := by
  refine ⟨by simpa [or_imp, forall_and] using And.intro hp.1 hq.1, fun env => ?_⟩
  change _ ↔ M env ∧ N env
  rw [← hp.2, ← hq.2]
  simp [or_imp, forall_and]

private theorem Say.cons {p : Proposition} (hp : p.IsLinear) (hM : ∀ env, p.Holds env ↔ M env)
    (hq : Say qs N) : Say (p :: qs) fun env => M env ∧ N env := by
  have hone : Say [p] M := ⟨by simpa using hp, fun env => by simpa using hM env⟩
  exact hone.append hq

theorem Say.congr (hp : Say ps M) (h : ∀ env, M env ↔ N env) : Say ps N :=
  ⟨hp.1, fun env => (hp.2 env).trans (h env)⟩

end Proposition

theorem accessConstraints_eq (p : Proposition) (ps : List Proposition) :
    accessConstraints (p :: ps) = (p :: ps).mapM toConstraint := by
  simp [accessConstraints, bind, pure]

private theorem exists_accessConstraints (h : ∀ p ∈ ps, p.IsLinear) :
    (∃ cs, accessConstraints ps = .ok cs) ↔ ps ≠ [] ∧ ∀ p ∈ ps, p.covered = true := by
  cases ps with
  | nil => simp [accessConstraints, bind, Except.bind, throw, throwThe, MonadExceptOf.throw]
  | cons p ps =>
    have hcovered : ∀ q ∈ p :: ps, (∃ c, q.toConstraint = .ok c) ↔ q.covered = true := by
      intro q hq
      rw [← toConstraint_isOk (h q hq)]
      cases q.toConstraint <;> simp [Except.isOk, Except.toBool]
    rw [accessConstraints_eq, exists_mapM]
    simp only [ne_eq, reduceCtorEq, not_false_eq_true, true_and]
    exact forall₂_congr hcovered

private theorem solves_accessConstraints (h : ∀ p ∈ ps, p.IsLinear)
    (hcs : accessConstraints ps = .ok cs) (env : String → Int) :
    Solves cs env ↔ ∀ p ∈ ps, p.Holds env := by
  cases ps with
  | nil => simp [accessConstraints, bind, Except.bind, throw, throwThe, MonadExceptOf.throw] at hcs
  | cons p ps =>
    rw [accessConstraints_eq] at hcs
    constructor
    · intro hall q hq
      obtain ⟨c, hc⟩ := exists_mapM.mp ⟨cs, hcs⟩ q hq
      exact (holds_toConstraint (h q hq) hc).mp (hall c ((mem_mapM hcs c).mpr ⟨q, hq, hc⟩))
    · intro hall c hc
      obtain ⟨q, hq, hqc⟩ := (mem_mapM hcs c).mp hc
      exact (holds_toConstraint (h q hq) hqc).mpr (hall q hq)

/-! ## Tables -/

def Functional {β : Type} (entries : List (String × β)) : Prop :=
  ∀ key x y, (key, x) ∈ entries → (key, y) ∈ entries → x = y

section Tables

variable {β : Type} {key : String} {x : β} {entries : List (String × β)}

private theorem functional_of_nodup (h : (entries.map Prod.fst).Nodup) : Functional entries := by
  intro key x y hx hy
  exact congrArg Prod.snd (inj_on_of_nodup_map h hx hy rfl)

private theorem mem_setEntry (h : Functional ((key, x) :: entries)) (entry : String × β) :
    entry ∈ setEntry key x entries ↔ entry = (key, x) ∨ entry ∈ entries := by
  induction entries with
  | nil => simp [setEntry]
  | cons first rest ih =>
    obtain ⟨k, v⟩ := first
    have hrest : Functional ((key, x) :: rest) := fun k y z hy hz =>
      h k y z (by simp at hy ⊢; tauto) (by simp at hz ⊢; tauto)
    rw [setEntry]
    split
    · rename_i hk
      subst hk
      obtain rfl : v = x := h k v x (by simp) (by simp)
      simp
    · rw [mem_cons, ih hrest, mem_cons]
      tauto

theorem mem_foldl_setEntry {added : List (String × β)} (h : Functional (entries ++ added))
    (entry : String × β) :
    entry ∈ added.foldl (fun acc e => setEntry e.1 e.2 acc) entries ↔ entry ∈ entries ++ added := by
  induction added generalizing entries with
  | nil => simp
  | cons e rest ih =>
    have hset : ∀ e', e' ∈ setEntry e.1 e.2 entries ↔ e' = e ∨ e' ∈ entries :=
      mem_setEntry fun k y z hy hz =>
        h k y z (by simp at hy ⊢; tauto) (by simp at hz ⊢; tauto)
    have hrest : Functional (setEntry e.1 e.2 entries ++ rest) := fun k y z hy hz => by
      simp only [mem_append, hset] at hy hz
      exact h k y z (by simp; tauto) (by simp; tauto)
    rw [foldl_cons, ih hrest, mem_append, hset]
    simp
    tauto

private theorem lookup_of_mem (h : Functional entries) (hmem : (key, x) ∈ entries) :
    entries.lookup key = some x := by
  induction entries with
  | nil => simp at hmem
  | cons first rest ih =>
    obtain ⟨k, v⟩ := first
    by_cases hk : key = k
    · subst hk
      simp [h key v x (by simp) hmem]
    · rw [NameTable.lookup_cons_of_ne hk]
      refine ih (fun k y z hy hz => h k y z (by simp [hy]) (by simp [hz])) ?_
      simpa [hk] using hmem

end Tables

/-! ## Bounds -/

namespace LoopBound

def Admits (b : LoopBound) (x : Int) : Prop :=
  ∀ n, b.value = some n → (b.kind = "LB" → n ≤ x) ∧ (b.kind = "UB" → x ≤ n) ∧
    (b.kind = "EQ" → x = n)

def Proper (b : LoopBound) : Prop := b.kind = "LB" ∨ b.kind = "UB" ∨ b.kind = "EQ"

def Known (b : LoopBound) : Prop := b.kind = "EQ" ∨ b.value.isSome = true

end LoopBound

namespace MemoryOp

open Proposition (Say)

variable {memref v : String} {ps ds bs : List Proposition} {access : Access}

private theorem say_bound (op : Comparison) (n : Int) (iv : String) :
    Say [.compare op (int n) (.sym iv)] (fun env => op.holdsInt n (env iv) = true) ∧
      Say [.compare op (.sym iv) (int n)] fun env => op.holdsInt (env iv) n = true := by
  have hleft : (compare op (int n) (.sym iv)).IsLinear :=
    ⟨arithmetic_linear.int n, arithmetic_linear.sym iv⟩
  have hright : (compare op (.sym iv) (int n)).IsLinear :=
    ⟨arithmetic_linear.sym iv, arithmetic_linear.int n⟩
  refine ⟨⟨by simpa using hleft, fun env => ?_⟩, by simpa using hright, fun env => ?_⟩
  · rw [forall_mem_singleton, holds_compare arithmetic_linear hleft,
      value_int, value_sym, holds_intCast]
  · rw [forall_mem_singleton, holds_compare arithmetic_linear hright,
      value_int, value_sym, holds_intCast]

private theorem covered_bound {op : Comparison} (hop : op ≠ .ne) (n : Int) (iv : String) :
    (Proposition.compare op (Term.int n) (.sym iv)).covered = true ∧
      (Proposition.compare op (.sym iv) (Term.int n)).covered = true := by
  simp [Proposition.covered, Term.covered, Term.int, hop]

private theorem boundRelation_known (hproper : b.Proper) (hknown : b.Known) (iv : String) :
    ∃ ps, boundRelation iv b = .ok ps ∧ Say ps (fun env => b.Admits (env iv)) ∧
      (∀ p ∈ ps, p.covered = true) ∧ (ps = [] ↔ b.value = none) := by
  obtain ⟨kind, value⟩ := b
  cases value with
  | none =>
    obtain rfl : kind = "EQ" := by simpa [Known] using hknown
    exact ⟨[], rfl, by simp [Say, Admits], by simp, by simp⟩
  | some n =>
    obtain rfl | rfl | rfl := hproper
    · refine ⟨_, rfl, (say_bound .le n iv).1.congr fun env => ?_, ?_, by simp⟩
      · simp [Admits, Comparison.holdsInt]
      · simpa using (covered_bound (by simp) n iv).1
    · refine ⟨_, rfl, (say_bound .le n iv).2.congr fun env => ?_, ?_, by simp⟩
      · simp [Admits, Comparison.holdsInt]
      · simpa using (covered_bound (by simp) n iv).2
    · refine ⟨_, rfl, (say_bound .eq n iv).1.congr fun env => ?_, ?_, by simp⟩
      · simp [Admits, Comparison.holdsInt, eq_comm]
      · simpa using (covered_bound (by simp) n iv).1

private theorem known_of_boundRelation {iv : String}
    (h : boundRelation iv b = .ok ps) : b.Known := by
  unfold boundRelation at h
  split at h <;> simp_all [Known]

private theorem mapM_boundRelation {bounds : List LoopBound}
    (hproper : ∀ b ∈ bounds, b.Proper) (hknown : ∀ b ∈ bounds, b.Known) (iv : String) :
    ∃ pss, bounds.mapM (boundRelation iv) = .ok pss ∧
      Say pss.flatten (fun env => ∀ b ∈ bounds, b.Admits (env iv)) ∧
      (∀ p ∈ pss.flatten, p.covered = true) ∧
      (pss.flatten = [] ↔ ∀ b ∈ bounds, b.value = none) := by
  induction bounds with
  | nil => exact ⟨[], rfl, by simp [Say], by simp, by simp⟩
  | cons b rest ih =>
    rw [List.forall_mem_cons] at hproper hknown
    obtain ⟨ps, hps, hsay, hcovered, hempty⟩ := boundRelation_known hproper.1 hknown.1 iv
    obtain ⟨pss, hpss, hsays, hcovereds, hempties⟩ := ih hproper.2 hknown.2
    refine ⟨ps :: pss, by simp [List.mapM_cons, hps, hpss, bind, Except.bind, pure, Except.pure],
      (hsay.append hsays).congr fun env => by simp, ?_, ?_⟩
    · simpa [or_imp, forall_and] using And.intro hcovered (by simpa using hcovereds)
    · rw [List.flatten_cons, List.append_eq_nil_iff, hempty, hempties, List.forall_mem_cons]

private theorem boundRelations_known (hproper : ∀ e ∈ bounds, ∀ b ∈ e.2, b.Proper)
    (hknown : ∀ e ∈ bounds, ∀ b ∈ e.2, b.Known) :
    ∃ ps, boundRelations bounds = .ok ps ∧
      Say ps (fun env => ∀ e ∈ bounds, ∀ b ∈ e.2, b.Admits (env e.1)) ∧
      (∀ p ∈ ps, p.covered = true) ∧ (ps = [] ↔ ∀ e ∈ bounds, ∀ b ∈ e.2, b.value = none) := by
  induction bounds with
  | nil => exact ⟨[], rfl, by simp [Say], by simp, by simp⟩
  | cons e rest ih =>
    rw [List.forall_mem_cons] at hproper hknown
    obtain ⟨pss, hpss, hsay, hcovered, hempty⟩ := mapM_boundRelation hproper.1 hknown.1 e.1
    obtain ⟨ps, hps, hsays, hcovereds, hempties⟩ := ih hproper.2 hknown.2
    refine ⟨pss.flatten ++ ps,
      by simp [boundRelations, hpss, hps, bind, Except.bind, pure, Except.pure],
      (hsay.append hsays).congr fun env => by simp, ?_, ?_⟩
    · intro p hp
      obtain hp | hp := List.mem_append.mp hp
      · exact hcovered p hp
      · exact hcovereds p hp
    · rw [List.append_eq_nil_iff, hempty, hempties, List.forall_mem_cons]

private theorem known_of_boundRelations
    (h : boundRelations bounds = .ok ps) : ∀ e ∈ bounds, ∀ b ∈ e.2, b.Known := by
  induction bounds generalizing ps with
  | nil => simp
  | cons e rest ih =>
    cases hpss : e.2.mapM (boundRelation e.1) with
    | error => simp [boundRelations, hpss, bind, Except.bind] at h
    | ok pss =>
      cases hrest : boundRelations rest with
      | error => simp [boundRelations, hpss, hrest, bind, Except.bind] at h
      | ok qs =>
        refine List.forall_mem_cons.mpr ⟨fun b hb => ?_, ih hrest⟩
        obtain ⟨qs, hqs⟩ := exists_mapM.mp ⟨pss, hpss⟩ b hb
        exact known_of_boundRelation hqs

/-! ## Memory dimensions -/

private theorem ofEquation_sym {s t : String} (h : s ≠ t) :
    Proposition.ofEquation (.sym s) (.sym t) = .compare .eq (.sym s) (.sym t) := by
  have hs : IntegerLinear Set.univ (.sym s) := arithmetic_linear.sym s
  have ht : IntegerLinear Set.univ (.sym t) := arithmetic_linear.sym t
  unfold Proposition.ofEquation
  cases hdecided : Proposition.equal? (.sym s) (.sym t) with
  | none => rfl
  | some b =>
    -- the two sides can be equal and can differ, so neither answer is right
    have hdecides := Proposition.equal?_eq_some Term.arithmetic_linear hs ht hdecided
    have hequal := hdecides fun _ => 0
    have hdiffer := hdecides fun n => if n = s then 1 else 0
    simp only [Term.value_sym, true_iff] at hequal
    simp [h.symm, hequal] at hdiffer

private theorem dimensionRelationsUnder_spec {name : String → String}
    (hmemref : ∀ k v, dimensionVariable memref k ≠ name v) {source : String → IndexSource}
    (hdims : ∀ v ∈ dims, ∃ apply, source v = .application apply ∧ apply.result = name v) (i : Nat) :
    ∃ ps, dimensionRelationsUnder memref i (dims.map source) = .ok ps ∧
      Say ps (fun env => ∀ k v, dims[k]? = some v →
        env (dimensionVariable memref (i + k)) = env (name v)) ∧ ∀ p ∈ ps, p.covered = true := by
  induction dims generalizing i with
  | nil => exact ⟨[], rfl, by simp [Say], by simp⟩
  | cons v rest ih =>
    rw [List.forall_mem_cons] at hdims
    obtain ⟨apply, hsource, hresult⟩ := hdims.1
    obtain ⟨ps, hps, hsay, hcovered⟩ := ih hdims.2 (i + 1)
    have hequation := ofEquation_sym (hmemref i v)
    have hlinear : (Proposition.compare .eq (.sym (dimensionVariable memref i))
        (.sym (name v))).IsLinear := ⟨arithmetic_linear.sym _, arithmetic_linear.sym _⟩
    have hholds : ∀ env, (Proposition.compare .eq (.sym (dimensionVariable memref i))
        (.sym (name v))).Holds env ↔ env (dimensionVariable memref i) = env (name v) := by
      intro env
      rw [Proposition.holds_compare Term.arithmetic_linear hlinear]
      simp [Comparison.holds]
    refine ⟨.compare .eq (.sym (dimensionVariable memref i)) (.sym (name v)) :: ps, ?_,
      (hsay.cons hlinear hholds).congr fun env => ?_, ?_⟩
    · simp [dimensionRelationsUnder, hsource, hresult, hequation,
        hps, bind, Except.bind, pure, Except.pure]
    · constructor
      · rintro ⟨hfirst, hrest⟩ k w hk
        cases k with
        | zero =>
          obtain rfl : v = w := by simpa using hk
          exact hfirst
        | succ k =>
          rw [show i + (k + 1) = i + 1 + k by omega]
          exact hrest k w (by simpa using hk)
      · intro hall
        refine ⟨hall 0 v rfl, fun k w hk => ?_⟩
        rw [show i + 1 + k = i + (k + 1) by omega]
        exact hall (k + 1) w (by simpa using hk)
    · exact List.forall_mem_cons.mpr ⟨by simp [Proposition.covered, Term.covered], hcovered⟩

private theorem ne_loop_of_dimensionRelationsUnder {i : Nat} {dims : List IndexSource}
    (h : dimensionRelationsUnder memref i dims = .ok ps) :
    ∀ s ∈ dims, ∃ apply, s = .application apply := by
  induction dims generalizing i ps with
  | nil => simp
  | cons s rest ih =>
    cases s with
    | loop => simp [dimensionRelationsUnder] at h
    | application apply =>
      cases hrest : dimensionRelationsUnder memref (i + 1) rest with
      | error => simp [dimensionRelationsUnder, hrest, bind, Except.bind] at h
      | ok qs => exact List.forall_mem_cons.mpr ⟨⟨apply, rfl⟩, ih hrest⟩

/-! ## The meaning of an access -/

def InBounds (p : String → Int) (op : MemoryOp) : Prop :=
  ∀ e ∈ op.bounds, ∀ b ∈ e.2, b.Admits (p e.1)

def Indexed (meaning : (String → Int) → Application → Prop) (p : String → Int) (op : MemoryOp) :
    Prop :=
  ∀ v ∈ op.indices, ∀ a, op.application? v = some a → meaning p a

def CeilingFree (op : MemoryOp) : Prop :=
  ∀ v ∈ op.indices, ∀ a, op.application? v = some a → ∀ e ∈ a.map.results, e.ceilingFree = true

theorem CeilingFree.indexed_iff (h : op.CeilingFree) (p : String → Int) :
    op.Indexed Reads p ↔ op.Indexed Computes p :=
  forall₄_congr fun v hv a ha => reads_iff_computes (h v hv a ha) p

/-- The access relation: loop variables within bounds, indices as their applications mean, and
for every memory dimension its variable equal to the index. -/
def Denotes (meaning : (String → Int) → Application → Prop) (name : String → String)
    (op : MemoryOp) (env : String → Int) : Prop :=
  op.InBounds (fun v => env (name v)) ∧ op.Indexed meaning (fun v => env (name v)) ∧
    ∀ k v, op.dims[k]? = some v → env (dimensionVariable (name op.memref) k) = env (name v)

/-! ## Indices -/

/-- An access whose indices are results of affine applications or loop variables. -/
structure WellFormed (op : MemoryOp) : Prop where
  kind : op.kind ≠ .other
  applications : ∀ v ∈ op.indices, ∀ a, op.application? v = some a → a.WellFormed
  loops : ∀ v ∈ op.indices, op.application? v = none → v ∈ op.loops
  dims : ∀ v ∈ op.dims, v ∈ op.indices
  bounds : (op.bounds.map Prod.fst).Nodup
  proper : ∀ e ∈ op.bounds, ∀ b ∈ e.2, b.Proper

def Mentions (op : MemoryOp) (v : String) : Prop :=
  v ∈ op.loops ∨ v ∈ op.bounds.map Prod.fst ∨ v ∈ op.indices ∨
    ∃ w ∈ op.indices, ∃ a, op.application? w = some a ∧ v ∈ a.operands

theorem result_of_application? (h : op.application? v = some a) : a.result = v := by
  simpa using find?_some h

theorem inBounds_congr (h : ∀ v, op.Mentions v → p v = q v) : op.InBounds p ↔ op.InBounds q := by
  refine forall₄_congr fun e he b hb => ?_
  rw [h e.1 (.inr (.inl (mem_map_of_mem he)))]

theorem indexed_reads_congr (hop : op.WellFormed) (h : ∀ v, op.Mentions v → p v = q v) :
    op.Indexed Reads p ↔ op.Indexed Reads q := by
  refine forall₄_congr fun w hw a ha => ?_
  refine reads_congr (hop.applications w hw a ha) (fun v hv => ?_) ?_
  · exact h v (.inr (.inr (.inr ⟨w, hw, a, ha, hv⟩)))
  · rw [result_of_application? ha]
    exact h w (.inr (.inr (.inl hw)))

def sourceUnder (name : String → String) (op : MemoryOp) (v : String) : IndexSource :=
  match op.application? v with
  | none => .loop
  | some a => match a.analyzeUnder name with
      | .ok apply => .application apply
      | .error _ => .loop

variable {name : String → String} {op : MemoryOp}

theorem sourceUnder_application (hname : NamesApart name) (hop : op.WellFormed)
    (hv : v ∈ op.indices) (ha : op.application? v = some a) : ∃ apply, a.analyzeUnder name =
    .ok apply ∧ op.sourceUnder name v = .application apply ∧ apply.result = name v ∧
    apply.relation.IsLinear ∧ ∀ env, apply.relation.Holds env ↔ a.Reads fun v => env (name v) := by
  obtain ⟨apply, happly, hresult, hlinear, hholds⟩ :=
    analyzeUnder_spec hname (hop.applications v hv a ha)
  rw [result_of_application? ha] at hresult
  exact ⟨apply, happly, by simp [sourceUnder, ha, happly], hresult, hlinear, hholds⟩

theorem sourceUnder_loop (h : op.application? v = none) : op.sourceUnder name v = .loop := by
  simp [sourceUnder, h]

section

variable (hname : NamesApart name)

include hname

theorem sourcesUnder_eq (hop : op.WellFormed) {indices : List String}
    (hindices : ∀ v ∈ indices, v ∈ op.indices) (acc : List (String × IndexSource))
    (symbolic : List String) :
    ∃ symbolic', op.sourcesUnder name indices acc symbolic =
      .ok ((indices.map fun v => (name v, op.sourceUnder name v)).foldl
        (fun acc e => setEntry e.1 e.2 acc) acc, symbolic') := by
  induction indices generalizing acc symbolic with
  | nil => exact ⟨symbolic, rfl⟩
  | cons v rest ih =>
    rw [forall_mem_cons] at hindices
    rw [sourcesUnder]
    cases ha : op.application? v with
    | none =>
      simp only [hop.loops v hindices.1 ha, if_true, map_cons, foldl_cons, sourceUnder_loop ha]
      exact ih hindices.2 _ _
    | some a =>
      obtain ⟨apply, happly, hsource, -⟩ := sourceUnder_application hname hop hindices.1 ha
      simp only [happly, map_cons, foldl_cons, hsource]
      exact ih hindices.2 _ _

def operandsUnder (name : String → String) (op : MemoryOp) : List (String × IndexSource) :=
  (op.indices.map fun v => (name v, op.sourceUnder name v)).foldl
    (fun acc e => setEntry e.1 e.2 acc) []

theorem mem_operandsUnder (entry : String × IndexSource) :
    entry ∈ op.operandsUnder name ↔ ∃ v ∈ op.indices, (name v, op.sourceUnder name v) = entry := by
  rw [operandsUnder, mem_foldl_setEntry]
  · simp
  · intro key x y hx hy
    simp only [nil_append, mem_map, Prod.mk.injEq] at hx hy
    obtain ⟨v, -, hv, rfl⟩ := hx
    obtain ⟨w, -, hw, rfl⟩ := hy
    rw [hname.injective (hv.trans hw.symm)]

private theorem functional_operandsUnder : Functional (op.operandsUnder name) := by
  intro key x y hx hy
  obtain ⟨v, -, hv⟩ := (mem_operandsUnder hname _).mp hx
  obtain ⟨w, -, hw⟩ := (mem_operandsUnder hname _).mp hy
  simp only [Prod.mk.injEq] at hv hw
  rw [← hv.2, ← hw.2, hname.injective (hv.1.trans hw.1.symm)]

theorem dimensionsUnder_eq (hdims : ∀ v ∈ dims, v ∈ op.indices) :
    dimensionsUnder name (op.operandsUnder name) dims = .ok (dims.map (op.sourceUnder name)) := by
  induction dims with
  | nil => rfl
  | cons v rest ih =>
    rw [List.forall_mem_cons] at hdims
    have hlookup : (op.operandsUnder name).lookup (name v) = some (op.sourceUnder name v) :=
      lookup_of_mem (functional_operandsUnder hname)
        ((mem_operandsUnder hname _).mpr ⟨v, hdims.1, rfl⟩)
    rw [dimensionsUnder, hlookup]
    simp [ih hdims.2, bind, Except.bind, pure, Except.pure]

theorem mem_applyRelations (hop : op.WellFormed) (p : Proposition) :
    p ∈ applyRelations (op.operandsUnder name) ↔ ∃ v ∈ op.indices, ∃ a, op.application? v = some a ∧
        ∃ apply, a.analyzeUnder name = .ok apply ∧ apply.relation = p := by
  simp only [applyRelations, mem_filterMap, mem_operandsUnder hname]
  constructor
  · rintro ⟨_, ⟨v, hv, rfl⟩, hp⟩
    cases ha : op.application? v with
    | none => simp [sourceUnder_loop ha] at hp
    | some a =>
      obtain ⟨apply, happly, hsource, -⟩ := sourceUnder_application hname hop hv ha
      exact ⟨v, hv, a, ha, apply, happly, by simpa [hsource] using hp⟩
  · rintro ⟨v, hv, a, ha, apply, happly, rfl⟩
    exact ⟨_, ⟨v, hv, rfl⟩, by simp [sourceUnder, ha, happly]⟩

end

section

variable (hname : NamesApart name) (hop : op.WellFormed)

include hname hop

theorem say_applyRelations :
    Say (applyRelations (op.operandsUnder name)) fun env =>
      op.Indexed Reads fun v => env (name v) := by
  have hspec : ∀ v ∈ op.indices, ∀ a, op.application? v = some a → ∀ apply,
      a.analyzeUnder name = .ok apply → apply.relation.IsLinear ∧
        ∀ env, apply.relation.Holds env ↔ a.Reads fun v => env (name v) := by
    intro v hv a ha apply happly
    obtain ⟨apply', happly', -, hspec⟩ := analyzeUnder_spec hname (hop.applications v hv a ha)
    obtain rfl : apply' = apply := by simpa [happly'] using happly
    exact hspec
  constructor
  · intro p hp
    obtain ⟨v, hv, a, ha, apply, happly, rfl⟩ := (mem_applyRelations hname hop p).mp hp
    exact (hspec v hv a ha apply happly).1
  · intro env
    constructor
    · intro hall v hv a ha
      obtain ⟨apply, happly, -⟩ := analyzeUnder_spec hname (hop.applications v hv a ha)
      exact ((hspec v hv a ha apply happly).2 env).mp
        (hall _ ((mem_applyRelations hname hop _).mpr ⟨v, hv, a, ha, apply, happly, rfl⟩))
    · intro hindexed p hp
      obtain ⟨v, hv, a, ha, apply, happly, rfl⟩ := (mem_applyRelations hname hop p).mp hp
      exact ((hspec v hv a ha apply happly).2 env).mpr (hindexed v hv a ha)

private theorem covered_applyRelations :
    (∀ p ∈ applyRelations (op.operandsUnder name), p.covered = true) ↔
      ∀ v ∈ op.indices, ∀ a, op.application? v = some a → a.Expressible name := by
  constructor
  · intro hall v hv a ha apply happly
    exact hall _ ((mem_applyRelations hname hop _).mpr ⟨v, hv, a, ha, apply, happly, rfl⟩)
  · intro hall p hp
    obtain ⟨v, hv, a, ha, apply, happly, rfl⟩ := (mem_applyRelations hname hop p).mp hp
    exact hall v hv a ha apply happly

theorem mem_namedBoundsUnder (e : String × List LoopBound) :
    e ∈ namedBoundsUnder name op.bounds [] ↔ ∃ e' ∈ op.bounds, (name e'.1, e'.2) = e := by
  have hfold : namedBoundsUnder name op.bounds [] =
      (op.bounds.map fun e => (name e.1, e.2)).foldl (fun acc e => setEntry e.1 e.2 acc) [] := by
    rw [foldl_map]
    rfl
  rw [hfold, mem_foldl_setEntry]
  · simp
  · intro key x y hx hy
    simp only [nil_append, mem_map, Prod.mk.injEq] at hx hy
    obtain ⟨v, hv, hvkey, rfl⟩ := hx
    obtain ⟨w, hw, hwkey, rfl⟩ := hy
    exact functional_of_nodup hop.bounds v.1 v.2 w.2 hv
      (hname.injective (hvkey.trans hwkey.symm) ▸ hw)

/-! ## The access -/

theorem accessUnder_cases (h : op.accessUnder name = .ok access) :
    ∃ ds bs, dimensionRelationsUnder (name op.memref) 0 (op.dims.map (op.sourceUnder name)) =
        .ok ds ∧ boundRelations (namedBoundsUnder name op.bounds []) = .ok bs ∧
      access.relations = ds ++ applyRelations (op.operandsUnder name) ++ bs ∧
      accessConstraints access.relations = .ok access.constraints ∧
      access.memref = op.memref ∧ access.loops = op.loops := by
  obtain ⟨symbolic, hsources⟩ := sourcesUnder_eq hname hop (fun v hv => hv) [] []
  change _ = Except.ok (op.operandsUnder name, symbolic) at hsources
  rw [accessUnder, hsources] at h
  simp only [bind, Except.bind, dimensionsUnder_eq hname hop.dims] at h
  cases hds : dimensionRelationsUnder (name op.memref) 0 (op.dims.map (op.sourceUnder name)) with
  | error => simp [hds] at h
  | ok ds =>
    cases hbs : boundRelations (namedBoundsUnder name op.bounds []) with
    | error => simp [hds, hbs] at h
    | ok bs =>
      cases hcs : accessConstraints (ds ++ applyRelations (op.operandsUnder name) ++ bs) with
      | error => simp only [hds, hbs, hcs, reduceCtorEq] at h
      | ok cs =>
        simp only [hds, hbs, hcs, pure, Except.pure, Except.ok.injEq] at h
        subst h
        exact ⟨ds, bs, rfl, rfl, rfl, hcs, rfl, rfl⟩

private theorem exists_accessUnder
    (hds : dimensionRelationsUnder (name op.memref) 0 (op.dims.map (op.sourceUnder name)) = .ok ds)
    (hbs : boundRelations (namedBoundsUnder name op.bounds []) = .ok bs)
    (hcs : accessConstraints (ds ++ applyRelations (op.operandsUnder name) ++ bs) = .ok cs) :
    ∃ access, op.accessUnder name = .ok access := by
  obtain ⟨symbolic, hsources⟩ := sourcesUnder_eq hname hop (fun v hv => hv) [] []
  change _ = Except.ok (op.operandsUnder name, symbolic) at hsources
  rw [accessUnder, hsources]
  simp only [bind, Except.bind, dimensionsUnder_eq hname hop.dims, hds, hbs, hcs, pure, Except.pure]
  exact ⟨_, rfl⟩

/-- What it takes to build an access: memory dimensions indexed by results of applications,
known lower and upper bounds, applications that can be put as constraints, and something to
say. -/
structure Admissible (name : String → String) (op : MemoryOp) : Prop where
  dims : ∀ v ∈ op.dims, (op.application? v).isSome = true
  known : ∀ e ∈ op.bounds, ∀ b ∈ e.2, b.Known
  expressible : ∀ v ∈ op.indices, ∀ a, op.application? v = some a → a.Expressible name
  speaking : (∃ v ∈ op.indices, (op.application? v).isSome = true) ∨
    ∃ e ∈ op.bounds, ∃ b ∈ e.2, b.value.isSome = true

theorem boundRelations_spec (hknown : ∀ e ∈ op.bounds, ∀ b ∈ e.2, b.Known) :
    ∃ bs, boundRelations (namedBoundsUnder name op.bounds []) = .ok bs ∧
      Say bs (fun env => op.InBounds fun v => env (name v)) ∧ (∀ p ∈ bs, p.covered = true) ∧
      (bs = [] ↔ ∀ e ∈ op.bounds, ∀ b ∈ e.2, b.value = none) := by
  have hnamed : ∀ P : String → LoopBound → Prop,
      (∀ e ∈ namedBoundsUnder name op.bounds [], ∀ b ∈ e.2, P e.1 b) ↔
        ∀ e ∈ op.bounds, ∀ b ∈ e.2, P (name e.1) b := by
    intro P
    simp only [mem_namedBoundsUnder hname hop]
    constructor
    · exact fun hall e he => hall _ ⟨e, he, rfl⟩
    · rintro hall _ ⟨e, he, rfl⟩
      exact hall e he
  obtain ⟨bs, hbs, hsay, hcovered, hempty⟩ := boundRelations_known
    ((hnamed fun _ b => b.Proper).mpr hop.proper) ((hnamed fun _ b => b.Known).mpr hknown)
  exact ⟨bs, hbs, hsay.congr fun env => hnamed fun iv b => b.Admits (env iv), hcovered,
    hempty.trans (hnamed fun _ b => b.value = none)⟩

theorem known_of_namedBounds (h : boundRelations (namedBoundsUnder name op.bounds []) = .ok bs) :
    ∀ e ∈ op.bounds, ∀ b ∈ e.2, b.Known :=
  fun e he => known_of_boundRelations h
    (name e.1, e.2) ((mem_namedBoundsUnder hname hop _).mpr ⟨e, he, rfl⟩)

theorem dimensionRelations_spec (hdims : ∀ v ∈ op.dims, (op.application? v).isSome = true) :
    ∃ ds, dimensionRelationsUnder (name op.memref) 0 (op.dims.map (op.sourceUnder name)) = .ok ds ∧
      Say ds (fun env => ∀ k v, op.dims[k]? = some v →
        env (dimensionVariable (name op.memref) k) = env (name v)) ∧
      ∀ p ∈ ds, p.covered = true := by
  have happlied : ∀ v ∈ op.dims, ∃ apply, op.sourceUnder name v = .application apply ∧
      apply.result = name v := by
    intro v hv
    obtain ⟨a, ha⟩ := Option.isSome_iff_exists.mp (hdims v hv)
    obtain ⟨apply, -, hsource, hresult, -⟩ := sourceUnder_application hname hop (hop.dims v hv) ha
    exact ⟨apply, hsource, hresult⟩
  obtain ⟨ds, hds, hsay, hcovered⟩ :=
    dimensionRelationsUnder_spec (fun k v => hname.dimension op.memref k v) happlied 0
  exact ⟨ds, hds, hsay.congr fun env => by simp, hcovered⟩

end

theorem applied_of_dimensionRelations
    (h : dimensionRelationsUnder (name op.memref) 0 (op.dims.map (op.sourceUnder name)) = .ok ds) :
    ∀ v ∈ op.dims, (op.application? v).isSome = true := by
  intro v hv
  obtain ⟨apply, hsource⟩ :=
    ne_loop_of_dimensionRelationsUnder h (op.sourceUnder name v) (mem_map_of_mem hv)
  cases ha : op.application? v with
  | none => simp [sourceUnder_loop ha] at hsource
  | some a => rfl

section

variable (hname : NamesApart name) (hop : op.WellFormed)

include hname hop

/-- The relations of an access mean its access relation, with maps as they are read. -/
theorem say_relations (h : op.accessUnder name = .ok access) :
    Say access.relations (op.Denotes Reads name) := by
  obtain ⟨ds, bs, hds, hbs, hrelations, -⟩ := accessUnder_cases hname hop h
  obtain ⟨ds', hds', hdsSay, -⟩ :=
    dimensionRelations_spec hname hop (applied_of_dimensionRelations hds)
  obtain ⟨bs', hbs', hbsSay, -⟩ :=
    boundRelations_spec hname hop (known_of_namedBounds hname hop hbs)
  obtain rfl : ds' = ds := by simpa [hds'] using hds
  obtain rfl : bs' = bs := by simpa [hbs'] using hbs
  rw [hrelations]
  refine ((hdsSay.append (say_applyRelations hname hop)).append hbsSay).congr fun env => ?_
  rw [Denotes]
  tauto

theorem solves_constraints (h : op.accessUnder name = .ok access) (env : String → Int) :
    Solves access.constraints env ↔ op.Denotes Reads name env := by
  have hsay := say_relations hname hop h
  obtain ⟨ds, bs, -, -, -, hconstraints, -⟩ := accessUnder_cases hname hop h
  rw [solves_accessConstraints hsay.1 hconstraints, hsay.2]

private theorem relations_eq_nil (hknown : ∀ e ∈ op.bounds, ∀ b ∈ e.2, b.Known)
    (hdims : ∀ v ∈ op.dims, (op.application? v).isSome = true)
    (hds : dimensionRelationsUnder (name op.memref) 0 (op.dims.map (op.sourceUnder name)) = .ok ds)
    (hbs : boundRelations (namedBoundsUnder name op.bounds []) = .ok bs)
    (hsilent : ¬ ((∃ v ∈ op.indices, (op.application? v).isSome = true) ∨
      ∃ e ∈ op.bounds, ∃ b ∈ e.2, b.value.isSome = true)) :
    ds ++ applyRelations (op.operandsUnder name) ++ bs = [] := by
  push Not at hsilent
  obtain ⟨bs', hbs', -, -, hempty⟩ := boundRelations_spec hname hop hknown
  obtain rfl : bs' = bs := by simpa [hbs'] using hbs
  have hnodims : op.dims = [] := eq_nil_iff_forall_not_mem.mpr fun v hv =>
    hsilent.1 v (hop.dims v hv) (hdims v hv)
  have hds' : ds = [] := by simpa [hnodims, dimensionRelationsUnder] using hds.symm
  have happly : applyRelations (op.operandsUnder name) = [] :=
    eq_nil_iff_forall_not_mem.mpr fun p hp => by
      obtain ⟨v, hv, a, ha, -⟩ := (mem_applyRelations hname hop p).mp hp
      exact hsilent.1 v hv (by simp [ha])
  have hbounds : bs' = [] := hempty.mpr fun e he b hb => by
    simpa using hsilent.2 e he b hb
  simp [hds', happly, hbounds]

theorem exists_accessUnder_iff :
    (∃ access, op.accessUnder name = .ok access) ↔ op.Admissible name := by
  constructor
  · rintro ⟨access, h⟩
    obtain ⟨ds, bs, hds, hbs, hrelations, hconstraints, -⟩ := accessUnder_cases hname hop h
    have hlinear := (say_relations hname hop h).1
    obtain ⟨hne, hcovered⟩ := (exists_accessConstraints hlinear).mp ⟨_, hconstraints⟩
    have hdims := applied_of_dimensionRelations hds
    have hknown := known_of_namedBounds hname hop hbs
    refine ⟨hdims, hknown, (covered_applyRelations hname hop).mp fun p hp => ?_, ?_⟩
    · exact hcovered p (by simp [hrelations, hp])
    · by_contra hsilent
      exact hne (hrelations.trans (relations_eq_nil hname hop hknown hdims hds hbs hsilent))
  · intro hadmissible
    obtain ⟨ds, hds, hdsSay, hdsCovered⟩ := dimensionRelations_spec hname hop hadmissible.dims
    obtain ⟨bs, hbs, hbsSay, hbsCovered, hempty⟩ := boundRelations_spec hname hop hadmissible.known
    have happlyCovered := (covered_applyRelations hname hop).mpr hadmissible.expressible
    have hsay := (hdsSay.append (say_applyRelations hname hop)).append hbsSay
    have hne : ds ++ applyRelations (op.operandsUnder name) ++ bs ≠ [] := by
      intro hnil
      simp only [append_eq_nil_iff] at hnil
      obtain ⟨v, hv, ha⟩ | ⟨e, he, b, hb, hvalue⟩ := hadmissible.speaking
      · obtain ⟨a, ha⟩ := Option.isSome_iff_exists.mp ha
        obtain ⟨apply, happly, -⟩ := analyzeUnder_spec hname (hop.applications v hv a ha)
        have hmem := (mem_applyRelations hname hop _).mpr ⟨v, hv, a, ha, apply, happly, rfl⟩
        simp [hnil.1.2] at hmem
      · simp [hempty.mp hnil.2 e he b hb] at hvalue
    have hcovered : ∀ p ∈ ds ++ applyRelations (op.operandsUnder name) ++ bs, p.covered = true := by
      intro p hp
      simp only [mem_append] at hp
      obtain (hp | hp) | hp := hp
      · exact hdsCovered p hp
      · exact happlyCovered p hp
      · exact hbsCovered p hp
    obtain ⟨cs, hcs⟩ := (exists_accessConstraints hsay.1).mpr ⟨hne, hcovered⟩
    exact exists_accessUnder hname hop hds hbs hcs

end

end MemoryOp

end Polyloom
