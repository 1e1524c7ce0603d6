import Mathlib
import Polyloom.Proofs.Access.Relation

/-!
# When an access means its access relation

The constraints of a load or store denote its access relation exactly if the operation is
admissible and, within its bounds, no ceiling of an exact division is taken by the maps of its
indices.  An induction variable as an index, a missing lower or upper bound, and an access
outside of all loops without indices are not admissible.
-/

namespace Polyloom.MemoryOp

open Application

variable {name printed : String → String} {op : MemoryOp}

theorem construct_eq {table : NameTable String} (htable : table.Ticked) (hkind : op.kind ≠ .other) :
    (op.construct printed table).1 =
      op.accessUnder ((op.construct printed table).2.name printed) := by
  have hresult := (follows_analyze printed op table htable).2.2 _ (.refl _)
  refine hresult.trans ?_
  simp only [analyzeUnder]
  cases hk : op.kind with
  | other => exact absurd hk hkind
  | load | store => rfl

theorem dimensionVariable_injective (memref : String) :
    Function.Injective (dimensionVariable memref) :=
  fun _ _ h => Text.repr_injective ((String.append_right_inj (memref ++ "_dim_")).mp h)

private theorem exists_environment (hname : NamesApart name)
    (memref : String) (p : String → Int) (f : Nat → Int) :
    ∃ env : String → Int, (∀ v, env (name v) = p v) ∧
      ∀ k, env (dimensionVariable (name memref) k) = f k := by
  refine ⟨Function.extend (dimensionVariable (name memref)) f (Function.extend name p 0),
    fun v => ?_, fun k => (dimensionVariable_injective _).extend_apply f _ k⟩
  have hapart : ¬ ∃ k, dimensionVariable (name memref) k = name v :=
    fun ⟨k, hk⟩ => hname.dimension memref k v hk
  rw [Function.extend_apply' _ _ _ hapart, hname.injective.extend_apply]

/-- At values within the bounds, the relation holds for fitting dimensions exactly if the indices
mean what they should. -/
private theorem exists_denotes_iff (hname : NamesApart name)
    (p : String → Int) (hp : op.InBounds p) :
    ∃ env : String → Int, ∀ meaning : (String → Int) → Application → Prop,
      op.Denotes meaning name env ↔ op.Indexed meaning p := by
  obtain ⟨env, hvalues, hdims⟩ :=
    exists_environment hname op.memref p fun k => p (op.dims.getD k "")
  refine ⟨env, fun meaning => ?_⟩
  have hfit : ∀ k v, op.dims[k]? = some v →
      env (dimensionVariable (name op.memref) k) = env (name v) := by
    intro k v hk
    rw [hdims, hvalues, List.getD_eq_getElem?_getD, hk, Option.getD_some]
  have henv : (fun v => env (name v)) = p := funext hvalues
  rw [Denotes, henv]
  exact ⟨fun h => h.2.1, fun h => ⟨hp, h, hfit⟩⟩

/-- Whatever was built before, building an access succeeds with relations that denote the access
relation exactly if the operation is admissible and its maps are read as they are meant. -/
theorem construct_denotes_iff (hprinted : PlainNames printed)
    (history : List MemoryOp) (hop : op.WellFormed) :
    (∃ access, (op.construct printed (tableAfter printed history)).1 = .ok access ∧
      ∀ env, (∀ r ∈ access.relations, r.Holds env) ↔ op.Denotes Computes
          ((op.construct printed (tableAfter printed history)).2.name printed) env) ↔
    op.Admissible ((op.construct printed (tableAfter printed history)).2.name printed) ∧
      ∀ p, op.InBounds p →
        (op.Indexed Computes p ↔ op.Indexed Reads p) := by
  have htable := ticked_tableAfter printed history
  have hname := hprinted.namesApart (ticked_construct printed htable op)
  rw [construct_eq htable hop.kind]
  generalize (op.construct printed (tableAfter printed history)).2.name printed = name at hname ⊢
  constructor
  · rintro ⟨access, haccess, hdenotes⟩
    refine ⟨(exists_accessUnder_iff hname hop).mp ⟨access, haccess⟩, fun p hp => ?_⟩
    obtain ⟨env, henv⟩ := exists_denotes_iff hname p hp
    rw [← henv, ← henv, ← hdenotes env, (say_relations hname hop haccess).2]
  · rintro ⟨hadmissible, hread⟩
    obtain ⟨access, haccess⟩ := (exists_accessUnder_iff hname hop).mpr hadmissible
    refine ⟨access, haccess, fun env => ?_⟩
    rw [(say_relations hname hop haccess).2, Denotes, Denotes]
    exact and_congr_right fun hbounds => and_congr_left' (hread _ hbounds).symm

/-! ## Small accesses -/

def shown (v : String) : String :=
  if v ∈ ["a", "b", "c", "e", "i", "j", "m", "n"] then v else "x"

theorem shown_mem (v : String) : shown v ∈ ["a", "b", "c", "e", "i", "j", "m", "n", "x"] := by
  unfold shown
  split
  · rename_i h
    simp only [List.mem_cons, List.not_mem_nil, or_false] at h ⊢
    tauto
  · simp

theorem plainNames_shown : PlainNames shown := by
  have hlist : ∀ s ∈ ["a", "b", "c", "e", "i", "j", "m", "n", "x"],
      s ≠ "" ∧ NameTable.Tickless s ∧ '_' ∉ s.toList ∧
        ∃ c ∈ s.toList, ¬ (c.isDigit = true ∨ c ∈ ['-', 'd', 's']) := by
    simp only [List.forall_mem_cons, List.not_mem_nil, false_imp_iff, implies_true]
    simp [NameTable.Tickless]
  refine ⟨fun v => (hlist _ (shown_mem v)).1, fun v => (hlist _ (shown_mem v)).2.1,
    fun v => (hlist _ (shown_mem v)).2.2.1, fun v e he => ?_⟩
  obtain ⟨c, hc, hapart⟩ := (hlist _ (shown_mem v)).2.2.2
  exact hapart (mem_leafText he hc)

def applied (result : String) (operands : List String) (e : AffineExpr) : Application where
  result := result
  operands := operands
  map := ⟨operands.length, 0, [e]⟩

def inLoops (kind : AccessKind) (memref : String) (loops : List String) (upper : Int)
    (applications : List Application) (dims : List String) : MemoryOp where
  kind := kind
  memref := memref
  loops := loops
  applications := applications
  indices := dims
  dims := dims
  bounds := loops.map fun i => (i, [⟨"LB", some 0⟩, ⟨"UB", some upper⟩, ⟨"EQ", none⟩])

theorem wellFormed_inLoops {kind : AccessKind} (hkind : kind ≠ .other) (memref : String)
    {loops : List String} (hloops : loops.Nodup) (upper : Int) {applications : List Application}
    (happlications : ∀ a ∈ applications, a.WellFormed) {dims : List String}
    (hdims : ∀ v ∈ dims, v ∈ applications.map result ∨ v ∈ loops) :
    (inLoops kind memref loops upper applications dims).WellFormed where
  kind := hkind
  applications v _ a ha := happlications a (List.mem_of_find?_eq_some ha)
  loops v hv hnone := by
    refine (hdims v hv).resolve_left fun hresult => ?_
    obtain ⟨a, ha, rfl⟩ := List.mem_map.mp hresult
    simpa using List.find?_eq_none.mp hnone a ha
  dims v hv := hv
  bounds := by simpa [inLoops, Function.comp_def] using hloops
  proper := by simp [inLoops, LoopBound.Proper]

theorem wellFormed_applied {operands : List String} {e : AffineExpr}
    (h : e.isAffine operands.length 0 = true) (result : String) :
    (applied result operands e).WellFormed :=
  ⟨rfl, by simp [applied], by simpa [applied] using h, by simp [applied]⟩

def diagonalStore : MemoryOp :=
  inLoops .store "m" ["i", "j"] 9 [applied "a" ["i", "j"] (.binary .add (.dim 0) (.dim 1))] ["a"]

private theorem wellFormed_diagonalStore : diagonalStore.WellFormed :=
  wellFormed_inLoops (by simp) "m" (by simp) 9
    (by simpa using wellFormed_applied (by simp [AffineExpr.isFormed]) "a") (by simp [applied])

theorem diagonalStore_denotes : PlainNames shown ∧ diagonalStore.WellFormed ∧
      ∃ access, (diagonalStore.construct shown (tableAfter shown [])).1 = .ok access ∧
        ∀ env, (∀ r ∈ access.relations, r.Holds env) ↔ diagonalStore.Denotes Computes
            ((diagonalStore.construct shown (tableAfter shown [])).2.name shown) env := by
  have htable := ticked_tableAfter shown []
  have hname := plainNames_shown.namesApart (ticked_construct shown htable diagonalStore)
  refine ⟨plainNames_shown, wellFormed_diagonalStore,
    (construct_denotes_iff plainNames_shown [] wellFormed_diagonalStore).mpr ⟨?_, fun p _ => ?_⟩⟩
  · rw [← exists_accessUnder_iff hname wellFormed_diagonalStore,
      ← construct_eq htable wellFormed_diagonalStore.kind]
    have hok : (diagonalStore.construct shown (tableAfter shown [])).1.isOk = true := by cbv
    cases hrun : (diagonalStore.construct shown (tableAfter shown [])).1 with
    | ok access => exact ⟨access, rfl⟩
    | error => simp [hrun, Except.isOk, Except.toBool] at hok
  · have hfree : diagonalStore.CeilingFree := by
      intro v _ a ha
      obtain rfl : a = applied "a" ["i", "j"] (.binary .add (.dim 0) (.dim 1)) := by
        simpa [diagonalStore, inLoops] using List.mem_of_find?_eq_some ha
      simp [applied, AffineExpr.ceilingFree]
    exact (hfree.indexed_iff p).symm

def loadByLoop : MemoryOp := inLoops .load "m" ["i"] 9 [] ["i"]

/-- A loop variable is accepted as an index, and then has no result to take. -/
theorem construct_loadByLoop : PlainNames shown ∧ loadByLoop.WellFormed ∧
      (loadByLoop.construct shown (tableAfter shown [])).1 = .error .noAttribute :=
  ⟨plainNames_shown, wellFormed_inLoops (by simp) "m" (by simp) 9 (by simp) (by simp), by cbv⟩

end Polyloom.MemoryOp
