import Mathlib.Data.List.Forall2
import Polyloom.Dialect.Visit
import Polyloom.Ir.Definitions.Affine
import Polyloom.Ir.Definitions.Async
import Polyloom.Ir.Definitions.Llvm
import Polyloom.Ir.Definitions.Omp
import Polyloom.Proofs.Text.Pieces

/-!
# Walks over operations of known classes

The dialect of an operation is read off its name, which is taken to be a dialect and one more
component.  Some classes have longer names.  A walk over instances of known classes hands them to
their own dialects in pre-order until it meets such a name, and no dialect is found for it.
-/

namespace Polyloom

open Dialect OpDefinition Text

namespace Dialect

variable {d : Dialect} {ops : List OpDefinition}

def defined : List (Dialect × List OpDefinition) :=
  [(affine, affineOps), (asynchronous, asyncOps), (llvm, llvmOps), (omp, ompOps)]

private theorem find?_key (h : (d, ops) ∈ defined) : find? d.key = some d := by
  simp only [defined, List.mem_cons, Prod.mk.injEq, List.not_mem_nil, or_false] at h
  rcases h with ⟨rfl, -⟩ | ⟨rfl, -⟩ | ⟨rfl, -⟩ | ⟨rfl, -⟩ <;> rfl

private theorem pointless_keys : (defined.all fun g => g.1.key.toList.all (· ≠ '.')) = true := by
  decide +kernel

-- the dialects are checked one after the other, which takes less memory
private theorem names_start_with_key (h : (d, ops) ∈ defined) :
    (ops.all fun o => startsWith o.name (d.key ++ ".")) = true := by
  simp only [defined, List.mem_cons, Prod.mk.injEq, List.not_mem_nil, or_false] at h
  rcases h with ⟨rfl, rfl⟩ | ⟨rfl, rfl⟩ | ⟨rfl, rfl⟩ | ⟨rfl, rfl⟩ <;> decide +kernel

private theorem no_key_extends_keys :
    (all.all fun d => defined.all fun g => !startsWith d.key (g.1.key ++ "_")) = true := by
  decide +kernel

private theorem pointless_key (h : (d, ops) ∈ defined) : '.' ∉ d.key.toList := by
  have hkey := List.all_eq_true.mp pointless_keys _ h
  simp only [List.all_eq_true, decide_eq_true_eq] at hkey
  exact fun hpoint => hkey '.' hpoint rfl

private theorem exists_component (h : (d, ops) ∈ defined) {o : OpDefinition} (ho : o ∈ ops) :
    ∃ rest, o.name = d.key ++ "." ++ rest := by
  have hname := List.all_eq_true.mp (names_start_with_key h) o ho
  rw [startsWith, List.isPrefixOf_iff_prefix] at hname
  obtain ⟨rest, hrest⟩ := hname
  refine ⟨String.ofList rest, ?_⟩
  rw [← String.toList_inj, String.toList_append, String.toList_ofList, hrest]

private theorem find?_extended_key (h : (d, ops) ∈ defined) (more : String) :
    find? (d.key ++ "_" ++ more) = none := by
  rw [find?, List.find?_eq_none]
  intro other hother
  have hkey := List.all_eq_true.mp (List.all_eq_true.mp no_key_extends_keys other hother) _ h
  simp only [startsWith, Bool.not_eq_true', ← Bool.not_eq_true, List.isPrefixOf_iff_prefix] at hkey
  simp only [beq_iff_eq]
  rintro heq
  exact hkey ⟨more.toList, by rw [heq, ← String.toList_append]⟩

end Dialect

namespace OpTree

variable {op : OpTree} {ops : List OpTree}

/-! ## The dialect in a name -/

private theorem exists_splitOn_of_point {text : String} (h : '.' ∈ text.toList) :
    ∃ first second rest, splitOn text "." = first :: second :: rest := by
  obtain ⟨front, back, hsplit, hfront⟩ := List.eq_append_cons_of_mem h
  have htext : text = String.ofList front ++ "." ++ String.ofList back := by
    rw [← String.toList_inj]
    simp [String.toList_append, hsplit]
  have hpointless : '.' ∉ (String.ofList front).toList := by simpa using hfront
  rw [htext, splitOn_append_cons rfl hpointless]
  cases hback : splitOn (String.ofList back) "." with
  | nil => simp [splitOn, pieces] at hback
  | cons second rest => exact ⟨_, second, rest, rfl⟩

private theorem dialectKey_append {key : String} (hkey : '.' ∉ key.toList) (rest : String) :
    dialectKey (key ++ "." ++ rest) =
      if '.' ∈ rest.toList then key ++ "_" ++ dialectKey rest else key := by
  rw [dialectKey, splitOn_append_cons rfl hkey]
  split
  · rename_i hpoint
    obtain ⟨first, second, more, hpieces⟩ := exists_splitOn_of_point hpoint
    rw [dialectKey, hpieces, List.dropLast_cons_cons, List.dropLast_cons_cons,
      String.intercalate_cons_cons]
  · rename_i hpoint
    rw [splitOn_eq_single rfl hpoint]
    simp

def isShort (name : String) : Bool := name.toList.count '.' = 1

private theorem isShort_append {key : String} (hkey : '.' ∉ key.toList) (rest : String) :
    isShort (key ++ "." ++ rest) = true ↔ '.' ∉ rest.toList := by
  have hpoint : ".".toList = ['.'] := rfl
  simp [isShort, String.toList_append, hpoint, List.count_eq_zero.mpr hkey, List.count_eq_zero]

/-! ## Instances of classes -/

/-- The operation is an instance of a class that its own dialect dispatches on, and this is the
visit that it should get. -/
structure IsInstance (op : OpTree) (v : Visit) : Prop where
  definition : ∃ ops, (v.dialect, ops) ∈ defined ∧ ∃ o ∈ ops,
    o.name = op.name ∧ lastPiece o.cls "." = op.cls
  cls : v.cls = op.cls
  declared : op.cls ∈ v.dialect.ops

theorem IsInstance.dispatch_eq {v : Visit} (h : op.IsInstance v) :
    op.dispatch = if isShort op.name then ([v], none)
      else ([], some (.unknownDialect (dialectKey op.name))) := by
  obtain ⟨ops, hdefined, o, ho, hname, -⟩ := h.definition
  obtain ⟨rest, hrest⟩ := exists_component hdefined ho
  have hkey := pointless_key hdefined
  rw [hname] at hrest
  rw [dispatch, hrest, dialectKey_append hkey]
  by_cases hpoint : '.' ∈ rest.toList
  · have hlong : isShort (v.dialect.key ++ "." ++ rest) = false := by
      simpa [hpoint] using isShort_append hkey rest
    simp [hpoint, hlong, find?_extended_key hdefined]
  · have hshort : isShort (v.dialect.key ++ "." ++ rest) = true :=
      (isShort_append hkey rest).mpr hpoint
    have hdeclared : v.cls ∈ v.dialect.ops := h.cls ▸ h.declared
    simp [hpoint, hshort, find?_key hdefined, hdeclared, ← h.cls]

/-! ## Walks -/

def children (op : OpTree) : List OpTree := op.regions.flatten.flatten

private theorem descendantsOfOps_eq (ops : List OpTree) :
    descendantsOfOps ops = ops.flatMap fun op => op :: op.descendants := by
  induction ops with
  | nil => rw [descendantsOfOps, List.flatMap_nil]
  | cons op rest ih => rw [descendantsOfOps, ih, List.flatMap_cons, List.cons_append]

private theorem descendantsOfBlocks_eq (blocks : List (List OpTree)) :
    descendantsOfBlocks blocks = blocks.flatten.flatMap fun op => op :: op.descendants := by
  induction blocks with
  | nil => rw [descendantsOfBlocks, List.flatten_nil, List.flatMap_nil]
  | cons block rest ih =>
    rw [descendantsOfBlocks, descendantsOfOps_eq, ih, List.flatten_cons, List.flatMap_append]

theorem descendants_eq (op : OpTree) :
    op.descendants = op.children.flatMap fun child => child :: child.descendants := by
  obtain ⟨name, cls, regions⟩ := op
  rw [descendants, children, OpTree.regions]
  induction regions with
  | nil => rw [descendantsOfRegions, List.flatten_nil, List.flatten_nil, List.flatMap_nil]
  | cons region rest ih =>
    rw [descendantsOfRegions, descendantsOfBlocks_eq, ih, List.flatten_cons,
      List.flatten_append, List.flatMap_append]

theorem dispatchAll_append {visits : List Visit} (h : List.Forall₂ IsInstance ops visits)
    (hshort : ∀ op ∈ ops, isShort op.name = true) (rest : List OpTree) :
    dispatchAll (ops ++ rest) = (visits ++ (dispatchAll rest).1, (dispatchAll rest).2) := by
  induction h with
  | nil => rfl
  | cons hfirst hrest ih =>
    rw [List.forall_mem_cons] at hshort
    rw [List.cons_append, dispatchAll, hfirst.dispatch_eq, if_pos hshort.1, ih hshort.2]
    simp

private theorem dispatchAll_stops {before after : List OpTree}
    {visits : List Visit} (h : List.Forall₂ IsInstance (before ++ op :: after) visits)
    (hbefore : ∀ o ∈ before, isShort o.name = true) (hop : isShort op.name = false) :
    dispatchAll (before ++ op :: after) =
      (visits.take before.length, some (.unknownDialect (dialectKey op.name))) := by
  have hfirst : List.Forall₂ IsInstance before (visits.take before.length) := by
    simpa using List.forall₂_take before.length h
  have hrest : List.Forall₂ IsInstance (op :: after) (visits.drop before.length) := by
    simpa using List.forall₂_drop before.length h
  rw [dispatchAll_append hfirst hbefore]
  generalize visits.drop before.length = later at hrest
  cases hrest with
  | cons hinstance _ => simp [dispatchAll, hinstance.dispatch_eq, hop]

private theorem exists_visits (h : ∀ op ∈ ops, ∃ v, op.IsInstance v) :
    ∃ visits, List.Forall₂ IsInstance ops visits := by
  induction ops with
  | nil => exact ⟨[], .nil⟩
  | cons op rest ih =>
    rw [List.forall_mem_cons] at h
    obtain ⟨v, hv⟩ := h.1
    obtain ⟨visits, hrest⟩ := ih h.2
    exact ⟨v :: visits, .cons hv hrest⟩

private theorem exists_first_long (h : ¬ ∀ op ∈ ops, isShort op.name = true) :
    ∃ before op after, ops = before ++ op :: after ∧ (∀ o ∈ before, isShort o.name = true) ∧
      isShort op.name = false := by
  induction ops with
  | nil => simp at h
  | cons op rest ih =>
    by_cases hop : isShort op.name = true
    · rw [List.forall_mem_cons, not_and] at h
      obtain ⟨before, o, after, hsplit, hbefore, ho⟩ := ih (h hop)
      exact ⟨op :: before, o, after,
        by rw [hsplit, List.cons_append], List.forall_mem_cons.mpr ⟨hop, hbefore⟩, ho⟩
    · exact ⟨[], op, rest, rfl, by simp, by simpa using hop⟩

/-- A walk over instances of known classes visits each of them once, in pre-order and in its own
dialect, exactly if all their names are short.  Otherwise it stops at the first name that is not. -/
theorem visit_instances_iff {root : OpTree} (h : ∀ op ∈ root.descendants, ∃ v, op.IsInstance v) :
    (∀ op : OpTree, op.descendants = op.children.flatMap fun child => child :: child.descendants) ∧
    ∃ visits, List.Forall₂ IsInstance root.descendants visits ∧
      (root.visit = (visits, none) ↔ ∀ op ∈ root.descendants, isShort op.name = true) ∧
      ∀ before op after, root.descendants = before ++ op :: after →
        (∀ o ∈ before, isShort o.name = true) → isShort op.name = false →
        root.visit = (visits.take before.length, some (.unknownDialect (dialectKey op.name))) := by
  obtain ⟨visits, hvisits⟩ := exists_visits h
  have hstops : ∀ before op after, root.descendants = before ++ op :: after →
      (∀ o ∈ before, isShort o.name = true) → isShort op.name = false →
      root.visit = (visits.take before.length, some (.unknownDialect (dialectKey op.name))) := by
    intro before op after hsplit hbefore hop
    rw [visit, hsplit]
    exact dispatchAll_stops (hsplit ▸ hvisits) hbefore hop
  refine ⟨descendants_eq, visits, hvisits, ⟨fun hvisit => ?_, fun hshort => ?_⟩, hstops⟩
  · by_contra hlong
    obtain ⟨before, op, after, hsplit, hbefore, hop⟩ := exists_first_long hlong
    rw [hstops before op after hsplit hbefore hop] at hvisit
    simp at hvisit
  · have hall := dispatchAll_append hvisits hshort []
    rw [List.append_nil] at hall
    rw [visit, hall]
    simp [dispatchAll]

theorem isInstance_of_any {d : Dialect} {ops : List OpDefinition} (hdefined : (d, ops) ∈ defined)
    (hclass : (ops.any fun o => o.name = op.name && lastPiece o.cls "." = op.cls) = true)
    (hdeclared : op.cls ∈ d.ops) : op.IsInstance ⟨d, op.cls⟩ := by
  simp only [List.any_eq_true, Bool.and_eq_true, decide_eq_true_eq] at hclass
  obtain ⟨o, ho, hname, hcls⟩ := hclass
  exact ⟨⟨ops, hdefined, o, ho, hname, hcls⟩, rfl, hdeclared⟩

def parallelLoop : OpTree :=
  .node "builtin.module" "ModuleOp" [[[
    .node "omp.parallel" "ParallelOp" [[[ .node "omp.wsloop" "WsLoopOp"
      [[[.node "llvm.add" "AddOp" [], .node "omp.yield" "YieldOp" []]]],
      .node "omp.terminator" "TerminatorOp" []]]]]]]

theorem parallelLoop_visited : (∀ op ∈ parallelLoop.descendants, ∃ v, op.IsInstance v) ∧
      ∃ visits, List.Forall₂ IsInstance parallelLoop.descendants visits ∧
        parallelLoop.visit = (visits, none) := by
  have homp : (omp, ompOps) ∈ defined := by simp [defined]
  have hllvm : (llvm, llvmOps) ∈ defined := by simp [defined]
  have hinstances : ∀ op ∈ parallelLoop.descendants, ∃ v, op.IsInstance v := by
    simp only [parallelLoop, descendants, descendantsOfRegions, descendantsOfBlocks,
      descendantsOfOps, List.append_nil, List.nil_append, List.cons_append, List.forall_mem_cons]
    refine ⟨⟨_, isInstance_of_any homp ?_ ?_⟩, ⟨_, isInstance_of_any homp ?_ ?_⟩,
      ⟨_, isInstance_of_any hllvm ?_ ?_⟩, ⟨_, isInstance_of_any homp ?_ ?_⟩,
      ⟨_, isInstance_of_any homp ?_ ?_⟩, by simp⟩
    all_goals decide +kernel
  obtain ⟨-, visits, hvisits, hcomplete, -⟩ := visit_instances_iff hinstances
  have hshort : ∀ op ∈ parallelLoop.descendants, isShort op.name = true := by
    rw [← List.all_eq_true]
    decide +kernel
  exact ⟨hinstances, visits, hvisits, hcomplete.mpr hshort⟩

def constantModule : OpTree :=
  .node "builtin.module" "ModuleOp" [[[.node "llvm.mlir.constant" "ConstantOp" []]]]

/-- A class is known to its dialect, and its instances are not visited. -/
theorem constantModule_unvisited :
    (∀ op ∈ constantModule.descendants, op.IsInstance ⟨.llvm, "ConstantOp"⟩) ∧
      constantModule.visit = ([], some (.unknownDialect "llvm_mlir")) := by
  have hllvm : (llvm, llvmOps) ∈ defined := by simp [defined]
  refine ⟨?_, by decide +kernel⟩
  simp only [constantModule, descendants, descendantsOfRegions,
    descendantsOfBlocks, descendantsOfOps, List.append_nil, List.forall_mem_singleton]
  exact isInstance_of_any hllvm (by decide +kernel) (by decide +kernel)

end OpTree

end Polyloom
