import Polyloom.Proofs.Dialect.Visit

/-!
# Where a walk stops

A walk hands over an operation, then walks over what is below it, and only then goes on to the next
one.  It stops in the middle of this, at any depth, as soon as an operation fails.  What it noted
until then are the operations in front of the failing one in pre-order, and the failing one too if
only its class is not known.
-/

namespace Polyloom

open Dialect

variable {outcome : List Visit × Option VisitFault} {v : Visit}

namespace OpTree

variable {op : OpTree} {ops : List OpTree}

/-! ## One step after the other -/

def andThen (first second : List Visit × Option VisitFault) : List Visit × Option VisitFault :=
  if first.2.isSome then first else (first.1 ++ second.1, second.2)

@[simp] theorem andThen_none (visits : List Visit) (second : List Visit × Option VisitFault) :
    andThen (visits, none) second = (visits ++ second.1, second.2) := rfl

@[simp] theorem andThen_some (visits : List Visit) (fault : VisitFault)
    (second : List Visit × Option VisitFault) :
    andThen (visits, some fault) second = (visits, some fault) := rfl

private theorem andThen_assoc (first second third : List Visit × Option VisitFault) :
    andThen (andThen first second) third = andThen first (andThen second third) := by
  obtain ⟨visits, _ | fault⟩ := first
  · obtain ⟨more, _ | fault⟩ := second
    · simp
    · simp
  · simp

theorem dispatchAll_cons (op : OpTree) (rest : List OpTree) :
    dispatchAll (op :: rest) = andThen op.dispatch (dispatchAll rest) := by
  rw [dispatchAll]
  rcases op.dispatch with ⟨visits, _ | fault⟩
  · rfl
  · rfl

theorem dispatchAll_andThen (ops rest : List OpTree) :
    dispatchAll (ops ++ rest) = andThen (dispatchAll ops) (dispatchAll rest) := by
  induction ops with
  | nil => rfl
  | cons op ops ih => rw [List.cons_append, dispatchAll_cons, ih, dispatchAll_cons, andThen_assoc]

/-- A walk goes child by child: each is handed over, then walked, then the others follow. -/
private theorem visit_children (root : OpTree) : root.visit =
    root.children.foldr (fun child later => andThen child.dispatch (andThen child.visit later))
      ([], none) := by
  rw [visit, descendants_eq]
  induction root.children with
  | nil => rfl
  | cons child rest ih =>
    rw [List.flatMap_cons, List.cons_append, dispatchAll_cons,
      dispatchAll_andThen, ih, List.foldr_cons, visit]

/-! ## Outcomes of walks -/

/-- The name of an operation leads to a dialect that dispatches on its class, and this is its visit.
-/
structure IsVisited (op : OpTree) (v : Visit) : Prop where
  dialect : find? (dialectKey op.name) = some v.dialect
  cls : v.cls = op.cls
  declared : op.cls ∈ v.dialect.ops

/-- What comes of walking over operations in order. -/
inductive Walked : List OpTree → List Visit × Option VisitFault → Prop
  /-- Every one is visited. -/
  | whole {ops : List OpTree} {visits : List Visit} (h : List.Forall₂ IsVisited ops visits) :
    Walked ops (visits, none)
  /-- Those in front of one without a dialect are visited. -/
  | noDialect {before : List OpTree} {op : OpTree} {visits : List Visit}
      (h : List.Forall₂ IsVisited before visits) (hop : find? (dialectKey op.name) = none)
      (after : List OpTree) :
      Walked (before ++ op :: after) (visits, some (.unknownDialect (dialectKey op.name)))
  /-- Those in front of one whose class is not known to its dialect are visited, and it is noted
  itself. -/
  | noClass {before : List OpTree} {op : OpTree} {visits : List Visit} {d : Dialect}
      (h : List.Forall₂ IsVisited before visits) (hop : find? (dialectKey op.name) = some d)
      (hcls : op.cls ∉ d.ops) (after : List OpTree) :
      Walked (before ++ op :: after) (visits ++ [⟨d, op.cls⟩], some (.unknownClass op.cls))

theorem IsVisited.dispatch_eq (h : op.IsVisited v) : op.dispatch = ([v], none) := by
  obtain ⟨d, cls⟩ := v
  obtain rfl : cls = op.cls := h.cls
  simp [dispatch, h.dialect, h.declared]

theorem dispatch_of_no_dialect (h : find? (dialectKey op.name) = none) :
    op.dispatch = ([], some (.unknownDialect (dialectKey op.name))) := by
  simp [dispatch, h]

theorem dispatch_of_no_class {d : Dialect} (h : find? (dialectKey op.name) = some d)
    (hcls : op.cls ∉ d.ops) : op.dispatch = ([⟨d, op.cls⟩], some (.unknownClass op.cls)) := by
  simp [dispatch, h, hcls]

private theorem dispatchAll_of_visited {visits : List Visit}
    (h : List.Forall₂ IsVisited ops visits) :
    dispatchAll ops = (visits, none) := by
  induction h with
  | nil => rfl
  | cons hfirst _ ih =>
    rw [dispatchAll_cons, hfirst.dispatch_eq, ih, andThen_none, List.singleton_append]

private theorem Walked.cons (hop : op.IsVisited v) (h : Walked ops outcome) :
    Walked (op :: ops) (v :: outcome.1, outcome.2) := by
  cases h with
  | whole h => exact .whole (.cons hop h)
  | noDialect h hd after => exact .noDialect (.cons hop h) hd after
  | noClass h hd hcls after => exact .noClass (.cons hop h) hd hcls after

private theorem walked_dispatchAll (ops : List OpTree) : Walked ops (dispatchAll ops) := by
  -- a failure of the first operation ends the walk; otherwise its visit is put in front of the
  -- others
  induction ops with
  | nil => exact .whole .nil
  | cons op ops ih =>
    rw [dispatchAll_cons]
    rcases hd : find? (dialectKey op.name) with _ | d
    · rw [dispatch_of_no_dialect hd, andThen_some]
      exact .noDialect .nil hd ops
    by_cases hcls : op.cls ∈ d.ops
    · have hop : op.IsVisited ⟨d, op.cls⟩ := ⟨hd, rfl, hcls⟩
      rw [hop.dispatch_eq, andThen_none]
      exact ih.cons hop
    · rw [dispatch_of_no_class hd hcls, andThen_some]
      exact .noClass .nil hd hcls ops

private theorem Walked.dispatchAll_eq (h : Walked ops outcome) : dispatchAll ops = outcome := by
  cases h with
  | whole h => exact dispatchAll_of_visited h
  | noDialect h hd after =>
    rw [dispatchAll_andThen, dispatchAll_of_visited h, dispatchAll_cons, dispatch_of_no_dialect hd]
    simp
  | noClass h hd hcls after =>
    rw [dispatchAll_andThen, dispatchAll_of_visited h, dispatchAll_cons,
      dispatch_of_no_class hd hcls]
    simp

/-- A walk, which goes down into each operation before it goes on to the next, visits all operations
below its root in pre-order, or stops at the first one that fails: at one without a dialect after
the visits of those in front of it, at one whose class its dialect does not know after its own visit
too. -/
theorem visit_eq_iff_walked (root : OpTree) : (∀ op : OpTree, op.visit = op.children.foldr
      (fun child later => andThen child.dispatch (andThen child.visit later)) ([], none)) ∧
    (∀ op : OpTree, op.descendants = op.children.flatMap fun child => child :: child.descendants) ∧
    ∀ outcome, root.visit = outcome ↔ Walked root.descendants outcome := by
  refine ⟨visit_children, descendants_eq, fun outcome => ⟨?_, ?_⟩⟩
  · rintro rfl
    exact walked_dispatchAll root.descendants
  · exact fun h => h.dispatchAll_eq

example : (node "builtin.module" "ModuleOp" [[[ .node "omp.parallel" "ParallelOp"
    [[[.node "llvm.add" "AddOp" []], [.node "omp.wsloop" "LoopOp" []]]],
      .node "acc.loop" "LoopOp" []]]]).visit =
    ([⟨.omp, "ParallelOp"⟩, ⟨.llvm, "AddOp"⟩, ⟨.omp, "LoopOp"⟩],
      some (.unknownClass "LoopOp")) := by
  decide +kernel

end OpTree

end Polyloom
