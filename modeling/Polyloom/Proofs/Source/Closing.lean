import Polyloom.Proofs.Source.Nodes

/-!
# Closed loops and branches

What the two passes do to the loops and branches of a program, wherever they are.  Every branch
gets the calls that end it.  A loop gets its call if and only if it is not in the else clause of
another loop, for the pass over the loops goes into the bodies of loops only.
-/

namespace Polyloom

open List

namespace SourceTree

variable {kind ending : String} {fields fields' : List (String × SourceTree)}
  {body orelse xs ys : List SourceTree} {u test t loop : SourceTree}

def callKinds : List String := ["Expr", "Call", "Name"]

theorem nodes_callStatement (h : kind ∉ callKinds) (function : String) :
    (callStatement function).nodes kind = [] := by
  simp only [callKinds, mem_cons, not_mem_nil, or_false, not_or] at h
  simp [callStatement, call, name, nodes_node, nodes_list, Ne.symm h.1,
    Ne.symm h.2.1, Ne.symm h.2.2]

/-! ## The pass over loops -/

section

variable {ending kind : String} {t : SourceTree}

theorem closeLoopsAll_eq (ending : String) (items : List SourceTree) :
    closeLoopsAll ending items = items.map (closeLoops ending) := by
  induction items with
  | nil => rfl
  | cons t items ih => rw [closeLoopsAll, ih, map_cons]

private theorem closeLoopsIn_eq (ending : String) (fields : List (String × SourceTree)) :
    closeLoopsIn ending fields = fields.map fun f => (f.1, closeLoops ending f.2) := by
  induction fields with
  | nil => rfl
  | cons f fields ih => rw [closeLoopsIn, ih, map_cons]

theorem closeLoops_node (h : kind ≠ "For") (fields : List (String × SourceTree)) :
    closeLoops ending (node kind fields) =
      node kind (fields.map fun f => (f.1, closeLoops ending f.2)) := by
  rw [closeLoops, if_neg h, closeLoopsIn_eq]

theorem closeLoops_list (ending : String) (items : List SourceTree) :
    closeLoops ending (list items) = list (items.map (closeLoops ending)) := by
  rw [closeLoops, closeLoopsAll_eq]

@[simp] theorem closeLoops_leaf (ending : String) (d : Datum) :
    closeLoops ending (leaf d) = leaf d := by
  rw [closeLoops]

theorem closeLoops_loop (body orelse : List SourceTree) (iter target : SourceTree) :
    closeLoops ending (loopOf body iter orelse target) =
      loopOf (body.map (closeLoops ending) ++ [callStatement ending]) iter orelse target := by
  simp [closeLoops, closeBody, closeLoopsAll_eq, surround]

theorem isPass_closeLoops (ending : String) : IsPass "For" fun t u => u = closeLoops ending t where
  leaf := by simp
  list {items u} h := by
    refine ⟨_, h.trans (closeLoops_list ending items), ?_⟩
    exact forall₂_map_right_iff.mpr (forall₂_same.mpr fun _ _ => rfl)
  node {kind fields u} h := by
    by_cases hkind : kind = "For"
    · exact ⟨_, h.trans (by rw [closeLoops, if_pos hkind]), fun hne => absurd hkind hne⟩
    · refine ⟨_, h.trans (closeLoops_node hkind fields), fun _ => ?_⟩
      exact forall₂_map_right_iff.mpr (forall₂_same.mpr fun _ _ => ⟨rfl, rfl⟩)

theorem closeLoops_eq_self (h : t.nodes "For" = []) : closeLoops ending t = t := by
  induction t using induct with
  | node kind fields ih =>
    rw [nodes_node, append_eq_nil_iff, flatMap_eq_nil_iff] at h
    have hkind : kind ≠ "For" := fun hfor => by simp [hfor] at h
    rw [closeLoops_node hkind]
    exact congrArg (node kind) (map_eq_self fun f hf => Prod.ext rfl (ih f hf (h.2 f hf)))
  | list items ih =>
    rw [nodes_list, flatMap_eq_nil_iff] at h
    rw [closeLoops_list]
    exact congrArg list (map_eq_self fun t ht => ih t ht (h t ht))
  | leaf d => exact closeLoops_leaf ending d

/-! ## Else clauses of loops -/

mutual

/-- The nodes of a kind, each with whether it is in the else clause of a loop. -/
def placed (kind : String) (inElse : Bool) : SourceTree → List (Bool × SourceTree)
  | .node k fields =>
    if k = kind then (inElse, .node k fields) :: placedIn kind (k = "For") inElse fields
    else placedIn kind (k = "For") inElse fields
  | .list items => placedAmong kind inElse items
  | .leaf _ => []

def placedIn (kind : String) (isLoop inElse : Bool) :
    List (String × SourceTree) → List (Bool × SourceTree)
  | [] => []
  | (field, t) :: rest =>
    placed kind (inElse || (isLoop && field = "orelse")) t ++ placedIn kind isLoop inElse rest

def placedAmong (kind : String) (inElse : Bool) : List SourceTree → List (Bool × SourceTree)
  | [] => []
  | t :: rest => placed kind inElse t ++ placedAmong kind inElse rest

end

private theorem placedIn_eq (kind : String) (isLoop inElse : Bool)
    (fields : List (String × SourceTree)) :
    placedIn kind isLoop inElse fields =
      fields.flatMap fun f => f.2.placed kind (inElse || (isLoop && f.1 = "orelse")) := by
  induction fields with
  | nil => rfl
  | cons f fields ih => rw [placedIn, ih, flatMap_cons]

section

variable (kind : String) (inElse : Bool)

private theorem placedAmong_eq (items : List SourceTree) :
    placedAmong kind inElse items = items.flatMap (placed kind inElse) := by
  induction items with
  | nil => rfl
  | cons t items ih => rw [placedAmong, ih, flatMap_cons]

theorem placed_node (k : String) (fields : List (String × SourceTree)) :
    (node k fields).placed kind inElse = (if k = kind then [(inElse, node k fields)] else []) ++
      fields.flatMap fun f => f.2.placed kind (inElse || (k = "For" && f.1 = "orelse")) := by
  rw [placed, placedIn_eq]
  split <;> rfl

theorem placed_list (items : List SourceTree) :
    (list items).placed kind inElse = items.flatMap (placed kind inElse) := by
  rw [placed, placedAmong_eq]

theorem placed_loop (body orelse : List SourceTree) (iter target : SourceTree) :
    (loopOf body iter orelse target).placed kind inElse =
      (if "For" = kind then [(inElse, loopOf body iter orelse target)] else []) ++
      ((list body).placed kind inElse ++ (iter.placed kind inElse ++
        ((list orelse).placed kind true ++ target.placed kind inElse))) := by
  rw [placed_node]
  simp

@[simp] theorem placed_leaf (d : Datum) : (leaf d).placed kind inElse = [] := by
  rw [placed]

end

theorem placed_true (kind : String) (t : SourceTree) :
    t.placed kind true = (t.nodes kind).map (Prod.mk true) := by
  induction t using induct with
  | node k fields ih =>
    rw [placed_node, nodes_node, map_append, map_flatMap, apply_ite (map (Prod.mk true))]
    exact congrArg _ (flatMap_congr fun f hf => ih f hf)
  | list items ih =>
    rw [placed_list, nodes_list, map_flatMap]
    exact flatMap_congr ih
  | leaf d => simp

theorem map_snd_placed (kind : String) (inElse : Bool) (t : SourceTree) :
    (t.placed kind inElse).map Prod.snd = t.nodes kind := by
  induction t using induct generalizing inElse with
  | node k fields ih =>
    rw [placed_node, nodes_node, map_append, map_flatMap, apply_ite (map Prod.snd)]
    exact congrArg _ (flatMap_congr fun f hf => ih f hf _)
  | list items ih =>
    rw [placed_list, nodes_list, map_flatMap]
    exact flatMap_congr fun t ht => ih t ht inElse
  | leaf d => simp

def reached (ending : String) (p : Bool × SourceTree) : SourceTree :=
  if p.1 then p.2 else closeLoops ending p.2

theorem nodes_closeLoops (hkind : kind ∉ callKinds) (h : t.IsGrammatical) :
    (closeLoops ending t).nodes kind = (t.placed kind false).map (reached ending) := by
  induction t using induct with
  | node k fields ih =>
    by_cases hfor : k = "For"
    · subst hfor
      obtain ⟨body, iter, orelse, target, hnode, hiter, htarget⟩ := h.loops _ (self_mem_nodes _ _)
      cases hnode
      have hbody := ih ("body", list body) (by simp) (h.entry (by simp))
      have hiter' := ih ("iter", iter) (by simp) (h.entry (by simp))
      have htarget' := ih ("target", target) (by simp) (h.entry (by simp))
      rw [closeLoops_list, nodes_list] at hbody
      rw [closeLoops_eq_self hiter.1] at hiter'
      rw [closeLoops_eq_self htarget.1] at htarget'
      -- The else clause is not gone into: what is in it is reached as it is.
      have helse :
          (list orelse).nodes kind = ((list orelse).placed kind true).map (reached ending) := by
        rw [placed_true, map_map]
        exact (map_id _).symm
      have hmark : (list [callStatement ending]).nodes kind = [] := by
        simp [nodes_list, nodes_callStatement hkind]
      have hself : reached ending (false, loopOf body iter orelse target) = _ :=
        closeLoops_loop body orelse iter target
      rw [closeLoops_loop, nodes_node, placed_loop]
      simp only [flatMap_cons, flatMap_nil, append_nil, map_append]
      rw [nodes_list, flatMap_append, hbody, ← nodes_list, hmark,
        hiter', htarget', helse, append_nil]
      split
      · rw [map_singleton, hself]
      · rfl
    · rw [closeLoops_node hfor, nodes_node, placed_node, map_append, map_flatMap,
        flatMap_map, apply_ite (map (reached ending))]
      simp only [hfor, decide_false, Bool.false_and, Bool.or_false]
      congr 1
      · rw [map_singleton, reached, closeLoops_node hfor]
        rfl
      · exact flatMap_congr fun f hf => ih f hf (h.entry hf)
  | list items ih =>
    rw [closeLoops_list, nodes_list, placed_list, map_flatMap, flatMap_map]
    exact flatMap_congr fun t ht => ih t ht (h.item ht)
  | leaf d => simp

theorem mem_nodes_of_mem_placed {inElse : Bool} {p : Bool × SourceTree}
    (hp : p ∈ t.placed kind inElse) : p.2 ∈ t.nodes kind := by
  rw [← map_snd_placed kind inElse t]
  exact mem_map_of_mem hp

private theorem placed_eq_nil {inElse : Bool} (h : t.nodes kind = []) :
    t.placed kind inElse = [] := by
  rwa [← map_eq_nil_iff (f := Prod.snd), map_snd_placed]

theorem reached_eq (ending : String) (p : Bool × SourceTree) :
    reached ending p = p.2 ∨ reached ending p = closeLoops ending p.2 := by
  rw [reached]
  split
  · exact .inl rfl
  · exact .inr rfl

private theorem isLoop_closeLoops (h : t.IsLoop) : (t.closeLoops ending).IsLoop := by
  obtain ⟨body, iter, orelse, target, rfl, hiter, htarget⟩ := h
  exact ⟨_, iter, orelse, target, closeLoops_loop body orelse iter target, hiter, htarget⟩

theorem closeLoops_branch (body orelse : List SourceTree) {test : SourceTree}
    (htest : test.IsBlockFree) :
    closeLoops ending (branchOf body orelse test) =
      branchOf (body.map (closeLoops ending)) (orelse.map (closeLoops ending)) test := by
  rw [closeLoops_node (by decide)]
  simp only [map_cons, map_nil, closeLoops_list, closeLoops_eq_self htest.1]

private theorem isBranch_closeLoops (h : t.IsBranch) : (t.closeLoops ending).IsBranch := by
  obtain ⟨body, orelse, test, rfl, htest⟩ := h
  exact ⟨_, _, test, closeLoops_branch body orelse htest, htest⟩

private theorem isComparison_closeLoops (h : t.IsComparison) :
    (t.closeLoops ending).IsComparison := by
  obtain ⟨comparators, left, ops, rfl⟩ := h
  rw [closeLoops_node (by decide)]
  exact ⟨_, _, _, by rw [map_cons, closeLoops_list]; rfl⟩

theorem isGrammatical_closeLoops (h : t.IsGrammatical) : (t.closeLoops ending).IsGrammatical := by
  constructor
  all_goals
    intro n hn
    rw [nodes_closeLoops (by decide) h] at hn
    obtain ⟨p, hp, rfl⟩ := mem_map.mp hn
  · have hloop := h.loops _ (mem_nodes_of_mem_placed hp)
    rcases reached_eq ending p with heq | heq <;> rw [heq]
    exacts [hloop, isLoop_closeLoops hloop]
  · have hbranch := h.branches _ (mem_nodes_of_mem_placed hp)
    rcases reached_eq ending p with heq | heq <;> rw [heq]
    exacts [hbranch, isBranch_closeLoops hbranch]
  · have hcomparison := h.comparisons _ (mem_nodes_of_mem_placed hp)
    rcases reached_eq ending p with heq | heq <;> rw [heq]
    exacts [hcomparison, isComparison_closeLoops hcomparison]

/-- No loop is in an else clause exactly if no loop has loops in its own. -/
private theorem forall_placed_iff (h : t.IsGrammatical) :
    (∀ p ∈ t.placed "For" false, p.1 = false) ↔
      ∀ loop ∈ t.nodes "For", (loop.field "orelse").nodes "For" = [] := by
  induction t using induct with
  | node k fields ih =>
    by_cases hfor : k = "For"
    · subst hfor
      obtain ⟨body, iter, orelse, target, hnode, hiter, htarget⟩ := h.loops _ (self_mem_nodes _ _)
      cases hnode
      have hbody := ih ("body", list body) (by simp) (h.entry (by simp))
      have helse : (∀ p ∈ (list orelse).placed "For" true, p.1 = false) ↔
          (list orelse).nodes "For" = [] := by
        rw [placed_true, forall_mem_map, eq_nil_iff_forall_not_mem]
        exact forall₂_congr fun _ _ => by simp
      have hself : (loopOf body iter orelse target).field "orelse" = list orelse := rfl
      rw [placed_loop, nodes_node, placed_eq_nil hiter.1, placed_eq_nil htarget.1]
      simp only [if_true, flatMap_cons, flatMap_nil, append_nil, nil_append,
        forall_mem_append, forall_mem_singleton, hself, hiter.1, htarget.1, hbody, helse]
      -- On the right, loops in the else clause are forbidden and asked about once more.
      constructor
      · rintro ⟨-, hloops, hnone⟩
        exact ⟨hnone, hloops, by simp [hnone]⟩
      · rintro ⟨hnone, hloops, -⟩
        exact ⟨trivial, hloops, hnone⟩
    · rw [placed_node, nodes_node]
      simp only [hfor, if_false, decide_false, Bool.false_and,
        Bool.or_false, nil_append, forall_mem_flatMap]
      exact forall₂_congr fun f hf => ih f hf (h.entry hf)
  | list items ih =>
    rw [placed_list, nodes_list]
    simp only [forall_mem_flatMap]
    exact forall₂_congr fun t ht => ih t ht (h.item ht)
  | leaf d => simp

end

/-! ## The pass over branches -/

abbrev ClosesTo (t u : SourceTree) : Prop := closeBranches t = .ok u

private theorem closeBranchesAll_eq (items : List SourceTree) :
    closeBranchesAll items = items.mapM closeBranches := by
  induction items with
  | nil => rfl
  | cons t items ih =>
    rw [closeBranchesAll, mapM_cons, ih]

theorem map_mk_eq_ok {x : Except Fault SourceTree} {name : String} {g : String × SourceTree} :
    x.map (Prod.mk name) = .ok g ↔ g.1 = name ∧ x = .ok g.2 := by
  rw [map_eq_ok]
  constructor
  · rintro ⟨t, ht, rfl⟩
    exact ⟨rfl, ht⟩
  · rintro ⟨rfl, hx⟩
    exact ⟨g.2, hx, rfl⟩

private theorem closeBranchesIn_eq_ok :
    closeBranchesIn fields = .ok fields' ↔ Forall₂ (EntryRel ClosesTo) fields fields' := by
  have hmapM : closeBranchesIn fields = fields.mapM fun f =>
      (closeBranches f.2).map (Prod.mk f.1) := by
    induction fields with
    | nil => rfl
    | cons f fields ih =>
      rw [closeBranchesIn, mapM_cons, ih]
      cases closeBranches f.2 <;> rfl
  simp only [hmapM, mapM_eq_ok_iff, map_mk_eq_ok]
  rfl

theorem closesTo_list {items : List SourceTree} :
    ClosesTo (list items) u ↔ ∃ items', u = list items' ∧ Forall₂ ClosesTo items items' := by
  rw [ClosesTo, closeBranches, closeBranchesAll_eq, bind_eq_ok]
  refine exists_congr fun items' => ?_
  rw [mapM_eq_ok_iff, and_comm]
  exact and_congr_left fun _ =>
    ⟨fun h => (Except.ok.inj h).symm, fun h => congrArg Except.ok h.symm⟩

theorem closesTo_leaf {d : Datum} : ClosesTo (leaf d) u ↔ u = leaf d := by
  rw [ClosesTo, closeBranches]
  exact ⟨fun h => (Except.ok.inj h).symm, fun h => congrArg Except.ok h.symm⟩

theorem closesTo_node (h : kind ≠ "If") : ClosesTo (node kind fields) u ↔
      ∃ fields', u = node kind fields' ∧ Forall₂ (EntryRel ClosesTo) fields fields' := by
  rw [ClosesTo, closeBranches, if_neg h, bind_eq_ok]
  refine exists_congr fun fields' => ?_
  rw [closeBranchesIn_eq_ok, and_comm]
  exact and_congr_left fun _ =>
    ⟨fun h => (Except.ok.inj h).symm, fun h => congrArg Except.ok h.symm⟩

def closeArm (f : String × SourceTree) : Except Fault SourceTree :=
  if f.1 = "test" then .ok f.2 else closeBranches f.2

private theorem closeArms_eq_ok : closeArms fields = .ok fields' ↔
      Forall₂ (fun f g => g.1 = f.1 ∧ closeArm f = .ok g.2) fields fields' := by
  have hmapM : closeArms fields = fields.mapM fun f => (closeArm f).map (Prod.mk f.1) := by
    induction fields with
    | nil => rfl
    | cons f fields ih =>
      rw [closeArms, mapM_cons, ih, closeArm]
      split
      · rfl
      · cases closeBranches f.2 <;> rfl
  simp only [hmapM, mapM_eq_ok_iff, map_mk_eq_ok]

def closedBranch (body orelse : List SourceTree) (test : SourceTree) : SourceTree :=
  if orelse.isEmpty then
    branchOf (body ++ [callStatement endBranchName, callStatement endIfName]) orelse test
  else
    branchOf (body ++ [callStatement endBranchName]) (callStatement elseName :: orelse ++
      [callStatement endBranchName, callStatement endIfName]) test

private theorem closeBranch_eq (body orelse : List SourceTree) (test : SourceTree) :
    closeBranch [("body", list body), ("orelse", list orelse), ("test", test)] =
      (wrapTest test).map (closedBranch body orelse) := by
  have htest : (branchOf body orelse test).field "test" = test := rfl
  rw [closeBranch, htest]
  cases wrapTest test <;> rfl

theorem closesTo_branch : ClosesTo (branchOf body orelse test) u ↔
      ∃ body' orelse' test', u = closedBranch body' orelse' test' ∧
        Forall₂ ClosesTo body body' ∧ Forall₂ ClosesTo orelse orelse' ∧
        wrapTest test = .ok test' := by
  rw [ClosesTo, closeBranches, if_pos rfl, bind_eq_ok]
  constructor
  · rintro ⟨arms, harms, hclosed⟩
    rw [closeArms_eq_ok] at harms
    obtain ⟨⟨_, b⟩, _, ⟨rfl, hb⟩, hrest, rfl⟩ := forall₂_cons_left_iff.mp harms
    obtain ⟨⟨_, e⟩, _, ⟨rfl, he⟩, hlast, rfl⟩ := forall₂_cons_left_iff.mp hrest
    obtain ⟨⟨_, t⟩, _, ⟨rfl, ht⟩, hnil, rfl⟩ := forall₂_cons_left_iff.mp hlast
    obtain rfl := forall₂_nil_left_iff.mp hnil
    obtain ⟨body', rfl, hbody⟩ := closesTo_list.mp hb
    obtain ⟨orelse', rfl, horelse⟩ := closesTo_list.mp he
    obtain rfl : test = t := Except.ok.inj ht
    rw [closeBranch_eq, map_eq_ok] at hclosed
    obtain ⟨test', htest, rfl⟩ := hclosed
    exact ⟨body', orelse', test', rfl, hbody, horelse, htest⟩
  · rintro ⟨body', orelse', test', rfl, hbody, horelse, htest⟩
    refine ⟨[("body", list body'), ("orelse", list orelse'), ("test", test)], ?_, ?_⟩
    · rw [closeArms_eq_ok]
      exact .cons ⟨rfl, closesTo_list.mpr ⟨_, rfl, hbody⟩⟩
        (.cons ⟨rfl, closesTo_list.mpr ⟨_, rfl, horelse⟩⟩ (.cons ⟨rfl, rfl⟩ .nil))
    · rw [closeBranch_eq, map_eq_ok]
      exact ⟨test', htest, rfl⟩

private theorem exists_closeBranch (h : closeBranch fields = .ok u) :
    ∃ fields', u = node "If" fields' := by
  rw [closeBranch] at h
  obtain ⟨test, -, hu⟩ := bind_eq_ok.mp h
  cases hu
  split
  · exact ⟨_, rfl⟩
  · exact ⟨_, rfl⟩

theorem isPass_closesTo : IsPass "If" ClosesTo where
  leaf := closesTo_leaf
  list h := closesTo_list.mp h
  node {kind fields u} h := by
    by_cases hkind : kind = "If"
    · rw [ClosesTo, closeBranches, if_pos hkind] at h
      obtain ⟨arms, -, hclosed⟩ := bind_eq_ok.mp h
      obtain ⟨fields', hu⟩ := exists_closeBranch hclosed
      exact ⟨fields', hkind ▸ hu, fun hne => absurd hkind hne⟩
    · obtain ⟨fields', hu, hfields⟩ := (closesTo_node hkind).mp h
      exact ⟨fields', hu, fun _ => hfields⟩

theorem closesTo_self (h : t.nodes "If" = []) : ClosesTo t t := by
  induction t using induct with
  | node kind fields ih =>
    rw [nodes_node, append_eq_nil_iff, flatMap_eq_nil_iff] at h
    have hkind : kind ≠ "If" := fun hif => by simp [hif] at h
    refine (closesTo_node hkind).mpr ⟨fields, rfl, ?_⟩
    exact forall₂_same.mpr fun f hf => ⟨rfl, ih f hf (h.2 f hf)⟩
  | list items ih =>
    rw [nodes_list, flatMap_eq_nil_iff] at h
    exact closesTo_list.mpr ⟨items, rfl, forall₂_same.mpr fun t ht => ih t ht (h t ht)⟩
  | leaf d => exact closesTo_leaf.mpr rfl

/-! ## Nodes after the pass over branches -/

private theorem nodes_eq_nil_of_field (h : t.nodes kind = []) (name : String) :
    (t.field name).nodes kind = [] :=
  eq_nil_iff_forall_not_mem.mpr fun _ hn => by simpa [h] using mem_nodes_of_field hn

theorem nodes_call (h : kind ∉ callKinds) (function : String) (args : List SourceTree) :
    (call function args).nodes kind = args.flatMap (nodes kind) := by
  simp only [callKinds, mem_cons, not_mem_nil, or_false, not_or] at h
  simp [call, name, nodes_node, nodes_list, Ne.symm h.2.1, Ne.symm h.2.2]

private theorem nodes_wrapName (h : kind ∉ callKinds) (t : SourceTree) :
    t.wrapName.nodes kind = t.nodes kind := by
  rw [wrapName]
  split
  · simp [nodes_call h]
  · rfl

private theorem nodes_wrapped (h : kind ∉ "Compare" :: callKinds) (htest : test.nodes kind = []) :
    test.wrapped.nodes kind = [] := by
  rw [mem_cons, not_or] at h
  obtain ⟨hcompare, hcall⟩ := h
  have hfield := nodes_eq_nil_of_field htest
  have hcomparators :
      ((test.field "comparators").items.map wrapName).flatMap (nodes kind) = [] := by
    rw [flatMap_map, flatMap_eq_nil_iff]
    intro c hc
    rw [nodes_wrapName hcall]
    exact eq_nil_iff_forall_not_mem.mpr fun _ hn => by
      simpa [hfield "comparators"] using mem_nodes_of_item hc hn
  simp [wrapped, nodes_call hcall, nodes_node, nodes_list, Ne.symm hcompare, hcomparators, hfield]

private theorem nodes_closedBranch (h : kind ∉ callKinds) (body orelse : List SourceTree)
    (test : SourceTree) :
    (closedBranch body orelse test).nodes kind =
      (if "If" = kind then [closedBranch body orelse test] else []) ++
        ((list body).nodes kind ++ ((list orelse).nodes kind ++ test.nodes kind)) := by
  rw [closedBranch]
  split <;> rw [nodes_node] <;> simp [nodes_list, nodes_callStatement h]

private theorem ClosesTo.nodes (hkind : kind = "For" ∨ kind = "If") (h : t.IsGrammatical)
    (htu : ClosesTo t u) : Forall₂ ClosesTo (t.nodes kind) (u.nodes kind) := by
  have hcall : kind ∉ "Compare" :: callKinds := by
    rcases hkind with rfl | rfl <;> decide
  induction t using induct generalizing u with
  | node k fields ih =>
    have hhead (htu : ClosesTo (node k fields) u) : Forall₂ ClosesTo
        (if k = kind then [node k fields] else []) (if k = kind then [u] else []) := by
      split
      · exact .cons htu .nil
      · exact .nil
    by_cases hif : k = "If"
    · subst hif
      obtain ⟨body, orelse, test, hnode, htest⟩ := h.branches _ (self_mem_nodes _ _)
      cases hnode
      obtain ⟨body', orelse', test', rfl, hbody, horelse, hwrap⟩ := closesTo_branch.mp htu
      obtain ⟨-, -, rfl⟩ := wrapTest_eq_ok hwrap
      -- A test has no blocks, wrapped or not, so only the arms count.
      have htestNone : test.nodes kind = [] := by
        rcases hkind with rfl | rfl
        exacts [htest.1, htest.2]
      rw [nodes_closedBranch (fun h => hcall (mem_cons_of_mem _ h)),
        nodes_wrapped hcall htestNone, nodes_node]
      refine rel_append (hhead htu) ?_
      simp only [flatMap_cons, flatMap_nil, htestNone]
      refine rel_append ?_ (rel_append ?_ .nil)
      · exact ih ("body", list body) (by simp) (h.entry (by simp))
          (closesTo_list.mpr ⟨_, rfl, hbody⟩)
      · exact ih ("orelse", list orelse) (by simp) (h.entry (by simp))
          (closesTo_list.mpr ⟨_, rfl, horelse⟩)
    · obtain ⟨fields', rfl, hfields⟩ := (closesTo_node hif).mp htu
      rw [nodes_node, nodes_node]
      refine rel_append (hhead htu) (forall₂_flatMap ?_)
      exact forall₂_imp_mem hfields fun f hf g hfg => ih f hf (h.entry hf) hfg.2
  | list items ih =>
    obtain ⟨items', rfl, hitems⟩ := closesTo_list.mp htu
    rw [nodes_list, nodes_list]
    exact forall₂_flatMap (forall₂_imp_mem hitems fun t ht u htu => ih t ht (h.item ht) htu)
  | leaf d =>
    rw [closesTo_leaf.mp htu]
    exact .nil

/-! ## Loops and branches that are closed -/

/-- As many statements as before, and those that call a function without arguments call the same. -/
def Keeps (before after : List SourceTree) : Prop :=
  after.map calledFunction? = before.map calledFunction?

theorem Keeps.trans {zs : List SourceTree} (h : Keeps xs ys) (h' : Keeps ys zs) : Keeps xs zs :=
  Eq.trans h' h

theorem Keeps.length_eq (h : Keeps xs ys) : ys.length = xs.length := by
  simpa using congrArg length h

theorem keeps_closeLoops (ending : String) (items : List SourceTree) :
    Keeps items (items.map (closeLoops ending)) := by
  rw [Keeps, map_map]
  exact map_congr_left fun t _ =>
    (isPass_closeLoops ending).calledFunction?_eq rfl (by decide) (by decide) (by decide)

theorem keeps_of_closesTo (h : Forall₂ ClosesTo xs ys) : Keeps xs ys :=
  map_eq_map_of_forall₂ h fun _ _ htu =>
    isPass_closesTo.calledFunction?_eq htu (by decide) (by decide) (by decide)

/-- The body of a loop has got the call that ends it as its last statement, and nothing else. -/
def IsClosedLoop (ending : String) (loop closed : SourceTree) : Prop :=
  ∃ kept, (closed.field "body").items = kept ++ [callStatement ending] ∧
    Keeps (loop.field "body").items kept

/-- A branch without an else part has got the calls that end the arm and the branch at the end of
its body.  With an else part, they are at the end of that, which starts with a call too, and the
body has got only the call that ends the arm. -/
def IsClosedBranch (branch closed : SourceTree) : Prop :=
  ∃ body orelse, Keeps (branch.field "body").items body ∧
    Keeps (branch.field "orelse").items orelse ∧
    ((branch.field "orelse").items = [] →
      (closed.field "body").items = body ++ [callStatement endBranchName, callStatement endIfName] ∧
      (closed.field "orelse").items = []) ∧ ((branch.field "orelse").items ≠ [] →
        (closed.field "body").items = body ++ [callStatement endBranchName] ∧
      (closed.field "orelse").items = callStatement elseName :: orelse ++
        [callStatement endBranchName, callStatement endIfName])

theorem closesTo_body {iter target : SourceTree} (h : ClosesTo (loopOf body iter orelse target) u) :
    Forall₂ ClosesTo body (u.field "body").items :=
  isPass_closesTo.items (isPass_closesTo.field h rfl "body")

private theorem IsLoop.isClosedLoop (hloop : loop.IsLoop)
    (h : ClosesTo (loop.closeLoops ending) u) :
    IsClosedLoop ending loop u := by
  obtain ⟨body, iter, orelse, target, rfl, -, -⟩ := hloop
  rw [closeLoops_loop] at h
  obtain ⟨kept, last, hitems, hkept, hlast⟩ := forall₂_append_left (closesTo_body h)
  have hmark : ClosesTo (callStatement ending) (callStatement ending) :=
    closesTo_self (nodes_callStatement (by decide) ending)
  obtain ⟨t, rest, ht, hrest, rfl⟩ := forall₂_cons_left_iff.mp hlast
  obtain rfl := forall₂_nil_left_iff.mp hrest
  obtain rfl : callStatement ending = t := Except.ok.inj (hmark.symm.trans ht)
  exact ⟨kept, hitems, (keeps_closeLoops ending body).trans (keeps_of_closesTo hkept)⟩

theorem IsLoop.not_isClosedLoop (hloop : loop.IsLoop) (h : ClosesTo loop u) :
    ¬ IsClosedLoop ending loop u := by
  obtain ⟨body, iter, orelse, target, rfl, -, -⟩ := hloop
  rintro ⟨kept, hitems, hkept⟩
  have hlength := (closesTo_body h).length_eq
  have hkept : kept.length = body.length := hkept.length_eq
  rw [hitems, length_append, hkept] at hlength
  simp at hlength

private theorem isClosedBranch_closedBranch {body' orelse' : List SourceTree} {test' : SourceTree}
    (hbody : Keeps body body') (horelse : Keeps orelse orelse') :
    IsClosedBranch (branchOf body orelse test) (closedBranch body' orelse' test') := by
  have hempty : orelse'.isEmpty = orelse.isEmpty := by
    rw [Bool.eq_iff_iff, isEmpty_iff_length_eq_zero, isEmpty_iff_length_eq_zero, horelse.length_eq]
  refine ⟨body', orelse', hbody, horelse, ?_, ?_⟩
  · intro hnone
    obtain rfl : orelse = [] := hnone
    obtain rfl : orelse' = [] := isEmpty_iff.mp hempty
    exact ⟨rfl, rfl⟩
  · intro hsome
    have hnot : orelse'.isEmpty = false := hempty.trans (isEmpty_eq_false_iff.mpr hsome)
    rw [closedBranch, if_neg (by simp [hnot])]
    exact ⟨rfl, rfl⟩

private theorem IsBranch.isClosedBranch {p : Bool × SourceTree} (hbranch : p.2.IsBranch)
    (h : ClosesTo (reached ending p) u) : IsClosedBranch p.2 u := by
  obtain ⟨inElse, branch⟩ := p
  obtain ⟨body, orelse, test, rfl, htest⟩ := hbranch
  cases inElse with
  | true =>
    obtain ⟨body', orelse', test', rfl, hbody, horelse, -⟩ := closesTo_branch.mp h
    exact isClosedBranch_closedBranch (keeps_of_closesTo hbody) (keeps_of_closesTo horelse)
  | false =>
    have h : ClosesTo (closeLoops ending _) u := h
    rw [closeLoops_branch body orelse htest] at h
    obtain ⟨body', orelse', test', rfl, hbody, horelse, -⟩ := closesTo_branch.mp h
    exact isClosedBranch_closedBranch ((keeps_closeLoops ending body).trans
      (keeps_of_closesTo hbody))
      ((keeps_closeLoops ending orelse).trans (keeps_of_closesTo horelse))

/-- After both passes every branch is closed, and a loop is closed if and only if it is not in the
else clause of another loop.  So all loops are closed exactly where no loop has loops in its else
clause. -/
theorem blocks_closed_iff {ending : String} {t u : SourceTree}
    (hgrammar : t.IsGrammatical) (h : closeBranches (closeLoops ending t) = .ok u) :
    Forall₂ IsClosedBranch (t.nodes "If") (u.nodes "If") ∧
    Forall₂ (fun p closed => IsClosedLoop ending p.2 closed ↔ p.1 = false) (t.placed "For" false)
      (u.nodes "For") ∧
    (Forall₂ (IsClosedLoop ending) (t.nodes "For") (u.nodes "For") ↔
      ∀ loop ∈ t.nodes "For", (loop.field "orelse").nodes "For" = []) := by
  -- A node after both passes comes from one node before, whether the first pass reached it or not.
  have hnodes (kind : String) (hkind : kind = "For" ∨ kind = "If") (hcall : kind ∉ callKinds) :
      Forall₂ (fun p n => ClosesTo (reached ending p) n) (t.placed kind false) (u.nodes kind) := by
    rw [← forall₂_map_left_iff, ← nodes_closeLoops hcall hgrammar]
    exact ClosesTo.nodes hkind (isGrammatical_closeLoops hgrammar) h
  have hloops : Forall₂ (fun p closed => IsClosedLoop ending p.2 closed ↔ p.1 = false)
      (t.placed "For" false) (u.nodes "For") := by
    refine forall₂_imp_mem (hnodes "For" (.inl rfl) (by decide)) fun p hp n hn => ?_
    have hloop := hgrammar.loops _ (mem_nodes_of_mem_placed hp)
    obtain ⟨inElse, loop⟩ := p
    cases inElse with
    | true => exact iff_of_false (hloop.not_isClosedLoop hn) (by simp)
    | false => exact iff_of_true (hloop.isClosedLoop hn) rfl
  refine ⟨?_, hloops, ?_⟩
  · rw [← map_snd_placed "If" false t, forall₂_map_left_iff]
    exact forall₂_imp_mem (hnodes "If" (.inr rfl) (by decide)) fun p hp n hn =>
      (hgrammar.branches _ (mem_nodes_of_mem_placed hp)).isClosedBranch hn
  · rw [← forall_placed_iff hgrammar, ← map_snd_placed "For" false t, forall₂_map_left_iff]
    exact forall₂_iff_forall_mem hloops

/-! ## Programs -/

def eightTimes (counter : String) (body orelse : List SourceTree) : SourceTree :=
  loopOf body (call "range" [constant (.int 8)]) orelse (name counter)

def ifBelow (left right : String) (body orelse : List SourceTree) : SourceTree :=
  branchOf body orelse (comparisonOf [name right] (name left) (list [node "Lt" []]))

def functionOf (body : List SourceTree) : SourceTree :=
  node "FunctionDef" [("args", node "arguments" [("args", list []), ("defaults", list []),
      ("kw_defaults", list []), ("kwarg", leaf .null), ("kwonlyargs", list []),
        ("posonlyargs", list []),
      ("vararg", leaf .null)]),
    ("body", list body), ("decorator_list", list []), ("name", leaf (.str "f")),
      ("returns", leaf .null)]

def pass : SourceTree := node "Pass" []

theorem isLoop_eightTimes (counter : String) (body orelse : List SourceTree) :
    (eightTimes counter body orelse).IsLoop :=
  ⟨body, _, orelse, _, rfl, ⟨rfl, rfl⟩, ⟨rfl, rfl⟩⟩

private theorem isBranch_ifBelow (left right : String) (body orelse : List SourceTree) :
    (ifBelow left right body orelse).IsBranch :=
  ⟨body, orelse, _, rfl, ⟨rfl, rfl⟩⟩

def nestedSource : SourceTree :=
  functionOf [eightTimes "i" [ifBelow "i" "n" [eightTimes "j" [pass] []] [eightTimes "k" [pass] []],
    ifBelow "n" "i" [pass] []] []]

theorem isGrammatical_nestedSource : nestedSource.IsGrammatical where
  loops n hn := by
    rcases mem_cons.mp hn with rfl | hn
    · exact isLoop_eightTimes ..
    rcases mem_cons.mp hn with rfl | hn
    · exact isLoop_eightTimes ..
    · obtain rfl := mem_singleton.mp hn
      exact isLoop_eightTimes ..
  branches n hn := by
    rcases mem_cons.mp hn with rfl | hn
    · exact isBranch_ifBelow ..
    · obtain rfl := mem_singleton.mp hn
      exact isBranch_ifBelow ..
  comparisons n hn := by
    rcases mem_cons.mp hn with rfl | hn
    · exact ⟨_, _, _, rfl⟩
    · obtain rfl := mem_singleton.mp hn
      exact ⟨_, _, _, rfl⟩

theorem nestedSource_closed :
    nestedSource.IsGrammatical ∧ ∃ u, closeBranches (closeLoops "end_for" nestedSource) = .ok u ∧
      Forall₂ IsClosedBranch (nestedSource.nodes "If") (u.nodes "If") ∧
      Forall₂ (IsClosedLoop "end_for") (nestedSource.nodes "For") (u.nodes "For") := by
  obtain ⟨hbranches, -, hloops⟩ := blocks_closed_iff isGrammatical_nestedSource rfl
  refine ⟨isGrammatical_nestedSource, _, rfl, hbranches, hloops.mpr ?_⟩
  intro loop hloop
  rcases mem_cons.mp hloop with rfl | hloop
  · rfl
  rcases mem_cons.mp hloop with rfl | hloop
  · rfl
  · obtain rfl := mem_singleton.mp hloop
    rfl

def elseSource : SourceTree := functionOf [eightTimes "i" [pass] [eightTimes "j" [pass] []]]

private theorem isGrammatical_elseSource : elseSource.IsGrammatical where
  loops n hn := by
    rcases mem_cons.mp hn with rfl | hn
    · exact isLoop_eightTimes ..
    · obtain rfl := mem_singleton.mp hn
      exact isLoop_eightTimes ..
  branches n hn := nomatch hn
  comparisons n hn := nomatch hn

/-- The loop in the else clause is left open. -/
theorem elseSource_unclosed :
    elseSource.IsGrammatical ∧ ∃ u, closeBranches (closeLoops "end_for" elseSource) = .ok u ∧
      ¬ Forall₂ (IsClosedLoop "end_for") (elseSource.nodes "For") (u.nodes "For") := by
  refine ⟨isGrammatical_elseSource, _, rfl, fun h => ?_⟩
  have hinner := (forall₂_cons.mp (forall₂_cons.mp h).2).1
  exact (isLoop_eightTimes "j" [pass] []).not_isClosedLoop (closesTo_self rfl) hinner

end SourceTree

end Polyloom
