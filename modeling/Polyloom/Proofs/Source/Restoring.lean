import Polyloom.Proofs.Source.Closing

/-!
# Restored programs

A traced function is its source with calls added.  `restore` takes them out again: the statements
that end loops and branches, the wrappers in the tests of branches and the final return.  What is
left is the source, provided that it did not mention the names of these calls itself.
-/

namespace Polyloom

open List

variable {function kind : String} {items : List SourceTree}

namespace SourceTree

variable {t test : SourceTree}

/-! ## Taking the calls out -/

def markNames (ending : String) : List String := [ending, elseName, endBranchName, endIfName]

def isMark (ending : String) (t : SourceTree) : Bool :=
  t.calledFunction?.any fun function => function ∈ markNames ending

def argumentOf? (function : String) (t : SourceTree) : Option SourceTree :=
  t.plainCall?.bind fun c => if c.1 = function && c.2.length = 1 then c.2.head? else none

mutual

def unwrap : SourceTree → SourceTree
  | .node kind fields =>
    -- The parts come first, so that a wrapper in a wrapper goes too.
    let t := SourceTree.node kind (unwrapIn fields)
    (argumentOf? wrapperName t).getD t
  | .list items => .list (unwrapAll items)
  | .leaf d => .leaf d

def unwrapIn : List (String × SourceTree) → List (String × SourceTree)
  | [] => []
  | (field, t) :: rest => (field, unwrap t) :: unwrapIn rest

def unwrapAll : List SourceTree → List SourceTree
  | [] => []
  | t :: rest => unwrap t :: unwrapAll rest

end

def unwrapTest (test : SourceTree) : SourceTree :=
  ((argumentOf? testName test).map unwrap).getD test

mutual

/-- A tree without the statements that were put in, and with the tests of its branches unwrapped. -/
def erase (ending : String) : SourceTree → SourceTree
  | .node kind fields => .node kind (eraseIn ending (kind = "If") fields)
  | .list items => .list (eraseAll ending items)
  | .leaf d => .leaf d

def eraseIn (ending : String) (isBranch : Bool) :
    List (String × SourceTree) → List (String × SourceTree)
  | [] => []
  | (field, t) :: rest =>
    (field, if isBranch && field = "test" then unwrapTest t else erase ending t) ::
      eraseIn ending isBranch rest

def eraseAll (ending : String) : List SourceTree → List SourceTree
  | [] => []
  | t :: rest =>
    if isMark ending t then eraseAll ending rest else erase ending t :: eraseAll ending rest

end

def isNothing : SourceTree → Bool
  | .leaf .null => true
  | _ => false

def isReturnNothing (t : SourceTree) : Bool :=
  t.isKind "Return" && (t.field "value").isKind "Constant" &&
    ((t.field "value").field "value").isNothing

def dropReturn : SourceTree → SourceTree
  | .list items => .list (if items.getLast?.any isReturnNothing then items.dropLast else items)
  | t => t

def dropFinalReturn : SourceTree → SourceTree
  | .node kind fields =>
    .node kind (fields.map fun f => (f.1, if f.1 = "body" then dropReturn f.2 else f.2))
  | t => t

/-- The source of a traced function. -/
def restore (ending : String) (f : SourceTree) : SourceTree := dropFinalReturn (erase ending f)

def insertedNames (ending : String) : List String := testName :: wrapperName :: markNames ending

/-! ## Unwrapping -/

theorem unwrapIn_eq (fields : List (String × SourceTree)) :
    unwrapIn fields = fields.map fun f => (f.1, unwrap f.2) := by
  induction fields with
  | nil => rfl
  | cons f fields ih => rw [unwrapIn, ih, map_cons]

private theorem unwrapAll_eq (items : List SourceTree) : unwrapAll items = items.map unwrap := by
  induction items with
  | nil => rfl
  | cons t items ih => rw [unwrapAll, ih, map_cons]

theorem unwrap_list (items : List SourceTree) : unwrap (list items) = list (items.map unwrap) := by
  rw [unwrap, unwrapAll_eq]

private theorem argumentOf?_call (function : String) (t : SourceTree) :
    argumentOf? function (call function [t]) = some t := by
  simp [argumentOf?, plainCall?_call]

theorem argumentOf?_eq_none (h : ¬ t.Mentions function) : argumentOf? function t = none := by
  rw [argumentOf?]
  cases hcall : t.plainCall? with
  | none => rfl
  | some c =>
    have hne : c.1 ≠ function := fun heq => h (heq ▸ mentions_of_plainCall? hcall)
    simp [hne]

private theorem unwrap_eq_self (h : ¬ t.Mentions wrapperName) : unwrap t = t := by
  induction t using induct with
  | node kind fields ih =>
    have hfields : unwrapIn fields = fields := by
      rw [unwrapIn_eq]
      exact map_eq_self fun f hf => Prod.ext rfl (ih f hf fun hm => h (hm.of_entry hf))
    rw [unwrap, hfields, argumentOf?_eq_none h]
    rfl
  | list items ih =>
    rw [unwrap_list]
    exact congrArg list (map_eq_self fun t ht => ih t ht fun hm => h (hm.of_item ht))
  | leaf d => rfl

theorem unwrap_call (t : SourceTree) : unwrap (call wrapperName [t]) = unwrap t := rfl

private theorem unwrap_wrapName (t : SourceTree) : unwrap (wrapName t) = unwrap t := by
  rw [wrapName]
  split
  · exact unwrap_call t
  · rfl

private theorem unwrap_comparison (comparators : List SourceTree) (left ops : SourceTree) :
    unwrap (comparisonOf comparators left ops) =
      comparisonOf (comparators.map unwrap) (unwrap left) (unwrap ops) := by
  rw [unwrap, unwrapIn_eq]
  simp only [map_cons, map_nil, unwrap_list]
  rfl

private theorem unwrapTest_wrapped (h : test.IsComparison) (hfree : ¬ test.Mentions wrapperName) :
    unwrapTest test.wrapped = test := by
  obtain ⟨comparators, left, ops, rfl⟩ := h
  have hself := unwrap_eq_self hfree
  rw [unwrap_comparison] at hself
  have hcomparators : comparators.map (unwrap ∘ wrapName) = comparators.map unwrap :=
    map_congr_left fun c _ => unwrap_wrapName c
  have hwrapped : wrapped (comparisonOf comparators left ops) =
    call testName [comparisonOf (comparators.map wrapName) (call wrapperName [left]) ops] := rfl
  rw [hwrapped, unwrapTest, argumentOf?_call, Option.map_some, Option.getD_some, unwrap_comparison,
    unwrap_call, map_map, hcomparators]
  exact hself

private theorem unwrapTest_comparison (h : test.isKind "Compare" = true) :
    unwrapTest test = test := by
  have hcall : test.isKind "Call" = false := isKind_eq_false h (by decide)
  simp [unwrapTest, argumentOf?, plainCall?, hcall]

private theorem unwrapTest_eq_self (h : ¬ test.Mentions testName) : unwrapTest test = test := by
  rw [unwrapTest, argumentOf?_eq_none h]
  rfl

/-! ## Erasing -/

section

variable {ending : String} {t : SourceTree}

theorem eraseIn_eq (ending : String) (isBranch : Bool) (fields : List (String × SourceTree)) :
    eraseIn ending isBranch fields = fields.map fun f =>
      (f.1, if isBranch && f.1 = "test" then unwrapTest f.2 else erase ending f.2) := by
  induction fields with
  | nil => rfl
  | cons f fields ih => rw [eraseIn, ih, map_cons]

private theorem eraseAll_eq (ending : String) (items : List SourceTree) :
    eraseAll ending items = (items.filter fun t => !isMark ending t).map (erase ending) := by
  induction items with
  | nil => rfl
  | cons t items ih =>
    rw [eraseAll, ih]
    cases h : isMark ending t <;> simp [h]

theorem erase_node (h : kind ≠ "If") (fields : List (String × SourceTree)) :
    erase ending (node kind fields) = node kind (fields.map fun f => (f.1, erase ending f.2)) := by
  rw [erase, eraseIn_eq]
  simp [h]

theorem erase_branch (body orelse test : SourceTree) :
    erase ending (node "If" [("body", body), ("orelse", orelse), ("test", test)]) =
      node "If" [("body", erase ending body),
        ("orelse", erase ending orelse), ("test", unwrapTest test)] := by
  rw [erase, eraseIn_eq]
  rfl

theorem erase_list (ending : String) (items : List SourceTree) : erase ending (list items) =
    list ((items.filter fun t => !isMark ending t).map (erase ending)) := by
  rw [erase, eraseAll_eq]

theorem isMark_callStatement (h : function ∈ markNames ending) :
    isMark ending (callStatement function) = true := by
  simp [isMark, calledFunction?_callStatement, h]

private theorem isMark_eq_false (h : ∀ id ∈ markNames ending, ¬ t.Mentions id) :
    isMark ending t = false := by
  rw [isMark]
  cases hcalled : t.calledFunction? with
  | none => rfl
  | some function =>
    have hnot : function ∉ markNames ending :=
      fun hmem => h _ hmem (mentions_of_calledFunction? hcalled)
    simp [hnot]

private theorem erase_cons_mark (h : isMark ending t = true) (items : List SourceTree) :
    erase ending (list (t :: items)) = erase ending (list items) := by
  rw [erase_list, erase_list, filter_cons_of_neg (by simp [h])]

theorem erase_append_marks {marks : List SourceTree} (h : ∀ t ∈ marks, isMark ending t = true)
    (items : List SourceTree) :
    erase ending (list (items ++ marks)) = erase ending (list items) := by
  have hnone : marks.filter (fun t => !isMark ending t) = [] :=
    filter_eq_nil_iff.mpr fun t ht => by simp [h t ht]
  rw [erase_list, erase_list, filter_append, hnone, append_nil]

theorem erase_list_congr {items' : List SourceTree} (h : Forall₂ (fun t u =>
      u.calledFunction? = t.calledFunction? ∧ erase ending u = erase ending t) items items') :
    erase ending (list items') = erase ending (list items) := by
  rw [erase_list, erase_list]
  congr 1
  induction h with
  | nil => rfl
  | @cons t u _ _ htu _ ih =>
    have hmark : isMark ending u = isMark ending t := by rw [isMark, isMark, htu.1]
    rw [filter_cons, filter_cons, hmark]
    split
    · rw [map_cons, map_cons, htu.2, ih]
    · exact ih

private theorem erase_eq_self (h : ∀ id ∈ insertedNames ending, ¬ t.Mentions id) :
    erase ending t = t := by
  induction t using induct with
  | node kind fields ih =>
    have hentry (f : String × SourceTree) (hf : f ∈ fields) :
        ∀ id ∈ insertedNames ending, ¬ f.2.Mentions id := fun id hid hm => h id hid (hm.of_entry hf)
    have hfields : eraseIn ending (kind = "If") fields = fields := by
      rw [eraseIn_eq]
      refine map_eq_self fun f hf => Prod.ext rfl ?_
      dsimp only
      split
      · exact unwrapTest_eq_self (hentry f hf _ (by simp [insertedNames]))
      · exact ih f hf (hentry f hf)
    rw [erase, hfields]
  | list items ih =>
    have hitem (t : SourceTree) (ht : t ∈ items) : ∀ id ∈ insertedNames ending, ¬ t.Mentions id :=
      fun id hid hm => h id hid (hm.of_item ht)
    have hmarks : items.filter (fun t => !isMark ending t) = items :=
      filter_eq_self.mpr fun t ht => by
        rw [isMark_eq_false fun id hid => hitem t ht id (by simp [insertedNames, hid])]
        rfl
    rw [erase_list, hmarks]
    exact congrArg list (map_eq_self fun t ht => ih t ht (hitem t ht))
  | leaf d => rfl

/-! ## What the passes put in -/

private theorem erase_closeLoops (h : t.IsGrammatical) :
    erase ending (closeLoops ending t) = erase ending t := by
  induction t using induct with
  | node kind fields ih =>
    by_cases hfor : kind = "For"
    · subst hfor
      obtain ⟨body, iter, orelse, target, hnode, -, -⟩ := h.loops _ (self_mem_nodes _ _)
      cases hnode
      have hbody := ih ("body", list body) (by simp) (h.entry (by simp))
      rw [closeLoops_list] at hbody
      have hmark : ∀ t ∈ [callStatement ending], isMark ending t = true :=
        forall_mem_singleton.mpr (isMark_callStatement (by simp [markNames]))
      have hclosed := erase_append_marks hmark (body.map (closeLoops ending))
      -- The pass changes no other field of a loop, its else clause included.
      rw [closeLoops_loop, erase_node (by decide), erase_node (by decide)]
      simp only [map_cons, map_nil, hclosed, hbody]
    by_cases hif : kind = "If"
    · subst hif
      obtain ⟨body, orelse, test, hnode, htest⟩ := h.branches _ (self_mem_nodes _ _)
      cases hnode
      have hbody := ih ("body", list body) (by simp) (h.entry (by simp))
      have horelse := ih ("orelse", list orelse) (by simp) (h.entry (by simp))
      rw [closeLoops_list] at hbody horelse
      rw [closeLoops_branch body orelse htest, erase_branch, erase_branch, hbody, horelse]
    · rw [closeLoops_node hfor, erase_node hif, erase_node hif, map_map]
      congr 1
      exact map_congr_left fun f hf => Prod.ext rfl (ih f hf (h.entry hf))
  | list items ih =>
    rw [closeLoops_list]
    refine erase_list_congr (forall₂_map_right_iff.mpr (forall₂_same.mpr fun t ht => ?_))
    exact ⟨(isPass_closeLoops ending).calledFunction?_eq rfl (by decide) (by decide) (by decide),
      ih t ht (h.item ht)⟩
  | leaf d => rw [closeLoops_leaf]

def HasPlainTests (t : SourceTree) : Prop :=
  ∀ branch ∈ t.nodes "If", ¬ (branch.field "test").Mentions wrapperName

private theorem hasPlainTests_of_not_mentions (h : ¬ t.Mentions wrapperName) : t.HasPlainTests :=
  fun _ hbranch hm => h (hm.of_field.of_subset fun _ hn => mem_nodes_trans hbranch hn)

private theorem HasPlainTests.entry {fields : List (String × SourceTree)}
    (h : (node kind fields).HasPlainTests) {f : String × SourceTree} (hf : f ∈ fields) :
    f.2.HasPlainTests :=
  fun branch hbranch => h branch (mem_nodes_of_entry hf hbranch)

private theorem HasPlainTests.item (h : (list items).HasPlainTests) (ht : t ∈ items) :
    t.HasPlainTests :=
  fun branch hbranch => h branch (mem_nodes_of_item (t := list items) ht hbranch)

private theorem hasPlainTests_closeLoops (hgrammar : t.IsGrammatical) (h : t.HasPlainTests) :
    (closeLoops ending t).HasPlainTests := by
  intro branch hbranch
  rw [nodes_closeLoops (by decide) hgrammar] at hbranch
  obtain ⟨p, hp, rfl⟩ := mem_map.mp hbranch
  have hmem := mem_nodes_of_mem_placed hp
  have htest : (reached ending p).field "test" = p.2.field "test" := by
    rcases reached_eq ending p with heq | heq <;> rw [heq]
    obtain ⟨body, orelse, test, hnode, hblockFree⟩ := hgrammar.branches _ hmem
    rw [hnode, closeLoops_branch body orelse hblockFree]
    rfl
  rw [htest]
  exact h p.2 hmem

private theorem erase_closedBranch (body orelse : List SourceTree) (test : SourceTree) :
    erase ending (closedBranch body orelse test) =
      node "If" [("body", erase ending (list body)), ("orelse", erase ending (list orelse)),
        ("test", unwrapTest test)] := by
  have helse : isMark ending (callStatement elseName) = true :=
    isMark_callStatement (by simp [markNames])
  have hendBranch : isMark ending (callStatement endBranchName) = true :=
    isMark_callStatement (by simp [markNames])
  have hendIf : isMark ending (callStatement endIfName) = true :=
    isMark_callStatement (by simp [markNames])
  rw [closedBranch]
  split
  · rw [erase_branch, erase_append_marks (by simp [hendBranch, hendIf])]
  · rw [erase_branch, erase_append_marks (by simp [hendBranch]),
      erase_append_marks (by simp [hendBranch, hendIf]), erase_cons_mark helse]

private theorem erase_of_closesTo {u : SourceTree} (hgrammar : t.IsGrammatical)
    (hplain : t.HasPlainTests) (h : ClosesTo t u) : erase ending u = erase ending t := by
  induction t using induct generalizing u with
  | node kind fields ih =>
    by_cases hif : kind = "If"
    · subst hif
      have htest := hplain _ (self_mem_nodes _ _)
      obtain ⟨body, orelse, test, hnode, -⟩ := hgrammar.branches _ (self_mem_nodes _ _)
      cases hnode
      obtain ⟨body', orelse', test', rfl, hbody, horelse, hwrap⟩ := closesTo_branch.mp h
      obtain ⟨hchecked, -, rfl⟩ := wrapTest_eq_ok hwrap
      have hcompare : test.isKind "Compare" = true := by
        simp only [isChecked, Bool.and_eq_true] at hchecked
        exact hchecked.1.1
      have hcomparison : test.IsComparison := hgrammar.comparisons _
        (mem_nodes_of_entry (f := ("test", test)) (by simp) (mem_nodes_of_isKind hcompare))
      have hbody' :=
        ih ("body", list body) (by simp) (hgrammar.entry (by simp)) (hplain.entry (by simp))
        (closesTo_list.mpr ⟨_, rfl, hbody⟩)
      have horelse' := ih ("orelse", list orelse) (by simp) (hgrammar.entry (by simp))
        (hplain.entry (by simp)) (closesTo_list.mpr ⟨_, rfl, horelse⟩)
      -- Only comparisons are wrapped: the test itself calls nothing that could be taken for a
      -- wrapper.
      rw [erase_closedBranch, erase_branch, hbody', horelse', unwrapTest_wrapped hcomparison htest,
        unwrapTest_comparison hcompare]
    · obtain ⟨fields', rfl, hfields⟩ := (closesTo_node hif).mp h
      rw [erase_node hif, erase_node hif]
      congr 1
      refine map_eq_map_of_forall₂ (forall₂_imp_mem hfields fun f hf g hfg => ?_) fun _ _ heq => heq
      exact Prod.ext hfg.1 (ih f hf (hgrammar.entry hf) (hplain.entry hf) hfg.2)
  | list items ih =>
    obtain ⟨items', rfl, hitems⟩ := closesTo_list.mp h
    refine erase_list_congr (forall₂_imp_mem hitems fun t ht u htu => ?_)
    exact ⟨isPass_closesTo.calledFunction?_eq htu (by decide) (by decide) (by decide),
      ih t ht (hgrammar.item ht) (hplain.item ht) htu⟩
  | leaf d => rw [closesTo_leaf.mp h]

/-! ## Final returns -/

private theorem dropReturn_surround (t : SourceTree) :
    dropReturn (surround [] [returnNothing] t) = t := by
  cases t with
  | list items =>
    have hlast : isReturnNothing returnNothing = true := rfl
    simp [surround, dropReturn, hlast]
  | _ => rfl

private theorem dropFinalReturn_endWith (t : SourceTree) :
    dropFinalReturn (endWith returnNothing t) = t := by
  cases t with
  | node kind fields =>
    rw [endWith, dropFinalReturn, map_map]
    refine congrArg (node kind) (map_eq_self fun f _ => Prod.ext rfl ?_)
    by_cases hbody : f.1 = "body"
    · simp [hbody, dropReturn_surround]
    · simp [hbody]
  | _ => rfl

private theorem erase_surround (t : SourceTree) :
    erase ending (surround [] [returnNothing] t) =
      surround [] [returnNothing] (erase ending t) := by
  cases t with
  | list items =>
    have hmark : isMark ending returnNothing = false := rfl
    have hself : erase ending returnNothing = returnNothing := rfl
    simp [surround, erase_list, filter_append, hmark, hself]
  | _ => rfl

private theorem erase_endWith (h : t.isKind "If" = false) :
    erase ending (endWith returnNothing t) = endWith returnNothing (erase ending t) := by
  cases t with
  | node kind fields =>
    have hkind : kind ≠ "If" := of_decide_eq_false h
    rw [endWith, erase_node hkind, erase_node hkind, endWith, map_map, map_map]
    congr 1
    refine map_congr_left fun f _ => Prod.ext rfl ?_
    by_cases hbody : f.1 = "body"
    · simp [hbody, erase_surround]
    · simp [hbody]
  | _ => rfl

/-- A traced function is its source with calls added: without them it is the source again, provided
that this does not mention them. -/
theorem restore_trace {f f' : SourceTree} (hgrammar : f.IsGrammatical)
    (hfree : ∀ id ∈ insertedNames ending, ¬ f.Mentions id) (h : trace ending f = .ok f') :
    restore ending f' = f := by
  rw [trace] at h
  split at h
  · rename_i hfunction
    obtain ⟨u, hu, hf'⟩ := bind_eq_ok.mp h
    cases hf'
    have hplain : f.HasPlainTests :=
      hasPlainTests_of_not_mentions (hfree _ (by simp [insertedNames]))
    have hkind : u.isKind "If" = false := by
      rw [isPass_closesTo.isKind_eq hu, (isPass_closeLoops ending).isKind_eq rfl]
      exact isKind_eq_false hfunction (by decide)
    calc restore ending (endWith returnNothing u)
        = dropFinalReturn (endWith returnNothing (erase ending u)) := by
          rw [restore, erase_endWith hkind]
      _ = erase ending u := dropFinalReturn_endWith _
      _ = erase ending (closeLoops ending f) :=
          erase_of_closesTo (isGrammatical_closeLoops hgrammar)
            (hasPlainTests_closeLoops hgrammar hplain) hu
      _ = erase ending f := erase_closeLoops hgrammar
      _ = f := erase_eq_self hfree
  · cases h

end

theorem nestedSource_restored :
    nestedSource.IsGrammatical ∧ (∀ id ∈ insertedNames "end_for", ¬ nestedSource.Mentions id) ∧
      ∃ f', trace "end_for" nestedSource = .ok f' ∧ restore "end_for" f' = nestedSource := by
  have hfree : ∀ id ∈ insertedNames "end_for", ¬ nestedSource.Mentions id := by decide
  exact ⟨isGrammatical_nestedSource, hfree, _, rfl,
    restore_trace isGrammatical_nestedSource hfree rfl⟩

end SourceTree

end Polyloom
