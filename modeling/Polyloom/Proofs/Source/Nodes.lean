import Polyloom.Proofs.Source.Wrapping

/-!
# Nodes of trees

The nodes of a kind, wherever they are in a tree, and the shape that loops, branches and comparisons
have in a program.  A pass over trees that leaves kinds and texts as they are, and goes into all
nodes but those of one kind, also leaves alone which functions are called.
-/

namespace Polyloom

open List

namespace SourceTree

/-! ## Induction -/

/-- A statement on trees follows from the same on the parts of a tree. -/
theorem induct {motive : SourceTree → Prop}
    (node : ∀ kind fields, (∀ f ∈ fields, motive f.2) → motive (.node kind fields))
    (list : ∀ items, (∀ t ∈ items, motive t) → motive (.list items))
    (leaf : ∀ d, motive (.leaf d)) (t : SourceTree) : motive t :=
  @SourceTree.rec motive (fun fields => ∀ f ∈ fields, motive f.2)
    (fun items => ∀ t ∈ items, motive t)
    (fun f => motive f.2) node list leaf (forall_mem_nil _)
    (fun _ _ hf hfields => forall_mem_cons.mpr ⟨hf, hfields⟩) (forall_mem_nil _)
    (fun _ _ ht hitems => forall_mem_cons.mpr ⟨ht, hitems⟩) (fun _ _ ht => ht) t

/-! ## Nodes of a kind -/

mutual

/-- The nodes of a kind in a tree, a node before those in it. -/
def nodes (kind : String) : SourceTree → List SourceTree
  | .node k fields =>
    if k = kind then .node k fields :: nodesIn kind fields else nodesIn kind fields
  | .list items => nodesAmong kind items
  | .leaf _ => []

def nodesIn (kind : String) : List (String × SourceTree) → List SourceTree
  | [] => []
  | (_, t) :: rest => nodes kind t ++ nodesIn kind rest

def nodesAmong (kind : String) : List SourceTree → List SourceTree
  | [] => []
  | t :: rest => nodes kind t ++ nodesAmong kind rest

end

private theorem nodesIn_eq (kind : String) (fields : List (String × SourceTree)) :
    nodesIn kind fields = fields.flatMap fun f => f.2.nodes kind := by
  induction fields with
  | nil => rfl
  | cons f fields ih => rw [nodesIn, ih, flatMap_cons]

private theorem nodesAmong_eq (kind : String) (items : List SourceTree) :
    nodesAmong kind items = items.flatMap (nodes kind) := by
  induction items with
  | nil => rfl
  | cons t items ih => rw [nodesAmong, ih, flatMap_cons]

theorem nodes_node (kind k : String) (fields : List (String × SourceTree)) :
    (node k fields).nodes kind =
      (if k = kind then [node k fields] else []) ++ fields.flatMap fun f => f.2.nodes kind := by
  rw [nodes, nodesIn_eq]
  split <;> rfl

theorem nodes_list (kind : String) (items : List SourceTree) :
    (list items).nodes kind = items.flatMap (nodes kind) := by
  rw [nodes, nodesAmong_eq]

@[simp] theorem nodes_leaf (kind : String) (d : Datum) : (leaf d).nodes kind = [] := by
  rw [nodes]

theorem self_mem_nodes (kind : String) (fields : List (String × SourceTree)) :
    node kind fields ∈ (node kind fields).nodes kind := by
  simp [nodes_node]

variable {kind : String} {k name id : String} {fields : List (String × SourceTree)}
  {f : String × SourceTree} {n t u : SourceTree}

theorem mem_nodes_of_entry (hf : f ∈ fields) (hn : n ∈ f.2.nodes kind) :
    n ∈ (node k fields).nodes kind := by
  rw [nodes_node, mem_append]
  exact .inr (mem_flatMap.mpr ⟨f, hf, hn⟩)

theorem mem_nodes_of_item (hu : u ∈ t.items) (hn : n ∈ u.nodes kind) : n ∈ t.nodes kind := by
  cases t with
  | list items =>
    rw [nodes_list]
    exact mem_flatMap.mpr ⟨u, hu, hn⟩
  | _ => cases hu

private theorem mem_of_lookup (h : fields.lookup name = some t) : (name, t) ∈ fields := by
  obtain ⟨before, after, rfl, -⟩ := lookup_eq_some_iff.mp h
  simp

theorem mem_nodes_of_field (hn : n ∈ (t.field name).nodes kind) : n ∈ t.nodes kind := by
  cases t with
  | node k fields =>
    cases h : fields.lookup name with
    | some u =>
      simp only [field, field?, h, Option.getD_some] at hn
      exact mem_nodes_of_entry (mem_of_lookup h) hn
    | none => simp [field, field?, h] at hn
  | _ => simp [field, field?] at hn

theorem mem_nodes_of_isKind (h : t.isKind kind = true) : t ∈ t.nodes kind := by
  cases t with
  | node k fields =>
    obtain rfl : k = kind := of_decide_eq_true h
    exact self_mem_nodes _ fields
  | _ => cases h

theorem mem_nodes_trans {inner : SourceTree} (hinner : inner ∈ t.nodes k)
    (hn : n ∈ inner.nodes kind) : n ∈ t.nodes kind := by
  induction t using induct with
  | node k' fields ih =>
    rw [nodes_node, mem_append] at hinner
    rcases hinner with hself | hbelow
    · split at hself
      · obtain rfl := mem_singleton.mp hself
        exact hn
      · cases hself
    · obtain ⟨f, hf, hinner⟩ := mem_flatMap.mp hbelow
      exact mem_nodes_of_entry hf (ih f hf hinner)
  | list items ih =>
    rw [nodes_list] at hinner
    obtain ⟨u, hu, hinner⟩ := mem_flatMap.mp hinner
    exact mem_nodes_of_item (t := list items) hu (ih u hu hinner)
  | leaf d => simp at hinner

/-! ## Calls -/

def plainCall? (t : SourceTree) : Option (String × List SourceTree) :=
  if t.isKind "Call" && (t.field "keywords").items.isEmpty then
    (t.field "func").name?.map fun f => (f, (t.field "args").items)
  else none

def calledFunction? (t : SourceTree) : Option String :=
  if t.isKind "Expr" then
    (t.field "value").plainCall?.bind fun c => if c.2.isEmpty then some c.1 else none
  else none

theorem plainCall?_call (function : String) (args : List SourceTree) :
    (call function args).plainCall? = some (function, args) := rfl

theorem calledFunction?_callStatement (function : String) :
    (callStatement function).calledFunction? = some function := rfl

/-- Does a tree refer to a name? -/
def Mentions (id : String) (t : SourceTree) : Prop := ∃ n ∈ t.nodes "Name", n.name? = some id

instance (id : String) (t : SourceTree) : Decidable (t.Mentions id) :=
  inferInstanceAs (Decidable (∃ n ∈ t.nodes "Name", n.name? = some id))

theorem Mentions.of_subset (h : u.Mentions id) (hsubset : u.nodes "Name" ⊆ t.nodes "Name") :
    t.Mentions id := by
  obtain ⟨n, hn, hname⟩ := h
  exact ⟨n, hsubset hn, hname⟩

theorem Mentions.of_entry (h : f.2.Mentions id) (hf : f ∈ fields) :
    (node kind fields).Mentions id :=
  h.of_subset fun _ hn => mem_nodes_of_entry hf hn

theorem Mentions.of_item {items : List SourceTree} (h : t.Mentions id) (ht : t ∈ items) :
    (list items).Mentions id :=
  h.of_subset fun _ hn => mem_nodes_of_item (t := list items) ht hn

theorem Mentions.of_field (h : (t.field name).Mentions id) : t.Mentions id :=
  h.of_subset fun _ hn => mem_nodes_of_field hn

private theorem mentions_of_name? (h : t.name? = some id) : t.Mentions id := by
  refine ⟨t, ?_, h⟩
  rw [name?] at h
  split at h
  · rename_i hkind
    exact mem_nodes_of_isKind hkind
  · cases h

theorem mentions_of_plainCall? {c : String × List SourceTree} (h : t.plainCall? = some c) :
    t.Mentions c.1 := by
  rw [plainCall?] at h
  split at h
  · obtain ⟨f, hf, rfl⟩ := Option.map_eq_some_iff.mp h
    exact (mentions_of_name? hf).of_field
  · cases h

theorem mentions_of_calledFunction? {function : String} (h : t.calledFunction? = some function) :
    t.Mentions function := by
  rw [calledFunction?] at h
  split at h
  · obtain ⟨c, hc, hfunction⟩ := Option.bind_eq_some_iff.mp h
    split at hfunction
    · cases hfunction
      exact (mentions_of_plainCall? hc).of_field
    · cases hfunction
  · cases h

/-! ## Grammar -/

/-- There are no blocks in an expression: neither loops nor branches. -/
def IsBlockFree (t : SourceTree) : Prop := t.nodes "For" = [] ∧ t.nodes "If" = []

abbrev loopOf (body : List SourceTree) (iter : SourceTree) (orelse : List SourceTree)
    (target : SourceTree) : SourceTree :=
  .node "For" [("body", .list body), ("iter", iter), ("orelse", .list orelse), ("target", target)]

abbrev branchOf (body orelse : List SourceTree) (test : SourceTree) : SourceTree :=
  .node "If" [("body", .list body), ("orelse", .list orelse), ("test", test)]

def IsLoop (t : SourceTree) : Prop :=
  ∃ body iter orelse target, t = loopOf body iter orelse target ∧
    iter.IsBlockFree ∧ target.IsBlockFree

def IsBranch (t : SourceTree) : Prop :=
  ∃ body orelse test, t = branchOf body orelse test ∧ test.IsBlockFree

def IsComparison (t : SourceTree) : Prop :=
  ∃ comparators left ops, t = comparisonOf comparators left ops

/-- The loops, branches and comparisons of a tree have their fields, in the order of their names,
and what is not a block has none in it. -/
structure IsGrammatical (t : SourceTree) : Prop where
  loops : ∀ n ∈ t.nodes "For", n.IsLoop
  branches : ∀ n ∈ t.nodes "If", n.IsBranch
  comparisons : ∀ n ∈ t.nodes "Compare", n.IsComparison

theorem IsGrammatical.of_subset (h : t.IsGrammatical)
    (hsubset : ∀ kind, u.nodes kind ⊆ t.nodes kind) : u.IsGrammatical :=
  ⟨fun n hn => h.loops n (hsubset _ hn), fun n hn => h.branches n (hsubset _ hn),
    fun n hn => h.comparisons n (hsubset _ hn)⟩

theorem IsGrammatical.entry (h : (node kind fields).IsGrammatical) (hf : f ∈ fields) :
    f.2.IsGrammatical :=
  h.of_subset fun _ _ hn => mem_nodes_of_entry hf hn

theorem IsGrammatical.item {items : List SourceTree} (h : (list items).IsGrammatical)
    (ht : t ∈ items) : t.IsGrammatical :=
  h.of_subset fun _ _ hn => mem_nodes_of_item (t := list items) ht hn

/-! ## Passes -/

private theorem isKind_eq (t : SourceTree) (kind : String) :
    t.isKind kind = decide (t.kind? = some kind) := by
  cases t with
  | node k fields => simp [isKind, kind?]
  | _ => rfl

private theorem field_node_cons (k name : String) (f : String × SourceTree)
    (fields : List (String × SourceTree)) :
    (node k (f :: fields)).field name = if name = f.1 then f.2 else (node k fields).field name := by
  obtain ⟨first, t⟩ := f
  by_cases h : name = first
  · simp [field, field?, h]
  · simp [field, field?, lookup_cons, beq_false_of_ne h, h]

def EntryRel (R : SourceTree → SourceTree → Prop) (f g : String × SourceTree) : Prop :=
  g.1 = f.1 ∧ R f.2 g.2

private theorem field_of_entries {R : SourceTree → SourceTree → Prop}
    (hnull : R (leaf .null) (leaf .null)) {fields' : List (String × SourceTree)}
    (h : Forall₂ (EntryRel R) fields fields') (k k' name : String) :
    R ((node k fields).field name) ((node k' fields').field name) := by
  induction h with
  | nil => exact hnull
  | @cons f g fields fields' hfg _ ih =>
    rw [field_node_cons, field_node_cons, hfg.1]
    split
    · exact hfg.2
    · exact ih

/-- A pass over trees: leaves and kinds stay, and it goes into lists and into the fields of all
nodes but the blocks. -/
structure IsPass (block : String) (R : SourceTree → SourceTree → Prop) : Prop where
  leaf : ∀ {d u}, R (.leaf d) u ↔ u = .leaf d
  list : ∀ {items u}, R (.list items) u → ∃ items', u = .list items' ∧ Forall₂ R items items'
  node : ∀ {kind fields u}, R (.node kind fields) u → ∃ fields', u = .node kind fields' ∧
    (kind ≠ block → Forall₂ (EntryRel R) fields fields')

namespace IsPass

variable {block : String} {R : SourceTree → SourceTree → Prop} {t u : SourceTree}

section

variable (h : IsPass block R) (htu : R t u)

include h htu

private theorem kind?_eq : u.kind? = t.kind? := by
  cases t with
  | node kind fields =>
    obtain ⟨fields', rfl, -⟩ := h.node htu
    rfl
  | list items =>
    obtain ⟨items', rfl, -⟩ := h.list htu
    rfl
  | leaf d => rw [h.leaf.mp htu]

private theorem text?_eq : u.text? = t.text? := by
  cases t with
  | node kind fields =>
    obtain ⟨fields', rfl, -⟩ := h.node htu
    rfl
  | list items =>
    obtain ⟨items', rfl, -⟩ := h.list htu
    rfl
  | leaf d => rw [h.leaf.mp htu]

theorem items : Forall₂ R t.items u.items := by
  cases t with
  | node kind fields =>
    obtain ⟨fields', rfl, -⟩ := h.node htu
    exact .nil
  | list items =>
    obtain ⟨items', rfl, hitems⟩ := h.list htu
    exact hitems
  | leaf d =>
    rw [h.leaf.mp htu]
    exact .nil

theorem field (hkind : t.isKind block = false) (name : String) :
    R (t.field name) (u.field name) := by
  have hnull : R (.leaf .null) (.leaf .null) := h.leaf.mpr rfl
  cases t with
  | node kind fields =>
    obtain ⟨fields', rfl, hfields⟩ := h.node htu
    exact field_of_entries hnull (hfields (of_decide_eq_false hkind)) kind kind name
  | list items =>
    obtain ⟨items', rfl, -⟩ := h.list htu
    exact hnull
  | leaf d =>
    rw [h.leaf.mp htu]
    exact hnull

theorem isKind_eq (kind : String) : u.isKind kind = t.isKind kind := by
  rw [SourceTree.isKind_eq, SourceTree.isKind_eq, h.kind?_eq htu]

theorem field_of_isKind (hkind : t.isKind kind = true) (hne : kind ≠ block) (name : String) :
    R (t.field name) (u.field name) :=
  h.field htu (isKind_eq_false hkind hne) name

private theorem name?_eq (hname : "Name" ≠ block) : u.name? = t.name? := by
  rw [name?, name?, h.isKind_eq htu]
  split
  · rename_i hkind
    exact h.text?_eq (h.field_of_isKind htu hkind hname "id")
  · rfl

private theorem plainCall?_rel (hname : "Name" ≠ block) (hcall : "Call" ≠ block) :
    Option.Rel (fun c d => d.1 = c.1 ∧ Forall₂ R c.2 d.2) t.plainCall? u.plainCall? := by
  rw [plainCall?, plainCall?, h.isKind_eq htu]
  cases hkind : t.isKind "Call" with
  | false => exact .none
  | true =>
    have hfield := h.field_of_isKind htu hkind hcall
    rw [forall₂_isEmpty (h.items (hfield "keywords")), h.name?_eq (hfield "func") hname]
    split
    · cases (t.field "func").name? with
      | none => exact .none
      | some f => exact .some ⟨rfl, h.items (hfield "args")⟩
    · exact .none

theorem calledFunction?_eq (hname : "Name" ≠ block) (hcall : "Call" ≠ block)
    (hexpr : "Expr" ≠ block) : u.calledFunction? = t.calledFunction? := by
  rw [calledFunction?, calledFunction?, h.isKind_eq htu]
  split
  · rename_i hkind
    have hvalue := h.plainCall?_rel (h.field_of_isKind htu hkind hexpr "value") hname hcall
    generalize (t.field "value").plainCall? = c, (u.field "value").plainCall? = d at hvalue ⊢
    cases hvalue with
    | none => rfl
    | some hcd => rw [Option.bind_some, Option.bind_some, hcd.1, forall₂_isEmpty hcd.2]
  · rfl

end

end IsPass

end SourceTree

end Polyloom
