import Polyloom.Proofs.Builder.Steps
import Polyloom.Script.Execute

/-!
# Expressions of source

How deep a tree is looked into does not matter once it is as deep as the tree, so an expression is
made of the expressions of the parts of its tree.  What a name in it stands for depends on the
frames of a session only.
-/

namespace Polyloom

namespace SourceTree

variable {t u : SourceTree}

/-! ## Depth -/

theorem depth_pos (t : SourceTree) : 0 < t.depth := by
  cases t <;> simp [depth]

private theorem depth_le_of_lookup {fields : List (String × SourceTree)} {name : String}
    (h : fields.lookup name = some t) : t.depth ≤ depthFields fields := by
  induction fields with
  | nil => cases h
  | cons entry fields ih =>
    obtain ⟨field, u⟩ := entry
    rw [List.lookup_cons] at h
    rw [depthFields]
    split at h
    · cases h
      exact le_max_left _ _
    · exact (ih h).trans (le_max_right _ _)

private theorem depth_le_of_mem {items : List SourceTree} (h : t ∈ items) :
    t.depth ≤ depthAll items := by
  induction items with
  | nil => cases h
  | cons u items ih =>
    rw [depthAll]
    rcases List.mem_cons.mp h with rfl | h
    · exact le_max_left _ _
    · exact (ih h).trans (le_max_right _ _)

theorem depth_field (t : SourceTree) (name : String) :
    (t.field name).depth < t.depth ∨ t.field name = .leaf .null := by
  cases t with
  | node kind fields =>
    cases h : fields.lookup name with
    | some u =>
      refine .inl ?_
      simp only [field, field?, h, Option.getD_some, depth]
      exact Nat.lt_succ_of_le (depth_le_of_lookup h)
    | none => exact .inr (by simp [field, field?, h])
  | list items => exact .inr rfl
  | leaf d => exact .inr rfl

private theorem depth_item (h : u ∈ t.items) : u.depth < t.depth := by
  cases t with
  | list items => exact Nat.lt_succ_of_le (depth_le_of_mem h)
  | _ => cases h

theorem depth_item_field {name : String} (h : u ∈ (t.field name).items) : u.depth < t.depth := by
  rcases depth_field t name with hlt | hleaf
  · exact (depth_item h).trans hlt
  · rw [hleaf] at h
    cases h

/-! ## Enough depth -/

theorem toExpression_leaf (k : Nat) (d : Datum) : (leaf d).toExpression k = .unknown := by
  cases k <;> rfl

private theorem toExpression_succ {k : Nat} (h : t.depth ≤ k) :
    t.toExpression (k + 1) = t.toExpression k := by
  induction k generalizing t with
  | zero => exact absurd (depth_pos t) (by omega)
  | succ k ih =>
    -- all parts of the tree are less deep; a field that is missing is unknown at any depth
    have hfield (u : SourceTree) (hu : u.depth ≤ k + 1) (name : String) :
        (u.field name).toExpression (k + 1) = (u.field name).toExpression k := by
      rcases depth_field u name with hlt | hleaf
      · exact ih (by omega)
      · rw [hleaf, toExpression_leaf, toExpression_leaf]
    have hitems (name : String) : (t.field name).items.map (toExpression (k + 1)) =
        (t.field name).items.map (toExpression k) :=
      List.map_congr_left fun u hu => ih (by have := depth_item_field hu; omega)
    have hkeywords : ((t.field "keywords").items.map fun u =>
          ((u.field "arg").text, (u.field "value").toExpression (k + 1))) =
        (t.field "keywords").items.map fun u =>
          ((u.field "arg").text, (u.field "value").toExpression k) :=
      List.map_congr_left fun u hu => by
        rw [hfield u (by have := depth_item_field hu; omega)]
    rw [toExpression, toExpression]
    simp only [hfield t h, hitems, hkeywords]

theorem toExpression_of_le {k : Nat} (h : t.depth ≤ k) : t.toExpression k = t.expression := by
  induction k, h using Nat.le_induction with
  | base => rfl
  | succ k hk ih => rw [toExpression_succ hk, ih]

/-! ## Expressions of parts -/

section

variable {t : SourceTree} {k : Nat}

theorem kind?_of_isKind {kind : String} (h : t.isKind kind = true) : t.kind? = some kind := by
  cases t with
  | node k fields => exact congrArg some (of_decide_eq_true h)
  | _ => cases h

theorem isKind_eq_false {kind other : String} (h : t.isKind kind = true) (hne : kind ≠ other) :
    t.isKind other = false := by
  cases t with
  | node k fields =>
    cases of_decide_eq_true h
    exact decide_eq_false hne
  | _ => cases h

theorem toExpression_field (h : t.depth ≤ k + 1) (name : String) :
    (t.field name).toExpression k = (t.field name).expression := by
  rcases depth_field t name with hlt | hleaf
  · exact toExpression_of_le (by omega)
  · rw [hleaf, expression, toExpression_leaf, toExpression_leaf]

theorem toExpression_items (h : t.depth ≤ k + 1) (name : String) :
    (t.field name).items.map (toExpression k) = (t.field name).items.map expression :=
  List.map_congr_left fun _ hu => toExpression_of_le (by have := depth_item_field hu; omega)

theorem exists_depth (t : SourceTree) : ∃ k, t.depth = k + 1 :=
  Nat.exists_eq_succ_of_ne_zero (Nat.ne_of_gt t.depth_pos)

theorem expression_name (h : t.isKind "Name" = true) :
    t.expression = .name (t.field "id").text := by
  obtain ⟨k, hk⟩ := exists_depth t
  rw [expression, hk, toExpression, kind?_of_isKind h]
  rfl

theorem expression_of_name? {id : String} (h : t.name? = some id) : t.expression = .name id := by
  rw [name?] at h
  split at h
  · rename_i hkind
    rw [expression_name hkind, text, h]
    rfl
  · cases h

theorem expression_call (h : t.isKind "Call" = true) : t.expression =
    .call (t.field "func").expression ((t.field "args").items.map expression)
      ((t.field "keywords").items.map fun u =>
        ((u.field "arg").text, (u.field "value").expression)) := by
  obtain ⟨k, hk⟩ := exists_depth t
  have hkeywords : ((t.field "keywords").items.map fun u =>
        ((u.field "arg").text, (u.field "value").toExpression k)) =
      (t.field "keywords").items.map fun u =>
        ((u.field "arg").text, (u.field "value").expression) :=
    List.map_congr_left fun u hu => by
      rw [toExpression_field (by have := depth_item_field hu; omega)]
  rw [expression, hk, toExpression, kind?_of_isKind h]
  simp only [toExpression_field (Nat.le_of_eq hk), toExpression_items (Nat.le_of_eq hk), hkeywords]

theorem expression_callOf (function : String) (args : List SourceTree) :
    (call function args).expression = .call (.name function) (args.map expression) [] := by
  rw [expression_call rfl]
  exact congrArg (Expression.call · _ _) (expression_name rfl)

theorem expression_compare (h : t.isKind "Compare" = true) {signs : List ComparisonSign}
    (hsigns : (t.field "ops").items.mapM comparisonSign? = some signs) : t.expression =
      .compare (t.field "left").expression
        (signs.zip ((t.field "comparators").items.map expression)) := by
  obtain ⟨k, hk⟩ := exists_depth t
  rw [expression, hk, toExpression, kind?_of_isKind h]
  simp only [hsigns, toExpression_field (Nat.le_of_eq hk), toExpression_items (Nat.le_of_eq hk)]

end

end SourceTree

/-! ## Values of names and calls -/

namespace Execute

open Build

variable {env : Surroundings} {name : String} {s t : Session} {v : Value}

theorem exec_frame (id : Nat) (s : Session) :
    (frame id).exec s = (.ok ((s.frames[id]?).getD []), s) := rfl

private theorem exec_inFrames (name : String) (ids : List Nat) (s : Session) :
    (inFrames name ids).exec s =
      (.ok (ids.findSome? fun id => ((s.frames[id]?).getD []).lookup name), s) := by
  induction ids with
  | nil => rfl
  | cons id ids ih =>
    rw [inFrames, exec_bind_ok (exec_frame id s), List.findSome?_cons]
    cases ((s.frames[id]?).getD []).lookup name with
    | some v => rfl
    | none => exact ih

theorem exec_lookup_of_frames (h : t.frames = s.frames)
    (hs : (lookup env name).exec s = (.ok v, s)) :
    (lookup env name).exec t = (.ok v, t) := by
  rw [lookup, exec_bind_ok (exec_frame _ _)] at hs ⊢
  rw [h]
  generalize ((s.frames[env.frame]?).getD []).lookup name = own at hs ⊢
  cases own with
  | some w =>
    cases hs
    rfl
  | none =>
    simp only [] at hs ⊢
    split at hs
    · cases hs
    · rename_i hlocal
      rw [if_neg hlocal]
      rw [exec_bind_ok (exec_inFrames _ _ _)] at hs ⊢
      rw [h]
      generalize env.outer.findSome? (fun id => ((s.frames[id]?).getD []).lookup name) =
        found at hs ⊢
      cases found with
      | some w =>
        cases hs
        rfl
      | none =>
        -- what is left to look at is no part of a session
        simp only [] at hs ⊢
        generalize env.globals.lookup name = global at hs ⊢
        cases global with
        | some w =>
          cases hs
          rfl
        | none =>
          simp only [] at hs ⊢
          cases hknown : everywhere? name with
          | some w =>
            rw [hknown] at hs
            cases hs
            rfl
          | none =>
            rw [hknown] at hs
            cases hs

variable {call : Caller} {args : List Expression} {named : List (String × Expression)}

private theorem evaluate_callName (call : Caller) (env : Surroundings)
    (name : String) (args : List Expression) (named : List (String × Expression)) :
    evaluate call env (.call (.name name) args named) = (do
      let v ← lookup env name
      let positional ← evaluateAll call env args
      let keywords ← evaluateNamed call env named
      call v ⟨positional, keywords⟩) := by
  simp only [evaluate]

theorem exec_callName {f : Value} {values : List Value} {keywords : List (String × Value)}
    {u : Session} (hname : (lookup env name).exec s = (.ok f, s))
    (hargs : (evaluateAll call env args).exec s = (.ok values, t))
    (hnamed : (evaluateNamed call env named).exec t = (.ok keywords, u)) :
    (evaluate call env (.call (.name name) args named)).exec s =
      (call f ⟨values, keywords⟩).exec u := by
  rw [evaluate_callName, exec_bind_ok hname, exec_bind_ok hargs, exec_bind_ok hnamed]

theorem exec_evaluateAll_single {e : Expression} (h : (evaluate call env e).exec s = (.ok v, t)) :
    (evaluateAll call env [e]).exec s = (.ok [v], t) := by
  rw [evaluateAll, exec_bind_ok h, evaluateAll]
  rfl

theorem exec_evaluateNamed_nil (s : Session) :
    (evaluateNamed call env []).exec s = (.ok [], s) := by
  rw [evaluateNamed]
  rfl

end Execute

end Polyloom
