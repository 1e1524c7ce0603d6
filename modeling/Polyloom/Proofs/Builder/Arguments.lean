import Polyloom.Proofs.Builder.Reuse

/-!
# Arguments of calls

Arguments reach a procedure in the order of its parameters, however they are passed.  The lists
among them hold integers and values of the program.  Entries that a call chooses become constants,
one for each in order, and the others stay.
-/

namespace Polyloom

open Build Value List

variable {es : List Event} {s t : Session} {type : String} {vs : List Value} {v : Value}

/-! ## Passing arguments -/

namespace Library

variable {path : String} {args : CallArgs Value} {vs : List Value}

theorem callPath_of_fixed {params : List Param} {run : Caller → List Value → Build Value}
    (hpath : procedure? path = some (.fixed params run)) (hargs : bindParams params args = .ok vs)
    (call : Caller) : callPath call path args = run call vs := by
  rw [callPath, hpath]
  simp only [Procedure.apply, Procedure.run, hargs]
  rfl

theorem decorate_of_decorator {run : Caller → CallArgs Value → Build Value}
    (hpath : procedure? path = some (.decorator run)) (call : Caller) (f : Value) :
    decorate call path args f = run call { args with positional := f :: args.positional } := by
  rw [decorate, hpath]
  rfl

end Library

/-! ## Lists among the arguments -/

namespace Session

/-- A list in any of the forms in which one is given or made. -/
inductive Enumerates (s : Session) (vs : List Value) : Value → Prop
  | tuple : Enumerates s vs (.tuple vs)
  | listed : Enumerates s vs (.listed vs)
  | list {cell : Nat} (h : s.lists[cell]? = some vs) : Enumerates s vs (.list cell)

variable {s t : Session} {vs : List Value} {v : Value}

namespace Enumerates

theorem later (h : s.Enumerates vs v) (hlists : s.lists <+: t.lists) : t.Enumerates vs v := by
  cases h with
  | tuple => exact .tuple
  | listed => exact .listed
  | list h =>
    obtain ⟨more, hmore⟩ := hlists
    exact .list (by rw [← hmore, List.getElem?_append_left (List.getElem?_eq_some_iff.1 h).1, h])

theorem listItems_eq {cell : Nat} (h : s.lists[cell]? = some vs) : s.listItems cell = vs := by
  rw [listItems, h, Option.getD_some]

section

variable (h : s.Enumerates vs v)

include h

theorem isNone_eq : v.isNone = false := by
  cases h <;> rfl

theorem exec_items : (items v).exec s = (.ok vs, s) := by
  cases h with
  | tuple => rfl
  | listed => rfl
  | @list cell h =>
    have hitems : (items (.list cell)).exec s = (.ok (s.listItems cell), s) := rfl
    rw [hitems, listItems_eq h]

theorem exec_length : (length v).exec s = (.ok vs.length, s) :=
  exec_bind_ok h.exec_items

theorem exec_asValues : (asValues v).exec s = (asValueAll vs).exec s := by
  cases h with
  | tuple => rfl
  | listed => rfl
  | @list cell h =>
    have hread : (asValues (.list cell)).exec s = (asValueAll (s.listItems cell)).exec s := rfl
    rw [hread, listItems_eq h]

theorem exec_truth : (truth v).exec s = (.ok (vs.length ≠ 0), s) := by
  have hlength := h.exec_length
  cases h <;> exact exec_bind_ok hlength

end

end Enumerates

end Session

def Value.shownItems? : Value → Option (List Value)
  | .listed vs | .tuple vs => .some vs
  | _ => .none

theorem Session.Enumerates.shownItems?_frozen (h : s.Enumerates vs v)
    (hvs : ∀ v ∈ vs, v.isIndex = true) : (s.frozen v).shownItems? = some vs := by
  cases h with
  | tuple => simp [shownItems?, s.map_frozen_eq hvs]
  | listed => simp [shownItems?, s.map_frozen_eq hvs]
  | @list cell h =>
    rw [← Enumerates.listItems_eq h] at hvs
    rw [s.frozen_list hvs, Enumerates.listItems_eq h, shownItems?]

/-! ## Entries that become constants -/

/-- The events `es` make a constant of each chosen entry, in order, whose value stands for the
entry.  All other entries stay. -/
inductive Resolves (type : String) (chosen : Value → Bool) : List Value →
  List Event → List Value → Prop
  | nil : Resolves type chosen [] [] []
  | constant {v : Value} {vs ws : List Value} {es : List Event}
    (op : Nat) (parent : Option Nat) (id : Nat)
      (hv : chosen v = true) (rest : Resolves type chosen vs es ws) :
      Resolves type chosen (v :: vs) (.create op "arith.ConstantOp" parent [.ssa id type .plain]
        (.native [.type type, v] []) :: es) (.ssa id type .arith :: ws)
  | kept {v : Value} {vs ws : List Value} {es : List Event} (hv : chosen v = false)
      (rest : Resolves type chosen vs es ws) : Resolves type chosen (v :: vs) es (v :: ws)

namespace Resolves

variable {type : String} {chosen chosen' : Value → Bool} {vs ws : List Value} {es : List Event}

theorem length_eq (h : Resolves type chosen vs es ws) : ws.length = vs.length := by
  induction h with
  | nil => rfl
  | constant _ _ _ _ _ ih => rw [length_cons, ih, length_cons]
  | kept _ _ ih => rw [length_cons, ih, length_cons]

theorem refl (h : ∀ v ∈ vs, chosen v = false) : Resolves type chosen vs [] vs := by
  induction vs with
  | nil => exact .nil
  | cons v vs ih =>
    rw [forall_mem_cons] at h
    exact .kept h.1 (ih h.2)

section

variable (h : Resolves type chosen vs es ws)

include h

theorem congr (heq : ∀ v ∈ vs, chosen v = chosen' v) : Resolves type chosen' vs es ws := by
  induction h with
  | nil => exact .nil
  | constant op parent id hv _ ih =>
    rw [forall_mem_cons] at heq
    exact .constant op parent id (heq.1 ▸ hv) (ih heq.2)
  | kept hv _ ih =>
    rw [forall_mem_cons] at heq
    exact .kept (heq.1 ▸ hv) (ih heq.2)

theorem eq_of_none (hnone : ∀ v ∈ vs, chosen v = false) : ws = vs := by
  induction h with
  | nil => rfl
  | constant _ _ _ hv _ _ =>
    rw [forall_mem_cons, hv] at hnone
    cases hnone.1
  | kept _ _ ih =>
    rw [forall_mem_cons] at hnone
    rw [ih hnone.2]

theorem isIndex (hvs : ∀ v ∈ vs, v.isIndex = true) : ∀ w ∈ ws, w.isIndex = true := by
  induction h with
  | nil => exact hvs
  | constant _ _ _ _ _ ih =>
    rw [forall_mem_cons] at hvs
    exact forall_mem_cons.mpr ⟨rfl, ih hvs.2⟩
  | kept _ _ ih =>
    rw [forall_mem_cons] at hvs
    exact forall_mem_cons.mpr ⟨hvs.1, ih hvs.2⟩

theorem areValues (hkept : ∀ v ∈ vs, chosen v = false → ∃ id type view, v = .ssa id type view) :
    AreValues ws := by
  induction h with
  | nil => simp [AreValues]
  | constant _ _ _ _ _ ih =>
    rw [forall_mem_cons] at hkept
    exact (ih hkept.2).cons
  | kept hv _ ih =>
    rw [forall_mem_cons] at hkept
    exact forall_mem_cons.mpr ⟨hkept.1 hv, ih hkept.2⟩

end

theorem areValues_of_isIndex (h : Resolves type isInt vs es ws) (hvs : ∀ v ∈ vs, v.isIndex = true) :
    AreValues ws := h.areValues fun v hv hint => exists_ssa_of_isIndex (hvs v hv) hint

end Resolves

namespace Session

/-- Operations were recorded, and lists and the place where the session builds are as before. -/
structure Records (s t : Session) (es : List Event) : Prop extends
  s.Frame {.lists, .stack} ∅ t where
  events_eq : t.events = s.events ++ es

theorem Records.lists_kept (h : s.Records t es) : s.lists <+: t.lists := by
  simp [h.lists_eq]

theorem Records.refl (s : Session) : s.Records s [] := ⟨.refl s, (append_nil _).symm⟩

theorem Records.trans {u : Session} {es' : List Event} (h : s.Records t es) (h' : t.Records u es') :
    s.Records u (es ++ es') :=
  ⟨h.toFrame.trans h'.toFrame, by rw [h'.events_eq, h.events_eq, append_assoc]⟩

theorem Records.create (s : Session) (o : OpRecord) (how : Creation) : s.Records (s.create o how)
    [.create s.ops.length o.name s.current (o.results.map TypedId.value) how] :=
  ⟨frame_pair rfl rfl (by simp), rfl⟩

theorem Records.addBlock (s : Session) (op region : Nat) (types : List String) :
    s.Records (s.addBlock op region types)
      [.block s.blocks.length op region ((typedIds s.values types).map TypedId.value)] :=
  ⟨frame_pair rfl rfl (by simp), rfl⟩

end Session

theorem exec_mapM_resolves {chosen : Value → Bool} {step : Value → Build Value}
    (hstep : ∀ v, step v = if chosen v then Arith.constant v (.type type) else pure v)
    (hvs : ∀ v ∈ vs, v.isIndex = true) (s : Session) : ∃ ws t es,
    (vs.mapM step).exec s = (.ok ws, t) ∧ s.Records t es ∧ Resolves type chosen vs es ws := by
  induction vs generalizing s with
  | nil => exact ⟨[], s, [], rfl, .refl s, .nil⟩
  | cons v vs ih =>
    rw [forall_mem_cons] at hvs
    rw [mapM_cons, hstep v]
    cases hv : chosen v with
    | true =>
      have hmade := Arith.exec_constant hvs.1 type s
      obtain ⟨ws, t, es, hrest, hrecords, hresolves⟩ :=
        ih hvs.2 (s.createNative "arith.ConstantOp" [.type type, v] type)
      have hargs : [Value.type type, v].map s.frozen = [.type type, v] := by
        rw [map_cons, map_singleton, Session.frozen_type, s.frozen_of_isIndex hvs.1]
      have hfirst := Session.Records.create s
        (s.newOp "arith.ConstantOp" "arith.ConstantOp" [.type type, v] [] [type] 0)
        (.native ([Value.type type, v].map s.frozen) [])
      rw [hargs] at hfirst
      rw [if_pos rfl, exec_bind_ok hmade, exec_bind_ok hrest]
      refine ⟨_, t, _, rfl, ?_, .constant s.ops.length s.current s.values hv hresolves⟩
      rw [Session.createNative, hargs] at hrecords
      exact hfirst.trans hrecords
    | false =>
      obtain ⟨ws, t, es, hrest, hrecords, hresolves⟩ := ih hvs.2 s
      rw [if_neg (by simp), exec_bind_ok (exec_pure v s), exec_bind_ok hrest]
      exact ⟨_, t, es, rfl, hrecords, .kept hv hresolves⟩

/-! ## Arguments of one type -/

theorem exists_id_of_mem_typedIds {n k : Nat}
    (h : v ∈ (typedIds n (replicate k type)).map TypedId.value) :
    ∃ id, v = .ssa id type .plain := by
  induction k generalizing n with
  | zero => cases h
  | succ k ih =>
    rw [replicate_succ, typedIds, map_cons, mem_cons] at h
    rcases h with rfl | h
    · exact ⟨n, rfl⟩
    · exact ih h

end Polyloom
