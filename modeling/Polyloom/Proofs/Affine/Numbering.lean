import Polyloom.Affine.Session
import Polyloom.Proofs.Affine.Build

/-!
# One numbering for many states

States are made under names, with a scope of their own or with that of another state, and are asked
for the positions of dimensions and symbols in any order.  Each kind sees only the calls for it, and
a call for it finds a name in the scope, or adds it behind all others, or is refused and leaves
everything as it was.  So the positions in a scope have no gaps and do not change, all states on a
scope know the same ones, and what a state remembers is part of what its scope has.
-/

namespace Polyloom

open Stateful List AffineScope

/-! ## Calls -/

inductive StateCall where
  | create (state : String) (parent : Option String) (allowNewDims allowNewSymbols : Bool)
  | number (kind : VariableKind) (state name : String)

/-- The part of a call that is about one kind. -/
inductive KindCall where
  | create (state : String) (parent : Option String) (allows : Bool)
  | number (state name : String)

def StateCall.only (k : VariableKind) : StateCall → Option KindCall
  | .create a parent allowNewDims allowNewSymbols =>
    some (.create a parent (AffineBuild.allows { allowNewDims, allowNewSymbols } k))
  | .number kind a x => if kind = k then some (.number a x) else none

structure NumberState where
  scope : Nat
  used : List (String × Nat)
  allows : Bool

/-- What a session has of one kind. -/
structure Numbers where
  scopes : List (List (String × Nat))
  states : String → Option NumberState

namespace Numbers

def table (n : Numbers) (i : Nat) : List (String × Nat) := (n.scopes[i]?).getD []

def withState (n : Numbers) (a : String) (state : NumberState) : Numbers :=
  { n with states := Function.update n.states a (some state) }

def placing (k : VariableKind) (n : Numbers) (state : NumberState) (x : String) : Placing :=
  place k (n.table state.scope) state.used state.allows x

def perform (k : VariableKind) (n : Numbers) : KindCall → Except Fault (Option Nat) × Numbers
  | .create a none allows =>
    (.ok none, { n with scopes := n.scopes ++ [[]] }.withState a ⟨n.scopes.length, [], allows⟩)
  | .create a (some b) allows =>
    match n.states b with
    | none => (.error .noKey, n)
    | some state => (.ok none, n.withState a ⟨state.scope, [], allows⟩)
  | .number a x =>
    match n.states a with
    | none => (.error .noKey, n)
    | some state =>
      ((n.placing k state x).outcome.map some,
        { n with scopes := n.scopes.set state.scope (n.placing k state x).table }.withState a
          { state with used := (n.placing k state x).used })

/-- A state is on a scope that is there, and remembers positions of that scope, each name once. -/
structure Sound (n : Numbers) (state : NumberState) : Prop where
  placed : state.scope < n.scopes.length
  once : (state.used.map Prod.fst).Nodup
  known : state.used ⊆ n.table state.scope

structure WellNumbered (n : Numbers) : Prop where
  dense : ∀ i, IsDense (n.table i)
  sound : ∀ a state, n.states a = some state → n.Sound state

/-- Scopes stay, and names are only added behind all others. -/
structure Extends (n m : Numbers) : Prop where
  length : n.scopes.length ≤ m.scopes.length
  table : ∀ i, n.table i <+: m.table i

variable {n m : Numbers} {k : VariableKind} {state : NumberState}
  {a x : String} {i p : Nat} {call : KindCall}

theorem Extends.refl (n : Numbers) : n.Extends n := ⟨le_rfl, fun _ => prefix_rfl⟩

private theorem Sound.extends (h : n.Sound state) (hm : n.Extends m) : m.Sound state :=
  ⟨h.placed.trans_le hm.length, h.once, Subset.trans h.known (hm.table _).subset⟩

private theorem states_withState (n : Numbers) (a : String) (state : NumberState) (b : String) :
    (n.withState a state).states b = if b = a then some state else n.states b :=
  Function.update_apply ..

/-- More names in the scopes do no harm to what the states remember. -/
private theorem WellNumbered.withState (h : n.WellNumbered) (hm : n.Extends m)
    (hstates : m.states = n.states) (hdense : ∀ i, IsDense (m.table i))
    (hstate : m.Sound state) (a : String) :
    (m.withState a state).WellNumbered where
  dense := hdense
  sound := by
    intro b other hother
    have hsound : m.Sound other := by
      rw [states_withState, hstates] at hother
      split at hother
      · exact Option.some.inj hother ▸ hstate
      · exact (h.sound b other hother).extends hm
    exact ⟨hsound.placed, hsound.once, hsound.known⟩

theorem table_append (n : Numbers) (i : Nat) :
    table { n with scopes := n.scopes ++ [[]] } i = n.table i := by
  simp only [table, getElem?_append]
  split
  · rfl
  · rename_i h
    rw [getElem?_eq_none (Nat.le_of_not_lt h)]
    cases i - n.scopes.length <;> rfl

theorem table_set (h : i < n.scopes.length) (entries : List (String × Nat)) (j : Nat) :
    table { n with scopes := n.scopes.set i entries } j = if j = i then entries else n.table j := by
  by_cases hj : j = i
  · simp [table, hj, h]
  · simp [table, hj, getElem?_set_ne (Ne.symm hj)]

private theorem extends_append (n : Numbers) : n.Extends { n with scopes := n.scopes ++ [[]] } :=
  ⟨by simp, fun i => (n.table_append i).symm ▸ prefix_rfl⟩

private theorem extends_set (h : i < n.scopes.length) {entries : List (String × Nat)}
    (hentries : n.table i <+: entries) :
    n.Extends { n with scopes := n.scopes.set i entries } := by
  refine ⟨by simp, fun j => ?_⟩
  rw [table_set h]
  split
  · rename_i hj
    rwa [hj]
  · exact prefix_rfl

theorem perform_keeps (k : VariableKind) (h : n.WellNumbered) (call : KindCall) :
    n.Extends (n.perform k call).2 ∧ (n.perform k call).2.WellNumbered := by
  have hnew : ∀ {m : Numbers} {i : Nat} (allows : Bool),
      i < m.scopes.length → m.Sound ⟨i, [], allows⟩ :=
    fun _ hi => ⟨hi, nodup_nil, nil_subset _⟩
  fun_cases perform with
  | case1 a allows =>
    have hextends := n.extends_append
    refine ⟨⟨hextends.length, hextends.table⟩,
      h.withState hextends rfl (fun i => ?_) (hnew allows (by simp)) a⟩
    rw [table_append]
    exact h.dense i
  | case2 | case4 => exact ⟨.refl n, h⟩
  | case3 a b allows state hb =>
    exact ⟨⟨le_rfl, fun _ => prefix_rfl⟩,
      h.withState (.refl n) rfl h.dense (hnew allows (h.sound b state hb).placed) a⟩
  | case5 a x state ha =>
    have hstate := h.sound a state ha
    have hextends : n.Extends
        { n with scopes := n.scopes.set state.scope (n.placing k state x).table } :=
      extends_set hstate.placed prefix_place
    refine ⟨⟨hextends.length, hextends.table⟩,
      h.withState hextends rfl (fun i => ?_) ⟨?_, ?_, ?_⟩ a⟩
    · rw [table_set hstate.placed]
      split
      · exact isDense_place (h.dense _)
      · exact h.dense i
    · simpa using hstate.placed
    · obtain hused | ⟨p, -, hused⟩ := used_place k (n.table state.scope) state.used state.allows x
      · simpa [placing, hused] using hstate.once
      · simpa [placing, hused] using Table.nodup_keys_put hstate.once x p
    · rw [table_set hstate.placed, if_pos rfl]
      have hknown : state.used ⊆ (n.placing k state x).table :=
        Subset.trans hstate.known prefix_place.subset
      obtain hused | ⟨p, hp, hused⟩ := used_place k (n.table state.scope) state.used state.allows x
      · simpa [placing, hused] using hknown
      · intro entry hentry
        rw [placing, hused] at hentry
        obtain rfl | hentry := Table.eq_or_mem_of_mem_put hentry
        · exact mem_of_place hp
        · exact hknown hentry

theorem foldl_keeps (k : VariableKind) (calls : List KindCall) (h : n.WellNumbered) :
    n.Extends (calls.foldl (fun n call => (n.perform k call).2) n) ∧
      (calls.foldl (fun n call => (n.perform k call).2) n).WellNumbered := by
  induction calls generalizing n with
  | nil => exact ⟨.refl n, h⟩
  | cons call calls ih =>
    obtain ⟨hextends, hwell⟩ := perform_keeps k h call
    obtain ⟨hrest, hwell'⟩ := ih hwell
    exact ⟨⟨hextends.length.trans hrest.length, fun i => (hextends.table i).trans (hrest.table i)⟩,
      hwell'⟩

private theorem perform_position (h : n.WellNumbered) (ha : n.states a = some state)
    (hp : (n.perform k (.number a x)).1 = .ok (some p)) :
    (x, p) ∈ (n.perform k (.number a x)).2.table state.scope := by
  simp only [perform, ha] at hp ⊢
  have htable := table_set (h.sound a state ha).placed (n.placing k state x).table state.scope
  rw [if_pos rfl] at htable
  refine htable.symm ▸ mem_of_place (k := k) ?_
  cases houtcome : (n.placing k state x).outcome with
  | error fault => simp [houtcome, Except.map] at hp
  | ok q =>
    simp only [houtcome, Except.map, Except.ok.injEq, Option.some.injEq] at hp
    exact hp ▸ houtcome

end Numbers

namespace AffineSession

def scopeAt (s : AffineSession) (i : Nat) : AffineScope := (s.scopes[i]?).getD default

def perform : StateCall → AffineStep (Option Nat)
  | .create state parent allowNewDims allowNewSymbols => do
    newState state parent allowNewDims allowNewSymbols
    return none
  | .number kind state name => return some (← numbered state (Numbered.position name kind))

def withState (s : AffineSession) (a : String) (i : Nat) (build : AffineBuild) : AffineSession :=
  { s with states := Table.put a (i, build) s.states }

def numbers (k : VariableKind) (s : AffineSession) : Numbers where
  scopes := s.scopes.map (positions · k)
  states := fun a => (s.states.lookup a).map fun state =>
    ⟨state.1, state.2.used k, state.2.allows k⟩

variable {s t : AffineSession} {c : StateCall} {k : VariableKind}
  {a b x : String} {i p : Nat} {build : AffineBuild}

theorem table_numbers (k : VariableKind) (s : AffineSession) (i : Nat) :
    (s.numbers k).table i = (s.scopeAt i).positions k := by
  rw [Numbers.table, numbers, scopeAt, getElem?_map]
  cases s.scopes[i]? with
  | none => cases k <;> rfl
  | some scope => rfl

theorem numbers_withState (k : VariableKind) (s : AffineSession)
    (a : String) (i : Nat) (build : AffineBuild) :
    (s.withState a i build).numbers k =
      (s.numbers k).withState a ⟨i, build.used k, build.allows k⟩ := by
  refine congrArg (Numbers.mk _) (funext fun b => ?_)
  by_cases h : b = a
  · subst h
    simp [withState, Table.lookup_put_self]
  · simp [withState, Table.lookup_put_of_ne h, Function.update_of_ne h, numbers]

theorem set_scopeAt (s : AffineSession) (i : Nat) : s.scopes.set i (s.scopeAt i) = s.scopes := by
  by_cases h : i < s.scopes.length
  · rw [scopeAt, getElem?_eq_getElem h, Option.getD_some, set_getElem_self]
  · exact set_eq_of_length_le (Nat.le_of_not_lt h)

/-- What a call does, for a state that was made. -/
theorem exec_number (h : s.states.lookup a = some (i, build)) (k : VariableKind) (x : String) :
    exec (perform (.number k a x)) s =
      let placed := place k ((s.scopeAt i).positions k) (build.used k) (build.allows k) x
      (placed.outcome.map some,
        { s with scopes := s.scopes.set i ((s.scopeAt i).withPositions placed.table k) }.withState
          a i (build.withUsed placed.used k)) := by
  have hstate : exec (stateOf a) s = (.ok (i, s.scopeAt i, build), s) := by
    rw [stateOf, exec_bind_ok (exec_get s), h]
    rfl
  have haction := Numbered.exec_position x k (s.scopeAt i) build
  rw [exec] at haction
  generalize place k ((s.scopeAt i).positions k) (build.used k) (build.allows k) x =
    placed at haction ⊢
  rw [perform, numbered, bind_assoc, exec_bind_ok hstate]
  simp only [haction]
  cases placed.outcome <;> rfl

theorem exec_number_none (h : s.states.lookup a = none) (k : VariableKind) (x : String) :
    exec (perform (.number k a x)) s = (.error .noKey, s) := by
  have hstate : exec (stateOf a) s = (.error .noKey, s) := by
    rw [stateOf, exec_bind_ok (exec_get s), h]
    rfl
  exact exec_bind_error (exec_bind_error hstate)

theorem exec_create_own (s : AffineSession) (a : String) (d y : Bool) :
    exec (perform (.create a none d y)) s =
      (.ok none, { s with scopes := s.scopes ++ [default] }.withState a s.scopes.length
        { allowNewDims := d, allowNewSymbols := y }) := by
  rw [perform, newState, bind_assoc, exec_bind_ok (exec_get s)]
  rfl

theorem exec_create_shared (h : s.states.lookup b = some (i, build)) (a : String) (d y : Bool) :
    exec (perform (.create a (some b) d y)) s =
      (.ok none, s.withState a i { allowNewDims := d, allowNewSymbols := y }) := by
  rw [perform, newState, bind_assoc, exec_bind_ok (exec_get s)]
  simp only [h]
  rfl

theorem exec_create_none (h : s.states.lookup b = none) (a : String) (d y : Bool) :
    exec (perform (.create a (some b) d y)) s = (.error .noKey, s) := by
  rw [perform, newState, bind_assoc, exec_bind_ok (exec_get s)]
  simp only [h]
  rfl

private theorem eq_of_exec_error {fault : Fault}
    (h : exec (perform c) s = (.error fault, t)) : t = s := by
  cases c with
  | create a parent d y =>
    cases parent with
    | none => simp [exec_create_own] at h
    | some b =>
      cases hb : s.states.lookup b with
      | none => exact ((Prod.mk.inj ((exec_create_none hb a d y).symm.trans h)).2).symm
      | some found => simp [exec_create_shared hb] at h
  | number k a x =>
    cases ha : s.states.lookup a with
    | none => exact ((Prod.mk.inj ((exec_number_none ha k x).symm.trans h)).2).symm
    | some found =>
      obtain ⟨houtcome, rfl⟩ := Prod.mk.inj ((exec_number ha k x).symm.trans h)
      cases hplace : (place k ((s.scopeAt found.1).positions k) (found.2.used k) (found.2.allows k)
        x).outcome with
      | ok p => simp [hplace, Except.map] at houtcome
      | error fault' =>
        obtain ⟨htable, hused⟩ := place_eq_of_error hplace
        simp only [htable, hused, withPositions_self,
          AffineBuild.withUsed_self, set_scopeAt]
        rw [withState, Table.put_of_lookup ha]

section

variable (k : VariableKind) (s : AffineSession)

theorem states_numbers (a : String) :
    (s.numbers k).states a =
      (s.states.lookup a).map fun state => ⟨state.1, state.2.used k, state.2.allows k⟩ := rfl

theorem scopes_numbers : (s.numbers k).scopes = s.scopes.map (positions · k) := rfl

private theorem numbers_with_scopes (scopes : List AffineScope) :
    ({ s with scopes } : AffineSession).numbers k =
      { s.numbers k with scopes := scopes.map (positions · k) } := rfl

end

/-- The numbers of a kind change as the calls for that kind say. -/
theorem numbers_exec {call : KindCall} (h : c.only k = some call) (s : AffineSession) :
    ((exec (perform c) s).1, (exec (perform c) s).2.numbers k) = (s.numbers k).perform k call := by
  cases c with
  | create a parent d y =>
    obtain rfl := Option.some.inj h
    have hused : AffineBuild.used { allowNewDims := d, allowNewSymbols := y } k = [] := by
      cases k <;> rfl
    have hpositions : (default : AffineScope).positions k = [] := by
      cases k <;> rfl
    cases parent with
    | none =>
      simp [exec_create_own, numbers_withState, numbers_with_scopes,
        scopes_numbers, hused, hpositions, Numbers.perform]
    | some b =>
      cases hb : s.states.lookup b with
      | none => simp [exec_create_none hb, Numbers.perform, states_numbers, hb]
      | some found =>
        simp [exec_create_shared hb, numbers_withState, Numbers.perform, states_numbers, hb, hused]
  | number kind a x =>
    rw [StateCall.only, Option.ite_none_right_eq_some] at h
    obtain ⟨rfl, hcall⟩ := h
    obtain rfl := Option.some.inj hcall
    cases ha : s.states.lookup a with
    | none => simp [exec_number_none ha, Numbers.perform, states_numbers, ha]
    | some found =>
      simp [exec_number ha, numbers_withState, numbers_with_scopes, scopes_numbers, Numbers.perform,
        Numbers.placing, states_numbers, ha, table_numbers, map_set]

private theorem numbers_exec_of_none (h : c.only k = none) (s : AffineSession) :
    (exec (perform c) s).2.numbers k = s.numbers k := by
  cases c with
  | create => cases h
  | number kind a x =>
    have hkind : k ≠ kind := by
      rintro rfl
      simp [StateCall.only] at h
    cases ha : s.states.lookup a with
    | none => rw [exec_number_none ha]
    | some found =>
      rw [exec_number ha, numbers_withState, AffineBuild.used_withUsed_of_ne _ hkind,
        AffineBuild.allows_withUsed, numbers_with_scopes, map_set,
        positions_withPositions_of_ne _ hkind, ← map_set, set_scopeAt]
      refine congrArg (Numbers.mk _) (Function.update_eq_self_iff.mpr ?_)
      rw [states_numbers, ha]
      rfl

/-! ## Any calls in any order -/

def after (calls : List StateCall) : AffineSession :=
  calls.foldl (fun s c => (exec (perform c) s).2) {}

theorem numbers_foldl (k : VariableKind) (calls : List StateCall) (s : AffineSession) :
    (calls.foldl (fun s c => (exec (perform c) s).2) s).numbers k =
      (calls.filterMap (StateCall.only k)).foldl
        (fun n call => (n.perform k call).2) (s.numbers k) := by
  induction calls generalizing s with
  | nil => rfl
  | cons c calls ih =>
    rw [foldl_cons, ih]
    cases h : c.only k with
    | none => rw [filterMap_cons_none h, numbers_exec_of_none h]
    | some call => rw [filterMap_cons_some h, foldl_cons, ← numbers_exec h]

theorem wellNumbered_after (k : VariableKind) (calls : List StateCall) :
    ((after calls).numbers k).WellNumbered := by
  rw [after, numbers_foldl]
  refine (Numbers.foldl_keeps k _ ⟨fun i => ?_, fun a state h => ?_⟩).2
  · exact ⟨nodup_nil, rfl⟩
  · cases h

/-- In a sequence of calls, a state on a scope was asked for a name and answered with a position. -/
def Returned (calls : List StateCall) (k : VariableKind) (i : Nat) (x : String) (p : Nat) : Prop :=
  ∃ before rest a build, calls = before ++ .number k a x :: rest ∧
    (after before).states.lookup a = some (i, build) ∧
    (exec (perform (.number k a x)) (after before)).1 = .ok (some p)

private theorem Returned.mem_positions {calls : List StateCall} (h : Returned calls k i x p) :
    (x, p) ∈ ((after calls).scopeAt i).positions k := by
  obtain ⟨before, rest, a, build, rfl, hstate, hreturned⟩ := h
  have honly : (StateCall.number k a x).only k = some (.number a x) := if_pos rfl
  have hwell := wellNumbered_after k before
  have hnumbers : ((after before).numbers k).states a = some ⟨i, build.used k, build.allows k⟩ := by
    rw [states_numbers, hstate]
    rfl
  have hexec := numbers_exec honly (after before)
  have houtcome : (((after before).numbers k).perform k (.number a x)).1 = .ok (some p) := by
    rw [← hexec, hreturned]
  have hmem := Numbers.perform_position hwell hnumbers houtcome
  have hkeeps := Numbers.foldl_keeps k (rest.filterMap (StateCall.only k))
    (Numbers.perform_keeps k hwell (.number a x)).2
  rw [← hexec] at hmem hkeeps
  rw [← numbers_foldl] at hkeeps
  rw [← table_numbers, after, foldl_append, foldl_cons]
  exact (hkeeps.1.table i).subset hmem

/-- What holds after any calls. -/
structure KeepsNumbering (calls : List StateCall) : Prop where
  dense : ∀ i k, IsDense (((after calls).scopeAt i).positions k)
  remembered : ∀ a i build, (after calls).states.lookup a = some (i, build) →
    i < (after calls).scopes.length ∧
    ∀ k, ((build.used k).map Prod.fst).Nodup ∧ build.used k ⊆ ((after calls).scopeAt i).positions k
  returned : ∀ k i x p, Returned calls k i x p →
    (x, p) ∈ ((after calls).scopeAt i).positions k ∧ p < (((after calls).scopeAt i).names k).length
  /-- A name keeps its position, whichever states on the scope are asked for it and when. -/
  stable : ∀ k i x p q, Returned calls k i x p → Returned calls k i x q → p = q
  /-- States are on the scope that they were made with. -/
  shared : ∀ a b d y i build, (after calls).states.lookup b = some (i, build) →
    ∃ build', (after (calls ++ [.create a (some b) d y])).states.lookup a = some (i, build')
  own : ∀ a d y, ∃ build,
    (after (calls ++ [.create a none d y])).states.lookup a =
      some ((after calls).scopes.length, build)
  kept : ∀ k a x b, ((after (calls ++ [.number k a x])).states.lookup b).map Prod.fst =
    ((after calls).states.lookup b).map Prod.fst
  /-- One kind does not see which calls there were for the other, nor what was allowed of it. -/
  apart : ∀ k calls', calls.filterMap (StateCall.only k) = calls'.filterMap (StateCall.only k) →
    (after calls).numbers k = (after calls').numbers k ∧
      ∀ a x, (exec (perform (.number k a x)) (after calls)).1 =
        (exec (perform (.number k a x)) (after calls')).1
  refused : ∀ k a x i build, (after calls).states.lookup a = some (i, build) →
    ((∃ text, (exec (perform (.number k a x)) (after calls)).1 = .error (.badValue text)) ↔
      x ∉ ((after calls).scopeAt i).names k ∧ build.allows k = false)
  unchanged : ∀ c fault t, exec (perform c) (after calls) = (.error fault, t) → t = after calls

private theorem after_concat (calls : List StateCall) (c : StateCall) :
    after (calls ++ [c]) = (exec (perform c) (after calls)).2 := by
  rw [after, after, foldl_append]
  rfl

private theorem isDense_after (calls : List StateCall) (i : Nat) (k : VariableKind) :
    IsDense (((after calls).scopeAt i).positions k) := by
  rw [← table_numbers]
  exact (wellNumbered_after k calls).dense i

private theorem sound_after {calls : List StateCall}
    (h : (after calls).states.lookup a = some (i, build)) (k : VariableKind) :
    ((after calls).numbers k).Sound ⟨i, build.used k, build.allows k⟩ :=
  (wellNumbered_after k calls).sound a _ (by rw [states_numbers, h]; rfl)

theorem keeps_numbering (calls : List StateCall) : KeepsNumbering calls where
  dense i k := isDense_after calls i k
  remembered a i build h := by
    refine ⟨by simpa [numbers] using (sound_after h .dim).placed, fun k => ⟨(sound_after h k).once,
      ?_⟩⟩
    rw [← table_numbers]
    exact (sound_after h k).known
  returned k i x p h := by
    have hmem := h.mem_positions
    refine ⟨hmem, ?_⟩
    have hposition := mem_map_of_mem (f := Prod.snd) hmem
    rw [(isDense_after calls i k).2, mem_range] at hposition
    rwa [names_eq, length_map]
  stable k i x p q hp hq := by
    have hp' := (lookup_eq_some_iff_mem (isDense_after calls i k).1).mpr hp.mem_positions
    have hq' := (lookup_eq_some_iff_mem (isDense_after calls i k).1).mpr hq.mem_positions
    exact Option.some.inj (hp'.symm.trans hq')
  shared a b d y i build h := by
    rw [after_concat, exec_create_shared h]
    exact ⟨_, Table.lookup_put_self ..⟩
  own a d y := by
    rw [after_concat, exec_create_own]
    exact ⟨_, Table.lookup_put_self ..⟩
  kept k a x b := by
    rw [after_concat]
    cases ha : (after calls).states.lookup a with
    | none => rw [exec_number_none ha]
    | some found =>
      rw [exec_number ha]
      by_cases hb : b = a
      · subst hb
        simp [withState, Table.lookup_put_self, ha]
      · simp [withState, Table.lookup_put_of_ne hb]
  apart k calls' h := by
    have hnumbers : (after calls).numbers k = (after calls').numbers k := by
      rw [after, after, numbers_foldl, numbers_foldl, h]
    refine ⟨hnumbers, fun a x => ?_⟩
    have honly : (StateCall.number k a x).only k = some (.number a x) := if_pos rfl
    have houtcome := fun s => congrArg Prod.fst (numbers_exec honly s)
    exact (houtcome (after calls)).trans (hnumbers ▸ (houtcome (after calls')).symm)
  refused k a x i build h := by
    rw [names_eq, ← place_refused_iff (k := k), exec_number h]
    generalize place k (((after calls).scopeAt i).positions k)
      (build.used k) (build.allows k) x = placed
    cases houtcome : placed.outcome <;> simp [houtcome, Except.map]
  unchanged c fault t h := eq_of_exec_error h

end AffineSession

end Polyloom
