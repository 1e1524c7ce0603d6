import Polyloom.Proofs.Builder.Steps
import Polyloom.Script.Library.Programs

/-!
# Settings inside of scopes

A scope gives its flag a fixed value when it is entered and the opposite one when it is left.  A
fault that passes through a scope leaves the flag alone.  So a flag is restored only where it had
the right value before, and what it had before is the value of the next scope around it for the same
flag, or the value at the start.
-/

namespace Polyloom

open Build List Session

variable {context : Value} {flags : ContextFlags} {setting : Setting}

/-! ## Flags -/

/-- What the settings are about: two flags of every context, and one that all share. -/
inductive Flag where
  | unregistered (context : Nat)
  | multithreading (context : Nat)
  | debug
  deriving DecidableEq, Repr

namespace Session

def contextFlags? (s : Session) (id : Nat) : Option ContextFlags :=
  match s.objects[id]? with
  | some (.context flags) => some flags
  | _ => none

def flag (s : Session) : Flag → Option Bool
  | .unregistered id => (s.contextFlags? id).map ContextFlags.allowUnregistered
  | .multithreading id => (s.contextFlags? id).map ContextFlags.multithreading
  | .debug => some s.debug

/-- Flags may change, but none is lost, and scopes keep their states. -/
structure Retains (s t : Session) : Prop where
  flag_isSome : ∀ f, (s.flag f).isSome → (t.flag f).isSome
  scope_eq : ∀ (id : Nat) kind state points, s.objects[id]? =
    some (Object.scope kind state points) → t.objects[id]? = some (Object.scope kind state points)

structure Undisturbed (s t : Session) : Prop extends s.Retains t where
  flag_eq : ∀ f b, s.flag f = some b → t.flag f = some b

/-- What running passes may change: contexts, the record and what is printed. -/
abbrev Worked (s t : Session) : Prop := s.Frame {.objects, .debug, .events, .printed}ᶜ ∅ t

theorem worked_of_eq {s t : Session} (h : t = { s with
    objects := t.objects, debug := t.debug, events := t.events, printed := t.printed }) :
    s.Worked t := by
  refine ⟨fun p hp => ?_, by simp⟩
  rw [h]
  cases p <;> first | rfl | simp at hp

/-- One flag is changed, and no object that is not a context. -/
structure Sets (s : Session) (f : Flag) (b : Bool) (t : Session) : Prop where
  flag_eq : ∀ g, t.flag g = if g = f then some b else s.flag g
  object_eq : ∀ id, s.contextFlags? id = none → t.objects[id]? = s.objects[id]?
  worked : s.Worked t

variable {s t u : Session} {f : Flag} {b : Bool} {id n : Nat} {flags old : ContextFlags}

theorem Undisturbed.refl (s : Session) : s.Undisturbed s :=
  ⟨⟨fun _ hf => hf, fun _ _ _ _ hid => hid⟩, fun _ _ hf => hf⟩

theorem Retains.trans (h : s.Retains t) (h' : t.Retains u) : s.Retains u :=
  ⟨fun f hf => h'.flag_isSome f (h.flag_isSome f hf), fun id kind state points hs =>
    h'.scope_eq id kind state points (h.scope_eq id kind state points hs)⟩

theorem contextFlags?_of_scope {kind : ScopeKind} {state : ScopeState}
    {points : List InsertionPoint} (h : s.objects[id]? = some (Object.scope kind state points)) :
    s.contextFlags? id = none := by
  simp [contextFlags?, h]

theorem flag_congr (hdebug : t.debug = s.debug)
    (h : ∀ id, t.contextFlags? id = s.contextFlags? id) (g : Flag) : t.flag g = s.flag g := by
  cases g with
  | unregistered id => simp [flag, h id]
  | multithreading id => simp [flag, h id]
  | debug => simp [flag, hdebug]

def withScope (s : Session) (id : Nat) (kind : ScopeKind) (state : ScopeState)
    (points : List InsertionPoint) : Session :=
  { s with objects := s.objects.set id (.scope kind state points) }

theorem objects_withScope_of_ne (h : id ≠ n) (kind : ScopeKind)
    (state : ScopeState) (points : List InsertionPoint) :
    (s.withScope n kind state points).objects[id]? = s.objects[id]? := by
  simp [withScope, getElem?_set_ne h.symm]

private theorem contextFlags?_withScope (h : s.contextFlags? n = none) (kind : ScopeKind)
    (state : ScopeState) (points : List InsertionPoint) (id : Nat) :
    (s.withScope n kind state points).contextFlags? id = s.contextFlags? id := by
  by_cases hid : id = n
  · subst hid
    rw [h]
    by_cases hlt : id < s.objects.length
    · simp [contextFlags?, withScope, getElem?_set_self hlt]
    · have hnone : (s.objects.set id (.scope kind state points))[id]? = none :=
        getElem?_eq_none (by simpa using hlt)
      simp [contextFlags?, withScope, hnone]
  · simp only [contextFlags?, objects_withScope_of_ne hid]

theorem flag_withScope (h : s.contextFlags? n = none) (kind : ScopeKind) (state : ScopeState)
    (points : List InsertionPoint) (g : Flag) :
    (s.withScope n kind state points).flag g = s.flag g :=
  flag_congr (by rfl) (contextFlags?_withScope h kind state points) g

def withContext (s : Session) (id : Nat) (flags : ContextFlags) : Session :=
  { s with objects := s.objects.set id (.context flags) }

theorem objects_eq_of_contextFlags? (h : s.contextFlags? id = some flags) :
    s.objects[id]? = some (.context flags) := by
  unfold contextFlags? at h
  split at h
  · rename_i hget
    cases h
    exact hget
  · cases h

theorem contextFlags?_withContext (h : s.contextFlags? id = some old)
    (flags : ContextFlags) (n : Nat) :
    (s.withContext id flags).contextFlags? n =
      if n = id then some flags else s.contextFlags? n := by
  by_cases hn : n = id
  · subst hn
    obtain ⟨hlt, -⟩ := List.getElem?_eq_some_iff.1 (objects_eq_of_contextFlags? h)
    simp [contextFlags?, withContext, List.getElem?_set_self hlt]
  · simp [contextFlags?, withContext, List.getElem?_set_ne (Ne.symm hn), hn]

theorem objects_withContext (h : s.contextFlags? id = some old) (flags : ContextFlags)
    (hn : s.contextFlags? n = none) : (s.withContext id flags).objects[n]? = s.objects[n]? := by
  have hne : id ≠ n := by
    rintro rfl
    rw [h] at hn
    cases hn
  simp [withContext, getElem?_set_ne hne]

private theorem sets_unregistered (h : s.contextFlags? id = some flags) (b : Bool) :
    s.Sets (.unregistered id) b (s.withContext id { flags with allowUnregistered := b }) := by
  refine ⟨fun g => ?_, fun n hn => objects_withContext h _ hn, worked_of_eq rfl⟩
  cases g with
  | unregistered n => by_cases hn : n = id <;> simp [flag, contextFlags?_withContext h, hn]
  | multithreading n => by_cases hn : n = id <;> simp [flag, contextFlags?_withContext h, hn, h]
  | debug => simp [flag, withContext]

private theorem sets_multithreading (h : s.contextFlags? id = some flags) (b : Bool) :
    s.Sets (.multithreading id) b (s.withContext id { flags with multithreading := b }) := by
  refine ⟨fun g => ?_, fun n hn => objects_withContext h _ hn, worked_of_eq rfl⟩
  cases g with
  | unregistered n => by_cases hn : n = id <;> simp [flag, contextFlags?_withContext h, hn, h]
  | multithreading n => by_cases hn : n = id <;> simp [flag, contextFlags?_withContext h, hn]
  | debug => simp [flag, withContext]

private theorem sets_debug (b : Bool) : s.Sets .debug b { s with debug := b } := by
  refine ⟨fun g => ?_, fun n _ => rfl, worked_of_eq rfl⟩
  cases g with
  | unregistered n => rfl
  | multithreading n => rfl
  | debug => rfl

private theorem Sets.record (h : s.Sets f b t) (event : Event) :
    s.Sets f b { t with events := t.events ++ [event] } :=
  ⟨h.flag_eq, h.object_eq, h.worked.trans (worked_of_eq rfl)⟩

def addScope (s : Session) (kind : ScopeKind) : Session :=
  { s with objects := s.objects ++ [.scope kind .fresh []] }

theorem objects_addScope_self (kind : ScopeKind) :
    (s.addScope kind).objects[s.objects.length]? = some (.scope kind .fresh []) := by
  simp [addScope]

theorem objects_addScope (h : id < s.objects.length) (kind : ScopeKind) :
    (s.addScope kind).objects[id]? = s.objects[id]? := by
  simp [addScope, getElem?_append_left h]

private theorem contextFlags?_addScope (kind : ScopeKind) (id : Nat) :
    (s.addScope kind).contextFlags? id = s.contextFlags? id := by
  rcases Nat.lt_trichotomy id s.objects.length with h | rfl | h
  · simp only [contextFlags?, objects_addScope h]
  · rw [contextFlags?_of_scope (objects_addScope_self kind)]
    simp [contextFlags?]
  · have hnone : (s.addScope kind).objects[id]? = none :=
      getElem?_eq_none (by simp [addScope]; omega)
    simp [contextFlags?, hnone, getElem?_eq_none h.le]

private theorem flag_addScope (kind : ScopeKind) (g : Flag) : (s.addScope kind).flag g = s.flag g :=
  flag_congr (by rfl) (contextFlags?_addScope kind) g

end Session

/-! ## Changing one flag -/

namespace Setting

variable {s : Session} {id : Nat}

def flag (setting : Setting) (context : Value) : Option Flag :=
  match setting, contextOf context with
  | .debug, _ => some .debug
  | .allowUnregistered, .object id => some (.unregistered id)
  | .enableMultithreading, .object id => some (.multithreading id)
  | .disableMultithreading, .object id => some (.multithreading id)
  | _, _ => none

/-- The value that a setting gives to its flag where its scope begins, or where it ends. -/
def value (setting : Setting) (inside : Bool) : Bool :=
  match setting with
  | .disableMultithreading => !inside
  | _ => inside

theorem exec_flagsOf (h : s.contextFlags? id = some flags) :
    (flagsOf (.object id)).exec s = (.ok (id, flags), s) := by
  have hread := exec_object (objects_eq_of_contextFlags? h)
  unfold flagsOf
  simp only
  rw [exec_bind_ok hread]
  rfl

private theorem exec_setMultithreading (h : s.contextFlags? id = some flags) (b : Bool) : ∃ t,
    (setMultithreading (.object id) b).exec s = (.ok (), t) ∧ s.Sets (.multithreading id) b t := by
  refine ⟨_, ?_, (sets_multithreading h b).record (.multithreading b)⟩
  unfold setMultithreading
  rw [exec_bind_ok (exec_flagsOf h)]
  rfl

theorem exec_apply (hf : setting.flag context = some f) (hs : (s.flag f).isSome) (inside : Bool) :
    ∃ t, (apply setting (contextOf context) inside).exec s = (.ok (), t) ∧
      s.Sets f (setting.value inside) t := by
  obtain ⟨b, hb⟩ := Option.isSome_iff_exists.1 hs
  unfold flag at hf
  split at hf <;> cases hf
  · exact ⟨_, rfl, sets_debug inside⟩
  · rename_i id hcontext
    obtain ⟨flags, hflags, -⟩ := Option.map_eq_some_iff.1 hb
    refine ⟨_, ?_, sets_unregistered hflags inside⟩
    simp only [hcontext, apply, setUnregistered]
    rw [exec_bind_ok (exec_flagsOf hflags)]
    rfl
  · rename_i id hcontext
    obtain ⟨flags, hflags, -⟩ := Option.map_eq_some_iff.1 hb
    rw [hcontext]
    exact exec_setMultithreading hflags inside
  · rename_i id hcontext
    obtain ⟨flags, hflags, -⟩ := Option.map_eq_some_iff.1 hb
    rw [hcontext]
    exact exec_setMultithreading hflags (!inside)

/-! ## Entering and leaving -/

variable {setting : Setting} {context : Value} {f : Flag}

def openScope (setting : Setting) (context : Value) : Build Value := do
  let scope ← Library.settingScope setting context
  let _ ← Scope.enterObject scope
  return scope

section

variable (hf : setting.flag context = some f) (hs : (s.flag f).isSome)

include hf hs

private theorem exec_enterScope
    (hid : s.objects[id]? = some (.scope (.setting setting context) .fresh [])) :
    ∃ t, (Scope.enterObject (.object id)).exec s = (.ok .none, t) ∧
      (∀ g, t.flag g = if g = f then some (setting.value true) else s.flag g) ∧
      t.objects[id]? = some (.scope (.setting setting context) .inside []) ∧
      ∀ n kind state points, n ≠ id → s.objects[n]? = some (Object.scope kind state points) →
        t.objects[n]? = some (Object.scope kind state points) := by
  have hnone : s.contextFlags? id = none := contextFlags?_of_scope hid
  obtain ⟨hlt, -⟩ := List.getElem?_eq_some_iff.1 hid
  -- the scope is marked as finished while its first part runs
  have hmarked : (s.withScope id (.setting setting context) .finished []).objects[id]? =
      some (.scope (.setting setting context) .finished []) := by
    simp [withScope, List.getElem?_set_self hlt]
  have hsome : ((s.withScope id (.setting setting context) .finished []).flag f).isSome := by
    rw [flag_withScope hnone]
    exact hs
  obtain ⟨t, happly, hsets⟩ := exec_apply hf hsome true
  have ht : t.objects[id]? = some (.scope (.setting setting context) .finished []) := by
    rw [hsets.object_eq id (contextFlags?_of_scope hmarked), hmarked]
  obtain ⟨hlt', -⟩ := List.getElem?_eq_some_iff.1 ht
  refine ⟨t.withScope id (.setting setting context) .inside [], ?_, fun g => ?_, ?_,
    fun n kind state points hn hscope => ?_⟩
  · have hrun : (Scope.start (.setting setting context)).exec
        (s.withScope id (.setting setting context) .finished []) = (.ok (.none, []), t) := by
      simp only [Scope.start]
      rw [exec_bind_ok happly]
      rfl
    simp only [Scope.enterObject]
    rw [exec_bind_ok (exec_object hid)]
    change (Scope.start (.setting setting context) >>= _).exec
      (s.withScope id (.setting setting context) .finished []) = _
    rw [exec_bind_ok hrun]
    rfl
  · rw [flag_withScope (contextFlags?_of_scope ht),
      hsets.flag_eq g, flag_withScope hnone]
  · simp [withScope, List.getElem?_set_self hlt']
  · have hother :=
      objects_withScope_of_ne (s := s) hn (.setting setting context) .finished []
    rw [hscope] at hother
    rw [objects_withScope_of_ne hn,
      hsets.object_eq n (contextFlags?_of_scope hother), hother]

private theorem exec_leaveObject
    (hid : s.objects[id]? = some (.scope (.setting setting context) .inside [])) :
    ∃ t, (Scope.leaveObject (.object id)).exec s = (.ok (.bool false), t) ∧
      (∀ g, t.flag g = if g = f then some (setting.value false) else s.flag g) ∧
      ∀ n kind state points, n ≠ id → s.objects[n]? = some (Object.scope kind state points) →
        t.objects[n]? = some (Object.scope kind state points) := by
  have hnone : s.contextFlags? id = none := contextFlags?_of_scope hid
  have hsome : ((s.withScope id (.setting setting context) .finished []).flag f).isSome := by
    rw [flag_withScope hnone]
    exact hs
  obtain ⟨t, happly, hsets⟩ := exec_apply hf hsome false
  refine ⟨t, ?_, fun g => ?_, fun n kind state points hn hscope => ?_⟩
  · simp only [Scope.leaveObject]
    rw [exec_bind_ok (exec_object hid)]
    change (apply setting (contextOf context) false >>= _).exec
      (s.withScope id (.setting setting context) .finished []) = _
    rw [exec_bind_ok happly]
    rfl
  · rw [hsets.flag_eq g, flag_withScope hnone]
  · have hother :=
      objects_withScope_of_ne (s := s) hn (.setting setting context) .finished []
    rw [hscope] at hother
    rw [hsets.object_eq n (contextFlags?_of_scope hother), hother]

private theorem exec_openScope :
    ∃ t, (openScope setting context).exec s = (.ok (.object s.objects.length), t) ∧
      (∀ g, t.flag g = if g = f then some (setting.value true) else s.flag g) ∧ s.Retains t ∧
      t.objects[s.objects.length]? = some (.scope (.setting setting context) .inside []) := by
  have hsome : ((s.addScope (.setting setting context)).flag f).isSome := by
    rw [flag_addScope]
    exact hs
  obtain ⟨t, hrun, hflag, hself, hother⟩ :=
    exec_enterScope hf hsome (objects_addScope_self (.setting setting context))
  have hflags : ∀ g, t.flag g = if g = f then some (setting.value true) else s.flag g := by
    intro g
    rw [hflag g, flag_addScope]
  refine ⟨t, ?_, hflags, ⟨fun g hg => ?_, fun n kind state points hn => ?_⟩, hself⟩
  · have hmade : (Library.settingScope setting context).exec s =
        (.ok (.object s.objects.length), s.addScope (.setting setting context)) := rfl
    unfold openScope
    rw [exec_bind_ok hmade, exec_bind_ok hrun]
    rfl
  · rw [hflags g]
    split
    · rfl
    · exact hg
  · obtain ⟨hlt, -⟩ := List.getElem?_eq_some_iff.1 hn
    refine hother n kind state points (by omega) ?_
    rw [objects_addScope hlt, hn]

end

end Setting

/-! ## Programs with scopes -/

/-- Code that changes no setting.  It may fail. -/
structure QuietStep where
  run : Build Unit
  undisturbed : ∀ s : Session, s.Undisturbed (run.exec s).2

/-- Scopes one after the other and inside of each other.  A fault ends everything up to the next
handler around it. -/
inductive SettingProgram where
  | step (quiet : QuietStep)
  | seq (first second : SettingProgram)
  | handled (body : SettingProgram)
  | scope (setting : Setting) (context : Value) (body : SettingProgram)

/-- One time that a scope was entered and left, with or without a fault. -/
structure ScopeVisit where
  setting : Setting
  flag : Flag
  around : List (Flag × Bool)
  before : Session
  raised : Bool
  after : Session

namespace ScopeVisit

def Restores (v : ScopeVisit) : Prop := v.after.flag v.flag = v.before.flag v.flag

/-- The one value that a visit can restore. -/
def required (v : ScopeVisit) : Bool := v.setting.value v.raised

end ScopeVisit

/-- The value of a flag by the scopes around, in a run that started at a session. -/
def Session.flagWithin (s : Session) : List (Flag × Bool) → Flag → Option Bool
  | [], f => s.flag f
  | (g, b) :: around, f => if f = g then some b else s.flagWithin around f

namespace SettingProgram

def run : SettingProgram → Build Unit
  | .step quiet => quiet.run
  | .seq first second => do
    first.run
    second.run
  | .handled body => do
    let _ ← attempt body.run
  | .scope setting context body => do
    let scope ← Setting.openScope setting context
    -- a fault passes on from here, and the second part of the scope is not run
    body.run
    let _ ← Scope.leaveObject scope

/-- The visits of a run, each scope before those inside of it. -/
def visits : SettingProgram → Session → List (Flag × Bool) → List ScopeVisit
  | .step _, _, _ => []
  | .seq first second, s, around =>
    first.visits s around ++
      if (first.run.exec s).1.isOk then second.visits (first.run.exec s).2 around else []
  | .handled body, s, around => body.visits s around
  | .scope setting context body, s, around =>
    match setting.flag context with
    | none => []
    | some f =>
      let whole := (scope setting context body).run.exec s
      ⟨setting, f, around, s, !whole.1.isOk, whole.2⟩ ::
        body.visits ((Setting.openScope setting context).exec s).2
          ((f, setting.value true) :: around)

def UsesContexts (s : Session) : SettingProgram → Prop
  | .step _ => True
  | .seq first second => first.UsesContexts s ∧ second.UsesContexts s
  | .handled body => body.UsesContexts s
  | .scope setting context body =>
    (∃ f, setting.flag context = some f ∧ (s.flag f).isSome) ∧ body.UsesContexts s

variable {s s₀ t : Session} {p : SettingProgram} {around : List (Flag × Bool)}

theorem UsesContexts.retains (h : p.UsesContexts s) (hst : s.Retains t) : p.UsesContexts t := by
  induction p with
  | step quiet => trivial
  | seq first second ih₁ ih₂ => exact ⟨ih₁ h.1, ih₂ h.2⟩
  | handled body ih => exact ih h
  | scope setting context body ih =>
    obtain ⟨⟨f, hf, hs⟩, hbody⟩ := h
    exact ⟨⟨f, hf, hst.flag_isSome f hs⟩, ih hbody⟩

theorem exec_handled (body : SettingProgram) (s : Session) :
    (handled body).run.exec s = (.ok (), (body.run.exec s).2) := by
  rfl

/-- A scope ends as its body does.  Its flag is changed at the end if that was no fault. -/
theorem exec_scope {body : SettingProgram} {f : Flag} (hf : setting.flag context = some f)
    (hs : (s.flag f).isSome) (hbody : ∀ e, s.Retains e → e.Retains (body.run.exec e).2) :
    ∃ e t, ((Setting.openScope setting context).exec s).2 = e ∧
      s.Retains e ∧ (∀ g, e.flag g = if g = f then some (setting.value true) else s.flag g) ∧
      (scope setting context body).run.exec s = ((body.run.exec e).1, t) ∧
      s.Retains t ∧ ∀ g, t.flag g = if (body.run.exec e).1.isOk ∧
      g = f then some (setting.value false) else (body.run.exec e).2.flag g := by
  obtain ⟨e, hopen, hflags, hse, hself⟩ := Setting.exec_openScope hf hs
  have heb := hbody e hse
  rcases hrun : body.run.exec e with ⟨fault | ⟨⟩, u⟩
  · rw [hrun] at heb
    refine ⟨e, u, by rw [hopen], hse, hflags, ?_, hse.trans heb, by simp [hrun,
      Except.isOk, Except.toBool]⟩
    simp only [run]
    rw [exec_bind_ok hopen, exec_bind_error hrun, hrun]
  · rw [hrun] at heb
    have hu : (u.flag f).isSome := heb.flag_isSome f (by simp [hflags f])
    obtain ⟨t, hleave, hleft, hscopes⟩ :=
      Setting.exec_leaveObject hf hu (heb.scope_eq _ _ _ _ hself)
    refine ⟨e, t, by rw [hopen], hse, hflags, ?_, ⟨fun g hg => ?_,
      fun n kind state points hn => ?_⟩, by simp [hrun, hleft, Except.isOk, Except.toBool]⟩
    · simp only [run]
      rw [exec_bind_ok hopen, exec_bind_ok hrun, exec_bind_ok hleave, hrun]
      rfl
    · rw [hleft g]
      split
      · rfl
      · exact (hse.trans heb).flag_isSome g hg
    · obtain ⟨hlt, -⟩ := List.getElem?_eq_some_iff.1 hn
      exact hscopes n kind state points (by omega) ((hse.trans heb).scope_eq n kind state points hn)

theorem retains_run (h : p.UsesContexts s) : s.Retains (p.run.exec s).2 := by
  induction p generalizing s with
  | step quiet => exact (quiet.undisturbed s).toRetains
  | seq first second ih₁ ih₂ =>
    have hfirst := ih₁ h.1
    rcases hrun : first.run.exec s with ⟨fault | ⟨⟩, t⟩
    · rw [hrun] at hfirst
      simp only [run]
      rw [exec_bind_error hrun]
      exact hfirst
    · rw [hrun] at hfirst
      simp only [run]
      rw [exec_bind_ok hrun]
      exact hfirst.trans (ih₂ (h.2.retains hfirst))
  | handled body ih =>
    rw [exec_handled]
    exact ih h
  | scope setting context body ih =>
    obtain ⟨⟨f, hf, hs⟩, hbody⟩ := h
    obtain ⟨e, t, -, -, -, hrun, hst, -⟩ := exec_scope hf hs fun e he => ih (hbody.retains he)
    rw [hrun]
    exact hst

theorem visits_scope {body : SettingProgram} {f : Flag} {e : Session}
    {outcome : Except Fault Unit} (hf : setting.flag context = some f)
    (hopen : ((Setting.openScope setting context).exec s).2 = e)
    (hrun : (scope setting context body).run.exec s = (outcome, t)) (around : List (Flag × Bool)) :
    (scope setting context body).visits s around = ⟨setting, f, around, s, !outcome.isOk, t⟩ ::
      body.visits e ((f, setting.value true) :: around) := by
  simp only [visits, hf, hopen, hrun]

private theorem flag_after_of_returned (h : p.UsesContexts s) :
    ∀ v ∈ p.visits s around, v.raised = false →
      v.after.flag v.flag = some (v.setting.value false) := by
  induction p generalizing s around with
  | step quiet => simp [visits]
  | seq first second ih₁ ih₂ =>
    intro v hv
    rcases mem_append.1 hv with hv | hv
    · exact ih₁ h.1 v hv
    · split at hv
      · exact ih₂ (h.2.retains (retains_run h.1)) v hv
      · cases hv
  | handled body ih => exact ih h
  | scope setting context body ih =>
    obtain ⟨⟨f, hf, hs⟩, hbody⟩ := h
    obtain ⟨e, t, hopen, hse, -, hrun, -, hflags⟩ :=
      exec_scope hf hs fun e he => retains_run (hbody.retains he)
    rw [visits_scope hf hopen hrun]
    intro v hv
    rcases mem_cons.1 hv with rfl | hv
    · intro hraised
      have hok : (body.run.exec e).1.isOk = true := by simpa using hraised
      simp [hflags f, hok]
    · exact ih (hbody.retains hse) v hv

/-- A run whose scopes all restore their flags changes no flag. -/
private theorem flag_run_of_restores (h : p.UsesContexts s)
    (hv : ∀ v ∈ p.visits s around, v.Restores) {f : Flag} {b : Bool} (hb : s.flag f = some b) :
    (p.run.exec s).2.flag f = some b := by
  induction p generalizing s around with
  | step quiet => exact (quiet.undisturbed s).flag_eq f b hb
  | seq first second ih₁ ih₂ =>
    simp only [visits, forall_mem_append] at hv
    have hfirst := ih₁ h.1 hv.1 hb
    rcases hrun : first.run.exec s with ⟨fault | ⟨⟩, t⟩
    · rw [hrun] at hfirst
      simp only [run]
      rw [exec_bind_error hrun]
      exact hfirst
    · have hsecond := hv.2
      have hret := retains_run h.1
      rw [hrun] at hfirst hsecond hret
      simp only [run]
      rw [exec_bind_ok hrun]
      exact ih₂ (h.2.retains hret) hsecond hfirst
  | handled body ih =>
    rw [exec_handled]
    exact ih h hv hb
  | scope setting context body ih =>
    obtain ⟨⟨f', hf, hs⟩, hbody⟩ := h
    obtain ⟨e, t, hopen, hse, hinside, hrun, -, hflags⟩ :=
      exec_scope hf hs fun e he => retains_run (hbody.retains he)
    rw [visits_scope hf hopen hrun, forall_mem_cons] at hv
    rw [hrun]
    by_cases heq : f = f'
    · subst heq
      exact hv.1.trans hb
    · have he : e.flag f = some b := by rw [hinside f, if_neg heq, hb]
      have hend := ih (hbody.retains hse) hv.2 he
      rw [hflags f, if_neg (by simp [heq]), hend]

private theorem restores_iff_of (h : p.UsesContexts s₀) (hs : s₀.Retains s)
    (hvalue : ∀ f, (s₀.flag f).isSome → s.flag f = s₀.flagWithin around f) :
    (∀ v ∈ p.visits s around, v.Restores) ↔
      ∀ v ∈ p.visits s around, s₀.flagWithin v.around v.flag = some v.required := by
  induction p generalizing s around with
  | step quiet => simp [visits]
  | seq first second ih₁ ih₂ =>
    simp only [visits, forall_mem_append]
    rw [ih₁ h.1 hs hvalue]
    refine and_congr_right fun hfirst => ?_
    rw [← ih₁ h.1 hs hvalue] at hfirst
    split
    · refine ih₂ h.2 (hs.trans (retains_run (h.1.retains hs))) fun f hf => ?_
      obtain ⟨b, hb⟩ := Option.isSome_iff_exists.1 (hs.flag_isSome f hf)
      rw [flag_run_of_restores (h.1.retains hs) hfirst hb, ← hvalue f hf, hb]
    · simp
  | handled body ih => exact ih h hs hvalue
  | scope setting context body ih =>
    obtain ⟨⟨f, hf, hsome⟩, hbody⟩ := h
    obtain ⟨e, t, hopen, hse, hinside, hrun, -, hflags⟩ :=
      exec_scope hf (hs.flag_isSome f hsome) fun e he => retains_run (hbody.retains (hs.trans he))
    -- inside, the flag of the scope has its value and the others those of the scopes around
    have hvalue' : ∀ g, (s₀.flag g).isSome →
        e.flag g = s₀.flagWithin ((f, setting.value true) :: around) g := by
      intro g hg
      rw [hinside g, hvalue g hg]
      rfl
    have hbodyIff := ih hbody (hs.trans hse) hvalue'
    rw [visits_scope hf hopen hrun]
    simp only [forall_mem_cons]
    rw [hbodyIff]
    refine and_congr_left fun hall => ?_
    rw [← hbodyIff] at hall
    have hend : (body.run.exec e).2.flag f = some (setting.value true) :=
      flag_run_of_restores (hbody.retains (hs.trans hse)) hall (by simp [hinside f])
    simp only [ScopeVisit.Restores, ScopeVisit.required, hvalue f hsome, hflags f, hend]
    by_cases hok : (body.run.exec e).1.isOk = true
    · simp [hok, eq_comm]
    · simp [hok, eq_comm]

/-- All scopes of a run restore their flags if and only if each one is entered where its flag has,
by the scopes around it, the value that the scope leaves behind.  That is its outer value, or its
inner value if a fault passes through it. -/
theorem scopes_restore_iff (p : SettingProgram) (s : Session) (h : p.UsesContexts s) :
    ((∀ v ∈ p.visits s [], v.Restores) ↔ ∀ v ∈ p.visits s [],
      s.flagWithin v.around v.flag = some v.required) ∧
    ∀ v ∈ p.visits s [], v.raised = false → v.after.flag v.flag = some (v.setting.value false) :=
  ⟨restores_iff_of h (Undisturbed.refl s).toRetains fun _ _ => rfl,
    flag_after_of_returned h⟩

def idle : SettingProgram := .step ⟨pure (), Undisturbed.refl⟩

def failing : SettingProgram := .step ⟨throw (.failure "stopped"), Undisturbed.refl⟩

def alternating : SettingProgram :=
  .scope .debug .none
    (.seq (.scope .disableMultithreading .none (.scope .enableMultithreading .none idle))
    (.handled (.scope .enableMultithreading .none failing)))

theorem alternating_restores : alternating.UsesContexts {} ∧
    (alternating.visits {} []).length = 4 ∧ ∀ v ∈ alternating.visits {} [], v.Restores := by
  have huses : alternating.UsesContexts {} :=
    ⟨⟨.debug, rfl, rfl⟩, ⟨⟨.multithreading 0, rfl, rfl⟩, ⟨.multithreading 0, rfl, rfl⟩, trivial⟩,
      ⟨.multithreading 0, rfl, rfl⟩, trivial⟩
  refine ⟨huses, by decide +kernel, (scopes_restore_iff alternating {} huses).1.2 ?_⟩
  decide +kernel

/-- A flag that was on is off after its scope, and one that was off is on after a fault. -/
theorem scopes_forget_flags :
    (∃ v ∈ (scope .allowUnregistered .none (scope .allowUnregistered .none idle)).visits {} [],
      v.before.flag v.flag = some true ∧ v.after.flag v.flag = some false) ∧
    ∃ v ∈ (handled (scope .debug .none failing)).visits {} [],
      v.before.flag v.flag = some false ∧ v.after.flag v.flag = some true := by
  decide +kernel

end SettingProgram

end Polyloom
