import Polyloom.Builder.Worksharing
import Polyloom.Proofs.Stateful

/-!
# Steps of a build

A step takes a session to an outcome and the session after it.  Steps that only look at a
session leave it as it is, whether they succeed or fail.
-/

namespace Polyloom

namespace Build

export Stateful (exec_pure exec_throw exec_get exec_modify exec_bind_ok exec_bind_error
  exec_bind_eq_ok)

end Build

/-! ## What a step leaves alone -/

/-- The parts of a session. -/
inductive Part where
  | values | ops | blocks | points | stack | openIfs | lastPoints | events | printed | lists
  | frames | objects | vars | recentStores | debug | collected | builders | failure | asm
  | temporaryDirectory | unwritable

namespace Part

variable (s t : Session)

def Same : Part → Prop
  | .values => t.values = s.values
  | .ops => t.ops = s.ops
  | .blocks => t.blocks = s.blocks
  | .points => t.points = s.points
  | .stack => t.stack = s.stack
  | .openIfs => t.openIfs = s.openIfs
  | .lastPoints => t.lastPoints = s.lastPoints
  | .events => t.events = s.events
  | .printed => t.printed = s.printed
  | .lists => t.lists = s.lists
  | .frames => t.frames = s.frames
  | .objects => t.objects = s.objects
  | .vars => t.vars = s.vars
  | .recentStores => t.recentStores = s.recentStores
  | .debug => t.debug = s.debug
  | .collected => t.collected = s.collected
  | .builders => t.builders = s.builders
  | .failure => t.failure = s.failure
  | .asm => t.asm = s.asm
  | .temporaryDirectory => t.temporaryDirectory = s.temporaryDirectory
  | .unwritable => t.unwritable = s.unwritable

/-- Something was added to a part, or nothing was. -/
def More : Part → Prop
  | .values => s.values ≤ t.values
  | .ops => s.ops.length ≤ t.ops.length
  | .blocks => s.blocks.length ≤ t.blocks.length
  | .points => s.points ≤ t.points
  | .lists => s.lists <+: t.lists
  | _ => True

end Part

namespace Session

/-- Some parts are as before, some have more than before, and nothing is said of the others. -/
structure Frame (s : Session) (same more : Set Part) (t : Session) : Prop where
  same : ∀ p ∈ same, p.Same s t
  more : ∀ p ∈ more, p.More s t

namespace Frame

variable {s t u : Session} {same more : Set Part}

theorem refl (s : Session) : s.Frame same more s where
  same p _ := by cases p <;> rfl
  more p _ := by
    cases p
    case lists => exact List.prefix_rfl
    all_goals first | exact le_rfl | trivial

section

variable (h : s.Frame same more t)

include h

theorem trans (h' : t.Frame same more u) : s.Frame same more u where
  same p hp := by
    have hst := h.same p hp
    have htu := h'.same p hp
    cases p <;> exact Eq.trans htu hst
  more p hp := by
    have hst := h.more p hp
    have htu := h'.more p hp
    cases p
    case lists => exact List.IsPrefix.trans hst htu
    all_goals first | exact le_trans hst htu | trivial

theorem open_eq (hp : .stack ∈ same := by simp) : t.stack = s.stack :=
  h.same _ hp

theorem openIfs_eq (hp : .openIfs ∈ same := by simp) : t.openIfs = s.openIfs := h.same _ hp

theorem lists_eq (hp : .lists ∈ same := by simp) : t.lists = s.lists :=
  h.same _ hp

theorem current_eq (hp : .stack ∈ same := by simp) : t.current = s.current := by
  rw [current, current, h.open_eq hp]

theorem points_le (hp : .points ∈ more := by simp) : s.points ≤ t.points := h.more _ hp

theorem blocks_le (hp : .blocks ∈ more := by simp) :
    s.blocks.length ≤ t.blocks.length := h.more _ hp

end

end Frame

theorem frame_pair {s t : Session} {p q : Part} {more : Set Part} (hp : p.Same s t)
    (hq : q.Same s t) (hmore : ∀ r ∈ more, r.More s t) : s.Frame {p, q} more t where
  same r hr := by
    obtain rfl | rfl := hr
    · exact hp
    · exact hq
  more := hmore

end Session

namespace Build

variable {α β : Type} {x : Build α} {f : α → Build β} {s t u : Session}
  {a : α} {b : β} {fault : Fault}

/-! ## Looking at a session -/

def Reads (step : Build α) : Prop := ∀ s, (step.exec s).2 = s

theorem Reads.eq_of_exec (h : Reads x) {r : Except Fault α} (hx : x.exec s = (r, t)) : t = s := by
  rw [← h s, hx]

theorem Reads.exec_cases (h : Reads x) (s : Session) :
    (∃ fault, x.exec s = (.error fault, s)) ∨ ∃ a, x.exec s = (.ok a, s) := by
  rcases hx : x.exec s with ⟨fault | a, t⟩
  · exact .inl ⟨fault, h.eq_of_exec hx ▸ rfl⟩
  · exact .inr ⟨a, h.eq_of_exec hx ▸ rfl⟩

theorem Reads.exec_bind_eq_ok (h : Reads x) (hx : (x >>= f).exec s = (.ok b, t)) :
    ∃ a, x.exec s = (.ok a, s) ∧ (f a).exec s = (.ok b, t) := by
  obtain ⟨a, u, ha, hf⟩ := Build.exec_bind_eq_ok.1 hx
  obtain rfl := h.eq_of_exec ha
  exact ⟨a, ha, hf⟩

@[simp] theorem reads_pure (a : α) : Reads (pure a) := fun _ => rfl

@[simp] theorem reads_throw (fault : Fault) : Reads (throw fault : Build α) := fun _ => rfl

@[simp] theorem reads_get : Reads get := fun _ => rfl

@[simp] theorem reads_bind (hx : Reads x) (hf : ∀ a, Reads (f a)) : Reads (x >>= f) := by
  intro s
  rcases h : x.exec s with ⟨_ | a, t⟩
  · rw [exec_bind_error h, hx.eq_of_exec h]
  · rw [exec_bind_ok h, hx.eq_of_exec h]
    exact hf a s

@[simp] theorem reads_map (g : α → β) (hx : Reads x) : Reads (g <$> x) := by
  rw [map_eq_pure_bind]
  exact reads_bind hx fun a => reads_pure (g a)

@[simp] theorem reads_ite {p : Prop} [Decidable p] {y : Build α} (hx : Reads x) (hy : Reads y) :
    Reads (if p then x else y) := by
  split
  · exact hx
  · exact hy

theorem reads_mapM {g : α → Build β} (hg : ∀ a, Reads (g a)) (as : List α) : Reads (as.mapM g) := by
  induction as with
  | nil => simp
  | cons a as ih => simp [hg, ih]

@[simp] theorem reads_require (condition : Bool) (text : String) :
    Reads (require condition text) := by
  unfold require
  simp

@[simp] theorem reads_nowAll (vs : List Value) : Reads (nowAll vs) := by
  simp [nowAll]

@[simp] theorem reads_nowNamed (vs : List (String × Value)) : Reads (nowNamed vs) := by
  simp [nowNamed]

@[simp] theorem reads_items? (v : Value) : Reads (items? v) := by
  unfold items?
  split <;> simp

@[simp] theorem reads_items (v : Value) : Reads (items v) := by
  refine reads_bind (reads_items? v) fun vs => ?_
  cases vs <;> simp

@[simp] theorem reads_length (v : Value) : Reads (length v) := by
  simp [length]

@[simp] theorem reads_op (id : Nat) : Reads (op id) := by
  simp [op]

@[simp] theorem reads_opId (v : Value) : Reads (opId v) := by
  unfold opId
  split <;> simp

@[simp] theorem reads_blockAt (op region index : Nat) : Reads (blockAt op region index) := by
  refine reads_bind reads_get fun s => ?_
  split <;> simp

@[simp] theorem reads_blockArgs (block : Nat) : Reads (blockArgs block) := by
  simp [blockArgs]

/-! ## Values and types -/

@[simp] theorem reads_asValue (v : Value) : Reads (asValue v) := by
  unfold asValue
  split
  · simp
  · refine reads_bind (reads_op _) fun o => ?_
    split <;> simp
  · simp

@[simp] theorem reads_asValueAll (vs : List Value) : Reads (asValueAll vs) := by
  induction vs with
  | nil => simp [asValueAll]
  | cons v vs ih => simp [asValueAll, ih]

@[simp] theorem reads_asValues (v : Value) : Reads (asValues v) := by
  unfold asValues
  split
  · simp
  · refine reads_bind (reads_items? _) fun vs => ?_
    cases vs <;> simp

@[simp] theorem reads_typeOf (v : Value) : Reads (typeOf v) := by
  refine reads_bind (reads_asValue v) fun w => ?_
  split <;> simp

@[simp] theorem reads_typeText (v : Value) : Reads (typeText v) := by
  unfold typeText
  split <;> simp

@[simp] theorem reads_typeTexts (vs : List Value) : Reads (typeTexts vs) := by
  induction vs with
  | nil => simp [typeTexts]
  | cons v vs ih => simp [typeTexts, ih]

@[simp] theorem reads_cast (view : View) (v : Value) : Reads (cast view v) := by
  unfold cast
  split <;> simp

@[simp] theorem reads_result (v : Value) : Reads (result v) := by
  unfold result
  split <;> simp

/-! ## What an operation is made of -/

@[simp] theorem reads_listedTypes (v : Value) : Reads (listedTypes v) := by
  have listed (v : Value) : Reads (do
      let vs ← items v
      if vs.isEmpty || !vs.all Value.isType then return none else return some (← typeTexts vs)) :=
    reads_bind (reads_items v) fun vs => by simp
  unfold listedTypes
  split
  · exact listed _
  · exact listed _
  · exact listed _
  · simp

@[simp] theorem reads_leadingTypes (vs : List Value) : Reads (leadingTypes vs) := by
  induction vs with
  | nil => simp [leadingTypes]
  | cons v vs ih =>
    unfold leadingTypes
    split
    · simp_all
    · simp_all
    · rename_i hvs
      obtain ⟨rfl, rfl⟩ := List.cons.inj hvs
      refine reads_bind (reads_listedTypes _) fun ts => ?_
      cases ts <;> simp [ih]

@[simp] theorem reads_argumentType (args : List Value) (position : Nat) :
    Reads (argumentType args position) := by
  unfold argumentType
  split <;> simp

@[simp] theorem reads_elementOf (v : Value) : Reads (elementOf v) := by
  refine reads_bind (reads_typeOf v) fun t => ?_
  split <;> simp

@[simp] theorem reads_rankedType (kind : String) (sizes element : Value) :
    Reads (rankedType kind sizes element) := by
  simp [rankedType]

@[simp] theorem reads_nativeResults (cls : String) (args : List Value) :
    Reads (nativeResults cls args) := by
  fun_cases nativeResults cls args <;> simp [*]

@[simp] theorem reads_operand (v : Value) : Reads (operand v) := by
  unfold operand
  split <;> simp

@[simp] theorem reads_operandAll (vs : List Value) : Reads (operandAll vs) := by
  induction vs with
  | nil => simp [operandAll]
  | cons v vs ih => simp [operandAll, ih]

@[simp] theorem reads_groupOperands (segment : Segment) (group : Value) :
    Reads (groupOperands segment group) := by
  unfold groupOperands
  split
  · simp
  · refine reads_bind (reads_items? _) fun vs => ?_
    cases vs <;> simp
  · simp

@[simp] theorem reads_operandGroups (segments : List Segment) (groups : List Value) :
    Reads (operandGroups segments groups) := by
  induction segments generalizing groups with
  | nil => cases groups <;> simp [operandGroups]
  | cons segment segments ih => cases groups <;> simp [operandGroups, ih]

@[simp] theorem reads_flattenOperands (kind : OpKind) (operands : List Value)
    (attributes : List (String × Value)) : Reads (flattenOperands kind operands attributes) := by
  unfold flattenOperands
  split <;> simp

@[simp] theorem reads_now (v : Value) : Reads (now v) := by
  simp [now]

@[simp] theorem reads_object (id : Nat) : Reads (object id) := by
  simp [object]

theorem exec_object {id : Nat} {o : Object} (h : s.objects[id]? = some o) :
    (object id).exec s = (.ok o, s) := by
  change (Except.ok ((s.objects[id]?).getD default), s) = _
  rw [h]
  rfl

@[simp] theorem reads_truth (v : Value) : Reads (truth v) := by
  unfold truth
  split <;> simp

end Build

/-! ## Attributes -/

namespace AttributeBuilder

open Build

@[simp] theorem reads_checkContext (context : Value) : Reads (checkContext context) := by
  unfold checkContext
  split
  · simp
  · refine reads_bind (reads_object _) fun o => ?_
    split <;> simp
  · simp

@[simp] theorem reads_denseInts (v context : Value) : Reads (denseInts v context) := by
  refine reads_bind (reads_checkContext context) fun _ => ?_
  split <;> simp

@[simp] theorem reads_ints (v context : Value) : Reads (ints v context) := by
  unfold ints
  split
  · simp
  · split
    · simp
    · refine reads_bind (reads_items _) fun vs => ?_
      simp

@[simp] theorem reads_entryAt (mapping : Value) (index : Nat) : Reads (entryAt mapping index) := by
  unfold entryAt
  split
  · split <;> simp
  · refine reads_bind (reads_items _) fun vs => ?_
    split <;> simp

@[simp] theorem reads_deviceMapping (v context : Value) : Reads (deviceMapping v context) := by
  unfold deviceMapping
  split
  · simp
  · refine reads_bind (reads_length v) fun n => ?_
    refine reads_bind (reads_mapM (reads_entryAt v) _) fun vs => ?_
    simp

@[simp] theorem reads_indexLists (v context : Value) : Reads (indexLists v context) := by
  unfold indexLists
  split
  · simp
  · refine reads_bind (reads_items v) fun groups => ?_
    refine reads_bind (reads_mapM (fun group => ?_) groups) fun arrays => ?_
    · refine reads_bind (reads_items group) fun vs => ?_
      simp
    · simp

@[simp] theorem reads_symbols (v context : Value) : Reads (symbols v context) := by
  refine reads_bind (reads_items v) fun names => reads_bind (reads_nowAll names) fun vs => ?_
  simp

@[simp] theorem reads_choice (alternatives : List String) (v context : Value) :
    Reads (choice alternatives v context) := by
  cases v with
  | str s =>
    refine reads_ite (reads_bind (reads_throw _) fun _ => ?_) ?_
    all_goals
      dsimp only
      split <;> simp
  | _ => simp [choice]

private theorem reads_registered {entry : String × Builder} (h : entry ∈ registered)
    (v context : Value) :
    Reads (entry.2 v context) := by
  simp only [registered, List.mem_cons, List.not_mem_nil, or_false] at h
  rcases h with rfl | rfl | rfl | rfl | rfl | rfl | rfl | rfl | rfl | rfl | rfl <;>
    simp [flatSymbol, dimension, allReduce, contractLowering, transposeLowering, transferSplit]

private theorem exec_find? (name : String) (s : Session) :
    ∃ found, (find? name).exec s = (.ok found, s) ∧
      ∀ b, found = some b → ∀ v context, Reads (b v context) := by
  rcases h : registered.lookup name with _ | b
  · refine ⟨if s.builders.contains name then some (byName name) else none, ?_, ?_⟩
    · simp only [find?, h]
      rfl
    · intro b hb v context
      split at hb
      · obtain rfl := Option.some.inj hb
        simp [byName]
      · cases hb
  · refine ⟨some b, by simp [find?, h], ?_⟩
    intro b' hb'
    obtain rfl := Option.some.inj hb'
    obtain ⟨before, after, hmem, -⟩ := List.lookup_eq_some_iff.mp h
    have hb : (name, b) ∈ registered := by simp [hmem]
    exact reads_registered hb

theorem reads_make (builder : String) (v context : Value) : Reads (make builder v context) := by
  intro s
  unfold make
  split
  · rfl
  · obtain ⟨found, hfound, hreads⟩ := exec_find? builder s
    rw [exec_bind_ok hfound]
    cases found with
    | none => rfl
    | some b => exact hreads b rfl v context s

end AttributeBuilder

/-! ## Definitions of operations -/

namespace OpDefinition

open Build

variable (d : OpDefinition) (args : List (String × Value))

@[simp] theorem reads_operandsOf (arity : Arity) (v : Value) : Reads (d.operandsOf arity v) := by
  unfold operandsOf
  split <;> simp

@[simp] theorem reads_collectOperands (fields : List (String × Arity × Bool)) :
    Reads (d.collectOperands args fields) := by
  induction fields with
  | nil => simp [collectOperands]
  | cons field fields ih => simp [collectOperands, ih]

@[simp] theorem reads_attributeOf (input : AttributeInput) (v : Value) :
    Reads (d.attributeOf input v) := by
  cases input with
  | raw => simp [attributeOf]
  | required builder => simp [attributeOf, AttributeBuilder.reads_make]
  | optional builder =>
    refine reads_ite ?_ ?_
    · simp
    · simp [AttributeBuilder.reads_make]
  | flag =>
    refine reads_bind (reads_truth v) fun holds => ?_
    cases holds <;> simp
  | absent => simp [attributeOf]

@[simp] theorem reads_collectAttributes (fields : List Field) :
    Reads (d.collectAttributes args fields) := by
  induction fields with
  | nil => simp [collectAttributes]
  | cons field fields ih =>
    cases field with
    | operand name arity readable => simpa [collectAttributes] using ih
    | «attribute» name parameter input reader =>
      refine reads_bind (reads_attributeOf d _ _) fun found => ?_
      cases found <;> simp [ih]

@[simp] theorem reads_resultTypes (operands : List Value) (source : ResultSource) (v : Value) :
    Reads (resultTypes operands source v) := by
  fun_cases resultTypes operands source v <;> simp

@[simp] theorem reads_collectResults (operands : List Value) (fields : List ResultField) :
    Reads (collectResults operands args fields) := by
  induction fields with
  | nil => simp [collectResults]
  | cons field fields ih => simp [collectResults, ih]

@[simp] theorem reads_checkSuccessors (fields : List (String × Arity)) :
    Reads (checkSuccessors args fields) := by
  induction fields with
  | nil => simp [checkSuccessors]
  | cons field fields ih =>
    obtain ⟨name, arity⟩ := field
    cases arity <;> simp [checkSuccessors, ih]

end OpDefinition

end Polyloom
