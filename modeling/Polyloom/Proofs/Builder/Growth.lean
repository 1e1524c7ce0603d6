import Polyloom.Proofs.Builder.Steps
import Polyloom.Proofs.Table

/-!
# What a build adds

Making an operation or a block has a plain effect on the session, and so has entering or leaving
a point.  From these effects follows what a step of building may do: the operations it makes
stand in the current block in order, all else that is new is inside of them, and the open points
are the same again.
-/

namespace Polyloom

open Build List Option

variable {i b op regions : Nat} {name cls : String}

/-! ## Entering and leaving -/

namespace Event

section

variable {σ : Type} {step : σ → Event → Option σ} {x y : σ} {es : List Event}

/-- The state after events, if there is a step for each. -/
def fold (step : σ → Event → Option σ) (x : σ) (es : List Event) : Option σ := es.foldlM step x

theorem fold_append (h : fold step x es = some y) (es' : List Event) :
    fold step x (es ++ es') = fold step y es' := by
  unfold fold at *
  rw [foldlM_append, h]
  rfl

theorem fold_single {e : Event} (h : step x e = some y) : fold step x [e] = some y := by
  simp [fold, h]

end

/-- The entered points after an event, innermost first.  Leaving is told by `left`, and has to
leave the innermost point. -/
def unwindStep (left : InsertionPoint → InsertionPoint → InsertionPoint) :
    List InsertionPoint → Event → Option (List InsertionPoint)
  | inner, .enter p => some (p :: inner)
  | p :: inner, .exit asked closed => if left asked closed = p then some inner else none
  | [], .exit _ _ => none
  | inner, _ => some inner

def unwind (left : InsertionPoint → InsertionPoint → InsertionPoint) (inner : List InsertionPoint)
    (es : List Event) : Option (List InsertionPoint) :=
  fold (unwindStep left) inner es

variable {left : InsertionPoint → InsertionPoint → InsertionPoint} {es es' : List Event}
  {inner rest : List InsertionPoint}

private theorem unwindStep_outer {e : Event} (h : unwindStep left inner e = some rest)
    (outer : List InsertionPoint) : unwindStep left (inner ++ outer) e = some (rest ++ outer) := by
  cases e
  case exit asked closed =>
    cases inner with
    | nil => cases h
    | cons p inner =>
      simp only [unwindStep, ite_none_right_eq_some, some.injEq] at h
      simp [unwindStep, h]
  all_goals
    obtain rfl := some.inj h
    rfl

private theorem unwind_outer (h : unwind left inner es = some rest) (outer : List InsertionPoint) :
    unwind left (inner ++ outer) es = some (rest ++ outer) := by
  induction es generalizing inner with
  | nil =>
    obtain rfl := some.inj h
    rfl
  | cons e es ih =>
    obtain ⟨mid, hmid, h⟩ := bind_eq_some_iff.mp h
    exact bind_eq_some_iff.mpr ⟨mid ++ outer, unwindStep_outer hmid outer, ih h⟩

/-- Every exit is asked of the point that was entered last and not left yet, and all are left. -/
def Bracketed (es : List Event) : Prop := unwind (fun asked _ => asked) [] es = some []

/-- The same of the points that are closed. -/
def Nested (es : List Event) : Prop := unwind (fun _ closed => closed) [] es = some []

def Matched (es : List Event) : Prop := ∀ asked closed, .exit asked closed ∈ es → asked = closed

theorem nested_nil : Nested [] := rfl

theorem Nested.append (h : Nested es) (h' : Nested es') : Nested (es ++ es') :=
  (fold_append h es').trans h'

theorem Nested.within (h : Nested es) (p asked : InsertionPoint) :
    Nested (.enter p :: es ++ [.exit asked p]) := by
  have hp : unwind (fun _ closed => closed) [p] es = some [p] := unwind_outer h [p]
  rw [Nested, cons_append]
  refine (fold_append hp _).trans ?_
  simp [fold, unwindStep]

theorem matched_append : Matched (es ++ es') ↔ Matched es ∧ Matched es' := by
  simp only [Matched, mem_append]
  constructor
  · intro h
    exact ⟨fun a c hm => h a c (.inl hm), fun a c hm => h a c (.inr hm)⟩
  · rintro ⟨h, h'⟩ a c (hm | hm)
    · exact h a c hm
    · exact h' a c hm

theorem matched_exit (asked closed : InsertionPoint) :
    Matched [.exit asked closed] ↔ asked = closed := by
  simp [Matched]

/-- What is closed follows from what was entered, so exits are bracketed as asked exactly if each
is asked of the point that it closes. -/
private theorem unwind_asked_iff (h : unwind (fun _ closed => closed) inner es = some []) :
    unwind (fun asked _ => asked) inner es = some [] ↔ Matched es := by
  induction es generalizing inner with
  | nil => simpa [unwind, fold, Matched] using h
  | cons e es ih =>
    obtain ⟨mid, hmid, h⟩ := bind_eq_some_iff.mp h
    cases e
    case exit asked closed =>
      cases inner with
      | nil => cases hmid
      | cons p inner =>
        simp only [unwindStep, ite_none_right_eq_some, some.injEq] at hmid
        obtain ⟨rfl, rfl⟩ := hmid
        have hrest := ih h
        have hcons : Matched (.exit asked closed :: es) ↔ asked = closed ∧ Matched es := by
          rw [← matched_exit, ← matched_append, singleton_append]
        rw [hcons, ← hrest]
        by_cases hasked : asked = closed
        · simp [unwind, fold, unwindStep, hasked]
        · simp [unwind, fold, unwindStep, hasked]
    all_goals
      obtain rfl := some.inj hmid
      simpa [unwind, fold, unwindStep, Matched] using ih h

theorem Nested.bracketed_iff (h : Nested es) : Bracketed es ↔ Matched es := unwind_asked_iff h

end Event

/-! ## Effects of single steps -/

def typedIds (n : Nat) : List String → List TypedId
  | [] => []
  | type :: rest => ⟨n, type⟩ :: typedIds (n + 1) rest

@[simp] theorem length_typedIds (n : Nat) (types : List String) :
    (typedIds n types).length = types.length := by
  induction types generalizing n with
  | nil => rfl
  | cons type types ih => simp [typedIds, ih]

namespace Session

variable {s t u : Session}

def newOp (s : Session) (name cls : String) (operands : List Value)
    (attributes : List (String × Value)) (results : List String) (regions : Nat) : OpRecord :=
  { name, cls, parent := s.current, operands, results := typedIds s.values results, attributes,
    regions := replicate regions [] }

def create (s : Session) (o : OpRecord) (how : Creation) : Session :=
  { s with
    values := s.values + o.results.length
    ops := s.ops ++ [o]
    blocks := s.current.elim s.blocks fun b =>
      s.blocks.modify b fun block => { block with ops := block.ops ++ [s.ops.length] }
    events := s.events ++ [.create s.ops.length o.name s.current
      (o.results.map TypedId.value) how] }

def addBlock (s : Session) (op region : Nat) (types : List String) : Session :=
  { s with
    values := s.values + types.length
    ops := s.ops.modify op fun o =>
      { o with regions := o.regions.modify region (· ++ [s.blocks.length]) }
    blocks := s.blocks ++ [⟨op, region, typedIds s.values types, []⟩]
    events := s.events ++ [.block s.blocks.length op region
      ((typedIds s.values types).map TypedId.value)] }

def enterAt (s : Session) (construct : Construct) (block : Nat) : Session :=
  { s with
    points := s.points + 1
    stack := ⟨s.points, block⟩ :: s.stack
    lastPoints := Table.put construct ⟨s.points, block⟩ s.lastPoints
    events := s.events ++ [.enter ⟨s.points, block⟩] }

end Session

namespace Build

variable {s : Session}

theorem exec_freshIds (types : List String) (s : Session) : (freshIds types).exec s =
    (.ok (typedIds s.values types), { s with values := s.values + types.length }) := by
  induction types generalizing s with
  | nil => rfl
  | cons type types ih =>
    have hfresh :
        (freshId type).exec s = (.ok ⟨s.values, type⟩, { s with values := s.values + 1 }) := rfl
    rw [freshIds, exec_bind_ok hfresh, exec_bind_ok (ih _)]
    have hcount : s.values + 1 + types.length = s.values + (type :: types).length := by
      simp only [length_cons]
      omega
    simp [typedIds, hcount]

theorem exec_createOp (name cls : String) (operands : List Value)
    (attributes : List (String × Value)) (results : List String)
    (regions : Nat) (how : Creation) (s : Session) :
    (createOp name cls operands attributes results regions how).exec s =
      (.ok s.ops.length, s.create (s.newOp name cls operands attributes results regions) how) := by
  rw [createOp, exec_bind_ok (exec_freshIds results s)]
  simp only [Session.create, Session.newOp, length_typedIds]
  rcases s with ⟨_, _, _, _, _ | ⟨p, rest⟩⟩
  · rfl
  · rfl

theorem exec_opId (id : Nat) (cls : String) (s : Session) :
    (opId (.op id cls)).exec s = (.ok id, s) := rfl

theorem exec_appendBlock (op region : Nat) (types : List String) (s : Session) :
    (appendBlock op region types).exec s = (.ok s.blocks.length, s.addBlock op region types) := by
  rw [appendBlock, exec_bind_ok (exec_freshIds types s)]
  rfl

theorem exec_openAt (construct : Construct) (block : Nat) (s : Session) :
    (ControlFlow.openAt construct block).exec s = (.ok (), s.enterAt construct block) := rfl

theorem exec_leave (p : InsertionPoint) {q : InsertionPoint} {rest : List InsertionPoint}
    (h : s.stack = q :: rest) : (leave p).exec s =
      (.ok ⟨⟩, { s with stack := rest, events := s.events ++ [.exit p q] }) := by
  rw [leave, exec_bind_ok (exec_get s), h]
  rfl

end Build

/-! ## Operations and blocks that are there -/

namespace Session

variable {s t u : Session} {place : Option Nat} {ids ids' : List Nat}
  {o : OpRecord} {how : Creation}

theorem op_create_of_lt (h : i < s.ops.length) (o : OpRecord) (how : Creation) :
    (s.create o how).op i = s.op i := by
  simp [op, create, getElem?_append_left h]

@[simp] theorem op_create_self (s : Session) (o : OpRecord) (how : Creation) :
    (s.create o how).op s.ops.length = o := by
  simp [op, create]

@[simp] theorem length_ops_create (s : Session) (o : OpRecord) (how : Creation) :
    (s.create o how).ops.length = s.ops.length + 1 := by
  simp [create]

@[simp] theorem length_blocks_create (s : Session) (o : OpRecord) (how : Creation) :
    (s.create o how).blocks.length = s.blocks.length := by
  cases h : s.current <;> simp [create, h]

private theorem blockOf_create (hb : b < s.blocks.length) (o : OpRecord) (how : Creation) :
    (s.create o how).blockOf b = if s.current = some b then
      { s.blockOf b with ops := (s.blockOf b).ops ++ [s.ops.length] } else s.blockOf b := by
  have hblock : s.blocks[b]? = some (s.blocks[b]) := getElem?_eq_getElem hb
  cases h : s.current with
  | none => simp [blockOf, create, h]
  | some c =>
    by_cases hc : c = b
    · simp [blockOf, create, h, hc, hblock]
    · simp [blockOf, create, h, hc]

@[simp] theorem length_ops_addBlock (s : Session) (op region : Nat) (types : List String) :
    (s.addBlock op region types).ops.length = s.ops.length := by
  simp [addBlock]

@[simp] theorem length_blocks_addBlock (s : Session) (op region : Nat) (types : List String) :
    (s.addBlock op region types).blocks.length = s.blocks.length + 1 := by
  simp [addBlock]

theorem op_addBlock_of_ne (h : i ≠ op) (region : Nat) (types : List String) :
    (s.addBlock op region types).op i = s.op i := by
  simp [Session.op, addBlock, h.symm]

theorem op_addBlock_self (h : op < s.ops.length) (region : Nat) (types : List String) :
    (s.addBlock op region types).op op =
      { s.op op with regions := (s.op op).regions.modify region (· ++ [s.blocks.length]) } := by
  simp [Session.op, addBlock, getElem?_eq_getElem h]

private theorem parent_addBlock (s : Session) (op region : Nat) (types : List String) (i : Nat) :
    ((s.addBlock op region types).op i).parent = (s.op i).parent := by
  by_cases h : i = op
  · subst h
    by_cases hi : i < s.ops.length
    · rw [op_addBlock_self hi]
    · simp [Session.op, addBlock, getElem?_eq_none (Nat.le_of_not_lt hi)]
  · rw [op_addBlock_of_ne h]

theorem blockOf_addBlock_of_lt (h : b < s.blocks.length) (op region : Nat)
    (types : List String) : (s.addBlock op region types).blockOf b = s.blockOf b := by
  simp [blockOf, addBlock, getElem?_append_left h]

@[simp] theorem blockOf_addBlock_self (s : Session) (op region : Nat) (types : List String) :
    (s.addBlock op region types).blockOf s.blocks.length =
      ⟨op, region, typedIds s.values types, []⟩ := by
  simp [blockOf, addBlock]

theorem exec_blockAt {region : Nat} (h : s.regionBlocks op region = [b]) :
    (blockAt op region 0).exec s = (.ok b, s) := by
  rw [blockAt, exec_bind_ok (exec_get s), h]
  rfl

/-! ## Growing in one place -/

/-- What `t` has more than `s` are the operations `ids` at a place, in the order they were made,
and what is inside of new operations. -/
structure Adds (s t : Session) (place : Option Nat) (ids : List Nat) : Prop where
  ops_le : s.ops.length ≤ t.ops.length
  blocks_le : s.blocks.length ≤ t.blocks.length
  op_eq : ∀ i < s.ops.length, t.op i = s.op i
  block_eq : ∀ b < s.blocks.length, place ≠ some b → t.blockOf b = s.blockOf b
  appended : ∀ b < s.blocks.length, place = some b → t.blockOf b =
    { s.blockOf b with ops := (s.blockOf b).ops ++ ids }
  increasing : ids.Pairwise (· < ·)
  mem_iff : ∀ i, i ∈ ids ↔ s.ops.length ≤ i ∧ i < t.ops.length ∧ (t.op i).parent = place
  inside : ∀ i, s.ops.length ≤ i → i < t.ops.length → (t.op i).parent ≠ place →
    ∃ b, s.blocks.length ≤ b ∧ (t.op i).parent = some b

/-- The block that is built in is there. -/
def Grounded (s : Session) : Prop := ∀ b, s.current = some b → b < s.blocks.length

theorem grounded_of_open {p : InsertionPoint} {rest : List InsertionPoint}
    (hopen : s.stack = p :: rest) (hblock : p.block < s.blocks.length) : s.Grounded := by
  intro b hb
  obtain rfl : p.block = b := by simpa [current, hopen] using hb
  exact hblock

namespace Adds

private theorem refl (s : Session) (place : Option Nat) : s.Adds s place [] where
  ops_le := le_rfl
  blocks_le := le_rfl
  op_eq _ _ := rfl
  block_eq _ _ _ := rfl
  appended b _ _ := by simp
  increasing := .nil
  mem_iff i := by
    simp only [not_mem_nil, false_iff]
    omega
  inside i h h' := by omega

theorem congr (h : s.Adds t place ids) (hops : u.ops = t.ops) (hblocks : u.blocks = t.blocks) :
    s.Adds u place ids := by
  have hop (i : Nat) : u.op i = t.op i := by simp [op, hops]
  have hblock (b : Nat) : u.blockOf b = t.blockOf b := by simp [blockOf, hblocks]
  exact {
    ops_le := hops ▸ h.ops_le
    blocks_le := hblocks ▸ h.blocks_le
    op_eq := by simpa only [hop] using h.op_eq
    block_eq := by simpa only [hblock] using h.block_eq
    appended := by simpa only [hblock] using h.appended
    increasing := h.increasing
    mem_iff := by simpa only [hop, hops] using h.mem_iff
    inside := by simpa only [hop, hops] using h.inside }

theorem trans (h : s.Adds t place ids) (h' : t.Adds u place ids') :
    s.Adds u place (ids ++ ids') where
  ops_le := h.ops_le.trans h'.ops_le
  blocks_le := h.blocks_le.trans h'.blocks_le
  op_eq i hi := (h'.op_eq i (hi.trans_le h.ops_le)).trans (h.op_eq i hi)
  block_eq b hb hne := (h'.block_eq b (hb.trans_le h.blocks_le) hne).trans (h.block_eq b hb hne)
  appended b hb hplace := by
    rw [h'.appended b (hb.trans_le h.blocks_le) hplace, h.appended b hb hplace]
    simp
  increasing := by
    refine pairwise_append.mpr ⟨h.increasing, h'.increasing, fun i hi j hj => ?_⟩
    have hi := ((h.mem_iff i).mp hi).2.1
    have hj := ((h'.mem_iff j).mp hj).1
    omega
  mem_iff i := by
    rw [mem_append, h.mem_iff, h'.mem_iff]
    have hops := h.ops_le
    have hops' := h'.ops_le
    constructor
    · rintro (⟨h₁, h₂, h₃⟩ | ⟨h₁, h₂, h₃⟩)
      · exact ⟨h₁, by omega, by rw [h'.op_eq i h₂, h₃]⟩
      · exact ⟨by omega, h₂, h₃⟩
    · rintro ⟨h₁, h₂, h₃⟩
      by_cases hi : i < t.ops.length
      · exact .inl ⟨h₁, hi, by rw [← h'.op_eq i hi, h₃]⟩
      · exact .inr ⟨by omega, h₂, h₃⟩
  inside i h₁ h₂ hne := by
    by_cases hi : i < t.ops.length
    · rw [h'.op_eq i hi] at hne ⊢
      exact h.inside i h₁ hi hne
    · obtain ⟨b, hb, hparent⟩ := h'.inside i (by omega) h₂ hne
      exact ⟨b, h.blocks_le.trans hb, hparent⟩

/-- What is added inside of a new block counts as nothing new at the old place. -/
theorem within (h : s.Adds t place ids) (h' : t.Adds u (some b) ids')
    (hb : s.blocks.length ≤ b) (hplace : ∀ c, place = some c → c < s.blocks.length) :
    s.Adds u place ids where
  ops_le := h.ops_le.trans h'.ops_le
  blocks_le := h.blocks_le.trans h'.blocks_le
  op_eq i hi := (h'.op_eq i (hi.trans_le h.ops_le)).trans (h.op_eq i hi)
  block_eq c hc hne := by
    have hcb : some b ≠ some c := by simpa using (show b ≠ c by omega)
    rw [h'.block_eq c (hc.trans_le h.blocks_le) hcb, h.block_eq c hc hne]
  appended c hc hplace' := by
    have hcb : some b ≠ some c := by simpa using (show b ≠ c by omega)
    rw [h'.block_eq c (hc.trans_le h.blocks_le) hcb, h.appended c hc hplace']
  increasing := h.increasing
  mem_iff i := by
    rw [h.mem_iff]
    have hops' := h'.ops_le
    constructor
    · rintro ⟨h₁, h₂, h₃⟩
      exact ⟨h₁, by omega, by rw [h'.op_eq i h₂, h₃]⟩
    · rintro ⟨h₁, h₂, h₃⟩
      by_cases hi : i < t.ops.length
      · exact ⟨h₁, hi, by rw [← h'.op_eq i hi, h₃]⟩
      · -- An operation that is made later stands in `b` or in a block made later still.
        exfalso
        have hblocks := h.blocks_le
        by_cases hparent : (u.op i).parent = some b
        · have := hplace b (h₃.symm.trans hparent)
          omega
        · obtain ⟨c, hc, hparent⟩ := h'.inside i (by omega) h₂ hparent
          have := hplace c (h₃.symm.trans hparent)
          omega
  inside i h₁ h₂ hne := by
    by_cases hi : i < t.ops.length
    · rw [h'.op_eq i hi] at hne ⊢
      exact h.inside i h₁ hi hne
    · by_cases hparent : (u.op i).parent = some b
      · exact ⟨b, hb, hparent⟩
      · obtain ⟨c, hc, hparent⟩ := h'.inside i (by omega) h₂ hparent
        exact ⟨c, h.blocks_le.trans hc, hparent⟩

theorem create (ho : o.parent = s.current) (how : Creation) :
    s.Adds (s.create o how) s.current [s.ops.length] where
  ops_le := by simp
  blocks_le := by simp
  op_eq i hi := op_create_of_lt hi o how
  block_eq b hb hne := by rw [blockOf_create hb, if_neg hne]
  appended b hb hplace := by rw [blockOf_create hb, if_pos hplace]
  increasing := pairwise_singleton _ _
  mem_iff i := by
    rw [mem_singleton, length_ops_create]
    constructor
    · rintro rfl
      exact ⟨le_rfl, by omega, by rw [op_create_self, ho]⟩
    · rintro ⟨h₁, h₂, -⟩
      omega
  inside i h₁ h₂ hne := by
    rw [length_ops_create] at h₂
    obtain rfl : i = s.ops.length := by omega
    rw [op_create_self, ho] at hne
    exact absurd rfl hne

theorem addBlock (h : s.Adds t place ids) (hop : s.ops.length ≤ op) (region : Nat)
    (types : List String) : s.Adds (t.addBlock op region types) place ids where
  ops_le := by simpa using h.ops_le
  blocks_le := by
    have := h.blocks_le
    simp only [length_blocks_addBlock]
    omega
  op_eq i hi := by rw [op_addBlock_of_ne (by omega), h.op_eq i hi]
  block_eq b hb hne := by
    rw [blockOf_addBlock_of_lt (hb.trans_le h.blocks_le), h.block_eq b hb hne]
  appended b hb hplace := by
    rw [blockOf_addBlock_of_lt (hb.trans_le h.blocks_le), h.appended b hb hplace]
  increasing := h.increasing
  mem_iff i := by rw [h.mem_iff, length_ops_addBlock, parent_addBlock]
  inside i h₁ h₂ hne := by
    rw [length_ops_addBlock] at h₂
    rw [parent_addBlock] at hne ⊢
    exact h.inside i h₁ h₂ hne

theorem mem_lt (h : s.Adds t place ids) (hi : i ∈ ids) : i < t.ops.length :=
  ((h.mem_iff i).mp hi).2.1

theorem le_mem (h : s.Adds t place ids) (hi : i ∈ ids) : s.ops.length ≤ i :=
  ((h.mem_iff i).mp hi).1

end Adds

/-- The open points and branches are the same, and the numbers of points go on. -/
abbrev Settled (s t : Session) : Prop := s.Frame {.stack, .openIfs} {.points} t

theorem settled (hopen : t.stack = s.stack) (hifs : t.openIfs = s.openIfs)
    (hpoints : s.points ≤ t.points) : s.Settled t :=
  frame_pair hopen hifs (by simpa [Part.More] using hpoints)

theorem Frame.grounded {same more : Set Part} (h : s.Frame same more t)
    (hle : s.blocks.length ≤ t.blocks.length) (hs : s.Grounded) (hp : .stack ∈ same := by simp) :
    t.Grounded := by
  intro b hb
  rw [h.current_eq hp] at hb
  exact (hs b hb).trans_le hle

/-- The session has more operations where it builds, and builds there again. -/
structure Grown (s t : Session) (ids : List Nat) : Prop extends
  s.Frame {.stack, .openIfs} {.points} t, Adds s t s.current ids

namespace Grown

theorem refl (s : Session) : s.Grown s [] := ⟨.refl s, Adds.refl s s.current⟩

theorem trans (h : s.Grown t ids) (h' : t.Grown u ids') : s.Grown u (ids ++ ids') := by
  have hadds := h'.toAdds
  rw [h.current_eq] at hadds
  exact ⟨h.toFrame.trans h'.toFrame, h.toAdds.trans hadds⟩

theorem grounded (h : s.Grown t ids) (hs : s.Grounded) : t.Grounded :=
  h.toFrame.grounded h.toAdds.blocks_le hs

end Grown

/-- The session after a statement: it has grown, no construct was entered, and what was entered
is left again. -/
structure Emitted (s t : Session) (ids : List Nat) : Prop extends Grown s t ids where
  lastPoints_eq : t.lastPoints = s.lastPoints
  events_eq : ∃ es, t.events = s.events ++ es ∧ Event.Nested es ∧ Event.Matched es

namespace Emitted

theorem refl (s : Session) : s.Emitted s [] :=
  { Grown.refl s with
    lastPoints_eq := rfl
    events_eq := ⟨[], by simp, Event.nested_nil, by simp [Event.Matched]⟩ }

theorem trans (h : s.Emitted t ids) (h' : t.Emitted u ids') : s.Emitted u (ids ++ ids') := by
  obtain ⟨es, hes, hnested, hmatched⟩ := h.events_eq
  obtain ⟨es', hes', hnested', hmatched'⟩ := h'.events_eq
  exact { h.toGrown.trans h'.toGrown with
    lastPoints_eq := h'.lastPoints_eq.trans h.lastPoints_eq
    events_eq := ⟨es ++ es', by rw [hes', hes, append_assoc], hnested.append hnested',
      Event.matched_append.mpr ⟨hmatched, hmatched'⟩⟩ }

theorem create (ho : o.parent = s.current) (how : Creation) :
    s.Emitted (s.create o how) [s.ops.length] :=
  { Adds.create ho how with
    toFrame := settled rfl rfl le_rfl
    lastPoints_eq := rfl
    events_eq := ⟨_, rfl, rfl, by simp [Event.Matched]⟩ }

end Emitted

end Session

/-! ## Statements -/

namespace Build

open Session

variable {α β : Type} {x : Build α} {f : α → Build β} {s t : Session}

/-- Wherever it is run, the step only makes operations in the current block, also if it fails. -/
def Emits (step : Build α) : Prop :=
  ∀ s : Session, s.Grounded → ∃ ids, s.Emitted (step.exec s).2 ids

theorem Emits.of_exec (h : Emits x) (hs : s.Grounded) {r : Except Fault α}
    (hx : x.exec s = (r, t)) :
    ∃ ids, s.Emitted t ids := by
  simpa [hx] using h s hs

theorem Reads.emits (h : Reads x) : Emits x := by
  intro s _
  rw [h s]
  exact ⟨[], .refl s⟩

theorem Emits.bind (hx : Emits x) (hf : ∀ a, Emits (f a)) : Emits (x >>= f) := by
  intro s hs
  rcases h : x.exec s with ⟨_ | a, t⟩
  · rw [exec_bind_error h]
    exact hx.of_exec hs h
  · rw [exec_bind_ok h]
    obtain ⟨ids, hst⟩ := hx.of_exec hs h
    obtain ⟨ids', htu⟩ := hf a t (hst.grounded hs)
    exact ⟨ids ++ ids', hst.trans htu⟩

/-! ## Making one operation -/

/-- The step makes an operation with empty regions, or fails and does nothing. -/
def Makes (step : Build Value) (name cls : String) (regions : Nat) : Prop :=
  ∀ s : Session, (∃ fault, step.exec s = (.error fault, s)) ∨
    ∃ o how, step.exec s = (.ok (.op s.ops.length cls), s.create o how) ∧
      o.parent = s.current ∧ o.name = name ∧ o.regions = replicate regions []

theorem Makes.emits {step : Build Value} (h : Makes step name cls regions) : Emits step := by
  intro s _
  obtain ⟨fault, hstep⟩ | ⟨o, how, hstep, hparent, -⟩ := h s
  · exact ⟨[], by simpa [hstep] using Emitted.refl s⟩
  · exact ⟨[s.ops.length], by simpa [hstep] using Emitted.create hparent how⟩

theorem Makes.after {next : α → Build Value} (hx : Reads x)
    (h : ∀ a, Makes (next a) name cls regions) : Makes (x >>= next) name cls regions := by
  intro s
  obtain ⟨fault, hstep⟩ | ⟨a, hstep⟩ := hx.exec_cases s
  · exact .inl ⟨fault, exec_bind_error hstep⟩
  · rw [exec_bind_ok hstep]
    exact h a s

section

variable (dialect cls : String) (args : List Value) (named : List (String × Value))

theorem exec_nativeWith (results : List String) (regions : Nat)
    (attributes : List (String × Value)) (s : Session) :
    (nativeWith dialect cls args named results regions attributes).exec s =
      (.ok (.op s.ops.length (dialect ++ "." ++ cls)),
        s.create (s.newOp (dialect ++ "." ++ cls) (dialect ++ "." ++ cls) args
          attributes results regions)
          (.native (args.map s.frozen) (named.map fun entry => (entry.1, s.frozen entry.2)))) := by
  have hargs : (nowAll args).exec s = (.ok (args.map s.frozen), s) := rfl
  have hnamed :
      (nowNamed named).exec s = (.ok (named.map fun entry => (entry.1, s.frozen entry.2)), s) := rfl
  rw [nativeWith, exec_bind_ok hargs, exec_bind_ok hnamed,
    exec_bind_ok (exec_createOp _ _ args attributes results regions _ s), exec_pure]

theorem makes_native :
    Makes (native dialect cls args named) (dialect ++ "." ++ cls) (dialect ++ "." ++ cls)
      (if cls = "PadOp" then 1 else 0) := by
  refine .after (reads_nativeResults cls args) fun results s =>
    .inr ⟨_, _, exec_nativeWith .., rfl, rfl, rfl⟩

end

theorem exec_generic {kind : OpKind} {operands flat results : List Value}
    {attributes attrs : List (String × Value)} {types : List String} {s : Session}
    (hflat : (flattenOperands kind operands attributes).exec s = (.ok (flat, attrs), s))
    (htypes : (typeTexts results).exec s = (.ok types, s)) :
    (generic kind operands attributes results).exec s = (.ok (.op s.ops.length kind.cls),
      s.create (s.newOp kind.name kind.cls flat attrs types kind.regions)
        (.generic (operands.map s.frozen)
          (attrs.map fun entry => (entry.1, s.frozen entry.2)) kind.regions)) := by
  have hoperands : (nowAll operands).exec s = (.ok (operands.map s.frozen), s) := rfl
  have hattrs :
      (nowNamed attrs).exec s = (.ok (attrs.map fun entry => (entry.1, s.frozen entry.2)), s) := rfl
  rw [generic, exec_bind_ok hflat, exec_bind_ok htypes, exec_bind_ok hoperands, exec_bind_ok hattrs,
    exec_bind_ok (exec_createOp ..), exec_pure]

theorem makes_generic (kind : OpKind) (operands : List Value) (attributes : List (String × Value))
    (results : List Value) :
    Makes (generic kind operands attributes results) kind.name kind.cls kind.regions := by
  refine .after (reads_flattenOperands kind operands attributes) fun flat => ?_
  refine .after (reads_typeTexts results) fun types => ?_
  refine .after (reads_nowAll operands) fun _ => .after (reads_nowNamed flat.2) fun _ => ?_
  intro s
  rw [exec_bind_ok (exec_createOp ..), exec_pure]
  exact .inr ⟨_, _, rfl, rfl, rfl, rfl⟩

end Build

theorem OpDefinition.makes_build (d : OpDefinition) (args : List (String × Value)) :
    Makes (d.build args) d.name d.cls d.regions.length := by
  refine .after (d.reads_collectOperands args _) fun operands => ?_
  refine .after (d.reads_collectAttributes args _) fun attributes => ?_
  refine .after (OpDefinition.reads_collectResults args operands _) fun results => ?_
  refine .after (OpDefinition.reads_checkSuccessors args _) fun _ => ?_
  exact makes_generic d.kind operands attributes results

end Polyloom
