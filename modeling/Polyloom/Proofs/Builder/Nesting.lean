import Polyloom.Proofs.Builder.Opening

/-!
# Nested loops and branches

A program of statements, loops and branches is run by the calls that open and close them.  Every
kind of construct remembers one point only, which inner constructs overwrite.  Still all
operations get where they belong, since leaving a point closes the innermost one whichever point
is asked.
-/

namespace Polyloom

open Build ControlFlow Event Session List

/-- A statement over variables `σ`.  It makes operations where it stands and nothing else. -/
structure Emission (σ : Type) where
  run : σ → Build σ
  emits : ∀ x, Emits (run x)

/-- A program with loops and branches that are closed by calls. -/
inductive Program (σ : Type) where
  | done
  | emit (emission : Emission σ)
  | seq (first second : Program σ)
  | loop (kind : LoopKind) (start stop step : σ → Value) (bind : Value → σ → σ) (body : Program σ)
  | branch (condition : σ → Value) (yes : Program σ)
  | branchElse (condition : σ → Value) (yes no : Program σ)

/-- What is new in `t` since `s` is the same in `u`. -/
structure Session.Keeps (s t u : Session) : Prop where
  ops_le : t.ops.length ≤ u.ops.length
  op_eq : ∀ i, s.ops.length ≤ i → i < t.ops.length → u.op i = t.op i
  block_eq : ∀ b, s.blocks.length ≤ b → b < t.blocks.length → u.blockOf b = t.blockOf b

theorem Session.Keeps.since {s s' t u : Session} (h : s.Keeps t u)
    (hops : s.ops.length ≤ s'.ops.length) (hblocks : s.blocks.length ≤ s'.blocks.length) :
    s'.Keeps t u :=
  ⟨h.ops_le, fun i hi => h.op_eq i (hops.trans hi), fun b hb => h.block_eq b (hblocks.trans hb)⟩

def Session.Filled (u : Session) (b id region : Nat) (args : List TypedId) (ids : List Nat)
    (ending : String) : Prop :=
  ∃ last, u.blockOf b = ⟨id, region, args, ids ++ [last]⟩ ∧ (u.op last).name = ending

namespace Program

variable {σ : Type} {last id : Nat} {s₁ s₂ : Session}

/-- Run a program.  A loop runs its body and its closing call for each item of the list that its
opening call hands over; a branch runs its parts one after the other. -/
def run : Program σ → σ → Build σ
  | .done, x => return x
  | .emit emission, x => emission.run x
  | .seq first second, x => do second.run (← first.run x)
  | .loop kind start stop step bind body, x => do
    let vs ← items (← kind.opening (start x) (stop x) (step x))
    vs.foldlM (fun y v => do
      let z ← body.run (bind v y)
      let _ ← kind.closing
      return z) x
  | .branch condition yes, x => do
    let _ ← openIf (condition x)
    let y ← yes.run x
    let _ ← closePart
    let _ ← closeIf
    return y
  | .branchElse condition yes no, x => do
    let _ ← openIf (condition x)
    let y ← yes.run x
    let _ ← closePart
    let _ ← openElse
    let z ← no.run y
    let _ ← closePart
    let _ ← closeIf
    return z

def closed (yes : Program σ) (x : σ) : Build σ := do
  let y ← yes.run x
  let _ ← closePart
  return y

def toElse (yes : Program σ) (x : σ) : Build σ := do
  let y ← yes.closed x
  let _ ← openElse
  return y

def constructs : Program σ → List Construct
  | .done | .emit _ => []
  | .seq first second => first.constructs ++ second.constructs
  | .loop kind _ _ _ _ body => kind.construct :: body.constructs
  | .branch _ yes => .branch :: yes.constructs
  | .branchElse _ yes no => .branch :: (yes.constructs ++ no.constructs)

/-- No loop or branch stands inside of another of its own kind. -/
def Unnested : Program σ → Prop
  | .done | .emit _ => True
  | .seq first second => first.Unnested ∧ second.Unnested
  | .loop kind _ _ _ _ body => kind.construct ∉ body.constructs ∧ body.Unnested
  | .branch _ yes => .branch ∉ yes.constructs ∧ yes.Unnested
  | .branchElse _ yes no =>
    (.branch ∉ yes.constructs ∧ yes.Unnested) ∧ .branch ∉ no.constructs ∧ no.Unnested

/-- In `u`, the operations `ids` are those of a program that was run from `s`, in its order: a
loop is one operation behind the constants of its bounds, and its block holds the operations of
the body and one end; a branch is one operation with a block of that kind for each part. -/
def Placed (u : Session) : Program σ → Session → σ → σ → List Nat → Prop
  | .done, _, x, y, ids => y = x ∧ ids = []
  | .emit emission, s, x, y, ids =>
    ∃ t, (emission.run x).exec s = (.ok y, t) ∧ s.Adds t s.current ids ∧ s.Keeps t u
  | .seq first second, s, x, z, ids => ∃ y t left right, ids = left ++ right ∧
      (first.run x).exec s = (.ok y, t) ∧ first.Placed u s x y left ∧ second.Placed u t y z right
  | .loop kind start stop step bind body, s, x, y, ids => ∃ v t consts id b args inner,
      ids = consts ++ [id] ∧ (kind.opening (start x) (stop x) (step x)).exec s = (.ok v, t) ∧
      Forall₂ (u.IsConstant kind.constantType) consts
        (LoopKind.integers s kind (start x) (stop x) (step x)) ∧
      (u.op id).name = kind.opName ∧ (u.op id).regions = [[b]] ∧
      u.Filled b id 0 args inner kind.yieldName ∧
      body.Placed u t (bind (kind.variableOf args) x) y inner
  | .branch condition yes, s, x, y, ids => ∃ t id b inner, ids = [id] ∧
      (openIf (condition x)).exec s = (.ok (.bool true), t) ∧
      (u.op id).name = "scf.IfOp" ∧ (u.op id).regions = [[b], []] ∧
      u.Filled b id 0 [] inner "scf.YieldOp" ∧ yes.Placed u t x y inner
  | .branchElse condition yes no, s, x, z, ids => ∃ y t t' id b b' inner inner', ids = [id] ∧
      (openIf (condition x)).exec s = (.ok (.bool true), t) ∧
      (yes.toElse x).exec t = (.ok y, t') ∧
      (u.op id).name = "scf.IfOp" ∧ (u.op id).regions = [[b], [b']] ∧
      u.Filled b id 0 [] inner "scf.YieldOp" ∧ u.Filled b' id 1 [] inner' "scf.YieldOp" ∧
      yes.Placed u t x y inner ∧ no.Placed u t' y z inner'

structure Ran (p : Program σ) (s t : Session) (x y : σ) (ids : List Nat) : Prop extends
    Grown s t ids where
  last_eq : ∀ c, c ∉ p.constructs → t.lastPoints.lookup c = s.lastPoints.lookup c
  last_new : ∀ c, c ∈ p.constructs → ∃ q, t.lastPoints.lookup c = some q ∧ s.points ≤ q.number
  events_eq : ∃ es, t.events = s.events ++ es ∧ Nested es ∧ (Matched es ↔ p.Unnested)
  placed : ∀ u, s.Keeps t u → p.Placed u s x y ids

variable {p q body yes no : Program σ} {s t u : Session} {x y z : σ} {ids ids' : List Nat}

private theorem ran_done (s : Session) (x : σ) : (done : Program σ).Ran s s x x [] where
  toGrown := .refl s
  last_eq _ _ := rfl
  last_new c hc := by simp [constructs] at hc
  events_eq := ⟨[], by simp, nested_nil, by simp [Matched, Unnested]⟩
  placed _ _ := ⟨rfl, rfl⟩

private theorem ran_emit {emission : Emission σ} (h : (emission.run x).exec s = (.ok y, t))
    (hst : s.Emitted t ids) : (emit emission).Ran s t x y ids where
  toGrown := hst.toGrown
  last_eq _ _ := by rw [hst.lastPoints_eq]
  last_new c hc := by simp [constructs] at hc
  events_eq := by
    obtain ⟨es, hes, hnested, hmatched⟩ := hst.events_eq
    exact ⟨es, hes, hnested, by simp [hmatched, Unnested]⟩
  placed u hu := ⟨t, h, hst.toAdds, hu⟩

private theorem Ran.seq (hs : s.Grounded) (hp : p.Ran s t x y ids) (hq : q.Ran t u y z ids')
    (hexec : (p.run x).exec s = (.ok y, t)) : (p.seq q).Ran s u x z (ids ++ ids') where
  toGrown := hp.toGrown.trans hq.toGrown
  last_eq c hc := by
    simp only [constructs, mem_append, not_or] at hc
    rw [hq.last_eq c hc.2, hp.last_eq c hc.1]
  last_new c hc := by
    by_cases hc' : c ∈ q.constructs
    · obtain ⟨point, hpoint, hle⟩ := hq.last_new c hc'
      exact ⟨point, hpoint, hp.points_le.trans hle⟩
    · have hc : c ∈ p.constructs := by simpa [constructs, hc'] using hc
      rw [hq.last_eq c hc']
      exact hp.last_new c hc
  events_eq := by
    obtain ⟨es, hes, hnested, hmatched⟩ := hp.events_eq
    obtain ⟨es', hes', hnested', hmatched'⟩ := hq.events_eq
    refine ⟨es ++ es', by rw [hes', hes, append_assoc], hnested.append hnested', ?_⟩
    rw [matched_append, hmatched, hmatched', Unnested]
  placed w hw := by
    have hops := hp.ops_le
    have hops' := hq.ops_le
    have hblocks := hp.blocks_le
    have hblocks' := hq.blocks_le
    have hfirst : s.Keeps t w := by
      refine ⟨hops'.trans hw.ops_le, ?_, ?_⟩
      · intro i h h'
        rw [hw.op_eq i h (by omega), hq.op_eq i h']
      · intro b h h'
        have hne : t.current ≠ some b := by
          intro hb
          have := hs b (hp.current_eq ▸ hb)
          omega
        rw [hw.block_eq b h (by omega), hq.block_eq b h' hne]
    exact ⟨y, t, ids, ids', rfl, hexec, hp.placed w hfirst, hq.placed w (hw.since hops hblocks)⟩

/-! ## Bodies -/

/-- What a body does between the point `p` that was entered and the call that leaves it.  The
exit is asked of `p` exactly if the body opens no construct of the same kind. -/
structure Arm (body : Program σ) (construct : Construct) (ending : String) (s t : Session)
    (p : InsertionPoint) (x y : σ) (inner : List Nat) (last : Nat) : Prop where
  adds : s.Adds t (some p.block) (inner ++ [last])
  name_eq : (t.op last).name = ending
  open_eq : s.stack = p :: t.stack
  openIfs_eq : t.openIfs = s.openIfs
  points_le : s.points ≤ t.points
  last_eq : ∀ c, c ∉ body.constructs → t.lastPoints.lookup c = s.lastPoints.lookup c
  last_new : ∀ c, c ∈ body.constructs → ∃ q, t.lastPoints.lookup c = some q ∧ s.points ≤ q.number
  events_eq : ∃ es q, t.events = s.events ++ es ++ [.exit q p] ∧ Nested es ∧
    (Matched es ∧ q = p ↔ construct ∉ body.constructs ∧ body.Unnested)
  placed : ∀ u, s.Keeps t u → body.Placed u s x y inner

private theorem Ran.arm {construct : Construct} {ending : String} {p q : InsertionPoint}
    {rest : List InsertionPoint} (hbody : body.Ran s t x y ids) (hopen : s.stack = p :: rest)
    (hlast : s.lastPoints.lookup construct = some p) (hpoint : p.number < s.points)
    (hblock : p.block < s.blocks.length) (hq : t.lastPoints.lookup construct = some q)
    (hcloses : t.Closes u ending last q p) :
    body.Arm construct ending s u p x y ids last where
  adds := by
    have hcurrent : s.current = some p.block := by simp [current, hopen]
    have hadds := hbody.toAdds
    rw [hcurrent] at hadds
    exact hadds.trans hcloses.adds
  name_eq := hcloses.name_eq
  open_eq := by rw [← hcloses.open_eq, hbody.open_eq]
  openIfs_eq := hcloses.openIfs_eq.trans hbody.openIfs_eq
  points_le := hcloses.points_eq ▸ hbody.points_le
  last_eq c hc := by rw [hcloses.lastPoints_eq, hbody.last_eq c hc]
  last_new c hc := by
    rw [hcloses.lastPoints_eq]
    exact hbody.last_new c hc
  events_eq := by
    obtain ⟨es, hes, hnested, hmatched⟩ := hbody.events_eq
    obtain ⟨es', hes', hnested', hmatched'⟩ := hcloses.events_eq
    refine ⟨es ++ es', q, ?_, hnested.append hnested', ?_⟩
    · rw [hes', hes]
      simp
    have hsame : q = p ↔ construct ∉ body.constructs := by
      constructor
      · rintro rfl hmem
        obtain ⟨r, hr, hle⟩ := hbody.last_new construct hmem
        obtain rfl : q = r := Option.some.inj (hq.symm.trans hr)
        omega
      · intro hmem
        rw [hbody.last_eq construct hmem, hlast] at hq
        exact (Option.some.inj hq).symm
    rw [matched_append, hmatched, hsame]
    tauto
  placed w hw := by
    refine hbody.placed w ⟨hcloses.adds.ops_le.trans hw.ops_le, fun i h h' => ?_, fun b h h' => ?_⟩
    · have hle := hcloses.adds.ops_le
      rw [hw.op_eq i h (by omega), hcloses.adds.op_eq i h']
    · have hle := hcloses.adds.blocks_le
      have hne : some p.block ≠ some b := by
        simp only [ne_eq, Option.some.injEq]
        omega
      rw [hw.block_eq b h (by omega), hcloses.adds.block_eq b h' hne]

namespace Arm

variable {construct : Construct} {ending : String} {p : InsertionPoint}
  {inner : List Nat} {last : Nat}

theorem filled (h : body.Arm construct ending s t p x y inner last)
    {id region : Nat} {args : List TypedId} (hlt : p.block < s.blocks.length)
    (hblock : s.blockOf p.block = ⟨id, region, args, []⟩)
      (hkeeps : u.blockOf p.block = t.blockOf p.block) (hlast : u.op last = t.op last) :
    u.Filled p.block id region args inner ending := by
  refine ⟨last, ?_, by rw [hlast, h.name_eq]⟩
  rw [hkeeps, h.adds.appended p.block hlt rfl, hblock]
  rfl

variable {s' : Session}

/-! ### From in front of an arm to behind it -/

section

variable (hs : s'.Enters s construct p) (h : body.Arm construct ending s t p x y inner last)

include hs h

theorem opened_eq : t.stack = s'.stack := by
  have hcons := h.open_eq.symm.trans hs.open_eq
  exact (cons.inj hcons).2

theorem points_le' : s'.points ≤ t.points := by
  have := hs.points_le
  have := hs.points_lt
  have := h.points_le
  omega

theorem lookup_eq {c : Construct} (hne : c ≠ construct) (hc : c ∉ body.constructs) :
    t.lastPoints.lookup c = s'.lastPoints.lookup c := by
  rw [h.last_eq c hc, hs.lastPoints_eq, Table.lookup_put_of_ne hne]

theorem lookup_new {c : Construct} (hc : c = construct ∨ c ∈ body.constructs) :
    ∃ q, t.lastPoints.lookup c = some q ∧ s'.points ≤ q.number := by
  by_cases hmem : c ∈ body.constructs
  · obtain ⟨q, hq, hle⟩ := h.last_new c hmem
    have := hs.points_le
    have := hs.points_lt
    exact ⟨q, hq, by omega⟩
  · obtain rfl := hc.resolve_right hmem
    refine ⟨p, ?_, hs.points_le⟩
    rw [h.last_eq c hmem, hs.lastPoints_eq, Table.lookup_put_self]

theorem events_since :
    ∃ es, t.events = s'.events ++ es ∧ Nested es ∧
      (Matched es ↔ construct ∉ body.constructs ∧ body.Unnested) := by
  obtain ⟨es, hes, hnested, hmatched⟩ := hs.events_eq
  obtain ⟨es', q, hes', hnested', hmatched'⟩ := h.events_eq
  refine ⟨es ++ (.enter p :: es' ++ [.exit q p]), ?_, hnested.append (hnested'.within p q), ?_⟩
  · rw [hes', hes]
    simp
  have hinside : Matched (.enter p :: es' ++ [.exit q p]) ↔ Matched es' ∧ q = p := by
    rw [matched_append, matched_exit]
    simp [Matched]
  rw [matched_append, hinside, ← hmatched']
  simp [hmatched]

end

end Arm

/-! ## Loops and branches -/

section Constructs

variable {s₁ s₂ s₃ : Session} {p : InsertionPoint} {consts inner inner' : List Nat}
  {id b last last' : Nat} {condition : Value}

private theorem Arm.loop {kind : LoopKind} {start stop step : σ → Value}
    {bind : Value → σ → σ} {v : Value} {args : List TypedId}
    (hs : s.Grounded) (hexec : (kind.opening (start x) (stop x) (step x)).exec s = (.ok v, s₁))
    (hopened : kind.Opened (start x) (stop x) (step x) s s₁ v consts id b p args) (harm :
      body.Arm kind.construct kind.yieldName s₁ t p (bind (kind.variableOf args) x) y inner last) :
    (loop kind start stop step bind body).Ran s t x y (consts ++ [id]) where
  toFrame := settled (harm.opened_eq hopened.toEnters) (harm.openIfs_eq.trans hopened.openIfs_eq)
    (harm.points_le' hopened.toEnters)
  toAdds := hopened.adds.within harm.adds (hopened.block_eq ▸ hopened.blocks_le) hs
  last_eq c hc := by
    simp only [constructs, mem_cons, not_or] at hc
    exact harm.lookup_eq hopened.toEnters hc.1 hc.2
  last_new c hc := harm.lookup_new hopened.toEnters (mem_cons.mp hc)
  events_eq := harm.events_since hopened.toEnters
  placed u hu := by
    have hops := harm.adds.ops_le
    have hblocks := harm.adds.blocks_le
    have hnew {i : Nat} (hi : i ∈ consts ++ [id]) : u.op i = s₁.op i := by
      have hlt := hopened.adds.mem_lt hi
      rw [hu.op_eq i (hopened.adds.le_mem hi) (by omega), harm.adds.op_eq i hlt]
    have hop := hnew (i := id) (by simp)
    have hlast : u.op last = t.op last := by
      have hmem : last ∈ inner ++ [last] := by simp
      have := harm.adds.le_mem hmem
      have := hopened.adds.ops_le
      exact hu.op_eq last (by omega) (harm.adds.mem_lt hmem)
    have hfilled : u.Filled b id 0 args inner kind.yieldName := by
      obtain rfl := hopened.block_eq
      have := hopened.block_lt
      refine harm.filled hopened.block_lt hopened.blockOf_eq ?_ hlast
      exact hu.block_eq p.block hopened.blocks_le (by omega)
    have hconstants : Forall₂ (u.IsConstant kind.constantType) consts
        (LoopKind.integers s kind (start x) (stop x) (step x)) := by
      have hmem : ∀ i ∈ consts, u.op i = s₁.op i := fun i hi => hnew (by simp [hi])
      refine ((forall₂_and_left consts _).mpr ⟨hmem, hopened.constants⟩).imp fun i w hi => ?_
      have := hi.2.lt
      have := hu.ops_le
      exact ⟨by omega, hi.1 ▸ hi.2.name_eq, hi.1 ▸ hi.2.operands_eq⟩
    refine ⟨v, s₁, consts, id, b, args, inner, rfl, hexec, hconstants, ?_, ?_, hfilled, ?_⟩
    · rw [hop, hopened.name_eq]
    · rw [hop, hopened.regions_eq]
    · exact harm.placed u (hu.since hopened.adds.ops_le hopened.adds.blocks_le)

/-- What is common to branches with and without an else part: the first part, up to its end. -/
structure HalfBranch (yes : Program σ) (condition : Value) (s s₁ s₂ : Session) (p : InsertionPoint)
    (x y : σ) (id : Nat) (inner : List Nat) (last : Nat) : Prop extends
    Opens s s₁ .branch [] id p.block p where
  exec_eq : (openIf condition).exec s = (.ok (.bool true), s₁)
  openIfs_eq : s₁.openIfs = id :: s.openIfs
  name_eq : (s₁.op id).name = "scf.IfOp"
  regions_eq : (s₁.op id).regions = [[p.block], []]
  blockOf_eq : s₁.blockOf p.block = ⟨id, 0, [], []⟩
  arm : yes.Arm .branch "scf.YieldOp" s₁ s₂ p x y inner last

theorem HalfBranch.op_eq (h : yes.HalfBranch condition s s₁ s₂ p x y id inner last) :
    s₂.op id = s₁.op id :=
  h.arm.adds.op_eq id (h.adds.mem_lt (by simp))

theorem HalfBranch.openIfs_eq' (h : yes.HalfBranch condition s s₁ s₂ p x y id inner last) :
    s₂.openIfs = id :: s.openIfs :=
  h.arm.openIfs_eq.trans h.openIfs_eq

theorem HalfBranch.adds_eq (hs : s.Grounded)
    (h : yes.HalfBranch condition s s₁ s₂ p x y id inner last) : s.Adds s₂ s.current [id] :=
  h.adds.within h.arm.adds h.blocks_le hs

private theorem HalfBranch.branch {condition : σ → Value} (hs : s.Grounded)
    (h : yes.HalfBranch (condition x) s s₁ s₂ p x y id inner last) :
    (branch condition yes).Ran s { s₂ with openIfs := s.openIfs } x y [id] where
  toFrame := by
    have hopen := h.arm.opened_eq h.toEnters
    have hpoints := h.arm.points_le' h.toEnters
    exact settled hopen rfl hpoints
  toAdds := (h.adds_eq hs).congr rfl rfl
  last_eq c hc := by
    simp only [constructs, mem_cons, not_or] at hc
    exact h.arm.lookup_eq h.toEnters hc.1 hc.2
  last_new c hc := h.arm.lookup_new h.toEnters (mem_cons.mp hc)
  events_eq := by
    have hevents := h.arm.events_since h.toEnters
    exact hevents
  placed u hu := by
    have hadds := h.adds_eq hs
    have hop : u.op id = s₁.op id := by
      have hmem : id ∈ [id] := by simp
      exact (hu.op_eq id (hadds.le_mem hmem) (hadds.mem_lt hmem)).trans h.op_eq
    have hlast : u.op last = s₂.op last := by
      have hmem : last ∈ inner ++ [last] := by simp
      have := h.arm.adds.le_mem hmem
      have := h.adds.ops_le
      exact hu.op_eq last (by omega) (h.arm.adds.mem_lt hmem)
    have hblock : u.blockOf p.block = s₂.blockOf p.block :=
      hu.block_eq p.block h.blocks_le (h.block_lt.trans_le h.arm.adds.blocks_le)
    refine ⟨s₁, id, p.block, inner, rfl, h.exec_eq,
      by rw [hop, h.name_eq], by rw [hop, h.regions_eq],
      h.arm.filled h.block_lt h.blockOf_eq hblock hlast, h.arm.placed u ?_⟩
    have hkeeps := hu.since h.adds.ops_le h.adds.blocks_le
    exact ⟨hkeeps.ops_le, hkeeps.op_eq, hkeeps.block_eq⟩

def elseEntered (s : Session) (id : Nat) : Session :=
  (s.addBlock id 1 []).enterAt .branch s.blocks.length

theorem enters_elseEntered (s : Session) (id : Nat) :
    s.Enters (elseEntered s id) .branch ⟨s.points, s.blocks.length⟩ where
  open_eq := rfl
  points_le := le_rfl
  points_lt := Nat.lt_succ_self _
  lastPoints_eq := rfl
  events_eq := ⟨[.block s.blocks.length id 1 []], rfl, rfl, by simp [Matched]⟩

@[simp] theorem length_ops_elseEntered (s : Session) (id : Nat) :
    (elseEntered s id).ops.length = s.ops.length := s.length_ops_addBlock id 1 []

@[simp] theorem length_blocks_elseEntered (s : Session) (id : Nat) :
    (elseEntered s id).blocks.length = s.blocks.length + 1 := s.length_blocks_addBlock id 1 []

private theorem HalfBranch.branchElse {condition : σ → Value}
    (hs : s.Grounded) (h : yes.HalfBranch (condition x) s s₁ s₂ p x y id inner last)
    (hexec : (yes.toElse x).exec s₁ = (.ok y, elseEntered s₂ id)) (harm : no.Arm .branch
      "scf.YieldOp" (elseEntered s₂ id) s₃ ⟨s₂.points, s₂.blocks.length⟩ y z inner' last') :
    (branchElse condition yes no).Ran s { s₃ with openIfs := s.openIfs } x z [id] where
  toFrame := by
    have helse := enters_elseEntered s₂ id
    have hpoints := (h.arm.points_le' h.toEnters).trans (harm.points_le' helse)
    exact settled ((harm.opened_eq helse).trans (h.arm.opened_eq h.toEnters)) rfl hpoints
  toAdds := by
    have hhalf := h.adds_eq hs
    have helse : s.Adds (elseEntered s₂ id) s.current [id] :=
      (hhalf.addBlock (hhalf.le_mem (by simp)) 1 []).congr rfl rfl
    exact (helse.within harm.adds hhalf.blocks_le hs).congr rfl rfl
  last_eq c hc := by
    simp only [constructs, mem_cons, mem_append, not_or] at hc
    obtain ⟨hne, hyes, hno⟩ := hc
    exact (harm.lookup_eq (enters_elseEntered s₂ id) hne hno).trans
      (h.arm.lookup_eq h.toEnters hne hyes)
  last_new c hc := by
    by_cases hno : c = .branch ∨ c ∈ no.constructs
    · obtain ⟨q, hq, hle⟩ := harm.lookup_new (enters_elseEntered s₂ id) hno
      exact ⟨q, hq, (h.arm.points_le' h.toEnters).trans hle⟩
    · obtain ⟨hne, hno⟩ := not_or.mp hno
      have hyes : c ∈ yes.constructs := by simpa [constructs, hne, hno] using hc
      obtain ⟨q, hq, hle⟩ := h.arm.lookup_new h.toEnters (.inr hyes)
      exact ⟨q, (harm.lookup_eq (enters_elseEntered s₂ id) hne hno).trans hq, hle⟩
  events_eq := by
    obtain ⟨es, hes, hnested, hmatched⟩ := h.arm.events_since h.toEnters
    obtain ⟨es', hes', hnested', hmatched'⟩ := harm.events_since (enters_elseEntered s₂ id)
    refine ⟨es ++ es', ?_, hnested.append hnested', ?_⟩
    · rw [← append_assoc, ← hes, ← hes']
    · rw [matched_append, hmatched, hmatched', Unnested]
  placed u hu := by
    have hid : s.ops.length ≤ id := h.adds.le_mem (by simp)
    have hid₁ : id < s₁.ops.length := h.adds.mem_lt (by simp)
    have hops₁ := h.adds.ops_le
    have hops₂ := h.arm.adds.ops_le
    have hops₃ := harm.adds.ops_le
    have hblocks₁ := h.adds.blocks_le
    have hblocks₂ := h.arm.adds.blocks_le
    have hblocks₃ := harm.adds.blocks_le
    rw [length_ops_elseEntered] at hops₃
    rw [length_blocks_elseEntered] at hblocks₃
    -- Opening the second part changes nothing of the first but that the branch has one block more.
    have hthen {i : Nat} (hi : i < s₂.ops.length) (hne : i ≠ id) : s₃.op i = s₂.op i := by
      rw [harm.adds.op_eq i (by rwa [length_ops_elseEntered])]
      exact op_addBlock_of_ne hne 1 []
    have hblock {c : Nat} (hc : c < s₂.blocks.length) : s₃.blockOf c = s₂.blockOf c := by
      have hne : some s₂.blocks.length ≠ some c := by
        simp only [ne_eq, Option.some.injEq]
        omega
      rw [harm.adds.block_eq c (by rw [length_blocks_elseEntered]; omega) hne]
      exact blockOf_addBlock_of_lt hc id 1 []
    have hop : u.op id = { s₁.op id with regions := [[p.block], [s₂.blocks.length]] } := by
      have hregions : (s₂.op id).regions = [[p.block], []] := by rw [h.op_eq, h.regions_eq]
      have hadded : (elseEntered s₂ id).op id = _ := op_addBlock_self (hid₁.trans_le hops₂) 1 []
      rw [hu.op_eq id hid (by dsimp only; omega)]
      change s₃.op id = _
      rw [harm.adds.op_eq id (by rw [length_ops_elseEntered]; omega), hadded, hregions, h.op_eq]
      rfl
    have hfirst : s₁.Keeps s₂ u := by
      refine ⟨hops₃.trans hu.ops_le, fun i hi hi' => ?_, fun c hc hc' => ?_⟩
      · rw [← hthen hi' (by omega)]
        exact hu.op_eq i (by omega) (by dsimp only; omega)
      · rw [← hblock hc']
        exact hu.block_eq c (by omega) (by dsimp only; omega)
    have hsecond : (elseEntered s₂ id).Keeps s₃ u := by
      refine ⟨hu.ops_le, fun i hi => hu.op_eq i ?_, fun c hc => hu.block_eq c ?_⟩
      · rw [length_ops_elseEntered] at hi
        omega
      · rw [length_blocks_elseEntered] at hc
        omega
    have hfilled : u.Filled p.block id 0 [] inner "scf.YieldOp" := by
      have hmem : last ∈ inner ++ [last] := by simp
      have hlt := h.block_lt
      refine h.arm.filled h.block_lt h.blockOf_eq ?_ ?_
      · rw [← hblock (hlt.trans_le hblocks₂)]
        exact hu.block_eq p.block h.blocks_le (by dsimp only; omega)
      · exact hfirst.op_eq last (h.arm.adds.le_mem hmem) (h.arm.adds.mem_lt hmem)
    have hfilled' : u.Filled s₂.blocks.length id 1 [] inner' "scf.YieldOp" := by
      have hmem : last' ∈ inner' ++ [last'] := by simp
      refine harm.filled (by simp) (s₂.blockOf_addBlock_self id 1 []) ?_ ?_
      · exact hu.block_eq s₂.blocks.length (by omega) (by dsimp only; omega)
      · exact hsecond.op_eq last' (harm.adds.le_mem hmem) (harm.adds.mem_lt hmem)
    exact ⟨y, s₁, elseEntered s₂ id, id, p.block, s₂.blocks.length,
      inner, inner', rfl, h.exec_eq, hexec,
      by rw [hop, ← h.name_eq], by rw [hop], hfilled, hfilled', h.arm.placed u hfirst,
      harm.placed u hsecond⟩

end Constructs

/-! ## Whole runs -/

/-- A program raises a fault at one of its statements or at a call that opens a loop or a branch.
The constructs that are open around that place are listed from the inside. -/
inductive Raises : Program σ → σ → Session → Fault → Session → List Construct → Prop
  | emit {emission : Emission σ} {x : σ} {s u : Session} {fault : Fault} :
      (emission.run x).exec s = (.error fault, u) → Raises (.emit emission) x s fault u []
  | first {p q : Program σ} {x : σ} {s u : Session} {fault : Fault} {around : List Construct} :
      Raises p x s fault u around → Raises (.seq p q) x s fault u around
  | second {p q : Program σ} {x y : σ} {s t u : Session} {fault : Fault} {around : List Construct} :
      (p.run x).exec s = (.ok y, t) → Raises q y t fault u around →
        Raises (.seq p q) x s fault u around
  | opening {kind : LoopKind} {start stop step : σ → Value} {bind : Value → σ → σ}
    {body : Program σ}
      {x : σ} {s u : Session} {fault : Fault} :
      (kind.opening (start x) (stop x) (step x)).exec s = (.error fault, u) →
      Raises (.loop kind start stop step bind body) x s fault u []
  | body {kind : LoopKind} {start stop step : σ → Value} {bind : Value → σ → σ} {body : Program σ}
      {x : σ} {s t u : Session} {fault : Fault} {v w : Value} {around : List Construct} :
      (kind.opening (start x) (stop x) (step x)).exec s = (.ok v, t) →
      (items v).exec t = (.ok [w], t) → Raises body (bind w x) t fault u around →
      Raises (.loop kind start stop step bind body) x s fault u (around ++ [kind.construct])
  | test {condition : σ → Value} {yes : Program σ} {x : σ} {s u : Session} {fault : Fault} :
      (openIf (condition x)).exec s = (.error fault, u) →
      Raises (.branch condition yes) x s fault u []
  | part {condition : σ → Value} {yes : Program σ}
    {x : σ} {s t u : Session} {fault : Fault} {v : Value}
      {around : List Construct} :
      (openIf (condition x)).exec s = (.ok v, t) → Raises yes x t fault u around →
      Raises (.branch condition yes) x s fault u (around ++ [.branch])
  | testElse {condition : σ → Value} {yes no : Program σ} {x : σ} {s u : Session} {fault : Fault} :
      (openIf (condition x)).exec s = (.error fault, u) →
      Raises (.branchElse condition yes no) x s fault u []
  | firstPart {condition : σ → Value} {yes no : Program σ} {x : σ} {s t u : Session} {fault : Fault}
      {v : Value} {around : List Construct} :
      (openIf (condition x)).exec s = (.ok v, t) → Raises yes x t fault u around →
      Raises (.branchElse condition yes no) x s fault u (around ++ [.branch])
  | secondPart {condition : σ → Value} {yes no : Program σ} {x y : σ} {s t t' u : Session}
      {fault : Fault} {v : Value} {around : List Construct} :
      (openIf (condition x)).exec s = (.ok v, t) →
      (yes.toElse x).exec t = (.ok y, t') → Raises no y t' fault u around →
      Raises (.branchElse condition yes no) x s fault u (around ++ [.branch])

def Ends (p : Program σ) (x : σ) (s : Session) : Prop :=
  (∃ y t ids, (p.run x).exec s = (.ok y, t) ∧ p.Ran s t x y ids) ∨
    ∃ fault u around, (p.run x).exec s = (.error fault, u) ∧ p.Raises x s fault u around

theorem Ends.arm {construct : Construct} {ending : String} {close : Build Value}
    {p : InsertionPoint} (hclose : ∀ (t : Session) (rest : List InsertionPoint)
      (q : InsertionPoint), t.stack = p :: rest → t.lastPoints.lookup construct = some q →
      ∃ u, close.exec t = (.ok .none, u) ∧ t.Closes u ending t.ops.length q p)
    (hs : s.Enters t construct p) (hblock : p.block < t.blocks.length) (hbody : body.Ends x t) :
    (∃ y u inner last, (do
        let y ← body.run x
        let _ ← close
        return y : Build σ).exec t = (.ok y, u) ∧ body.Arm construct ending t u p x y inner last) ∨
      ∃ fault u around, (body.run x).exec t = (.error fault, u) ∧
        body.Raises x t fault u around := by
  obtain ⟨y, m, ids, hexec, hran⟩ | hraises := hbody
  · have hlast : t.lastPoints.lookup construct = some p := by
      rw [hs.lastPoints_eq, Table.lookup_put_self]
    have hq : ∃ q, m.lastPoints.lookup construct = some q := by
      by_cases hmem : construct ∈ body.constructs
      · obtain ⟨q, hq, -⟩ := hran.last_new construct hmem
        exact ⟨q, hq⟩
      · exact ⟨p, (hran.last_eq construct hmem).trans hlast⟩
    obtain ⟨q, hq⟩ := hq
    have hopen : m.stack = p :: s.stack := hran.open_eq.trans hs.open_eq
    obtain ⟨u, hu, hcloses⟩ := hclose m s.stack q hopen hq
    refine .inl ⟨y, u, ids, _, ?_, hran.arm hs.open_eq hlast hs.points_lt hblock hq hcloses⟩
    rw [exec_bind_ok hexec, exec_bind_ok hu]
    rfl
  · exact .inr hraises

private theorem ends_loop {kind : LoopKind} {start stop step : σ → Value} {bind : Value → σ → σ}
    (hbody : ∀ x t, t.Grounded → body.Ends x t) (hs : s.Grounded) :
    (loop kind start stop step bind body).Ends x s := by
  obtain ⟨fault, u, -, herror, -⟩ | ⟨v, s₁, consts, id, b, p, args, hopen, hopened⟩ :=
    kind.openingEnds (start x) (stop x) (step x) s
  · exact .inr ⟨fault, u, [], exec_bind_error herror, .opening herror⟩
  have hrun : ((loop kind start stop step bind body).run x).exec s = (do
      let y ← body.run (bind (kind.variableOf args) x)
      let _ ← kind.closing
      return y : Build σ).exec s₁ := by
    rw [run, exec_bind_ok hopen, exec_bind_ok hopened.items_eq]
    simp only [foldlM_cons, foldlM_nil, bind_assoc, pure_bind]
  have hblock : p.block < s₁.blocks.length := hopened.block_eq ▸ hopened.block_lt
  have hground := grounded_of_open hopened.open_eq hblock
  obtain ⟨y, t, inner, last, hexec, harm⟩ | ⟨fault, u, around, herror, hraises⟩ :=
    Ends.arm (fun t rest q => kind.closing_ends) hopened.toEnters hblock (hbody _ s₁ hground)
  · exact .inl ⟨y, t, _, hrun.trans hexec, harm.loop hs hopen hopened⟩
  · exact .inr ⟨fault, u, _, hrun.trans (exec_bind_error herror),
      .body hopen hopened.items_eq hraises⟩

theorem ends_halfBranch (condition : Value) (hyes : ∀ t : Session, t.Grounded → yes.Ends x t) :
    (∃ fault, (openIf condition).exec s = (.error fault, s)) ∨
      (∃ s₁ fault u around, (openIf condition).exec s = (.ok (.bool true), s₁) ∧
        (yes.closed x).exec s₁ = (.error fault, u) ∧ yes.Raises x s₁ fault u around) ∨
      ∃ s₁ s₂ p y id inner last, (yes.closed x).exec s₁ = (.ok y, s₂) ∧
        yes.HalfBranch condition s s₁ s₂ p x y id inner last := by
  obtain herror | ⟨s₁, id, b, p, hopen, hopens, hifs, hname, hregions, hblockOf⟩ :=
    openIf_ends condition s
  · exact .inl herror
  obtain rfl := hopens.block_eq
  have hground := grounded_of_open hopens.open_eq hopens.block_lt
  obtain ⟨y, s₂, inner, last, hexec, harm⟩ | ⟨fault, u, around, herror, hraises⟩ :=
    Ends.arm (fun t rest q => closePart_ends) hopens.toEnters hopens.block_lt (hyes s₁ hground)
  · exact .inr (.inr ⟨s₁, s₂, p, y, id, inner, last, hexec,
      { hopens with exec_eq := hopen, openIfs_eq := hifs, name_eq := hname, regions_eq := hregions,
                    blockOf_eq := hblockOf, arm := harm }⟩)
  · exact .inr (.inl ⟨s₁, fault, u, around, hopen, exec_bind_error herror, hraises⟩)

section

variable {condition : Value} {p : InsertionPoint} {inner : List Nat}
  (h : yes.HalfBranch condition s s₁ s₂ p x y id inner last)

include h

private theorem HalfBranch.exec_openElse :
    openElse.exec s₂ = (.ok (.bool true), elseEntered s₂ id) := by
  have hid : id < s₂.ops.length := (h.adds.mem_lt (by simp)).trans_le h.arm.adds.ops_le
  have hregions : (s₂.op id).regions = [[p.block], []] := by rw [h.op_eq, h.regions_eq]
  exact (openElse_ends h.openIfs_eq' hid hregions).1

theorem HalfBranch.exec_toElse (hexec : (yes.closed x).exec s₁ = (.ok y, s₂)) :
    (yes.toElse x).exec s₁ = (.ok y, elseEntered s₂ id) := by
  rw [toElse, exec_bind_ok hexec, exec_bind_ok h.exec_openElse]
  rfl

end

private theorem ends_branch {condition : σ → Value} (hyes : ∀ x t, t.Grounded → yes.Ends x t)
    (hs : s.Grounded) : (branch condition yes).Ends x s := by
  have hrun : (branch condition yes).run x = (do
      let _ ← openIf (condition x)
      let y ← yes.closed x
      let _ ← closeIf
      return y) := by
    simp only [run, closed, bind_assoc, pure_bind]
  obtain ⟨fault, herror⟩ | ⟨s₁, fault, u, around, hopen, herror, hraises⟩ |
    ⟨s₁, s₂, p, y, id, inner, last, hexec, half⟩ := ends_halfBranch (condition x) (hyes x)
  · exact .inr ⟨fault, s, [], by rw [hrun, exec_bind_error herror], .test herror⟩
  · refine .inr ⟨fault, u, _, ?_, .part hopen hraises⟩
    rw [hrun, exec_bind_ok hopen, exec_bind_error herror]
  · refine .inl ⟨y, _, _, ?_, half.branch hs⟩
    rw [hrun, exec_bind_ok half.exec_eq, exec_bind_ok hexec,
      exec_bind_ok (closeIf_ends half.openIfs_eq')]
    rfl

theorem run_branchElse (condition : σ → Value) (yes no : Program σ) (x : σ) :
    (branchElse condition yes no).run x = (do
      let _ ← openIf (condition x)
      let y ← yes.toElse x
      let z ← no.closed y
      let _ ← closeIf
      return z) := by
  simp only [run, toElse, closed, bind_assoc, pure_bind]

private theorem ends_branchElse {condition : σ → Value} (hyes : ∀ x t, t.Grounded → yes.Ends x t)
    (hno : ∀ x t, t.Grounded → no.Ends x t) (hs : s.Grounded) :
    (branchElse condition yes no).Ends x s := by
  have hrun := run_branchElse condition yes no x
  obtain ⟨fault, herror⟩ | ⟨s₁, fault, u, around, hopen, herror, hraises⟩ |
    ⟨s₁, s₂, p, y, id, inner, last, hexec, half⟩ := ends_halfBranch (condition x) (hyes x)
  · exact .inr ⟨fault, s, [], by rw [hrun, exec_bind_error herror], .testElse herror⟩
  · refine .inr ⟨fault, u, _, ?_, .firstPart hopen hraises⟩
    have hfirst : (yes.toElse x).exec s₁ = (.error fault, u) := exec_bind_error herror
    rw [hrun, exec_bind_ok hopen, exec_bind_error hfirst]
  have hfirst := half.exec_toElse hexec
  have hblock : s₂.blocks.length < (elseEntered s₂ id).blocks.length := by simp
  have hground := grounded_of_open (enters_elseEntered s₂ id).open_eq hblock
  obtain ⟨z, s₃, inner', last', hexec', harm⟩ | ⟨fault, u, around, herror, hraises⟩ :=
    Ends.arm (fun t rest q => closePart_ends) (enters_elseEntered s₂ id) hblock (hno y _ hground)
  · have hifs' : s₃.openIfs = id :: s.openIfs := harm.openIfs_eq.trans half.openIfs_eq'
    refine .inl ⟨z, _, _, ?_, half.branchElse hs hfirst harm⟩
    rw [hrun, exec_bind_ok half.exec_eq, exec_bind_ok hfirst, closed, exec_bind_ok hexec',
      exec_bind_ok (closeIf_ends hifs')]
    rfl
  · refine .inr ⟨fault, u, _, ?_, .secondPart half.exec_eq hfirst hraises⟩
    rw [hrun, exec_bind_ok half.exec_eq, exec_bind_ok hfirst]
    exact exec_bind_error (exec_bind_error herror)

/-- Every run ends in one of the two ways. -/
theorem ends (p : Program σ) (x : σ) (s : Session) (hs : s.Grounded) : p.Ends x s := by
  induction p generalizing x s with
  | done => exact .inl ⟨x, s, [], rfl, ran_done s x⟩
  | emit emission =>
    rcases h : (emission.run x).exec s with ⟨fault | y, t⟩
    · exact .inr ⟨fault, t, [], h, .emit h⟩
    · obtain ⟨ids, hst⟩ := (emission.emits x).of_exec hs h
      exact .inl ⟨y, t, ids, h, ran_emit h hst⟩
  | seq p q ihp ihq =>
    obtain ⟨y, t, ids, hp, hran⟩ | ⟨fault, u, around, hp, hraises⟩ := ihp x s hs
    · obtain ⟨z, u, ids', hq, hran'⟩ | ⟨fault, u, around, hq, hraises⟩ := ihq y t (hran.grounded hs)
      · exact .inl ⟨z, u, _, (exec_bind_ok hp).trans hq, .seq hs hran hran' hp⟩
      · exact .inr ⟨fault, u, around, (exec_bind_ok hp).trans hq, .second hp hraises⟩
    · exact .inr ⟨fault, u, around, exec_bind_error hp, .first hraises⟩
  | loop kind start stop step bind body ih => exact ends_loop ih hs
  | branch condition yes ih => exact ends_branch ih hs
  | branchElse condition yes no ihyes ihno => exact ends_branchElse ihyes ihno hs

theorem Raises.exec_eq {fault : Fault} {around : List Construct} (h : p.Raises x s fault u around) :
    (p.run x).exec s = (.error fault, u) := by
  induction h with
  | emit h => exact h
  | first _ ih => exact exec_bind_error ih
  | second h _ ih => exact (exec_bind_ok h).trans ih
  | opening h => exact exec_bind_error h
  | body hopen hitems _ ih =>
    rw [run, exec_bind_ok hopen, exec_bind_ok hitems, foldlM_cons]
    exact exec_bind_error (exec_bind_error ih)
  | test h => exact exec_bind_error h
  | part hopen _ ih => exact (exec_bind_ok hopen).trans (exec_bind_error ih)
  | testElse h => exact exec_bind_error h
  | firstPart hopen _ ih => exact (exec_bind_ok hopen).trans (exec_bind_error ih)
  | secondPart hopen hfirst _ ih =>
    rw [run_branchElse, exec_bind_ok hopen, exec_bind_ok hfirst]
    exact exec_bind_error (exec_bind_error ih)

/-- A program that raises no fault is run to its end, from every session that builds in a block
or in none.  The open points and branches are then those of before, and all that was added where
the program stands are its operations in order, with the bodies of loops and the parts of branches
in blocks of their own. -/
theorem run_placed (p : Program σ) (x : σ) (s : Session) (hs : s.Grounded)
    (h : ∀ fault u around, ¬ p.Raises x s fault u around) :
    ∃ y t ids, (p.run x).exec s = (.ok y, t) ∧ t.stack = s.stack ∧ t.openIfs = s.openIfs ∧
      s.Adds t s.current ids ∧ p.Placed t s x y ids := by
  obtain ⟨y, t, ids, hexec, hran⟩ | ⟨fault, u, around, -, hraises⟩ := p.ends x s hs
  · have hkeeps : s.Keeps t t := ⟨le_rfl, fun _ _ _ => rfl, fun _ _ _ => rfl⟩
    exact ⟨y, t, ids, hexec, hran.open_eq, hran.openIfs_eq, hran.toAdds, hran.placed t hkeeps⟩
  · exact absurd hraises (h fault u around)

theorem not_raises_of_ok (h : ((p.run x).exec s).1.toBool = true) (fault : Fault) (u : Session)
    (around : List Construct) : ¬ p.Raises x s fault u around := by
  intro hraises
  rw [hraises.exec_eq] at h
  cases h

def mark (cls : String) : Program Unit :=
  .emit ⟨fun _ => do let _ ← native "test" cls [], fun _ =>
    (makes_native "test" cls [] []).emits.bind fun _ => (reads_pure _).emits⟩

def fourTimes (kind : LoopKind) (body : Program Unit) : Program Unit :=
  .loop kind (fun _ => .int 0) (fun _ => .int 4) (fun _ => .int 1) (fun _ x => x) body

def branchInLoops : Program Unit :=
  fourTimes .index (.seq (mark "First") (fourTimes .shared
    (.branchElse (fun _ => .ssa 0 "i1" .arith) (mark "Then") (fourTimes .index (mark "Else")))))

def inModule : Session :=
  { ops := [⟨"builtin.module", "builtin.ModuleOp", none, [], [], [], [[0]]⟩],
    blocks := [⟨0, 0, [], []⟩], points := 1, stack := [⟨0, 0⟩] }

theorem grounded_inModule : inModule.Grounded := grounded_of_open rfl (by decide)

theorem branchInLoops_placed : ∃ y t ids, (branchInLoops.run ()).exec inModule = (.ok y, t) ∧
    t.stack = inModule.stack ∧ t.openIfs = inModule.openIfs ∧ inModule.Adds t inModule.current ids ∧
    branchInLoops.Placed t inModule () y ids :=
  run_placed branchInLoops () inModule grounded_inModule (not_raises_of_ok (by decide +kernel))

end Program

end Polyloom
