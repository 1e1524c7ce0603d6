import Polyloom.Proofs.Builder.Constants

/-!
# Opening and closing loops and branches

The call that opens a loop makes constants of its integer bounds, then the loop with one block,
and enters that block.  It hands over a list with the loop's variable as its only item.  The call
that closes a loop ends the innermost block and leaves it, whatever was entered in between.
-/

namespace Polyloom

open Build List ControlFlow Session OpDefinition TypedId

variable {ifs : List Nat} {β : Type} {id more cell : Nat} {make : Build Value}
  {p q : InsertionPoint} {rest : List InsertionPoint} {cls name : String} {s : Session}

/-! ## Constants -/

namespace Session

variable {s t u : Session} {type : String} {vs vs' : List Value} {ids ids' : List Nat}

structure IsConstant (s : Session) (type : String) (id : Nat) (v : Value) : Prop where
  lt : id < s.ops.length
  name_eq : (s.op id).name = "arith.ConstantOp"
  operands_eq : (s.op id).operands = [.type type, v]

theorem IsConstant.later {place : Option Nat} {v : Value} (h : s.IsConstant type id v)
    (hst : s.Adds t place ids) : t.IsConstant type id v := by
  have hop := hst.op_eq id h.lt
  exact ⟨h.lt.trans_le hst.ops_le, hop ▸ h.name_eq, hop ▸ h.operands_eq⟩

private theorem Emitted.withLists (h : s.Emitted t ids) (lists : List (List Value)) :
    s.Emitted { t with lists := lists } ids :=
  { h.toAdds.congr rfl rfl with
    toFrame := settled h.open_eq h.openIfs_eq h.points_le
    lastPoints_eq := h.lastPoints_eq
    events_eq := h.events_eq }

/-- All that was done is to make constants of values, in order. -/
structure AddsConstants (s t : Session) (type : String) (vs : List Value) (ids : List Nat) : Prop
    extends Emitted s t ids where
  constants : Forall₂ (t.IsConstant type) ids vs

theorem AddsConstants.refl (s : Session) (type : String) : s.AddsConstants s type [] [] :=
  { Emitted.refl s with constants := .nil }

theorem AddsConstants.trans (h : s.AddsConstants t type vs ids)
    (h' : t.AddsConstants u type vs' ids') :
    s.AddsConstants u type (vs ++ vs') (ids ++ ids') :=
  { h.toEmitted.trans h'.toEmitted with
    constants := rel_append (h.constants.imp fun _ _ hc => hc.later h'.toAdds) h'.constants }

theorem AddsConstants.create (s : Session) (type : String) (v : Value) (how : Creation) :
    s.AddsConstants (s.create (s.newOp "arith.ConstantOp" "arith.ConstantOp" [.type type, v] []
      [type] 0) how) type [v] [s.ops.length] :=
  { Emitted.create rfl how with
    constants := .cons ⟨by simp, by simp [newOp], by simp [newOp]⟩ .nil }

theorem AddsConstants.withLists (h : s.AddsConstants t type vs ids) (lists : List (List Value)) :
    s.AddsConstants { t with lists := lists } type vs ids :=
  { h.toEmitted.withLists lists with
    constants := h.constants.imp fun _ _ hc => ⟨hc.lt, hc.name_eq, hc.operands_eq⟩ }

private theorem exists_addsConstants (s : Session) (vs : List Value) :
    ∃ ids, s.AddsConstants (s.addConstants vs) "index" (Value.integers vs) ids := by
  unfold addConstants
  induction Value.integers vs generalizing s with
  | nil => exact ⟨[], .refl s _⟩
  | cons v ints ih =>
    obtain ⟨ids, hadds⟩ := ih (s.addConstant v)
    exact ⟨_, (AddsConstants.create s "index" v _).trans hadds⟩

end Session

theorem exec_constantFor (type : String) (v : Value) (s : Session) : ∃ w ids t,
    (if v.isInt then Arith.constant v (.type type) else pure v).exec s = (.ok w, t) ∧
      s.AddsConstants t type ([v].filter Value.isInt) ids := by
  by_cases hv : v.isInt = true
  · rw [if_pos hv, filter_cons_of_pos hv]
    exact ⟨_, _, _, Arith.exec_constant (Value.isIndex_of_isInt hv) type s, .create s type v _⟩
  · refine ⟨v, [], s, by rw [if_neg hv, exec_pure], ?_⟩
    simpa [hv] using AddsConstants.refl s type

/-! ## Entering a new block -/

def enterBody {β : Type} (make : Build Value) (types : List String) (construct : Construct)
    (next : List Value → Build β) : Build β := do
  let made ← make
  let _ ← appendBlock (← opId made) 0 types
  let body ← blockAt (← opId made) 0 0
  openAt construct body
  let args ← blockArgs body
  next args

namespace Session

variable {s t u : Session} {ids : List Nat} {o : OpRecord}

def opened (s : Session) (o : OpRecord) (how : Creation) (types : List String)
    (construct : Construct) : Session :=
  ((s.create o how).addBlock s.ops.length 0 types).enterAt construct s.blocks.length

/-- `t` has entered the new point `p`, which is remembered for a construct. -/
structure Enters (s t : Session) (construct : Construct) (p : InsertionPoint) : Prop where
  open_eq : t.stack = p :: s.stack
  points_le : s.points ≤ p.number
  points_lt : p.number < t.points
  lastPoints_eq : t.lastPoints = Table.put construct p s.lastPoints
  events_eq : ∃ es, t.events = s.events ++ es ++ [.enter p] ∧ Event.Nested es ∧ Event.Matched es

/-- `t` is inside of the new block `b` of the new operation `id`, which stands behind some
constants. -/
structure Opens (s t : Session) (construct : Construct) (consts : List Nat) (id b : Nat)
    (p : InsertionPoint) : Prop extends Enters s t construct p where
  adds : s.Adds t s.current (consts ++ [id])
  block_eq : p.block = b
  blocks_le : s.blocks.length ≤ b
  block_lt : b < t.blocks.length

theorem opens_opened {consts : List Nat} (h : s.Emitted t consts) (ho : o.parent = t.current)
    (how : Creation) (types : List String) (construct : Construct) (lists : List (List Value))
    (ifs : List Nat) :
    s.Opens { t.opened o how types construct with lists := lists, openIfs := ifs } construct consts
      t.ops.length t.blocks.length ⟨t.points, t.blocks.length⟩ where
  adds := by
    have hmade := (Adds.create ho how).addBlock le_rfl 0 types
    rw [h.current_eq] at hmade
    exact (h.toAdds.trans hmade).congr rfl rfl
  block_eq := rfl
  blocks_le := h.blocks_le
  block_lt := by simp [opened, enterAt]
  open_eq := by
    rw [← h.open_eq]
    rfl
  points_le := h.points_le
  points_lt := Nat.lt_succ_self _
  lastPoints_eq := by
    rw [← h.lastPoints_eq]
    rfl
  events_eq := by
    obtain ⟨es, hes, hnested, hmatched⟩ := h.events_eq
    let made := [Event.create t.ops.length o.name t.current (o.results.map value) how,
      .block (t.create o how).blocks.length t.ops.length 0
        ((typedIds (t.values + o.results.length) types).map value)]
    have hmade : Event.Nested made := rfl
    refine ⟨es ++ made, ?_, hnested.append hmade, ?_⟩
    · rw [← append_assoc s.events, ← hes]
      simp [opened, enterAt, addBlock, create, made]
    · exact Event.matched_append.mpr ⟨hmatched, by simp [Event.Matched, made]⟩

theorem op_opened (s : Session) (o : OpRecord) (how : Creation) (types : List String)
    (construct : Construct) : (s.opened o how types construct).op s.ops.length =
      { o with regions := o.regions.modify 0 (· ++ [s.blocks.length]) } := by
  have hlt : s.ops.length < (s.create o how).ops.length := by simp
  have hself := op_addBlock_self hlt 0 types
  rw [op_create_self, length_blocks_create] at hself
  exact hself

theorem blockOf_opened (s : Session) (o : OpRecord) (how : Creation) (types : List String)
    (construct : Construct) : (s.opened o how types construct).blockOf s.blocks.length =
      ⟨s.ops.length, 0, typedIds (s.values + o.results.length) types, []⟩ := by
  have hself := blockOf_addBlock_self (s.create o how) s.ops.length 0 types
  rw [length_blocks_create] at hself
  exact hself

end Session

theorem exec_enterBody_of_make {o : OpRecord} {how : Creation}
    (hmake : make.exec s = (.ok (.op s.ops.length cls), s.create o how))
    (hregions : o.regions = replicate (more + 1) []) (types : List String) (construct : Construct)
    (next : List Value → Build β) : (enterBody make types construct next).exec s =
    (next ((typedIds (s.values + o.results.length) types).map value)).exec
    (s.opened o how types construct) := by
  have hblock := exec_appendBlock s.ops.length 0 types (s.create o how)
  have hregion : ((s.create o how).addBlock s.ops.length 0 types).regionBlocks s.ops.length 0 =
      [s.blocks.length] := by
    have hop := op_opened s o how types construct
    have hop' : ((s.create o how).addBlock s.ops.length 0 types).op s.ops.length = _ := hop
    simp [regionBlocks, hop', hregions, replicate_succ]
  have hargs : (blockArgs s.blocks.length).exec (s.opened o how types construct) =
      (.ok ((typedIds (s.values + o.results.length) types).map value),
        s.opened o how types construct) := by
    rw [blockArgs, exec_bind_ok (exec_get _), blockOf_opened]
    rfl
  rw [enterBody, exec_bind_ok hmake]
  simp only [opId, pure_bind]
  rw [exec_bind_ok hblock, exec_bind_ok (exec_blockAt hregion),
    exec_bind_ok (exec_openAt construct _ _)]
  exact exec_bind_ok hargs

private theorem exec_enterBody (h : Makes make name cls (more + 1))
    (types : List String) (construct : Construct) (next : List Value → Build β) (s : Session) :
    (∃ fault, (enterBody make types construct next).exec s = (.error fault, s)) ∨
      ∃ o how, o.parent = s.current ∧ o.name = name ∧
      o.regions = replicate (more + 1) [] ∧ (enterBody make types construct next).exec s =
      (next ((typedIds (s.values + o.results.length) types).map value)).exec
      (s.opened o how types construct) := by
  obtain ⟨fault, hmake⟩ | ⟨o, how, hmake, hparent, hname, hregions⟩ := h s
  · exact .inl ⟨fault, exec_bind_error hmake⟩
  · exact .inr ⟨o, how, hparent, hname, hregions,
      exec_enterBody_of_make hmake hregions types construct next⟩

/-! ## Kinds of loops -/

def TypedId.held (v : TypedId) : Value := .ssa v.id v.type .arith

theorem exec_castAll (ids : List TypedId) (s : Session) :
    (castAll .arith (ids.map value)).exec s = (.ok (ids.map held), s) := by
  induction ids with
  | nil => rfl
  | cons v ids ih =>
    have hv : (cast .arith v.value).exec s = (.ok v.held, s) := rfl
    rw [map_cons, castAll, exec_bind_ok hv, exec_bind_ok ih]
    rfl

def Session.itemsOf (s : Session) (v : Value) : List Value := ((items v).exec s).1.toOption.getD []

/-- Loops with constant bounds, over indices, over many indices at once, and shared by threads. -/
inductive LoopKind where
  | affine
  | index
  | parallel
  | shared
  deriving DecidableEq, Repr

namespace LoopKind

def construct : LoopKind → Construct
  | affine => .affineLoop
  | index => .loop
  | parallel => .parallelLoop
  | shared => .worksharingLoop

def opening : LoopKind → Value → Value → Value → Build Value
  | affine => openAffine
  | index => openLoop
  | parallel => openParallel
  | shared => Worksharing.openLoop

def closing : LoopKind → Build Value
  | affine => closeAffine
  | index => closeLoop
  | parallel => closeParallel
  | shared => Worksharing.closeLoop

def opName : LoopKind → String
  | affine => "affine.for"
  | index => "scf.ForOp"
  | parallel => "scf.parallel"
  | shared => "omp.wsloop"

def yieldName : LoopKind → String
  | affine => "affine.yield"
  | index | parallel => "scf.YieldOp"
  | shared => "omp.yield"

def constantType : LoopKind → String
  | shared => "i32"
  | _ => "index"

def variableOf : LoopKind → List TypedId → Value
  | parallel, args => .tuple (args.map held)
  | shared, args => ((args.map value).head?).getD .none
  | _, args => ((args.map held).head?).getD .none

def cell? (v : Value) : Option Nat :=
  match v.payload with
  | .list cell => some cell
  | _ => none

def sameList (v w : Value) : Bool := (cell? v).isSome && cell? v == cell? w

/-- The bounds that become constants.  Bounds of a parallel loop are replaced in their lists, so
a list that is given twice has integers only once. -/
def integers (s : Session) : LoopKind → Value → Value → Value → List Value
  | affine, _, _, _ => []
  | index, start, stop, step =>
    [(bounds start stop).1, (bounds start stop).2, step].filter Value.isInt
  | shared, start, stop, step => [start, stop, step].filter Value.isInt
  | parallel, starts, stops, steps =>
    (s.itemsOf starts).filter Value.isInt
      ++ (if sameList starts stops then [] else (s.itemsOf stops).filter Value.isInt)
      ++ (if steps.isNone then replicate (s.itemsOf starts).length (.int 1)
        else if sameList starts steps || sameList stops steps then []
        else (s.itemsOf steps).filter Value.isInt)

structure Opened (kind : LoopKind) (start stop step : Value) (s t : Session) (v : Value)
    (consts : List Nat) (id b : Nat) (p : InsertionPoint) (args : List TypedId) : Prop extends
    Opens s t kind.construct consts id b p where
  openIfs_eq : t.openIfs = s.openIfs
  name_eq : (t.op id).name = kind.opName
  regions_eq : (t.op id).regions = [[b]]
  blockOf_eq : t.blockOf b = ⟨id, 0, args, []⟩
  items_eq : (items v).exec t = (.ok [kind.variableOf args], t)
  constants : Forall₂ (t.IsConstant kind.constantType) consts (integers s kind start stop step)

def OpeningEnds (kind : LoopKind) (start stop step : Value) (s : Session) : Prop :=
  (∃ fault t ids, (kind.opening start stop step).exec s = (.error fault, t) ∧ s.Emitted t ids) ∨
    ∃ v t consts id b p args, (kind.opening start stop step).exec s = (.ok v, t) ∧
      kind.Opened start stop step s t v consts id b p args

variable {kind : LoopKind} {start stop step : Value} {s t : Session}
  {consts : List Nat} {v starts stops steps : Value}

theorem openingEnds_of_enterBody
    (hadds : s.AddsConstants t kind.constantType (integers s kind start stop step) consts)
    {cls : String} (hmake : Makes make kind.opName cls 1) (types : List String)
      (next : List Value → Build Value) (hnext : ∀ n (u : Session),
      (next ((typedIds n types).map value)).exec u = (.ok (.list u.lists.length),
        { u with lists := u.lists ++ [[kind.variableOf (typedIds n types)]] }))
    (hexec : (kind.opening start stop step).exec s =
      (enterBody make types kind.construct next).exec t) :
    kind.OpeningEnds start stop step s := by
  obtain ⟨fault, herror⟩ | ⟨o, how, hparent, hname, hregions, hok⟩ :=
    exec_enterBody hmake types kind.construct next t
  · exact .inl ⟨fault, t, consts, hexec.trans herror, hadds.toEmitted⟩
  rw [hnext] at hok
  have hopens := opens_opened hadds.toEmitted hparent how types kind.construct
    (t.lists ++ [[kind.variableOf (typedIds (t.values + o.results.length) types)]]) t.openIfs
  have hop := op_opened t o how types kind.construct
  refine .inr ⟨_, _, _, _, _, _, _, hexec.trans hok, { hopens with
    openIfs_eq := hadds.openIfs_eq
    name_eq := ?_
    regions_eq := ?_
    blockOf_eq := blockOf_opened t o how types kind.construct
    items_eq := ?_
    constants := ?_ }⟩
  · change ((t.opened o how types kind.construct).op t.ops.length).name = _
    rw [hop, ← hname]
  · change ((t.opened o how types kind.construct).op t.ops.length).regions = _
    rw [hop, hregions]
    rfl
  · have hitems (u : Session) (cell : Nat) :
        (items (.list cell)).exec u = (.ok (u.listItems cell), u) := rfl
    rw [hitems]
    simp [listItems, opened, enterAt, addBlock, create]
  · have hlater := (opens_opened (.refl t) hparent how types kind.construct
      (t.lists ++ [[kind.variableOf (typedIds (t.values + o.results.length) types)]])
        t.openIfs).adds
    exact hadds.constants.imp fun _ _ hc => hc.later hlater

@[simp] theorem reads_constantMap (v : Value) : Reads (constantMap v) := by
  unfold constantMap
  split <;> simp

private theorem affine_openingEnds (start stop step : Value) (s : Session) :
    affine.OpeningEnds start stop step s := by
  have hopening : affine.opening start stop step = (do
      let lower ← constantMap (bounds start stop).1
      let upper ← constantMap (bounds start stop).2
      enterBody (generic affineForKind [] [("lower_bound", lower),
        ("upper_bound", upper), ("step", .attribute "IntegerAttr" (.listed [.type "i64", step]))]
          [])
        ["index"] .affineLoop
        fun args => castAll .arith args >>= newList) := by
    simp only [opening, openAffine, affineForOp,
      enterBody, bind_assoc, pure_bind]
  have hrest := congrArg (exec · s) hopening
  obtain ⟨fault, hlower⟩ | ⟨lower, hlower⟩ :=
    (reads_constantMap (bounds start stop).1).exec_cases s
  · exact .inl ⟨fault, s, [], hrest.trans (exec_bind_error hlower), .refl s⟩
  rw [exec_bind_ok hlower] at hrest
  obtain ⟨fault, hupper⟩ | ⟨upper, hupper⟩ :=
    (reads_constantMap (bounds start stop).2).exec_cases s
  · exact .inl ⟨fault, s, [], hrest.trans (exec_bind_error hupper), .refl s⟩
  rw [exec_bind_ok hupper] at hrest
  exact openingEnds_of_enterBody (.refl s _) (makes_generic affineForKind _ _ _)
    ["index"] _ (fun n u => rfl) hrest

private theorem index_openingEnds (start stop step : Value) (s : Session) :
    index.OpeningEnds start stop step s := by
  obtain ⟨start', ids₁, s₁, hstart, hadds₁⟩ :=
    exec_constantFor "index" (bounds start stop).1 s
  obtain ⟨stop', ids₂, s₂, hstop, hadds₂⟩ :=
    exec_constantFor "index" (bounds start stop).2 s₁
  obtain ⟨step', ids₃, s₃, hstep, hadds₃⟩ := exec_constantFor "index" step s₂
  have hadds := (hadds₁.trans hadds₂).trans hadds₃
  simp only [← filter_append, cons_append] at hadds
  have hmake : Makes (nativeWith "scf" "ForOp" [start', stop', step'] [] [] 1 []) "scf.ForOp"
      "scf.ForOp" 1 := by
    exact fun u => .inr ⟨_, _, exec_nativeWith .., rfl, rfl, rfl⟩
  refine openingEnds_of_enterBody hadds hmake ["index"]
    (fun args => castAll .arith (args.take 1) >>= newList) (fun n u => rfl) ?_
  simp only [opening, openLoop, indexValue_eq]
  rw [exec_bind_ok hstart, exec_bind_ok hstop, exec_bind_ok hstep]
  simp only [forOp, enterBody, bind_assoc, pure_bind, mapM_nil, isEmpty_nil, if_true, append_nil]
  rfl

private theorem boundValues_single (v : Value) : Worksharing.boundValues (.listed [v]) =
    (if v.isInt then Arith.constant v (.type "i32") else pure v) >>= fun w =>
      pure (.listed [w]) := by
  simp only [Worksharing.boundValues, items, items?, Value.payload, pure_bind]
  split
  · simp [Worksharing.i32Constant]
  · rfl

private theorem shared_openingEnds (start stop step : Value) (s : Session) :
    shared.OpeningEnds start stop step s := by
  obtain ⟨lower, ids₁, s₁, hlower, hadds₁⟩ := exec_constantFor "i32" start s
  obtain ⟨upper, ids₂, s₂, hupper, hadds₂⟩ := exec_constantFor "i32" stop s₁
  obtain ⟨step', ids₃, s₃, hstep, hadds₃⟩ := exec_constantFor "i32" step s₂
  have hadds := (hadds₁.trans hadds₂).trans hadds₃
  simp only [← filter_append, cons_append] at hadds
  refine openingEnds_of_enterBody hadds
    (makes_build { ompLoop with cls := "omp.WsLoopOp" }
    [("lowerBound", .listed [lower]), ("upperBound", .listed [upper]), ("step", .listed [step']),
     ("linear_vars", .listed []), ("linear_step_vars", .listed []), ("reduction_vars", .listed [])])
       ["i32"] (fun args => newList (args.take 1)) (fun n u => rfl) ?_
  have hlength (v : Value) (u : Session) : (length (.listed [v])).exec u = (.ok 1, u) := rfl
  simp only [opening, Worksharing.openLoop, Worksharing.loopOp, enterBody, bind_assoc, pure_bind,
    Value.isNone, Bool.false_eq_true, if_false]
  rw [exec_bind_ok (hlength start s), exec_bind_ok (hlength stop s)]
  simp only [decide_true, require, if_true, pure_bind]
  rw [exec_bind_ok (hlength step s)]
  simp only [decide_true, if_true, pure_bind, boundValues_single, bind_assoc]
  rw [exec_bind_ok hlower, exec_bind_ok hupper, exec_bind_ok hstep]
  rfl

/-! ### Bounds that are replaced in their lists -/

private theorem payload_of_cell? (h : cell? v = some cell) : v.payload = .list cell := by
  unfold cell? at h
  split at h
  · rename_i heq
    rw [heq, Option.some.inj h]
  · cases h

theorem cell?_of_sameList {w : Value} (h : sameList v w = true) : cell? w = cell? v := by
  simp only [sameList, Bool.and_eq_true, beq_iff_eq] at h
  exact h.2.symm

theorem itemsOf_of_cell? (h : cell? v = some cell) (s : Session) :
    s.itemsOf v = s.listItems cell := by
  have hitems : (items v).exec s = (.ok (s.listItems cell), s) := by
    simp only [items, items?, payload_of_cell? h]
    rfl
  simp [itemsOf, hitems, Except.toOption]

theorem itemsOf_of_cell?_none (h : cell? v = none) (s t : Session) : s.itemsOf v = t.itemsOf v := by
  have hitems (u : Session) : ((items v).exec u).1 = ((items v).exec default).1 := by
    unfold cell? at h
    simp only [items, items?]
    generalize v.payload = held at h
    cases held with
    | list cell => cases h
    | _ => rfl
  simp [itemsOf, hitems s, hitems t]

private theorem exec_convertItems_of_ne (hv : ∀ cell, v ≠ .list cell)
    (vs : List Value) (i : Nat) (s : Session) :
    (∃ fault t ids, (convertItems v vs i).exec s = (.error fault, t) ∧
      s.Emitted t ids) ∨
      (convertItems v vs i).exec s = (.ok (), s) ∧ vs.filter Value.isInt = [] := by
  induction vs generalizing i with
  | nil => exact .inr ⟨rfl, rfl⟩
  | cons a vs ih =>
    by_cases ha : a.isInt = true
    · refine .inl ⟨.wrongKind, s.addConstant a, _, ?_,
        (AddsConstants.create s "index" a _).toEmitted⟩
      simp only [convertItems, ha, if_true]
      rw [exec_bind_ok (exec_indexConstant ha s)]
      cases v with
      | list cell => exact absurd rfl (hv cell)
      | _ => rfl
    · have ha' : a.isInt = false := by simpa using ha
      simpa [convertItems, ha'] using ih (i + 1)

/-- Converting the items of a value in place makes constants of its integers.  Afterwards its
list has none, and other lists are the same. -/
private theorem exec_convertInPlace (v : Value) (s : Session) :
    (∃ fault t ids, (convertInPlace v).exec s = (.error fault, t) ∧ s.Emitted t ids) ∨
      ∃ t ids, (convertInPlace v).exec s = (.ok (), t) ∧
        s.AddsConstants t "index" ((s.itemsOf v).filter Value.isInt) ids ∧
        (∀ w, sameList v w = false → t.itemsOf w = s.itemsOf w) ∧
        (∀ w, sameList v w = true → (t.itemsOf w).filter Value.isInt = []) := by
  by_cases hlist : ∃ cell, v = .list cell
  · obtain ⟨cell, rfl⟩ := hlist
    have hcell : cell? (.list cell) = some cell := rfl
    obtain ⟨ids, hadds⟩ := s.exists_addsConstants (s.listItems cell)
    rw [itemsOf_of_cell? hcell]
    refine .inr ⟨_, ids, exec_convertInPlace_list cell s, hadds.withLists _,
      fun w hw => ?_, fun w hw => ?_⟩
    · rcases hother : cell? w with _ | c
      · exact itemsOf_of_cell?_none hother _ s
      · have hne : c ≠ cell := by
          rintro rfl
          simp [sameList, hcell, hother] at hw
        rw [itemsOf_of_cell? hother, itemsOf_of_cell? hother, listItems_convert_of_ne hne]
    · have hother : cell? w = some cell := (cell?_of_sameList hw).trans hcell
      rw [itemsOf_of_cell? hother, s.listItems_convert_self, filter_eq_nil_iff]
      intro x hx
      simp [Value.isInt_of_mem_withConstants hx]
  · obtain ⟨fault, hitems⟩ | ⟨vs, hitems⟩ := (reads_items v).exec_cases s
    · exact .inl ⟨fault, s, [], exec_bind_error hitems, .refl s⟩
    have hvs : s.itemsOf v = vs := by simp [itemsOf, hitems, Except.toOption]
    have hconvert :
        (convertInPlace v).exec s = (convertItems v vs 0).exec s :=
      exec_bind_ok hitems
    rw [hconvert, hvs]
    obtain herror | ⟨hok, hints⟩ := exec_convertItems_of_ne (fun cell h => hlist ⟨cell, h⟩) vs 0 s
    · exact .inl herror
    refine .inr ⟨s, [], hok, by simpa [hints] using .refl s _, fun w _ => rfl, fun w hw => ?_⟩
    -- The value holds a list without being one, and that list has no integers to begin with.
    rcases hcell : cell? v with _ | cell
    · simp [sameList, hcell] at hw
    · have hother : cell? w = some cell := (cell?_of_sameList hw).trans hcell
      rw [itemsOf_of_cell? hother, ← itemsOf_of_cell? hcell, hvs, hints]

private theorem exec_length (v : Value) (s : Session) :
    (∃ fault, (length v).exec s = (.error fault, s)) ∨
      (length v).exec s = (.ok (s.itemsOf v).length, s) := by
  obtain ⟨fault, hitems⟩ | ⟨vs, hitems⟩ := (reads_items v).exec_cases s
  · exact .inl ⟨fault, exec_bind_error hitems⟩
  · refine .inr ((exec_bind_ok hitems).trans ?_)
    simp [itemsOf, hitems, Except.toOption]

private theorem itemsOf_append {ones : List Value} (h : (s.itemsOf v).length = ones.length) :
    itemsOf { s with lists := s.lists ++ [ones] } v = s.itemsOf v := by
  rcases hcell : cell? v with _ | cell
  · exact itemsOf_of_cell?_none hcell _ _
  · rw [itemsOf_of_cell? hcell] at h ⊢
    rw [itemsOf_of_cell? hcell]
    by_cases hlt : cell < s.lists.length
    · simp [listItems, getElem?_append_left hlt]
    · -- The list is not there yet, so it is read as empty, and so is the new one.
      have hnone : s.lists[cell]? = none := getElem?_eq_none (Nat.le_of_not_lt hlt)
      have hones : ones = [] := by
        simpa [listItems, hnone, eq_comm] using h
      by_cases heq : cell = s.lists.length
      · simp [listItems, heq, hones]
      · have hend : (s.lists ++ [ones])[cell]? = none :=
          getElem?_eq_none (by rw [length_append, length_singleton]; omega)
        simp [listItems, hnone, hend]

@[simp] theorem reads_sameLengths (a b c : Value) : Reads (sameLengths a b c) := by
  refine reads_bind (reads_length a) fun n => reads_bind (reads_length b) fun m => ?_
  split <;> simp

def parallelParts (starts stops steps : Value) : Build (Nat × List Value) := do
  require (← sameLengths starts stops steps) ""
  let n ← length starts
  let groups ← [starts, stops, steps].mapM fun v => return .listed (← asValues v)
  return (n, groups)

theorem reads_parallelParts (starts stops steps : Value) :
    Reads (parallelParts starts stops steps) := by
  refine reads_bind (reads_sameLengths _ _ _) fun same => reads_bind (reads_require _ _) fun _ => ?_
  refine reads_bind (reads_length starts) fun n => ?_
  exact reads_bind (reads_mapM (fun v => by simp) _) fun groups => reads_pure _

def openWithSteps (starts stops steps : Value) : Build Value := do
  convertInPlace starts
  convertInPlace stops
  convertInPlace steps
  let parts ← parallelParts starts stops steps
  enterBody (generic parallelKind (parts.2 ++ [.listed []]) [] [])
    (replicate parts.1 "index") .parallelLoop fun args => do
      newList [.tuple (← castAll .arith args)]

theorem openParallel_eq (starts stops steps : Value) : parallel.opening starts stops steps = (do
      require ((← length starts) = (← length stops)) ""
      let steps ← if steps.isNone then newList (replicate (← length starts) (.int 1))
        else pure steps
      openWithSteps starts stops steps) := by
  simp only [opening, openParallel, openWithSteps,
    parallelOp, parallelParts, enterBody, bind_assoc, pure_bind]

private theorem parallel_openingEnds_of_steps {steps' : Value}
    (hadds : s.AddsConstants t "index" [] []) (hexec :
      (parallel.opening starts stops steps).exec s = (openWithSteps starts stops steps').exec t)
    (hints : integers s parallel starts stops steps = (t.itemsOf starts).filter Value.isInt
      ++ (if sameList starts stops then [] else (t.itemsOf stops).filter Value.isInt)
      ++ (if sameList starts steps' || sameList stops steps' then []
        else (t.itemsOf steps').filter Value.isInt)) :
    parallel.OpeningEnds starts stops steps s := by
  obtain ⟨fault, u, ids, herror, hu⟩ | ⟨t₁, ids₁, h₁, hadds₁, hkept₁, hbare₁⟩ :=
    exec_convertInPlace starts t
  · exact .inl ⟨fault, u, _, hexec.trans (exec_bind_error herror), hadds.toEmitted.trans hu⟩
  replace hexec := hexec.trans (exec_bind_ok h₁)
  replace hadds := hadds.trans hadds₁
  obtain ⟨fault, u, ids, herror, hu⟩ | ⟨t₂, ids₂, h₂, hadds₂, hkept₂, hbare₂⟩ :=
    exec_convertInPlace stops t₁
  · exact .inl ⟨fault, u, _, hexec.trans (exec_bind_error herror), hadds.toEmitted.trans hu⟩
  replace hexec := hexec.trans (exec_bind_ok h₂)
  replace hadds := hadds.trans hadds₂
  obtain ⟨fault, u, ids, herror, hu⟩ | ⟨t₃, ids₃, h₃, hadds₃, -, -⟩ := exec_convertInPlace steps' t₂
  · exact .inl ⟨fault, u, _, hexec.trans (exec_bind_error herror), hadds.toEmitted.trans hu⟩
  replace hexec := hexec.trans (exec_bind_ok h₃)
  replace hadds := hadds.trans hadds₃
  have hstops : (t₁.itemsOf stops).filter Value.isInt =
      if sameList starts stops then [] else (t.itemsOf stops).filter Value.isInt := by
    by_cases h : sameList starts stops = true
    · rw [if_pos h, hbare₁ stops h]
    · rw [if_neg h, hkept₁ stops (by simpa using h)]
  have hsteps : (t₂.itemsOf steps').filter Value.isInt =
      if sameList starts steps' || sameList stops steps' then []
        else (t.itemsOf steps').filter Value.isInt := by
    by_cases h : sameList stops steps' = true
    · rw [if_pos (by simp [h]), hbare₂ steps' h]
    · rw [hkept₂ steps' (by simpa using h)]
      by_cases h' : sameList starts steps' = true
      · rw [if_pos (by simp [h']), hbare₁ steps' h']
      · rw [if_neg (by simp [h, h']), hkept₁ steps' (by simpa using h')]
  rw [nil_append, hstops, hsteps, ← hints] at hadds
  obtain ⟨fault, hparts⟩ | ⟨parts, hparts⟩ :=
    (reads_parallelParts starts stops steps').exec_cases t₃
  · exact .inl ⟨fault, t₃, _, hexec.trans (exec_bind_error hparts), hadds.toEmitted⟩
  refine openingEnds_of_enterBody hadds (makes_generic parallelKind _ _ _) _ _
    (fun n u => ?_) (hexec.trans (exec_bind_ok hparts))
  rw [exec_bind_ok (exec_castAll _ u)]
  rfl

private theorem integers_of_isNone (hnone : steps.isNone = true)
    (hlength : (s.itemsOf starts).length = (s.itemsOf stops).length) :
    let ones := replicate (s.itemsOf starts).length (Value.int 1)
    let t : Session := { s with lists := s.lists ++ [ones] }
    integers s parallel starts stops steps = (t.itemsOf starts).filter Value.isInt
      ++ (if sameList starts stops then [] else (t.itemsOf stops).filter Value.isInt)
      ++ (if sameList starts (.list s.lists.length) || sameList stops (.list s.lists.length) then []
        else (t.itemsOf (.list s.lists.length)).filter Value.isInt) := by
  intro ones t
  have hstarts : t.itemsOf starts = s.itemsOf starts := itemsOf_append (by simp [ones])
  have hstops : t.itemsOf stops = s.itemsOf stops := itemsOf_append (by simp [ones, hlength])
  have hself : t.itemsOf (.list s.lists.length) = ones := by
    rw [itemsOf_of_cell? rfl]
    simp [t, listItems]
  have hones : ones.filter Value.isInt = ones := by
    refine filter_eq_self.mpr fun v hv => ?_
    rw [(mem_replicate.mp hv).2]
    rfl
  -- A bound that stood for the new list before it was there has no items.
  have hfresh (v : Value) (hv : (s.itemsOf v).length = ones.length)
      (h : sameList v (.list s.lists.length) = true) : ones = [] := by
    rw [itemsOf_of_cell? (cell?_of_sameList h).symm, listItems,
      getElem?_eq_none le_rfl] at hv
    exact eq_nil_of_length_eq_zero hv.symm
  rw [hstarts, hstops, hself, hones]
  have hsteps : ones = if sameList starts (.list s.lists.length) ||
      sameList stops (.list s.lists.length) then [] else ones := by
    split
    · rename_i h
      rcases Bool.or_eq_true_iff.mp h with h | h
      · exact hfresh starts (by simp [ones]) h
      · exact hfresh stops (by simp [ones, hlength]) h
    · rfl
  rw [← hsteps]
  simp [integers, hnone, ones]

private theorem parallel_openingEnds (starts stops steps : Value) (s : Session) :
    parallel.OpeningEnds starts stops steps s := by
  have hopening := congrArg (exec · s) (openParallel_eq starts stops steps)
  obtain ⟨fault, hstarts⟩ | hstarts := exec_length starts s
  · exact .inl ⟨fault, s, [], hopening.trans (exec_bind_error hstarts), .refl s⟩
  obtain ⟨fault, hstops⟩ | hstops := exec_length stops s
  · refine .inl ⟨fault, s, [], hopening.trans ?_, .refl s⟩
    rw [exec_bind_ok hstarts, exec_bind_error hstops]
  rw [exec_bind_ok hstarts, exec_bind_ok hstops] at hopening
  by_cases hlength : (s.itemsOf starts).length = (s.itemsOf stops).length
  swap
  · refine .inl ⟨.assertion "", s, [], hopening.trans ?_, .refl s⟩
    exact exec_bind_error (by simp [require, hlength])
  have hrequire :
      (require (decide ((s.itemsOf starts).length = (s.itemsOf stops).length)) "").exec s =
      (.ok (), s) := by simp [require, hlength]
  rw [exec_bind_ok hrequire] at hopening
  cases hnone : steps.isNone with
  | false =>
    rw [hnone, if_neg (by simp), pure_bind] at hopening
    exact parallel_openingEnds_of_steps (.refl s _) hopening (by simp [integers, hnone])
  | true =>
    let ones := replicate (s.itemsOf starts).length (Value.int 1)
    let t : Session := { s with lists := s.lists ++ [ones] }
    have hnew : (newList ones).exec s = (.ok (.list s.lists.length), t) := rfl
    rw [hnone, if_pos rfl, exec_bind_ok hstarts, exec_bind_ok hnew] at hopening
    refine parallel_openingEnds_of_steps ((AddsConstants.refl s _).withLists _) hopening ?_
    exact integers_of_isNone hnone hlength

/-- Opening a loop fails in front of it, or makes it and enters its block. -/
theorem openingEnds (kind : LoopKind) (start stop step : Value) (s : Session) :
    kind.OpeningEnds start stop step s := by
  cases kind with
  | affine => exact affine_openingEnds start stop step s
  | index => exact index_openingEnds start stop step s
  | parallel => exact parallel_openingEnds start stop step s
  | shared => exact shared_openingEnds start stop step s

end LoopKind

/-! ## Closing -/

/-- `t` has left the innermost point `p` of `s` behind a last operation, and it was `q` that was
asked. -/
structure Session.Closes (s t : Session) (name : String) (id : Nat)
  (q p : InsertionPoint) : Prop where
  adds : s.Adds t (some p.block) [id]
  name_eq : (t.op id).name = name
  open_eq : s.stack = p :: t.stack
  openIfs_eq : t.openIfs = s.openIfs
  points_eq : t.points = s.points
  lastPoints_eq : t.lastPoints = s.lastPoints
  events_eq : ∃ es, t.events = s.events ++ es ++ [.exit q p] ∧ Event.Nested es ∧ Event.Matched es

/-- Whatever the session, an end is made and the innermost point is left. -/
theorem exec_close {construct : Construct}
    {finish : Build Value} {regions : Nat} (hmakes : Makes finish name cls regions)
    (hok : ∃ v, (finish.exec s).1 = .ok v) (hopen : s.stack = p :: rest)
    (hlast : s.lastPoints.lookup construct = some q) :
    ∃ t, (do
        let _ ← finish
        closeLast construct
        return .none : Build Value).exec s = (.ok .none, t) ∧
      s.Closes t name s.ops.length q p := by
  obtain ⟨fault, herror⟩ | ⟨o, how, hfinish, hparent, hname, -⟩ := hmakes s
  · obtain ⟨v, hok⟩ := hok
    rw [herror] at hok
    cases hok
  have hcurrent : s.current = some p.block := by simp [current, hopen]
  let t : Session := { s.create o how with
    stack := rest, events := (s.create o how).events ++ [.exit q p] }
  have hleave : (leave q).exec (s.create o how) = (.ok ⟨⟩, t) := exec_leave q hopen
  have hclose : (closeLast construct).exec (s.create o how) = (.ok ⟨⟩, t) := by
    have hlast' : (s.create o how).lastPoints.lookup construct = some q := hlast
    rw [closeLast, exec_bind_ok (exec_get _), hlast', ← hleave]
  refine ⟨t, ?_, ?_⟩
  · rw [exec_bind_ok hfinish, exec_bind_ok hclose]
    rfl
  · have hadds := Adds.create hparent how
    rw [hcurrent] at hadds
    exact {
      adds := hadds.congr rfl rfl
      name_eq := by
        have hop := op_create_self s o how
        exact (congrArg OpRecord.name hop).trans hname
      open_eq := hopen
      openIfs_eq := rfl
      points_eq := rfl
      lastPoints_eq := rfl
      events_eq := ⟨_, rfl, rfl, by simp [Event.Matched]⟩ }

def scfEnd : Build Value := native "scf" "YieldOp" [.listed []]

theorem scfEnd_ok (s : Session) : ∃ v, (scfEnd.exec s).1 = .ok v := ⟨_, rfl⟩

theorem closePart_ends (hopen : s.stack = p :: rest)
    (hlast : s.lastPoints.lookup .branch = some q) :
    ∃ t, closePart.exec s = (.ok .none, t) ∧
      s.Closes t "scf.YieldOp" s.ops.length q p := by
  obtain ⟨t, ht, hcloses⟩ :=
    exec_close (makes_native "scf" "YieldOp" [.listed []] []) (scfEnd_ok s) hopen hlast
  refine ⟨t, ?_, hcloses⟩
  simpa only [closePart, scfYield, bind_assoc, pure_bind] using ht

namespace LoopKind

def finish : LoopKind → Build Value
  | affine => affineYield.build [("operands_", .listed [])]
  | index | parallel => scfEnd
  | shared => ompYield.build [("results_", .listed [])]

private theorem finish_ok (kind : LoopKind) (s : Session) :
    ∃ v, (kind.finish.exec s).1 = .ok v := by
  cases kind with
  | affine => exact ⟨_, rfl⟩
  | index => exact scfEnd_ok s
  | parallel => exact scfEnd_ok s
  | shared => exact ⟨_, rfl⟩

private theorem makes_finish (kind : LoopKind) :
    ∃ cls regions, Makes kind.finish kind.yieldName cls regions := by
  cases kind with
  | affine => exact ⟨_, _, makes_build affineYield _⟩
  | index => exact ⟨_, _, makes_native "scf" "YieldOp" _ _⟩
  | parallel => exact ⟨_, _, makes_native "scf" "YieldOp" _ _⟩
  | shared => exact ⟨_, _, makes_build ompYield _⟩

private theorem closing_eq (kind : LoopKind) : kind.closing = (do
    let _ ← kind.finish
    closeLast kind.construct
    return .none) := by
  cases kind <;> simp only [closing, closeAffine, closeLoop,
    closeParallel, Worksharing.closeLoop, scfYield, bind_assoc, pure_bind,
    finish, scfEnd, construct]

theorem closing_ends {kind : LoopKind} {s : Session}
    (hopen : s.stack = p :: rest)
    (hlast : s.lastPoints.lookup kind.construct = some q) :
    ∃ t, kind.closing.exec s = (.ok .none, t) ∧ s.Closes t kind.yieldName s.ops.length q p := by
  obtain ⟨cls, regions, hmakes⟩ := kind.makes_finish
  rw [closing_eq]
  exact exec_close hmakes (kind.finish_ok s) hopen hlast

end LoopKind

/-! ## Branches -/

def Session.branched (s : Session) (condition : Value) : Session :=
  { s.opened (s.newOp "scf.IfOp" "scf.IfOp" [condition] [] [] 2)
      (.native [s.frozen condition] [("hasElse", s.frozen (.bool false))]) [] .branch with
    lists := s.lists, openIfs := s.ops.length :: s.openIfs }

theorem Session.op_branched (s : Session) (condition : Value) :
    (s.branched condition).op s.ops.length =
      { s.newOp "scf.IfOp" "scf.IfOp" [condition] [] [] 2 with regions := [[s.blocks.length],
        []] } :=
  op_opened s (s.newOp "scf.IfOp" "scf.IfOp" [condition] [] [] 2) _ [] .branch

theorem exec_openIf {condition : Value} (harith : isArith condition = true)
    (s : Session) :
    (openIf condition).exec s = (.ok (.bool true), s.branched condition) := by
  let o := s.newOp "scf.IfOp" "scf.IfOp" [condition] [] [] 2
  let how := Creation.native [s.frozen condition] [("hasElse", s.frozen (.bool false))]
  have hmade := exec_nativeWith "scf" "IfOp" [condition] [("hasElse", .bool false)] [] 2 [] s
  have hrequire : (require (isArith condition) "").exec s = (.ok (), s) := by
    simp [require, harith]
  have hregion : ({ (s.create o how).addBlock s.ops.length 0 [] with
      openIfs := s.ops.length :: s.openIfs } : Session).regionBlocks s.ops.length 0 =
      [s.blocks.length] := by
    change (((s.branched condition).op s.ops.length).regions[0]?).getD [] = _
    rw [s.op_branched]
    rfl
  simp only [openIf, ifOp, bind_assoc]
  rw [exec_bind_ok hrequire, exec_bind_ok hmade]
  simp only [opId, pure_bind, Bool.false_eq_true, if_false]
  rw [exec_bind_ok (exec_appendBlock s.ops.length 0 [] _), exec_bind_ok (exec_modify _ _)]
  exact exec_bind_ok (exec_blockAt hregion)

theorem openIf_ends (condition : Value) (s : Session) :
    (∃ fault, (openIf condition).exec s = (.error fault, s)) ∨
      ∃ t id b p, (openIf condition).exec s = (.ok (.bool true), t) ∧
        s.Opens t .branch [] id b p ∧ t.openIfs = id :: s.openIfs ∧ (t.op id).name = "scf.IfOp" ∧
        (t.op id).regions = [[b], []] ∧ t.blockOf b = ⟨id, 0, [], []⟩ := by
  by_cases harith : isArith condition = true
  swap
  · refine .inl ⟨.assertion "", exec_bind_error ?_⟩
    simp [require, harith]
  refine .inr ⟨s.branched condition, s.ops.length, s.blocks.length, ⟨s.points, s.blocks.length⟩,
    exec_openIf harith s, opens_opened (.refl s) rfl _ [] .branch _ _, rfl, ?_, ?_,
    blockOf_opened s _ _ [] .branch⟩
  · rw [s.op_branched]
    rfl
  · rw [s.op_branched]

theorem openElse_ends {b : Nat} (hifs : s.openIfs = id :: ifs)
    (hid : id < s.ops.length) (hregions : (s.op id).regions = [[b], []]) :
    openElse.exec s = (.ok (.bool true), (s.addBlock id 1 []).enterAt .branch s.blocks.length) ∧
      (s.addBlock id 1 []).op id = { s.op id with regions := [[b], [s.blocks.length]] } := by
  have hop : (s.addBlock id 1 []).op id = { s.op id with regions := [[b], [s.blocks.length]] } := by
    rw [op_addBlock_self hid, hregions]
    rfl
  refine ⟨?_, hop⟩
  have hregion : (s.addBlock id 1 []).regionBlocks id 1 = [s.blocks.length] := by
    rw [regionBlocks, hop]
    rfl
  rw [openElse, exec_bind_ok (exec_get s), hifs]
  simp only [addElse, bind_assoc]
  rw [exec_bind_ok (exec_appendBlock id 1 [] s)]
  exact exec_bind_ok (exec_blockAt hregion)

theorem closeIf_ends (hifs : s.openIfs = id :: ifs) :
    closeIf.exec s = (.ok .none, { s with openIfs := ifs }) := by
  rw [closeIf, exec_bind_ok (exec_get s), hifs]
  rfl

end Polyloom
