import Polyloom.Proofs.Builder.Arguments

/-!
# Sizes of launches

A launch in place takes the sizes of its grid and of its blocks, and fills both up with ones.  The
number of ones is taken from the sizes of the grid in both cases.  So a launch whose lists differ in
length is not made, and its body is not built.
-/

namespace Polyloom

open Build Library Session Value List

variable {args : CallArgs Value} {f : Value} {s t : Session} {vs : List Value} {α : Type}

private theorem Build.exec_bind_congr {β : Type} {x y : Build α}
    (h : x.exec s = y.exec t) (f : α → Build β) : (x >>= f).exec s = (y >>= f).exec t := by
  rcases hy : y.exec t with ⟨fault | a, u⟩
  · rw [exec_bind_error (h.trans hy), exec_bind_error hy]
  · rw [exec_bind_ok (h.trans hy), exec_bind_ok hy]

private theorem Build.exec_within_congr {x y : Build α} {b : Nat}
    (h : x.exec (s.entered b) = y.exec (s.entered b)) :
    (within b x).exec s = (within b y).exec s := by
  rw [exec_within_eq, h, exec_within_eq]

theorem Session.exec_blockAt_create {o : OpRecord} {more : Nat}
    (hregions : o.regions = replicate (more + 1) []) (how : Creation) (types : List String) :
    (blockAt s.ops.length 0 0).exec ((s.create o how).addBlock s.ops.length 0 types) =
      (.ok s.blocks.length, (s.create o how).addBlock s.ops.length 0 types) := by
  refine exec_blockAt ?_
  rw [regionBlocks, op_addBlock_self (by simp), op_create_self]
  simp [hregions, replicate_succ]

namespace Launch

/-! ## Sizes as values -/

theorem length_overwrite (n : Nat) (vs : List Value) :
    (overwrite n vs).length = vs.length + (3 - n) := by
  simp [overwrite]

theorem isIndex_overwrite (n : Nat) (hvs : ∀ v ∈ vs, v.isIndex = true) :
    ∀ v ∈ overwrite n vs, v.isIndex = true := by
  rw [overwrite, forall_mem_append]
  refine ⟨hvs, fun v hv => ?_⟩
  rw [eq_of_mem_replicate (mem_of_mem_drop hv)]
  rfl

def bodyCall (call : Caller) (f : Value) (blocks threads : List Value) : Build Unit := do
  let _ ← call f ⟨[], [("block_ids", .tuple blocks), ("thread_ids", .tuple threads)]⟩

def callBody (call : Caller) (f : Value) (args : List Value) : Build Unit := do
  let _ ← call f
    ⟨[], [("block_ids", .tuple (args.take 3)), ("thread_ids", .tuple ((args.drop 3).take 3))]⟩
  let _ ← native "gpu" "TerminatorOp" []

def launchOf (call : Caller) (f grid block : Value) : Build Unit := do
  let made ← launchOp grid block .none .none
  let entry ← blockAt (← opId made) 0 0
  within entry do callBody call f (← blockArgs entry)

section Sizes

variable {s : Session} {grid block : Value} {gs bs : List Value}

theorem exec_launch (hgrid : s.Enumerates gs grid) (hblock : s.Enumerates bs block)
    (hvs : ∀ v ∈ gs ++ bs, v.isIndex = true) : ∃ gw bw ge be t, s.Records t (ge ++ be) ∧
      Resolves "index" isInt (overwrite gs.length gs) ge gw ∧
      Resolves "index" isInt (overwrite gs.length bs) be bw ∧
      ∀ call f, (launch (bodyCall call f) grid block).exec s =
        (launchOf call f (.listed gw) (.listed bw)).exec t := by
  rw [forall_mem_append] at hvs
  obtain ⟨gw, t, ge, hg, hrecords, hresolves⟩ :=
    exec_mapM_resolves ControlFlow.indexValue_eq (isIndex_overwrite gs.length hvs.1) s
  obtain ⟨bw, u, be, hb, hrecords', hresolves'⟩ :=
    exec_mapM_resolves ControlFlow.indexValue_eq (isIndex_overwrite gs.length hvs.2) t
  refine ⟨gw, bw, ge, be, u, hrecords.trans hrecords', hresolves, hresolves', fun call f => ?_⟩
  rw [launch, exec_bind_ok hgrid.exec_length, exec_bind_ok hgrid.exec_items,
    exec_bind_ok hblock.exec_items, exec_bind_ok hg, exec_bind_ok hb]
  simp only [launchOf, bodyCall, callBody, bind_assoc, pure_bind]

end Sizes

/-! ## Making the launch -/

theorem exec_threeSizes (h : vs.length = 3) (s : Session) :
    (threeSizes (.listed vs)).exec s = (.ok vs, s) := by
  have hitems : (items (.listed vs)).exec s = (.ok vs, s) := rfl
  rw [threeSizes, exec_bind_ok hitems, if_pos h, exec_pure]

private theorem exec_threeSizes_of_ne (h : vs.length ≠ 3) (s : Session) :
    (threeSizes (.listed vs)).exec s = (.error (.badValue ""), s) := by
  have hitems : (items (.listed vs)).exec s = (.ok vs, s) := rfl
  rw [threeSizes, exec_bind_ok hitems, if_neg h, exec_throw]

def launchSizes : Value := .listed ([0, 1, 1, 1, 1, 1, 1, 0].map .int)

def launchOperands (gw bw : List Value) : List Value := .listed [] :: gw ++ bw ++ [.none]

private theorem exec_flatten_launch (x y z x' y' z' : HeldValue) (s : Session) :
    (flattenOperands launchKind
      (launchOperands [x.value, y.value, z.value] [x'.value, y'.value, z'.value]) []).exec s =
      (.ok ([x.value, y.value, z.value, x'.value, y'.value, z'.value],
        [(segmentSizes, launchSizes)]), s) := rfl

def launchCreated (s : Session) (gw bw : List Value) : Session :=
  s.create (s.newOp "gpu.launch" "gpu.LaunchOp" (gw ++ bw) [(segmentSizes, launchSizes)] [] 1)
    (.generic (launchOperands gw bw) [(segmentSizes, launchSizes)] 1)

def launched (s : Session) (gw bw : List Value) : Session :=
  (launchCreated s gw bw).addBlock s.ops.length 0 (replicate 12 "index")

private theorem exec_blockArgs_launched (s : Session) (gw bw : List Value) :
    (blockArgs s.blocks.length).exec ((launched s gw bw).entered s.blocks.length) =
      (.ok ((typedIds s.values (replicate 12 "index")).map TypedId.value),
        (launched s gw bw).entered s.blocks.length) := by
  have hblock := blockOf_addBlock_self (launchCreated s gw bw) s.ops.length 0 (replicate 12 "index")
  rw [launchCreated, length_blocks_create] at hblock
  have hentered : ((launched s gw bw).entered s.blocks.length).blockOf s.blocks.length = _ := hblock
  rw [blockArgs, exec_bind_ok (exec_get _), hentered]
  rfl

section Making

variable {gw bw : List Value} (hgw : AreValues gw) (hbw : AreValues bw)
  (hg : gw.length = 3) (hb : bw.length = 3)

include hgw hbw hg hb

private theorem exec_generic_launch (s : Session) :
    (generic launchKind (launchOperands gw bw) [] []).exec s =
      (.ok (.op s.ops.length "gpu.LaunchOp"), launchCreated s gw bw) := by
  obtain ⟨gheld, rfl⟩ := ListCall.exists_held hgw
  obtain ⟨bheld, rfl⟩ := ListCall.exists_held hbw
  rw [length_map] at hg hb
  obtain ⟨x, y, z, rfl⟩ := length_eq_three.1 hg
  obtain ⟨x', y', z', rfl⟩ := length_eq_three.1 hb
  have htypes : (typeTexts []).exec s = (.ok [], s) := rfl
  have hfrozen :
      (launchOperands [x.value, y.value, z.value] [x'.value, y'.value, z'.value]).map s.frozen =
      launchOperands [x.value, y.value, z.value] [x'.value, y'.value, z'.value] := by
    simp [launchOperands, HeldValue.value]
  have hsizes : s.frozen launchSizes = launchSizes := by simp [launchSizes]
  have hmade := exec_generic (exec_flatten_launch x y z x' y' z' s) htypes
  rw [hfrozen, map_singleton, hsizes] at hmade
  exact hmade

private theorem exec_launchOp (s : Session) :
    (launchOp (.listed gw) (.listed bw) .none .none).exec s =
      (.ok (.op s.ops.length "gpu.LaunchOp"), launched s gw bw) := by
  have hmade := exec_generic_launch hgw hbw hg hb s
  simp only [launchOp, isNone, if_true]
  rw [exec_bind_ok (exec_threeSizes hg s), exec_bind_ok (exec_threeSizes hb s)]
  refine (exec_bind_ok hmade).trans ?_
  rw [exec_bind_ok (exec_opId ..), exec_bind_ok (exec_appendBlock ..), exec_pure, launched]

private theorem exec_launchOf (s : Session) : ∃ t entry args, s.Records t
      [.create s.ops.length "gpu.launch" s.current []
        (.generic (launchOperands gw bw) [(segmentSizes, launchSizes)] 1),
       .block entry s.ops.length 0 args] ∧
    args.length = 12 ∧ (∀ v ∈ args, ∃ id, v = .ssa id "index" .plain) ∧
    ∀ call f, (launchOf call f (.listed gw) (.listed bw)).exec s =
      (within entry (callBody call f args)).exec t := by
  have hmade := exec_launchOp hgw hbw hg hb s
  refine ⟨launched s gw bw, s.blocks.length,
    (typedIds s.values (replicate 12 "index")).map TypedId.value,
    ?_, by simp, fun v hv => exists_id_of_mem_typedIds hv, fun call f => ?_⟩
  · have hrecords := (Records.create s _ _).trans
      (.addBlock (launchCreated s gw bw) s.ops.length 0 (replicate 12 "index"))
    rw [launchCreated, length_blocks_create] at hrecords
    exact hrecords
  rw [launchOf, exec_bind_ok hmade, exec_bind_ok (exec_opId ..)]
  refine (exec_bind_ok (exec_blockAt_create rfl _ _)).trans (exec_within_congr ?_)
  exact exec_bind_ok (exec_blockArgs_launched s gw bw)

end Making

private theorem exec_launchOf_of_ne {gw bw : List Value} (hg : gw.length = 3)
    (hb : bw.length ≠ 3) (call : Caller) (f : Value) (s : Session) :
    (launchOf call f (.listed gw) (.listed bw)).exec s = (.error (.badValue ""), s) := by
  have hrefused :
      (launchOp (.listed gw) (.listed bw) .none .none).exec s = (.error (.badValue ""), s) := by
    simp only [launchOp, isNone, if_true]
    rw [exec_bind_ok (exec_threeSizes hg s), exec_bind_error (exec_threeSizes_of_ne hb s)]
  exact exec_bind_error hrefused

/-! ## Launches that are recorded -/

structure RecordedLaunch where
  gridConstants : List Event
  blockConstants : List Event
  grid : List Value
  block : List Value
  id : Nat
  entry : Nat
  args : List Value

def RecordedLaunch.events (l : RecordedLaunch) (place : Option Nat) : List Event :=
  l.gridConstants ++ l.blockConstants ++ [.create l.id "gpu.launch" place []
    (.generic (launchOperands l.grid l.block) [(segmentSizes, launchSizes)] 1),
     .block l.entry l.id 0 l.args]

def launchParams : List Param := [.required "f", .required "grid_size", .required "block_size"]

theorem decorate_launch {grid block : Value} (hargs : bindParams launchParams
      { args with positional := f :: args.positional } = .ok [f, grid, block]) (call : Caller) :
    decorate call "gpu.gpu_launch" args f =
      Procedure.done (launch (bodyCall call f) grid block) := by
  have hpath : procedure? "gpu.gpu_launch" = some launchProcedure := rfl
  rw [decorate_of_decorator hpath]
  rw [launchParams] at hargs
  simp only [hargs]
  rfl

/-! ## Filling up sizes -/

def padded (vs : List Value) : List Value := vs ++ replicate (3 - vs.length) (.int 1)

theorem overwrite_eq (n : Nat) (vs : List Value) :
    overwrite n vs = vs ++ replicate (3 - n) (.int 1) := by
  rw [overwrite, drop_replicate]

/-- One launch is made with both sizes in three dimensions, each integer as an index of its own and
each value as itself.  Then the function is called in its block, with the first three arguments of
the block and the next three. -/
def PadsSizes (s : Session) (args : CallArgs Value) (f : Value) (gs bs : List Value) : Prop :=
  ∃ (l : RecordedLaunch) (t : Session), s.Records t (l.events s.current) ∧
    Resolves "index" isInt (padded gs) l.gridConstants l.grid ∧
    Resolves "index" isInt (padded bs) l.blockConstants l.block ∧
    l.args.length = 12 ∧ (∀ v ∈ l.args, ∃ id, v = .ssa id "index" .plain) ∧
    ∀ call, (decorate call "gpu.gpu_launch" args f).exec s =
      (Procedure.done (within l.entry (callBody call f l.args))).exec t

section Filling

variable {s : Session} {args : CallArgs Value} {f grid block : Value} {gs bs : List Value}
  (hargs : bindParams launchParams { args with positional := f :: args.positional } =
    .ok [f, grid, block]) (hgrid : s.Enumerates gs grid) (hblock : s.Enumerates bs block)
    (hvs : ∀ v ∈ gs ++ bs, v.isIndex = true) (hg : gs.length ≤ 3)

include hargs hgrid hblock hvs hg

private theorem padsSizes_of_length_eq (h : gs.length = bs.length) : PadsSizes s args f gs bs := by
  obtain ⟨gw, bw, ge, be, t, hrecords, hgw, hbw, hexec⟩ := exec_launch hgrid hblock hvs
  rw [forall_mem_append] at hvs
  have hgw' : gw.length = 3 := by
    rw [hgw.length_eq, length_overwrite]
    omega
  have hbw' : bw.length = 3 := by
    rw [hbw.length_eq, length_overwrite]
    omega
  obtain ⟨u, entry, bargs, hrecords', hcount, hindex, hbody⟩ :=
    exec_launchOf (hgw.areValues_of_isIndex (isIndex_overwrite _ hvs.1))
      (hbw.areValues_of_isIndex (isIndex_overwrite _ hvs.2)) hgw' hbw' t
  rw [hrecords.current_eq] at hrecords'
  rw [overwrite_eq, ← padded] at hgw
  rw [overwrite_eq, h, ← padded] at hbw
  refine ⟨⟨ge, be, gw, bw, t.ops.length, entry, bargs⟩, u, hrecords.trans hrecords',
    hgw, hbw, hcount, hindex, fun call => ?_⟩
  rw [decorate_launch hargs]
  exact exec_bind_congr ((hexec call f).trans (hbody call f)) _

theorem exec_launch_of_length_ne (h : gs.length ≠ bs.length) :
    ∃ gw bw ge be t, s.Records t (ge ++ be) ∧
      Resolves "index" isInt (padded gs) ge gw ∧
      Resolves "index" isInt (bs ++ replicate (3 - gs.length) (.int 1)) be bw ∧
      ∀ call, (decorate call "gpu.gpu_launch" args f).exec s = (.error (.badValue ""), t) := by
  obtain ⟨gw, bw, ge, be, t, hrecords, hgw, hbw, hexec⟩ := exec_launch hgrid hblock hvs
  have hgw' : gw.length = 3 := by
    rw [hgw.length_eq, length_overwrite]
    omega
  have hbw' : bw.length ≠ 3 := by
    rw [hbw.length_eq, length_overwrite]
    omega
  rw [overwrite_eq] at hgw hbw
  refine ⟨gw, bw, ge, be, t, hrecords, hgw, hbw, fun call => ?_⟩
  rw [decorate_launch hargs]
  exact exec_bind_error ((hexec call f).trans (exec_launchOf_of_ne hgw' hbw' call f t))

end Filling

private theorem exec_within_callBody (fault : Fault) (entry : Nat)
    (f : Value) (args : List Value) (s : Session) :
    ∃ t, (Procedure.done (within entry (callBody (fun _ _ => throw fault) f args))).exec s =
      (.error fault, t) := by
  have hbody : (callBody (fun _ _ => throw fault) f args).exec (s.entered entry) =
      (.error fault, s.entered entry) := rfl
  exact ⟨_, exec_bind_error (exec_within hbody rfl)⟩

theorem not_padsSizes_of_error {gs bs : List Value}
    (h : ∀ call, (decorate call "gpu.gpu_launch" args f).exec s = (.error (.badValue ""), t)) :
    ¬ PadsSizes s args f gs bs := by
  rintro ⟨l, u, -, -, -, -, -, hexec⟩
  -- a function that is called can fail with another fault
  obtain ⟨v, hfails⟩ := exec_within_callBody .wrongKind l.entry f l.args u
  have hfaults := congrArg Prod.fst ((h _).symm.trans ((hexec _).trans hfails))
  cases hfaults

/-- Both sizes are filled up with ones as many as the grid needs.  If the lists differ in length
then the constants are made, the launch is not, and no function is called. -/
theorem pads_sizes_iff {s : Session} {args : CallArgs Value}
    {f grid block : Value} {gs bs : List Value}
    (hargs : bindParams launchParams { args with positional := f :: args.positional } =
      .ok [f, grid, block]) (hgrid : s.Enumerates gs grid) (hblock : s.Enumerates bs block)
      (hvs : ∀ v ∈ gs ++ bs, v.isIndex = true) (hg : gs.length ≤ 3) :
    (gs.length ≠ bs.length → ∃ gw bw ge be t,
      s.Records t (ge ++ be) ∧ Resolves "index" isInt (padded gs) ge gw ∧
      Resolves "index" isInt (bs ++ replicate (3 - gs.length) (.int 1)) be bw ∧
      ∀ call, (decorate call "gpu.gpu_launch" args f).exec s = (.error (.badValue ""), t)) ∧
    (PadsSizes s args f gs bs ↔ gs.length = bs.length) := by
  refine ⟨exec_launch_of_length_ne hargs hgrid hblock hvs hg, fun hpads => ?_,
    padsSizes_of_length_eq hargs hgrid hblock hvs hg⟩
  by_contra hne
  obtain ⟨gw, bw, ge, be, t, -, -, -, hfails⟩ :=
    exec_launch_of_length_ne hargs hgrid hblock hvs hg hne
  exact not_padsSizes_of_error hfails hpads

theorem plane_pads_sizes :
    bindParams launchParams
      ⟨[.object 0, .tuple [.int 4, .ssa 0 "index" .plain], .tuple [.int 8, .int 2]], []⟩ =
      .ok [.object 0, .tuple [.int 4, .ssa 0 "index" .plain], .tuple [.int 8, .int 2]] ∧
    PadsSizes { values := 1 }
      ⟨[.tuple [.int 4, .ssa 0 "index" .plain], .tuple [.int 8, .int 2]], []⟩ (.object 0)
      [.int 4, .ssa 0 "index" .plain] [.int 8, .int 2] :=
  ⟨rfl, (pads_sizes_iff rfl .tuple .tuple (by decide) (by decide)).2.mpr rfl⟩

def unevenArgs : CallArgs Value := ⟨[.tuple [.int 4, .int 2], .tuple [.int 8]], []⟩

theorem uneven_sizes_not_padded :
    (∃ t, ∀ call, (decorate call "gpu.gpu_launch" unevenArgs (.object 0)).exec {} =
        (.error (.badValue ""), t)) ∧
      ¬ PadsSizes {} unevenArgs (.object 0) [.int 4, .int 2] [.int 8] := by
  have hargs :
      bindParams launchParams { unevenArgs with positional := .object 0 :: unevenArgs.positional } =
      .ok [.object 0, .tuple [.int 4, .int 2], .tuple [.int 8]] := rfl
  have hgrid : ({} : Session).Enumerates [.int 4, .int 2] (.tuple [.int 4, .int 2]) := .tuple
  have hblock : ({} : Session).Enumerates [.int 8] (.tuple [.int 8]) := .tuple
  obtain ⟨gw, bw, ge, be, t, -, -, -, hfails⟩ :=
    exec_launch_of_length_ne hargs hgrid hblock (by decide) (by decide) (by decide)
  exact ⟨⟨t, hfails⟩, not_padsSizes_of_error hfails⟩

end Launch

end Polyloom
