import Polyloom.Builder.Function
import Polyloom.Proofs.Builder.Leaving

/-!
# Functions that fail

The operation of a function is built inside of its first block, which is left again also when
the body fails.  But one point is left then, the innermost one, however many loops and branches
were open where the body failed.
-/

namespace Polyloom

open Build Program Session

variable {q : InsertionPoint} {rest : List InsertionPoint}

/-! ## Steps that keep what is open -/

section

variable {s t : Session}

/-- Points and branches are open as before, and no block is lost. -/
abbrev Session.Stays (s t : Session) : Prop := s.Frame {.stack, .openIfs} {.points, .blocks} t

theorem Session.stays (hopen : t.stack = s.stack) (hifs : t.openIfs = s.openIfs)
    (hpoints : s.points ≤ t.points) (hblocks : s.blocks.length ≤ t.blocks.length) : s.Stays t :=
  frame_pair hopen hifs (by simp [Part.More, hpoints, hblocks])

end

def Session.entered (s : Session) (block : Nat) : Session :=
  { s with
    points := s.points + 1
    stack := ⟨s.points, block⟩ :: s.stack
    events := s.events ++ [.enter ⟨s.points, block⟩] }

namespace Build

variable {α β : Type} {x : Build α} {f : α → Build β} {s t u : Session} {fault : Fault}

/-- What is open is the same after the step, also if it fails. -/
def Keeps (step : Build α) : Prop := ∀ s : Session, s.Grounded → s.Stays (step.exec s).2

theorem Keeps.of_exec (h : Keeps x) (hs : s.Grounded) {r : Except Fault α}
    (hx : x.exec s = (r, t)) : s.Stays t := by
  simpa [hx] using h s hs

theorem Reads.keeps (h : Reads x) : Keeps x := by
  intro s _
  rw [h s]
  exact .refl s

private theorem Emits.keeps (h : Emits x) : Keeps x := by
  intro s hs
  obtain ⟨ids, hst⟩ := h s hs
  exact stays hst.open_eq hst.openIfs_eq hst.points_le hst.toAdds.blocks_le

theorem Keeps.bind (hx : Keeps x) (hf : ∀ a, Keeps (f a)) : Keeps (x >>= f) := by
  intro s hs
  rcases h : x.exec s with ⟨_ | a, t⟩
  · rw [exec_bind_error h]
    exact hx.of_exec hs h
  · rw [exec_bind_ok h]
    have hst := hx.of_exec hs h
    exact hst.trans (hf a t (hst.grounded hst.blocks_le hs))

private theorem keeps_setAttribute (id : Nat) (name : String) (value : Value) :
    Keeps (setAttribute id name value) := fun _ _ => stays rfl rfl le_rfl le_rfl

private theorem makes_funcOp (name type visibility : Value) :
    Makes (funcOp name type visibility) "func.FuncOp" "func.FuncOp" 1 := by
  have hreads : Reads (functionType type) := by
    unfold functionType
    split
    · exact reads_bind (reads_items _) fun _ => reads_bind (reads_typeTexts _) fun _ => by simp
    · simp
    · simp
  exact .after hreads fun type' s => .inr ⟨_, _, exec_nativeWith .., rfl, rfl, rfl⟩

theorem exec_of_toBool (h : (x.exec s).1.toBool = true) :
    ∃ a, x.exec s = (.ok a, (x.exec s).2) := by
  rcases hx : x.exec s with ⟨_ | a, t⟩
  · rw [hx] at h
    cases h
  · exact ⟨a, rfl⟩

def enterNew (block : Nat) : Build Unit := do enter (← newPoint block)

private theorem exec_enterNew (block : Nat) (s : Session) :
    (enterNew block).exec s = (.ok ⟨⟩, s.entered block) := rfl

theorem exec_within_eq (block : Nat) (x : Build α) (s : Session) : (within block x).exec s = (do
      leave ⟨s.points, block⟩
      settle (x.exec (s.entered block)).1).exec (x.exec (s.entered block)).2 := rfl

theorem exec_within {block : Nat} {r : Except Fault α} (hx : x.exec (s.entered block) = (r, u))
    (hopen : u.stack = q :: rest) : (within block x).exec s =
    (r, { u with stack := rest, events := u.events ++ [.exit ⟨s.points, block⟩ q] }) := by
  rw [exec_within_eq, hx, exec_bind_ok (exec_leave _ hopen)]
  cases r <;> rfl

end Build

/-! ## Reading parts of operations -/

namespace OpReader

variable {s t : Session} {id entry : Nat}

private theorem reads_functionTypeOf (id : Nat) : Reads (functionTypeOf id) := by
  refine reads_bind (reads_op id) fun o => ?_
  split
  · refine reads_bind (reads_typeText _) fun type => ?_
    split <;> simp
  · simp

private theorem mem_regionBlocks_addBlock (hempty : s.regionBlocks id 0 = []) {types : List String}
    {b : Nat} (hb : b ∈ (s.addBlock id 0 types).regionBlocks id 0) : b = s.blocks.length := by
  by_cases hid : id < s.ops.length
  · rw [Session.regionBlocks, Session.op_addBlock_self hid] at hb
    cases hregion : (s.op id).regions[0]? with
    | none => simp [hregion] at hb
    | some blocks =>
      obtain rfl : blocks = [] := by simpa [Session.regionBlocks, hregion] using hempty
      simpa [List.getElem?_modify, hregion] using hb
  · have hop : (s.addBlock id 0 types).op id = default := by
      have hlen : (s.addBlock id 0 types).ops.length ≤ id := by simpa using hid
      rw [Session.op, List.getElem?_eq_none hlen]
      rfl
    rw [Session.regionBlocks, hop] at hb
    cases hb

private theorem exec_addEntryBlock (h : (addEntryBlock id).exec s = (.ok entry, t)) :
    entry = s.blocks.length ∧ ∃ types, t = s.addBlock id 0 types := by
  rw [addEntryBlock, exec_bind_ok (exec_get s)] at h
  cases hempty : s.regionBlocks id 0 with
  | cons b rest =>
    rw [hempty] at h
    cases h
  | nil =>
    rw [hempty] at h
    obtain ⟨type, htype, hadd⟩ := (reads_functionTypeOf id).exec_bind_eq_ok h
    rw [exec_bind_ok (exec_appendBlock _ _ _ _), entryBlock,
      blockAt, exec_bind_ok (exec_get _)] at hadd
    cases hfirst : ((s.addBlock id 0 (TypeText.signature type).1).regionBlocks id 0)[0]? with
    | none =>
      rw [hfirst] at hadd
      cases hadd
    | some b =>
      rw [hfirst] at hadd
      cases hadd
      exact ⟨mem_regionBlocks_addBlock hempty (List.mem_of_getElem? hfirst), _, rfl⟩

end OpReader

namespace Function

variable {s t : Session} {entry : Nat}

private theorem reads_signatureOf (o : Object) : Reads (signatureOf o) := by
  unfold signatureOf
  split <;> simp

theorem reads_signature (f : Value) : Reads (signature f) := by
  unfold signature
  split
  · refine reads_bind (reads_object _) fun o => ?_
    split
    · exact reads_bind (reads_object _) fun o =>
        reads_bind (reads_signatureOf o) fun _ => reads_pure _
    · exact reads_signatureOf _
  · exact reads_throw _

theorem reads_hold (annot v : Value) : Reads (hold annot v) := by
  refine reads_bind (reads_typeOf v) fun type => ?_
  split
  iterate 2
    · split
      · dsimp only
        split
        · exact reads_cast _ v
        · split <;> simp
      · exact reads_throw _
  · exact reads_cast _ v

private theorem reads_holdAll (annots vs : List Value) : Reads (holdAll annots vs) := by
  induction annots generalizing vs with
  | nil => simp [holdAll]
  | cons annot annots ih =>
    cases vs with
    | nil => simp [holdAll]
    | cons v vs => simp [holdAll, reads_hold, ih]

private theorem keeps_setAttributes (id : Nat) (attributes : Value) :
    Keeps (setAttributes id attributes) := by
  unfold setAttributes
  split
  · refine Keeps.bind ?_ fun _ => (reads_pure _).keeps
    rename_i entries
    induction entries with
    | nil => exact (reads_pure _).keeps
    | cons entry entries ih =>
      rw [List.forIn_cons]
      refine Keeps.bind ((keeps_setAttribute _ _ _).bind fun _ => (reads_pure _).keeps)
        fun next => ?_
      cases next with
      | done => exact (reads_pure _).keeps
      | yield => exact ih
  · exact (reads_throw _).keeps

def makeOp (call : Caller) (f : TracedFunction) : Build Value := do
  let name := (← signature f.function).name
  let inputs ← typeTexts (f.annots.map annotType)
  let made ← call f.ctor
    ⟨[], [("name", .str name), ("type", .type (TypeText.function inputs []))]⟩
  setAttributes (← opId made) f.attributes
  return made

/-- Build a function up to where its body is called: enter its first block, and hold the block's
arguments as the body gets them. -/
def reachBody (call : Caller) (f : TracedFunction) : Build (List Value) := do
  let entry ← addEntry (← makeOp call f)
  enterNew entry
  holdAll f.annots (← blockArgs entry)

variable {call : Caller} {f : TracedFunction} {args : List Value} {fault : Fault}

private theorem keeps_makeOp (hctor : ∀ args, Keeps (call f.ctor args)) :
    Keeps (makeOp call f) := by
  refine (reads_signature _).keeps.bind fun sig => (reads_typeTexts _).keeps.bind fun inputs => ?_
  refine (hctor _).bind fun made => (reads_opId made).keeps.bind fun id => ?_
  exact (keeps_setAttributes id _).bind fun _ => (reads_pure made).keeps

private theorem exec_addEntry {made : Value} (h : (addEntry made).exec s = (.ok entry, t)) :
    entry = s.blocks.length ∧ s.Stays t ∧ entry < t.blocks.length := by
  unfold addEntry at h
  split at h
  iterate 2
    · obtain ⟨rfl, types, rfl⟩ := OpReader.exec_addEntryBlock h
      exact ⟨rfl, stays rfl rfl le_rfl (by simp), by simp⟩
  · cases h

private theorem reachBody_ok (hctor : ∀ args, Keeps (call f.ctor args)) (hs : s.Grounded)
    (h : (reachBody call f).exec s = (.ok args, t)) :
    ∃ q, t.stack = q :: s.stack ∧ t.openIfs = s.openIfs ∧ s.blocks.length ≤ q.block ∧
      s.blocks.length ≤ t.blocks.length ∧ q.block < t.blocks.length := by
  obtain ⟨made, s₁, hmade, h₁⟩ := exec_bind_eq_ok.1 h
  obtain ⟨entry, s₂, hentry, h₂⟩ := exec_bind_eq_ok.1 h₁
  obtain ⟨vs, s₃, hvs, h₃⟩ :=
    exec_bind_eq_ok.1 ((exec_bind_ok (exec_enterNew entry s₂)).symm.trans h₂)
  obtain rfl := (reads_blockArgs entry).eq_of_exec hvs
  obtain rfl := (reads_holdAll f.annots vs).eq_of_exec h₃
  have hmake := (keeps_makeOp hctor).of_exec hs hmade
  obtain ⟨rfl, hadd, hlt⟩ := exec_addEntry hentry
  have hstays := hmake.trans hadd
  refine ⟨⟨s₂.points, s₁.blocks.length⟩, ?_, hstays.openIfs_eq,
    hmake.blocks_le, hstays.blocks_le, hlt⟩
  rw [entered, hstays.open_eq]

/-- If the body fails, so does the function.  Of the points that are open then, one is left. -/
private theorem exec_buildTraced_error (hreach : (reachBody call f).exec s = (.ok args, t))
    {u : Session} (hbody : (call f.function ⟨args, []⟩).exec t = (.error fault, u))
    (hopen : u.stack = q :: rest) : ∃ v, (buildTraced call f).exec s = (.error fault, v) ∧
    v.stack = rest ∧ v.openIfs = u.openIfs := by
  obtain ⟨made, s₁, hmade, h₁⟩ := exec_bind_eq_ok.1 hreach
  obtain ⟨entry, s₂, hentry, h₂⟩ := exec_bind_eq_ok.1 h₁
  obtain ⟨_, s₃, henter, hhold⟩ := exec_bind_eq_ok.1 h₂
  obtain ⟨vs, s₄, hvs, hargs⟩ := exec_bind_eq_ok.1 hhold
  obtain ⟨sig, t₁, hsig, h₁⟩ := exec_bind_eq_ok.1 hmade
  obtain ⟨inputs, t₂, hinputs, h₂⟩ := exec_bind_eq_ok.1 h₁
  obtain ⟨made', t₃, hctor, h₃⟩ := exec_bind_eq_ok.1 h₂
  obtain ⟨id, t₄, hid, h₄⟩ := exec_bind_eq_ok.1 h₃
  obtain ⟨_, t₅, hset, h₅⟩ := exec_bind_eq_ok.1 h₄
  cases h₅
  refine ⟨{ u with stack := rest, events := u.events ++ [.exit ⟨s₂.points, entry⟩ q] },
    ?_, rfl, rfl⟩
  simp only [buildTraced]
  rw [exec_bind_ok hsig, buildOp, exec_bind_ok hinputs, exec_bind_ok hctor, exec_bind_ok hid,
    exec_bind_ok hset, exec_bind_ok hentry]
  obtain rfl : s₃ = s₂.entered entry := (congrArg Prod.snd henter).symm
  refine exec_bind_error (exec_within ?_ hopen)
  rw [exec_bind_ok hvs, exec_bind_ok hargs, exec_bind_error hbody]

variable {σ : Type} {u : Session} {around : List Construct}

/-- A function whose body is a program that raises a fault fails with it.  For each loop and branch
around the fault a point stays open, and the branches stay open too.  So all is as before, and the
next operation goes where it would have gone, exactly if the fault is raised outside of all. -/
theorem buildTraced_raised (p : Program σ) (init : List Value → σ)
    (out : σ → Value) (hctor : ∀ args, Keeps (call f.ctor args))
    (hs : s.Grounded) (hreach : (reachBody call f).exec s = (.ok args, t))
    (hbody : call f.function ⟨args, []⟩ = (do return out (← p.run (init args))))
    (hraises : p.Raises (init args) t fault u around) :
    ∃ v opened ifs, (buildTraced call f).exec s = (.error fault, v) ∧
      LeftOpen s v around opened ifs ∧
      (v.stack = s.stack ∧ v.openIfs = s.openIfs ↔ around = []) ∧
      (v.current = s.current ↔ around = []) := by
  obtain ⟨q, hopen, hifs, hq, hle, hlt⟩ := reachBody_ok hctor hs hreach
  obtain ⟨opened, ifs, hleft⟩ := hraises.leftOpen (grounded_of_open hopen hlt)
  obtain ⟨r, rest, hrest, hclosed⟩ := hleft.leave hopen hifs hle hq
  have hcall : (call f.function ⟨args, []⟩).exec t = (.error fault, u) := by
    rw [hbody, exec_bind_error hraises.exec_eq]
  obtain ⟨v, hexec, hv, hvifs⟩ := exec_buildTraced_error hreach hcall hrest
  have hopen' := hclosed v hv hvifs
  exact ⟨v, rest, ifs, hexec, hopen', hopen'.restored_iff, hopen'.current_eq_iff hs⟩

def callParts (body : Program Unit) (callee : Value) (args : CallArgs Value) : Build Value :=
  match callee with
  | .ref _ =>
    let given (name : String) := (args.named.lookup name).getD .none
    Build.funcOp (given "name") (given "type") .none
  | .object _ => do
    let _ ← body.run ()
    return .none
  | _ => native "func" "ReturnOp" args.positional

def plainFunction : TracedFunction :=
  ⟨.object 1, [], .dict [], .ref "core.func.FuncOp", .named "func.ReturnOp", .none, false, none⟩

def inFile : Session :=
  { inModule with objects := [.context {}, .scripted "f" [] [] none] }

def failing : Program Unit :=
  .emit ⟨fun _ => throw (.failure "stop"), fun _ => (reads_throw _).emits⟩

def failingBranch : Program Unit :=
  fourTimes .index (.branch (fun _ => .ssa 0 "i1" .arith) failing)

private theorem failingBranch_raises
    (hopen : ((LoopKind.opening .index (.int 0) (.int 4) (.int 1)).exec t).1.toBool = true)
    (htest : ((ControlFlow.openIf (.ssa 0 "i1" .arith)).exec
      ((LoopKind.opening .index (.int 0) (.int 4) (.int 1)).exec t).2).1.toBool = true) :
    ∃ u, failingBranch.Raises () t (.failure "stop") u [.branch, .loop] := by
  obtain ⟨v, hloop⟩ := exec_of_toBool hopen
  obtain ⟨w, hbranch⟩ := exec_of_toBool htest
  obtain ⟨consts, id, b, q, vs, hopened⟩ := opened_of_exec hloop
  have hfail (s : Session) : failing.Raises () s (.failure "stop") s [] := .emit rfl
  have hpart : (branch (fun _ => .ssa 0 "i1" .arith) failing).Raises () _ (.failure "stop") _
      ([] ++ [.branch]) := .part hbranch (hfail _)
  have hbody : failingBranch.Raises () t (.failure "stop") _ ([] ++ [.branch] ++ [.loop]) :=
    .body hloop hopened.items_eq hpart
  exact ⟨_, hbody⟩

theorem failingBranch_leftOpen : ∃ v opened ifs,
    (buildTraced (callParts failingBranch) plainFunction).exec inFile =
      (.error (.failure "stop"), v) ∧
      LeftOpen inFile v [.branch, .loop] opened ifs ∧
      (v.stack = inFile.stack ∧ v.openIfs = inFile.openIfs ↔ [Construct.branch, .loop] = []) ∧
      (v.current = inFile.current ↔ [Construct.branch, .loop] = []) := by
  have hground : inFile.Grounded := grounded_of_open rfl (by decide)
  have hctor (args : CallArgs Value) : Keeps (callParts failingBranch plainFunction.ctor args) :=
    (makes_funcOp _ _ _).emits.keeps
  obtain ⟨args, hreach⟩ : ∃ args, (reachBody (callParts failingBranch) plainFunction).exec inFile =
      (.ok args, ((reachBody (callParts failingBranch) plainFunction).exec inFile).2) :=
    exec_of_toBool (by decide +kernel)
  obtain ⟨u, hraises⟩ :=
    failingBranch_raises (t := ((reachBody (callParts failingBranch) plainFunction).exec inFile).2)
    (by decide +kernel) (by decide +kernel)
  exact buildTraced_raised failingBranch (fun _ => ()) (fun _ => .none) hctor
    hground hreach rfl hraises

/-- A function that fails inside of a loop leaves its own block open. -/
theorem failing_loop_unrestored :
    let run := (buildTraced (callParts (fourTimes .index failing)) plainFunction).exec inFile
    run.1.toBool = false ∧ run.2.stack ≠ inFile.stack ∧ run.2.current ≠ inFile.current := by
  decide +kernel

end Function

end Polyloom
