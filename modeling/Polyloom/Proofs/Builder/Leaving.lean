import Polyloom.Proofs.Builder.Nesting

/-!
# Leaving points

Closing a construct asks the point that was made last for its kind to be left.  That is the
construct's own point only if no construct of the kind was opened inside.  And where a fault is
raised, nothing is closed that was opened around.
-/

namespace Polyloom

open Build List

instance (es : List Event) : Decidable (Event.Bracketed es) :=
  inferInstanceAs (Decidable (Event.unwind _ [] es = some []))

private theorem LoopKind.construct_ne_branch (kind : LoopKind) : kind.construct ≠ .branch := by
  cases kind <;> decide

namespace Program

variable {σ : Type} {p yes no : Program σ} {s t u : Session}
  {x y : σ} {fault : Fault} {around : List Construct}

/-! ## The point that is asked -/

/-- A program that raises no fault enters and leaves points.  What is closed is always the point
that was entered last.  But it is this point that is asked, at every exit, exactly if no loop or
branch of the program stands inside of another of its kind. -/
theorem run_bracketed_iff (p : Program σ) (x : σ) (s : Session) (hs : s.Grounded)
    (h : ∀ fault u around, ¬ p.Raises x s fault u around) :
    ∃ y t es, (p.run x).exec s = (.ok y, t) ∧ t.events = s.events ++ es ∧ Event.Nested es ∧
      (Event.Bracketed es ↔ p.Unnested) := by
  obtain ⟨y, t, ids, hexec, hran⟩ | ⟨fault, u, around, -, hraises⟩ := p.ends x s hs
  · obtain ⟨es, hes, hnested, hmatched⟩ := hran.events_eq
    exact ⟨y, t, es, hexec, hes, hnested, hnested.bracketed_iff.trans hmatched⟩
  · exact absurd hraises (h fault u around)

def mixed : Program Unit :=
  .seq (fourTimes .index (.branch (fun _ => .ssa 0 "i1" .arith) (fourTimes .affine (mark "Inner"))))
    (fourTimes .index (mark "Last"))

theorem mixed_bracketed : ∃ y t es, (mixed.run ()).exec inModule = (.ok y, t) ∧
    t.events = inModule.events ++ es ∧ Event.Nested es ∧ (Event.Bracketed es ↔ mixed.Unnested) :=
  run_bracketed_iff mixed () inModule grounded_inModule (not_raises_of_ok (by decide +kernel))

/-- The end of the outer one of two loops asks the point of the inner one, which is left already. -/
theorem nested_loops_unbracketed :
    let run := ((fourTimes .index (fourTimes .index (mark "Inner"))).run ()).exec inModule
    run.1.toBool = true ∧ ¬ Event.Bracketed run.2.events := by
  decide +kernel

/-! ## What a fault leaves open -/

private theorem ran_of_exec (hs : s.Grounded) (h : (p.run x).exec s = (.ok y, t)) :
    ∃ ids, p.Ran s t x y ids := by
  obtain ⟨y', t', ids, h', hran⟩ | ⟨fault, u, around, h', -⟩ := p.ends x s hs
  · obtain ⟨hy, rfl⟩ := Prod.mk.inj (h.symm.trans h')
    obtain rfl := Except.ok.inj hy
    exact ⟨ids, hran⟩
  · cases (h.symm.trans h')

theorem opened_of_exec {kind : LoopKind} {start stop step v : Value}
    (h : (kind.opening start stop step).exec s = (.ok v, t)) :
    ∃ consts id b q args, kind.Opened start stop step s t v consts id b q args := by
  obtain ⟨fault, t', ids, h', -⟩ | ⟨v', t', consts, id, b, q, args, h', hopened⟩ :=
    kind.openingEnds start stop step s
  · cases (h.symm.trans h')
  · obtain ⟨hv, rfl⟩ := Prod.mk.inj (h.symm.trans h')
    obtain rfl := Except.ok.inj hv
    exact ⟨consts, id, b, q, args, hopened⟩

private theorem opens_of_exec {condition v : Value}
    (h : (ControlFlow.openIf condition).exec s = (.ok v, t)) :
    ∃ id b q, s.Opens t .branch [] id b q ∧ t.openIfs = id :: s.openIfs := by
  obtain ⟨fault, h'⟩ | ⟨t', id, b, q, h', hopens, hifs, -⟩ := openIf_ends condition s
  · cases (h.symm.trans h')
  · obtain ⟨-, rfl⟩ := Prod.mk.inj (h.symm.trans h')
    exact ⟨id, b, q, hopens, hifs⟩

private theorem halfBranch_of_exec {condition v : Value}
    (h : (ControlFlow.openIf condition).exec s = (.ok v, t))
    (hfirst : (yes.toElse x).exec t = (.ok y, u)) : ∃ w z id inner last q,
      yes.HalfBranch condition s t w q x z id inner last ∧ u = elseEntered w id := by
  obtain ⟨fault, h'⟩ | ⟨t', fault, u', around, h', herror, -⟩ | ⟨t',
      w, q, z, id, inner, last, hexec, half⟩ :=
    ends_halfBranch condition (fun t ht => yes.ends x t ht)
  · cases (h.symm.trans h')
  · obtain ⟨-, rfl⟩ := Prod.mk.inj (h.symm.trans h')
    have hfirst' : (yes.toElse x).exec t = (.error fault, u') := exec_bind_error herror
    cases (hfirst.symm.trans hfirst')
  · obtain ⟨-, rfl⟩ := Prod.mk.inj (h.symm.trans half.exec_eq)
    obtain ⟨-, rfl⟩ := Prod.mk.inj (hfirst.symm.trans (half.exec_toElse hexec))
    exact ⟨w, z, id, inner, last, q, half, rfl⟩

/-- Some points and branches were left open in `u` since `s`: a point in a new block for each
construct around, and each branch. -/
structure LeftOpen (s u : Session) (around : List Construct) (opened : List InsertionPoint)
    (ifs : List Nat) : Prop where
  open_eq : u.stack = opened ++ s.stack
  openIfs_eq : u.openIfs = ifs ++ s.openIfs
  length_opened : opened.length = around.length
  length_ifs : ifs.length = around.count .branch
  block_new : ∀ q ∈ opened, s.blocks.length ≤ q.block

namespace LeftOpen

variable {opened : List InsertionPoint} {ifs : List Nat} {q : InsertionPoint}

private theorem none (hopen : u.stack = s.stack) (hifs : u.openIfs = s.openIfs) :
    LeftOpen s u [] [] [] where
  open_eq := hopen
  openIfs_eq := hifs
  length_opened := rfl
  length_ifs := rfl
  block_new := by simp

section

variable (h : LeftOpen t u around opened ifs)

include h

private theorem since (hopen : t.stack = s.stack) (hifs : t.openIfs = s.openIfs)
    (hle : s.blocks.length ≤ t.blocks.length) :
    LeftOpen s u around opened ifs where
  open_eq := by rw [h.open_eq, hopen]
  openIfs_eq := by rw [h.openIfs_eq, hifs]
  length_opened := h.length_opened
  length_ifs := h.length_ifs
  block_new q hq := hle.trans (h.block_new q hq)

theorem block_new_concat (hle : s.blocks.length ≤ t.blocks.length) (hq : s.blocks.length ≤ q.block)
    (r : InsertionPoint) (hr : r ∈ opened ++ [q]) : s.blocks.length ≤ r.block := by
  rcases mem_append.1 hr with hr | hr
  · exact hle.trans (h.block_new r hr)
  · rwa [mem_singleton.1 hr]

private theorem inside {own : List Nat} {construct : Construct} (hopen : t.stack = q :: s.stack)
    (hifs : t.openIfs = own ++ s.openIfs) (hown : own.length = [construct].count .branch)
    (hle : s.blocks.length ≤ t.blocks.length) (hq : s.blocks.length ≤ q.block) :
    LeftOpen s u (around ++ [construct]) (opened ++ [q]) (ifs ++ own) where
  open_eq := by rw [h.open_eq, hopen, append_assoc, singleton_append]
  openIfs_eq := by rw [h.openIfs_eq, hifs, append_assoc]
  length_opened := by simp [h.length_opened]
  length_ifs := by rw [length_append, count_append, h.length_ifs, hown]
  block_new := h.block_new_concat hle hq

theorem leave (hopen : t.stack = q :: s.stack) (hifs : t.openIfs = s.openIfs)
    (hle : s.blocks.length ≤ t.blocks.length) (hq : s.blocks.length ≤ q.block) :
    ∃ r rest, u.stack = r :: (rest ++ s.stack) ∧ ∀ v : Session, v.stack = rest ++ s.stack →
      v.openIfs = u.openIfs → LeftOpen s v around rest ifs := by
  have hnew := h.block_new_concat hle hq
  have hlength : (opened ++ [q]).length = around.length + 1 := by simp [h.length_opened]
  obtain ⟨r, rest, hall⟩ := exists_cons_of_length_eq_add_one hlength
  have hopen' : u.stack = opened ++ [q] ++ s.stack := by
    rw [h.open_eq, hopen, append_assoc, singleton_append]
  rw [hall] at hnew hlength hopen'
  refine ⟨r, rest, hopen', fun v hv hvifs => ?_⟩
  exact {
    open_eq := hv
    openIfs_eq := by rw [hvifs, h.openIfs_eq, hifs]
    length_opened := by simpa using hlength
    length_ifs := h.length_ifs
    block_new := fun r hr => hnew r (mem_cons_of_mem _ hr) }

end

theorem around_eq_nil (h : LeftOpen s u around opened ifs) : around = [] ↔ opened = [] := by
  rw [← length_eq_zero_iff, ← h.length_opened, length_eq_zero_iff]

theorem restored_iff (h : LeftOpen s u around opened ifs) :
    u.stack = s.stack ∧ u.openIfs = s.openIfs ↔ around = [] := by
  constructor
  · rintro ⟨hopen, -⟩
    rw [h.open_eq, append_left_eq_self] at hopen
    exact h.around_eq_nil.2 hopen
  · rintro rfl
    have hopened := h.around_eq_nil.1 rfl
    have hifs : ifs = [] := length_eq_zero_iff.1 h.length_ifs
    simp [h.open_eq, h.openIfs_eq, hopened, hifs]

/-- The next operation goes where it would have gone exactly if nothing was around. -/
theorem current_eq_iff (h : LeftOpen s u around opened ifs) (hs : s.Grounded) :
    u.current = s.current ↔ around = [] := by
  rw [h.around_eq_nil]
  constructor
  · intro hcurrent
    cases opened with
    | nil => rfl
    | cons q rest =>
      have hq : u.current = some q.block := by simp [Session.current, h.open_eq]
      have hlt := hs q.block (hcurrent.symm.trans hq)
      have hle := h.block_new q mem_cons_self
      omega
  · rintro rfl
    simp [Session.current, h.open_eq]

end LeftOpen

theorem Raises.leftOpen (h : p.Raises x s fault u around) (hs : s.Grounded) :
    ∃ opened ifs, LeftOpen s u around opened ifs := by
  -- Each construct that the fault passes on its way out had entered one point, and a branch had
  -- put itself in front of the open branches.
  induction h with
  | @emit emission x s u fault h =>
    obtain ⟨ids, hst⟩ := (emission.emits x).of_exec hs h
    exact ⟨[], [], .none hst.open_eq hst.openIfs_eq⟩
  | first _ ih => exact ih hs
  | second h _ ih =>
    obtain ⟨ids, hran⟩ := ran_of_exec hs h
    obtain ⟨opened, ifs, hleft⟩ := ih (hran.grounded hs)
    exact ⟨opened, ifs, hleft.since hran.open_eq hran.openIfs_eq hran.blocks_le⟩
  | @opening kind start stop step bind body x s u fault h =>
    obtain ⟨fault', t, ids, h', hst⟩ | ⟨v, t, consts, id, b, q, args, h', -⟩ :=
      kind.openingEnds (start x) (stop x) (step x) s
    · obtain ⟨-, rfl⟩ := Prod.mk.inj (h.symm.trans h')
      exact ⟨[], [], .none hst.open_eq hst.openIfs_eq⟩
    · cases (h.symm.trans h')
  | @body kind start stop step bind body x s t u fault v w around h _ _ ih =>
    obtain ⟨consts, id, b, q, args, hopened⟩ := opened_of_exec h
    have hblock : q.block < t.blocks.length := hopened.block_eq ▸ hopened.block_lt
    obtain ⟨opened, ifs, hleft⟩ := ih (Session.grounded_of_open hopened.open_eq hblock)
    have hifs : t.openIfs = [] ++ s.openIfs := hopened.openIfs_eq
    have hown : ([] : List Nat).length = [kind.construct].count .branch := by
      simp [kind.construct_ne_branch]
    exact ⟨_, _, hleft.inside hopened.open_eq hifs hown hopened.adds.blocks_le
      (hopened.block_eq ▸ hopened.blocks_le)⟩
  | @test condition yes x s u fault h | @testElse condition yes no x s u fault h =>
    obtain ⟨fault', h'⟩ | ⟨t, id, b, q, h', -⟩ := openIf_ends (condition x) s
    · obtain ⟨-, rfl⟩ := Prod.mk.inj (h.symm.trans h')
      exact ⟨[], [], .none rfl rfl⟩
    · cases (h.symm.trans h')
  | @part condition yes x s t u fault v around h _ ih
  | @firstPart condition yes no x s t u fault v around h _ ih =>
    obtain ⟨id, b, q, hopens, hifs⟩ := opens_of_exec h
    have hblock : q.block < t.blocks.length := hopens.block_eq ▸ hopens.block_lt
    obtain ⟨opened, ifs, hleft⟩ := ih (Session.grounded_of_open hopens.open_eq hblock)
    have hifs' : t.openIfs = [id] ++ s.openIfs := hifs
    exact ⟨_, _, hleft.inside hopens.open_eq hifs' rfl hopens.adds.blocks_le
      (hopens.block_eq ▸ hopens.blocks_le)⟩
  | @secondPart condition yes no x y s t t' u fault v around h hfirst _ ih =>
    obtain ⟨w, z, id, inner, last, q, half, rfl⟩ := halfBranch_of_exec h hfirst
    -- The first part is closed again, so it is the second one's point that is open.
    have hopen := (enters_elseEntered w id).open_eq
    rw [show w.stack = s.stack from half.arm.opened_eq half.toEnters] at hopen
    have hblock : w.blocks.length < (elseEntered w id).blocks.length := by simp
    obtain ⟨opened, ifs, hleft⟩ := ih (Session.grounded_of_open hopen hblock)
    have hifs : (elseEntered w id).openIfs = [id] ++ s.openIfs := half.openIfs_eq'
    have hle : s.blocks.length ≤ w.blocks.length :=
      half.adds.blocks_le.trans half.arm.adds.blocks_le
    exact ⟨_, _, hleft.inside hopen hifs rfl (hle.trans hblock.le) hle⟩

end Program

end Polyloom
