import Polyloom.Proofs.Builder.Arguments

/-!
# Bounds of worksharing loops

A worksharing loop takes three lists of bounds.  Whether a list is made into constants is decided by
its first entry, and then for all entries alike.  The block of the loop has one argument, however
many bounds there are.  So a loop takes its bounds as they are meant only if there is one of each.
-/

namespace Polyloom

open Build Library Value List

variable {v : Value} {vs ws : List Value}

variable {r : Except Fault Value}

namespace Worksharing

variable {s t : Session} {vs ls us ss : List Value}

/-! ## Bounds as values -/

def startsWithInteger (vs : List Value) : Bool := vs.head?.any isInt

private theorem i32Constant_eq (v : Value) :
    i32Constant v = if true then Arith.constant v (.type "i32") else pure v := rfl

private theorem exec_boundValues (h : s.Enumerates vs v) (hne : vs ≠ [])
    (hvs : ∀ v ∈ vs, v.isIndex = true) :
    ∃ w ws t es, (boundValues v).exec s = (.ok w, t) ∧ s.Records t es ∧
      Resolves "i32" (fun _ => startsWithInteger vs) vs es ws ∧ t.Enumerates ws w := by
  obtain ⟨first, rest, rfl⟩ := exists_cons_of_ne_nil hne
  have hread : (boundValues v).exec s = (if first.isInt then
      do return .listed (← (first :: rest).mapM i32Constant)
        else return v : Build Value).exec s := by
    have hitems := h.exec_items
    cases h <;> exact exec_bind_ok hitems
  rw [hread]
  cases hfirst : first.isInt with
  | true =>
    obtain ⟨ws, t, es, hmade, hrecords, hresolves⟩ := exec_mapM_resolves i32Constant_eq hvs s
    rw [if_pos rfl, exec_bind_ok hmade]
    exact ⟨.listed ws, ws, t, es, rfl, hrecords, hresolves.congr fun _ _ => hfirst.symm, .listed⟩
  | false => exact ⟨v, first :: rest, s, [], rfl, .refl s, .refl fun _ _ => hfirst, h⟩

theorem areValues_of_integers (hvs : ∀ v ∈ vs, v.isIndex = true) (hints : integers vs = []) :
    AreValues vs := by
  intro v hv
  refine exists_ssa_of_isIndex (hvs v hv) ?_
  simpa using filter_eq_nil_iff.mp hints v hv

private theorem areValues_of_resolves {es : List Event}
    (h : Resolves "i32" (fun _ => startsWithInteger vs) vs es ws) (hvs : ∀ v ∈ vs, v.isIndex = true)
    (huniform : startsWithInteger vs = true ∨ integers vs = []) : AreValues ws := by
  refine h.areValues fun v hv hstart => ?_
  have hints := huniform.resolve_left (by simp [hstart])
  exact areValues_of_integers hvs hints v hv

private theorem asValueAll_of_integers (hvs : ∀ v ∈ vs, v.isIndex = true)
    (hints : integers vs ≠ []) :
    asValueAll vs = throw .rejected := by
  induction vs with
  | nil => exact absurd rfl hints
  | cons v vs ih =>
    rw [forall_mem_cons] at hvs
    cases v with
    | ssa id type view =>
      rw [asValueAll, asValue, pure_bind, ih hvs.2 hints]
      rfl
    | int n => rfl
    | bool b => rfl
    | _ => cases hvs.1

/-! ## The loop behind its bounds -/

def loopDefinition : OpDefinition := { OpDefinition.ompLoop with cls := "omp.WsLoopOp" }

def loopArgs (lowers uppers steps : Value) : List (String × Value) :=
  [("lowerBound", lowers), ("upperBound", uppers), ("step", steps), ("linear_vars", .listed []),
   ("linear_step_vars", .listed []), ("reduction_vars", .listed [])]

def loopOf (lowers uppers steps : Value) : Build Value := do
  let made ← loopDefinition.build (loopArgs lowers uppers steps)
  let _ ← appendBlock (← opId made) 0 ["i32"]
  return made

private theorem exec_loopOp {lowers uppers steps : Value}
    (hlowers : s.Enumerates ls lowers) (huppers : s.Enumerates us uppers)
    (hsteps : steps = .none ∧ ss = replicate ls.length (.int 1) ∨ s.Enumerates ss steps)
    (hus : us.length = ls.length) (hss : ss.length = ls.length) :
    ∃ steps', s.Enumerates ss steps' ∧ (loopOp lowers uppers steps).exec s = (do
      let lowers ← boundValues lowers
      let uppers ← boundValues uppers
      let steps ← boundValues steps'
      loopOf lowers uppers steps).exec s := by
  rw [loopOp, exec_bind_ok hlowers.exec_length, exec_bind_ok huppers.exec_length, hus]
  simp only [decide_true, require, if_true, pure_bind]
  rcases hsteps with ⟨rfl, rfl⟩ | hsteps
  · exact ⟨.listed (replicate ls.length (.int 1)), .listed, rfl⟩
  · refine ⟨steps, hsteps, ?_⟩
    simp only [hsteps.isNone_eq, Bool.false_eq_true, if_false]
    rw [exec_bind_ok hsteps.exec_length, hss]
    simp only [decide_true, if_true, pure_bind]
    rfl

def loopSizes (ls us ss : List Value) : Value :=
  .listed [.int ls.length, .int us.length, .int ss.length, .int 0, .int 0, .int 0, .int 0]

def loopOperands (ls us ss : List Value) : List Value :=
  [.listed ls, .listed us, .listed ss, .listed [], .listed [], .listed [], .none]

section Making

variable {s : Session} {ls us ss : List Value} {lowers uppers steps : Value}
  (hlowers : s.Enumerates ls lowers)
  (huppers : s.Enumerates us uppers) (hsteps : s.Enumerates ss steps)

private theorem exec_flatten_loop (hls : AreValues ls) (hus : AreValues us)
    (hss : AreValues ss) (s : Session) :
    (flattenOperands loopDefinition.kind (loopOperands ls us ss) []).exec s =
      (.ok (ls ++ us ++ ss, [(segmentSizes, loopSizes ls us ss)]), s) := by
  have hkind : loopDefinition.kind.segments = some (replicate 6 .variadic ++ [.optional]) := rfl
  have hgroups : operandGroups (replicate 6 .variadic ++ [.optional]) (loopOperands ls us ss) =
      pure [ls, us, ss, [], [], [], []] := by
    simp [loopOperands, operandGroups, groupOperands, items?,
      payload, replicate_succ, operandAll_eq hls, operandAll_eq hus, operandAll_eq hss, operandAll]
  have hput (sizes : Value) : Table.put segmentSizes sizes [] = [(segmentSizes, sizes)] := rfl
  rw [flattenOperands, hkind]
  simp only
  rw [hgroups, pure_bind, hput, exec_pure]
  simp [loopSizes]

private theorem exec_collectOperands_cons {name : String} {arity : Arity}
    {readable : Bool} {fields : List (String × Arity × Bool)} {args : List (String × Value)}
    (h : (loopDefinition.operandsOf arity ((args.lookup name).getD .none)).exec s = (.ok vs, s))
    (hrest : (loopDefinition.collectOperands args fields).exec s = (.ok ws, s)) :
    (loopDefinition.collectOperands args ((name, arity, readable) :: fields)).exec s =
      (.ok (vs ++ ws), s) :=
  (exec_bind_ok h).trans (exec_bind_ok hrest)

theorem exec_operandsOf_many (h : s.Enumerates vs v) (hvs : AreValues vs) :
    (loopDefinition.operandsOf .many v).exec s = (.ok [.listed vs], s) := by
  have hread : (asValues v).exec s = (.ok vs, s) := by
    rw [h.exec_asValues, asValueAll_eq hvs, exec_pure]
  exact exec_bind_ok hread

private theorem exec_operandsOf_many_rejected (h : s.Enumerates vs v)
    (hvs : ∀ v ∈ vs, v.isIndex = true) (hints : integers vs ≠ []) :
    (loopDefinition.operandsOf .many v).exec s = (.error .rejected, s) := by
  have hread : (asValues v).exec s = (.error .rejected, s) := by
    rw [h.exec_asValues, asValueAll_of_integers hvs hints, exec_throw]
  exact exec_bind_error hread

include hlowers huppers hsteps

private theorem exec_build_loop (hls : AreValues ls) (hus : AreValues us) (hss : AreValues ss) :
    (loopDefinition.build (loopArgs lowers uppers steps)).exec s =
      (.ok (.op s.ops.length "omp.WsLoopOp"),
      s.create (s.newOp "omp.wsloop" "omp.WsLoopOp"
        (ls ++ us ++ ss) [(segmentSizes, loopSizes ls us ss)] [] 1)
        (.generic (loopOperands ls us ss) [(segmentSizes, loopSizes ls us ss)] 1)) := by
  have hrest : (loopDefinition.collectOperands (loopArgs lowers uppers steps)
      (loopDefinition.operandFields.drop 3)).exec s =
        (.ok [.listed [], .listed [], .listed [], .none], s) := rfl
  have hoperands : (loopDefinition.collectOperands (loopArgs lowers uppers steps)
      loopDefinition.operandFields).exec s = (.ok (loopOperands ls us ss), s) :=
    exec_collectOperands_cons (exec_operandsOf_many hlowers hls) <|
      exec_collectOperands_cons (exec_operandsOf_many huppers hus) <|
        exec_collectOperands_cons (exec_operandsOf_many hsteps hss) hrest
  have hattributes : (loopDefinition.collectAttributes (loopArgs lowers uppers steps)
      loopDefinition.fields).exec s =
      (.ok [], s) := rfl
  have hresults :
      (OpDefinition.collectResults (loopOperands ls us ss) (loopArgs lowers uppers steps)
      loopDefinition.results).exec s = (.ok [], s) := rfl
  have hsuccessors : (OpDefinition.checkSuccessors (loopArgs lowers uppers steps)
      loopDefinition.successors).exec s =
      (.ok (), s) := rfl
  have htypes : (typeTexts []).exec s = (.ok [], s) := rfl
  have hfrozen : (loopOperands ls us ss).map s.frozen = loopOperands ls us ss := by
    simp [loopOperands, hls.map_frozen_eq, hus.map_frozen_eq, hss.map_frozen_eq]
  have hsizes : s.frozen (loopSizes ls us ss) = loopSizes ls us ss := by simp [loopSizes]
  rw [OpDefinition.build, exec_bind_ok hoperands, exec_bind_ok hattributes, exec_bind_ok hresults,
    exec_bind_ok hsuccessors, exec_generic (exec_flatten_loop hls hus hss s) htypes, hfrozen,
    map_singleton, hsizes]
  rfl

private theorem exec_loopOf (hls : AreValues ls) (hus : AreValues us) (hss : AreValues ss) :
    ∃ u block arg,
      (loopOf lowers uppers steps).exec s = (.ok (.op s.ops.length "omp.WsLoopOp"), u) ∧
        u.events = s.events ++
        [.create s.ops.length "omp.wsloop" s.current [] (.generic (loopOperands ls us ss)
          [(segmentSizes, loopSizes ls us ss)] 1),
            .block block s.ops.length 0 [.ssa arg "i32" .plain]] := by
  have hmade := exec_build_loop hlowers huppers hsteps hls hus hss
  rw [loopOf, exec_bind_ok hmade, exec_bind_ok (exec_opId ..),
    exec_bind_ok (exec_appendBlock ..), exec_pure]
  exact ⟨_, _, _, rfl, append_assoc _ _ _⟩

private theorem exec_build_loop_rejected (hvs : ∀ v ∈ ls ++ us ++ ss, v.isIndex = true)
    (hints : ∃ vs ∈ [ls, us, ss], integers vs ≠ []) :
    (loopDefinition.build (loopArgs lowers uppers steps)).exec s = (.error .rejected, s) := by
  simp only [forall_mem_append] at hvs
  obtain ⟨⟨hls, hus⟩, hss⟩ := hvs
  have hoperands : (loopDefinition.collectOperands (loopArgs lowers uppers steps)
      loopDefinition.operandFields).exec s = (.error .rejected, s) := by
    by_cases hl : integers ls = []
    · refine (exec_bind_ok (exec_operandsOf_many hlowers (areValues_of_integers hls hl))).trans
        (exec_bind_error ?_)
      by_cases hu : integers us = []
      · refine (exec_bind_ok (exec_operandsOf_many huppers (areValues_of_integers hus hu))).trans
          (exec_bind_error ?_)
        have hs : integers ss ≠ [] := by simpa [hl, hu] using hints
        exact exec_bind_error (exec_operandsOf_many_rejected hsteps hss hs)
      · exact exec_bind_error (exec_operandsOf_many_rejected huppers hus hu)
    · exact exec_bind_error (exec_operandsOf_many_rejected hlowers hls hl)
  exact exec_bind_error hoperands

end Making

/-! ## Loops that are recorded -/

structure RecordedBounds where
  constants : List Event
  values : List Value

structure RecordedLoop where
  lowers : RecordedBounds
  uppers : RecordedBounds
  steps : RecordedBounds
  id : Nat
  block : Nat
  args : List Value

namespace RecordedLoop

def events (l : RecordedLoop) (place : Option Nat) : List Event :=
  l.lowers.constants ++ l.uppers.constants ++ l.steps.constants ++ [.create l.id
    "omp.wsloop" place [] (.generic (loopOperands l.lowers.values l.uppers.values l.steps.values)
      [(segmentSizes, loopSizes l.lowers.values l.uppers.values l.steps.values)] 1),
     .block l.block l.id 0 l.args]

def Resolves (l : RecordedLoop) (chosen : List Value → Value → Bool)
    (ls us ss : List Value) : Prop :=
  Polyloom.Resolves "i32" (chosen ls) ls l.lowers.constants l.lowers.values ∧
    Polyloom.Resolves "i32" (chosen us) us l.uppers.constants l.uppers.values ∧
    Polyloom.Resolves "i32" (chosen ss) ss l.steps.constants l.steps.values

/-- A call that took the session from `s` to `t` gave the loop and left its record. -/
structure LeftBy (l : RecordedLoop) (s : Session) (r : Except Fault Value)
  (t : Session) : Prop where
  result_eq : r = .ok (.op l.id "omp.WsLoopOp")
  events_eq : t.events = s.events ++ l.events s.current

private theorem args_eq {l l' : RecordedLoop} {s t : Session} (h : l.LeftBy s r t)
    (h' : l'.LeftBy s r t) : l.args = l'.args := by
  have hevents := append_cancel_left (h.events_eq.symm.trans h'.events_eq)
  have hlast := congrArg getLast? hevents
  simp only [events, getLast?_append, getLast?_cons_cons, getLast?_singleton, Option.some_or,
    Option.some.injEq, Event.block.injEq] at hlast
  exact hlast.2.2.2

end RecordedLoop

/-- The bounds of a call and the lists that they are. -/
structure BoundsOf (s : Session) (lowers uppers steps : Value) (ls us ss : List Value) : Prop where
  lowers : s.Enumerates ls lowers
  uppers : s.Enumerates us uppers
  steps : steps = .none ∧ ss = replicate ls.length (.int 1) ∨ s.Enumerates ss steps
  nonempty : 1 ≤ ls.length
  uppers_length : us.length = ls.length
  steps_length : ss.length = ls.length
  isIndex : ∀ v ∈ ls ++ us ++ ss, v.isIndex = true

namespace BoundsOf

variable {s : Session} {lowers uppers steps : Value} {ls us ss : List Value}

theorem exec_loopOp (h : BoundsOf s lowers uppers steps ls us ss) : ∃ (l u st : Value) (t : Session)
    (loop : RecordedLoop), (loopOp lowers uppers steps).exec s = (loopOf l u st).exec t ∧
      s.Records t (loop.lowers.constants ++ loop.uppers.constants ++ loop.steps.constants) ∧
      loop.Resolves (fun vs _ => startsWithInteger vs) ls us ss ∧
        t.Enumerates loop.lowers.values l ∧
      t.Enumerates loop.uppers.values u ∧ t.Enumerates loop.steps.values st := by
  have hne {vs : List Value} (hvs : vs.length = ls.length) : vs ≠ [] :=
    ne_nil_of_length_pos (hvs ▸ h.nonempty)
  have hvs := h.isIndex
  simp only [forall_mem_append] at hvs
  obtain ⟨⟨hls, hus⟩, hss⟩ := hvs
  obtain ⟨steps', hsteps, hexec⟩ :=
    Worksharing.exec_loopOp h.lowers h.uppers h.steps h.uppers_length h.steps_length
  obtain ⟨l, lv, t₁, le, hl, hrecords₁, hresolves₁, henum₁⟩ :=
    exec_boundValues h.lowers (hne rfl) hls
  obtain ⟨u, uv, t₂, ue, hu, hrecords₂, hresolves₂, henum₂⟩ :=
    exec_boundValues (h.uppers.later hrecords₁.lists_kept) (hne h.uppers_length) hus
  have hrecords₁₂ := hrecords₁.trans hrecords₂
  obtain ⟨st, sv, t₃, se, hs, hrecords₃, hresolves₃, henum₃⟩ :=
    exec_boundValues (hsteps.later hrecords₁₂.lists_kept) (hne h.steps_length) hss
  rw [hexec, exec_bind_ok hl, exec_bind_ok hu, exec_bind_ok hs]
  exact ⟨l, u, st, t₃, ⟨⟨le, lv⟩, ⟨ue, uv⟩, ⟨se, sv⟩, 0, 0, []⟩, rfl, hrecords₁₂.trans hrecords₃,
    ⟨hresolves₁, hresolves₂, hresolves₃⟩, henum₁.later (hrecords₂.trans hrecords₃).lists_kept,
    henum₂.later hrecords₃.lists_kept, henum₃⟩

/-- Lists that start with an integer or have none leave a loop whose block has one argument. -/
theorem exec_loopOp_taken (h : BoundsOf s lowers uppers steps ls us ss)
    (huniform : ∀ vs ∈ [ls, us, ss], startsWithInteger vs = true ∨ integers vs = []) :
    ∃ r t, (loopOp lowers uppers steps).exec s = (r, t) ∧
      ∃ (loop : RecordedLoop) (arg : Nat), loop.LeftBy s r t ∧
      loop.Resolves (fun vs _ => startsWithInteger vs) ls us ss ∧
        loop.args = [.ssa arg "i32" .plain] := by
  obtain ⟨l, u, st, t, loop, hexec, hrecords, ⟨hlowers, huppers, hsteps⟩, hl, hu, hs⟩ :=
    h.exec_loopOp
  have hvs := h.isIndex
  simp only [forall_mem_append] at hvs
  obtain ⟨⟨hls, hus⟩, hss⟩ := hvs
  simp only [forall_mem_cons] at huniform
  obtain ⟨v, block, arg, hloop, hevents⟩ :=
    exec_loopOf hl hu hs (areValues_of_resolves hlowers hls huniform.1)
    (areValues_of_resolves huppers hus huniform.2.1)
      (areValues_of_resolves hsteps hss huniform.2.2.1)
  refine ⟨_, v, hexec.trans hloop,
    ⟨loop.lowers, loop.uppers, loop.steps, t.ops.length, block, [.ssa arg "i32" .plain]⟩,
    arg, ⟨rfl, ?_⟩, ⟨hlowers, huppers, hsteps⟩, rfl⟩
  rw [hevents, hrecords.events_eq, hrecords.current_eq, append_assoc]
  rfl

/-- A list that starts with a value and has an integer is refused, and no loop is made. -/
private theorem exec_loopOp_refused (h : BoundsOf s lowers uppers steps ls us ss)
    (hmixed : ∃ vs ∈ [ls, us, ss], startsWithInteger vs = false ∧ integers vs ≠ []) :
    ∃ t, (loopOp lowers uppers steps).exec s = (.error .rejected, t) := by
  obtain ⟨l, u, st, t, loop, hexec, -, ⟨hlowers, huppers, hsteps⟩, hl, hu, hs⟩ := h.exec_loopOp
  have hvs := h.isIndex
  simp only [forall_mem_append] at hvs
  obtain ⟨⟨hls, hus⟩, hss⟩ := hvs
  have hvalues : ∀ v ∈ loop.lowers.values ++ loop.uppers.values ++ loop.steps.values,
      v.isIndex = true := by
    simp only [forall_mem_append]
    exact ⟨⟨hlowers.isIndex hls, huppers.isIndex hus⟩, hsteps.isIndex hss⟩
  -- a list that is not converted is handed over as it is, with its integers
  have hkept {vs ws : List Value} {es : List Event}
      (hr : Resolves "i32" (fun _ => startsWithInteger vs) vs es ws)
      (hstart : startsWithInteger vs = false) : ws = vs := hr.eq_of_none fun _ _ => hstart
  have hints : ∃ vs ∈ [loop.lowers.values, loop.uppers.values, loop.steps.values],
      integers vs ≠ [] := by
    obtain ⟨vs, hmem, hstart, hints⟩ := hmixed
    simp only [mem_cons, not_mem_nil, or_false] at hmem
    rcases hmem with rfl | rfl | rfl
    · exact ⟨vs, by simp [hkept hlowers hstart], hints⟩
    · exact ⟨vs, by simp [hkept huppers hstart], hints⟩
    · exact ⟨vs, by simp [hkept hsteps hstart], hints⟩
  exact ⟨t, hexec.trans (exec_bind_error (exec_build_loop_rejected hl hu hs hvalues hints))⟩

end BoundsOf

/-! ## Taking bounds as they are meant -/

/-- The loop has its bounds in order, each integer as a constant of its own and each value as
itself, and a block with one argument for each loop of the nest. -/
def TakesBounds (s : Session) (r : Except Fault Value) (t : Session)
    (ls us ss : List Value) : Prop :=
  ∃ loop : RecordedLoop, loop.LeftBy s r t ∧ loop.Resolves (fun _ => isInt) ls us ss ∧
    loop.args.length = ls.length ∧ ∀ v ∈ loop.args, ∃ id, v = .ssa id "i32" .plain

theorem startsWithInteger_of_length_one (h : vs.length = 1) :
    (∀ v ∈ vs, startsWithInteger vs = v.isInt) ∧
      (startsWithInteger vs = true ∨ integers vs = []) := by
  obtain ⟨v, rfl⟩ := length_eq_one_iff.mp h
  cases hv : v.isInt <;> simp [startsWithInteger, integers, hv]

theorem length_eq_one_of_takesBounds {loop : RecordedLoop} {arg : Value}
    (hleft : loop.LeftBy s r t) (harg : loop.args = [arg]) (h : TakesBounds s r t ls us ss) :
    ls.length = 1 := by
  obtain ⟨loop', hleft', -, hlength, -⟩ := h
  rw [← hlength, RecordedLoop.args_eq hleft' hleft, harg, length_singleton]

private theorem RecordedLoop.Resolves.takesBounds {loop : RecordedLoop} {arg : Nat}
    (h : loop.Resolves (fun vs _ => startsWithInteger vs) ls us ss) (hleft : loop.LeftBy s r t)
    (harg : loop.args = [.ssa arg "i32" .plain]) (hls : ls.length = 1) (hus : us.length = 1)
    (hss : ss.length = 1) : TakesBounds s r t ls us ss := by
  refine ⟨loop, hleft, ⟨?_, ?_, ?_⟩, by rw [harg, hls, length_singleton], by simp [harg]⟩
  · exact h.1.congr (startsWithInteger_of_length_one hls).1
  · exact h.2.1.congr (startsWithInteger_of_length_one hus).1
  · exact h.2.2.congr (startsWithInteger_of_length_one hss).1

def loopParams : List Param :=
  [lowerBounds, upperBounds, .optional "steps", .keyword "loc", .keyword "ip"]

theorem callPath_loop {args : CallArgs Value} {lowers uppers steps loc ip : Value}
    (hargs : bindParams loopParams args = .ok [lowers, uppers, steps, loc, ip]) (call : Caller) :
    callPath call "omp.WsLoopOp" args = loopOp lowers uppers steps := by
  have hpath : procedure? "omp.WsLoopOp" = some (Procedure.located
      (Procedure.of3 lowerBounds upperBounds (.optional "steps") loopOp)) := rfl
  exact callPath_of_fixed hpath hargs call

/-- A list of bounds that starts with a value and has an integer is refused.  Otherwise a loop is
made, and of each list all entries or none become constants, as its first entry is an integer or
not; the block has one argument.  So bounds are taken as they are meant only if there is one loop.
-/
theorem takes_bounds_iff (call : Caller) {s : Session} {args : CallArgs Value}
    {lowers uppers steps loc ip : Value} {ls us ss : List Value}
    (hargs : bindParams loopParams args = .ok [lowers, uppers, steps, loc, ip])
    (h : BoundsOf s lowers uppers steps ls us ss) :
    ∃ r t, (callPath call "omp.WsLoopOp" args).exec s = (r, t) ∧
      ((∃ vs ∈ [ls, us, ss], startsWithInteger vs = false ∧ integers vs ≠ []) →
        r = .error .rejected) ∧
      ((∀ vs ∈ [ls, us, ss], startsWithInteger vs = true ∨ integers vs = []) →
        ∃ (loop : RecordedLoop) (arg : Nat), loop.LeftBy s r t ∧
          loop.Resolves (fun vs _ => startsWithInteger vs) ls us ss ∧
            loop.args = [.ssa arg "i32" .plain]) ∧
      (TakesBounds s r t ls us ss ↔ ls.length = 1) := by
  rw [callPath_loop hargs]
  by_cases hmixed : ∃ vs ∈ [ls, us, ss], startsWithInteger vs = false ∧ integers vs ≠ []
  · obtain ⟨t, hexec⟩ := h.exec_loopOp_refused hmixed
    obtain ⟨vs, hmem, hstart, hints⟩ := hmixed
    refine ⟨_, t, hexec, fun _ => rfl, fun huniform => ?_, fun htakes => ?_, fun hone => ?_⟩
    · exact absurd ((huniform vs hmem).resolve_left (by simp [hstart])) hints
    · obtain ⟨loop, hleft, -⟩ := htakes
      cases hleft.result_eq
    · have hlength : vs.length = 1 := by
        simp only [mem_cons, not_mem_nil, or_false] at hmem
        rcases hmem with rfl | rfl | rfl
        · exact hone
        · exact h.uppers_length.trans hone
        · exact h.steps_length.trans hone
      exact absurd ((startsWithInteger_of_length_one hlength).2.resolve_left (by simp [hstart]))
        hints
  · have huniform : ∀ vs ∈ [ls, us, ss], startsWithInteger vs = true ∨ integers vs = [] := by
      intro vs hvs
      by_contra hneither
      rw [not_or, Bool.not_eq_true] at hneither
      exact hmixed ⟨vs, hvs, hneither⟩
    obtain ⟨r, t, hexec, loop, arg, hleft, hresolves, harg⟩ := h.exec_loopOp_taken huniform
    refine ⟨r, t, hexec, fun hmixed' => absurd hmixed' hmixed,
      fun _ => ⟨loop, arg, hleft, hresolves, harg⟩,
      length_eq_one_of_takesBounds hleft harg, fun hone => ?_⟩
    exact hresolves.takesBounds hleft harg hone (h.uppers_length.trans hone)
      (h.steps_length.trans hone)

def rowSession : Session := { values := 1, lists := [[.ssa 0 "i32" .plain]] }

private theorem row_bounds : BoundsOf rowSession
    (.list 0) (.tuple [.int 8]) .none [.ssa 0 "i32" .plain] [.int 8] [.int 1] where
  lowers := .list rfl
  uppers := .tuple
  steps := .inl ⟨rfl, rfl⟩
  nonempty := le_rfl
  uppers_length := rfl
  steps_length := rfl
  isIndex := by decide

theorem row_takes_bounds :
    BoundsOf rowSession (.list 0) (.tuple [.int 8]) .none [.ssa 0 "i32" .plain] [.int 8] [.int 1] ∧
    ∃ r t, (callPath (Script.callWithin 0) "omp.WsLoopOp" ⟨[.list 0, .tuple [.int 8]], []⟩).exec
      rowSession =
        (r, t) ∧ TakesBounds rowSession r t [.ssa 0 "i32" .plain] [.int 8] [.int 1] := by
  have hargs : bindParams loopParams ⟨[.list 0, .tuple [.int 8]], []⟩ =
      .ok [.list 0, .tuple [.int 8], .none, .none, .none] := rfl
  obtain ⟨r, t, hexec, -, -, htakes⟩ := takes_bounds_iff (Script.callWithin 0) hargs row_bounds
  exact ⟨row_bounds, r, t, hexec, htakes.mpr rfl⟩

private theorem grid_bounds : BoundsOf {} (.tuple [.int 0, .int 1]) (.tuple [.int 4, .int 8]) .none
    [.int 0, .int 1] [.int 4, .int 8] [.int 1, .int 1] where
  lowers := .tuple
  uppers := .tuple
  steps := .inl ⟨rfl, rfl⟩
  nonempty := by decide
  uppers_length := rfl
  steps_length := rfl
  isIndex := by decide

/-- Two loops with integers as bounds have a block with one argument. -/
theorem grid_bounds_not_taken : ∃ r t, (callPath (Script.callWithin 0) "omp.WsLoopOp"
      ⟨[.tuple [.int 0, .int 1], .tuple [.int 4, .int 8]], []⟩).exec {} = (r, t) ∧
    (∃ (loop : RecordedLoop) (arg : Nat), loop.LeftBy {} r t ∧
      loop.args = [.ssa arg "i32" .plain]) ∧
    ¬ TakesBounds {} r t [.int 0, .int 1] [.int 4, .int 8] [.int 1, .int 1] := by
  have hargs : bindParams loopParams ⟨[.tuple [.int 0, .int 1], .tuple [.int 4, .int 8]], []⟩ =
      .ok [.tuple [.int 0, .int 1], .tuple [.int 4, .int 8], .none, .none, .none] := rfl
  obtain ⟨r, t, hexec, loop, arg, hleft, -, harg⟩ := grid_bounds.exec_loopOp_taken (by decide)
  rw [callPath_loop hargs]
  refine ⟨r, t, hexec, ⟨loop, arg, hleft, harg⟩, fun htakes => ?_⟩
  exact absurd (length_eq_one_of_takesBounds hleft harg htakes) (by decide)

end Worksharing

end Polyloom
