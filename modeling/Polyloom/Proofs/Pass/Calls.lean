import Polyloom.Pass.Session
import Polyloom.Proofs.Stateful

/-!
# Calls on a pipeline

What a call does is told by its name and arguments alone: it opens or closes a scope, adds a pass,
runs the steps of a composite call, or fails at once.  A step that is refused changes nothing, and
a composite call can only be refused where it first opens a scope.
-/

namespace Polyloom

open Stateful

namespace Pipeline

/-! ## What a call amounts to -/

inductive Action where
  | enter (scope : Datum)
  | leave (scope : Datum)
  | run (steps : List Step)
  | pass (spec : PassSpec) (values : List (String × Datum))
  | raw (name : String) (options : List (String × Datum))
  | fail (fault : Fault)

namespace Action

def perform : Action → PipelineCall Bool
  | .enter scope => do
    openScope scope funcScope.complaint
    return true
  | .leave scope => do
    closeScope scope
    return true
  | .run steps => do
    runSteps steps
    return true
  | .pass spec values => do
    addPass (optionKey spec.name)
      (List.zipWith (fun o (k, v) => (k, joinedValue o v)) spec.options values)
    return true
  | .raw name options => do
    addPass name options
    return false
  | .fail fault => throw fault

def bound {α : Type} (arguments : Except Fault α) (next : α → Action) : Action :=
  match arguments with
  | .ok a => next a
  | .error fault => .fail fault

end Action

def action (name : String) (call : CallArgs Datum) : Action :=
  let steps (l : List Step) : Action := .bound (bindNone call) fun _ => .run l
  match name with
  | "WRAP" => .bound (bindOne "scope" call) .enter
  | "UNWRAP" => .bound (bindOne "scope" call) .leave
  | "_add_pass" =>
    match call.positional, call.named.lookup "pass_name" with
    | [n], none => .raw n.text call.named
    | [], some n => .raw n.text (call.named.filter fun (k, _) => k ≠ "pass_name")
    | _, _ => .fail .wrongKind
  | "bufferize" => steps bufferizeSteps
  | "lower_to_llvm" => steps lowerToLlvmSteps
  | "lower_to_openmp" => steps lowerToOpenmpSteps
  | "lower_to_vulkan" => .bound (bindOptional ["index_bitwidth"] call) fun values =>
    match values with
    | [(_, v)] => .run (lowerToVulkanSteps v)
    | _ => .fail .wrongKind
  | name =>
    match namedScopes.find? fun s => s.opener = name with
    | some s => steps [.enter s]
    | none => match namedScopes.find? fun s => s.closer = name with
        | some s => steps [.leave s]
        | none => match PassSpec.find? name with
            | some spec =>
              .bound (bindOptional (spec.options.map PassOption.name) call) (.pass spec)
            | none => .fail .noAttribute

private theorem perform_bound {α : Type} (arguments : Except Fault α) (next : α → Action) :
    (Action.bound arguments next).perform =
      (do (next (← MonadExcept.ofExcept arguments)).perform : PipelineCall Bool) := by
  cases arguments <;> rfl

private theorem callPass_eq (spec : PassSpec) (call : CallArgs Datum) : (do
      callPass spec call
      return true : PipelineCall Bool) =
    (Action.bound (bindOptional (spec.options.map PassOption.name) call) (.pass spec)).perform := by
  rw [callPass, callMethod]
  cases bindOptional (spec.options.map PassOption.name) call <;> rfl

theorem invoke_eq (name : String) (call : CallArgs Datum) :
    invoke name call = (action name call).perform := by
  unfold invoke action
  split
  case h_3 =>
    rcases call.positional with _ | ⟨n, _ | ⟨m, rest⟩⟩ <;>
      cases call.named.lookup "pass_name" <;> rfl
  case h_7 =>
    simp only [perform_bound]
    refine bind_congr fun values => ?_
    rcases values with _ | ⟨⟨k, v⟩, _ | ⟨w, rest⟩⟩ <;> rfl
  case h_8 =>
    simp only []
    cases namedScopes.find? fun s => s.opener = name with
    | some s =>
      simp only [perform_bound]
      rfl
    | none =>
      cases namedScopes.find? fun s => s.closer = name with
      | some s =>
        simp only [perform_bound]
        rfl
      | none =>
        cases PassSpec.find? name with
        | some spec => exact callPass_eq spec call
        | none => rfl
  all_goals
    simp only [perform_bound]
    rfl

/-! ## Effects -/

variable {p q : Pipeline} {fault : Fault} {steps : List Step}
  {name : String} {call : CallArgs Datum}

theorem isNull_iff {d : Datum} : isNull d = true ↔ d = .null := by
  cases d <;> simp [isNull]

theorem exec_openScope (scope : Datum) (complaint : String) (p : Pipeline) :
    exec (openScope scope complaint) p = if isNull p.wrapper then
      (.ok (), { p with wrapper := scope })
      else (.error (.assertion complaint), p) := by
  have hget : exec (get : PipelineCall Pipeline) p = (.ok p, p) := rfl
  rw [openScope, exec_bind_ok hget]
  split <;> rfl

theorem exec_closeScope (scope : Datum) (p : Pipeline) :
    exec (closeScope scope) p = if p.wrapper.same scope then (.ok (), { p with wrapper := .null })
      else (.error (.assertion ""), p) := by
  have hget : exec (get : PipelineCall Pipeline) p = (.ok p, p) := rfl
  rw [closeScope, exec_bind_ok hget]
  split <;> rfl

/-! ## Steps of composite calls -/

namespace Step

def passText? : Step → Option String
  | .pass name => some (passText (optionKey name) [])
  | .passWith name option value => some (passText (optionKey name) [(option, value)])
  | _ => none

theorem exec_run_of_passText? {s : Step} {text : String} (h : s.passText? = some text)
    (p : Pipeline) :
    exec s.run p = (.ok (), { p with passes := p.passes ++ [inScope p.wrapper text] }) := by
  cases s <;> cases h <;> rfl

private theorem eq_of_exec_run_error {s : Step} (h : exec s.run p = (.error fault, q)) : q = p := by
  cases s with
  | enter scope =>
    rw [run, NamedScope.enter, exec_openScope] at h
    split at h <;> simp_all
  | leave scope =>
    rw [run, NamedScope.leave, exec_closeScope] at h
    split at h <;> simp_all
  | pass name => cases h
  | passWith name option value => cases h

end Step

def leading : List Step → List String
  | [] => []
  | s :: rest => match s.passText? with
      | some text => text :: leading rest
      | none => []

/-- Are scopes entered only where none is open, and left where they are open?  `inside` is the
scope that is open at the start; none is at the end. -/
def isScoped : Option NamedScope → List Step → Bool
  | inside, [] => inside.isNone
  | inside, .enter s :: rest => inside.isNone && isScoped (some s) rest
  | inside, .leave s :: rest => inside = some s && isScoped none rest
  | inside, _ :: rest => isScoped inside rest

def scopeDatum : Option String → Datum
  | none => .null
  | some scope => .str scope

theorem exec_runSteps_cons {s : Step} {rest : List Step} (h : exec s.run p = (.ok (), q)) :
    exec (runSteps (s :: rest)) p = exec (runSteps rest) q := by
  rw [runSteps, exec_bind_ok h]

theorem exec_runSteps_ok {inside : Option NamedScope} (h : isScoped inside steps = true)
    (hp : p.wrapper = scopeDatum (inside.map NamedScope.operation)) :
    ∃ q, exec (runSteps steps) p = (.ok (), q) ∧ q.wrapper = .null := by
  -- along the steps, the open scope is the one that they are inside of
  induction steps generalizing inside p with
  | nil =>
    obtain rfl : inside = none := by simpa [isScoped] using h
    exact ⟨p, rfl, hp⟩
  | cons s rest ih =>
    have hpass {text : String} (htext : s.passText? = some text)
        (hrest : isScoped inside rest = true) :
        ∃ q, exec (runSteps (s :: rest)) p = (.ok (), q) ∧ q.wrapper = .null := by
      rw [exec_runSteps_cons (Step.exec_run_of_passText? htext p)]
      exact ih hrest hp
    cases s with
    | pass name => exact hpass rfl (by simpa [isScoped] using h)
    | passWith name option value => exact hpass rfl (by simpa [isScoped] using h)
    | enter s =>
      simp only [isScoped, Bool.and_eq_true, Option.isNone_iff_eq_none] at h
      obtain ⟨rfl, h⟩ := h
      have hrun : exec (Step.enter s).run p = (.ok (), { p with wrapper := .str s.operation }) := by
        rw [Step.run, NamedScope.enter, exec_openScope, hp]
        rfl
      rw [exec_runSteps_cons hrun]
      exact ih h rfl
    | leave s =>
      simp only [isScoped, Bool.and_eq_true, decide_eq_true_eq] at h
      obtain ⟨rfl, h⟩ := h
      have hrun : exec (Step.leave s).run p = (.ok (), { p with wrapper := .null }) := by
        rw [Step.run, NamedScope.leave, exec_closeScope, hp]
        simp [scopeDatum, Datum.same]
      rw [exec_runSteps_cons hrun]
      exact ih h rfl

/-- Where another scope is open, only the passes before the first scope are added, and the steps are
refused unless they are all passes. -/
theorem exec_runSteps_open (h : isScoped none steps = true) (hp : isNull p.wrapper = false) :
    ∃ outcome, exec (runSteps steps) p =
      (outcome, { p with passes := p.passes ++ (leading steps).map (inScope p.wrapper) }) ∧
    (outcome = .ok () → (leading steps).length = steps.length) := by
  induction steps generalizing p with
  | nil => exact ⟨.ok (), by simp [leading, runSteps], fun _ => rfl⟩
  | cons s rest ih =>
    have hpass {text : String} (htext : s.passText? = some text)
        (hrest : isScoped none rest = true) :
        ∃ outcome, exec (runSteps (s :: rest)) p = (outcome,
          { p with passes := p.passes ++ (leading (s :: rest)).map (inScope p.wrapper) }) ∧
        (outcome = .ok () → (leading (s :: rest)).length = (s :: rest).length) := by
      obtain ⟨outcome, hafter, hlength⟩ :=
        ih (p := { p with passes := p.passes ++ [inScope p.wrapper text] }) hrest hp
      refine ⟨outcome, ?_, ?_⟩
      · rw [exec_runSteps_cons (Step.exec_run_of_passText? htext p), hafter]
        simp [leading, htext]
      · intro hok
        simp [leading, htext, hlength hok]
    cases s with
    | pass name => exact hpass rfl (by simpa [isScoped] using h)
    | passWith name option value => exact hpass rfl (by simpa [isScoped] using h)
    | enter s =>
      have hrun : exec (Step.enter s).run p = (.error (.assertion s.complaint), p) := by
        rw [Step.run, NamedScope.enter, exec_openScope, hp]
        rfl
      -- the first scope is refused, and what follows is not reached
      refine ⟨.error (.assertion s.complaint), ?_, nofun⟩
      rw [runSteps, exec_bind_error hrun]
      simp [leading, Step.passText?]
    | leave s => simp [isScoped] at h

/-! ## What calls amount to -/

def composites (v : Datum) : List (String × List Step) :=
  [("bufferize", bufferizeSteps), ("lower_to_llvm", lowerToLlvmSteps),
   ("lower_to_openmp", lowerToOpenmpSteps), ("lower_to_vulkan", lowerToVulkanSteps v)]

def compositeNames : List String :=
  ["bufferize", "lower_to_llvm", "lower_to_openmp", "lower_to_vulkan"]

inductive Amounts (name : String) (call : CallArgs Datum) : Action → Prop
  | fail {fault : Fault} (h : fault = .wrongKind ∨ fault = .noAttribute) : Amounts name
    call (.fail fault)
  | enter {scope : Datum} (hname : name = "WRAP") (hscope : bindOne "scope" call = .ok scope) :
      Amounts name call (.enter scope)
  | leave (scope : Datum) (hname : name = "UNWRAP") : Amounts name call (.leave scope)
  | raw (pass : String) (options : List (String × Datum)) (hname : name = "_add_pass") :
      Amounts name call (.raw pass options)
  | composite {v : Datum} {steps : List Step} (h : (name, steps) ∈ composites v)
      (hv : name = "lower_to_vulkan" → ∃ k, bindOptional ["index_bitwidth"] call = .ok [(k, v)]) :
      Amounts name call (.run steps)
  | opener {s : NamedScope} (h : s ∈ namedScopes) (hname : name = s.opener) : Amounts name call
    (.run [.enter s])
  | closer {s : NamedScope} (h : s ∈ namedScopes) (hname : name = s.closer) : Amounts name call
    (.run [.leave s])
  | pass {spec : PassSpec} {values : List (String × Datum)} (hname : name ∉ compositeNames)
      (hspec : PassSpec.find? name = some spec)
      (hvalues : bindOptional (spec.options.map PassOption.name) call = .ok values) :
      Amounts name call (.pass spec values)

private theorem amounts_bound {α : Type} {arguments : Except Fault α} {next : α → Action}
    (hfault : ∀ fault, arguments = .error fault → fault = .wrongKind)
    (h : ∀ a, arguments = .ok a → Amounts name call (next a)) :
    Amounts name call (.bound arguments next) := by
  cases arguments with
  | ok a => exact h a rfl
  | error fault => exact .fail (.inl (hfault fault rfl))

private theorem bindNone_fault (h : bindNone call = .error fault) : fault = .wrongKind := by
  unfold bindNone at h
  split at h <;> cases h
  rfl

private theorem bindOne_fault {param : String} (h : bindOne param call = .error fault) :
    fault = .wrongKind := by
  unfold bindOne at h
  split at h
  · cases h
  · split at h <;> cases h
    rfl
  · cases h
    rfl

theorem bindOptional_eq (params : List String) (call : CallArgs Datum) : bindOptional params call =
    if params.length < call.positional.length ∨
        (call.named.any fun (k, _) => k ∉ params.drop call.positional.length) =
          true then .error .wrongKind
    else .ok ((params.take call.positional.length).zip call.positional ++
      (params.drop call.positional.length).map fun p => (p, (call.named.lookup p).getD .null)) := by
  unfold bindOptional
  by_cases hlong : params.length < call.positional.length
  · simp [hlong]
    rfl
  · by_cases hnamed : (call.named.any fun (k, _) => k ∉ params.drop call.positional.length) = true
    · simp only [hlong, hnamed]
      rfl
    · simp only [hlong, hnamed]
      rfl

private theorem bindOptional_fault {params : List String}
    (h : bindOptional params call = .error fault) : fault = .wrongKind := by
  rw [bindOptional_eq] at h
  split at h <;> cases h
  rfl

theorem amounts_action (name : String) (call : CallArgs Datum) :
    Amounts name call (action name call) := by
  unfold action
  split
  case h_1 => exact amounts_bound (fun _ => bindOne_fault) fun _ h => .enter rfl h
  case h_2 => exact amounts_bound (fun _ => bindOne_fault) fun _ _ => .leave _ rfl
  case h_3 =>
    split
    · exact .raw _ _ rfl
    · exact .raw _ _ rfl
    · exact .fail (.inl rfl)
  case h_7 =>
    refine amounts_bound (fun _ => bindOptional_fault) fun values h => ?_
    rcases values with _ | ⟨⟨k, v⟩, _ | ⟨w, rest⟩⟩
    · exact .fail (.inl rfl)
    · exact .composite (v := v) (by simp [composites]) fun _ => ⟨k, h⟩
    · exact .fail (.inl rfl)
  case h_8 =>
    simp only []
    split
    · rename_i s hs
      have hname : s.opener = name := by simpa using List.find?_some hs
      exact amounts_bound (fun _ => bindNone_fault) fun _ _ =>
        .opener (List.mem_of_find?_eq_some hs) hname.symm
    · split
      · rename_i s hs
        have hname : s.closer = name := by simpa using List.find?_some hs
        exact amounts_bound (fun _ => bindNone_fault) fun _ _ =>
          .closer (List.mem_of_find?_eq_some hs) hname.symm
      · split
        · rename_i spec hspec
          exact amounts_bound (fun _ => bindOptional_fault) fun _ h =>
            .pass (by simp_all [compositeNames]) hspec h
        · exact .fail (.inr rfl)
  all_goals exact amounts_bound (fun _ => bindNone_fault) fun _ _ =>
      .composite (v := .null) (by simp [composites]) (by simp)

section

variable {v : Datum} (h : (name, steps) ∈ composites v)

include h

theorem isScoped_composites : isScoped none steps = true := by
  simp only [composites, List.mem_cons, Prod.mk.injEq, List.not_mem_nil, or_false] at h
  rcases h with ⟨-, rfl⟩ | ⟨-, rfl⟩ | ⟨-, rfl⟩ | ⟨-, rfl⟩
  · decide
  · decide
  · decide
  · simp [lowerToVulkanSteps, isScoped]

/-- The passes that a call adds before it first opens a scope. -/
def forerunners : String → List String
  | "lower_to_llvm" => ["cse"]
  | "lower_to_openmp" => ["convert-scf-to-openmp"]
  | "lower_to_vulkan" => ["gpu-kernel-outlining", "fold-memref-alias-ops", "convert-gpu-to-spirv"]
  | _ => []

theorem leading_composites : leading steps = forerunners name := by
  simp only [composites, List.mem_cons, Prod.mk.injEq, List.not_mem_nil, or_false] at h
  rcases h with ⟨rfl, rfl⟩ | ⟨rfl, rfl⟩ | ⟨rfl, rfl⟩ | ⟨rfl, rfl⟩
  · decide
  · decide
  · decide
  · rfl

private theorem leading_composites_ne : (leading steps).length ≠ steps.length := by
  rw [leading_composites h]
  simp only [composites, List.mem_cons, Prod.mk.injEq, List.not_mem_nil, or_false] at h
  rcases h with ⟨rfl, rfl⟩ | ⟨rfl, rfl⟩ | ⟨rfl, rfl⟩ | ⟨rfl, rfl⟩ <;>
    simp [forerunners, bufferizeSteps, lowerToLlvmSteps, lowerToOpenmpSteps, lowerToVulkanSteps]

end

private theorem namedScopes_not_composite {s : NamedScope} (h : s ∈ namedScopes) :
    s.opener ∉ compositeNames ∧ s.closer ∉ compositeNames := by
  revert s
  decide

private theorem forerunners_namedScopes {s : NamedScope} (h : s ∈ namedScopes) :
    forerunners s.opener = [] ∧ forerunners s.closer = [] := by
  revert s
  decide

private theorem wrapper_of_runSteps_ok (h : isScoped none steps = true)
    (hscope : (leading steps).length ≠ steps.length)
    (hrun : exec (runSteps steps) p = (.ok (), q)) : q.wrapper = .null := by
  cases hp : isNull p.wrapper with
  | true =>
    obtain ⟨q', hok, hnull⟩ := @exec_runSteps_ok p steps none h (isNull_iff.mp hp)
    rw [hok] at hrun
    cases hrun
    exact hnull
  | false =>
    -- in another scope the steps would have stopped at their own
    obtain ⟨outcome, hopen, hlength⟩ := exec_runSteps_open h hp
    rw [hopen] at hrun
    exact absurd (hlength (congrArg Prod.fst hrun)) hscope

theorem wrapper_of_composite {b : Bool} (hname : name ∈ compositeNames)
    (hrun : exec (invoke name call) p = (.ok b, q)) : q.wrapper = .null := by
  rw [invoke_eq] at hrun
  have hamounts := amounts_action name call
  generalize action name call = a at hrun hamounts
  cases hamounts with
  | composite hmem _ =>
    obtain ⟨⟨⟩, hsteps⟩ := exec_of_then_ok hrun
    exact wrapper_of_runSteps_ok (isScoped_composites hmem) (leading_composites_ne hmem) hsteps
  | fail _ => cases hrun
  | enter h _ => simp [h, compositeNames] at hname
  | leave _ h => simp [h, compositeNames] at hname
  | raw _ _ h => simp [h, compositeNames] at hname
  | opener h hs => exact absurd (hs ▸ hname) (namedScopes_not_composite h).1
  | closer h hs => exact absurd (hs ▸ hname) (namedScopes_not_composite h).2
  | pass h _ _ => exact absurd hname h

/-! ## Refused calls -/

private theorem eq_of_runSteps_error (h : isScoped none steps = true)
    (hrun : exec (runSteps steps) p = (.error fault, q)) :
    q = { p with passes := p.passes ++ (leading steps).map (inScope p.wrapper) } := by
  cases hp : isNull p.wrapper with
  | true =>
    obtain ⟨q', hok, -⟩ := @exec_runSteps_ok p steps none h (isNull_iff.mp hp)
    rw [hok] at hrun
    cases hrun
  | false =>
    obtain ⟨outcome, hopen, -⟩ := exec_runSteps_open h hp
    rw [hopen] at hrun
    exact (congrArg Prod.snd hrun).symm

private theorem eq_of_single_error {s : Step} (h : exec (runSteps [s]) p = (.error fault, q)) :
    q = p := by
  rcases hrun : exec s.run p with ⟨_ | ⟨⟩, t⟩
  · obtain rfl := Step.eq_of_exec_run_error hrun
    rw [runSteps, exec_bind_error hrun] at h
    cases h
    rfl
  · rw [exec_runSteps_cons hrun] at h
    cases h

/-- A call that is refused keeps the open scope and all passes.  It leaves behind exactly the passes
that it adds before it first opens a scope, in the scope that is open. -/
theorem invoke_refused (name : String) (call : CallArgs Datum) {text : String}
    (h : exec (invoke name call) p = (.error (.assertion text), q)) :
    q = { p with passes := p.passes ++ (forerunners name).map (inScope p.wrapper) } ∧
      (q = p ↔ forerunners name = []) := by
  suffices hq : q = { p with passes := p.passes ++ (forerunners name).map (inScope p.wrapper) } by
    refine ⟨hq, ?_⟩
    rw [hq]
    constructor
    · intro heq
      simpa using congrArg passes heq
    · intro hnone
      simp [hnone]
  have hkept (hnone : forerunners name = []) (hq : q = p) :
      q = { p with passes := p.passes ++ (forerunners name).map (inScope p.wrapper) } := by
    simp [hnone, hq]
  rw [invoke_eq] at h
  have hamounts := amounts_action name call
  generalize action name call = a at h hamounts
  cases hamounts with
  | fail hfault =>
    cases h
    simp at hfault
  | enter hname _ =>
    have h := exec_of_then_error h
    subst hname
    rw [exec_openScope] at h
    split at h
    · cases h
    · exact hkept rfl (congrArg Prod.snd h).symm
  | leave scope hname =>
    have h := exec_of_then_error h
    subst hname
    rw [exec_closeScope] at h
    split at h
    · cases h
    · exact hkept rfl (congrArg Prod.snd h).symm
  | raw pass options hname => cases h
  | composite hmem _ =>
    have h := exec_of_then_error h
    rw [← leading_composites hmem]
    exact eq_of_runSteps_error (isScoped_composites hmem) h
  | opener hmem hname =>
    subst hname
    exact hkept (forerunners_namedScopes hmem).1 (eq_of_single_error (exec_of_then_error h))
  | closer hmem hname =>
    subst hname
    exact hkept (forerunners_namedScopes hmem).2 (eq_of_single_error (exec_of_then_error h))
  | pass _ hspec hvalues => cases h

def openKernels : Pipeline := ⟨["gpu.module(cse)"], .str "gpu.module"⟩

theorem openKernels_refused : ∃ text q,
    exec (invoke "lower_to_vulkan" ⟨[], []⟩) openKernels = (.error (.assertion text), q) ∧
    q.passes = ["gpu.module(cse)", "gpu.module(gpu-kernel-outlining)",
      "gpu.module(fold-memref-alias-ops)", "gpu.module(convert-gpu-to-spirv)"] ∧
    q.wrapper = .str "gpu.module" := by
  have hrefused : exec (invoke "lower_to_vulkan" ⟨[], []⟩) openKernels =
      (.error (.assertion spirvScope.complaint),
        (exec (invoke "lower_to_vulkan" ⟨[], []⟩) openKernels).2) := rfl
  refine ⟨_, _, hrefused, ?_⟩
  rw [(invoke_refused "lower_to_vulkan" ⟨[], []⟩ hrefused).1]
  exact ⟨rfl, rfl⟩

/-- A call that is refused where a scope was opened before has already added a pass. -/
theorem lower_refused_after_pass : ∃ p q text, exec (invoke "FUNC" ⟨[], []⟩) {} = (.ok true, p) ∧
    exec (invoke "lower_to_llvm" ⟨[], []⟩) p = (.error (.assertion text), q) ∧
      q.passes ≠ p.passes :=
  ⟨⟨[], .str "func.func"⟩, ⟨["func.func(cse)"], .str "func.func"⟩,
    "you probably forgot to close a FUNC with a matching CNUF", rfl, rfl, by decide⟩

end Pipeline

end Polyloom
