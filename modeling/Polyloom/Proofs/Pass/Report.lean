import Polyloom.Proofs.Builder.Setting
import Polyloom.Proofs.Text.Occurrence
import Polyloom.Proofs.Text.Pieces

/-!
# Reports of pipelines that fail

A run stops at one of its stages or at none.  The handler of a failure needs the text of the module,
so only the stages after that text is read are reported.  The collected output is put back in any
case.  The scope that switches threads off is left only if the passes succeed, and then it switches
them on.
-/

namespace Polyloom

open Build Except List

/-! ## The text of a report -/

namespace Text

private theorem infix_stripFront {c : Char} (hc : isBlank c = false) {part line : List Char}
    (h : c :: part <:+: line) : c :: part <:+: stripFront line := by
  obtain ⟨front, back, rfl⟩ := h
  induction front with
  | nil =>
    simp only [nil_append, cons_append, stripFront, dropWhile_cons, hc]
    exact ⟨[], back, rfl⟩
  | cons b front ih =>
    simp only [cons_append, stripFront, dropWhile_cons]
    split
    · exact ih
    · exact ⟨b :: front, back, rfl⟩

private theorem infix_strip_lines {c : Char} (hc : isBlank c = false)
    {part : List Char} {text : String} (hline : '\n' ∉ c :: part) (h : c :: part <:+: text.toList) :
    c :: part <:+: ("\n".intercalate ((lines text).map fun line =>
      String.ofList (stripFront line.toList))).toList := by
  have hsplit : lines text = (text.toList.splitOn '\n').map String.ofList := splitOn_eq rfl text
  have hmem : c :: part <:+: ['\n'].intercalate (text.toList.splitOn '\n') := by
    rw [intercalate_splitOn]
    exact h
  rw [infix_intercalate_iff hline (by simp)] at hmem
  obtain ⟨line, hin, hpart⟩ := hmem
  have hjoined : ("\n".intercalate ((lines text).map fun line =>
      String.ofList (stripFront line.toList))).toList =
      ['\n'].intercalate ((text.toList.splitOn '\n').map stripFront) := by
    rw [String.toList_intercalate, hsplit]
    simp [Function.comp_def]
  rw [hjoined, infix_intercalate_iff hline (by simp)]
  exact ⟨stripFront line, mem_map_of_mem hin, infix_stripFront hc hpart⟩

end Text

namespace Compile

def commandFront : String := "$ mlir-opt " ++ debugOptions ++ " -pass-pipeline='"

private theorem commandFront_eq :
    ∃ rest, commandFront.toList = '$' :: rest ∧ '\n' ∉ commandFront.toList :=
  ⟨commandFront.toList.tail, by decide +kernel⟩

private theorem append_infix_append (front text middle back : String) :
    front.toList ++ text.toList <:+: (front ++ text ++ middle ++ back).toList := by
  simp only [String.toList_append, append_assoc]
  rw [← append_assoc]
  exact (prefix_append _ _).isInfix

private theorem pipeline_infix_report {pipeline : String} (h : '\n' ∉ pipeline.toList)
    (description diagnostics file : String) :
    pipeline.toList <:+: (report description diagnostics pipeline file).toList := by
  obtain ⟨rest, hfront, hnewline⟩ := commandFront_eq
  have hcommand :
      '$' :: (rest ++ pipeline.toList) <:+: (commandFront ++ pipeline ++ "' " ++ file).toList := by
    rw [← cons_append, ← hfront]
    exact append_infix_append commandFront pipeline "' " file
  have hline : '\n' ∉ '$' :: (rest ++ pipeline.toList) := by
    rw [← cons_append, ← hfront, mem_append]
    exact fun hmem => hmem.elim hnewline h
  have hreport : '$' :: (rest ++ pipeline.toList) <:+:
      (report description diagnostics pipeline file).toList := by
    unfold report
    refine Text.infix_strip_lines (by decide) hline ?_
    rw [String.toList_intercalate]
    refine (Text.infix_intercalate_iff hline (by simp) _).2 ⟨_, mem_map_of_mem ?_, hcommand⟩
    simp only [commandFront, mem_cons, true_or, or_true]
  refine IsInfix.trans ?_ hreport
  exact ⟨'$' :: rest, [], by simp⟩

end Compile

/-! ## Stages -/

namespace Session

def FailsAt (s : Session) (stage : PipelineStage) : Prop := s.failure.map Prod.fst = some stage

instance (s : Session) (stage : PipelineStage) : Decidable (s.FailsAt stage) :=
  inferInstanceAs (Decidable (_ = _))

variable {s t u : Session}

theorem Worked.failsAt_iff (h : s.Worked t) (stage : PipelineStage) :
    t.FailsAt stage ↔ s.FailsAt stage := by
  have hfailure : t.failure = s.failure := h.same .failure (by simp)
  rw [FailsAt, FailsAt, hfailure]

private theorem Worked.unwritable_eq (h : s.Worked t) (name : String) :
    t.unwritable (Compile.reportFile t.temporaryDirectory name) =
      s.unwritable (Compile.reportFile s.temporaryDirectory name) := by
  have hdirectory : t.temporaryDirectory = s.temporaryDirectory :=
    h.same .temporaryDirectory (by simp)
  have hfiles : t.unwritable = s.unwritable := h.same .unwritable (by simp)
  rw [hdirectory, hfiles]

end Session

namespace Compile

variable {α β : Type} {x : Build α} {f : α → Build β}
  {stages stages' : List PipelineStage} {s : Session}

/-- A step that fails where one of the given stages does, and changes no flag. -/
def StopsAt (x : Build α) (stages : List PipelineStage) : Prop :=
  ∀ s, ∃ r t, x.exec s = (r, t) ∧ s.Worked t ∧ (∀ g, t.flag g = s.flag g) ∧
    (r.isOk = true ↔ ∀ stage ∈ stages, ¬ s.FailsAt stage)

theorem stopsAt_pure (a : α) : StopsAt (pure a) [] := fun s =>
  ⟨.ok a, s, rfl, .refl s, fun _ => rfl, by simp [Except.isOk, Except.toBool]⟩

theorem stopsAt_get : StopsAt get [] := fun s =>
  ⟨.ok s, s, rfl, .refl s, fun _ => rfl, by simp [Except.isOk, Except.toBool]⟩

theorem stopsAt_record (event : Event) : StopsAt (record event) [] := fun s =>
  ⟨.ok (), _, rfl, Session.worked_of_eq rfl,
    fun g => by cases g <;> rfl, by simp [Except.isOk, Except.toBool]⟩

private theorem stopsAt_print (text : String) : StopsAt (print text) [] := fun s =>
  ⟨.ok (), _, rfl, Session.worked_of_eq rfl,
    fun g => by cases g <;> rfl, by simp [Except.isOk, Except.toBool]⟩

theorem stopsAt_stage (here : PipelineStage) (fault : String → Fault) :
    StopsAt (stage here fault) [here] := by
  intro s
  unfold stage
  rw [exec_bind_ok (exec_get s)]
  rcases hfail : s.failure with _ | ⟨failing, text⟩
  · exact ⟨.ok (), s, rfl, .refl s, fun _ => rfl,
      by simp [Session.FailsAt, hfail, Except.isOk, Except.toBool]⟩
  · by_cases heq : failing = here
    · exact ⟨.error (fault text), s, by simp [heq], .refl s, fun _ => rfl,
        by simp [Session.FailsAt, hfail, heq, Except.isOk, Except.toBool]⟩
    · exact ⟨.ok (), s, by simp [heq], .refl s, fun _ => rfl,
        by simp [Session.FailsAt, hfail, heq, Except.isOk, Except.toBool]⟩

theorem StopsAt.bind (hx : StopsAt x stages) (hf : ∀ a, StopsAt (f a) stages') :
    StopsAt (x >>= f) (stages ++ stages') := by
  intro s
  obtain ⟨r, t, hr, hwork, hflag, hok⟩ := hx s
  rw [List.forall_mem_append]
  cases r with
  | error fault =>
    refine ⟨.error fault, t, exec_bind_error hr, hwork, hflag, ?_⟩
    simp only [← hok, Except.isOk, Except.toBool, Bool.false_eq_true, false_and]
  | ok a =>
    obtain ⟨r, u, hu, hwork', hflag', hok'⟩ := hf a t
    refine ⟨r, u, (exec_bind_ok hr).trans hu, hwork.trans hwork',
      fun g => (hflag' g).trans (hflag g), ?_⟩
    rw [hok', ← hok]
    simp [hwork.failsAt_iff, Except.isOk, Except.toBool]

private theorem stopsAt_now (v : Value) :
    StopsAt (now v) [] := stopsAt_get.bind fun _ => stopsAt_pure _

def perform (id : Nat) : Build Unit := do
  record (.runPipeline id)
  stage .run .failure

theorem stopsAt_perform (id : Nat) : StopsAt (perform id) [.run] :=
  (stopsAt_record _).bind fun _ => stopsAt_stage _ _

def performPrinting (id : Nat) : Build Unit := do
  record .enableIrPrinting
  stage .printing .failure
  perform id

private theorem stopsAt_performPrinting (id : Nat) :
    StopsAt (performPrinting id) [.printing, .run] :=
  (stopsAt_record _).bind fun _ => (stopsAt_stage _ _).bind fun _ => stopsAt_perform id

def prepare (pipeline : Value) (printPipeline : Bool) : Build Unit := do
  record (.parsePipeline (← now pipeline))
  stage .parse .badValue
  if printPipeline then print (← now pipeline).text

private theorem stopsAt_prepare (pipeline : Value) (printPipeline : Bool) :
    StopsAt (prepare pipeline printPipeline) [.parse] := by
  have hprint : StopsAt (do if printPipeline then print (← now pipeline).text) [] := by
    cases printPipeline with
    | false => exact stopsAt_pure _
    | true => exact (stopsAt_now pipeline).bind fun _ => stopsAt_print _
  exact (stopsAt_now pipeline).bind fun _ => (stopsAt_record _).bind fun _ =>
    (stopsAt_stage _ _).bind fun _ => hprint

private theorem runPasses_eq (id : Nat) (pipeline : Value) (irPrinting printPipeline : Bool) :
    runPasses id pipeline irPrinting printPipeline = (do
      prepare pipeline printPipeline
      if irPrinting then Setting.within .disableMultithreading .none (performPrinting id)
      else perform id) := by
  unfold runPasses prepare
  cases printPipeline <;> simp <;> rfl

private theorem stopsAt_readText : StopsAt readText [.context, .asm] := by
  have hread : StopsAt (do return (← get).asm) [] := stopsAt_get.bind fun _ => stopsAt_pure _
  exact (stopsAt_stage _ _).bind fun _ => (stopsAt_record _).bind fun _ =>
    (stopsAt_stage _ _).bind fun _ => hread

def threads : Flag := .multithreading 0

/-- Threads are on after a scope without them, unless a fault passed through it: then they are off.
-/
private theorem exec_within_threads {x : Build Unit} (hx : StopsAt x stages)
    (hs : (s.flag threads).isSome) :
    ∃ r t, (Setting.within .disableMultithreading .none x).exec s = (r, t) ∧ s.Worked t ∧
      (r.isOk = true ↔ ∀ stage ∈ stages, ¬ s.FailsAt stage) ∧ t.flag threads = some r.isOk := by
  have hflag : Setting.flag .disableMultithreading .none = some threads := rfl
  obtain ⟨e, henter, hoff⟩ := Setting.exec_apply hflag hs true
  obtain ⟨r, t, hr, hwork, hkeep, hok⟩ := hx e
  have het := hoff.worked.trans hwork
  have hoffFlag : e.flag threads = some false := by simp [hoff.flag_eq, Setting.value]
  unfold Setting.within
  rw [exec_bind_ok henter]
  simp only [hoff.worked.failsAt_iff] at hok
  cases r with
  | error fault =>
    refine ⟨.error fault, t, exec_bind_error hr, het, hok, ?_⟩
    rw [hkeep threads, hoffFlag]
    rfl
  | ok a =>
    have ht : (t.flag threads).isSome := by simp [hkeep threads, hoffFlag]
    obtain ⟨u, hleave, hon⟩ := Setting.exec_apply hflag ht false
    refine ⟨.ok a, u, ?_, het.trans hon.worked, hok, ?_⟩
    · rw [exec_bind_ok hr, exec_bind_ok hleave]
      rfl
    · simp [hon.flag_eq, Setting.value, Except.isOk, Except.toBool]

private theorem exec_runPasses (id : Nat) (pipeline : Value)
    (irPrinting printPipeline : Bool) (hs : (s.flag threads).isSome) :
    ∃ r t, (runPasses id pipeline irPrinting printPipeline).exec s = (r, t) ∧
      s.Worked t ∧ (r.isOk = true ↔
        ¬ s.FailsAt .parse ∧ (irPrinting = true → ¬ s.FailsAt .printing) ∧ ¬ s.FailsAt .run) ∧
      t.flag threads =
        if irPrinting = true ∧ ¬ s.FailsAt .parse then some r.isOk else s.flag threads := by
  rw [runPasses_eq]
  obtain ⟨r, t, hr, hwork, hkeep, hok⟩ := stopsAt_prepare pipeline printPipeline s
  rw [List.forall_mem_singleton] at hok
  cases r with
  | error fault =>
    have hparse : s.FailsAt .parse := by simpa [Except.isOk, Except.toBool] using hok
    refine ⟨.error fault, t, exec_bind_error hr, hwork, ?_, ?_⟩
    · simp [hparse, Except.isOk, Except.toBool]
    · simp [hparse, hkeep]
  | ok a =>
    have hparse : ¬ s.FailsAt .parse := by simpa [Except.isOk, Except.toBool] using hok
    rw [exec_bind_ok hr]
    cases irPrinting with
    | false =>
      obtain ⟨r, u, hu, hwork', hkeep', hok'⟩ := stopsAt_perform id t
      refine ⟨r, u, hu, hwork.trans hwork', ?_, ?_⟩
      · rw [hok']
        simp [hparse, hwork.failsAt_iff]
      · simp [hkeep', hkeep]
    | true =>
      have ht : (t.flag threads).isSome := by rwa [hkeep threads]
      obtain ⟨r, u, hu, hwork', hok', hflag⟩ := exec_within_threads (stopsAt_performPrinting id) ht
      refine ⟨r, u, hu, hwork.trans hwork', ?_, ?_⟩
      · rw [hok']
        simp [hparse, hwork.failsAt_iff]
      · simp [hflag, hparse]

end Compile

/-! ## Whole runs -/

namespace Session

def moduleName (s : Session) (id : Nat) : Except Fault String :=
  Compile.nameIn (s.op id).attributes

/-- The module has a name, and a file of that name can be written. -/
def Reportable (s : Session) (id : Nat) : Prop :=
  ∃ name, s.moduleName id = .ok name ∧
    s.unwritable (Compile.reportFile s.temporaryDirectory name) = none

/-- The stage that a run stops at, if there is one.  Printing is a stage only if it is asked for. -/
def stopsAt (s : Session) (irPrinting : Bool) : Option PipelineStage :=
  (s.failure.map Prod.fst).filter fun stage => stage ≠ .printing || irPrinting

/-- There is a default context, and opening a file is not what reports a failure of passes. -/
structure Ready (s : Session) : Prop where
  threads_isSome : (s.flag Compile.threads).isSome
  unwritable_ne : ∀ file text, s.unwritable file ≠ some (.compilation text)

variable {s : Session} {irPrinting : Bool}

theorem stopsAt_eq_some_iff {stage : PipelineStage} : s.stopsAt irPrinting = some stage ↔
    s.FailsAt stage ∧ (stage = .printing → irPrinting = true) := by
  simp [stopsAt, FailsAt, Option.filter_eq_some_iff, imp_iff_not_or]

private theorem failsAt_iff_of_stopsAt {stage : PipelineStage}
    (h : s.stopsAt irPrinting = some stage) (other : PipelineStage) :
    s.FailsAt other ↔ other = stage := by
  have hstage : s.failure.map Prod.fst = some stage := (stopsAt_eq_some_iff.1 h).1
  simp [FailsAt, hstage, eq_comm]

theorem stopsAt_eq_none_iff : s.stopsAt irPrinting = none ↔
    ¬ s.FailsAt .context ∧ ¬ s.FailsAt .asm ∧ ¬ s.FailsAt .parse ∧
      (irPrinting = true → ¬ s.FailsAt .printing) ∧ ¬ s.FailsAt .run := by
  rcases hfail : s.failure with _ | ⟨stage, text⟩
  · simp [stopsAt, FailsAt, hfail]
  · cases stage <;> cases irPrinting <;> simp [stopsAt, FailsAt, hfail]

end Session

structure PipelineRun where
  module : Nat
  pipeline : String
  one_line : '\n' ∉ pipeline.toList
  description : Value
  irPrinting : Bool
  printPipeline : Bool

namespace PipelineRun

open Compile

def exec (run : PipelineRun) (s : Session) : Except Fault Value × Session :=
  (runPipeline (.module run.module) (.str run.pipeline) run.description
    run.irPrinting run.printPipeline).exec s

variable {s : Session}

private theorem exec_moduleName (id : Nat) (s : Session) :
    (moduleName id).exec s = (s.moduleName id, s) := by
  unfold moduleName Session.moduleName
  have hop : (op id).exec s = (.ok (s.op id), s) := rfl
  rw [exec_bind_ok hop]
  cases nameIn (s.op id).attributes <;> rfl

private theorem ne_compilation_of_nameIn {attributes : List (String × Value)} {fault : Fault}
    (h : nameIn attributes = .error fault) (text : String) : fault ≠ .compilation text := by
  unfold nameIn at h
  split at h <;> cases h
  exact nofun

private theorem exec_truth (v : Value) (s : Session) : ∃ b, (truth v).exec s = (.ok b, s) := by
  cases v <;> exact ⟨_, rfl⟩

private theorem exec_attempt {α : Type} {x : Build α} {r : Except Fault α}
    {t : Session} (h : x.exec s = (r, t)) :
    (attempt x).exec s = (.ok r, t) := by
  change (ok (x.exec s).1, (x.exec s).2) = _
  rw [h]

theorem exec_collectIn (place : Option String) (s : Session) :
    (collectIn place).exec s = (.ok (), { s with collected := place }) := rfl

theorem exec_openReport {name : String}
    (h : s.unwritable (reportFile s.temporaryDirectory name) = none) :
    (openReport name).exec s = (.ok (reportFile s.temporaryDirectory name), s) := by
  unfold openReport
  rw [exec_bind_ok (exec_get s)]
  simp [h]

theorem exec_openReport_error {name : String} {fault : Fault}
    (h : s.unwritable (reportFile s.temporaryDirectory name) = some fault) :
    (openReport name).exec s = (.error fault, s) := by
  unfold openReport
  rw [exec_bind_ok (exec_get s)]
  simp [h]

private theorem exec_reportFailure (run : PipelineRun) (name : String) (before : Option String)
    (fault : Fault) (hs : ∀ file text, s.unwritable file ≠ some (.compilation text)) :
    ∃ fault', (reportFailure name (.str run.pipeline) run.description before fault).exec s =
        (.error fault', { s with collected := before }) ∧
      ((∃ text, fault' = .compilation text ∧ run.pipeline.toList <:+: text.toList) ↔
        s.unwritable (reportFile s.temporaryDirectory name) = none) := by
  unfold reportFailure
  rw [exec_bind_ok (exec_get s)]
  simp only
  rw [exec_bind_ok (exec_collectIn before s)]
  cases hfile : s.unwritable (reportFile s.temporaryDirectory name) with
  | some stopped =>
    refine ⟨stopped, exec_bind_error (exec_openReport_error hfile), ?_⟩
    have hne : ∀ text, stopped ≠ .compilation text := fun text h =>
      hs (reportFile s.temporaryDirectory name) text (by rw [hfile, h])
    simp [hne]
  | none =>
    have hopen : (openReport name).exec { s with collected := before } = _ := exec_openReport hfile
    obtain ⟨given, hgiven⟩ := exec_truth run.description { s with collected := before }
    rw [exec_bind_ok hopen, exec_bind_ok hgiven, exec_bind_ok (exec_get _)]
    refine ⟨_, rfl, ?_⟩
    simp only [iff_true]
    exact ⟨_, rfl, pipeline_infix_report run.one_line _ _ _⟩

inductive Ends (run : PipelineRun) (s : Session) : Except Fault Value → Option Bool → Prop where
  /-- The name of the module is no text, so nothing was tried. -/
  | unnamed (fault : Fault) (name : s.moduleName run.module = .error fault)
      (other : ∀ text, fault ≠ .compilation text) : Ends run s (.error fault) (s.flag threads)
  /-- Nothing was read that a report could use. -/
  | unread (fault : Fault) (stage : s.FailsAt .context ∨ s.FailsAt .asm)
      (other : ∀ text, fault ≠ .compilation text)
      (opened : s.Reportable run.module → fault = .unassigned) :
      Ends run s (.error fault) (s.flag threads)
  | done (name : ∃ name, s.moduleName run.module = .ok name)
      (stops : s.stopsAt run.irPrinting = none) :
      Ends run s (.ok (.module run.module)) (if run.irPrinting then some true else s.flag threads)
  | failed (fault : Fault) (name : ∃ name, s.moduleName run.module = .ok name)
      (context : ¬ s.FailsAt .context) (asm : ¬ s.FailsAt .asm)
      (stops : s.stopsAt run.irPrinting ≠ none)
      (report : (∃ text, fault = .compilation text ∧ run.pipeline.toList <:+: text.toList) ↔
        s.Reportable run.module) :
      Ends run s (.error fault)
        (if run.irPrinting = true ∧ ¬ s.FailsAt .parse then some false else s.flag threads)

private theorem reportable_iff {run : PipelineRun} {name : String}
    (h : s.moduleName run.module = .ok name) : s.Reportable run.module ↔
      s.unwritable (reportFile s.temporaryDirectory name) = none := by
  simp [Session.Reportable, h]

private theorem exec_ends (run : PipelineRun) (h : s.Ready) : ∃ r t, run.exec s = (r, t) ∧
    t.collected = s.collected ∧ run.Ends s r (t.flag threads) := by
  have hid : (moduleId (.module run.module)).exec s = (.ok run.module, s) := rfl
  have hread := exec_moduleName run.module s
  unfold exec runPipeline
  rw [exec_bind_ok hid]
  cases hname : s.moduleName run.module with
  | error fault =>
    rw [hname] at hread
    exact ⟨.error fault, s, exec_bind_error hread, rfl,
      .unnamed fault hname (ne_compilation_of_nameIn hname)⟩
  | ok name =>
    rw [hname] at hread
    rw [exec_bind_ok hread, exec_bind_ok (exec_get s)]
    simp only
    rw [exec_bind_ok (exec_collectIn (some "") s)]
    obtain ⟨r, t, htext, hwork, hkeep, hok⟩ := stopsAt_readText { s with collected := some "" }
    rw [List.forall_mem_cons, List.forall_mem_singleton] at hok
    rw [exec_bind_ok (exec_attempt htext)]
    cases r with
    | error fault =>
      have hearly : s.FailsAt .context ∨ s.FailsAt .asm := by
        by_contra hnone
        exact absurd (hok.2 (not_or.1 hnone)) (by simp [Except.isOk, Except.toBool])
      have hend : ({ t with collected := s.collected } : Session).flag threads = s.flag threads :=
        hkeep threads
      have hopened := hwork.unwritable_eq name
      cases hfile : s.unwritable (reportFile s.temporaryDirectory name) with
      | some stopped =>
        have hopen : (openReport name).exec { t with collected := s.collected } = _ :=
          exec_openReport_error (hopened.trans hfile)
        refine ⟨.error stopped, { t with collected := s.collected },
          (exec_bind_ok (exec_collectIn s.collected t)).trans (exec_bind_error hopen), rfl, ?_⟩
        rw [hend]
        refine .unread stopped hearly (fun text heq => h.unwritable_ne _ text (heq ▸ hfile))
          fun hreportable => ?_
        cases hfile.symm.trans ((reportable_iff hname).1 hreportable)
      | none =>
        have hopen : (openReport name).exec { t with collected := s.collected } = _ :=
          exec_openReport (hopened.trans hfile)
        refine ⟨.error .unassigned, { t with collected := s.collected },
          (exec_bind_ok (exec_collectIn s.collected t)).trans (exec_bind_ok hopen), rfl, ?_⟩
        rw [hend]
        exact .unread .unassigned hearly (fun _ => nofun) fun _ => rfl
    | ok text =>
      obtain ⟨hcontext, hasm⟩ := hok.1 rfl
      have hthreads : (t.flag threads).isSome := by
        rw [hkeep threads]
        exact h.threads_isSome
      obtain ⟨r, u, hrun, hwork', hpasses, hflag⟩ :=
        exec_runPasses run.module (.str run.pipeline) run.irPrinting run.printPipeline hthreads
      simp only [hwork.failsAt_iff] at hpasses hflag
      rw [hkeep threads] at hflag
      cases r with
      | ok done =>
        have hlate := hpasses.1 rfl
        have hend : ({ u with collected := s.collected } : Session).flag threads =
            if run.irPrinting then some true else s.flag threads := by
          refine hflag.trans ?_
          simp only [hlate.1, not_false_eq_true, and_true]
          rfl
        refine ⟨.ok (.module run.module), { u with collected := s.collected },
          exec_bind_ok (exec_attempt hrun), rfl, ?_⟩
        rw [hend]
        exact .done ⟨name, hname⟩ (Session.stopsAt_eq_none_iff.2 ⟨hcontext, hasm, hlate⟩)
      | error fault =>
        have hu : ({ s with collected := some "" } : Session).Worked u := hwork.trans hwork'
        have hready : ∀ file text, u.unwritable file ≠ some (.compilation text) := by
          rw [show u.unwritable = s.unwritable from hu.same .unwritable (by simp)]
          exact h.unwritable_ne
        obtain ⟨fault', hreport, hiff⟩ := exec_reportFailure run name s.collected fault hready
        rw [hu.unwritable_eq, ← reportable_iff hname] at hiff
        have hstops : s.stopsAt run.irPrinting ≠ none := fun hnone => by
          have hlate := (Session.stopsAt_eq_none_iff.1 hnone).2.2
          exact absurd (hpasses.2 hlate) (by simp [Except.isOk, Except.toBool])
        refine ⟨.error fault', { u with collected := s.collected },
          (exec_bind_ok (exec_attempt hrun)).trans hreport, rfl, ?_⟩
        have hend : ({ u with collected := s.collected } : Session).flag threads =
            if run.irPrinting = true ∧ ¬ s.FailsAt .parse then
              some false else s.flag threads := hflag
        rw [hend]
        exact .failed fault' ⟨name, hname⟩ hcontext hasm hstops hiff

/-- A run that stops at no stage returns the module, and every other one the report of a failure
that has the pipeline in it. -/
def Reports (run : PipelineRun) (s : Session) : Prop :=
  (s.stopsAt run.irPrinting = none → (run.exec s).1 = .ok (.module run.module)) ∧
  (s.stopsAt run.irPrinting ≠ none → ∃ text, (run.exec s).1 = .error (.compilation text) ∧
    run.pipeline.toList <:+: text.toList)

/-- Error output is collected where it was, and threads are as they were. -/
def CleansUp (run : PipelineRun) (s : Session) : Prop :=
  (run.exec s).2.collected = s.collected ∧ (run.exec s).2.flag threads = s.flag threads

/-- A run reports and cleans up if and only if the module has a name, a stage that fails comes after
the text was read, a file can be written for the report, and threads had the value that the printing
of programs leaves behind: on if all passes are done, and off if they fail.  The collected output is
put back in any case.  Where the file can be opened, a stage that fails before the text is read ends
in a fault of the handler itself. -/
theorem reports_and_cleans_up_iff (run : PipelineRun) (s : Session) (h : s.Ready) :
    (run.Reports s ∧ run.CleansUp s ↔
      (∃ name, s.moduleName run.module = .ok name) ∧
      (∀ stage, s.stopsAt run.irPrinting = some stage →
        stage ≠ .context ∧ stage ≠ .asm ∧ s.Reportable run.module) ∧
      (run.irPrinting = true → s.stopsAt run.irPrinting ≠ some .parse →
        s.flag threads = some (s.stopsAt run.irPrinting).isNone)) ∧
    (run.exec s).2.collected = s.collected ∧
    (s.FailsAt .context ∨ s.FailsAt .asm → s.Reportable run.module →
      (run.exec s).1 = .error .unassigned) := by
  obtain ⟨r, t, hrun, hcollected, hends⟩ := exec_ends run h
  simp only [Reports, CleansUp, hrun, hcollected, true_and]
  generalize t.flag threads = after at hends ⊢
  cases hends with
  | unnamed fault hname other =>
    refine ⟨⟨fun hboth => ?_, fun hall => ?_⟩, fun _ hreportable => ?_⟩
    · cases hstops : s.stopsAt run.irPrinting with
      | none => cases hboth.1.1 hstops
      | some stage =>
        obtain ⟨text, htext, -⟩ := hboth.1.2 (by simp [hstops])
        exact absurd (error.inj htext) (other text)
    · obtain ⟨name, hok⟩ := hall.1
      cases hname.symm.trans hok
    · obtain ⟨name, hok, -⟩ := hreportable
      cases hname.symm.trans hok
  | unread fault early other opened =>
    have hstops : ∃ stage, s.stopsAt run.irPrinting = some stage ∧
        (stage = .context ∨ stage = .asm) := by
      rcases early with hfails | hfails
      · exact ⟨.context, Session.stopsAt_eq_some_iff.2 ⟨hfails, by simp⟩, .inl rfl⟩
      · exact ⟨.asm, Session.stopsAt_eq_some_iff.2 ⟨hfails, by simp⟩, .inr rfl⟩
    obtain ⟨stage, hstage, hearly⟩ := hstops
    refine ⟨⟨fun hboth => ?_, fun hall => ?_⟩, fun _ hreportable => by rw [opened hreportable]⟩
    · obtain ⟨text, htext, -⟩ := hboth.1.2 (by simp [hstage])
      exact absurd (error.inj htext) (other text)
    · obtain ⟨hcontext, hasm, -⟩ := hall.2.1 stage hstage
      exact (hearly.elim hcontext hasm).elim
  | done name stops =>
    obtain ⟨hcontext, hasm, -⟩ := Session.stopsAt_eq_none_iff.1 stops
    refine ⟨?_, fun early => (early.elim hcontext hasm).elim⟩
    cases hprinting : run.irPrinting with
    | false => simp [name, hprinting ▸ stops]
    | true => simp [name, hprinting ▸ stops, eq_comm (b := some true)]
  | failed fault name hcontext hasm stops report =>
    obtain ⟨stage, hstage⟩ := Option.ne_none_iff_exists'.1 stops
    have hparse := Session.failsAt_iff_of_stopsAt hstage .parse
    refine ⟨?_, fun early => (early.elim hcontext hasm).elim⟩
    rw [Session.failsAt_iff_of_stopsAt hstage, eq_comm] at hcontext hasm
    have hreports : (∃ text, (error fault : Except Fault Value) = .error (.compilation text) ∧
        run.pipeline.toList <:+: text.toList) ↔ s.Reportable run.module := by
      simpa only [error.injEq] using report
    simp only [name, hstage, hreports, hparse, ne_eq, reduceCtorEq,
      not_false_eq_true, false_implies,
      forall_const, true_and, Option.some.injEq, forall_eq', hcontext, hasm, Option.isNone_some]
    refine and_congr_right fun _ => ?_
    by_cases hcondition : run.irPrinting = true ∧ ¬ PipelineStage.parse = stage
    · rw [if_pos hcondition]
      simp [hcondition.1, Ne.symm hcondition.2, eq_comm]
    · rw [if_neg hcondition]
      simp only [true_iff]
      exact fun hprinting hne => (hcondition ⟨hprinting, fun heq => hne heq.symm⟩).elim

def printing : PipelineRun := ⟨0, "builtin.module(cse)", by decide, .none, true, false⟩

theorem printing_cleans_up_without_threads : let s : Session :=
  { objects := [.context ⟨false, false⟩], failure := some (.run, "no such pass") }
    s.Ready ∧ printing.Reports s ∧ printing.CleansUp s := by
  intro s
  have hready : s.Ready := ⟨rfl, fun _ _ h => by cases h⟩
  have hstops : s.stopsAt true = some .run := rfl
  refine ⟨hready, (reports_and_cleans_up_iff printing s hready).1.2
    ⟨⟨_, rfl⟩, fun stage hstage => ?_, fun _ _ => rfl⟩⟩
  cases hstops.symm.trans hstage
  exact ⟨by decide, by decide, "UnnammedModule", rfl, rfl⟩

/-- Threads that were on are off after a failure, and a text that cannot be read is not reported. -/
theorem printing_leaves_threads_off :
    ({ failure := some (.run, "no such pass") } : Session).flag threads = some true ∧
      (printing.exec { failure := some (.run, "no such pass") }).2.flag threads = some false ∧
      (printing.exec { failure := some (.asm, "no text") }).1 = .error .unassigned :=
  ⟨rfl, by decide +kernel, rfl⟩

end PipelineRun

end Polyloom
