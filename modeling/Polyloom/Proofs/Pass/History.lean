import Polyloom.Proofs.Pass.Record

/-!
# Histories of pipelines

Pipelines are made, called and added to each other under their names.  Each has a list of passes
that no other one has, so it keeps to a record of its own, and its text tells the record.
-/

namespace Polyloom.PipelineSession

open Stateful Element Function Pipeline List

/-! ## Names -/

section

variable {name other : String} {p : SharedPipeline} {pipelines : List (String × SharedPipeline)}

private theorem lookup_put_eq_some {q : SharedPipeline}
    (h : (Table.put name p pipelines).lookup other = some q) :
    other = name ∧ q = p ∨ other ≠ name ∧ pipelines.lookup other = some q := by
  by_cases hname : other = name
  · subst hname
    rw [Table.lookup_put_self] at h
    cases h
    exact .inl ⟨rfl, rfl⟩
  · rw [Table.lookup_put_of_ne hname] at h
    exact .inr ⟨hname, h⟩

end

/-! ## Commands -/

inductive Command where
  | make (name : String)
  | call (name method : String) (args : CallArgs Datum)
  | extend (name other : String)

abbrev History := String → Record

namespace Command

def run : Command → PipelineStep Unit
  | .make name => create name [] .null
  | .call name method args => do
    match (← invoke name method args).result with
    | .ok _ => return ()
    | .error fault => throw fault
  | .extend name other => addInPlace name other

def note (h : History) : Command → History
  | .make name => update h name {}
  | .call name method args => update h name ((h name).perform (action method args))
  | .extend name other =>
    update h name { h name with elements := (h name).elements ++ (h other).elements }

def isAdmissible : Command → Bool
  | .call _ method args => Pipeline.isAdmissible method args
  | _ => true

end Command

def runAll : List Command → PipelineStep Unit
  | [] => return ()
  | c :: rest => do
    c.run
    runAll rest

def history (commands : List Command) : History := commands.foldl Command.note fun _ => {}

/-! ## Effects -/

variable {s t : PipelineSession} {name other : String} {p q : SharedPipeline}

theorem exec_find_eq_ok :
    exec (find name) s = (.ok p, t) ↔ s.pipelines.lookup name = some p ∧ t = s := by
  rw [find, exec_bind_ok (exec_get s)]
  cases s.pipelines.lookup name <;> simp [eq_comm]

def replace (s : PipelineSession) (name : String) (list : Nat)
    (after : Pipeline) : PipelineSession :=
  { s with lists := s.lists.set list after.passes
           pipelines := Table.put name ⟨list, after.wrapper⟩ s.pipelines }

private theorem exec_call {method : String} {args : CallArgs Datum}
    (h : exec (Command.call name method args).run s = (.ok (), t)) :
    ∃ p b after, s.pipelines.lookup name = some p ∧
      exec (Pipeline.invoke method args) (s.view p) = (.ok b, after) ∧
        t = s.replace name p.list after := by
  rw [Command.run, exec_bind_eq_ok] at h
  obtain ⟨outcome, u, hinvoke, hresult⟩ := h
  rw [invoke, exec_bind_eq_ok] at hinvoke
  obtain ⟨p, s', hfind, hinvoke⟩ := hinvoke
  obtain ⟨hp, rfl⟩ := exec_find_eq_ok.mp hfind
  rw [exec_bind_ok (exec_get s')] at hinvoke
  rcases hcall : exec (Pipeline.invoke method args) (s'.view p) with ⟨result, after⟩
  have hcall' : (Pipeline.invoke method args).run.run (s'.view p) = (result, after) := hcall
  simp only [hcall'] at hinvoke
  cases hinvoke
  cases result with
  | error fault => cases hresult
  | ok b =>
    cases hresult
    exact ⟨p, b, after, hp, hcall, rfl⟩

private theorem exec_extend (h : exec (addInPlace name other) s = (.ok (), t)) :
    ∃ p q, s.pipelines.lookup name = some p ∧ s.pipelines.lookup other = some q ∧
      t = { s with lists := s.lists.modify p.list (· ++ s.passesOf q) } := by
  rw [addInPlace, exec_bind_eq_ok] at h
  obtain ⟨p, s', hp, h⟩ := h
  obtain ⟨hp, rfl⟩ := exec_find_eq_ok.mp hp
  rw [pipeline, exec_bind_eq_ok] at h
  obtain ⟨v, u, hview, h⟩ := h
  rw [exec_bind_eq_ok] at hview
  obtain ⟨q, u', hq, hview⟩ := hview
  obtain ⟨hq, rfl⟩ := exec_find_eq_ok.mp hq
  cases hview
  cases h
  exact ⟨p, q, hp, hq, rfl⟩

/-! ## Every pipeline keeps to its record -/

structure Keeps (s : PipelineSession) (h : History) : Prop where
  within : ∀ {name p}, s.pipelines.lookup name = some p → p.list < s.lists.length
  /-- Pipelines of different names have different lists. -/
  apart : ∀ {a b p q}, s.pipelines.lookup a = some p → s.pipelines.lookup b = some q →
    p.list = q.list → a = b
  stands : ∀ {name p}, s.pipelines.lookup name = some p → (s.view p).Stands (h name)

variable {h : History} {r : Record}

private theorem keeps_start : Keeps {} fun _ => {} := by
  have hlookup {name : String} {p : SharedPipeline}
      (h : ({} : PipelineSession).pipelines.lookup name = some p) :
      name = "p" ∧ p = ⟨0, .null⟩ := by
    simp only [lookup_cons, lookup_nil] at h
    split at h
    · rename_i heq
      cases h
      exact ⟨eq_of_beq heq, rfl⟩
    · cases h
  refine ⟨?_, ?_, ?_⟩
  · intro name p h
    rw [(hlookup h).2]
    decide
  · intro a b p q ha hb _
    rw [(hlookup ha).1, (hlookup hb).1]
  · intro name p h
    rw [(hlookup h).2]
    exact ⟨rfl, rfl, by simp, by simp⟩

theorem Keeps.rebind (hs : Keeps s h) {lists : List (List String)} {list : Nat}
    {wrapper : Datum} (hin : list < lists.length) (hmore : s.lists.length ≤ lists.length)
    (hothers : ∀ {a q}, a ≠ name → s.pipelines.lookup a = some q → q.list ≠ list ∧
      lists[q.list]? = s.lists[q.list]?) (hstands : Stands ⟨(lists[list]?).getD [], wrapper⟩ r) :
    Keeps ⟨lists, Table.put name ⟨list, wrapper⟩ s.pipelines⟩ (update h name r) where
  within := by
    intro a p ha
    rcases lookup_put_eq_some ha with ⟨-, rfl⟩ | ⟨-, ha⟩
    · exact hin
    · exact Nat.lt_of_lt_of_le (hs.within ha) hmore
  apart := by
    intro a b p q ha hb heq
    rcases lookup_put_eq_some ha with ⟨rfl, rfl⟩ | ⟨hne, hold⟩ <;>
      rcases lookup_put_eq_some hb with ⟨rfl, rfl⟩ | ⟨hne', hold'⟩
    · rfl
    · exact absurd heq.symm (hothers hne' hold').1
    · exact absurd heq (hothers hne hold).1
    · exact hs.apart hold hold' heq
  stands := by
    intro a p ha
    rcases lookup_put_eq_some ha with ⟨rfl, rfl⟩ | ⟨hne, ha⟩
    · rw [update_self]
      exact hstands
    · -- the list of another name is as it was
      rw [update_of_ne hne, view, passesOf, (hothers hne ha).2]
      exact hs.stands ha

theorem Keeps.replace (hs : Keeps s h) (hp : s.pipelines.lookup name = some p) {after : Pipeline}
    (hafter : after.Stands r) : Keeps (s.replace name p.list after) (update h name r) := by
  refine hs.rebind (by simpa using hs.within hp) (by simp) ?_ ?_
  · intro a q hne hq
    have hlist : q.list ≠ p.list := fun heq => hne (hs.apart hq hp heq)
    exact ⟨hlist, getElem?_set_ne (Ne.symm hlist)⟩
  · rw [getElem?_set_self (hs.within hp)]
    exact hafter

private theorem Keeps.make (hs : Keeps s h) : Keeps { s with
    lists := s.lists ++ [[]], pipelines := Table.put name ⟨s.lists.length, .null⟩ s.pipelines }
    (update h name {}) := by
  refine hs.rebind (by simp) (by simp) ?_ ?_
  · intro a q _ hq
    have hin := hs.within hq
    exact ⟨Nat.ne_of_lt hin, getElem?_append_left hin⟩
  · rw [getElem?_append_right (Nat.le_refl _), Nat.sub_self]
    exact ⟨rfl, rfl, by simp, by simp⟩

private theorem Keeps.extend (hs : Keeps s h) (hp : s.pipelines.lookup name = some p)
    (hq : s.pipelines.lookup other = some q) :
    Keeps { s with lists := s.lists.modify p.list (· ++ s.passesOf q) }
      (update h name { h name with elements := (h name).elements ++ (h other).elements }) := by
  -- adding in place is replacing the list, since the name keeps its list and its scope
  have heq : { s with lists := s.lists.modify p.list (· ++ s.passesOf q) } =
      s.replace name p.list ⟨s.passesOf p ++ s.passesOf q, p.wrapper⟩ := by
    rw [PipelineSession.replace, Table.put_of_lookup hp, modify_eq_set]
    simp [passesOf, getElem?_eq_getElem (hs.within hp)]
  rw [heq]
  exact hs.replace hp ((hs.stands hp).append (hs.stands hq))

private theorem Keeps.step {c : Command} (hs : Keeps s h) (hc : c.isAdmissible = true)
    (hrun : exec c.run s = (.ok (), t)) : Keeps t (c.note h) := by
  cases c with
  | make name =>
    cases hrun
    exact hs.make
  | call name method args =>
    obtain ⟨p, b, after, hp, hcall, rfl⟩ := exec_call hrun
    exact hs.replace hp ((hs.stands hp).perform hc hcall)
  | extend name other =>
    obtain ⟨p, q, hp, hq, rfl⟩ := exec_extend hrun
    exact hs.extend hp hq

private theorem Keeps.runAll {commands : List Command} (hs : Keeps s h)
    (hc : ∀ c ∈ commands, c.isAdmissible = true) (hrun : exec (runAll commands) s = (.ok (), t)) :
    Keeps t (commands.foldl Command.note h) := by
  induction commands generalizing s h with
  | nil =>
    cases hrun
    exact hs
  | cons c rest ih =>
    rw [PipelineSession.runAll, exec_bind_eq_ok] at hrun
    obtain ⟨⟨⟩, u, hfirst, hrest⟩ := hrun
    exact ih (hs.step (hc c mem_cons_self) hfirst) (fun c h => hc c (mem_cons_of_mem _ h)) hrest

/-- After commands on pipelines that start out empty, the text of each pipeline has one reading: the
passes in the order in which they were asked for, each with the scope that was open then and with
the options that were given.  A composite call that succeeds leaves no scope open. -/
theorem read_materialize (commands : List Command)
    (hcommands : ∀ c ∈ commands, c.isAdmissible = true)
    (hrun : exec (runAll commands) {} = (.ok (), s)) :
    (∀ name p, s.pipelines.lookup name = some p →
      Element.read ((s.view p).materialize true) = some (history commands name).elements ∧
      ∀ es, Element.Reads ((s.view p).materialize true) es ↔
        es = (history commands name).elements) ∧
    ∀ method args (p q : Pipeline) (b : Bool), method ∈ Pipeline.compositeNames →
      exec (Pipeline.invoke method args) p = (.ok b, q) → q.wrapper = .null := by
  constructor
  · intro name p hp
    have hkeeps := keeps_start.runAll hcommands hrun
    have hread := Element.read_eq_some_iff.mpr (hkeeps.stands hp).reads
    refine ⟨hread, fun es => ?_⟩
    rw [← Element.read_eq_some_iff, hread, Option.some_inj, eq_comm]
    rfl
  · intro method args p q b hmethod hcall
    exact Pipeline.wrapper_of_composite hmethod hcall

def tiled : List Command :=
  [.make "q", .call "p" "WRAP" ⟨[.str "gpu.module"], []⟩, .call "p" "affine_loop_tile"
    ⟨[], [("tile_sizes", .list [.int 4, .bool true]), ("separate", .bool true)]⟩,
   .call "p" "UNWRAP" ⟨[.str "gpu.module"], []⟩, .call "q" "lower_to_openmp" ⟨[], []⟩,
     .extend "p" "q"]

theorem read_tiled : ∃ s p, exec (runAll tiled) {} = (.ok (), s) ∧ s.pipelines.lookup "p" = some p ∧
    Element.read ((s.view p).materialize true) = some
      [⟨some "gpu.module", "affine-loop-tile", [("separate", "1"), ("tile-sizes", "4,True")]⟩,
       ⟨none, "convert-scf-to-openmp", []⟩, ⟨some "func.func", "lower-affine", []⟩] := by
  have hrun : exec (runAll tiled) {} = (.ok (), (exec (runAll tiled) {}).2) := rfl
  have hp : (exec (runAll tiled) {}).2.pipelines.lookup "p" = some ⟨0, .null⟩ := rfl
  refine ⟨(exec (runAll tiled) {}).2, ⟨0, .null⟩, hrun, hp, ?_⟩
  rw [((read_materialize tiled (by decide +kernel) hrun).1 "p" _ hp).1]
  decide +kernel

def tiledByTruth : List Command :=
  [.call "p" "affine_loop_tile" ⟨[], [("tile_sizes", .list [.bool true, .int 2])]⟩]

/-- A truth value in a list is not written as a number. -/
theorem materialize_truth_in_list : ∃ s p, exec (runAll tiledByTruth) {} = (.ok (), s) ∧
    s.pipelines.lookup "p" = some p ∧
    (s.view p).materialize true = "builtin.module(affine-loop-tile\x7b tile-sizes=True,2 \x7d)" ∧
    read ((s.view p).materialize true) ≠
      some [⟨none, "affine-loop-tile", [("tile-sizes", "1,2")]⟩] :=
  ⟨(exec (runAll tiledByTruth) {}).2, ⟨0, .null⟩, rfl, rfl, by decide +kernel, by decide +kernel⟩

end Polyloom.PipelineSession
