import Polyloom.Access.Memory
import Polyloom.Proofs.Naming

/-!
# Accesses under given names

The analysis of accesses asks a table for names as it goes.  Given the table of any later
moment, it is a plain function of the names of that table.  So all accesses that were built
since the names were last forgotten can be read under one and the same naming, in whatever
order they were built.
-/

namespace Polyloom

open Named

open NameTable (Ticked)

namespace Named

variable {α β : Type} {printed : String → String} {table next : NameTable String}

def exec (m : Named α) (printed : String → String) (table : NameTable String) :
    Except Fault α × NameTable String :=
  (m.run printed).run.run table

private theorem exec_bind_ok {m : Named α} {k : α → Named β}
    {a : α} (h : m.exec printed table = (.ok a, next)) :
    (m >>= k).exec printed table = (k a).exec printed next := by
  simp only [exec, ReaderT.run_bind, ExceptT.run_bind, StateT.run_bind] at *
  rw [h]
  rfl

private theorem exec_bind_error {m : Named α} {k : α → Named β} {fault : Fault}
    (h : m.exec printed table = (.error fault, next)) :
    (m >>= k).exec printed table = (.error fault, next) := by
  simp only [exec, ReaderT.run_bind, ExceptT.run_bind, StateT.run_bind] at *
  rw [h]
  rfl

/-- Under the names of every table that comes after the run, the computation is the function. -/
def Follows (printed : String → String) (m : Named α)
    (f : (String → String) → Except Fault α) : Prop :=
  ∀ table : NameTable String, table.Ticked → (m.exec printed table).2.Ticked ∧
    table.Extends (m.exec printed table).2 ∧
      ∀ later : NameTable String, (m.exec printed table).2.Extends later →
        (m.exec printed table).1 = f (later.name printed)

namespace Follows

theorem pure (a : α) : Follows printed (Pure.pure a : Named α) fun _ => .ok a :=
  fun table h => ⟨h, .refl table, fun _ _ => rfl⟩

theorem lift (r : Except Fault α) : Follows printed (lift r) fun _ => r := by
  intro table h
  cases r with
  | ok a => exact ⟨h, .refl table, fun _ _ => rfl⟩
  | error fault => exact ⟨h, .refl table, fun _ _ => rfl⟩

theorem throw (fault : Fault) : Follows printed (throw fault : Named α) fun _ => .error fault :=
  fun table h => ⟨h, .refl table, fun _ _ => rfl⟩

theorem nameOf (value : String) : Follows printed (nameOf value) fun name => .ok (name value) := by
  intro table h
  refine ⟨h.request value (printed value), NameTable.extends_request value (printed value), ?_⟩
  intro later hlater
  have hlookup := hlater.lookup (NameTable.lookup_request value (printed value))
  exact congrArg Except.ok (NameTable.name_of_lookup hlookup).symm

theorem bind {m : Named α} {k : α → Named β} {f : (String → String) → Except Fault α}
    {g : α → (String → String) → Except Fault β} (hm : Follows printed m f)
    (hk : ∀ a, Follows printed (k a) (g a)) :
    Follows printed (m >>= k) fun name => f name >>= fun a => g a name := by
  intro table htable
  obtain ⟨hticked, hextends, hresult⟩ := hm table htable
  rcases hrun : m.exec printed table with ⟨fault | a, next⟩ <;>
    simp only [hrun] at hticked hextends hresult
  · rw [exec_bind_error hrun]
    refine ⟨hticked, hextends, fun later hlater => ?_⟩
    simp only [← hresult later hlater]
    rfl
  · rw [exec_bind_ok hrun]
    obtain ⟨hticked', hextends', hresult'⟩ := hk a next hticked
    refine ⟨hticked', hextends.trans hextends', fun later hlater => ?_⟩
    simp only [← hresult later (hextends'.trans hlater)]
    exact hresult' later hlater

theorem of_eq {m : Named α} {f g : (String → String) → Except Fault α} (h : Follows printed m f)
    (hfg : ∀ name, f name = g name) : Follows printed m g := by
  rw [← funext hfg]
  exact h

private theorem namesOf (values : List String) :
    Follows printed (namesOf values) fun name => .ok (values.map name) := by
  induction values with
  | nil => exact pure []
  | cons v vs ih =>
    exact bind (nameOf v) fun n => bind ih fun ns => pure (n :: ns)

end Follows

end Named

/-! ## Applications -/

namespace Application

def analyzeUnder (a : Application) (name : String → String) : Except Fault Apply :=
  if a.operation ≠ "affine.apply" then throw (.assertion "")
  else do
    let operands := a.operands.map name
    let dims ← inputs AffineExpr.dimName operands 0 a.map.dims
    let symbols ← inputs AffineExpr.symName (operands.drop a.map.dims) 0 a.map.symbols
    let terms ← terms a.map a.map.results
    let result := name a.result
    let expr ← a.statedTerm terms result
    let map := Proposition.ofEquation (.sym result) expr
    let relation ← (do (← map.substitute (substitution dims)).substitute (substitution symbols))
    return {
      operands, dims, symbols, result, expr, map, relation
      constants := (a.map.results.flatMap AffineExpr.constants).eraseDups }

theorem follows_analyze (printed : String → String) (a : Application) :
    Follows printed a.analyze a.analyzeUnder := by
  unfold analyze analyzeUnder
  split
  · exact .throw _
  · refine .of_eq (.bind (.namesOf _) fun operands => .bind (.lift _) fun dims =>
      .bind (.lift _) fun symbols => .bind (.lift _) fun terms => .bind (.nameOf _) fun result =>
      .bind (.lift _) fun expr => .bind (.lift _) fun relation => .pure _) fun name => rfl

end Application

/-! ## Memory operations -/

namespace MemoryOp

variable {table : NameTable String}

def namedBoundsUnder (name : String → String) (bounds acc : List (String × List LoopBound)) :
    List (String × List LoopBound) :=
  bounds.foldl (fun acc entry => setEntry (name entry.1) entry.2 acc) acc

section

variable (printed : String → String)

private theorem follows_namedBounds (bounds acc : List (String × List LoopBound)) :
    Follows printed (namedBounds bounds acc) fun name =>
      .ok (namedBoundsUnder name bounds acc) := by
  induction bounds generalizing acc with
  | nil => exact .pure acc
  | cons entry rest ih =>
    exact .of_eq (.bind (.nameOf entry.1) fun n => ih (setEntry n entry.2 acc)) fun name => rfl

def sourcesUnder (name : String → String) (op : MemoryOp) :
    List String → List (String × IndexSource) → List String →
    Except Fault (List (String × IndexSource) × List String)
  | [], acc, symbolic => .ok (acc, symbolic)
  | v :: rest, acc, symbolic =>
    match op.application? v with
    | some a => do
      let apply ← a.analyzeUnder name
      op.sourcesUnder name rest (setEntry (name v) (.application apply) acc)
        (symbolic ++ apply.symbols.map MapInput.operand)
    | none =>
      if v ∈ op.loops then op.sourcesUnder name rest (setEntry (name v) .loop acc) symbolic
      else .error (.unsupported ("unknown idx operand " ++ v))

private theorem follows_sources (op : MemoryOp) (indices : List String)
    (acc : List (String × IndexSource)) (symbolic : List String) :
    Follows printed (op.sources indices acc symbolic) fun name =>
      op.sourcesUnder name indices acc symbolic := by
  induction indices generalizing acc symbolic with
  | nil => exact .pure (acc, symbolic)
  | cons v rest ih =>
    unfold sources sourcesUnder
    cases op.application? v with
    | some a =>
      exact .of_eq (.bind (.nameOf v) fun n => .bind (a.follows_analyze printed) fun apply =>
        ih (setEntry n (.application apply) acc) _) fun name => rfl
    | none =>
      by_cases hv : v ∈ op.loops
      · simp only [hv, if_true]
        exact .of_eq (.bind (.nameOf v) fun n => ih (setEntry n .loop acc) _) fun name => rfl
      · simp only [hv, if_false]
        exact .of_eq (.bind (.nameOf v) fun n => .throw _) fun name => rfl

def dimensionsUnder (name : String → String) (operands : List (String × IndexSource)) :
    List String → Except Fault (List IndexSource)
  | [] => .ok []
  | v :: rest =>
    match operands.lookup (name v) with
    | some s => do return s :: (← dimensionsUnder name operands rest)
    | none => .error .noKey

private theorem follows_dimensions (operands : List (String × IndexSource)) (dims : List String) :
    Follows printed (dimensions operands dims) fun name =>
      dimensionsUnder name operands dims := by
  induction dims with
  | nil => exact .pure []
  | cons v rest ih =>
    have hfound : ∀ n, Follows printed (match operands.lookup n with
          | some s => do return s :: (← dimensions operands rest)
          | none => throw .noKey)
        (fun name => match operands.lookup n with
          | some s => do return s :: (← dimensionsUnder name operands rest)
          | none => .error .noKey) := by
      intro n
      cases operands.lookup n with
      | some s => exact .bind ih fun found => .pure (s :: found)
      | none => exact .throw .noKey
    exact .of_eq (.bind (.nameOf v) hfound) fun name => rfl

def dimensionVariable (memref : String) (k : Nat) : String := memref ++ "_dim_" ++ k.repr

def dimensionRelationsUnder (memref : String) : Nat → List IndexSource →
    Except Fault (List Proposition)
  | _, [] => .ok []
  | i, .application a :: rest => do
    return Proposition.ofEquation (.sym (dimensionVariable memref i)) (.sym a.result) ::
      (← dimensionRelationsUnder memref (i + 1) rest)
  | _, .loop :: _ => .error .noAttribute

private theorem follows_dimensionRelations (memref : String) (i : Nat) (dims : List IndexSource) :
    Follows printed (dimensionRelations memref i dims) fun name =>
      dimensionRelationsUnder (name memref) i dims := by
  induction dims generalizing i with
  | nil => exact .pure []
  | cons s rest ih =>
    cases s with
    | application a =>
      exact .of_eq (.bind (.nameOf memref) fun n => .bind (ih (i + 1)) fun ps => .pure _)
        fun name => rfl
    | loop => exact .of_eq (.bind (.nameOf memref) fun n => .throw .noAttribute) fun name => rfl

def applyRelations (operands : List (String × IndexSource)) : List Proposition :=
  operands.filterMap fun (_, s) => match s with
    | .application a => some a.relation
    | .loop => none

def accessUnder (name : String → String) (op : MemoryOp) : Except Fault Access := do
  let bounds := namedBoundsUnder name op.bounds []
  let (operands, symbolic) ← op.sourcesUnder name op.indices [] []
  let dims ← dimensionsUnder name operands op.dims
  let dimRelations ← dimensionRelationsUnder (name op.memref) 0 dims
  let relations := dimRelations ++ applyRelations operands ++ (← boundRelations bounds)
  let constraints ← accessConstraints relations
  return {
    kind := op.kind, memref := op.memref, loops := op.loops,
      operands, bounds, relations, constraints
    symbolic := symbolic.eraseDups }

private theorem follows_access (op : MemoryOp) :
    Follows printed op.access fun name => op.accessUnder name := by
  exact .of_eq (.bind (follows_namedBounds printed _ _) fun bounds =>
    .bind (follows_sources printed op _ _ _) fun sources =>
    .bind (follows_dimensions printed _ _) fun dims =>
    .bind (follows_dimensionRelations printed _ _ _) fun dimRelations =>
    .bind (.lift _) fun boundRelations => .bind (.lift _) fun constraints => .pure _)
    fun name => rfl

/-! ## Histories -/

def construct (printed : String → String) (table : NameTable String) (op : MemoryOp) :
    Except Fault Access × NameTable String :=
  op.analyze.exec printed table

def tableAfter (printed : String → String) (history : List MemoryOp) : NameTable String :=
  history.foldl (fun table op => (op.construct printed table).2) []

/-- The access was built from the operation at some point of the history. -/
def Constructed (printed : String → String) (history : List MemoryOp) (op : MemoryOp)
    (access : Access) : Prop :=
  ∃ before after, history = before ++ op :: after ∧
    (op.construct printed (tableAfter printed before)).1 = .ok access

def analyzeUnder (name : String → String) (op : MemoryOp) : Except Fault Access :=
  match op.kind with
  | .other => .error (.unsupported "")
  | _ => op.accessUnder name

theorem follows_analyze (op : MemoryOp) :
    Follows printed op.analyze fun name => op.analyzeUnder name := by
  unfold analyze analyzeUnder
  cases op.kind with
  | other => exact .throw _
  | load | store => exact follows_access printed op

theorem ticked_construct (h : table.Ticked) (op : MemoryOp) :
    (op.construct printed table).2.Ticked :=
  (follows_analyze printed op table h).1

private theorem extends_construct (h : table.Ticked) (op : MemoryOp) :
    table.Extends (op.construct printed table).2 :=
  (follows_analyze printed op table h).2.1

end

theorem foldl_construct {printed : String → String} (h : table.Ticked) (history : List MemoryOp) :
    (history.foldl (fun table op => (op.construct printed table).2) table).Ticked ∧
      table.Extends (history.foldl (fun table op => (op.construct printed table).2) table) := by
  induction history generalizing table with
  | nil => exact ⟨h, .refl table⟩
  | cons op rest ih =>
    obtain ⟨hticked, hextends⟩ := ih (ticked_construct printed h op)
    exact ⟨hticked, (extends_construct printed h op).trans hextends⟩

theorem ticked_tableAfter (printed : String → String) (history : List MemoryOp) :
    (tableAfter printed history).Ticked :=
  (foldl_construct NameTable.ticked_nil history).1

/-- Every access of a history is what its operation is under the names at the end. -/
theorem Constructed.analyzeUnder_eq {printed : String → String} {history : List MemoryOp}
    {op : MemoryOp} {access : Access} (h : Constructed printed history op access) :
    op.analyzeUnder ((tableAfter printed history).name printed) = .ok access := by
  obtain ⟨before, after, rfl, hop⟩ := h
  have hbefore := ticked_tableAfter printed before
  obtain ⟨hticked, -, hresult⟩ := follows_analyze printed op _ hbefore
  have hlater : (op.construct printed (tableAfter printed before)).2.Extends
      (tableAfter printed (before ++ op :: after)) := by
    simp only [tableAfter, List.foldl_append, List.foldl_cons]
    exact (foldl_construct hticked after).2
  exact (hresult _ hlater).symm.trans hop

end MemoryOp

end Polyloom
