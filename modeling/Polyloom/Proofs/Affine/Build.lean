import Polyloom.Affine.OfTerm
import Polyloom.Proofs.Stateful
import Polyloom.Proofs.Table

/-!
# Building affine expressions

A build numbers the names of an expression from left to right, each new name after those that
are there.  It succeeds where every name is known or may be added, and the expression over
positions has the value of the expression over names, wherever positions have the values of
the names registered at them.
-/

namespace Polyloom

open Stateful AffineBuild AffineScope Numbered List

variable {build : AffineBuild} {scope : AffineScope}

/-! ## Dimensions and symbols alike -/

inductive VariableKind where
  | dim
  | symbol
  deriving DecidableEq, Repr

namespace AffineScope

variable (scope : AffineScope)

def names : VariableKind → List String
  | .dim => scope.dims
  | .symbol => scope.symbols

def positions : VariableKind → List (String × Nat)
  | .dim => scope.dimPositions
  | .symbol => scope.symbolPositions

def withPositions (table : List (String × Nat)) : VariableKind → AffineScope
  | .dim => { scope with dimPositions := table }
  | .symbol => { scope with symbolPositions := table }

theorem names_eq (k : VariableKind) : scope.names k = (scope.positions k).map Prod.fst := by
  cases k <;> rfl

theorem withPositions_self (k : VariableKind) :
    scope.withPositions (scope.positions k) k = scope := by
  cases k <;> rfl

@[simp] theorem positions_withPositions (table : List (String × Nat)) (k : VariableKind) :
    (scope.withPositions table k).positions k = table := by
  cases k <;> rfl

theorem positions_withPositions_of_ne {k other : VariableKind} (h : other ≠ k)
    (table : List (String × Nat)) :
    (scope.withPositions table k).positions other = scope.positions other := by
  cases k <;> cases other <;> simp [withPositions, AffineScope.positions] at h ⊢

end AffineScope

namespace AffineBuild

variable (build : AffineBuild)

/-- The positions that a state remembers. -/
def used : VariableKind → List (String × Nat)
  | .dim => build.localDims
  | .symbol => build.localSymbols

def allows : VariableKind → Bool
  | .dim => build.allowNewDims
  | .symbol => build.allowNewSymbols

def withUsed (used : List (String × Nat)) : VariableKind → AffineBuild
  | .dim => { build with localDims := used }
  | .symbol => { build with localSymbols := used }

theorem withUsed_self (k : VariableKind) : build.withUsed (build.used k) k = build := by
  cases k <;> rfl

@[simp] theorem used_withUsed (used : List (String × Nat)) (k : VariableKind) :
    (build.withUsed used k).used k = used := by
  cases k <;> rfl

theorem used_withUsed_of_ne {k other : VariableKind} (h : other ≠ k) (used : List (String × Nat)) :
    (build.withUsed used k).used other = build.used other := by
  cases k <;> cases other <;> simp [withUsed, AffineBuild.used] at h ⊢

@[simp] theorem allows_withUsed (used : List (String × Nat)) (k other : VariableKind) :
    (build.withUsed used k).allows other = build.allows other := by
  cases k <;> cases other <;> rfl

end AffineBuild

/-! ## Placing a name -/

def refusal (x : String) (table : List (String × Nat)) : VariableKind → Fault
  | .dim =>
    .badValue ("New dimensions not allowed in the current affine expression: Requested '" ++ x
      ++ "', Availble: " ++ positionsText table)
  | .symbol =>
    .badValue ("New symbols not allowed in the current affine expression: Requested '" ++ x
      ++ "', Availble: " ++ positionsText table)

structure Placing where
  outcome : Except Fault Nat
  table : List (String × Nat)
  used : List (String × Nat)

/-- A name is found, or goes behind all others, or is refused. -/
def place (k : VariableKind) (table used : List (String × Nat)) (allows : Bool) (x : String) :
    Placing :=
  match table.lookup x with
  | some p => ⟨.ok p, table, Table.put x p used⟩
  | none =>
    if allows then
      ⟨.ok table.length, Table.put x table.length table, Table.put x table.length used⟩
    else ⟨.error (refusal x table k), table, used⟩

/-- Each name stands once, and the positions count from zero. -/
def IsDense (table : List (String × Nat)) : Prop :=
  (table.map Prod.fst).Nodup ∧ table.map Prod.snd = range table.length

section Place

variable {k : VariableKind} {table used : List (String × Nat)}
  {allows : Bool} {x : String} {p : Nat}

theorem put_of_lookup_none (h : table.lookup x = none) (p : Nat) :
    Table.put x p table = table ++ [(x, p)] :=
  Table.put_of_notMem (lookup_eq_none_iff_notMem.mp h) p

theorem prefix_place : table <+: (place k table used allows x).table := by
  fun_cases place with
  | case1 | case3 => exact prefix_rfl
  | case2 hx =>
    simp only [put_of_lookup_none hx]
    exact prefix_append table _

theorem isDense_place (h : IsDense table) : IsDense (place k table used allows x).table := by
  fun_cases place with
  | case1 | case3 => exact h
  | case2 hx =>
    refine ⟨Table.nodup_keys_put h.1 .., ?_⟩
    simp only [put_of_lookup_none hx, map_append, h.2, length_append, length_singleton, range_succ]
    rfl

theorem mem_of_place (h : (place k table used allows x).outcome = .ok p) :
    (x, p) ∈ (place k table used allows x).table := by
  revert h
  fun_cases place with
  | case1 q hx =>
    rintro ⟨⟩
    exact mem_of_lookup hx
  | case2 =>
    rintro ⟨⟩
    exact mem_of_lookup (Table.lookup_put_self ..)
  | case3 => exact nofun

theorem used_place (k : VariableKind) (table used : List (String × Nat))
    (allows : Bool) (x : String) :
    (place k table used allows x).used = used ∨ ∃ p, (place k table used allows x).outcome = .ok p ∧
      (place k table used allows x).used = Table.put x p used := by
  fun_cases place with
  | case1 | case2 => exact .inr ⟨_, rfl, rfl⟩
  | case3 => exact .inl rfl

theorem place_refused_iff :
    (∃ text, (place k table used allows x).outcome = .error (.badValue text)) ↔
      x ∉ table.map Prod.fst ∧ allows = false := by
  rw [← lookup_eq_none_iff_notMem]
  fun_cases place with
  | case1 q hx => simp [hx]
  | case2 hx hallows => simp [hallows]
  | case3 hx hallows => cases k <;> simp [refusal, hx, hallows]

theorem place_eq_of_error {fault : Fault}
    (h : (place k table used allows x).outcome = .error fault) :
    (place k table used allows x).table = table ∧ (place k table used allows x).used = used := by
  revert h
  fun_cases place with
  | case1 | case2 => exact nofun
  | case3 => exact fun _ => ⟨rfl, rfl⟩

end Place

namespace Numbered

def position (x : String) : VariableKind → Numbered Nat
  | .dim => dim x
  | .symbol => symbol x

theorem exec_position (x : String) (k : VariableKind) (scope : AffineScope) (build : AffineBuild) :
    exec (position x k) (scope, build) =
      ((place k (scope.positions k) (build.used k) (build.allows k) x).outcome,
        scope.withPositions (place k (scope.positions k) (build.used k) (build.allows k) x).table k,
        build.withUsed (place k (scope.positions k) (build.used k) (build.allows k) x).used k) := by
  obtain ⟨dims, symbols, newDims, newSymbols⟩ := build
  cases k with
  | dim =>
    rw [position, dim, exec_bind_ok (exec_get _), place]
    simp only [getDim, positions, allows]
    cases scope.dimPositions.lookup x <;> cases newDims <;> rfl
  | symbol =>
    rw [position, symbol, exec_bind_ok (exec_get _), place]
    simp only [getSymbol, positions, allows]
    cases scope.symbolPositions.lookup x <;> cases newSymbols <;> rfl

end Numbered

/-! ## Expressions -/

variable {known : List String} {s : String}

/-- Names with more names after them, each at its first place. -/
def registered (known names : List String) : List String :=
  names.foldl (fun known s => if s ∈ known then known else known ++ [s]) known

@[simp] theorem registered_nil (known : List String) : registered known [] = known := rfl

theorem registered_singleton (known : List String) (s : String) :
    registered known [s] = if s ∈ known then known else known ++ [s] := rfl

theorem registered_cons (known : List String) (s : String) (names : List String) :
    registered known (s :: names) = registered (registered known [s]) names := rfl

theorem mem_registered {names : List String} :
    s ∈ registered known names ↔ s ∈ known ∨ s ∈ names := by
  induction names generalizing known with
  | nil => simp
  | cons t names ih =>
    rw [registered_cons, ih, registered_singleton, mem_cons]
    split
    · rename_i ht
      constructor
      · rintro (h | h)
        · exact .inl h
        · exact .inr (.inr h)
      · rintro (h | rfl | h)
        · exact .inl h
        · exact .inl ht
        · exact .inr h
    · rw [mem_append, mem_singleton, or_assoc]

theorem nodup_registered (h : known.Nodup) (names : List String) :
    (registered known names).Nodup := by
  induction names generalizing known with
  | nil => exact h
  | cons s names ih =>
    rw [registered_cons, registered_singleton]
    refine ih ?_
    split
    · exact h
    · rename_i hs
      exact nodup_append.mpr ⟨h, nodup_singleton s, by
        intro a ha b hb
        rw [mem_singleton.mp hb]
        rintro rfl
        exact hs ha⟩

/-- A table with more names behind those that it has. -/
def noted (table : List (String × Nat)) (names : List String) : List (String × Nat) :=
  names.foldl (fun table s =>
    if s ∈ table.map Prod.fst then table else table ++ [(s, table.length)]) table

section

variable (table : List (String × Nat))

theorem noted_singleton (s : String) :
    noted table [s] = if s ∈ table.map Prod.fst then table else table ++ [(s, table.length)] := rfl

private theorem noted_append (names more : List String) :
    noted table (names ++ more) = noted (noted table names) more :=
  foldl_append

theorem noted_cons (s : String) (names : List String) :
    noted table (s :: names) = noted (noted table [s]) names := rfl

theorem isPrefix_noted (names : List String) : table <+: noted table names := by
  induction names generalizing table with
  | nil => exact prefix_rfl
  | cons s names ih =>
    rw [noted_cons]
    refine IsPrefix.trans ?_ (ih _)
    rw [noted_singleton]
    split
    · exact prefix_rfl
    · exact prefix_append table _

theorem keys_noted (names : List String) :
    (noted table names).map Prod.fst = registered (table.map Prod.fst) names := by
  induction names generalizing table with
  | nil => rfl
  | cons s names ih =>
    rw [noted_cons, registered_cons, ih, noted_singleton, registered_singleton]
    split <;> simp

end

theorem noted_zipIdx (known names : List String) :
    noted known.zipIdx names = (registered known names).zipIdx := by
  induction names generalizing known with
  | nil => rfl
  | cons s names ih =>
    rw [noted_cons, registered_cons, ← ih, noted_singleton, registered_singleton, zipIdx_map_fst,
      length_zipIdx]
    split
    · rfl
    · rw [zipIdx_append, Nat.zero_add, zipIdx_singleton]

namespace AffineDef

def named : AffineDef → List AffineDef
  | .dim s => [.dim s]
  | .sym s => [.sym s]
  | .binary _ l r | .difference l r => l.named ++ r.named
  | .const _ | .bare => []

def dimName? : AffineDef → Option String
  | .dim s => some s
  | _ => none

def symName? : AffineDef → Option String
  | .sym s => some s
  | _ => none

def dimNames (e : AffineDef) : List String := e.named.filterMap dimName?

def symNames (e : AffineDef) : List String := e.named.filterMap symName?

theorem dimNames_binary (op : AffineOp) (l r : AffineDef) :
    (binary op l r).dimNames = l.dimNames ++ r.dimNames := filterMap_append

theorem symNames_binary (op : AffineOp) (l r : AffineDef) :
    (binary op l r).symNames = l.symNames ++ r.symNames := filterMap_append

/-- Has an expression neither differences nor parts without content? -/
def isBuildable : AffineDef → Bool
  | .const _ | .dim _ | .sym _ => true
  | .binary _ l r => l.isBuildable && r.isBuildable
  | .difference _ _ | .bare => false

end AffineDef

def AffineScope.after (scope : AffineScope) (e : AffineDef) : AffineScope :=
  ⟨noted scope.dimPositions e.dimNames, noted scope.symbolPositions e.symNames⟩

/-- Every name of an expression is known or may be added. -/
structure AffineBuild.Admits (build : AffineBuild) (scope : AffineScope)
  (e : AffineDef) : Prop where
  dims : ∀ s ∈ e.dimNames, s ∈ scope.dims ∨ build.allowNewDims = true
  symbols : ∀ s ∈ e.symNames, s ∈ scope.symbols ∨ build.allowNewSymbols = true

/-- Positions have the values of the names registered at them. -/
structure AffineScope.Assigns (scope : AffineScope) (dims syms : Nat → Int)
    (dimValue symValue : String → Int) : Prop where
  dims : ∀ s i, (s, i) ∈ scope.dimPositions → dims i = dimValue s
  symbols : ∀ s j, (s, j) ∈ scope.symbolPositions → syms j = symValue s

def AffineBuild.Allows (build next : AffineBuild) : Prop :=
  next.allowNewDims = build.allowNewDims ∧ next.allowNewSymbols = build.allowNewSymbols

private theorem place_noted {table : List (String × Nat)} {allows : Bool}
    (h : s ∈ table.map Prod.fst ∨ allows = true) (k : VariableKind) (used : List (String × Nat)) :
    ∃ p, (place k table used allows s).outcome = .ok p ∧
      (place k table used allows s).table = noted table [s] := by
  rw [noted_singleton]
  fun_cases place with
  | case1 p hp =>
    exact ⟨p, rfl, (if_pos (mem_map.mpr ⟨_, mem_of_lookup hp, rfl⟩)).symm⟩
  | case2 hs =>
    refine ⟨_, rfl, ?_⟩
    rw [if_neg (lookup_eq_none_iff_notMem.mp hs)]
    exact put_of_lookup_none hs _
  | case3 hs hallows => exact absurd (h.resolve_left (lookup_eq_none_iff_notMem.mp hs)) hallows

private theorem Numbered.exec_position_ok {k : VariableKind}
    (h : s ∈ scope.names k ∨ build.allows k = true) : ∃ i next, exec (position s k) (scope, build) =
    (.ok i, scope.withPositions (noted (scope.positions k) [s]) k, next) ∧
    (s, i) ∈ noted (scope.positions k) [s] ∧ build.Allows next := by
  rw [names_eq] at h
  obtain ⟨i, houtcome, htable⟩ := place_noted h k (build.used k)
  refine ⟨i, _, by rw [exec_position, houtcome, htable], htable ▸ mem_of_place houtcome, ?_⟩
  cases k <;> exact ⟨rfl, rfl⟩

namespace AffineScope

private theorem after_binary (scope : AffineScope) (op : AffineOp) (l r : AffineDef) :
    scope.after (.binary op l r) = (scope.after l).after r := by
  simp only [after, AffineDef.dimNames_binary, AffineDef.symNames_binary, noted_append]

private theorem Assigns.of_after {scope : AffineScope} {e : AffineDef} {dims syms : Nat → Int}
    {dimValue symValue : String → Int} (h : (scope.after e).Assigns dims syms dimValue symValue) :
    scope.Assigns dims syms dimValue symValue where
  dims s i hs := h.dims s i ((isPrefix_noted _ _).subset hs)
  symbols s j hs := h.symbols s j ((isPrefix_noted _ _).subset hs)

theorem dims_after (scope : AffineScope) (e : AffineDef) :
    (scope.after e).dims = registered scope.dims e.dimNames := keys_noted ..

theorem symbols_after (scope : AffineScope) (e : AffineDef) :
    (scope.after e).symbols = registered scope.symbols e.symNames := keys_noted ..

end AffineScope

namespace AffineDef

/-- A build where every name is known or may be added succeeds and keeps the value. -/
theorem build_ok {e : AffineDef} (he : e.isBuildable = true) (h : build.Admits scope e) :
    ∃ built next, e.build.run.run (scope, build) = (.ok built, scope.after e, next) ∧
      build.Allows next ∧ ∀ dims syms dimValue symValue, (scope.after e).Assigns
      dims syms dimValue symValue → built.eval dims syms = e.eval dimValue symValue := by
  induction e generalizing scope build with
  | const l => exact ⟨.const l.value, build, rfl, ⟨rfl, rfl⟩, fun _ _ _ _ _ => rfl⟩
  | dim s =>
    obtain ⟨i, next, hget, hname, hallows⟩ :=
      exec_position_ok (k := .dim) (h.dims s (mem_singleton_self s))
    refine ⟨.dim i, next, exec_bind_ok hget, hallows,
      fun dims syms dimValue symValue hassigns => ?_⟩
    exact congrArg some (hassigns.dims s i hname)
  | sym s =>
    obtain ⟨j, next, hget, hname, hallows⟩ :=
      exec_position_ok (k := .symbol) (h.symbols s (mem_singleton_self s))
    refine ⟨.sym j, next, exec_bind_ok hget, hallows,
      fun dims syms dimValue symValue hassigns => ?_⟩
    exact congrArg some (hassigns.symbols s j hname)
  | binary op l r ihl ihr =>
    rw [isBuildable, Bool.and_eq_true] at he
    have hl : build.Admits scope l :=
      ⟨fun s hs => h.dims s (by simp [dimNames_binary, hs]),
        fun s hs => h.symbols s (by simp [symNames_binary, hs])⟩
    obtain ⟨a, next, hrunl, hallows, hvaluel⟩ := ihl he.1 hl
    have hr : next.Admits (scope.after l) r := by
      constructor
      · intro s hs
        rw [hallows.1, dims_after]
        exact (h.dims s (by simp [dimNames_binary, hs])).imp_left fun hs =>
          mem_registered.mpr (.inl hs)
      · intro s hs
        rw [hallows.2, symbols_after]
        exact (h.symbols s (by simp [symNames_binary, hs])).imp_left fun hs =>
          mem_registered.mpr (.inl hs)
    obtain ⟨b, next', hrunr, hallows', hvaluer⟩ := ihr he.2 hr
    refine ⟨.binary op a b, next', ?_, ?_, fun dims syms dimValue symValue hassigns => ?_⟩
    · rw [after_binary]
      exact (exec_bind_ok hrunl).trans (exec_bind_ok hrunr)
    · exact ⟨hallows'.1.trans hallows.1, hallows'.2.trans hallows.2⟩
    · rw [after_binary] at hassigns
      rw [AffineExpr.eval, eval, hvaluel _ _ _ _ hassigns.of_after, hvaluer _ _ _ _ hassigns]
  | difference | bare => simp [isBuildable] at he

end AffineDef

end Polyloom
