import Polyloom.Proofs.Arith.Comparison
import Polyloom.Proofs.Builder.Opening
import Polyloom.Proofs.Source.Wrapping
import Polyloom.Script.Run

/-!
# Tests of branches

The test of a branch compares a name with names and constants, one after the other.  Each comparison
is built as an operation, whose flag is its truth, and the last of them is the condition of the
branch.
-/

namespace Polyloom

open Build List Execute Script SourceTree WordComparison

variable {given v : Value} {index : Bool} {k : Nat} {t : SourceTree}

def Event.condition? : Event → Option Nat
  | .create _ "scf.IfOp" _ _ (.native [.ssa cond _ _] _) => some cond
  | _ => none

namespace BranchTest

/-! ## Operands -/

/-- A word that is there, or a constant that is made. -/
inductive Operand where
  | word (id : Nat)
  | literal (n : Int)

namespace Operand

variable {w : Nat}

def value (r : Registers w) : Operand → BitVec w
  | .word id => r.word id
  | .literal n => (n : BitVec w)

/-- Is an operand there when `k` values have been made? -/
def IsBelow (k : Nat) : Operand → Prop
  | .word id => id < k
  | .literal _ => True

private theorem value_of_agrees {r r' : Registers w} (h : Registers.Agrees k r r')
    {o : Operand} (ho : o.IsBelow k) : o.value r' = o.value r := by
  cases o with
  | word id => exact (h id ho).1
  | literal n => rfl

private theorem IsBelow.mono {l : Nat} {o : Operand} (h : o.IsBelow k) (hle : k ≤ l) :
    o.IsBelow l := by
  cases o with
  | word id => exact Nat.lt_of_lt_of_le h hle
  | literal n => trivial

end Operand

section

variable (call : Caller) (env : Surroundings) (frames : List (List (String × Value)))
  (type : String)

/-- An expression supplies an operand, held for arithmetic, wherever the frames are the given. -/
inductive Supplies (e : Expression) : Operand → Prop
  | word {id : Nat} (h : ∀ t : Session, t.frames = frames →
      (evaluate call env e).exec t = (.ok (.ssa id type .arith), t)) : Supplies e (.word id)
  | literal {n : Int} {v : Value} (hv : v.int? = some n) (h : ∀ t : Session, t.frames = frames →
      (evaluate call env e).exec t = (.ok (.ssa t.values type .arith),
        t.createNative "arith.ConstantOp" [.type type, v] type)) : Supplies e (.literal n)

end

variable {call : Caller} {env : Surroundings} {type : String}
  {s : Session} {o : Operand} {w x : Nat}

private theorem Supplies.exec {e : Expression} (h : Supplies call env s.frames type e o)
    (ho : o.IsBelow s.values) : ∃ y t es,
      (evaluate call env e).exec s = (.ok (.ssa y type .arith), t) ∧
        s.Grows t es ∧ y < t.values ∧
      ∀ {w : Nat} (r : Registers w), ∃ r', r.run es = some r' ∧ Registers.Agrees s.values r r' ∧
        r'.word y = o.value r := by
  cases h with
  | word h => exact ⟨_, s, [], h s rfl, .refl s, ho, fun r => ⟨r, rfl, fun _ _ => ⟨rfl, rfl⟩, rfl⟩⟩
  | literal hv h =>
    refine ⟨_, _, _, h s rfl, s.grows_createNative .., Nat.lt_succ_self _, fun r => ?_⟩
    refine ⟨_, Event.fold_single (Registers.step_constant hv s type r), ?_, Function.update_self ..⟩
    intro i hi
    exact ⟨Function.update_of_ne (Nat.ne_of_lt hi) .., rfl⟩

/-! ## Comparisons one after the other -/

structure Link where
  comparison : WordComparison
  expression : Expression
  operand : Operand

namespace Link

def comparand (l : Link) :
    ComparisonSign × Expression := (.operator l.comparison.binary, l.expression)

end Link

/-- The truth of each comparison in a chain. -/
def truths {w : Nat} (isIndex : Bool) (r : Registers w) :
    BitVec w → List (WordComparison × Operand) → List Bool
  | _, [] => []
  | x, (c, o) :: rest =>
    c.holds (number isIndex x) (number isIndex (o.value r)) ::
      truths isIndex r (o.value r) rest

private theorem exec_compareBy (h : Arith.isWordType type = true)
    (c : WordComparison) (x y : Nat) (s : Session) :
    (compareBy (.operator c.binary) (.ssa x type .arith) (.ssa y type .arith)).exec s =
      (.ok (.ssa s.values "i1" .arith), s.createNative "arith.CmpIOp"
        [c.predicateValue (Arith.isIndex type), .ssa x type .arith, .ssa y type .arith] "i1") := by
  rw [compareBy, c.binary_of_isArith]
  exact c.exec_applyBinary h x y s

private theorem truths_of_agrees {isIndex : Bool} {r r' : Registers w} (h : Registers.Agrees k r r')
    {chain : List (WordComparison × Operand)} (hchain : ∀ link ∈ chain, link.2.IsBelow k)
    (x : BitVec w) : truths isIndex r' x chain = truths isIndex r x chain := by
  induction chain generalizing x with
  | nil => rfl
  | cons link rest ih =>
    have hvalue := Operand.value_of_agrees h (hchain link mem_cons_self)
    rw [truths, truths, hvalue, ih fun link hl => hchain link (mem_cons_of_mem _ hl)]

private theorem length_truths (isIndex : Bool) (r : Registers w)
    (x : BitVec w) (chain : List (WordComparison × Operand)) :
    (truths isIndex r x chain).length = chain.length := by
  induction chain generalizing x with
  | nil => rfl
  | cons link chain ih => simp [truths, ih]

private theorem number_of_nonneg {x : BitVec w} (h : 0 ≤ x.toInt) (isIndex : Bool) :
    number isIndex x = x.toInt := by
  cases isIndex with
  | false => rfl
  | true =>
    have hbound := x.isLt
    rw [BitVec.toInt_eq_toNat_cond] at h ⊢
    split at h
    · rename_i hsmall
      rw [if_pos hsmall]
      rfl
    · omega

private theorem truths_of_nonneg (isIndex : Bool) {r : Registers w} {x : BitVec w}
    {chain : List (WordComparison × Operand)} (hx : 0 ≤ x.toInt)
    (hchain : ∀ o ∈ chain.map Prod.snd, 0 ≤ (o.value r).toInt) :
    truths isIndex r x chain = truths false r x chain := by
  induction chain generalizing x with
  | nil => rfl
  | cons link chain ih =>
    rw [map_cons, forall_mem_cons] at hchain
    obtain ⟨hside, hchain⟩ := hchain
    rw [truths, truths, ih hside hchain, number_of_nonneg hx,
      number_of_nonneg hside, number_of_nonneg hx, number_of_nonneg hside]

private theorem exec_link (htype : Arith.isWordType type = true)
    {l : Link} (hl : Supplies call env s.frames type l.expression l.operand)
    (ho : l.operand.IsBelow s.values) (hx : x < s.values) : ∃ y u flag t es,
      (evaluate call env l.expression).exec s = (.ok (.ssa y type .arith), u) ∧
      (compareBy (.operator l.comparison.binary)
        (.ssa x type .arith) (.ssa y type .arith)).exec u =
        (.ok (.ssa flag "i1" .arith), t) ∧
      s.Grows t es ∧ y < t.values ∧ flag < t.values ∧
      ∀ {w : Nat} (r : Registers w), ∃ r', r.run es = some r' ∧ Registers.Agrees s.values r r' ∧
        r'.word y = l.operand.value r ∧
        r'.flag flag = l.comparison.holds (number (Arith.isIndex type) (r.word x))
          (number (Arith.isIndex type) (l.operand.value r)) := by
  obtain ⟨y, u, es, hexec, hgrows, hy, hruns⟩ := hl.exec ho
  refine ⟨y, u, u.values, _, _, hexec, exec_compareBy htype l.comparison x y u,
    hgrows.trans (u.grows_createNative ..), hy.trans (Nat.lt_succ_self _), Nat.lt_succ_self _, ?_⟩
  intro w r
  obtain ⟨r₁, hrun, hagrees, hword⟩ := hruns r
  refine ⟨_, (Event.fold_append hrun _).trans
    (Event.fold_single (l.comparison.step_nativeEvent ..)), ?_, hword, ?_⟩
  · intro i hi
    obtain ⟨hi₁, hi₂⟩ := hagrees i hi
    exact ⟨hi₁, (Function.update_of_ne (Nat.ne_of_lt (hi.trans_le hgrows.values_le)) ..).trans hi₂⟩
  · rw [← hword, ← (hagrees x hx).1]
    exact Function.update_self ..

/-- Comparisons one after the other are all built, and the last one is the result. -/
private theorem exec_compareAll (htype : Arith.isWordType type = true) {links : List Link}
    (hne : links ≠ []) (hx : x < s.values)
    (hlinks : ∀ l ∈ links, Supplies call env s.frames type l.expression l.operand ∧
      l.operand.IsBelow s.values) : ∃ flags cond t es,
      (compareAll call env (.ssa x type .arith) (links.map Link.comparand)).exec s =
        (.ok (.ssa cond "i1" .arith), t) ∧
      s.Grows t es ∧
      ∀ {w : Nat} (r : Registers w), ∃ r', r.run es = some r' ∧ Registers.Agrees s.values r r' ∧
        (flags ++ [cond]).map r'.flag = truths (Arith.isIndex type) r (r.word x)
          (links.map fun l => (l.comparison, l.operand)) := by
  induction links generalizing s x with
  | nil => exact absurd rfl hne
  | cons l rest ih =>
    obtain ⟨hl, ho⟩ := hlinks l mem_cons_self
    obtain ⟨y, u, flag, t, es, hexec, hcompare, hgrows, hy, hflag, hruns⟩ :=
      exec_link htype hl ho hx
    rw [map_cons, Link.comparand, compareAll, exec_bind_ok hexec, exec_bind_ok hcompare]
    cases rest with
    | nil =>
      refine ⟨[], flag, t, es, rfl, hgrows, fun r => ?_⟩
      obtain ⟨r', hrun, hagrees, -, hholds⟩ := hruns r
      exact ⟨r', hrun, hagrees, by simp [truths, hholds]⟩
    | cons l' rest =>
      -- a flag counts as true whatever it is, so the next comparison is always made
      have htruth : (truth (.ssa flag "i1" .arith)).exec t = (.ok true, t) := rfl
      obtain ⟨flags, cond, v, es', hrest, hgrows', hruns'⟩ := ih (by simp) hy fun l hl => by
        obtain ⟨hsupplies, hbelow⟩ := hlinks l (mem_cons_of_mem _ hl)
        rw [hgrows.frames_eq]
        exact ⟨hsupplies, hbelow.mono hgrows.values_le⟩
      refine ⟨flag :: flags, cond, v, es ++ es', ?_, hgrows.trans hgrows', fun r => ?_⟩
      · simp only [map_cons, isEmpty_cons, Bool.false_eq_true, if_false]
        rw [exec_bind_ok htruth]
        exact hrest
      · obtain ⟨r₁, hrun, hagrees, hword, hholds⟩ := hruns r
        obtain ⟨r₂, hrun', hagrees', hflags⟩ := hruns' r₁
        refine ⟨r₂, (Event.fold_append hrun _).trans hrun',
          hagrees.trans hagrees' hgrows.values_le, ?_⟩
        rw [cons_append, map_cons, (hagrees' flag hflag).2, hholds,
          hflags, hword, truths_of_agrees hagrees]
        · rfl
        · intro link hlink
          obtain ⟨l, hl, rfl⟩ := mem_map.mp hlink
          exact (hlinks l (mem_cons_of_mem _ hl)).2

/-! ## Calls of the library -/

theorem callWithin_ref {path : String} {p : Procedure} (h : Library.procedures.lookup path = some p)
    (hmodule : moduleClasses.contains path = false) (depth : Nat) (args : CallArgs Value) :
    callWithin (depth + 1) (.ref path) args =
      p.apply path (callWithin depth) args := by
  rw [callWithin, invoke]
  simp only [hmodule, Library.callPath, Library.procedure?, h]
  rfl

private theorem callWithin_cast (depth id : Nat) (type : String) (view : View) :
    callWithin (depth + 1) (.ref "arith.ArithValue") ⟨[.ssa id type view], []⟩ =
      pure (.ssa id type .arith) := by
  rw [callWithin_ref (p := Library.castTo .arith) rfl (by decide)]
  rfl

private theorem callWithin_test (depth : Nat) (cond : Value) :
    callWithin (depth + 1) (.ref "scf.scf_if") ⟨[cond], []⟩ = ControlFlow.openIf cond := by
  rw [callWithin_ref (p := Procedure.of1 (.required "cond") ControlFlow.openIf) rfl (by decide)]
  rfl

def constantParams : List Param :=
  [.required "py_cst", .optional "type", .optional "index" (.bool false)]

private theorem callWithin_constant (depth : Nat) {args : CallArgs Value}
    (h : bindParams constantParams args = .ok [v, given, .bool index]) :
    callWithin (depth + 1) (.ref "arith.constant") args = Arith.constant v given index := by
  rw [callWithin_ref (p :=
    Procedure.of3 (.required "py_cst") (.optional "type") (.optional "index" (.bool false))
    fun v type index => do Arith.constant v type (← truth index)) rfl (by decide)]
  simp only [Procedure.of3, Procedure.apply, Procedure.run]
  rw [show bindParams [_, _, _] args = _ from h]
  rfl

def constantType? (given : Value) (index : Bool) : Option String :=
  if index then some "index"
  else match given with
    | .type t => some t
    | .none => some "si64"
    | _ => none

private theorem constant_eq_of_type (hv : v.isInt = true)
    (h : constantType? given index = some type) :
    Arith.constant v given index = Arith.constant v (.type type) := by
  cases index with
  | true =>
    cases h
    simp only [Arith.constant, indexConstantOp, if_true, Bool.false_eq_true,
      if_false, Value.isNone, pure_bind]
  | false =>
    cases given with
    | type t => cases h; rfl
    | none =>
      cases h
      have hinfer : Arith.inferType v = pure (.type "si64") := by
        cases v with
        | int n => rfl
        | bool b => rfl
        | _ => cases hv
      simp only [Arith.constant, Bool.false_eq_true, if_false,
        if_true, Value.isNone, hinfer, pure_bind]
    | _ => cases h

/-! ## Operands in source -/

section

variable (call : Caller) (env : Surroundings) (s : Session) (type : String)

/-- What a side of a comparison denotes: the word that a name is bound to, or the number of a
constant whose arguments are evaluated without building anything. -/
inductive Denotes (t : SourceTree) : Operand → Prop
  | word {id : Nat} {view : View} (hkind : t.isKind "Name" = true)
      (hlookup : (lookup env (t.field "id").text).exec s = (.ok (.ssa id type view), s))
      (hid : id < s.values) : Denotes t (.word id)
  | literal {args : CallArgs Value} {v given : Value} {index : Bool}
      {n : Int} (hkind : t.isKind "Call" = true)
      (hlookup : (lookup env "constant").exec s = (.ok (.ref "arith.constant"), s))
      (hpositional : ∀ u : Session, u.frames = s.frames →
        (evaluateAll call env ((t.field "args").items.map expression)).exec u =
          (.ok args.positional, u))
      (hnamed : ∀ u : Session, u.frames = s.frames →
        (evaluateNamed call env ((t.field "keywords").items.map fun k =>
          ((k.field "arg").text, (k.field "value").expression))).exec u = (.ok args.named, u))
      (hbind : bindParams constantParams args = .ok [v, given, .bool index])
      (hv : v.int? = some n) (htype : constantType? given index = some type) :
        Denotes t (.literal n)

end

theorem supplies_of_denotes {depth : Nat} {t' : SourceTree} (hwrap : wrapComparand t = .ok t')
    (hcast : (lookup env wrapperName).exec s = (.ok (.ref "arith.ArithValue"), s))
    (h : Denotes (callWithin (depth + 1)) env s type t o) :
    Supplies (callWithin (depth + 1)) env s.frames type t'.expression o := by
  cases h with
  | @word id view hkind hlookup hid =>
    rw [wrapComparand, if_pos hkind] at hwrap
    cases hwrap
    refine .word fun u hu => ?_
    have harg : (evaluate (callWithin (depth + 1)) env t.expression).exec u =
        (.ok (.ssa id type view), u) := by
      rw [expression_name hkind, evaluate]
      exact exec_lookup_of_frames hu hlookup
    rw [expression_callOf, map_singleton,
      exec_callName (exec_lookup_of_frames hu hcast)
      (exec_evaluateAll_single harg) (exec_evaluateNamed_nil u), callWithin_cast]
    rfl
  | @literal args v given index n hkind hlookup hpositional hnamed hbind hv htype =>
    have hint : v.isInt = true := by simp [Value.isInt, hv]
    -- a constant is not wrapped, for its call holds it for arithmetic already
    rw [wrapComparand, if_neg (by simp [isKind_eq_false hkind]), if_pos hkind] at hwrap
    split at hwrap
    · rename_i hfunc
      cases hwrap
      refine .literal hv fun u hu => ?_
      rw [expression_call hkind, expression_of_name? hfunc,
        exec_callName (exec_lookup_of_frames hu hlookup)
          (hpositional u hu) (hnamed u hu), callWithin_constant depth hbind,
          constant_eq_of_type hint htype, Arith.exec_constant (Value.isIndex_of_isInt hint)]
    · cases hwrap

theorem Denotes.isBelow (h : Denotes call env s type t o) : o.IsBelow s.values := by
  cases h with
  | word _ _ hid => exact hid
  | literal => trivial

private theorem Denotes.exists_word (h : Denotes call env s type t o)
    (hname : t.isKind "Name" = true) : ∃ id, o = .word id := by
  cases h with
  | word => exact ⟨_, rfl⟩
  | literal hkind =>
    rw [isKind_eq_false hkind (by decide)] at hname
    cases hname

/-! ## Tests in source -/

/-- What a test compares, and how, where a branch is reached. -/
structure TestDenotes (depth : Nat) (env : Surroundings) (s : Session)
  (type : String) (test : SourceTree)
    (left : Operand) (chain : List (WordComparison × Operand)) : Prop where
  isWord : Arith.isWordType type = true
  wrapper : (lookup env wrapperName).exec s = (.ok (.ref "arith.ArithValue"), s)
  opener : (lookup env testName).exec s = (.ok (.ref "scf.scf_if"), s)
  signs : (test.field "ops").items.mapM comparisonSign? =
    some (chain.map fun link => .operator link.1.binary)
  left : Denotes (callWithin (depth + 1)) env s type (test.field "left") left
  sides : Forall₂ (Denotes (callWithin (depth + 1)) env s type)
    (test.field "comparators").items (chain.map Prod.snd)
  ne_nil : chain ≠ []

section

variable {depth : Nat} {test wrapped : SourceTree} {left : Operand}
  {chain : List (WordComparison × Operand)}

private theorem exists_links
    (hcast : (lookup env wrapperName).exec s = (.ok (.ref "arith.ArithValue"), s))
    {items wraps : List SourceTree} (hwraps : items.mapM wrapComparand = .ok wraps) (hsides :
      Forall₂ (Denotes (callWithin (depth + 1)) env s type) items (chain.map Prod.snd)) :
    ∃ links : List Link, links.map (fun l => (l.comparison, l.operand)) = chain ∧
      links.map Link.comparand =
        (chain.map fun link => ComparisonSign.operator link.1.binary).zip (wraps.map expression) ∧
      ∀ l ∈ links, Supplies (callWithin (depth + 1)) env
        s.frames type l.expression l.operand ∧
        l.operand.IsBelow s.values := by
  induction chain generalizing items wraps with
  | nil => exact ⟨[], rfl, by simp, by simp⟩
  | cons link chain ih =>
    cases hsides with
    | @cons t _ rest _ hside hrest =>
      rw [mapM_cons] at hwraps
      obtain ⟨wrap, hwrap, hwraps⟩ := bind_eq_ok.mp hwraps
      obtain ⟨others, hothers, hwraps⟩ := bind_eq_ok.mp hwraps
      cases hwraps
      obtain ⟨links, hchain, hcomparands, hlinks⟩ := ih hothers hrest
      refine ⟨⟨link.1, wrap.expression, link.2⟩ :: links, by simp [hchain],
        by simp [hcomparands, Link.comparand], ?_⟩
      intro l hl
      rcases mem_cons.mp hl with rfl | hl
      · exact ⟨supplies_of_denotes hwrap hcast hside, hside.isBelow⟩
      · exact hlinks l hl

private theorem exists_wraps (h : wrapTest test = .ok wrapped) :
    (test.field "left").isKind "Name" = true ∧
      ∃ wraps, (test.field "comparators").items.mapM wrapComparand = .ok wraps ∧
        wrapped = SourceTree.call testName [comparisonOf wraps
          (SourceTree.call wrapperName [test.field "left"]) (test.field "ops")] := by
  have hchecked := (wrapTest_eq_ok h).1
  rw [wrapTest_of_isChecked hchecked] at h
  obtain ⟨wraps, hwraps, hcall⟩ := bind_eq_ok.mp h
  cases hcall
  simp only [isChecked, Bool.and_eq_true] at hchecked
  exact ⟨hchecked.1.2, wraps, hwraps, rfl⟩

/-- A wrapped test builds its comparisons and opens the branch on the last of them. -/
theorem exec_wrapTest (hwrap : wrapTest test = .ok wrapped)
    (h : TestDenotes depth env s type test left chain) :
    ∃ flags cond t es,
      (evaluate (callWithin (depth + 1)) env wrapped.expression).exec s =
        (.ok (.bool true), t.branched (.ssa cond "i1" .arith)) ∧
      s.Grows t es ∧
      ∀ {w : Nat} (r : Registers w), ∃ r', r.run es = some r' ∧
        (flags ++ [cond]).map r'.flag = truths (Arith.isIndex type) r (left.value r) chain := by
  obtain ⟨hname, wraps, hwraps, rfl⟩ := exists_wraps hwrap
  obtain ⟨x, rfl⟩ := h.left.exists_word hname
  obtain ⟨links, rfl, hcomparands, hlinks⟩ := exists_links h.wrapper hwraps h.sides
  have hfirst :
      wrapComparand (test.field "left") = .ok (call wrapperName [test.field "left"]) :=
    if_pos hname
  have hleft : (evaluate (callWithin (depth + 1)) env
      (call wrapperName [test.field "left"]).expression).exec s =
        (.ok (.ssa x type .arith), s) := by
    cases supplies_of_denotes hfirst h.wrapper h.left with
    | word hword => exact hword s rfl
  obtain ⟨flags, cond, t, es, hcompare, hgrows, hruns⟩ :=
    exec_compareAll h.isWord (by simpa using h.ne_nil) h.left.isBelow hlinks
  refine ⟨flags, cond, t, es, ?_, hgrows, fun r => ?_⟩
  · have hexpression : (comparisonOf wraps (call wrapperName [test.field "left"])
        (test.field "ops")).expression =
        .compare (call wrapperName [test.field "left"]).expression
          (links.map Link.comparand) := by
      rw [hcomparands]
      exact expression_compare rfl h.signs
    have hcondition : (evaluate (callWithin (depth + 1)) env
        (.compare (call wrapperName [test.field "left"]).expression
          (links.map Link.comparand))).exec s =
          (.ok (.ssa cond "i1" .arith), t) := by
      rw [evaluate, exec_bind_ok hleft]
      exact hcompare
    rw [expression_callOf, map_singleton, hexpression,
      exec_callName h.opener (exec_evaluateAll_single hcondition)
        (exec_evaluateNamed_nil t), callWithin_test]
    exact exec_openIf rfl t
  · obtain ⟨r', hrun, -, hflags⟩ := hruns r
    exact ⟨r', hrun, hflags⟩

theorem events_branched (s : Session) (cond : Nat) : ∃ branch rest,
    (s.branched (.ssa cond "i1" .arith)).events = s.events ++ branch :: rest ∧
      branch.condition? = some cond := by
  have hevents : (s.branched (.ssa cond "i1" .arith)).events = s.events ++ [_] ++ [_] ++ [_] := rfl
  rw [append_assoc, append_assoc] at hevents
  refine ⟨_, _, hevents, ?_⟩
  rw [Session.frozen_ssa]
  rfl

/-- A test that was wrapped opens its branch on a condition that is true where all its comparisons
hold, and if it is one comparison only there.  Integers are compared as signed, indices as unsigned,
which is the same where none is negative. -/
theorem branch_of_wrapTest (hwrap : wrapTest test = .ok wrapped)
    (h : TestDenotes depth env s type test left chain) :
    ∃ (es rest : List Event) (branch : Event) (flags : List Nat) (cond : Nat) (t : Session),
      (evaluate (callWithin (depth + 1)) env wrapped.expression).exec s =
        (.ok (.bool true), t) ∧
      t.events = s.events ++ (es ++ branch :: rest) ∧ branch.condition? = some cond ∧
      ∀ {w : Nat} (r : Registers w), ∃ r', r.run es = some r' ∧
        flags.map r'.flag = truths (Arith.isIndex type) r (left.value r) chain ∧
        ((truths (Arith.isIndex type) r (left.value r) chain).all id = true → r'.flag cond = true) ∧
        (chain.length = 1 → r'.flag cond =
          (truths (Arith.isIndex type) r (left.value r) chain).all id) ∧
        ((∀ o ∈ left :: chain.map Prod.snd, 0 ≤ (o.value r).toInt) →
          truths (Arith.isIndex type) r (left.value r) chain =
            truths false r (left.value r) chain) := by
  obtain ⟨flags, cond, t, es, hexec, hgrows, hruns⟩ := exec_wrapTest hwrap h
  obtain ⟨branch, rest, hevents, hcondition⟩ := events_branched t cond
  refine ⟨es, rest, branch, flags ++ [cond], cond, _, hexec, ?_, hcondition, fun r => ?_⟩
  · rw [hevents, hgrows.events, List.append_assoc]
  · obtain ⟨r', hrun, hflags⟩ := hruns r
    refine ⟨r', hrun, hflags, ?_, ?_, ?_⟩
    · intro hall
      rw [← hflags] at hall
      simpa using List.all_eq_true.mp hall (r'.flag cond) (by simp)
    · intro hone
      have hlength := congrArg List.length hflags
      rw [length_truths, hone, List.length_map, List.length_append] at hlength
      obtain rfl : flags = [] := List.eq_nil_of_length_eq_zero (by simpa using hlength)
      simp [← hflags]
    · intro hnonneg
      rw [List.forall_mem_cons] at hnonneg
      exact truths_of_nonneg _ hnonneg.1 hnonneg.2

def twoCounters : Session :=
  { values := 2, frames := [[("i", .ssa 0 "index" .plain), ("n", .ssa 1 "index" .plain)]] }

def counterNames : Surroundings :=
  ⟨0, ["i", "n"], [], Table.putAll [("constant", .ref "arith.constant")]
    (Function.tracedGlobals "scf.scf_range" "end_for"), false⟩

def belowTest : SourceTree :=
  comparisonOf [name "n"] (name "i") (.list [.node "Lt" []])

def withinTest : SourceTree :=
  comparisonOf [name "n", .node "Call" [("args", .list [constant (.int 8)]),
      ("func", name "constant"), ("keywords", .list [.node "keyword"
        [("arg", .leaf (.str "index")), ("value", constant (.bool true))]])]]
    (name "i") (.list [.node "Lt" [], .node "LtE" []])

private theorem denotes_belowTest :
    TestDenotes 0 counterNames twoCounters "index" belowTest (.word 0) [(.lt, .word 1)] where
  isWord := by decide
  wrapper := rfl
  opener := rfl
  signs := rfl
  left := .word rfl rfl (by decide)
  sides := .cons (.word rfl rfl (by decide)) .nil
  ne_nil := by simp

theorem denotes_withinTest :
    TestDenotes 0 counterNames twoCounters "index" withinTest
      (.word 0) [(.lt, .word 1), (.le, .literal 8)] where
  isWord := by decide
  wrapper := rfl
  opener := rfl
  signs := rfl
  left := .word rfl rfl (by decide)
  sides := .cons (.word rfl rfl (by decide)) (.cons
    (@Denotes.literal _ _ _ _ _ ⟨[.int 8], [("index", .bool true)]⟩ (.int 8) .none true 8 rfl rfl
      (fun _ _ => rfl) (fun _ _ => rfl) rfl rfl rfl) .nil)
  ne_nil := by simp

def counterValues (i n : BitVec 64) : Registers 64 :=
  ⟨fun id => if id = 0 then i else n, fun _ => false⟩

/-- The branch of a test is opened on a condition that has this value for these counters. -/
def HasCondition (test : SourceTree) (i n : BitVec 64) (holds : Bool) : Prop :=
  ∃ wrapped es rest branch cond t r', wrapTest test = .ok wrapped ∧
    (evaluate (callWithin 1) counterNames wrapped.expression).exec twoCounters =
      (.ok (.bool true), t) ∧
    t.events = es ++ branch :: rest ∧ branch.condition? = some cond ∧
    (counterValues i n).run es = some r' ∧ r'.flag cond = holds

theorem withinTest_holds : HasCondition withinTest 3 5 true := by
  obtain ⟨es, rest, branch, flags, cond, t, hexec, hevents, hcondition, hruns⟩ :=
    branch_of_wrapTest rfl denotes_withinTest
  obtain ⟨r', hrun, -, hall, -⟩ := hruns (counterValues 3 5)
  exact ⟨_, es, rest, branch, cond, t, r', rfl, hexec, hevents, hcondition, hrun, hall (by decide)⟩

private theorem hasCondition_of_denotes {i n : BitVec 64}
    {holds : Bool} (hwrap : wrapTest test = .ok wrapped)
    (h : TestDenotes 0 counterNames twoCounters "index" test (.word 0) chain)
    (hlast : (truths true (counterValues i n) i chain).getLast? = some holds) :
    HasCondition test i n holds := by
  obtain ⟨flags, cond, t, es, hexec, hgrows, hruns⟩ := exec_wrapTest hwrap h
  obtain ⟨branch, rest, hevents, hcondition⟩ := events_branched t cond
  obtain ⟨r', hrun, hflags⟩ := hruns (counterValues i n)
  have hflag : ((flags ++ [cond]).map r'.flag).getLast? = some holds := hflags ▸ hlast
  rw [map_append, map_singleton, getLast?_concat, Option.some_inj] at hflag
  refine ⟨wrapped, es, rest, branch, cond, _, r', hwrap, hexec, ?_, hcondition, hrun, hflag⟩
  rw [hevents, hgrows.events]
  rfl

/-- Minus one is below one, but not as an index; and of `7 < 5 <= 8` only the end counts. -/
theorem condition_ne_conjunction :
    HasCondition belowTest (-1) 1 false ∧ (-1 : BitVec 64).toInt < (1 : BitVec 64).toInt ∧
    HasCondition withinTest 7 5 true ∧ ¬(7 : BitVec 64).toInt < (5 : BitVec 64).toInt :=
  ⟨hasCondition_of_denotes rfl denotes_belowTest rfl, by decide,
    hasCondition_of_denotes rfl denotes_withinTest rfl, by decide⟩

end

end BranchTest

end Polyloom
