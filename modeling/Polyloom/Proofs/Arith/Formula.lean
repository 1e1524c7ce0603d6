import Mathlib
import Polyloom.Proofs.Arith.Words
import Polyloom.Proofs.Source.Expression

/-!
# Formulas over words

A formula of sums, differences and products, in which literals stand on either side of operators, is
evaluated to a value whose word, when the operations that were built are run, is that of the
formula.  There is one exception: a literal minus a word is built as the word minus the literal.
-/

namespace Polyloom

open Build Event Execute

/-! ## Formulas -/

/-- Formulas in which every operator has a word among its operands. -/
inductive WordFormula where
  | name (id : String)
  | both (op : WordOperator) (a b : WordFormula)
  | literalLeft (op : WordOperator) (n : Int) (b : WordFormula)
  | literalRight (op : WordOperator) (a : WordFormula) (n : Int)
  deriving DecidableEq, Repr

namespace WordFormula

def expression : WordFormula → Expression
  | .name id => .name id
  | .both op a b => .binary op.binary a.expression b.expression
  | .literalLeft op n b => .binary op.binary (.constant (.int n)) b.expression
  | .literalRight op a n => .binary op.binary a.expression (.constant (.int n))

def names : WordFormula → List String
  | .name id => [id]
  | .both _ a b => a.names ++ b.names
  | .literalLeft _ _ b => b.names
  | .literalRight _ a _ => a.names

def value {R : Type} [CommRing R] (x : String → R) : WordFormula → R
  | .name id => x id
  | .both op a b => op.apply (a.value x) (b.value x)
  | .literalLeft op n b => op.apply (n : R) (b.value x)
  | .literalRight op a n => op.apply (a.value x) (n : R)

/-- The formula with the word in front in every difference of a literal and a word. -/
def turned : WordFormula → WordFormula
  | .name id => .name id
  | .both op a b => .both op a.turned b.turned
  | .literalLeft .sub n b => .literalRight .sub b.turned n
  | .literalLeft op n b => .literalLeft op n b.turned
  | .literalRight op a n => .literalRight op a.turned n

def isStraight : WordFormula → Bool
  | .name _ => true
  | .both _ a b => a.isStraight && b.isStraight
  | .literalLeft op _ b => op ≠ .sub && b.isStraight
  | .literalRight _ a _ => a.isStraight

private theorem turned_of_isStraight {f : WordFormula} (h : f.isStraight = true) :
    f.turned = f := by
  induction f with
  | name id => rfl
  | both op a b iha ihb =>
    simp only [isStraight, Bool.and_eq_true] at h
    rw [turned, iha h.1, ihb h.2]
  | literalLeft op n b ih =>
    simp only [isStraight, Bool.and_eq_true, decide_eq_true_eq] at h
    cases op with
    | sub => exact absurd rfl h.1
    | add => rw [turned, ih h.2]; simp
    | mul => rw [turned, ih h.2]; simp
  | literalRight op a n ih => rw [turned, ih h]

variable {R : Type} [CommRing R]

private theorem value_congr {f : WordFormula} {x y : String → R}
    (h : ∀ name ∈ f.names, x name = y name) :
    f.value x = f.value y := by
  induction f with
  | name id => exact h id (by simp [names])
  | both op a b iha ihb =>
    rw [value, value, iha fun name hname => h name (by simp [names, hname]),
      ihb fun name hname => h name (by simp [names, hname])]
  | literalLeft op n b ih => rw [value, value, ih h]
  | literalRight op a n ih => rw [value, value, ih h]

private theorem names_turned (f : WordFormula) : f.turned.names = f.names := by
  induction f with
  | name id => rfl
  | both op a b iha ihb => simp [turned, names, iha, ihb]
  | literalLeft op n b ih => cases op <;> simp [turned, names, ih]
  | literalRight op a n ih => simp [turned, names, ih]

private theorem value_turned_literalLeft (op : WordOperator)
    (n : Int) (b : WordFormula) (x : String → R) :
    (literalLeft op n b).turned.value x = op.apply (b.turned.value x) (n : R) := by
  cases op <;> simp [turned, value, WordOperator.apply, add_comm, mul_comm]

/-! ## Evaluation -/

variable {s t u : Session} {es es' : List Event} {type : String}

/-- Between two sessions only operations on words were built.  They can be run, and keep the words
that were there. -/
structure Builds (s t : Session) (es : List Event) : Prop extends s.Grows t es where
  runs : ∀ (R : Type) [CommRing R] (m : Nat → R), ∃ m', runWords m es = some m' ∧
    ∀ i < s.values, m' i = m i

private theorem Builds.refl (s : Session) : Builds s s [] :=
  ⟨.refl s, fun _ _ m => ⟨m, rfl, fun _ _ => rfl⟩⟩

theorem Builds.trans (h : Builds s t es) (h' : Builds t u es') : Builds s u (es ++ es') := by
  refine ⟨h.toGrows.trans h'.toGrows, ?_⟩
  intro R _ m
  obtain ⟨m₁, hrun, hkept⟩ := h.runs R m
  obtain ⟨m₂, hrun', hkept'⟩ := h'.runs R m₁
  refine ⟨m₂, (fold_append hrun _).trans hrun', fun i hi => ?_⟩
  rw [hkept' i (hi.trans_le h.values_le), hkept i hi]

theorem builds_native {path : String} {args : List Value}
    (h : ∀ (R : Type) [CommRing R] (m : Nat → R), ∃ x,
      (s.nativeEvent path args type).word? m = some (s.values, x)) :
    Builds s (s.createNative path args type) [s.nativeEvent path args type] := by
  refine ⟨s.grows_createNative path args type, ?_⟩
  intro R _ m
  obtain ⟨x, hx⟩ := h R m
  refine ⟨_, fold_single (wordStep_eq hx), fun i hi => ?_⟩
  exact Function.update_of_ne (Nat.ne_of_lt hi) ..

private theorem builds_constant (s : Session) (type : String) (n : Int) :
    Builds s (s.createNative "arith.ConstantOp" [.type type, .int n] type)
      [s.nativeEvent "arith.ConstantOp" [.type type, .int n] type] :=
  builds_native fun R _ m => ⟨(n : R), word?_constant rfl s type m⟩

theorem builds_operation (op : WordOperator) (s : Session) (type : String) (a b : Nat) :
    Builds s (s.createNative op.path [.ssa a type .arith, .ssa b type .arith] type)
      [s.nativeEvent op.path [.ssa a type .arith, .ssa b type .arith] type] :=
  builds_native fun _ _ m => ⟨_, op.word?_nativeEvent a b s m⟩

private theorem Builds.literal (type : String) (op : WordOperator)
    (n : Int) {a : Nat} (h : Builds s t es) (ha : a < t.values) :
    ∃ es',
      Builds s ((t.createNative "arith.ConstantOp" [.type type, .int n] type).createNative op.path
        [.ssa a type .arith, .ssa t.values type .arith] type) es' ∧
      ∀ (R : Type) [CommRing R] (m m' : Nat → R), runWords m es' = some m' →
        ∃ m₁, runWords m es = some m₁ ∧ m' (t.values + 1) = op.apply (m₁ a) (n : R) := by
  set u := t.createNative "arith.ConstantOp" [.type type, .int n] type with hu
  refine ⟨_, (h.trans (builds_constant t type n)).trans (builds_operation op u type a t.values), ?_⟩
  intro R _ m m' hrun
  obtain ⟨m₁, hfirst, -⟩ := h.runs R m
  have hsecond := fold_single (wordStep_eq (word?_constant (v := .int n) rfl t type m₁))
  rw [List.append_assoc, runWords, fold_append hfirst, fold_append hsecond,
    fold_single (wordStep_eq (op.word?_nativeEvent a t.values u _))] at hrun
  cases hrun
  refine ⟨m₁, hfirst, ?_⟩
  rw [hu, Session.values_createNative, Function.update_self,
    Function.update_of_ne (Nat.ne_of_lt ha), Function.update_self]

theorem exec_evaluate (call : Caller) (env : Surroundings) (htype : Arith.isWordType type = true)
    (place : String → Nat) (f : WordFormula) (s : Session) (hnames : ∀ name ∈ f.names,
      (lookup env name).exec s = (.ok (.ssa (place name) type .arith), s) ∧
      place name < s.values) :
    ∃ v t es, (evaluate call env f.expression).exec s = (.ok (.ssa v type .arith), t) ∧
      Builds s t es ∧ v < t.values ∧
      ∀ (R : Type) [CommRing R] (m m' : Nat → R), runWords m es = some m' →
        m' v = f.turned.value fun name => m (place name) := by
  induction f generalizing s with
  | name id =>
    obtain ⟨hlookup, hlt⟩ := hnames id (by simp [names])
    refine ⟨place id, s, [], by simpa [expression, evaluate] using hlookup, .refl s, hlt, ?_⟩
    intro R _ m m' hrun
    cases hrun
    rfl
  | both op a b iha ihb =>
    obtain ⟨v₁, t₁, es₁, hexec₁, hbuilds₁, hlt₁, hvalue₁⟩ :=
      iha s fun name h => hnames name (by simp [names, h])
    obtain ⟨v₂, t₂, es₂, hexec₂, hbuilds₂, hlt₂, hvalue₂⟩ := ihb t₁ fun name h => by
      obtain ⟨hlookup, hlt⟩ := hnames name (by simp [names, h])
      exact ⟨exec_lookup_of_frames hbuilds₁.frames_eq hlookup, hlt.trans_le hbuilds₁.values_le⟩
    have hoperation := builds_operation op t₂ type v₁ v₂
    refine ⟨t₂.values, _, _, ?_, (hbuilds₁.trans hbuilds₂).trans hoperation, Nat.lt_succ_self _, ?_⟩
    · rw [expression, evaluate, exec_bind_ok hexec₁, exec_bind_ok hexec₂, op.binary_of_isArith]
      exact op.exec_applyBinary htype v₁ v₂ t₂
    · intro R _ m m' hrun
      obtain ⟨m₁, hrun₁, hkept₁⟩ := hbuilds₁.runs R m
      obtain ⟨m₂, hrun₂, hkept₂⟩ := hbuilds₂.runs R m₁
      rw [List.append_assoc, runWords, fold_append hrun₁, fold_append hrun₂,
        fold_single (wordStep_eq (op.word?_nativeEvent v₁ v₂ t₂ m₂))] at hrun
      cases hrun
      -- the second operand is built later, but from the same words
      have hsame : b.turned.value (fun name => m₁ (place name)) =
          b.turned.value fun name => m (place name) := by
        refine value_congr fun name h => hkept₁ _ ?_
        rw [names_turned] at h
        exact (hnames name (by simp [names, h])).2
      rw [Function.update_self, hkept₂ v₁ hlt₁, hvalue₁ R m m₁ hrun₁, hvalue₂ R m₁ m₂ hrun₂, hsame]
      rfl
  | literalLeft op n b ih =>
    obtain ⟨v, t, es, hexec, hbuilds, hlt, hvalue⟩ := ih s hnames
    obtain ⟨es', hbuilds', hvalue'⟩ := hbuilds.literal type op n hlt
    refine ⟨t.values + 1, _, es', ?_, hbuilds', Nat.lt_succ_self _, ?_⟩
    · rw [expression, evaluate, evaluate, pure_bind, exec_bind_ok hexec]
      exact (congrArg (fun x => x.exec t) (op.binary_literal_left n v type)).trans
        (op.exec_applyBinary_literal htype v n t)
    · intro R _ m m' hrun
      obtain ⟨m₁, hfirst, hlast⟩ := hvalue' R m m' hrun
      rw [hlast, hvalue R m m₁ hfirst, value_turned_literalLeft]
  | literalRight op a n ih =>
    obtain ⟨v, t, es, hexec, hbuilds, hlt, hvalue⟩ := ih s hnames
    obtain ⟨es', hbuilds', hvalue'⟩ := hbuilds.literal type op n hlt
    refine ⟨t.values + 1, _, es', ?_, hbuilds', Nat.lt_succ_self _, ?_⟩
    · rw [expression, evaluate, exec_bind_ok hexec, evaluate, pure_bind, op.binary_of_isArith]
      exact op.exec_applyBinary_literal htype v n t
    · intro R _ m m' hrun
      obtain ⟨m₁, hfirst, hlast⟩ := hvalue' R m m' hrun
      rw [hlast, hvalue R m m₁ hfirst]
      rfl

/-- Evaluating a formula over words of one type succeeds.  Running the operations that it builds, in
any ring and on any words, gives the value of the formula with the word in front in every difference
of a literal and a word; this is the formula as it is written unless a literal stands before a
minus. -/
theorem runWords_evaluate (call : Caller) (env : Surroundings)
    {type : String} (htype : Arith.isWordType type = true) (place : String → Nat)
    (f : WordFormula) (s : Session) (hnames : ∀ name ∈ f.names,
      (lookup env name).exec s = (.ok (.ssa (place name) type .arith), s) ∧
      place name < s.values) :
    ∃ v t es, (evaluate call env f.expression).exec s = (.ok (.ssa v type .arith), t) ∧
      t.events = s.events ++ es ∧
      ∀ (R : Type) [CommRing R] (m : Nat → R), ∃ m', runWords m es = some m' ∧
        m' v = (f.turned.value fun name => m (place name)) ∧
        (f.isStraight = true → m' v = f.value fun name => m (place name)) := by
  obtain ⟨v, t, es, hexec, hbuilds, -, hvalue⟩ := exec_evaluate call env htype place f s hnames
  refine ⟨v, t, es, hexec, hbuilds.events, ?_⟩
  intro R _ m
  obtain ⟨m', hrun, -⟩ := hbuilds.runs R m
  have hturned := hvalue R m m' hrun
  refine ⟨m', hrun, hturned, ?_⟩
  intro hstraight
  rw [hturned, turned_of_isStraight hstraight]

theorem isWordType_i32 : Arith.isWordType "i32" = true := by cbv

def twoWords : Session :=
  { values := 2, frames := [[("x", .ssa 0 "i32" .arith), ("y", .ssa 1 "i32" .arith)]] }

def twoNames : Surroundings := ⟨0, ["x", "y"], [], [], false⟩

def noCalls : Caller := fun _ _ => throw .wrongKind

def doubled : WordFormula :=
  .both .sub (.literalLeft .mul 2 (.name "x")) (.literalRight .add (.name "y") 3)

theorem runWords_doubled : ∃ v t es,
    (evaluate noCalls twoNames doubled.expression).exec twoWords = (.ok (.ssa v "i32" .arith), t) ∧
    t.events = es ∧ (∀ m : Nat → Int, ∃ m', runWords m es = some m' ∧ m' v = 2 * m 0 - (m 1 + 3)) ∧
    ∀ m : Nat → BitVec 32, ∃ m', runWords m es = some m' ∧ m' v = 2 * m 0 - (m 1 + 3) := by
  obtain ⟨v, t, es, hexec, hevents, hruns⟩ := runWords_evaluate noCalls twoNames isWordType_i32
    (fun name => if name = "x" then 0 else 1) doubled twoWords (by
      intro name hname
      simp only [doubled, names, List.cons_append, List.nil_append,
        List.mem_cons, List.not_mem_nil, or_false] at hname
      rcases hname with rfl | rfl
      · exact ⟨rfl, by decide⟩
      · exact ⟨rfl, by decide⟩)
  refine ⟨v, t, es, hexec, hevents, fun m => ?_, fun m => ?_⟩
  · obtain ⟨m', hrun, -, hvalue⟩ := hruns Int m
    exact ⟨m', hrun, hvalue rfl⟩
  · obtain ⟨m', hrun, -, hvalue⟩ := hruns (BitVec 32) m
    exact ⟨m', hrun, hvalue rfl⟩

/-- Seven minus a word is built as the word minus seven. -/
theorem literal_minus_word_reversed : ∃ v t es m',
    (evaluate noCalls twoNames (literalLeft .sub 7 (.name "x")).expression).exec twoWords =
      (.ok (.ssa v "i32" .arith), t) ∧
    t.events = es ∧ runWords (fun _ => (1 : Int)) es = some m' ∧ m' v = -6 ∧
    (literalLeft .sub 7 (.name "x")).value (fun _ => (1 : Int)) = 6 := by
  obtain ⟨v, t, es, hexec, hbuilds, -, hvalue⟩ := exec_evaluate noCalls twoNames isWordType_i32
    (fun _ => 0) (literalLeft .sub 7 (.name "x")) twoWords (by
      intro name hname
      obtain rfl : name = "x" := by simpa [names] using hname
      exact ⟨rfl, by decide⟩)
  obtain ⟨m', hrun, -⟩ := hbuilds.runs Int fun _ => 1
  exact ⟨v, t, es, m', hexec, hbuilds.events, hrun, hvalue Int _ m' hrun, rfl⟩

end WordFormula

end Polyloom
