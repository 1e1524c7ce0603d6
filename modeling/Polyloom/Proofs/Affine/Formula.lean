import Polyloom.Proofs.Affine.Build
import Polyloom.Proofs.Term.Visit

/-!
# Affine expressions as they are written

Dimensions, symbols and constants are put together by six operators.  Plain integers may stand
on the right of each, and on the left of sums and products.  Whatever is written has the value
that its operators say; it builds to an expression of that value exactly if it subtracts nowhere.
-/

namespace Polyloom

open AffineDef AffineOperator

namespace AffineOperator

variable {op : AffineOperator}

def value : AffineOperator → Int → Int → Int
  | .add, a, b => a + b
  | .sub, a, b => a - b
  | .mul, a, b => a * b
  | .mod, a, b => a - b * ⌊(a / b : Rat)⌋
  | .floorDiv, a, b => ⌊(a / b : Rat)⌋
  | .div, a, b => ⌈(a / b : Rat)⌉

def takesLeft : AffineOperator → Bool
  | .add | .mul => true
  | _ => false

def operation? : AffineOperator → Option AffineOp
  | .add => some .add
  | .sub => none
  | .mul => some .mul
  | .mod => some .mod
  | .floorDiv => some .floorDiv
  | .div => some .ceilDiv

private theorem operation?_eq_none : op.operation? = none ↔ op = .sub := by
  cases op <;> simp [operation?]

private theorem ne_sub_of_takesLeft (h : op.takesLeft = true) : op ≠ .sub := by
  rintro rfl
  simp [takesLeft] at h

private theorem eval_operation {kind : AffineOp} (h : op.operation? = some kind) (a b : Int) :
    kind.eval a b = op.value a b := by
  cases op <;> cases h
  · rfl
  · rfl
  · rw [value, AffineOp.eval, Term.floor_intCast_div, Int.fmod_def]
  · exact (Term.floor_intCast_div a b).symm
  · rw [value, AffineOp.eval, ← Term.floor_intCast_div, ← Int.ceil_neg]
    congr 1
    push_cast
    ring

private theorem value_comm (h : op.takesLeft = true) (a b : Int) : op.value a b = op.value b a := by
  cases op <;> simp [takesLeft] at h
  · exact add_comm a b
  · exact mul_comm a b

end AffineOperator

inductive AffineFormula where
  | dim (name : String)
  | sym (name : String)
  | const (n : Int)
  | binary (op : AffineOperator) (l r : AffineFormula)
  | right (op : AffineOperator) (l : AffineFormula) (n : Int)
  | left (op : AffineOperator) (h : op.takesLeft = true) (n : Int) (r : AffineFormula)

namespace AffineFormula

def value (dims syms : String → Int) : AffineFormula → Int
  | .dim s => dims s
  | .sym s => syms s
  | .const n => n
  | .binary op l r => op.value (l.value dims syms) (r.value dims syms)
  | .right op l n => op.value (l.value dims syms) n
  | .left op _ n r => op.value n (r.value dims syms)

def subtracts : AffineFormula → Bool
  | .dim _ | .sym _ | .const _ => false
  | .binary op l r => decide (op = .sub) || (l.subtracts || r.subtracts)
  | .right op l _ => decide (op = .sub) || l.subtracts
  | .left _ _ _ r => r.subtracts

def written : AffineFormula → Except Fault AffineOperand
  | .dim s => .ok (.expr (.dim s))
  | .sym s => .ok (.expr (.sym s))
  | .const n => .ok (.expr (.const (.int n)))
  | .binary op l r => do AffineOperand.apply op (← l.written) (← r.written)
  | .right op l n => do AffineOperand.apply op (← l.written) (.plain (.int n))
  | .left op _ n r => do AffineOperand.apply op (.plain (.int n)) (← r.written)

end AffineFormula

/-! ## What is written -/

def AffineDef.isWhole : AffineDef → Bool
  | .const _ | .dim _ | .sym _ => true
  | .binary _ l r | .difference l r => l.isWhole && r.isWhole
  | .bare => false

namespace AffineOperand

/-- An operand with the given value, which can be built unless `subtracts` says otherwise. -/
def Stands (value : (String → Int) → (String → Int) → Int) (subtracts : Bool) : AffineOperand → Prop
  | .plain d => ∃ n, d = .int n ∧ subtracts = false ∧ ∀ dims syms, value dims syms = n
  | .expr e => (∀ dims syms, e.eval dims syms = some (value dims syms)) ∧
      e.isBuildable = !subtracts ∧ e.isWhole = true

variable {value value' : (String → Int) → (String → Int) → Int}
  {b b' : Bool} {o : AffineOperand} {l r : AffineDef}

private theorem stands_int (n : Int) : (plain (.int n)).Stands (fun _ _ => n) false :=
  ⟨n, rfl, rfl, fun _ _ => rfl⟩

private theorem Stands.coerce (h : o.Stands value b) :
    ∃ e, o.coerce = .ok e ∧ (expr e).Stands value b := by
  cases o with
  | expr e => exact ⟨e, rfl, h⟩
  | plain d =>
    obtain ⟨n, rfl, rfl, hvalue⟩ := h
    refine ⟨.const (.int n), rfl, fun dims syms => ?_, rfl, rfl⟩
    rw [hvalue]
    rfl

private theorem Stands.negated (h : o.Stands value b) :
    ∃ o', o.negated = .ok o' ∧ o'.Stands (fun dims syms => -value dims syms) b := by
  cases o with
  | expr e =>
    obtain ⟨hvalue, hbuildable, hwhole⟩ := h
    refine ⟨_, rfl, fun dims syms => ?_, ?_, ?_⟩
    · rw [eval, hvalue]
      simp [eval, AffineLiteral.value, AffineOp.eval]
    · rw [isBuildable, hbuildable]
      simp [isBuildable]
    · rw [isWhole, hwhole]
      rfl
  | plain d =>
    obtain ⟨n, rfl, hb, hvalue⟩ := h
    exact ⟨_, rfl, -n, rfl, hb, fun dims syms => by simp only [hvalue]⟩

private theorem Stands.binary (kind : AffineOp) (hl : (expr l).Stands value b)
    (hr : (expr r).Stands value' b') :
    (expr (.binary kind l r)).Stands
      (fun dims syms => kind.eval (value dims syms) (value' dims syms)) (b || b') := by
  refine ⟨fun dims syms => ?_, ?_, ?_⟩
  · rw [eval, hl.1, hr.1]
    rfl
  · rw [isBuildable, hl.2.1, hr.2.1, Bool.not_or]
  · rw [isWhole, hl.2.2, hr.2.2]
    rfl

private theorem onExpr_of_operation {op : AffineOperator} {kind : AffineOp}
    (h : op.operation? = some kind) (hr : o.coerce = .ok r) :
    onExpr op l o = .ok (.binary kind l r) := by
  cases op <;> cases h <;> simp [onExpr, hr, bind, Except.bind, pure, Except.pure]

private theorem apply_plain_of_takesLeft {op : AffineOperator} (h : op.takesLeft = true) (d : Datum)
    (r : AffineDef) : apply op (.plain d) (.expr r) = (onExpr op r (.plain d)).map .expr := by
  cases op <;> simp [takesLeft] at h <;> rfl

private theorem Stands.onExpr (op : AffineOperator) (hl : (expr l).Stands value b)
    (ho : o.Stands value' b') :
    ∃ e, onExpr op l o = .ok e ∧
      (expr e).Stands (fun dims syms => op.value (value dims syms) (value' dims syms))
        (decide (op = .sub) || (b || b')) := by
  cases hop : op.operation? with
  | some kind =>
    obtain ⟨r, hr, hstands⟩ := ho.coerce
    have hne : op ≠ .sub := fun h => by simp [operation?_eq_none.mpr h] at hop
    refine ⟨_, onExpr_of_operation hop hr, ?_⟩
    rw [decide_eq_false hne, Bool.false_or]
    simpa only [eval_operation hop] using hl.binary kind hstands
  | none =>
    -- a difference keeps its left side and the right side times minus one
    obtain rfl := operation?_eq_none.mp hop
    obtain ⟨o', ho', hstands'⟩ := ho.negated
    obtain ⟨r, hr, hstands⟩ := hstands'.coerce
    refine ⟨.difference l r, ?_, fun dims syms => ?_, rfl, ?_⟩
    · simp [AffineOperand.onExpr, ho', hr, bind, Except.bind, pure, Except.pure]
    · rw [eval, hl.1, hstands.1]
      rfl
    · rw [isWhole, hl.2.2, hstands.2.2]
      rfl

end AffineOperand

namespace AffineFormula

open AffineOperand

private theorem exists_written (e : AffineFormula) : ∃ d, e.written = .ok (.expr d) ∧
      (expr d).Stands (fun dims syms => e.value dims syms) e.subtracts := by
  induction e with
  | dim s => exact ⟨.dim s, rfl, fun _ _ => rfl, rfl, rfl⟩
  | sym s => exact ⟨.sym s, rfl, fun _ _ => rfl, rfl, rfl⟩
  | const n => exact ⟨.const (.int n), rfl, fun _ _ => rfl, rfl, rfl⟩
  | binary op l r ihl ihr =>
    obtain ⟨a, ha, hl⟩ := ihl
    obtain ⟨b, hb, hr⟩ := ihr
    obtain ⟨d, hd, hstands⟩ := hl.onExpr op hr
    refine ⟨d, ?_, hstands⟩
    simp [written, ha, hb, apply, hd, bind, Except.bind, Except.map]
  | right op l n ih =>
    obtain ⟨a, ha, hl⟩ := ih
    obtain ⟨d, hd, hstands⟩ := hl.onExpr op (stands_int n)
    refine ⟨d, ?_, by simpa only [value, subtracts, Bool.or_false] using hstands⟩
    simp [written, ha, apply, hd, bind, Except.bind, Except.map]
  | left op h n r ih =>
    -- the operator is turned around
    obtain ⟨a, ha, hr⟩ := ih
    obtain ⟨d, hd, hstands⟩ := hr.onExpr op (stands_int n)
    have hsub : decide (op = .sub) = false := decide_eq_false (ne_sub_of_takesLeft h)
    refine ⟨d, ?_, ?_⟩
    · simp [written, ha, apply_plain_of_takesLeft h, hd, bind, Except.bind, Except.map]
    · simp only [hsub, Bool.false_or, Bool.or_false] at hstands
      simpa only [value, subtracts, value_comm h n] using hstands

end AffineFormula

/-! ## Building -/

namespace AffineDef

private theorem build_error {e : AffineDef} (hwhole : e.isWhole = true) (he : e.isBuildable = false)
    (scope : AffineScope) {build : AffineBuild} (hdims : build.allowNewDims = true)
    (hsyms : build.allowNewSymbols = true) :
    ∃ st, e.build.run.run (scope, build) = (.error .noAttribute, st) := by
  induction e generalizing scope build with
  | const | dim | sym => simp [isBuildable] at he
  | bare => simp [isWhole] at hwhole
  | difference l r => exact ⟨(scope, build), rfl⟩
  | binary op l r ihl ihr =>
    rw [isWhole, Bool.and_eq_true] at hwhole
    cases hl : l.isBuildable with
    | false =>
      obtain ⟨st, hrun⟩ := ihl hwhole.1 hl scope hdims hsyms
      exact ⟨st, Stateful.exec_bind_error hrun⟩
    | true =>
      have hr : r.isBuildable = false := by simpa [isBuildable, hl] using he
      have hadmits : build.Admits scope l := ⟨fun _ _ => .inr hdims, fun _ _ => .inr hsyms⟩
      obtain ⟨a, next, hrun, hallows, -⟩ := build_ok hl hadmits
      obtain ⟨st, hrun'⟩ :=
        ihr hwhole.2 hr (scope.after l) (hallows.1.trans hdims) (hallows.2.trans hsyms)
      exact ⟨st, (Stateful.exec_bind_ok hrun).trans (Stateful.exec_bind_error hrun')⟩

end AffineDef

namespace AffineFormula

/-- Whatever is written stands for its value.  In a state that takes new names, with whatever
names it has, it builds if it subtracts nowhere: names keep their positions, and at positions
that have the values of their names the result has the value of what was written.  With a
difference anywhere the build fails. -/
theorem build_value (e : AffineFormula) (scope : AffineScope) (build : AffineBuild)
    (hdims : build.allowNewDims = true) (hsyms : build.allowNewSymbols = true) :
    ∃ d, e.written = .ok (.expr d) ∧
      (∀ dimValue symValue, d.eval dimValue symValue = some (e.value dimValue symValue)) ∧
      (e.subtracts = false → ∃ built scope' next,
        d.build.run.run (scope, build) = (.ok built, scope', next) ∧
        scope.dimPositions <+: scope'.dimPositions ∧
          scope.symbolPositions <+: scope'.symbolPositions ∧
        (∀ s, s ∈ scope'.dims ↔ s ∈ scope.dims ∨ s ∈ d.dimNames) ∧
        (∀ s, s ∈ scope'.symbols ↔ s ∈ scope.symbols ∨ s ∈ d.symNames) ∧
        ∀ dims syms dimValue symValue, scope'.Assigns dims syms dimValue symValue →
          built.eval dims syms = some (e.value dimValue symValue)) ∧
      (e.subtracts = true → ∃ st, d.build.run.run (scope, build) = (.error .noAttribute, st)) := by
  obtain ⟨d, hwritten, hvalue, hbuildable, hwhole⟩ := e.exists_written
  refine ⟨d, hwritten, hvalue, fun hsub => ?_, fun hsub => ?_⟩
  · rw [hsub] at hbuildable
    have hadmits : build.Admits scope d := ⟨fun _ _ => .inr hdims, fun _ _ => .inr hsyms⟩
    obtain ⟨built, next, hrun, -, heval⟩ := build_ok hbuildable hadmits
    refine ⟨built, scope.after d, next, hrun, isPrefix_noted _ _, isPrefix_noted _ _, ?_, ?_, ?_⟩
    · exact fun s => AffineScope.dims_after scope d ▸ mem_registered
    · exact fun s => AffineScope.symbols_after scope d ▸ mem_registered
    intro dims syms dimValue symValue hassigns
    rw [heval dims syms dimValue symValue hassigns, hvalue]
  · rw [hsub] at hbuildable
    exact build_error hwhole hbuildable scope hdims hsyms

def shiftedTile : AffineFormula :=
  .binary .add (.left .mul rfl 3 (.right .div (.right .add (.dim "i") (-5)) 4))
    (.binary .mod (.dim "j") (.const 7))

/-- A state that already has the names of the index and of another dimension. -/
theorem shiftedTile_builds : ∃ d, shiftedTile.written = .ok (.expr d) ∧ ∃ built scope' next,
      d.build.run.run (⟨[("k", 0), ("j", 1)], [("n", 0)]⟩, {}) = (.ok built, scope', next) ∧
        scope'.dimPositions = [("k", 0), ("j", 1), ("i", 2)] ∧
        ∀ dims syms dimValue symValue, scope'.Assigns dims syms dimValue symValue →
          built.eval dims syms = some (shiftedTile.value dimValue symValue) := by
  obtain ⟨d, hd, -, hbuilds, -⟩ :=
    build_value shiftedTile ⟨[("k", 0), ("j", 1)], [("n", 0)]⟩ {} rfl rfl
  obtain ⟨built, scope', next, hrun, -, -, -, -, hvalue⟩ := hbuilds rfl
  refine ⟨d, hd, built, scope', next, hrun, ?_, hvalue⟩
  cases hd
  have hscope : ((build _).run.run
      (⟨[("k", 0), ("j", 1)], [("n", 0)]⟩, {})).2.1.dimPositions = scope'.dimPositions :=
    congrArg (fun r => r.2.1.dimPositions) hrun
  rw [← hscope]
  rfl

/-- One less than an index has a value in every scope and cannot be built in any. -/
theorem predecessor_unbuildable :
    ∃ d, (AffineFormula.right .sub (.dim "d0") 1).written = .ok (.expr d) ∧
      d.eval (fun _ => 5) (fun _ => 0) = some 4 ∧
      (d.build.run.run ({}, {})).1 = .error .noAttribute :=
  ⟨_, rfl, rfl, rfl⟩

end AffineFormula

end Polyloom
