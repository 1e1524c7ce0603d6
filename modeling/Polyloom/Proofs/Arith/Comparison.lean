import Polyloom.Proofs.Arith.Words

/-!
# Comparisons of words

A comparison builds one operation, whose predicate is signed for integers and unsigned for indices.
When it is run on words of some width, its flag says whether the comparison holds of the numbers
that the words stand for.
-/

namespace Polyloom

variable {i w : Nat}

/-! ## Running comparisons -/

structure Registers (w : Nat) where
  word : Nat → BitVec w
  flag : Nat → Bool

namespace Registers

variable {w : Nat}

def predicate? (x y : BitVec w) : Int → Option Bool
  | 0 => some (x == y)
  | 1 => some (x != y)
  | 2 => some (x.slt y)
  | 3 => some (x.sle y)
  | 4 => some (y.slt x)
  | 5 => some (y.sle x)
  | 6 => some (x.ult y)
  | 7 => some (x.ule y)
  | 8 => some (y.ult x)
  | 9 => some (y.ule x)
  | _ => none

def flag? (r : Registers w) : Event → Option (Nat × Bool)
  | .create _ "arith.CmpIOp" _ [.ssa v _ _]
      (.native [.attribute "IntegerAttr" (.listed [.type "i64", .int p]),
        .ssa a _ _, .ssa b _ _] []) =>
      (predicate? (r.word a) (r.word b) p).map fun holds => (v, holds)
  | _ => none

def step (r : Registers w) (e : Event) : Option (Registers w) :=
  match e.word? r.word with
  | some (v, x) => some { r with word := Function.update r.word v x }
  | none => (r.flag? e).map fun entry => { r with flag := Function.update r.flag entry.1 entry.2 }

abbrev run (r : Registers w) (es : List Event) : Option (Registers w) := Event.fold step r es

theorem step_constant {v : Value} {n : Int} (hv : v.int? = some n) (s : Session) (type : String)
    (r : Registers w) : r.step (s.nativeEvent "arith.ConstantOp" [.type type, v] type) =
      some ⟨Function.update r.word s.values (n : BitVec w), r.flag⟩ := by
  rw [step, Event.word?_constant hv]

def Agrees (n : Nat) (r r' : Registers w) : Prop :=
  ∀ i < n, r'.word i = r.word i ∧ r'.flag i = r.flag i

theorem Agrees.trans {n k : Nat} {r r' r'' : Registers w} (h : Agrees n r r') (h' : Agrees k r' r'')
    (hle : n ≤ k) : Agrees n r r'' := by
  intro i hi
  obtain ⟨hword, hflag⟩ := h i hi
  obtain ⟨hword', hflag'⟩ := h' i (hi.trans_le hle)
  exact ⟨hword'.trans hword, hflag'.trans hflag⟩

end Registers

/-! ## Building comparisons -/

inductive WordComparison where
  | lt
  | gt
  | le
  | ge
  | eq
  deriving DecidableEq, Repr

namespace WordComparison

open Build Arith

def binary : WordComparison → BinaryOperator
  | .lt => .lt
  | .gt => .gt
  | .le => .le
  | .ge => .ge
  | .eq => .eq

def holds : WordComparison → Int → Int → Bool
  | .lt, x, y => x < y
  | .gt, x, y => y < x
  | .le, x, y => x ≤ y
  | .ge, x, y => y ≤ x
  | .eq, x, y => x = y

def predicate (isIndex : Bool) : WordComparison → Int
  | .lt => if isIndex then 6 else 2
  | .le => if isIndex then 7 else 3
  | .gt => if isIndex then 8 else 4
  | .ge => if isIndex then 9 else 5
  | .eq => 0

def predicateValue (isIndex : Bool) (c : WordComparison) : Value :=
  .attribute "IntegerAttr" (.listed [.type "i64", .int (c.predicate isIndex)])

def number {w : Nat} (isIndex : Bool) (x : BitVec w) : Int := if isIndex then x.toNat else x.toInt

private theorem predicate?_predicate (c : WordComparison) (isIndex : Bool) (x y : BitVec w) :
    Registers.predicate? x y (c.predicate isIndex) =
      some (c.holds (number isIndex x) (number isIndex y)) := by
  cases c <;> cases isIndex <;>
    simp [predicate, Registers.predicate?, holds, number, BitVec.slt,
      BitVec.sle, BitVec.ult, BitVec.ule, BitVec.toInt_inj, BitVec.toNat_inj, beq_eq_decide]

variable {type : String}

private theorem exec_compareIntegers {name : String}
    (hi : integerPredicates.idxOf? name = some i) (x y : Nat)
    (s : Session) : (compareIntegers (.str name) (.ssa x type .arith) (.ssa y type .arith)).exec s =
    (.ok (.op s.ops.length "arith.CmpIOp"), s.createNative "arith.CmpIOp" [.attribute "IntegerAttr"
    (.listed [.type "i64", .int i]), .ssa x type .arith, .ssa y type .arith] "i1") := by
  have hnow : (now (.str name)).exec s = (.ok (s.frozen (.str name)), s) := rfl
  have hattribute : (predicateAttribute integerPredicates (.str name)).exec s =
      (.ok (.attribute "IntegerAttr" (.listed [.type "i64", .int i])), s) := by
    rw [predicateAttribute]
    simp only [Value.isMutable, Bool.false_eq_true, if_false]
    rw [exec_bind_ok hnow, hi]
    rfl
  have hcls : "CmpIOp" ≠ "PadOp" := by decide
  rw [compareIntegers, compareBy, exec_bind_ok hattribute]
  exact exec_native "arith" hcls rfl

private theorem exec_order (c : WordComparison) (h : isWordType type = true)
    (floats integers indices name : String) {j : Nat}
    (hi : integerPredicates.idxOf? integers = some i) (hci : c.predicate false = i)
    (hj : integerPredicates.idxOf? indices = some j) (hcj : c.predicate true = j)
    (x y : Nat) (s : Session) :
    (order floats integers indices name (.ssa x type .arith) (.ssa y type .arith)).exec s =
      (.ok (.op s.ops.length "arith.CmpIOp"), s.createNative "arith.CmpIOp"
        [c.predicateValue (isIndex type), .ssa x type .arith, .ssa y type .arith] "i1") := by
  have htype : (typeOf (.ssa x type .arith)).exec s = (.ok type, s) := rfl
  rw [order, exec_bind_ok htype, isFloat_of_isWordType h]
  rcases isWordType_cases h with ⟨hinteger, hindex⟩ | ⟨hinteger, hindex⟩
  · rw [hinteger, hindex, predicateValue, hci]
    exact exec_compareIntegers hi x y s
  · rw [hinteger, hindex, predicateValue, hcj]
    exact exec_compareIntegers hj x y s

theorem exec_applyBinary (c : WordComparison) (h : Arith.isWordType type = true)
    (x y : Nat) (s : Session) :
    (Arith.applyBinary c.binary (.ssa x type .arith) (.ssa y type .arith)).exec s =
      (.ok (.ssa s.values "i1" .arith), s.createNative "arith.CmpIOp"
        [c.predicateValue (Arith.isIndex type), .ssa x type .arith, .ssa y type .arith] "i1") := by
  suffices hmade : (Arith.binary c.binary (.ssa x type .arith) (.ssa y type .arith)).exec s =
      (.ok (.op s.ops.length "arith.CmpIOp"), s.createNative "arith.CmpIOp"
        [c.predicateValue (Arith.isIndex type), .ssa x type .arith, .ssa y type .arith] "i1") by
    exact (exec_bind_ok hmade).trans (exec_arithResult ..)
  cases c with
  | lt => exact exec_order .lt h "olt" "slt" "ult" "lt" rfl rfl rfl rfl x y s
  | le => exact exec_order .le h "ole" "sle" "ule" "le" rfl rfl rfl rfl x y s
  | ge => exact exec_order .ge h "oge" "sge" "uge" "ge" rfl rfl rfl rfl x y s
  | eq => exact exec_order .eq h "oeq" "eq" "eq" "eq" rfl rfl rfl rfl x y s
  | gt =>
    -- only a floating-point number on the left is compared with an integer on the right
    have hgt :
        (Arith.binary WordComparison.gt.binary (.ssa x type .arith) (.ssa y type .arith)).exec s =
        (Arith.order "ogt" "sgt" "ugt" "gt" (.ssa x type .arith) (.ssa y type .arith)).exec s := by
      simp only [binary, Arith.binary, Arith.gt, asValue, typeOf,
        pure_bind, Arith.isFloat_of_isWordType h, Bool.false_and, Bool.false_eq_true, if_false]
    rw [hgt]
    exact exec_order .gt h "ogt" "sgt" "ugt" "gt" rfl rfl rfl rfl x y s

theorem binary_of_isArith (c : WordComparison) (x : Nat) (type : String) (y : Value) :
    Operator.binary c.binary (.ssa x type .arith) y =
      applyBinary c.binary (.ssa x type .arith) y := by
  cases c <;> rfl

theorem step_nativeEvent (c : WordComparison) (isIndex : Bool) (x y : Nat) (s : Session)
    (r : Registers w) : r.step (s.nativeEvent "arith.CmpIOp" [c.predicateValue isIndex,
    .ssa x type .arith, .ssa y type .arith] "i1") = some ⟨r.word, Function.update r.flag s.values
    (c.holds (number isIndex (r.word x)) (number isIndex (r.word y)))⟩ := by
  have hfrozen : s.frozen (c.predicateValue isIndex) = c.predicateValue isIndex := by
    simp [predicateValue, Session.frozen, Session.freeze, Value.expand, Value.expandAll]
  simp only [Session.nativeEvent, List.map_cons, List.map_nil, hfrozen, Session.frozen_ssa]
  have hflag : r.flag? (.create s.ops.length "arith.CmpIOp" s.current [.ssa s.values "i1" .plain]
      (.native [c.predicateValue isIndex, .ssa x type .arith, .ssa y type .arith] [])) =
      (Registers.predicate? (r.word x) (r.word y) (c.predicate isIndex)).map fun holds =>
        (s.values, holds) := rfl
  rw [Registers.step, hflag, predicate?_predicate]
  rfl

end WordComparison

end Polyloom
