import Mathlib.Data.BitVec
import Polyloom.Proofs.Builder.Constants
import Polyloom.Script.Execute

/-!
# Words

Operations on integers and indices that were built are run on words of any ring: the integers, or
the integers modulo a power of two.  Building such an operation has a plain effect on the session,
and running it sets the one word that is its result.
-/

namespace Polyloom

variable {R : Type} {es : List Event} {s t : Session}

/-! ## Running operations -/

namespace Event

variable {R : Type} [CommRing R]

def word? (m : Nat → R) : Event → Option (Nat × R)
  | .create _ path _ [.ssa v _ _] (.native args []) =>
    match path, args with
    | "arith.ConstantOp", [.type _, literal] => literal.int?.map fun n => (v, (n : R))
    | "arith.AddIOp", [.ssa a _ _, .ssa b _ _] => some (v, m a + m b)
    | "arith.SubIOp", [.ssa a _ _, .ssa b _ _] => some (v, m a - m b)
    | "arith.MulIOp", [.ssa a _ _, .ssa b _ _] => some (v, m a * m b)
    | _, _ => none
  | _ => none

def wordStep (m : Nat → R) (e : Event) : Option (Nat → R) :=
  (e.word? m).map fun r => Function.update m r.1 r.2

abbrev runWords (m : Nat → R) (es : List Event) : Option (Nat → R) := fold wordStep m es

theorem wordStep_eq {m : Nat → R} {e : Event} {v : Nat} {x : R} (h : e.word? m = some (v, x)) :
    wordStep m e = some (Function.update m v x) := by
  rw [wordStep, h, Option.map_some]

end Event

/-! ## Building operations -/

namespace Session

def nativeEvent (s : Session) (path : String) (args : List Value) (type : String) : Event :=
  .create s.ops.length path s.current [.ssa s.values type .plain] (.native (args.map s.frozen) [])

/-- Events were recorded and values made; frames stay. -/
structure Grows (s t : Session) (es : List Event) : Prop extends s.Frame {.frames} {.values} t where
  events : t.events = s.events ++ es

theorem Grows.refl (s : Session) : s.Grows s [] := ⟨.refl s, by simp⟩

theorem Grows.trans {u : Session} {es' : List Event} (h : s.Grows t es) (h' : t.Grows u es') :
    s.Grows u (es ++ es') :=
  ⟨h.toFrame.trans h'.toFrame, by rw [h'.events, h.events, List.append_assoc]⟩

theorem Grows.frames_eq (h : s.Grows t es) : t.frames = s.frames :=
  h.same .frames (by simp)

theorem Grows.values_le (h : s.Grows t es) : s.values ≤ t.values :=
  h.more .values (by simp)

variable (s : Session) (path : String) (args : List Value) (type : String)

theorem grows_createNative :
    s.Grows (s.createNative path args type) [s.nativeEvent path args type] where
  same := by
    rintro _ rfl
    rfl
  more := by
    rintro _ rfl
    exact Nat.le_succ _
  events := rfl

end Session

/-! ## Arithmetic on words -/

namespace Arith

open Build

def isWordType (type : String) : Bool := isInteger type || isIndex type

theorem isWordType_cases (h : isWordType type = true) :
    isInteger type = true ∧ isIndex type = false ∨
      isInteger type = false ∧ isIndex type = true := by
  simp only [isWordType, isInteger, isIndex, Bool.or_eq_true, decide_eq_true_eq] at h
  rcases h with h | h <;> simp [isInteger, isIndex, h]

theorem isFloat_of_isWordType (h : isWordType type = true) : TypeText.isFloat type = false := by
  simp only [isWordType, isInteger, isIndex, Bool.or_eq_true, decide_eq_true_eq] at h
  rcases h with h | h <;> simp [TypeText.isFloat, h]

variable {s : Session} {type : String}

private theorem exec_combine (h : isWordType type = true) (floats cls name : String)
    (hcls : cls ≠ "PadOp") {x y : Value} (hx : asValue x = pure x)
    (hy : asValue y = pure y) (htype : (typeOf x).exec s = (.ok type, s))
    (hresults : (nativeResults cls [x, y]).exec s = (.ok [type], s)) :
    (combine floats cls name x y).exec s = (.ok (.op s.ops.length ("arith" ++ "." ++ cls)),
        s.createNative ("arith" ++ "." ++ cls) [x, y] type) := by
  have hword : (isInteger type || isIndex type) = true := h
  rw [← exec_native "arith" hcls hresults, combine, hx, hy, pure_bind,
    pure_bind, exec_bind_ok htype]
  simp only [isFloat_of_isWordType h, hword, Bool.false_eq_true, if_false, if_true]

end Arith

theorem Event.word?_constant [CommRing R] {v : Value} {n : Int}
    (hv : v.int? = some n) (s : Session) (type : String) (m : Nat → R) :
    (s.nativeEvent "arith.ConstantOp" [.type type, v] type).word? m = some (s.values, (n : R)) := by
  have hfrozen : s.frozen v = v :=
    s.frozen_of_isIndex (Value.isIndex_of_isInt (by simp [Value.isInt, hv]))
  simp [Session.nativeEvent, Event.word?, hfrozen, hv]

inductive WordOperator where
  | add
  | sub
  | mul
  deriving DecidableEq, Repr

namespace WordOperator

open Build

def binary : WordOperator → BinaryOperator
  | .add => .add
  | .sub => .sub
  | .mul => .mul

def path : WordOperator → String
  | .add => "arith.AddIOp"
  | .sub => "arith.SubIOp"
  | .mul => "arith.MulIOp"

def apply {R : Type} [CommRing R] : WordOperator → R → R → R
  | .add, x, y => x + y
  | .sub, x, y => x - y
  | .mul, x, y => x * y

variable {s : Session} {type : String}

theorem exec_applyBinary (op : WordOperator) (h : Arith.isWordType type = true)
    (a b : Nat) (s : Session) :
    (Arith.applyBinary op.binary (.ssa a type .arith) (.ssa b type .arith)).exec s =
      (.ok (.ssa s.values type .arith),
        s.createNative op.path [.ssa a type .arith, .ssa b type .arith] type) := by
  have hcombine (floats cls name : String) (hcls : cls ≠ "PadOp")
      (hresults : (nativeResults cls [.ssa a type .arith, .ssa b type .arith]).exec s =
        (.ok [type], s)) :=
    Arith.exec_combine h floats cls name hcls rfl rfl rfl hresults
  cases op with
  | add =>
    exact (exec_bind_ok (hcombine "AddFOp" "AddIOp" "add" (by decide) rfl)).trans
      (exec_arithResult ..)
  | sub =>
    exact (exec_bind_ok (hcombine "SubFOp" "SubIOp" "sub" (by decide) rfl)).trans
      (exec_arithResult ..)
  | mul =>
    exact (exec_bind_ok (hcombine "MulFOp" "MulIOp" "mul" (by decide) rfl)).trans
      (exec_arithResult ..)

theorem exec_applyBinary_literal (op : WordOperator) (h : Arith.isWordType type = true) (a : Nat)
    (n : Int) (s : Session) : (Arith.applyBinary op.binary (.ssa a type .arith) (.int n)).exec s =
      (.ok (.ssa (s.values + 1) type .arith),
        (s.createNative "arith.ConstantOp" [.type type, .int n] type).createNative op.path
          [.ssa a type .arith, .ssa s.values type .arith] type) := by
  have hother : (Arith.operandFor (.ssa a type .arith) (.int n)).exec s = _ :=
    Arith.exec_constant (v := .int n) rfl type s
  have happly :=
    op.exec_applyBinary h a s.values (s.createNative "arith.ConstantOp" [.type type, .int n] type)
  rw [Arith.applyBinary, exec_bind_ok hother]
  exact happly

theorem binary_of_isArith (op : WordOperator) (a : Nat) (type : String) (y : Value) :
    Operator.binary op.binary (.ssa a type .arith) y =
      Arith.applyBinary op.binary (.ssa a type .arith) y := by
  cases op <;> rfl

/-- An operator with a literal in front is that of the second operand, with the operands swapped. -/
theorem binary_literal_left (op : WordOperator) (n : Int) (a : Nat) (type : String) :
    Operator.binary op.binary (.int n) (.ssa a type .arith) =
      Arith.applyBinary op.binary (.ssa a type .arith) (.int n) := by
  cases op <;> rfl

theorem word?_nativeEvent [CommRing R] (op : WordOperator) (a b : Nat) (s : Session) (m : Nat → R) :
    (s.nativeEvent op.path [.ssa a type .arith, .ssa b type .arith] type).word? m =
      some (s.values, op.apply (m a) (m b)) := by
  cases op <;> simp [Session.nativeEvent, Event.word?, path, apply]

end WordOperator

end Polyloom
