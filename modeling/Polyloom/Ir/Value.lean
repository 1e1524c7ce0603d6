import Polyloom.Backend.ElementType
import Polyloom.Datum
import Polyloom.Ir.TypeText

/-!
What a script handles: plain data, types, values and operations of the program that is being
built, and objects that are kept in the session by number.

A list is kept by number too, since a call may change a list that its caller still holds.
-/

namespace Polyloom

/-- The class under which a value of the program is held; it decides which operators it has. -/
inductive View where
  | plain
  | arith
  | memref
  | unrankedMemref
  | rankedAffine
  | unrankedAffine
  | tensor
  deriving DecidableEq, Repr, Inhabited

namespace View

def name : View → String
  | .plain => "Value"
  | .arith => "ArithValue"
  | .memref => "MemRefValue"
  | .unrankedMemref => "UnrankedMemRefValue"
  | .rankedAffine => "RankedAffineMemRefValue"
  | .unrankedAffine => "UnrankedAffineMemRefValue"
  | .tensor => "TensorValue"

def path : View → String
  | .plain => "ir.Value"
  | .arith => "arith.ArithValue"
  | .memref => "memref.MemRefValue"
  | .unrankedMemref => "memref.UnrankedMemRefValue"
  | .rankedAffine => "affine.RankedAffineMemRefValue"
  | .unrankedAffine => "affine.UnrankedAffineMemRefValue"
  | .tensor => "tensor.TensorValue"

def all : List View :=
  [.plain, .arith, .memref, .unrankedMemref, .rankedAffine, .unrankedAffine, .tensor]

def ofPath? (path : String) : Option View := all.find? fun v => v.path = path

def isBuffer : View → Bool
  | .memref | .unrankedMemref | .rankedAffine | .unrankedAffine => true
  | _ => false

def isAffine : View → Bool
  | .rankedAffine | .unrankedAffine => true
  | _ => false

def isUnranked : View → Bool
  | .unrankedMemref | .unrankedAffine => true
  | _ => false

end View

inductive Value where
  | none
  | bool (b : Bool)
  | int (n : Int)
  | real (bits : UInt64)
  | str (s : String)
  | list (cell : Nat)
  | listed (items : List Value)
  | tuple (items : List Value)
  | dict (entries : List (Value × Value))
  | type (text : String)
  | ssa (id : Nat) (type : String) (view : View)
  | attribute (cls : String) (payload : Value)
  /-- An attribute made by a builder that is known by name only. -/
  | built (builder : String) (payload : Value)
  | map (text : String)
  | op (id : Nat) (cls : String)
  | block (id : Nat)
  | region (op index : Nat)
  | blocks (ids : List Nat)
  | module (op : Nat)
  /-- A parameter's type together with the class its value is held under. -/
  | annot (holder type : Value)
  | ref (path : String)
  | object (id : Nat)
  | shown (text : String)
  | named (cls : String)
  | array (element : ElementType) (shape nonzero : List Nat)
  | machineInt (n : Int)
  deriving Repr, Inhabited

namespace Value

def ofDatum : Datum → Value
  | .null => .none
  | .bool b => .bool b
  | .int n => .int n
  | .real bits => .real bits
  | .str s => .str s
  | .list _ | .map _ => .none

/-- Integers are numbers without a fraction, truth values included. -/
def int? : Value → Option Int
  | .int n => some n
  | .bool b => some (if b then 1 else 0)
  | _ => Option.none

def isInt (v : Value) : Bool := v.int?.isSome

def isNumber : Value → Bool
  | .int _ | .bool _ | .real _ => true
  | _ => false

def isNone : Value → Bool
  | .none => true
  | _ => false

def isType : Value → Bool
  | .type _ => true
  | _ => false

def isAttribute : Value → Bool
  | .attribute _ _ | .built _ _ => true
  | _ => false

def isMutable : Value → Bool
  | .list _ | .listed _ | .dict _ | .array _ _ _ => true
  | _ => false

def payload : Value → Value
  | .attribute _ v | .built _ v => v
  | v => v

def same : Value → Value → Bool
  | .none, .none => true
  | .str s, .str t => s == t
  | .type s, .type t => s == t
  | .ssa i _ _, .ssa j _ _ => i == j
  | .op i _, .op j _ => i == j
  | .block i, .block j => i == j
  | .module i, .module j => i == j
  | .ref p, .ref q => p == q
  | .object i, .object j => i == j
  | .list i, .list j => i == j
  | x, y => match x.int?, y.int? with
      | some m, some n => m == n
      | _, _ => false

/-! ## Texts -/

def classNames : List (String × String) :=
  [("arith.ArithValue", "nelli.mlir.arith.ArithValue"),
   ("memref.MemRefValue", "nelli.mlir.memref.MemRefValue"),
   ("memref.UnrankedMemRefValue", "nelli.mlir.memref.UnrankedMemRefValue"),
   ("affine.RankedAffineMemRefValue", "nelli.mlir.affine.affine.RankedAffineMemRefValue"),
   ("affine.UnrankedAffineMemRefValue", "nelli.mlir.affine.affine.UnrankedAffineMemRefValue"),
   ("tensor.TensorValue", "nelli.mlir.tensor.TensorValue"),
   ("missing", "inspect._empty")]

def classText (path : String) : String :=
  "<class '" ++ (classNames.lookup path).getD path ++ "'>"

def ssaText (id : Nat) (t : String) : View → String
  | .plain => "%" ++ id.repr ++ ": " ++ t
  | view => view.name ++ "(%" ++ id.repr ++ ": " ++ t ++ ")"

mutual

def display : Value → String
  | .none => "None"
  | .bool true => "True"
  | .bool false => "False"
  | .int n => n.repr
  | .real bits => Decimal.render bits
  | .str s => Text.quoted s
  | .list _ => "[...]"
  | .listed items => "[" ++ ", ".intercalate (displayAll items) ++ "]"
  | .tuple [item] => "(" ++ item.display ++ ",)"
  | .tuple items => "(" ++ ", ".intercalate (displayAll items) ++ ")"
  | .dict entries => "\x7b" ++ ", ".intercalate (displayEntries entries) ++ "\x7d"
  | .type text => text
  | .ssa id t view => ssaText id t view
  | .attribute "StringAttr" (.str s) => "\"" ++ s ++ "\""
  | .attribute _ v => v.display
  | .built _ v => v.display
  | .map text => text
  | .annot holder t =>
    "Annot(py_type=" ++ holder.display ++ ", mlir_type=" ++ t.display ++ ")"
  | .ref path => classText path
  | .shown text => text
  | .named cls => classText cls
  | .machineInt n => "c_int(" ++ n.repr ++ ")"
  | .op _ _ | .block _ | .region _ _ | .blocks _ | .module _ | .object _ | .array _ _ _ => "<0x>"

def displayAll : List Value → List String
  | [] => []
  | v :: rest => v.display :: displayAll rest

def displayEntries : List (Value × Value) → List String
  | [] => []
  | (k, v) :: rest => (k.display ++ ": " ++ v.display) :: displayEntries rest

end

def text : Value → String
  | .str s => s
  | v => v.display

end Value

/-! ## Arguments of calls -/

structure Param where
  name : String
  default : Option Value := none
  keywordOnly : Bool := false
  deriving Inhabited

namespace Param

def required (name : String) : Param := { name }

instance : Coe String Param := ⟨required⟩

def optional (name : String) (value : Value := .none) : Param := { name, default := some value }

def keyword (name : String) (value : Value := .none) : Param :=
  { name, default := some value, keywordOnly := true }

end Param

end Polyloom
