import Polyloom.Fault

/-!
Element types of host arrays: their spellings, their canonical text, and which of them can
be passed to compiled code.
-/

namespace Polyloom

inductive ByteOrder where
  | little
  | big
  deriving DecidableEq, Repr

inductive ElementType where
  | boolean
  | signed (bytes : Nat) (order : ByteOrder)
  | unsigned (bytes : Nat) (order : ByteOrder)
  | floating (bytes : Nat) (order : ByteOrder)
  | complex (bytes : Nat) (order : ByteOrder)
  | object
  | bytes (length : Nat)
  | characters (length : Nat) (order : ByteOrder)
  | void (length : Nat)
  | time (duration : Bool) (unit : String) (order : ByteOrder)
  deriving DecidableEq, Repr

namespace ElementType

def spellings : List (String × ElementType) :=
  [("bool", .boolean), ("bool_", .boolean), ("?", .boolean), ("b1", .boolean),
   ("int8", .signed 1 .little), ("byte", .signed 1 .little), ("b", .signed 1 .little),
   ("i1", .signed 1 .little),
   ("int16", .signed 2 .little), ("short", .signed 2 .little), ("h", .signed 2 .little),
   ("i2", .signed 2 .little),
   ("int32", .signed 4 .little), ("intc", .signed 4 .little), ("i", .signed 4 .little),
   ("i4", .signed 4 .little),
   ("int64", .signed 8 .little), ("int", .signed 8 .little), ("int_", .signed 8 .little),
   ("intp", .signed 8 .little), ("long", .signed 8 .little), ("longlong", .signed 8 .little),
   ("l", .signed 8 .little), ("q", .signed 8 .little), ("p", .signed 8 .little),
   ("n", .signed 8 .little), ("i8", .signed 8 .little),
   ("uint8", .unsigned 1 .little), ("ubyte", .unsigned 1 .little), ("B", .unsigned 1 .little),
   ("u1", .unsigned 1 .little),
   ("uint16", .unsigned 2 .little), ("ushort", .unsigned 2 .little), ("H", .unsigned 2 .little),
   ("u2", .unsigned 2 .little),
   ("uint32", .unsigned 4 .little), ("uintc", .unsigned 4 .little), ("I", .unsigned 4 .little),
   ("u4", .unsigned 4 .little),
   ("uint64", .unsigned 8 .little), ("uint", .unsigned 8 .little), ("uintp", .unsigned 8 .little),
   ("ulong", .unsigned 8 .little), ("ulonglong", .unsigned 8 .little), ("L", .unsigned 8 .little),
   ("Q", .unsigned 8 .little), ("P", .unsigned 8 .little), ("N", .unsigned 8 .little),
   ("u8", .unsigned 8 .little),
   ("float16", .floating 2 .little), ("half", .floating 2 .little), ("e", .floating 2 .little),
   ("f2", .floating 2 .little),
   ("float32", .floating 4 .little), ("single", .floating 4 .little), ("f", .floating 4 .little),
   ("f4", .floating 4 .little),
   ("float64", .floating 8 .little), ("double", .floating 8 .little),
     ("float", .floating 8 .little),
   ("d", .floating 8 .little), ("f8", .floating 8 .little),
   ("float128", .floating 16 .little), ("longdouble", .floating 16 .little),
   ("g", .floating 16 .little), ("f16", .floating 16 .little),
   ("complex64", .complex 8 .little), ("csingle", .complex 8 .little), ("F", .complex 8 .little),
   ("c8", .complex 8 .little),
   ("complex128", .complex 16 .little), ("cdouble", .complex 16 .little),
   ("complex", .complex 16 .little), ("D", .complex 16 .little), ("c16", .complex 16 .little),
   ("complex256", .complex 32 .little), ("clongdouble", .complex 32 .little),
   ("G", .complex 32 .little), ("c32", .complex 32 .little),
   ("object", .object), ("object_", .object), ("O", .object), ("O8", .object),
   ("c", .bytes 1), ("S", .bytes 0), ("bytes", .bytes 0), ("bytes_", .bytes 0),
   ("U", .characters 0 .little), ("str", .characters 0 .little), ("str_", .characters 0 .little),
   ("V", .void 0), ("void", .void 0),
   ("M8", .time false "" .little), ("M", .time false "" .little),
   ("datetime64", .time false "" .little),
   ("m8", .time true "" .little), ("m", .time true "" .little),
   ("timedelta64", .time true "" .little)]

def ofNative? (text : String) : Option ElementType :=
  match spellings.lookup text with
  | some type => some type
  | none =>
    match text.toList with
    | 'S' :: digits => (String.ofList digits).toNat?.map .bytes
    | 'U' :: digits => (String.ofList digits).toNat?.map (.characters · .little)
    | 'V' :: digits => (String.ofList digits).toNat?.map .void
    | _ => none

def withOrder (order : ByteOrder) : ElementType → ElementType
  | .signed n o => .signed n (if n = 1 then o else order)
  | .unsigned n o => .unsigned n (if n = 1 then o else order)
  | .floating n _ => .floating n order
  | .complex n _ => .complex n order
  | .characters n _ => .characters n order
  | .time d u _ => .time d u order
  | type => type

def parse? (text : String) : Option ElementType :=
  match text.toList with
  | '>' :: rest => (ofNative? (String.ofList rest)).map (withOrder .big)
  | '<' :: rest | '=' :: rest | '|' :: rest => ofNative? (String.ofList rest)
  | _ => ofNative? text

private def numeric (name code : String) (bytes : Nat) : ByteOrder → String
  | .little => name ++ (8 * bytes).repr
  | .big => ">" ++ code ++ bytes.repr

def text : ElementType → String
  | .boolean => "bool"
  | .signed n o => numeric "int" "i" n o
  | .unsigned n o => numeric "uint" "u" n o
  | .floating n o => numeric "float" "f" n o
  | .complex n o => numeric "complex" "c" n o
  | .object => "object"
  | .bytes n => "|S" ++ n.repr
  | .characters n .little => "<U" ++ n.repr
  | .characters n .big => ">U" ++ n.repr
  | .void n => "|V" ++ n.repr
  | .time false u .little => "datetime64" ++ u
  | .time true u .little => "timedelta64" ++ u
  | .time false u .big => ">M8" ++ u
  | .time true u .big => ">m8" ++ u

def supported : List (String × ElementType) :=
  [("float16", .floating 2 .little), ("float32", .floating 4 .little),
   ("float64", .floating 8 .little), ("uint8", .unsigned 1 .little), ("int8", .signed 1 .little),
   ("int32", .signed 4 .little), ("int64", .signed 8 .little), ("bool", .boolean)]

def checkSupported (type : ElementType) : Except Fault Unit :=
  if supported.any fun (_, t) => t == type then .ok ()
  else
    let listed := ", ".intercalate (supported.map fun (name, _) => s!"<class 'numpy.{name}'>")
    .error (.assertion
      s!"Only numpy arrays with dtypes in [{listed}] are supported, but got {type.text}")

end ElementType

end Polyloom
