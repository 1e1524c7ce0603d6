import Polyloom.Fault
import Polyloom.Text.Pieces

/-!
Functions that consume the results of a compiled program.

The result types are part of such a function's name: a fixed beginning, then one token per
result, joined by underscores.
-/

namespace Polyloom.ReturnFunction

def marker : String := "refbackend_consume_func_return_"

def scalars : List (String × String) :=
  [("i1", "c_bool"), ("i8", "c_byte"), ("i64", "c_int"), ("f32", "c_float"), ("f64", "c_double")]

def buffers : List String :=
  ["mrf16", "mrf32", "mrf64", "mri1", "mri8", "mri32", "mri64"]

def descriptor : String := "memref*"

def argumentType (token : String) : Except Fault String :=
  match scalars.lookup token with
  | some type => .ok type
  | none =>
    if buffers.contains token then .ok descriptor
    else .error (.assertion s!"Not supported type: {token}")

/-- The tokens of a name: what follows the marker's length, cut at underscores. -/
def tokens (name : String) : List String :=
  Text.splitOn (Text.dropFront name marker.length) "_"

def signature (name : String) : Except Fault (List (String × String)) :=
  (tokens name).mapM fun token => return (token, ← argumentType token)

def select (symbols : List String) : List String :=
  (symbols.map fun s => Text.replace s "\"" "").filter fun s => Text.startsWith s marker

end Polyloom.ReturnFunction
