/-!
Why an operation of the library stops without a result.

A fault is a cause, not a text.  The few causes that carry words of their own keep
them as data; `Fault.message` is the one place that says which words those are.
-/

namespace Polyloom

inductive DocumentLayer where
  | character
  | token
  | grammar
  | reference
  | content
  deriving DecidableEq, Repr

inductive Fault where
  /-- A condition the operation checks does not hold. -/
  | assertion (text : String)
  /-- The input is well formed but outside of what the operation covers. -/
  | unsupported (text : String)
  /-- An argument has the right kind and an impossible value. -/
  | badValue (text : String)
  | failure (text : String)
  | refused (text : String)
  | compilation (text : String)
  /-- A file that cannot be opened, by the number of the cause. -/
  | file (number : Nat) (text : String)
  /-- An argument of the wrong kind, or a wrong number of arguments. -/
  | wrongKind
  | noAttribute
  | noKey
  | outOfRange
  | noImport
  | divisionByZero
  | unboundName
  | unassigned
  /-- An argument that the operation table does not take. -/
  | rejected
  | wrongCast
  | illFormed
  /-- A document that does not follow the grammar of mappings and scalars. -/
  | malformed (layer : DocumentLayer)
  /-- The step bound of an interpreter ran out. -/
  | exhausted
  deriving DecidableEq, Repr

namespace Fault

def message : Fault → Option String
  | .assertion text | .unsupported text | .badValue text | .failure text
  | .refused text | .compilation text | .file _ text => if text.isEmpty then none else some text
  | _ => none

end Fault

end Polyloom
