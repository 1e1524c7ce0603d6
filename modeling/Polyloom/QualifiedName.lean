import Polyloom.Fault
import Polyloom.Text.Pieces

/-!
The name a nested function is known by: the part after its enclosing function.
-/

namespace Polyloom

/-- Drop the enclosing function of a qualified name; more than one level is refused. -/
def localName (qualified : String) : Except Fault String :=
  match Text.splitOn qualified ".<locals>." with
  | [_, name] => .ok name
  | [name] => .ok name
  | _ => .error (.badValue "")

end Polyloom
