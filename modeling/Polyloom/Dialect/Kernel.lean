import Polyloom.Dialect.Visit
import Polyloom.Fault

/-!
The kernel of a module: the one operation of the one block of its one region.
-/

namespace Polyloom.OpTree

def kernel (module : OpTree) : Except Fault OpTree :=
  match module.regions with
  | [[[op]]] => .ok op
  | [[_]] => .error (.assertion "Expected kernel module to have only one operation")
  | [_] => .error (.assertion "Expected kernel module to have only one block")
  | _ => .error (.assertion "Expected kernel module to have only one region")

end Polyloom.OpTree
