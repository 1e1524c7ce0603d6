import Polyloom.Dialect.Catalog
import Polyloom.Fault
import Polyloom.Text.LetterCase
import Polyloom.Text.Pieces

/-!
The source text of visitor classes, made from a list of dialect modules.

A dialect's name is read off the name of the module that holds its operation classes.
-/

namespace Polyloom.Dialect

structure OpModule where
  path : String
  ops : List String
  deriving DecidableEq, Repr

/-- The dialect name in a module path; two families put their dialect last, and one
name is a reserved word that takes an underscore. -/
def nameOfPath (path : String) : Except Fault String :=
  match (Text.replace (Text.lastPiece path ".") "_ops_gen" "").toList with
  | [] => .error .outOfRange
  | '_' :: rest =>
    .ok <| match String.ofList rest with
      | "loop_transform" => "transform_loop"
      | "structured_transform" => "transform_structured"
      | "async" => "async_"
      | name => name
  | _ => .error (.assertion "")

def capitalizedName (name : String) : String :=
  String.join ((Text.splitOn name "_").map Text.capitalize)

def attributeName (name : String) : String :=
  if Text.endsWith name "_" then String.ofList name.toList.dropLast else name

private def classLines (name : String) (ops : List String) : List String :=
  s!"class {capitalizedName name}DialectVisitor(DialectVisitor):" ::
    ops.flatMap fun op =>
      [s!"    def visit_{op}(self, op: {name}.{op}):", "        pass", ""]

private def walkLines : List String :=
  ["    def visit(self, op: Operation):",
   "        for r in op.regions:",
   "            for b in r.blocks:",
   "                for o in b.operations:",
   "                    *dialect, name = o.operation.name.split(\".\")",
   "                    dialect = \"_\".join(dialect)",
   "                    dialect_visitor: DialectVisitor = getattr(",
   "                        self, f\"\x7bdialect\x7d_visitor\"",
   "                    )",
   "                    assert dialect_visitor is not None, f\"missing \x7bdialect\x7d visitor\"",
   "                    dialect_visitor.visit(o.operation.opview)",
   "                    self.visit(o.operation)"]

def visitorLines (modules : List OpModule) : Except Fault (List String) := do
  let named ← modules.mapM fun m => return (← nameOfPath m.path, m.ops)
  let attributes := named.map fun (name, _) => (attributeName name, capitalizedName name)
  return ["class AllDialectVisitor:", "    def __init__(", "        self,"]
    ++ attributes.map (fun (a, _) => s!"        {a}_visitor_ctor=None,")
    ++ ["    ):"]
    ++ attributes.map (fun (a, c) =>
        s!"        if {a}_visitor_ctor is None: {a}_visitor_ctor = {c}DialectVisitor")
    ++ attributes.map (fun (a, _) => s!"        self.{a}_visitor = {a}_visitor_ctor(self)")
    ++ [""] ++ walkLines ++ ["", ""]
    ++ named.flatMap (fun (name, ops) => classLines name ops)
    ++ [""]

def generated? : String → Option OpModule
  | "affine" => some ⟨"_affine_ops_gen", affine.ops⟩
  | "async_dialect" => some ⟨"_async_ops_gen", asynchronous.ops⟩
  | "llvm" => some ⟨"_llvm_ops_gen", llvm.ops⟩
  | "omp" => some ⟨"_omp_ops_gen", omp.ops⟩
  | _ => none

end Polyloom.Dialect
