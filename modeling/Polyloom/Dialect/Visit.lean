import Polyloom.Dialect.Catalog
import Polyloom.Text.Pieces

/-!
Walking over a tree of operations.

An operation holds regions, a region blocks and a block operations.  The walk meets the
operations below a root in pre-order and hands each to the visitor of its dialect, which
dispatches on the operation's class.  It stops at the first operation that cannot be
handed over or dispatched.
-/

namespace Polyloom

/-- An operation: its name, its class and the operations of its regions' blocks. -/
inductive OpTree where
  | node (name cls : String) (regions : List (List (List OpTree)))
  deriving Repr, Inhabited

namespace OpTree

def name : OpTree → String
  | .node name _ _ => name

def cls : OpTree → String
  | .node _ cls _ => cls

def regions : OpTree → List (List (List OpTree))
  | .node _ _ regions => regions

def dialectKey (name : String) : String :=
  "_".intercalate (Text.splitOn name ".").dropLast

mutual

def descendants : OpTree → List OpTree
  | .node _ _ regions => descendantsOfRegions regions

def descendantsOfRegions : List (List (List OpTree)) → List OpTree
  | [] => []
  | region :: rest => descendantsOfBlocks region ++ descendantsOfRegions rest

def descendantsOfBlocks : List (List OpTree) → List OpTree
  | [] => []
  | block :: rest => descendantsOfOps block ++ descendantsOfBlocks rest

def descendantsOfOps : List OpTree → List OpTree
  | [] => []
  | op :: rest => op :: (op.descendants ++ descendantsOfOps rest)

end

end OpTree

inductive VisitFault where
  | unknownDialect (key : String)
  | unknownClass (cls : String)
  deriving DecidableEq, Repr

def VisitFault.message : VisitFault → Option String
  | .unknownDialect key => some s!"'AllDialectVisitor' object has no attribute '{key}_visitor'"
  | .unknownClass _ => none

structure Visit where
  dialect : Dialect
  cls : String
  deriving DecidableEq, Repr

/-- Hand one operation to its dialect.  The visit is noted before the class is looked up. -/
def OpTree.dispatch (op : OpTree) : List Visit × Option VisitFault :=
  match Dialect.find? (dialectKey op.name) with
  | none => ([], some (.unknownDialect (dialectKey op.name)))
  | some d =>
    ([⟨d, op.cls⟩], if d.ops.contains op.cls then none else some (.unknownClass op.cls))

def dispatchAll : List OpTree → List Visit × Option VisitFault
  | [] => ([], none)
  | op :: rest =>
    match op.dispatch with
    | (visits, some fault) => (visits, some fault)
    | (visits, none) =>
      let (later, fault) := dispatchAll rest
      (visits ++ later, fault)

def OpTree.visit (root : OpTree) : List Visit × Option VisitFault :=
  dispatchAll root.descendants

end Polyloom
