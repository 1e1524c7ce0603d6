import Polyloom.Datum

/-!
Trees of source code.

A node has a kind and named fields; a field holds a node, a list of nodes or a datum.
-/

namespace Polyloom

inductive SourceTree where
  | node (kind : String) (fields : List (String × SourceTree))
  | list (items : List SourceTree)
  | leaf (datum : Datum)
  deriving Repr, Inhabited

namespace SourceTree

/-- A node with its fields in the order in which a program has them: what is always done at
the end of a block comes last. -/
def ofFields (kind : String) (fields : List (String × SourceTree)) : SourceTree :=
  let (last, others) := fields.partition fun (name, _) => name = "finalbody"
  .node kind (others ++ last)

def isKind (kind : String) : SourceTree → Bool
  | .node k _ => k = kind
  | _ => false

def kind? : SourceTree → Option String
  | .node kind _ => some kind
  | _ => none

def field? (name : String) : SourceTree → Option SourceTree
  | .node _ fields => fields.lookup name
  | _ => none

def field (name : String) (t : SourceTree) : SourceTree := (t.field? name).getD (.leaf .null)

def items : SourceTree → List SourceTree
  | .list items => items
  | _ => []

def text? : SourceTree → Option String
  | .leaf (.str s) => some s
  | _ => none

def text (t : SourceTree) : String := t.text?.getD ""

def name? (t : SourceTree) : Option String :=
  if t.isKind "Name" then (t.field "id").text? else none

/-! ## Building trees -/

def name (id : String) : SourceTree := .node "Name" [("id", .leaf (.str id))]

def constant (d : Datum) : SourceTree := .node "Constant" [("value", .leaf d)]

def call (function : String) (args : List SourceTree) : SourceTree :=
  .node "Call" [("args", .list args), ("func", name function), ("keywords", .list [])]

def callStatement (function : String) : SourceTree := .node "Expr" [("value", call function [])]

def surround (before after : List SourceTree) : SourceTree → SourceTree
  | .list items => .list (before ++ items ++ after)
  | t => t

end SourceTree

end Polyloom
