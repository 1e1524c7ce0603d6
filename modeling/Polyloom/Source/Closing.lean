import Polyloom.Fault
import Polyloom.Source.Tree

/-!
Calls that close loops and branches.

A builder learns where a loop or a branch of a traced function ends from calls at those
places.  `closeLoops` and `closeBranches` put them in; the test of a branch is handed to a
call as well.
-/

namespace Polyloom.SourceTree

/-! ## Loops -/

mutual

def closeLoops (ending : String) : SourceTree → SourceTree
  | .node kind fields =>
    if kind = "For" then .node kind (closeBody ending fields)
    else .node kind (closeLoopsIn ending fields)
  | .list items => .list (closeLoopsAll ending items)
  | .leaf d => .leaf d

def closeBody (ending : String) : List (String × SourceTree) → List (String × SourceTree)
  | [] => []
  | (field, t) :: rest =>
    if field = "body" then
      (field, surround [] [callStatement ending] (closeLoops ending t)) :: closeBody ending rest
    else (field, t) :: closeBody ending rest

def closeLoopsIn (ending : String) : List (String × SourceTree) → List (String × SourceTree)
  | [] => []
  | (field, t) :: rest => (field, closeLoops ending t) :: closeLoopsIn ending rest

def closeLoopsAll (ending : String) : List SourceTree → List SourceTree
  | [] => []
  | t :: rest => closeLoops ending t :: closeLoopsAll ending rest

end

/-! ## Branches -/

def wrapperName : String := "ArithValue"

def testName : String := "scf_if"

def elseName : String := "scf_else"

def endBranchName : String := "scf_endif_branch"

def endIfName : String := "scf_endif"

/-- How a text that names a place in memory shows it; the place itself means nothing. -/
def placeText : String := "0x"

def isComparand (t : SourceTree) : Bool :=
  t.isKind "Name" || t.isKind "Constant" || t.isKind "Call"

/-- One side of a comparison: a name is wrapped, and of calls only one makes a constant. -/
def wrapComparand (t : SourceTree) : Except Fault SourceTree :=
  if t.isKind "Name" then .ok (call wrapperName [t])
  else if t.isKind "Call" then
    if (t.field "func").name? = some "constant" then .ok t else .error (.assertion "")
  else .error (.failure ("unknown kind of comparator c=" ++ placeText))

/-- The test of a branch: a comparison of a name with names and constants, handed to the
call that opens the branch. -/
def wrapTest (test : SourceTree) : Except Fault SourceTree :=
  if !test.isKind "Compare" then .error (.assertion "unexpected if test: ")
  else if !(test.field "left").isKind "Name" then .error (.assertion "unexpected if test lhs: ")
  else if !(test.field "comparators").items.all isComparand then
    .error (.assertion ("unexpected if test comparators: " ++ placeText))
  else do
    let comparators ← (test.field "comparators").items.mapM wrapComparand
    return call testName [.node "Compare"
      [("comparators", .list comparators), ("left", call wrapperName [test.field "left"]),
       ("ops", test.field "ops")]]

def closeBranch (fields : List (String × SourceTree)) : Except Fault SourceTree := do
  let t := SourceTree.node "If" fields
  let test ← wrapTest (t.field "test")
  let body := t.field "body"
  let orelse := t.field "orelse"
  let endBranch := callStatement endBranchName
  let endIf := callStatement endIfName
  return if orelse.items.isEmpty then
    .node "If" [("body", surround [] [endBranch, endIf] body), ("orelse", orelse), ("test", test)]
  else
    .node "If" [("body", surround [] [endBranch] body),
      ("orelse", surround [callStatement elseName] [endBranch, endIf] orelse), ("test", test)]

mutual

def closeBranches : SourceTree → Except Fault SourceTree
  | .node kind fields => do
    if kind = "If" then closeBranch (← closeArms fields)
    else return .node kind (← closeBranchesIn fields)
  | .list items => return .list (← closeBranchesAll items)
  | .leaf d => return .leaf d

def closeArms : List (String × SourceTree) → Except Fault (List (String × SourceTree))
  | [] => return []
  | (field, t) :: rest => do
    let t' ← if field = "test" then pure t else closeBranches t
    return (field, t') :: (← closeArms rest)

def closeBranchesIn : List (String × SourceTree) → Except Fault (List (String × SourceTree))
  | [] => return []
  | (field, t) :: rest => do
    let t' ← closeBranches t
    return (field, t') :: (← closeBranchesIn rest)

def closeBranchesAll : List SourceTree → Except Fault (List SourceTree)
  | [] => return []
  | t :: rest => do
    let t' ← closeBranches t
    return t' :: (← closeBranchesAll rest)

end

/-! ## Functions -/

def endWith (statement : SourceTree) : SourceTree → SourceTree
  | .node kind fields =>
    .node kind (fields.map fun (field, t) =>
      (field, if field = "body" then surround [] [statement] t else t))
  | t => t

def returnNothing : SourceTree := .node "Return" [("value", constant .null)]

def module (body : List SourceTree) : SourceTree :=
  .node "Module" [("body", .list body), ("type_ignores", .list [])]

/-- A traced function: its loops and branches closed, and returning in any case. -/
def trace (ending : String) (f : SourceTree) : Except Fault SourceTree :=
  if f.isKind "FunctionDef" then do
    return endWith returnNothing (← closeBranches (closeLoops ending f))
  else .error (.assertion ("unexpected ast node " ++ placeText))

def traceNames (ending : String) : List String :=
  ([ending, "range", wrapperName, elseName, testName, endBranchName, endIfName].eraseDups).mergeSort
    fun a b => a < b || a == b

def defaults (f : SourceTree) : List Datum :=
  ((f.field "args").field "defaults").items.filterMap fun t =>
    match t.field "value" with
    | .leaf d => if t.isKind "Constant" then some d else none
    | _ => none

end Polyloom.SourceTree
