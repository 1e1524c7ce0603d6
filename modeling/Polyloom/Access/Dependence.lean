import Polyloom.Access.Memory
import Polyloom.Constraint.Enumerate

/-!
Dependences between accesses.

Two accesses depend on each other if they touch the same element in some iterations.  The
variables of the second access's common loops are told apart from those of the first by a
tick.
-/

namespace Polyloom

def primed (s : String) : String := s ++ "'"

namespace Access

def commonLoops : List String → List String → List String
  | a :: as, b :: bs => if a = b then a :: commonLoops as bs else []
  | _, _ => []

def commonVariables (printed : String → String) (src dst : Access) : List String :=
  (commonLoops src.loops dst.loops).map printed

def tickedConstraints (ivs : List String) (a : Access) : List Constraint :=
  a.constraints.map fun c => ivs.foldl (fun c iv => c.rename iv (primed iv)) c

def composePair (printed : String → String) (src dst : Access) : List String × List Constraint :=
  if src.memref ≠ dst.memref then ([], [])
  else
    let ivs := commonVariables printed src dst
    (src.symbolic ++ dst.symbolic, src.constraints ++ dst.tickedConstraints ivs)

def compose (printed : String → String) : List Access → List String × List Constraint
  | [] => ([], [])
  | a :: rest =>
    let pairs := rest.map (composePair printed a)
    let (names, cs) := compose printed rest
    ((pairs.flatMap Prod.fst ++ names).eraseDups, pairs.flatMap Prod.snd ++ cs)

/-- How many of the common loops a depth constrains; a negative depth counts from the end. -/
def constrainedLoops (loops : Nat) (depth : Int) : Nat :=
  let d := min (loops : Int) depth
  if d < 0 then (loops + d).toNat else d.toNat

/-- The constraints on the common loops at a depth: the second access is later in the loop of
that depth and in the same iteration of the loops around it. -/
def orderingFrom (depth : Int) : Nat → List String → List Constraint
  | _, [] => []
  | i, iv :: rest =>
    let c : Constraint :=
      if (i : Int) < depth - 1 then .compare .eq (.var (primed iv)) (.var iv)
      else .compare .ge (.var (primed iv)) (.add (.var iv) (.const 1))
    c :: orderingFrom depth (i + 1) rest

def ordering (printed : String → String) (src dst : Access) (depth : Int) : List Constraint :=
  let ivs := commonVariables printed src dst
  orderingFrom depth 0 (ivs.take (constrainedLoops ivs.length depth))

def system (printed : String → String) (src dst : Access) (depth : Int) :
    List String × List Constraint :=
  let (names, cs) := compose printed [src, dst]
  (names, cs ++ ordering printed src dst depth)

def swapFirst {α : Type} : List α → Except Fault (List α)
  | a :: b :: rest => .ok (b :: a :: rest)
  | _ => .error .outOfRange

/-- Is there a solution?  The answer is an optimum in the order of the given variables and then
of the others; the caller's list has its first two members exchanged. -/
def check (solver : List String → Solver) (quants : List String) (cs : List Constraint) :
    Except Fault (Option Model × List Constraint) := do
  let shown ← swapFirst cs
  let names := quants ++ (distinct (shown.flatMap Constraint.vars)).filter fun s => s ∉ quants
  return ((optimize (solver names) 1 names shown).model?, shown)

def distanceName (i : Nat) : String := "v" ++ i.repr

def distances : Nat → List String → List Constraint
  | _, [] => []
  | i, iv :: rest =>
    .compare .eq (.var (distanceName i)) (.sub (.var (primed iv)) (.var iv)) ::
      distances (i + 1) rest

/-- For every common loop the distances in the first and in the last of the solutions, in the
lexicographic order of the distances. -/
def direction (solver : Bool → List String → Solver) (printed : String → String)
    (src dst : Access) (depth : Int) : Except Fault (Option (List (String × Int × Int))) := do
  let (_, cs) := system printed src dst depth
  let ivs := commonVariables printed src dst
  if ivs.isEmpty then return none
  let names := (List.range ivs.length).map distanceName
  let cs := cs ++ distances 0 ivs
  match (solver true names).model? cs, (solver false names).model? cs with
  | some low, some high => return some (names.map fun v => (v, low.value v, high.value v))
  | _, _ => throw (.assertion "couldn't minimize dir vec")

end Access

end Polyloom
