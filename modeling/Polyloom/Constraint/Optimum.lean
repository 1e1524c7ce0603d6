import Polyloom.Constraint.Clause

/-!
Least and greatest values over the solutions of a constraint, and solvers.

A value is improved in growing steps until no better solution exists, and the gap is then
halved until it is closed.  Several objectives are optimised one after the other, each at
the optimum of those before it.
-/

namespace Polyloom

/-- Values of variables; those that are not listed are zero. -/
abbrev Model := List (String × Int)

namespace Model

def value (m : Model) (s : String) : Int := (m.lookup s).getD 0

def byName (m : Model) : Model := m.mergeSort fun a b => a.1 ≤ b.1

def text (m : Model) : String :=
  "\x7b" ++ ", ".intercalate (m.map fun (s, n) => s ++ ": " ++ n.repr) ++ "\x7d"

end Model

namespace Problem

def bisect (p : Problem) (e : Linear) : Nat → Int → Solution → Solution
  | 0, _, best => best
  | n + 1, infeasible, best =>
    let v := e.eval best.value
    if v ≤ infeasible + 1 then best
    else
      let mid := Int.fdiv (infeasible + v) 2
      match (p.withFact (.nonneg (e.neg.plus mid))).solution? with
      | some better => p.bisect e n infeasible better
      | none => p.bisect e n mid best

def gallop (p : Problem) (e : Linear) : Nat → Int → Solution → Solution
  | 0, _, best => best
  | n + 1, step, best =>
    let v := e.eval best.value
    match (p.withFact (.nonneg (e.neg.plus (v - step)))).solution? with
    | some better => p.gallop e n (2 * step) better
    | none => p.bisect e (2 * step.natAbs.log2 + 4) (v - step) best

def gallopLimit : Nat := 200

def minimize (p : Problem) (e : Linear) : Option Solution :=
  p.solution?.map (p.gallop e gallopLimit 1)

def minimizeAll (p : Problem) : List Linear → Option Solution
  | [] => p.solution?
  | e :: rest => do
    let s ← p.minimize e
    match rest with
    | [] => return s
    | _ => (p.withFact (.zero (e.plus (-(e.eval s.value))))).minimizeAll rest

end Problem

structure Solver where
  model? : List Constraint → Option Model

/-- A solver that is asked again and again: it keeps what it learns, so its answer may depend on
how many checks it has made. -/
structure IncrementalSolver where
  check : Nat → List Constraint → Option Model

instance : Coe Solver IncrementalSolver := ⟨fun solver => ⟨fun _ => solver.model?⟩⟩

def distinct (names : List String) : List String :=
  names.foldl (fun acc s => if s ∈ acc then acc else acc ++ [s]) []

theorem foldl_distinct (names seen : List String) (h : seen.Nodup) :
    (names.foldl (fun acc s => if s ∈ acc then acc else acc ++ [s]) seen).Nodup ∧
      ∀ s, s ∈ names.foldl (fun acc s => if s ∈ acc then acc else acc ++ [s]) seen ↔
        s ∈ seen ∨ s ∈ names := by
  induction names generalizing seen with
  | nil => simp [h]
  | cons n names ih =>
    rw [List.foldl_cons]
    by_cases hn : n ∈ seen
    · rw [if_pos hn]
      refine ⟨(ih seen h).1, fun s => (ih seen h).2 s |>.trans ?_⟩
      grind
    · rw [if_neg hn]
      have hseen : (seen ++ [n]).Nodup := by grind
      refine ⟨(ih _ hseen).1, fun s => (ih _ hseen).2 s |>.trans ?_⟩
      grind

theorem nodup_distinct (names : List String) : (distinct names).Nodup :=
  (foldl_distinct names [] List.nodup_nil).1

@[simp] theorem mem_distinct {names : List String} {s : String} :
    s ∈ distinct names ↔ s ∈ names := by
  rw [distinct, (foldl_distinct names [] List.nodup_nil).2]
  simp

namespace Solver

def plain : Solver where
  model? cs := do
    let p ← Problem.of (Constraint.all cs)
    let s ← p.solution?
    return (distinct (cs.flatMap Constraint.vars)).map fun x => (x, s.value (.name x))

/-- The model that is first in the lexicographic order of the given variables: least values
first, or greatest values first. -/
def lexicographic (least : Bool) (names : List String) : Solver where
  model? cs := do
    let p ← Problem.of (Constraint.all cs)
    let s ← p.minimizeAll (names.map fun x =>
      (Linear.unknown (.name x)).scale (if least then 1 else -1))
    return (distinct (cs.flatMap Constraint.vars ++ names)).map fun x =>
      (x, s.value (.name x))

end Solver

/-- Does a constraint hold at a point for some values of the hidden names?  A name that the point
leaves open may decide it; then only a refusal is known. -/
def Constraint.holdsFor (hidden : List String) (point : String → Option Int) (c : Constraint) :
    Option Bool :=
  let shown := (distinct c.vars).filter fun s => s ∉ hidden
  let fixed := c.substitute fun s => if s ∈ hidden then none else (point s).map .const
  match (Problem.of fixed).bind Problem.solution? with
  | none => some false
  | some _ => if shown.all fun s => (point s).isSome then some true else none

end Polyloom
