import Polyloom.Fault
import Polyloom.Text.Margin

/-!
The listing of passes that a tool prints: lining up the choices of an option.

A line that starts with an equals sign is a choice of the option above it.  Choices are
printed at the left edge; they are moved to the right so that they stand inside of their
option.

The lines are gone through by position.  The search for the end of a run of choices leaves the
listing if it ends with the run; what was moved until then stays moved.
-/

namespace Polyloom.Help

def isChoice (line : List Char) : Bool :=
  match Text.strip line with
  | '=' :: _ => true
  | _ => false

def slack (line : List Char) : Nat := line.length - (Text.strip line).length

def moved (margin : Nat) (line : List Char) : List Char := List.replicate margin ' ' ++ line

def lineBefore (lines : List (List Char)) : Nat → List Char
  | 0 => lines.getLastD []
  | i + 1 => lines.getD i []

/-- Move the choices from a position on, up to the next line that is none.  The answer has the
position of that line, if there is one. -/
def moveRun (margin : Nat) (lines : List (List Char)) (i : Nat) : List (List Char) × Option Nat :=
  if h : i < lines.length then
    if isChoice lines[i] then moveRun margin (lines.set i (moved margin lines[i])) (i + 1)
    else (lines, some i)
  else (lines, none)
termination_by lines.length - i

theorem length_moveRun (margin : Nat) (lines : List (List Char)) (i : Nat) :
    (moveRun margin lines i).1.length = lines.length := by
  fun_induction moveRun margin lines i with
  | case1 lines i h hchoice ih => rw [ih, List.length_set]
  | case2 => rfl
  | case3 => rfl

theorem le_of_moveRun {margin : Nat} {lines : List (List Char)} {i j : Nat}
    (h : (moveRun margin lines i).2 = some j) : i ≤ j := by
  fun_induction moveRun margin lines i with
  | case1 lines i hi hchoice ih => exact Nat.le_of_succ_le (ih h)
  | case2 lines i hi hchoice => exact Nat.le_of_eq (Option.some.inj h)
  | case3 => cases h

/-- Line up the choices from a position on, each run of them by the slack of the line before it. -/
def lineUp (lines : List (List Char)) (i : Nat) : List (List Char) × Option Fault :=
  if i < lines.length then
    match h : moveRun (slack (lineBefore lines i)) lines i with
    | (changed, none) => (changed, some .outOfRange)
    | (changed, some next) => lineUp changed (next + 1)
  else (lines, none)
termination_by lines.length - i
decreasing_by
  have hlength := length_moveRun (slack (lineBefore lines i)) lines i
  have hnext : i ≤ next := le_of_moveRun (congrArg Prod.snd h)
  rw [h] at hlength
  dsimp only at hlength
  omega

def align (lines : List (List Char)) : List (List Char) := (lineUp lines 0).1

end Polyloom.Help
