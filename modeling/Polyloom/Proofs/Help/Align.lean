import Mathlib.Algebra.Order.Ring.Nat
import Mathlib.Data.List.TakeWhile
import Mathlib.Tactic.Common
import Polyloom.Help.Listing

/-!
# Lining up choices

The choices of a listing are moved run by run: the lines of a run by the slack of the line in front
of it, which is never moved itself.  All other lines stay.  A listing that ends with a choice is
lined up like any other, but the search for the end of its last run leaves the listing.
-/

namespace Polyloom.Help

open Text List

variable {line : List Char} {run : List (List Char)} {line : List Char}

/-- Lines with each run of choices moved by the slack of the line in front of it, the first by
`margin`. -/
def shifted (margin : Nat) : List (List Char) → List (List Char)
  | [] => []
  | line :: rest =>
    if isChoice line then moved margin line :: shifted margin rest
    else line :: shifted (slack line) rest

def endsInChoice (lines : List (List Char)) : Bool := lines.getLast?.any isChoice

/-! ## One run -/

section

variable (margin : Nat) (before : List (List Char)) {run : List (List Char)}

private theorem moveRun_cons (h : isChoice line = true) (rest : List (List Char)) :
    moveRun margin (before ++ line :: rest) before.length = moveRun margin
      (before ++ [moved margin line] ++ rest) (before ++ [moved margin line]).length := by
  rw [moveRun, dif_pos (by simp)]
  simp [h]

theorem moveRun_append (h : ∀ line ∈ run, isChoice line = true) (rest : List (List Char)) :
    moveRun margin (before ++ (run ++ rest)) before.length = moveRun margin
      (before ++ run.map (moved margin) ++ rest) (before ++ run.map (moved margin)).length := by
  induction run generalizing before with
  | nil => simp
  | cons line run ih =>
    rw [forall_mem_cons] at h
    rw [cons_append, moveRun_cons margin before h.1, ih (before ++ [moved margin line]) h.2,
      map_cons, append_cons before (moved margin line) (run.map (moved margin))]

private theorem moveRun_of_run (h : ∀ line ∈ run, isChoice line = true) :
    moveRun margin (before ++ run) before.length = (before ++ run.map (moved margin), none) := by
  have hrun := moveRun_append margin before h []
  rw [append_nil, append_nil] at hrun
  rw [hrun, moveRun, dif_neg (lt_irrefl _)]

private theorem moveRun_of_other (h : ∀ line ∈ run, isChoice line = true)
    (hline : isChoice line = false) (rest : List (List Char)) :
    moveRun margin (before ++ (run ++ line :: rest)) before.length = (before ++
      run.map (moved margin) ++ line :: rest, some (before ++ run.map (moved margin)).length) := by
  rw [moveRun_append margin before h, moveRun, dif_pos (by simp)]
  simp [hline]

end

/-! ## The whole listing -/

section

variable (before : List (List Char)) {run : List (List Char)}

private theorem lineUp_of_run (h : ∀ line ∈ run, isChoice line = true) (hne : run ≠ []) :
    lineUp (before ++ run) before.length =
      (before ++ run.map (moved (slack (lineBefore (before ++ run) before.length))),
        some .outOfRange) := by
  have hlt : before.length < (before ++ run).length := by
    simpa using length_pos_iff.mpr hne
  rw [lineUp, if_pos hlt]
  split
  -- the search for the end of the run finds none
  · rename_i changed hmove
    rw [moveRun_of_run _ before h] at hmove
    rw [(Prod.mk.inj hmove).1]
  · rename_i changed next hmove
    rw [moveRun_of_run _ before h] at hmove
    cases (Prod.mk.inj hmove).2

private theorem lineUp_of_other (h : ∀ line ∈ run, isChoice line = true)
    (hline : isChoice line = false) (rest : List (List Char)) {margin : Nat}
    (hmargin : slack (lineBefore (before ++ (run ++ line :: rest)) before.length) = margin) :
    lineUp (before ++ (run ++ line :: rest)) before.length = lineUp (before ++ run.map
      (moved margin) ++ [line] ++ rest) (before ++ run.map (moved margin) ++ [line]).length := by
  rw [lineUp, if_pos (by simp), hmargin]
  split
  · rename_i changed hmove
    rw [moveRun_of_other margin before h hline] at hmove
    cases (Prod.mk.inj hmove).2
  · rename_i changed next hmove
    rw [moveRun_of_other margin before h hline] at hmove
    obtain ⟨rfl, hnext⟩ := Prod.mk.inj hmove
    have hlength : (before ++ run.map (moved margin) ++ [line]).length =
        (before ++ run.map (moved margin)).length + 1 := length_append
    rw [← Option.some.inj hnext, append_cons _ line, hlength]

end

theorem shifted_of_run (h : ∀ line ∈ run, isChoice line = true)
    (margin : Nat) (rest : List (List Char)) :
    shifted margin (run ++ rest) = run.map (moved margin) ++ shifted margin rest := by
  induction run with
  | nil => rfl
  | cons line run ih =>
    rw [forall_mem_cons] at h
    rw [cons_append, shifted, if_pos h.1, ih h.2, map_cons, cons_append]

theorem shifted_of_other (h : isChoice line = false) (margin : Nat) (rest : List (List Char)) :
    shifted margin (line :: rest) = line :: shifted (slack line) rest := by
  rw [shifted, if_neg (by simp [h])]

private theorem exists_run (lines : List (List Char)) :
    ∃ run, (∀ line ∈ run, isChoice line = true) ∧
      (lines = run ∨ ∃ line rest, lines = run ++ line :: rest ∧ isChoice line = false) := by
  induction lines with
  | nil => exact ⟨[], by simp, .inl rfl⟩
  | cons line rest ih =>
    by_cases hline : isChoice line = true
    · obtain ⟨run, hrun, hrest⟩ := ih
      refine ⟨line :: run, forall_mem_cons.mpr ⟨hline, hrun⟩, ?_⟩
      rcases hrest with rfl | ⟨other, rest, rfl, hother⟩
      · exact .inl rfl
      · exact .inr ⟨other, rest, rfl, hother⟩
    · exact ⟨[], by simp, .inr ⟨line, rest, rfl, by simpa using hline⟩⟩

private theorem endsInChoice_of_run (h : ∀ line ∈ run, isChoice line = true) (hne : run ≠ []) :
    endsInChoice run = true := by
  rw [endsInChoice, getLast?_eq_some_getLast hne, Option.any_some]
  exact h _ (getLast_mem hne)

private theorem endsInChoice_append (h : isChoice line = false) (run rest : List (List Char)) :
    endsInChoice (run ++ line :: rest) = endsInChoice rest := by
  cases rest with
  | nil => simp [endsInChoice, h]
  | cons next rest => simp [endsInChoice, getLast?_append, getLast?_cons]

/-- From a position on, lines are lined up by the line before it; the lines in front stay. -/
private theorem lineUp_append (before rest : List (List Char)) :
    lineUp (before ++ rest) before.length =
      (before ++ shifted (slack (lineBefore (before ++ rest) before.length)) rest,
        if endsInChoice rest then some .outOfRange else none) := by
  -- each turn of the loop takes a run and the line that ends it
  induction hn : rest.length using Nat.strong_induction_on generalizing before rest with
  | _ n ih =>
    obtain ⟨run, hrun, rfl | ⟨line, tail, rfl, hline⟩⟩ := exists_run rest
    · by_cases hne : rest = []
      · subst hne
        rw [append_nil, lineUp, if_neg (lt_irrefl _)]
        simp [shifted, endsInChoice]
      · rw [lineUp_of_run before hrun hne, endsInChoice_of_run hrun hne, if_pos rfl]
        have hshifted := shifted_of_run hrun (slack (lineBefore (before ++ rest) before.length)) []
        rw [append_nil, shifted, append_nil] at hshifted
        rw [hshifted]
    · have hlt : tail.length < n := by
        rw [← hn, length_append, length_cons]
        omega
      generalize hmargin : slack (lineBefore (before ++ (run ++ line :: tail)) before.length) =
        margin
      rw [lineUp_of_other before hrun hline tail hmargin, ih _ hlt _ _ rfl,
        endsInChoice_append hline, shifted_of_run hrun, shifted_of_other hline]
      simp [lineBefore]

theorem lineUp_eq (lines : List (List Char)) : lineUp lines 0 =
    (shifted (slack (lines.getLastD [])) lines,
      if endsInChoice lines then some .outOfRange else none) :=
  lineUp_append [] lines

theorem read_eq (lines : List (List Char)) : read lines =
    if endsInChoice lines then .error .outOfRange else Yaml.load (document (align lines)) := by
  rw [read, align, lineUp_eq]
  cases endsInChoice lines with
  | true => rfl
  | false => rfl

/-! ## Lines one by one -/

theorem length_shifted (margin : Nat) (lines : List (List Char)) :
    (shifted margin lines).length = lines.length := by
  induction lines generalizing margin with
  | nil => rfl
  | cons line rest ih =>
    rw [shifted]
    split
    · rw [length_cons, ih, length_cons]
    · rw [length_cons, ih, length_cons]

private theorem getElem?_shifted_of_other {lines : List (List Char)}
    {i : Nat} (h : lines[i]? = some line) (hline : isChoice line = false) (margin : Nat) :
    (shifted margin lines)[i]? = some line := by
  induction lines generalizing i margin with
  | nil => simp at h
  | cons first rest ih =>
    cases i with
    | zero =>
      obtain rfl : first = line := by simpa using h
      simp [shifted_of_other hline]
    | succ i =>
      rw [getElem?_cons_succ] at h
      rw [shifted]
      split
      · rw [getElem?_cons_succ, ih h]
      · rw [getElem?_cons_succ, ih h]

private theorem shifted_append (h : isChoice line = false) (margin : Nat)
    (before rest : List (List Char)) :
    shifted margin (before ++ line :: rest) =
      shifted margin before ++ line :: shifted (slack line) rest := by
  induction before generalizing margin with
  | nil => exact shifted_of_other h margin rest
  | cons first before ih =>
    rw [cons_append, shifted, shifted]
    split
    · rw [ih, cons_append]
    · rw [ih, cons_append]

private theorem getElem?_shifted_of_run {before : List (List Char)}
    (hbefore : ∀ line ∈ before.getLast?, isChoice line = false)
    (hrun : ∀ line ∈ run, isChoice line = true) {k : Nat} (hk : run[k]? = some line)
      (margin : Nat) (after : List (List Char)) :
    (shifted margin (before ++ run ++ after))[before.length + k]? =
      some (moved (before.getLast?.elim margin slack) line) := by
  have hmap (m : Nat) : (run.map (moved m) ++ shifted m after)[k]? = some (moved m line) := by
    rw [List.getElem?_append_left (by simpa using (List.getElem?_eq_some_iff.mp hk).1),
      List.getElem?_map, hk]
    rfl
  -- only the last line in front of the run matters, and it is not moved itself
  rcases List.eq_nil_or_concat before with rfl | ⟨front, last, rfl⟩
  · rw [List.nil_append, shifted_of_run hrun]
    simpa using hmap margin
  · have hlast : isChoice last = false := hbefore last (by simp)
    have hlength := length_shifted margin front
    rw [List.concat_eq_append, List.append_assoc, List.append_assoc,
      List.singleton_append, shifted_append hlast, shifted_of_run hrun,
      List.getElem?_append_right (by simp [hlength]; omega)]
    have hposition : (front ++ [last]).length + k - (shifted margin front).length = k + 1 := by
      rw [hlength, List.length_append, List.length_singleton]
      omega
    rw [hposition, List.getElem?_cons_succ]
    simpa using hmap (slack last)

/-! ## Blanks at the ends of a line -/

private theorem stripFront_of_head {text : List Char} (h : ∀ c ∈ text.head?, isBlank c = false) :
    stripFront text = text := by
  cases text with
  | nil => rfl
  | cons c text => exact dropWhile_cons_of_neg (by simpa using h c rfl)

private theorem stripFront_append {front : List Char} (h : ∀ c ∈ front, isBlank c = true)
    (text : List Char) :
    stripFront (front ++ text) = stripFront text := dropWhile_append_of_pos h

section

variable {front body back : List Char} (hfront : ∀ c ∈ front, isBlank c = true)
  (hback : ∀ c ∈ back, isBlank c = true) (hfirst : ∀ c ∈ body.head?, isBlank c = false)
  (hlast : ∀ c ∈ body.getLast?, isBlank c = false)
include hfront hback hfirst hlast

theorem strip_append : strip (front ++ body ++ back) = body := by
  rw [strip, append_assoc, stripFront_append hfront]
  cases body with
  | nil =>
    have hnone : stripFront ([] ++ back) = [] := dropWhile_eq_nil_iff.mpr hback
    rw [hnone]
    rfl
  | cons c body =>
    have hstart : stripFront (c :: body ++ back) = c :: body ++ back := stripFront_of_head hfirst
    have hreverse : ∀ d ∈ back.reverse, isBlank d = true := by simpa using hback
    rw [hstart, reverse_append, stripFront_append hreverse,
      stripFront_of_head (by rwa [head?_reverse]), reverse_reverse]

private theorem slack_append : slack (front ++ body ++ back) = front.length + back.length := by
  rw [slack, strip_append hfront hback hfirst hlast, length_append, length_append]
  omega

private theorem isChoice_append_iff :
    isChoice (front ++ body ++ back) = true ↔ body.head? = some '=' := by
  rw [isChoice, strip_append hfront hback hfirst hlast]
  cases body with
  | nil => simp
  | cons c body =>
    by_cases hc : c = '='
    · simp [hc]
    · simp [hc]

end

/-- Lining up leaves a listing exactly if its last line is a choice.  In any case there are as many
lines as before, lines that are no choices are the same, and the choices from the beginning of a run
on are moved to the right by the blanks at the two ends of the line in front of the run, or of the
last line if there is none. -/
theorem lineUp_listing (lines : List (List Char)) :
    (lineUp lines 0).2 = (if endsInChoice lines then some .outOfRange else none) ∧ read lines =
      (if endsInChoice lines then .error .outOfRange else Yaml.load (document (align lines))) ∧
    (align lines).length = lines.length ∧
    (∀ (i : Nat) (line : List Char), lines[i]? = some line →
      isChoice line = false → (align lines)[i]? = some line) ∧
    (∀ before run after, lines = before ++ run ++ after →
      (∀ line ∈ before.getLast?, isChoice line = false) → (∀ line ∈ run, isChoice line = true) →
      ∀ (k : Nat) (line : List Char), run[k]? = some line → (align lines)[before.length + k]? =
        some (replicate (slack (before.getLast?.getD (lines.getLastD []))) ' ' ++ line)) ∧
    ∀ front body back, (∀ c ∈ front, isBlank c = true) → (∀ c ∈ back, isBlank c = true) →
      (∀ c ∈ body.head?, isBlank c = false) → (∀ c ∈ body.getLast?, isBlank c = false) →
      (isChoice (front ++ body ++ back) = true ↔ body.head? = some '=') ∧
        slack (front ++ body ++ back) = front.length + back.length := by
  have halign : align lines = shifted (slack (lines.getLastD [])) lines := by rw [align, lineUp_eq]
  rw [halign]
  refine ⟨by rw [lineUp_eq], halign ▸ read_eq lines, length_shifted _ lines,
    fun i line hi hline => ?_, ?_, ?_⟩
  · exact getElem?_shifted_of_other hi hline _
  · intro before run after hlines hbefore hrun k line hk
    have hmoved := getElem?_shifted_of_run hbefore hrun hk (slack (lines.getLastD [])) after
    rw [← hlines] at hmoved
    rw [hmoved]
    cases before.getLast? with
    | none => rfl
    | some last => rfl
  · intro front body back hfront hback hfirst hlast
    exact ⟨isChoice_append_iff hfront hback hfirst hlast, slack_append hfront hback hfirst hlast⟩

def optionListing : List (List Char) :=
  ["=none".toList, "--tile  ".toList, " =size".toList, "=count".toList, " end".toList]

theorem optionListing_lined_up : (lineUp optionListing 0).2 = none ∧
    (align optionListing)[0]? = some " =none".toList ∧
      (align optionListing)[1]? = some "--tile  ".toList ∧
    (align optionListing)[2]? = some "   =size".toList ∧
      (align optionListing)[3]? = some "  =count".toList := by
  obtain ⟨hfault, -, -, hother, hrun, -⟩ := lineUp_listing optionListing
  refine ⟨hfault.trans (by decide), ?_, hother 1 _ rfl (by decide), ?_, ?_⟩
  · exact hrun [] ["=none".toList] (optionListing.drop 1) rfl (by decide) (by decide) 0 _ rfl
  · exact hrun (optionListing.take 2) [" =size".toList, "=count".toList] [" end".toList] rfl
      (by decide) (by decide) 0 _ rfl
  · exact hrun (optionListing.take 2) [" =size".toList, "=count".toList] [" end".toList] rfl
      (by decide) (by decide) 1 _ rfl

/-- A choice at the end of a listing is moved like any other, and then the listing is left. -/
theorem trailing_choice_leaves :
    lineUp ["--a\n".toList, "=b\n".toList] 0 =
      (["--a\n".toList, " =b\n".toList], some .outOfRange) ∧
      read ["--a\n".toList, "=b\n".toList] = .error .outOfRange := by
  rw [lineUp_eq, read_eq]
  exact ⟨by decide, rfl⟩

end Polyloom.Help
