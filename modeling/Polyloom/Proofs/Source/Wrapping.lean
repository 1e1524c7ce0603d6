import Polyloom.Proofs.Outcome
import Polyloom.Proofs.Source.Expression

/-!
# Wrapped tests

A test is checked first and wrapped then.  The check lets names, calls and literals through as
comparands, but only names and the calls that make constants can be wrapped, so that the first
comparand of another kind decides what comes of a test.
-/

namespace Polyloom

namespace SourceTree

variable {c test : SourceTree}

/-! ## Comparands -/

def isConstantCall (t : SourceTree) : Bool :=
  t.isKind "Call" && (t.field "func").name? = some "constant"

def isWrappable (t : SourceTree) : Bool := t.isKind "Name" || t.isConstantCall

def wrapName (t : SourceTree) : SourceTree :=
  if t.isKind "Name" then call wrapperName [t] else t

def unwrappableFault (t : SourceTree) : Fault :=
  if t.isKind "Call" then .assertion "" else .failure ("unknown kind of comparator c=" ++ placeText)

theorem wrapComparand_eq (t : SourceTree) : wrapComparand t =
    if t.isWrappable then .ok t.wrapName else .error t.unwrappableFault := by
  by_cases hname : t.isKind "Name" = true
  · simp [wrapComparand, isWrappable, wrapName, hname]
  · by_cases hcall : t.isKind "Call" = true
    · by_cases hfunc : (t.field "func").name? = some "constant"
      · simp [wrapComparand, isWrappable, isConstantCall, wrapName, hname, hcall, hfunc]
      · simp [wrapComparand, isWrappable, isConstantCall, unwrappableFault, hname, hcall, hfunc]
    · simp [wrapComparand, isWrappable, isConstantCall, unwrappableFault, hname, hcall]

private theorem mapM_wrapComparand {items : List SourceTree}
    (h : ∀ c ∈ items, c.isWrappable = true) :
    items.mapM wrapComparand = .ok (items.map wrapName) := by
  rw [mapM_eq_ok_iff, List.forall₂_map_right_iff, List.forall₂_same]
  intro c hc
  rw [wrapComparand_eq, if_pos (h c hc)]

private theorem mapM_wrapComparand_of_first {items : List SourceTree}
    (h : items.find? (fun c => !c.isWrappable) = some c) :
    items.mapM wrapComparand = .error c.unwrappableFault := by
  induction items with
  | nil => cases h
  | cons d items ih =>
    rw [List.mapM_cons, wrapComparand_eq]
    by_cases hd : d.isWrappable = true
    · rw [List.find?_cons_of_neg (by simp [hd])] at h
      rw [if_pos hd, ih h]
      rfl
    · rw [List.find?_cons_of_pos (by simp [hd]), Option.some_inj] at h
      rw [if_neg hd, h]
      rfl

/-! ## Tests -/

/-- Does a test pass the check? -/
def isChecked (test : SourceTree) : Bool :=
  test.isKind "Compare" && (test.field "left").isKind "Name" &&
    (test.field "comparators").items.all isComparand

def firstUnwrappable? (test : SourceTree) : Option SourceTree :=
  (test.field "comparators").items.find? fun c => !c.isWrappable

abbrev comparisonOf (comparators : List SourceTree) (left ops : SourceTree) : SourceTree :=
  .node "Compare" [("comparators", .list comparators), ("left", left), ("ops", ops)]

def wrapped (test : SourceTree) : SourceTree :=
  call testName [comparisonOf ((test.field "comparators").items.map wrapName)
    (call wrapperName [test.field "left"]) (test.field "ops")]

theorem wrapTest_of_not_isChecked (h : test.isChecked = false) :
    ∃ text, wrapTest test = .error (.assertion text) := by
  rw [wrapTest]
  split
  · exact ⟨_, rfl⟩
  split
  · exact ⟨_, rfl⟩
  split
  · exact ⟨_, rfl⟩
  · simp_all [isChecked]

theorem wrapTest_of_isChecked (h : test.isChecked = true) :
    wrapTest test = (test.field "comparators").items.mapM wrapComparand >>= fun comparators =>
      pure (call testName [comparisonOf comparators (call wrapperName [test.field "left"])
        (test.field "ops")]) := by
  simp only [isChecked, Bool.and_eq_true] at h
  obtain ⟨⟨hcompare, hleft⟩, hcomparands⟩ := h
  simp only [wrapTest, hcompare, hleft, hcomparands, Bool.not_true, Bool.false_eq_true, if_false]

theorem wrapTest_of_wrappable (h : test.isChecked = true) (hfirst : test.firstUnwrappable? = none) :
    wrapTest test = .ok test.wrapped := by
  have hwrappable : ∀ c ∈ (test.field "comparators").items, c.isWrappable = true := by
    simpa [firstUnwrappable?] using hfirst
  rw [wrapTest_of_isChecked h, mapM_wrapComparand hwrappable]
  rfl

theorem wrapTest_of_first (h : test.isChecked = true) (hfirst : test.firstUnwrappable? = some c) :
    wrapTest test = .error c.unwrappableFault := by
  rw [wrapTest_of_isChecked h, mapM_wrapComparand_of_first hfirst]
  rfl

theorem wrapTest_eq_ok {w : SourceTree} (h : wrapTest test = .ok w) :
    test.isChecked = true ∧ test.firstUnwrappable? = none ∧ w = test.wrapped := by
  cases hchecked : test.isChecked with
  | false =>
    obtain ⟨text, herror⟩ := wrapTest_of_not_isChecked hchecked
    rw [herror] at h
    cases h
  | true =>
    cases hfirst : test.firstUnwrappable? with
    | none =>
      rw [wrapTest_of_wrappable hchecked hfirst] at h
      exact ⟨rfl, rfl, (Except.ok.inj h).symm⟩
    | some c =>
      rw [wrapTest_of_first hchecked hfirst] at h
      cases h

/-! ## Literals -/

/-- A comparison of a name with names, literals and calls that make constants, one at least. -/
structure IsAdmitted (test : SourceTree) : Prop where
  compare : test.isKind "Compare" = true
  left : (test.field "left").isKind "Name" = true
  ne_nil : (test.field "comparators").items ≠ []
  comparators : ∀ c ∈ (test.field "comparators").items,
    c.isKind "Name" = true ∨ c.isKind "Constant" = true ∨ c.isConstantCall = true

private theorem IsAdmitted.isChecked (h : test.IsAdmitted) : test.isChecked = true := by
  have hcomparands : ∀ c ∈ (test.field "comparators").items, c.isComparand = true := by
    intro c hc
    rcases h.comparators c hc with hname | hconstant | hcall
    · simp [isComparand, hname]
    · simp [isComparand, hconstant]
    · simp [isComparand, (Bool.and_eq_true_iff.mp hcall).1]
  simp only [SourceTree.isChecked, h.compare, h.left, Bool.true_and, List.all_eq_true]
  exact hcomparands

theorem isAdmitted_of_wrappable (h : test.isChecked = true) (hfirst : test.firstUnwrappable? = none)
    (hne : (test.field "comparators").items ≠ []) : test.IsAdmitted := by
  have hwrappable : ∀ c ∈ (test.field "comparators").items, c.isWrappable = true := by
    simpa [firstUnwrappable?] using hfirst
  simp only [SourceTree.isChecked, Bool.and_eq_true] at h
  refine ⟨h.1.1, h.1.2, hne, fun c hc => ?_⟩
  exact (Bool.or_eq_true_iff.mp (hwrappable c hc)).imp_right .inr

private theorem isKind_of_first (h : test.isChecked = true)
    (hfirst : test.firstUnwrappable? = some c) :
    c ∈ (test.field "comparators").items ∧ c.isKind "Name" = false ∧ c.isConstantCall = false ∧
      (c.isKind "Constant" = true ∨ c.isKind "Call" = true) := by
  have hmem := List.mem_of_find?_eq_some hfirst
  have hunwrappable : c.isWrappable = false := by simpa using List.find?_some hfirst
  obtain ⟨hname, hcall⟩ := Bool.or_eq_false_iff.mp hunwrappable
  simp only [SourceTree.isChecked, Bool.and_eq_true, List.all_eq_true] at h
  have hcomparand := h.2 c hmem
  simp only [isComparand, hname, Bool.false_or, Bool.or_eq_true] at hcomparand
  exact ⟨hmem, hname, hcall, hcomparand⟩

/-- A test comes out as it should, the admitted ones wrapped and the others refused by an
assertion, unless it passes the check and has no comparands, or the first of them that cannot be
wrapped is a literal.  Such a literal is a failure. -/
theorem wrapTest_admits_iff (test : SourceTree) :
    ((test.IsAdmitted → wrapTest test = .ok test.wrapped) ∧
        (¬ test.IsAdmitted → ∃ text, wrapTest test = .error (.assertion text)) ↔
        ¬ (test.isChecked = true ∧ ((test.field "comparators").items = [] ∨
          ∃ c, test.firstUnwrappable? = some c ∧ c.isKind "Constant" = true))) ∧
      ∀ c, test.isChecked = true → test.firstUnwrappable? = some c → c.isKind "Constant" = true →
        wrapTest test = .error (.failure ("unknown kind of comparator c=" ++ placeText)) := by
  have hliteral : ∀ c, test.isChecked = true →
      test.firstUnwrappable? = some c → c.isKind "Constant" = true →
      wrapTest test = .error (.failure ("unknown kind of comparator c=" ++ placeText)) := by
    intro c hchecked hfirst hconstant
    have hcall : c.isKind "Call" = false := isKind_eq_false hconstant (by decide)
    rw [wrapTest_of_first hchecked hfirst, unwrappableFault, if_neg (by simp [hcall])]
  refine ⟨?_, hliteral⟩
  cases hchecked : test.isChecked with
  | false =>
    have hnot : ¬ test.IsAdmitted := fun h => by simp [h.isChecked] at hchecked
    simp [hnot, wrapTest_of_not_isChecked hchecked]
  | true =>
    cases hfirst : test.firstUnwrappable? with
    | none =>
      have hok := wrapTest_of_wrappable hchecked hfirst
      -- A comparison with nothing passes the check all the same.
      by_cases hne : (test.field "comparators").items = []
      · have hnot : ¬ test.IsAdmitted := fun h => h.ne_nil hne
        simp [hnot, hok, hne]
      · simp [isAdmitted_of_wrappable hchecked hfirst hne, hok, hne]
    | some c =>
      obtain ⟨hmem, hname, hcall, hkind⟩ := isKind_of_first hchecked hfirst
      have hne : (test.field "comparators").items ≠ [] := List.ne_nil_of_mem hmem
      rcases hkind with hconstant | hcalled
      · have hfailure := hliteral c hchecked hfirst hconstant
        by_cases hadmitted : test.IsAdmitted <;> simp [hadmitted, hfailure, hconstant]
      · have hconstant : c.isKind "Constant" = false := isKind_eq_false hcalled (by decide)
        have hnot : ¬ test.IsAdmitted := fun h => by
          simpa [hname, hconstant, hcall] using h.comparators c hmem
        have hrefused := wrapTest_of_first hchecked hfirst
        rw [unwrappableFault, if_pos hcalled] at hrefused
        simp [hnot, hrefused, hconstant, hne]

def chainTest : SourceTree :=
  comparisonOf [name "n", call "constant" [constant (.int 8)]] (name "i")
    (.list [.node "Lt" [], .node "LtE" []])

private theorem isAdmitted_chainTest : chainTest.IsAdmitted :=
  isAdmitted_of_wrappable rfl rfl (by simp [chainTest, field, field?, items])

theorem wrapTest_chainTest : wrapTest chainTest = .ok (call testName [comparisonOf
      [call wrapperName [name "n"], call "constant" [constant (.int 8)]]
      (call wrapperName [name "i"]) (.list [.node "Lt" [], .node "LtE" []])]) :=
  ((wrapTest_admits_iff chainTest).1.mpr (by decide)).1 isAdmitted_chainTest

def literalTest : SourceTree :=
  comparisonOf [constant (.int 2)] (name "i") (.list [.node "Gt" []])

/-- A comparison with a literal is admitted, and it fails. -/
theorem wrapTest_literalTest_fails : literalTest.IsAdmitted ∧
      wrapTest literalTest = .error (.failure ("unknown kind of comparator c=" ++ placeText)) := by
  refine ⟨⟨rfl, rfl, by simp [literalTest, field, field?, items], ?_⟩, rfl⟩
  intro c hc
  obtain rfl : c = constant (.int 2) := List.mem_singleton.mp hc
  exact .inr (.inl rfl)

end SourceTree

end Polyloom
