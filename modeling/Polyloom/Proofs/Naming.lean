import Mathlib.Data.List.Basic
import Mathlib.Data.List.TakeWhile
import Polyloom.Naming

/-!
# Names that tell values apart

Whatever was asked before, the values under one printed name have the ticked forms of that name,
in the order of the first request.  A name once given is never changed.  So the names of two
values differ if no printed name has a tick of its own.
-/

namespace Polyloom.NameTable

open List

variable {ι : Type} {table later : NameTable ι} {p value given : String}

theorem lookup_cons_of_ne {β : Type} {key other : String} (h : other ≠ key) (value : β)
    (rest : List (String × β)) : lookup other ((key, value) :: rest) = rest.lookup other := by
  have hbeq : (other == key) = false := by simpa using h
  simp [lookup_cons, hbeq]

theorem entries_store (printed other : String) (values : List (ι × String)) :
    ∀ table : NameTable ι, (table.store printed values).entries other =
      if other = printed then values else table.entries other
  | [] => by
    by_cases h : other = printed
    · simp [store, entries, h]
    · simp [store, entries, lookup_cons_of_ne h, h]
  | (p, vs) :: rest => by
    have ih := entries_store printed other values rest
    simp only [entries] at ih
    simp only [store, entries]
    by_cases hp : p = printed
    · subst hp
      by_cases h : other = p
      · simp [h]
      · simp [lookup_cons_of_ne h, h]
    · by_cases h : other = p
      · simp [hp, h]
      · simp [hp, lookup_cons_of_ne h, ih]

/-- The values under a printed name have its ticked forms, in order. -/
def Ticked (table : NameTable ι) : Prop :=
  ∀ printed k entry, (table.entries printed)[k]? = some entry → entry.2 = ticked printed k

/-- The later table keeps what the table has recorded. -/
def Extends (table later : NameTable ι) : Prop :=
  ∀ printed, table.entries printed <+: later.entries printed

theorem ticked_nil : Ticked ([] : NameTable ι) := by
  intro printed k entry h
  simp [entries] at h

theorem Extends.refl (table : NameTable ι) : table.Extends table := fun _ => prefix_rfl

theorem Extends.trans {last : NameTable ι} (h : table.Extends later) (h' : later.Extends last) :
    table.Extends last :=
  fun printed => (h printed).trans (h' printed)

theorem Extends.lookup [BEq ι] (h : table.Extends later) {value : ι} {printed name : String}
    (hvalue : (table.entries printed).lookup value = some name) :
    (later.entries printed).lookup value = some name := by
  obtain ⟨added, hadded⟩ := h printed
  rw [← hadded, lookup_append, hvalue, Option.some_or]

/-! ## Requests -/

section Requests

variable [BEq ι]

theorem request_known {value : ι} {printed name : String}
    (h : (table.entries printed).lookup value = some name) :
    table.request value printed = (name, table) := by
  simp [request, h]

theorem request_new {value : ι} {printed : String}
    (h : (table.entries printed).lookup value = none) :
    table.request value printed =
      (ticked printed (table.entries printed).length, table.store printed
          (table.entries printed ++ [(value, ticked printed (table.entries printed).length)])) := by
  simp [request, h]

theorem extends_request (value : ι) (printed : String) :
    table.Extends (table.request value printed).2 := by
  intro other
  cases h : (table.entries printed).lookup value with
  | some name => simp [request_known h]
  | none =>
    rw [request_new h, entries_store]
    split
    · rename_i hother
      simp [hother]
    · exact prefix_rfl

theorem Ticked.request (h : table.Ticked) (value : ι) (printed : String) :
    (table.request value printed).2.Ticked := by
  intro other k entry hentry
  cases hvalue : (table.entries printed).lookup value with
  | some name =>
    rw [request_known hvalue] at hentry
    exact h other k entry hentry
  | none =>
    rw [request_new hvalue, entries_store] at hentry
    split at hentry
    · rename_i hother
      subst hother
      obtain hk | hk := lt_or_ge k (table.entries other).length
      · rw [List.getElem?_append_left hk] at hentry
        exact h other k entry hentry
      · -- the only entry past the old ones is the new one
        rw [List.getElem?_append_right hk] at hentry
        obtain ⟨hlast, hnew⟩ := List.getElem?_eq_some_iff.mp hentry
        have hk' : k = (table.entries other).length := by
          simp only [List.length_singleton] at hlast
          omega
        simp only [List.getElem_singleton] at hnew
        rw [← hnew, hk']
    · exact h other k entry hentry

theorem lookup_request [LawfulBEq ι] (value : ι) (printed : String) :
    ((table.request value printed).2.entries printed).lookup value =
      some (table.request value printed).1 := by
  cases h : (table.entries printed).lookup value with
  | some name => simpa [request_known h] using h
  | none =>
    rw [request_new h, entries_store, if_pos rfl, lookup_append, h]
    simp

theorem Ticked.lookup [LawfulBEq ι] (h : table.Ticked) {value : ι}
    (hvalue : (table.entries p).lookup value = some given) :
    ∃ k, (table.entries p)[k]? = some (value, given) ∧ given = ticked p k := by
  obtain ⟨before, after, hsplit, -⟩ := lookup_eq_some_iff.mp hvalue
  have hget : (table.entries p)[before.length]? = some (value, given) := by
    simp [hsplit]
  exact ⟨before.length, hget, h p _ _ hget⟩

end Requests

/-! ## Ticks -/

def Tickless (s : String) : Prop := '\'' ∉ s.toList

theorem toList_ticked (printed : String) (k : Nat) :
    (ticked printed k).toList = printed.toList ++ replicate k '\'' := by
  simp [ticked]

@[simp] theorem ticked_zero (printed : String) : ticked printed 0 = printed := by
  simp [ticked]

private theorem takeWhile_toList_ticked {printed : String} (h : Tickless printed) (k : Nat) :
    (ticked printed k).toList.takeWhile (· ≠ '\'') = printed.toList := by
  have hplain : ∀ c ∈ printed.toList, (decide (c ≠ '\'')) = true := by
    intro c hc
    simpa using fun hcq : c = '\'' => h (hcq ▸ hc)
  rw [toList_ticked, takeWhile_append_of_pos hplain]
  cases k <;> simp [replicate_succ]

theorem ticked_inj {q : String} (hp : Tickless p) (hq : Tickless q) {k l : Nat}
    (h : ticked p k = ticked q l) : p = q ∧ k = l := by
  have hpq : p = q := by
    rw [← String.toList_inj, ← takeWhile_toList_ticked hp k, h, takeWhile_toList_ticked hq l]
  subst hpq
  have hlength := congrArg (fun s => s.toList.length) h
  simp only [toList_ticked, length_append, length_replicate] at hlength
  exact ⟨rfl, by omega⟩

/-! ## The name of a value -/

/-- The name that a table has for a value.  Values that were never asked for stand between
ticks. -/
def name (table : NameTable String) (printed : String → String) (value : String) : String :=
  ((table.entries (printed value)).lookup value).getD ("'" ++ value ++ "'")

variable {names : NameTable String} {printed : String → String}

theorem name_of_lookup (h : (names.entries (printed value)).lookup value = some given) :
    names.name printed value = given := by
  simp [name, h]

theorem Ticked.name_cases (h : names.Ticked) (printed : String → String) (value : String) :
    (∃ k, (names.entries (printed value))[k]? = some (value, names.name printed value) ∧
      names.name printed value = ticked (printed value) k) ∨
      names.name printed value = "'" ++ value ++ "'" := by
  cases hvalue : (names.entries (printed value)).lookup value with
  | some given =>
    rw [name_of_lookup hvalue]
    exact .inl (h.lookup hvalue)
  | none => exact .inr (by simp [name, hvalue])

theorem ticked_ne_between_ticks (hp : Tickless p) (hne : p ≠ "") (k : Nat) (s : String) :
    ticked p k ≠ "'" ++ s ++ "'" := by
  intro h
  have hlist := congrArg String.toList h
  rw [toList_ticked, String.toList_append, String.toList_append] at hlist
  cases hcs : p.toList with
  | nil => exact hne (String.toList_inj.mp (by simpa using hcs))
  | cons c cs =>
    rw [hcs] at hlist
    have hc : c = '\'' := (cons.inj hlist).1
    exact hp (by simp [hcs, hc])

theorem Ticked.printed_eq (h : names.Ticked) (hplain : ∀ v, Tickless (printed v))
    (hne : ∀ v, printed v ≠ "") {v w : String} {k : Nat}
    (hv : names.name printed v = ticked (printed w) k) : printed v = printed w := by
  obtain ⟨l, -, hl⟩ | hl := h.name_cases printed v
  · exact (ticked_inj (hplain v) (hplain w) (hl.symm.trans hv)).1
  · exact absurd (hv.symm.trans hl) (ticked_ne_between_ticks (hplain w) (hne w) k v)

theorem Ticked.name_injective (h : names.Ticked) (hplain : ∀ v, Tickless (printed v))
    (hne : ∀ v, printed v ≠ "") : Function.Injective (names.name printed) := by
  intro v w hvw
  obtain ⟨k, hv, hvk⟩ | hv := h.name_cases printed v
  · obtain ⟨l, hw, hwl⟩ | hw := h.name_cases printed w
    · obtain ⟨hprinted, rfl⟩ := ticked_inj (hplain v) (hplain w) (hvk ▸ hwl ▸ hvw)
      rw [hprinted, hw] at hv
      exact (congrArg Prod.fst (Option.some.inj hv)).symm
    · exact absurd (hvk ▸ hw ▸ hvw) (ticked_ne_between_ticks (hplain v) (hne v) k w)
  · obtain ⟨l, hw, hwl⟩ | hw := h.name_cases printed w
    · exact absurd (hwl ▸ hv ▸ hvw).symm (ticked_ne_between_ticks (hplain w) (hne w) l v)
    · rw [hv, hw] at hvw
      exact (String.append_right_inj "'").mp ((String.append_left_inj "'").mp hvw)

/-! ## Sequences of requests -/

section Sequences

variable {calls : List (Option (ι × String))} {i j n : Nat} {v w : ι} {q : String}

/-- How many resets come before a place in a sequence of calls. -/
def resetsBefore (calls : List (Option (ι × String))) (i : Nat) : Nat :=
  (calls.take i).countP Option.isNone

private theorem resetsBefore_cons (call : Option (ι × String))
    (rest : List (Option (ι × String))) (i : Nat) :
    resetsBefore (call :: rest) (i + 1) = resetsBefore rest i + if call.isNone then 1 else 0 := by
  rw [resetsBefore, take_succ_cons, countP_cons]
  rfl

private theorem resetsBefore_succ {asked : ι × String} (h : calls[i]? = some (some asked)) :
    resetsBefore calls (i + 1) = resetsBefore calls i := by
  simp [resetsBefore, take_add_one, h]

/-- Between two resets a value prints as one name.  No printed name has a tick of its own. -/
structure PrintsSteadily (calls : List (Option (ι × String))) : Prop where
  tickless : ∀ v p, some (v, p) ∈ calls → Tickless p
  steady : ∀ i j v p q, calls[i]? = some (some (v, p)) → calls[j]? = some (some (v, q)) →
    resetsBefore calls i = resetsBefore calls j → p = q

variable [BEq ι]

private theorem Ticked.requestAll (h : table.Ticked) : (table.requestAll calls).2.Ticked := by
  induction calls generalizing table with
  | nil => exact h
  | cons call rest ih =>
    cases call with
    | none => exact ih ticked_nil
    | some asked => exact ih (h.request asked.1 asked.2)

private theorem extends_requestAll (h : calls.countP Option.isNone = 0) :
    table.Extends (table.requestAll calls).2 := by
  induction calls generalizing table with
  | nil => exact .refl table
  | cons call rest ih =>
    cases call with
    | none => simp at h
    | some asked => exact (extends_request asked.1 asked.2).trans (ih (by simpa using h))

/-- The answer to a request is what the table has for the value until the next reset. -/
private theorem lookup_requestAll [LawfulBEq ι] (table : NameTable ι)
    (h : calls[i]? = some (some (v, p))) (hin : i < n)
    (hreset : resetsBefore calls i = resetsBefore calls n) :
    ∃ name, (table.requestAll calls).1[i]? = some (some name) ∧
      ((table.requestAll (calls.take n)).2.entries p).lookup v = some name := by
  induction calls generalizing table i n with
  | nil => simp at h
  | cons call rest ih =>
    obtain ⟨n, rfl⟩ : ∃ m, n = m + 1 := ⟨n - 1, by omega⟩
    cases i with
    | zero =>
      obtain rfl : call = some (v, p) := by simpa using h
      refine ⟨(table.request v p).1, rfl, ?_⟩
      have hnone : (rest.take n).countP Option.isNone = 0 := by
        rw [resetsBefore_cons] at hreset
        simpa [resetsBefore] using hreset.symm
      exact (extends_requestAll hnone).lookup (lookup_request v p)
    | succ i =>
      simp only [resetsBefore_cons, Nat.add_right_cancel_iff] at hreset
      have hrest := fun later => ih later (by simpa using h) (by omega) hreset
      cases call with
      | none => exact hrest []
      | some asked => exact hrest (table.request asked.1 asked.2).2

/-- Between the same resets, two requests get one name exactly if they are for one value, however
many values print alike. -/
theorem names_eq_iff_values_eq [LawfulBEq ι] (h : PrintsSteadily calls)
    (hi : calls[i]? = some (some (v, p))) (hj : calls[j]? = some (some (w, q)))
    (hreset : resetsBefore calls i = resetsBefore calls j) :
    ∃ a b, (requestAll [] calls).1[i]? = some (some a) ∧
      (requestAll [] calls).1[j]? = some (some b) ∧
      (a = b ↔ v = w) := by
  obtain ⟨n, hin, hjn, hn⟩ : ∃ n, i < n ∧ j < n ∧ resetsBefore calls i = resetsBefore calls n := by
    rcases le_total i j with hij | hji
    · exact ⟨j + 1, by omega, by omega, hreset.trans (resetsBefore_succ hj).symm⟩
    · exact ⟨i + 1, by omega, by omega, (resetsBefore_succ hi).symm⟩
  obtain ⟨a, ha, hv⟩ := lookup_requestAll [] hi hin hn
  obtain ⟨b, hb, hw⟩ := lookup_requestAll [] hj hjn (hreset.symm.trans hn)
  refine ⟨a, b, ha, hb, fun hab => ?_, fun hvw => ?_⟩
  · have hticked : (requestAll [] (calls.take n)).2.Ticked := ticked_nil.requestAll
    obtain ⟨k, hk, rfl⟩ := hticked.lookup hv
    obtain ⟨l, hl, rfl⟩ := hticked.lookup hw
    obtain ⟨rfl, rfl⟩ :=
      ticked_inj (h.tickless v p (mem_of_getElem? hi)) (h.tickless w q (mem_of_getElem? hj)) hab
    exact congrArg Prod.fst (Option.some.inj (hk.symm.trans hl))
  · subst hvw
    obtain rfl := h.steady i j v p q hi hj hreset
    exact Option.some.inj (hv.symm.trans hw)

end Sequences

/-- Three values print as `i` behind the reset, and one prints otherwise than before it. -/
def loopNames : List (Option (Nat × String)) :=
  [some (0, "i"), some (1, "i"), none, some (2, "i"), some (0, "j"),
    some (1, "i"), some (3, "i"), some (1, "i")]

private theorem printsSteadily_loopNames : PrintsSteadily loopNames where
  tickless v p h := by
    have hall : ∀ call ∈ loopNames, ∀ asked ∈ call, '\'' ∉ asked.2.toList := by decide
    exact hall _ h (v, p) rfl
  steady i j v p q hi hj hreset := by
    have hall : ∀ i < 8, ∀ j < 8, ∀ a ∈ loopNames[i]?.join, ∀ b ∈ loopNames[j]?.join,
        a.1 = b.1 ∧ resetsBefore loopNames i = resetsBefore loopNames j → a.2 = b.2 := by decide
    have hlt {k : Nat} {asked : Nat × String} (h : loopNames[k]? = some (some asked)) : k < 8 :=
      (List.getElem?_eq_some_iff.mp h).1
    exact hall i (hlt hi) j (hlt hj) (v, p) (by simp [hi]) (v, q) (by simp [hj]) ⟨rfl, hreset⟩

theorem loopNames_told_apart : PrintsSteadily loopNames ∧
    (∃ a b, (requestAll [] loopNames).1[5]? = some (some a) ∧
      (requestAll [] loopNames).1[7]? = some (some b) ∧
      (a = b ↔ 1 = 1)) ∧
    ∃ a b, (requestAll [] loopNames).1[6]? = some (some a) ∧
      (requestAll [] loopNames).1[5]? = some (some b) ∧
      (a = b ↔ 3 = 1) :=
  ⟨printsSteadily_loopNames, names_eq_iff_values_eq printsSteadily_loopNames rfl rfl rfl,
    names_eq_iff_values_eq printsSteadily_loopNames rfl rfl rfl⟩

end Polyloom.NameTable
