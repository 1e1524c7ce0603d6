import Mathlib
import Polyloom.Proofs.Term.Reading
import Polyloom.Term.Written

/-!
# Visits of terms

An interpretation visits a term: members of sums and products in order, the first factor of a
floored product, and of the two members of a remainder the one that comes later.  So it gives
the value not of the term but of the term as it is read.
-/

namespace Polyloom

open List Option

variable {d : Denotation} {p : Proposition} {s : String} {α β : Type}

theorem forall₂_trans_mem {γ : Type} {R : α → β → Prop} {S : α → γ → Prop}
    {T : β → γ → Prop} {as : List α} {bs : List β} (h : Forall₂ R as bs)
    (himp : ∀ a ∈ as, ∀ b, R a b → ∃ c, S a c ∧ T b c) :
    ∃ cs, Forall₂ S as cs ∧ Forall₂ T bs cs := by
  induction h with
  | nil => exact ⟨[], .nil, .nil⟩
  | cons hab _ ih =>
    rw [forall_mem_cons] at himp
    obtain ⟨c, hS, hT⟩ := himp.1 _ hab
    obtain ⟨cs, hSs, hTs⟩ := ih himp.2
    exact ⟨c :: cs, .cons hS hSs, .cons hT hTs⟩

private theorem exists_of_mem_forall₂ {R : α → β → Prop} {as : List α}
    {bs : List β} (h : Forall₂ R as bs) {a : α} (ha : a ∈ as) : ∃ b, R a b := by
  induction h with
  | nil => simp at ha
  | cons hab _ ih =>
    obtain rfl | ha := mem_cons.mp ha
    · exact ⟨_, hab⟩
    · exact ih ha

namespace Term

variable {α : Type} {t : Term} {ts : List Term} {n a b : Int} {x : Rat}

/-! ## The shapes that are visited -/

private theorem size_le_sizeAll (h : t ∈ ts) : t.size ≤ sizeAll ts := by
  induction ts with
  | nil => simp at h
  | cons s ts ih =>
    rw [sizeAll]
    obtain rfl | h := mem_cons.mp h
    · omega
    · have := ih h
      omega

def visited : Term → Bool
  | .num _ | .sym _ | .sum _ | .prod _ | .mod _ _ | .floor (.prod (.num _ :: _ :: _)) => true
  | _ => false

/-- Induction along a visit: of a floored product only the first factor is visited. -/
@[elab_as_elim]
theorem visit_induction {P : Term → Prop} (num : ∀ q, P (.num q)) (sym : ∀ s, P (.sym s))
    (sum : ∀ ts, (∀ t ∈ ts, P t) → P (.sum ts)) (prod : ∀ ts, (∀ t ∈ ts, P t) → P (.prod ts))
    (mod : ∀ a b, P a → P b → P (.mod a b))
    (floor : ∀ q t rest, P t → P (.floor (.prod (.num q :: t :: rest))))
    (other : ∀ t, t.visited = false → P t) (t : Term) : P t := by
  induction hsize : t.size using Nat.strong_induction_on generalizing t with
  | _ n ih =>
    subst hsize
    have smaller : ∀ s : Term, s.size < t.size → P s := fun s hs => ih s.size hs s rfl
    cases hvisited : t.visited with
    | false => exact other t hvisited
    | true =>
      unfold visited at hvisited
      split at hvisited
      · exact num _
      · exact sym _
      · refine sum _ fun t ht => smaller t ?_
        have := size_le_sizeAll ht
        simp only [size]
        omega
      · refine prod _ fun t ht => smaller t ?_
        have := size_le_sizeAll ht
        simp only [size]
        omega
      · rename_i a b
        refine mod a b (smaller a ?_) (smaller b ?_) <;> simp only [size] <;> omega
      · refine floor _ _ _ (smaller _ ?_)
        simp only [size, sizeAll]
        omega
      · simp at hvisited

/-! ## What a visit gives -/

def combineAll (op : α → α → Except Fault α) : List α → Except Fault α
  | [] => .error .illFormed
  | a :: as => as.foldlM op a

theorem foldlM_visit {op : α → α → Except Fault α} (visit : Term → Except Fault α)
    (ts : List Term) (acc a : α) :
    (ts.foldlM (fun acc t => do op acc (← visit t)) acc = .ok a) ↔
      ∃ as, Forall₂ (fun t x => visit t = .ok x) ts as ∧ as.foldlM op acc = .ok a := by
  induction ts generalizing acc with
  | nil => simp
  | cons t ts ih =>
    simp only [foldlM_cons, bind_eq_ok, ih, forall₂_cons_left_iff]
    constructor
    · rintro ⟨next, ⟨x, hx, hnext⟩, as, has, ha⟩
      exact ⟨x :: as, ⟨x, as, hx, has, rfl⟩, by rw [foldlM_cons, hnext]; exact ha⟩
    · rintro ⟨_, ⟨x, as, hx, has, rfl⟩, ha⟩
      rw [foldlM_cons, bind_eq_ok] at ha
      obtain ⟨next, hnext, ha⟩ := ha
      exact ⟨next, ⟨x, hx, hnext⟩, as, has, ha⟩

private theorem interpretSum_eq_foldlM (I : Interpretation α) (ts : List Term) (acc : α) :
    interpretSum I ts acc = ts.foldlM (fun acc t => do I.add acc (← t.interpret I)) acc := by
  induction ts generalizing acc with
  | nil => rw [interpretSum]; rfl
  | cons t ts ih => simp [interpretSum, ih]

private theorem interpretProd_eq_foldlM (I : Interpretation α) (ts : List Term) (acc : α) :
    interpretProd I ts acc = ts.foldlM (fun acc t => do I.mul acc (← t.interpret I)) acc := by
  induction ts generalizing acc with
  | nil => rw [interpretProd]; rfl
  | cons t ts ih => simp [interpretProd, ih]

theorem forall₂_visit_iff {op : α → α → Except Fault α} {visit : Term → Except Fault α} {a : α} :
    (∃ as, Forall₂ (fun t x => visit t = .ok x) (t :: ts) as ∧ combineAll op as = .ok a) ↔
      ∃ x, visit t = .ok x ∧ ts.foldlM (fun acc t => do op acc (← visit t)) x = .ok a := by
  simp only [foldlM_visit, forall₂_cons_left_iff]
  constructor
  · rintro ⟨_, ⟨x, as, hx, has, rfl⟩, ha⟩
    exact ⟨x, hx, as, has, ha⟩
  · rintro ⟨x, hx, as, has, ha⟩
    exact ⟨x :: as, ⟨x, as, hx, has, rfl⟩, ha⟩

theorem interpret_sum (I : Interpretation α) (ts : List Term) (a : α) :
    (sum ts).interpret I = .ok a ↔
      ∃ as, Forall₂ (fun t x => t.interpret I = .ok x) ts as ∧ combineAll I.add as = .ok a := by
  cases ts with
  | nil => simp [interpret, combineAll]
  | cons t ts => rw [forall₂_visit_iff, interpret, bind_eq_ok]; simp only [interpretSum_eq_foldlM]

theorem interpret_prod (I : Interpretation α) (ts : List Term) (a : α) :
    (prod ts).interpret I = .ok a ↔
      ∃ as, Forall₂ (fun t x => t.interpret I = .ok x) ts as ∧ combineAll I.mul as = .ok a := by
  cases ts with
  | nil => simp [interpret, combineAll]
  | cons t ts => rw [forall₂_visit_iff, interpret, bind_eq_ok]; simp only [interpretProd_eq_foldlM]

/-- The member of a remainder that is taken for the dividend: the one that comes later. -/
def dividend (a b : Term) : Term := if before b a then a else b

/-- The member of a remainder that is taken for the divisor: the one that comes first. -/
def divisor (a b : Term) : Term := if before b a then b else a

theorem members_of_mod {a b : Term} :
    dividend a b = a ∧ divisor a b = b ∨ dividend a b = b ∧ divisor a b = a := by
  unfold dividend divisor
  split
  · exact .inl ⟨rfl, rfl⟩
  · exact .inr ⟨rfl, rfl⟩

theorem interpret_mod (I : Interpretation α) (a b : Term) (y : α) : (mod a b).interpret I = .ok y ↔
      ∃ n x, (divisor a b).asInt? = some n ∧ (dividend a b).interpret I = .ok x ∧
        I.mod x (I.literal n) = .ok y := by
  unfold dividend divisor
  rw [interpret]
  split
  · cases b.asInt? with
    | none => simp
    | some n => simp [bind_eq_ok]
  · cases a.asInt? with
    | none => simp
    | some n => simp [bind_eq_ok]

theorem interpret_floor (I : Interpretation α) (q : Rat) (t : Term) (rest : List Term) (y : α) :
    (floor (.prod (.num q :: t :: rest))).interpret I = .ok y ↔
      q.num = 1 ∧ ∃ x, t.interpret I = .ok x ∧ I.floorDiv x (I.literal q.den) = .ok y := by
  rw [interpret]
  split
  · rename_i hq
    simp [bind_eq_ok, hq]
  · rename_i hq
    simp [hq]

theorem interpret_num (I : Interpretation α) (q : Rat) (a : α) :
    (num q).interpret I = .ok a ↔ q.den = 1 ∧ I.literal q.num = a := by
  rw [interpret]
  split
  · rename_i hq
    simp [hq]
  · rename_i hq
    simp [hq]

theorem ne_of_not_visited {s : Term} (h : (floor s).visited = false) (q : Rat) (t : Term)
    (rest : List Term) : s ≠ .prod (.num q :: t :: rest) := by
  rintro rfl
  simp [visited] at h

private theorem interpret_of_not_visited (I : Interpretation α) (h : t.visited = false) (a : α) :
    t.interpret I ≠ .ok a := by
  cases t with
  | num | sym | sum | prod | mod => simp [visited] at h
  | pow | infinity | undefined => simp [interpret]
  | floor s =>
    rw [interpret]
    · simp
    · exact ne_of_not_visited h

/-! ## Terms as they are read -/

mutual

/-- The term whose value an interpretation gives. -/
def asRead : Term → Term
  | .sum ts => .sum (asReadAll ts)
  | .prod ts => .prod (asReadAll ts)
  | .mod a b => .mod (if before b a then a.asRead else b.asRead) (divisor a b)
  | .floor (.prod (.num q :: t :: _)) => .floor (.prod [.num q, t.asRead])
  | t => t

def asReadAll : List Term → List Term
  | [] => []
  | t :: ts => t.asRead :: asReadAll ts

end

theorem asReadAll_eq_map (ts : List Term) : asReadAll ts = ts.map asRead := by
  induction ts with
  | nil => rfl
  | cons t ts ih => rw [asReadAll, ih, map_cons]

theorem asRead_sum (ts : List Term) : (sum ts).asRead = .sum (ts.map asRead) := by
  rw [asRead, asReadAll_eq_map]

theorem asRead_prod (ts : List Term) : (prod ts).asRead = .prod (ts.map asRead) := by
  rw [asRead, asReadAll_eq_map]

theorem asRead_mod (a b : Term) : (mod a b).asRead = .mod (dividend a b).asRead (divisor a b) := by
  rw [asRead, dividend]
  split <;> rfl

theorem asRead_floor (q : Rat) (t : Term) (rest : List Term) :
    (floor (.prod (.num q :: t :: rest))).asRead = .floor (.prod [.num q, t.asRead]) := by
  rw [asRead]

mutual

/-- Is a term read as it stands?  Then every remainder has its divisor first, and every floored
product has a single factor beside its number. -/
def readsPlainly : Term → Bool
  | .sum ts | .prod ts => readsPlainlyAll ts
  | .mod a b => before b a && a.readsPlainly
  | .floor (.prod (.num _ :: t :: rest)) => rest.isEmpty && t.readsPlainly
  | _ => true

def readsPlainlyAll : List Term → Bool
  | [] => true
  | t :: ts => t.readsPlainly && readsPlainlyAll ts

end

theorem readsPlainlyAll_iff (ts : List Term) :
    readsPlainlyAll ts = true ↔ ∀ t ∈ ts, t.readsPlainly = true := by
  induction ts with
  | nil => simp [readsPlainlyAll]
  | cons t ts ih => simp [readsPlainlyAll, ih]

private theorem asRead_of_not_visited (h : t.visited = false) : t.asRead = t := by
  cases t with
  | num | sym | sum | prod | mod => simp [visited] at h
  | pow | infinity | undefined => simp [asRead]
  | floor s =>
    rw [asRead]
    all_goals simp
    exact ne_of_not_visited h

theorem asRead_eq_self (h : t.readsPlainly = true) : t.asRead = t := by
  induction t using visit_induction with
  | num | sym => simp [asRead]
  | sum ts ih =>
    rw [readsPlainly, readsPlainlyAll_iff] at h
    rw [asRead_sum, List.map_congr_left fun t ht => ih t ht (h t ht), List.map_id']
  | prod ts ih =>
    rw [readsPlainly, readsPlainlyAll_iff] at h
    rw [asRead_prod, List.map_congr_left fun t ht => ih t ht (h t ht), List.map_id']
  | mod a b iha ihb =>
    rw [readsPlainly, Bool.and_eq_true] at h
    rw [asRead_mod, dividend, divisor, if_pos h.1, if_pos h.1, iha h.2]
  | floor q t rest ih =>
    rw [readsPlainly, Bool.and_eq_true, List.isEmpty_iff] at h
    rw [asRead_floor, ih h.2, h.1]
  | other t hother => exact asRead_of_not_visited hother

/-! ## The names that a visit meets -/

mutual

def visits : Term → List String
  | .sym s => [s]
  | .sum ts | .prod ts => visitsAll ts
  | .mod a b => if before b a then a.visits else b.visits
  | .floor (.prod (.num _ :: t :: _)) => t.visits
  | _ => []

def visitsAll : List Term → List String
  | [] => []
  | t :: ts => t.visits ++ visitsAll ts

end

theorem visitsAll_eq_flatMap (ts : List Term) : visitsAll ts = ts.flatMap visits := by
  induction ts with
  | nil => rfl
  | cons t ts ih => rw [visitsAll, ih, flatMap_cons]

theorem visits_mod (a b : Term) : (mod a b).visits = (dividend a b).visits := by
  rw [visits, dividend]
  split <;> rfl

private theorem visits_of_not_visited (h : t.visited = false) : t.visits = [] := by
  cases t with
  | num | sym | sum | prod | mod => simp [visited] at h
  | pow | infinity | undefined => simp [visits]
  | floor s =>
    rw [visits]
    all_goals simp
    exact ne_of_not_visited h

theorem mentionsAny_eq_any (p : String → Bool) (ts : List Term) :
    mentionsAny p ts = ts.any (mentions p) := by
  induction ts with
  | nil => rfl
  | cons t ts ih => rw [mentionsAny, ih, any_cons]

theorem mentions_of_mem_visits (hs : s ∈ t.visits) {p : String → Bool} (hp : p s = true) :
    t.mentions p = true := by
  induction t using visit_induction with
  | num q => simp [visits] at hs
  | sym r =>
    rw [visits, List.mem_singleton] at hs
    rw [mentions, ← hs, hp]
  | sum ts ih | prod ts ih =>
    rw [visits, visitsAll_eq_flatMap, List.mem_flatMap] at hs
    obtain ⟨t, ht, hs⟩ := hs
    rw [mentions, mentionsAny_eq_any, List.any_eq_true]
    exact ⟨t, ht, ih t ht hs⟩
  | mod a b iha ihb =>
    rw [visits_mod] at hs
    rw [mentions, Bool.or_eq_true]
    obtain ⟨heq, -⟩ | ⟨heq, -⟩ := @members_of_mod a b
    · exact .inl (iha (heq ▸ hs))
    · exact .inr (ihb (heq ▸ hs))
  | floor q t rest ih =>
    rw [visits] at hs
    simp [mentions, mentionsAny, ih hs]
  | other t hother => simp [visits_of_not_visited hother] at hs

/-! ## The value that a visit gives -/

inductive Accepted : Term → Prop
  | num {q : Rat} (h : q.den = 1) : Accepted (.num q)
  | sym (s : String) : Accepted (.sym s)
  | sum {ts : List Term} (hne : ts ≠ []) (h : ∀ t ∈ ts, Accepted t) : Accepted (.sum ts)
  | prod {ts : List Term} (hne : ts ≠ []) (h : ∀ t ∈ ts, Accepted t) : Accepted (.prod ts)
  | mod {a b : Term} {n : Int} (hn : (divisor a b).asInt? = some n)
    (h : Accepted (dividend a b)) : Accepted (.mod a b)
  | floor {q : Rat} {t : Term} (rest : List Term) (hq : q.num = 1) (h : Accepted t) :
      Accepted (.floor (.prod (.num q :: t :: rest)))

theorem accepted_of_interpret {I : Interpretation α} {a : α} (h : t.interpret I = .ok a) :
    Accepted t := by
  induction t using visit_induction generalizing a with
  | num q => exact .num ((interpret_num I q a).mp h).1
  | sym s => exact .sym s
  | sum ts ih =>
    obtain ⟨as, has, ha⟩ := (interpret_sum I ts a).mp h
    refine .sum ?_ fun t ht => ?_
    · rintro rfl
      cases has
      simp [combineAll] at ha
    · obtain ⟨x, hx⟩ := exists_of_mem_forall₂ has ht
      exact ih t ht hx
  | prod ts ih =>
    obtain ⟨as, has, ha⟩ := (interpret_prod I ts a).mp h
    refine .prod ?_ fun t ht => ?_
    · rintro rfl
      cases has
      simp [combineAll] at ha
    · obtain ⟨x, hx⟩ := exists_of_mem_forall₂ has ht
      exact ih t ht hx
  | mod p q ihp ihq =>
    obtain ⟨n, x, hn, hx, -⟩ := (interpret_mod I p q a).mp h
    refine .mod hn ?_
    unfold dividend at hx ⊢
    split at hx
    · rename_i hbefore
      rw [if_pos hbefore]
      exact ihp hx
    · rename_i hbefore
      rw [if_neg hbefore]
      exact ihq hx
  | floor q t rest ih =>
    obtain ⟨hq, x, hx, -⟩ := (interpret_floor I q t rest a).mp h
    exact .floor rest hq (ih hx)
  | other t hother => exact absurd h (interpret_of_not_visited I hother a)

private theorem evalSum_eq_some (env : String → Rat) (ts : List Term) (x : Rat) :
    evalSum env ts = some x ↔
      ∃ xs, List.Forall₂ (fun t y => t.eval env = some y) ts xs ∧ xs.sum = x := by
  induction ts generalizing x with
  | nil => simp [evalSum]
  | cons t ts ih =>
    simp only [evalSum, Option.bind_eq_bind, Option.bind_eq_some_iff, ih, Option.pure_def,
      Option.some.injEq, List.forall₂_cons_left_iff]
    constructor
    · rintro ⟨y, hy, _, ⟨xs, hxs, rfl⟩, rfl⟩
      exact ⟨y :: xs, ⟨y, xs, hy, hxs, rfl⟩, List.sum_cons⟩
    · rintro ⟨_, ⟨y, xs, hy, hxs, rfl⟩, rfl⟩
      exact ⟨y, hy, xs.sum, ⟨xs, hxs, rfl⟩, List.sum_cons.symm⟩

private theorem evalProd_eq_some (env : String → Rat) (ts : List Term) (x : Rat) :
    evalProd env ts = some x ↔
      ∃ xs, List.Forall₂ (fun t y => t.eval env = some y) ts xs ∧ xs.prod = x := by
  induction ts generalizing x with
  | nil => simp [evalProd]
  | cons t ts ih =>
    simp only [evalProd, Option.bind_eq_bind, Option.bind_eq_some_iff, ih, Option.pure_def,
      Option.some.injEq, List.forall₂_cons_left_iff]
    constructor
    · rintro ⟨y, hy, _, ⟨xs, hxs, rfl⟩, rfl⟩
      exact ⟨y :: xs, ⟨y, xs, hy, hxs, rfl⟩, List.prod_cons⟩
    · rintro ⟨_, ⟨y, xs, hy, hxs, rfl⟩, rfl⟩
      exact ⟨y, hy, xs.prod, ⟨xs, hxs, rfl⟩, List.prod_cons.symm⟩

theorem combineAll_cons (op : α → α → α) (a : α) (as : List α) :
    combineAll (fun a b => .ok (op a b)) (a :: as) = .ok (as.foldl op a) :=
  foldlM_pure (m := Except Fault)

theorem combineAll_ok {op : α → α → α} {e : α} (he : ∀ a, op e a = a) {as : List α} {a : α} :
    combineAll (fun a b => .ok (op a b)) as = .ok a ↔ as ≠ [] ∧ as.foldl op e = a := by
  cases as with
  | nil => simp [combineAll]
  | cons x as => simp [combineAll_cons, he]

/-! ## Values -/

theorem sub_mul_floor (m n : Int) :
    (m : Rat) - n * ((m / n : Rat).floor : Rat) = ((Int.fmod m n : Int) : Rat) := by
  have hfloor : (m / n : Rat).floor = Int.fdiv m n := floor_intCast_div m n
  rw [hfloor, Int.fmod_def]
  push_cast
  ring

variable {known : String → Option Int} {env : String → Int}

theorem integers_symbol : (Interpretation.integers known).symbol s = .ok n ↔ known s = some n := by
  simp only [Interpretation.integers]
  split <;> rename_i h <;> simp [h]

theorem integers_mod :
    (Interpretation.integers known).mod a n = .ok b ↔ n ≠ 0 ∧ Int.fmod a n = b := by
  simp only [Interpretation.integers]
  split <;> rename_i hn <;> simp [hn]

theorem integers_floorDiv :
    (Interpretation.integers known).floorDiv a n = .ok b ↔ n ≠ 0 ∧ Int.fdiv a n = b := by
  simp only [Interpretation.integers]
  split <;> rename_i hn <;> simp [hn]

theorem evalInt_sum : (sum ts).evalInt env = some x ↔
      ∃ xs, Forall₂ (fun t y => t.evalInt env = some y) ts xs ∧ xs.sum = x := by
  rw [evalInt, eval]
  exact evalSum_eq_some _ ts x

theorem evalInt_prod : (prod ts).evalInt env = some x ↔
      ∃ xs, Forall₂ (fun t y => t.evalInt env = some y) ts xs ∧ xs.prod = x := by
  rw [evalInt, eval]
  exact evalProd_eq_some _ ts x

theorem evalInt_mod_num {p : Term} : (mod p (.num n)).evalInt env = some x ↔
      n ≠ 0 ∧ ∃ y, p.evalInt env = some y ∧ y - n * ((y / n).floor : Rat) = x := by
  simp only [evalInt, eval, bind_eq_bind, bind_eq_some_iff]
  constructor
  · rintro ⟨y, hy, _, ⟨⟩, hx⟩
    split at hx
    · simp at hx
    · rename_i hn
      exact ⟨by exact_mod_cast hn, y, hy, some.inj hx⟩
  · rintro ⟨hn, y, hy, rfl⟩
    exact ⟨y, hy, n, rfl, by rw [if_neg (by exact_mod_cast hn)]; rfl⟩

theorem evalInt_floor_multiple {q : Rat} : (floor (.prod [.num q, t])).evalInt env = some x ↔
      ∃ y, t.evalInt env = some y ∧ ((⌊q * y⌋ : Int) : Rat) = x := by
  simp only [evalInt, eval, evalProd, bind_eq_bind, bind_eq_some_iff]
  constructor
  · rintro ⟨_, ⟨_, ⟨⟩, _, ⟨y, hy, _, ⟨⟩, ⟨⟩⟩, ⟨⟩⟩, hx⟩
    refine ⟨y, hy, ?_⟩
    rw [mul_one] at hx
    exact some.inj hx
  · rintro ⟨y, hy, rfl⟩
    exact ⟨q * (y * 1), ⟨q, rfl, y * 1, ⟨y, hy, 1, rfl, rfl⟩, rfl⟩, by rw [mul_one]; rfl⟩

/-- An assignment of integers to all names that gives the known ones their values. -/
def Extends (env : String → Int) (known : String → Option Int) : Prop :=
  ∀ s n, known s = some n → env s = n

private theorem forall₂_asRead {I : Interpretation Int} {vs : List Int}
    (h : ∀ t ∈ ts, ∀ v : Int, t.interpret I = .ok v → t.asRead.evalInt env = some (v : Rat))
    (hvs : Forall₂ (fun t v => t.interpret I = .ok v) ts vs) :
    Forall₂ (fun t y => t.evalInt env = some y) (ts.map asRead) (vs.map Int.cast) := by
  rw [forall₂_map_left_iff, forall₂_map_right_iff]
  exact forall₂_imp_mem hvs h

/-- What a visit in the integers gives is the value of the term as it is read. -/
private theorem evalInt_asRead (henv : Extends env known) {v : Int}
    (h : t.interpret (.integers known) = .ok v) : t.asRead.evalInt env = some (v : Rat) := by
  induction accepted_of_interpret h generalizing v with
  | num hq =>
    obtain ⟨-, rfl⟩ := (interpret_num _ _ v).mp h
    rw [asRead, evalInt, eval]
    exact congrArg some (Rat.coe_int_num_of_den_eq_one hq).symm
    all_goals simp
  | sym s =>
    rw [interpret, integers_symbol] at h
    rw [← henv s v h]
    simp [asRead, evalInt, eval]
  | sum hne hall ih =>
    obtain ⟨vs, hvs, hv⟩ := (interpret_sum _ _ v).mp h
    obtain ⟨-, rfl⟩ := (combineAll_ok zero_add).mp hv
    rw [asRead_sum, evalInt_sum]
    refine ⟨_, forall₂_asRead (fun t ht v hv => ih t ht hv) hvs, ?_⟩
    rw [← Int.cast_list_sum, sum_eq_foldl]
  | prod hne hall ih =>
    obtain ⟨vs, hvs, hv⟩ := (interpret_prod _ _ v).mp h
    obtain ⟨-, rfl⟩ := (combineAll_ok one_mul).mp hv
    rw [asRead_prod, evalInt_prod]
    refine ⟨_, forall₂_asRead (fun t ht v hv => ih t ht hv) hvs, ?_⟩
    rw [← Int.cast_list_prod, prod_eq_foldl]
  | mod hn hd ih =>
    obtain ⟨n, x, hn', hx, hv⟩ := (interpret_mod _ _ _ v).mp h
    obtain ⟨hne, rfl⟩ := integers_mod.mp hv
    rw [asRead_mod, asInt?_eq_some.mp hn', evalInt_mod_num]
    exact ⟨hne, x, ih hx, sub_mul_floor x n⟩
  | floor rest hq ht ih =>
    rename_i q t
    obtain ⟨-, x, hx, hv⟩ := (interpret_floor _ q t rest v).mp h
    obtain ⟨-, rfl⟩ := integers_floorDiv.mp hv
    rw [asRead_floor, evalInt_floor_multiple]
    refine ⟨x, ih hx, ?_⟩
    rw [floor_unit_fraction hq]
    exact congrArg Int.cast (Int.fdiv_eq_ediv_of_nonneg _ (Int.natCast_nonneg _)).symm

end Term

/-! ## Denotations -/

namespace Proposition

def asRead : Proposition → Proposition
  | .truth b => .truth b
  | .compare op l r => .compare op l.asRead r.asRead

def readsPlainly : Proposition → Bool
  | .truth _ => true
  | .compare _ l r => l.readsPlainly && r.readsPlainly

private theorem asRead_eq_self (h : p.readsPlainly = true) : p.asRead = p := by
  cases p with
  | truth => rfl
  | compare op l r =>
    rw [readsPlainly, Bool.and_eq_true] at h
    rw [asRead, Term.asRead_eq_self h.1, Term.asRead_eq_self h.2]

private theorem interpret_eq_ok {I : Interpretation α} {result : Comparison × α × α}
    (h : p.interpret I = .ok result) : ∃ l r, p = .compare result.1 l r ∧
    l.interpret I = .ok result.2.1 ∧ r.interpret I = .ok result.2.2 := by
  cases p with
  | truth b => simp [interpret] at h
  | compare op l r =>
    cases op with
    | ne => simp [interpret] at h
    | le | lt | ge | gt | eq =>
      simp only [interpret, bind_eq_ok] at h
      obtain ⟨a, ha, b, hb, ⟨⟩⟩ := h
      exact ⟨l, r, rfl, ha, hb⟩

end Proposition

namespace Denotation

variable {known : String → Option Int} {env : String → Int}

def value (env : String → Int) : Denotation → Option (Rat ⊕ Bool)
  | .term t => (t.evalInt env).map .inl
  | .prop p => (p.eval fun s => (env s : Rat)).map .inr

def asRead : Denotation → Denotation
  | .term t => .term t.asRead
  | .prop p => .prop p.asRead

def readsPlainly : Denotation → Bool
  | .term t => t.readsPlainly
  | .prop p => p.readsPlainly

private theorem asRead_eq_self (h : d.readsPlainly = true) : d.asRead = d := by
  cases d with
  | term t => exact congrArg term (Term.asRead_eq_self h)
  | prop p => exact congrArg prop (Proposition.asRead_eq_self h)

def exact : Int ⊕ Bool → Rat ⊕ Bool := Sum.map Int.cast id

private theorem value_asRead (henv : Term.Extends env known)
    {v : Int ⊕ Bool} (h : d.evalInt known = .ok v) : d.asRead.value env = some (exact v) := by
  cases d with
  | term t =>
    rw [evalInt] at h
    cases hv : t.interpret (.integers known) with
    | error => simp [hv, Except.map] at h
    | ok n =>
      simp only [hv, Except.map, Except.ok.injEq] at h
      subst h
      rw [asRead, value, Term.evalInt_asRead henv hv]
      rfl
  | prop p =>
    rw [evalInt, bind_eq_ok] at h
    obtain ⟨⟨op, a, b⟩, hp, ⟨⟩⟩ := h
    obtain ⟨l, r, rfl, ha, hb⟩ := Proposition.interpret_eq_ok hp
    have hl : l.asRead.eval (fun s => (env s : Rat)) = some (a : Rat) := Term.evalInt_asRead henv ha
    have hr : r.asRead.eval (fun s => (env s : Rat)) = some (b : Rat) := Term.evalInt_asRead henv hb
    simp [asRead, Proposition.asRead, value, Proposition.eval, hl, hr, exact]

/-- Wherever what is denoted has a value, a visit that succeeds gives that value exactly if
what is read in its place has it too; so it does where remainders have their divisor first and
floored products have a single factor beside their number. -/
theorem evalInt_sound_iff (henv : Term.Extends env known) {d : Denotation} {v : Int ⊕ Bool}
    {x : Rat ⊕ Bool} (hv : d.evalInt known = .ok v) (hx : d.value env = some x) :
    (exact v = x ↔ d.asRead.value env = d.value env) ∧ (d.readsPlainly = true → exact v = x) := by
  have hread := value_asRead henv hv
  constructor
  · rw [hread, hx, some.injEq]
  · intro hplain
    rw [asRead_eq_self hplain, hx] at hread
    exact (some.inj hread).symm

theorem tiled_comparison_sound :
    let known : String → Option Int := fun s => [("d0", -6), ("d1", 3)].lookup s
    let d : Denotation := .prop (.compare .eq (.mod (.sym "d0") (.num 4))
      (.floor (.prod [.num (1 / 2), .sum [.num 1, .sym "d1"]])))
    d.evalInt known = .ok (.inr true) ∧ d.value (fun s => (known s).getD 0) = some (.inr true) ∧
      exact (.inr true) = .inr true := by
  intro known d
  have henv : Term.Extends (fun s => (known s).getD 0) known := fun s n hn => by simp [hn]
  have hv : d.evalInt known = .ok (.inr true) := by cbv
  have hx : d.value (fun s => (known s).getD 0) = some (.inr true) := by cbv
  exact ⟨hv, hx, (evalInt_sound_iff henv hv hx).2 (by cbv)⟩

/-- A second factor under a floor is not read, and a number that is reduced by a name is taken
for the modulus. -/
theorem halved_product_misread :
    let known : String → Option Int := fun s => [("d0", 1), ("d1", 2)].lookup s
    let env : String → Int := fun s => (known s).getD 0
    (∃ d, (Written.arith .floorDiv [.arith .mul [.sym "d0", .sym "d1"], .int 2]).denote = .ok d ∧
      d.evalInt known = .ok (.inl 0) ∧ d.value env = some (.inl 1)) ∧
    ∃ d, (Written.arith .mod [.int 3, .sym "d0"]).denote = .ok d ∧
      d.evalInt known = .ok (.inl 1) ∧ d.value env = some (.inl 0) := by
  refine ⟨⟨.term (.floor (.prod [.num (1 / 2), .sym "d0", .sym "d1"])), ?_, ?_, ?_⟩,
    .term (.mod (.num 3) (.sym "d0")), ?_, ?_, ?_⟩
  all_goals cbv

end Denotation

end Polyloom
