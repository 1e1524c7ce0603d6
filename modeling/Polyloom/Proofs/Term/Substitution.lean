import Polyloom.Term.Relation
import Polyloom.Proofs.Term.Linear
import Polyloom.Proofs.Outcome

/-!
# Names for names in terms

Putting symbols for symbols in a linear or polynomial term gives a term of the same kind.  Its
value is that of the first term where each symbol has the value of the symbol that was put for
it.
-/

namespace Polyloom

open Except List

variable {p : String → Bool} {env' : String → Int} {P Q : Term → Prop}

namespace Term

variable {env : String → Int} {table : List (String × String)} {ts ts' : List Term} {t t' : Term}

/-! ## Symbols that do not occur -/

mutual

theorem value_congr {env : String → Int} (h : ∀ s, p s = false → env s = env' s) :
    ∀ t : Term, t.mentions p = false → t.value env = t.value env'
  | .num q, _ => by simp
  | .sym s, ht => by simpa using h s (by simpa [mentions] using ht)
  | .sum ts, ht => by
    rw [value, value]
    exact valueSum_congr h ts (by simpa [mentions] using ht)
  | .prod ts, ht => by
    rw [value, value]
    exact valueProd_congr h ts (by simpa [mentions] using ht)
  | .pow a b, ht => by
    simp only [mentions, Bool.or_eq_false_iff] at ht
    rw [value, value, value_congr h a ht.1, value_congr h b ht.2]
  | .floor a, ht => by
    rw [value, value, value_congr h a (by simpa [mentions] using ht)]
  | .mod a b, ht => by
    simp only [mentions, Bool.or_eq_false_iff] at ht
    rw [value, value, value_congr h a ht.1, value_congr h b ht.2]
  | .infinity, _ => by rw [value, value]
  | .undefined, _ => by rw [value, value]

theorem valueSum_congr {env : String → Int} (h : ∀ s, p s = false → env s = env' s) :
    ∀ ts : List Term, mentionsAny p ts = false → valueSum env ts = valueSum env' ts
  | [], _ => by rw [valueSum, valueSum]
  | t :: ts, ht => by
    simp only [mentionsAny, Bool.or_eq_false_iff] at ht
    rw [valueSum, valueSum, value_congr h t ht.1, valueSum_congr h ts ht.2]

theorem valueProd_congr {env : String → Int} (h : ∀ s, p s = false → env s = env' s) :
    ∀ ts : List Term, mentionsAny p ts = false → valueProd env ts = valueProd env' ts
  | [], _ => by rw [valueProd, valueProd]
  | t :: ts, ht => by
    simp only [mentionsAny, Bool.or_eq_false_iff] at ht
    rw [valueProd, valueProd, value_congr h t ht.1, valueProd_congr h ts ht.2]

end

/-! ## Renaming -/

def symbolTable (table : List (String × String)) : List (String × Term) :=
  table.map fun entry => (entry.1, .sym entry.2)

/-- The values of the old symbols, given those of the new ones. -/
def renamed (table : List (String × String)) (env : String → Int) (s : String) : Int :=
  env ((table.lookup s).getD s)

theorem lookup_symbolTable (table : List (String × String)) (s : String) :
    (symbolTable table).lookup s = (table.lookup s).map .sym := by
  induction table with
  | nil => rfl
  | cons entry rest ih =>
    obtain ⟨key, name⟩ := entry
    simp only [symbolTable, map_cons, lookup_cons]
    cases s == key with
    | true => rfl
    | false => exact ih

private theorem renamed_of_lookup_eq_none {s : String}
    (h : ((symbolTable table).lookup s).isSome = false) :
    env s = renamed table env s := by
  rw [lookup_symbolTable, Option.isSome_map] at h
  unfold renamed
  rw [Option.isSome_eq_false_iff.mp h |> Option.isNone_iff_eq_none.mp]
  rfl

def RenamedTo (table : List (String × String)) (P : Term → Prop) (t : Term) : Prop :=
  ∃ t', t.substitute (symbolTable table) = .ok t' ∧ P t' ∧ ∀ env,
    t'.value env = t.value (renamed table env)

theorem substituteAll_spec {R : Term → Term → Prop} (h : ∀ t ∈ ts, RenamedTo table (R t) t) :
    ∃ ts', substituteAll (symbolTable table) ts = .ok ts' ∧ Forall₂ R ts ts' ∧
      ∀ env, ts'.map (value env) = ts.map (value (renamed table env)) := by
  induction ts with
  | nil => exact ⟨[], rfl, .nil, by simp⟩
  | cons t ts ih =>
    rw [forall_mem_cons] at h
    obtain ⟨t', ht', hkind, hvalue⟩ := h.1
    obtain ⟨ts', hts', hall, hvalues⟩ := ih h.2
    refine ⟨t' :: ts', ?_, .cons hkind hall, fun env => ?_⟩
    · rw [substituteAll, ht', hts']
      rfl
    · rw [map_cons, map_cons, hvalue, hvalues]

/-- A term without symbols to rename is kept, and another one is made anew. -/
theorem renamedTo_made {made : Term}
    (hrun : t.substitute (symbolTable table) = .ok (if t.mentions fun s =>
      ((symbolTable table).lookup s).isSome then made else t))
    (hself : P t) (hmade : P made) (hvalue : ∀ env, made.value env = t.value (renamed table env)) :
    RenamedTo table P t := by
  split at hrun
  · exact ⟨made, hrun, hmade, hvalue⟩
  · rename_i hmentions
    rw [Bool.not_eq_true] at hmentions
    exact ⟨t, hrun, hself, fun env => value_congr (fun s => renamed_of_lookup_eq_none) t hmentions⟩

section

variable (hts : substituteAll (symbolTable table) ts = .ok ts')
  (hvalues : ∀ env, ts'.map (value env) = ts.map (value (renamed table env)))

include hts hvalues

theorem renamedTo_sum (hself : P (.sum ts)) (hadd : P (Term.add ts'))
    (hvalue : ∀ env, (Term.add ts').value env = (ts'.map (value env)).sum) :
    RenamedTo table P (.sum ts) := by
  refine renamedTo_made ?_ hself hadd fun env => by rw [hvalue, hvalues, value_sum]
  rw [substitute, hts, mentions]
  rfl

theorem renamedTo_prod (hself : P (.prod ts)) (hmul : P (mul ts'))
    (hvalue : ∀ env, (mul ts').value env = (ts'.map (value env)).prod) :
    RenamedTo table P (.prod ts) := by
  refine renamedTo_made ?_ hself hmul fun env => by rw [hvalue, hvalues, value_prod]
  rw [substitute, hts, mentions]
  rfl

end

section

variable {rational whole : Term → Prop} (A : Arithmetic rational whole)

include A

theorem renamedTo_sym (table : List (String × String)) (s : String) :
    RenamedTo table whole (.sym s) := by
  refine ⟨.sym ((table.lookup s).getD s), ?_, A.sym _, fun env => ?_⟩
  · rw [substitute, lookup_symbolTable]
    cases table.lookup s <;> rfl
  · simp [renamed]

theorem renamedTo_floor {table : List (String × String)} {t : Term}
    (h : RenamedTo table rational t) : RenamedTo table whole (.floor t) := by
  obtain ⟨t', ht', hrational, hvalue⟩ := h
  obtain ⟨hfloor, hfloorValue⟩ := A.floorOf_spec hrational
  refine ⟨floorOf t', ?_, hfloor, fun env => ?_⟩
  · rw [substitute, ht']
    rfl
  · rw [hfloorValue, hvalue, value_floor]

theorem renamedTo_mod {table : List (String × String)} {p : Term} {n : Int} (hn : 0 < n)
    (hself : whole (.mod p (.num n))) (h : RenamedTo table whole p) :
    RenamedTo table whole (.mod p (.num n)) := by
  obtain ⟨p', hp', hwhole, hvalue⟩ := h
  have hdivisor : (Term.num (n : Rat)).substitute (symbolTable table) = .ok (.num n) := by
    rw [substitute]
  by_cases hsame : p' = p
  · subst hsame
    refine ⟨.mod p' (.num n), ?_, hself, fun env => ?_⟩
    · rw [substitute, hp', hdivisor]
      simp [bind, Except.bind, pure, Except.pure]
    · rw [value_mod_num, value_mod_num, hvalue]
  · obtain ⟨r, hr, hremainder⟩ := A.modulo_spec hwhole hn
    refine ⟨r, ?_, hremainder.1, fun env => ?_⟩
    · rw [substitute, hp', hdivisor]
      simp [bind, Except.bind, hsame, hr]
    · rw [hremainder.2, hvalue, value_mod_num]

end

/-! ## Polynomial terms -/

/-- A polynomial term that has no more coefficients than another. -/
def Narrows (t t' : Term) : Prop := Polynomial t' ∧ t'.span ≤ t.span

theorem Narrows.integral (h : Narrows t t') (hwhole : t.Whole) : Integral t' :=
  ⟨h.1, h.2.trans hwhole⟩

private theorem Integral.narrows (h : Integral t') (ht : t.span = 1) : Narrows t t' :=
  ⟨h.polynomial, h.whole.trans ht.ge⟩

theorem RenamedTo.imp (h : RenamedTo table P t) (himp : ∀ t', P t' → Q t') :
    RenamedTo table Q t := by
  obtain ⟨t', ht', hkind, hvalue⟩ := h
  exact ⟨t', ht', himp t' hkind, hvalue⟩

private theorem narrows_span_prod (h : Forall₂ Narrows ts ts') :
    (ts'.map span).prod ≤ (ts.map span).prod := by
  induction h with
  | nil => simp
  | cons h _ ih => exact mul_le_mul' h.2 ih

private theorem narrows_span_sum (h : Forall₂ Narrows ts ts') :
    (ts'.map span).sum ≤ (ts.map span).sum := by
  induction h with
  | nil => simp
  | cons h _ ih => exact add_le_add h.2 ih

private theorem integral_of_narrows (h : Forall₂ Narrows ts ts') (hwhole : ∀ t ∈ ts, t.Whole) :
    ∀ t' ∈ ts', Integral t' := by
  induction h with
  | nil => simp
  | cons h _ ih =>
    rw [forall_mem_cons] at hwhole ⊢
    exact ⟨h.integral hwhole.1, ih hwhole.2⟩

private theorem Polynomial.substitute (table : List (String × String)) (h : Polynomial t) :
    RenamedTo table (Narrows t) t := by
  induction h with
  | num q => exact ⟨_, by rw [Term.substitute], ⟨.num q, le_rfl⟩, by simp⟩
  | sym s => exact (renamedTo_sym arithmetic_polynomial table s).imp fun _ h => h.narrows (by simp)
  | floor _ ih =>
    exact (renamedTo_floor arithmetic_polynomial (ih.imp fun _ h => h.1)).imp fun _ h =>
      h.narrows (by simp)
  | mod h hwhole hn ih =>
    have hself : Integral (.mod _ (.num _)) := ⟨.mod h hwhole hn, by simp [Whole]⟩
    have hdividend := ih.imp fun _ h => h.integral hwhole
    exact (renamedTo_mod arithmetic_polynomial hn hself hdividend).imp fun _ h =>
      h.narrows (by simp)
  | sum h hwhole ih =>
    obtain ⟨ts', hts', hall, hvalues⟩ := substituteAll_spec ih
    have hpolynomial : ∀ t' ∈ ts', Polynomial t' :=
      forall_mem_of_forall₂ (hall.imp fun _ _ h => h.1)
    refine renamedTo_sum hts' hvalues ⟨.sum h hwhole, le_rfl⟩ ⟨.add hpolynomial, ?_⟩ fun env =>
      value_add fun t ht => (hpolynomial t ht).finite
    rw [span_sum]
    exact (Polynomial.span_add hpolynomial).trans (narrows_span_sum hall)
  | prod h hwhole hfactor ih =>
    obtain ⟨ts', hts', hall, hvalues⟩ := substituteAll_spec ih
    have hproduct := productOf_mul fun t' ht' => (integral_of_narrows hall hwhole t' ht').summand
    refine renamedTo_prod hts' hvalues ⟨.prod h hwhole hfactor,
      le_rfl⟩ ⟨hproduct.polynomial, ?_⟩ hproduct.value_eq
    rw [span_prod]
    exact hproduct.span_le.trans (narrows_span_prod hall)
  | @multiple c ts h hwhole hfactor ih =>
    obtain ⟨ts', hts', hall, hvalues⟩ := substituteAll_spec ih
    have hnumber : substituteAll (symbolTable table) (.num c :: ts) = .ok (.num c :: ts') := by
      rw [substituteAll, Term.substitute, hts']
      rfl
    have hsummands : ∀ t' ∈ .num c :: ts', Summand t' := by
      rw [forall_mem_cons]
      exact ⟨(Polynomial.num c).summand_of_isSum rfl, fun t' ht' =>
        (integral_of_narrows hall hwhole t' ht').summand⟩
    have hproduct := productOf_mul hsummands
    refine renamedTo_prod hnumber (fun env => by simp [hvalues])
      ⟨.multiple c h hwhole hfactor, le_rfl⟩ ⟨hproduct.polynomial, ?_⟩ hproduct.value_eq
    rw [span_prod]
    exact hproduct.span_le.trans (narrows_span_prod (.cons ⟨.num c, le_rfl⟩ hall))
  | @pow b n h hwhole hfactor hn ih =>
    obtain ⟨b', hb', hnarrows, hvalue⟩ := ih
    have hproduct := (hnarrows.integral hwhole).productOf_power hn
    refine ⟨power b' (.num n), ?_, ⟨hproduct.polynomial, ?_⟩, fun env => ?_⟩
    · rw [Term.substitute, hb', Term.substitute]
      rfl
    · refine hproduct.span_le.trans ?_
      rw [map_replicate, prod_replicate, span_pow]
      exact pow_le_pow_left' hnarrows.2 n
    · rw [hproduct.value_eq, map_replicate, prod_replicate, hvalue, (additive_value _).pow]

theorem Integral.substitute (table : List (String × String)) (h : Integral t) :
    RenamedTo table Integral t :=
  (h.polynomial.substitute table).imp fun _ hnarrows => hnarrows.integral h.whole

/-! ## Linear terms -/

theorem RenamedTo.and (hP : RenamedTo table P t) (hQ : RenamedTo table Q t) :
    RenamedTo table (fun t' => P t' ∧ Q t') t := by
  obtain ⟨t', ht', hfirst, hvalue⟩ := hP
  obtain ⟨u, hu, hsecond, -⟩ := hQ
  obtain rfl := Except.ok.inj (ht'.symm.trans hu)
  exact ⟨t', ht', ⟨hfirst, hsecond⟩, hvalue⟩

mutual

theorem Atomic.substitute (table : List (String × String)) :
    ∀ {t : Term}, Atomic Set.univ t → Polynomial t → RenamedTo table (IntegerLinear Set.univ) t
  | _, .sym s, _ => renamedTo_sym arithmetic_linear table s
  | _, .floor _ h, .floor hp => renamedTo_floor arithmetic_linear (h.substitute table hp)
  | _, .mod h hnum hn, .mod hp hwhole _ =>
    have hself := arithmetic_polynomial.mod ⟨hp, hwhole⟩ hnum hn
    have hdividend := (h.substitute table hp).and (Integral.substitute table ⟨hp, hwhole⟩)
    renamedTo_mod arithmetic_linear hn ⟨.atom (.mod h hnum hn), hself⟩
      (hdividend.imp fun _ h => ⟨h.1.linear, h.2⟩)

theorem Member.substitute (table : List (String × String)) :
    ∀ {t : Term}, Member Set.univ t → Polynomial t → RenamedTo table RationalLinear t
  | _, .num q, hp => ⟨_, by rw [Term.substitute], ⟨.ofNum q, hp⟩, by simp⟩
  | _, .atom h, hp => (h.substitute table hp).imp fun _ h => arithmetic_linear.of_whole h
  | _, .multiple c (t := t) h, hp => by
    obtain ⟨t', ht', hlinear, hvalue⟩ := h.substitute table hp.of_multiple
    have hall : substituteAll (symbolTable table) [.num c, t] = .ok [.num c, t'] := by
      simp [substituteAll, Term.substitute, ht', bind, Except.bind, pure, Except.pure]
    refine renamedTo_prod hall (fun env => by simp [hvalue]) ⟨.member (.multiple c h), hp⟩
      (arithmetic_linear.rational_mul_num (arithmetic_linear.of_whole hlinear) c) fun env => ?_
    rw [arithmetic_linear.value_mul_num hlinear]
    simp

theorem Linear.substitute (table : List (String × String)) :
    ∀ {t : Term}, Linear Set.univ t → Polynomial t → RenamedTo table RationalLinear t
  | _, .member h, hp => h.substitute table hp
  | .sum ts, .sum hne h, .sum hp hwhole => by
    obtain ⟨ts', hts', hall, hvalues⟩ :=
      substituteAll_spec fun t ht => (h t ht).substitute table (hp t ht)
    have hrational := forall_mem_of_forall₂ hall
    exact renamedTo_sum hts' hvalues ⟨.sum hne h, .sum hp hwhole⟩
      (arithmetic_linear.rational_add hrational) fun env =>
        value_add fun t ht => (hrational t ht).linear.finite

end

theorem IntegerLinear.substitute (table : List (String × String)) (h : IntegerLinear Set.univ t) :
    RenamedTo table (IntegerLinear Set.univ) t :=
  ((h.linear.substitute table h.integral.polynomial).and (h.integral.substitute table)).imp
      fun _ h =>
    ⟨h.1.linear, h.2⟩

end Term

end Polyloom
