import Polyloom.Proofs.Affine.Build
import Polyloom.Proofs.Term.Visit

/-!
# Agreement of interpretations

Where a term has a value in the integers, its integer term has that value, and its affine
expression builds to one that has it.  None of this hangs on the order in which the members of
sums and products are visited.
-/

namespace Polyloom

open AffineDef List

namespace Term

variable {s t : Term} {v : Int} {op : Int → Int → Int} {β : Type} {vs : List Int}

/-! ## The order of members -/

/-- Terms that differ in the order of members of sums and products that are visited. -/
inductive Reordered : Term → Term → Prop
  | refl (t : Term) : Reordered t t
  | trans {s t u : Term} : Reordered s t → Reordered t u → Reordered s u
  | sum {ts us : List Term} : ts.Perm us → Reordered (.sum ts) (.sum us)
  | prod {ts us : List Term} : ts.Perm us → Reordered (.prod ts) (.prod us)
  | sum_head {s t : Term} (ts : List Term) : Reordered s t →
    Reordered (.sum (s :: ts)) (.sum (t :: ts))
  | prod_head {s t : Term} (ts : List Term) : Reordered s t →
    Reordered (.prod (s :: ts)) (.prod (t :: ts))
  | mod {a b a' b' : Term} : Reordered a a' → Reordered b b' → Reordered (.mod a b) (.mod a' b')
  | floor {s t : Term} (q : Rat) (rest : List Term) : Reordered s t →
      Reordered (.floor (.prod (.num q :: s :: rest))) (.floor (.prod (.num q :: t :: rest)))

theorem Reordered.eq_or_isNum (h : Reordered s t) : t = s ∨ s.isNum = false ∧ t.isNum = false := by
  induction h with
  | refl t => exact .inl rfl
  | trans _ _ ih ih' =>
    obtain rfl | ⟨hs, ht⟩ := ih
    · exact ih'
    · obtain rfl | ⟨-, hu⟩ := ih'
      · exact .inr ⟨hs, ht⟩
      · exact .inr ⟨hs, hu⟩
  | sum | prod | sum_head | prod_head | mod | floor => exact .inr ⟨rfl, rfl⟩

private theorem asInt?_of_isNum (h : t.isNum = false) : t.asInt? = none := by
  cases t with
  | num => simp [isNum] at h
  | _ => rfl

private theorem Reordered.asInt?_eq (h : Reordered s t) : t.asInt? = s.asInt? := by
  obtain rfl | ⟨hs, ht⟩ := h.eq_or_isNum
  · rfl
  · rw [asInt?_of_isNum hs, asInt?_of_isNum ht]

private theorem Reordered.mod_members {a b a' b' : Term} (ha : Reordered a a')
    (hb : Reordered b b') {n : Int} (hn : (divisor a b).asInt? = some n) :
    divisor a' b' = divisor a b ∧
      (dividend a b = a ∧ dividend a' b' = a' ∨ dividend a b = b ∧ dividend a' b' = b') := by
  unfold divisor dividend at *
  cases hbefore : before b a with
  | true =>
    simp only [hbefore, if_true] at hn ⊢
    obtain rfl := asInt?_eq_some.mp hn
    obtain rfl : b' = .num n := hb.eq_or_isNum.resolve_right (by simp [isNum])
    have hbefore' : before (.num n) a' = true := by
      obtain rfl | ⟨-, ha'⟩ := ha.eq_or_isNum
      · exact hbefore
      · exact before_num _ ha'
    simp [hbefore']
  | false =>
    simp only [hbefore, Bool.false_eq_true, if_false] at hn ⊢
    obtain rfl := asInt?_eq_some.mp hn
    obtain rfl : a' = .num n := ha.eq_or_isNum.resolve_right (by simp [isNum])
    have hbefore' : before b' (.num n) = false := by
      obtain rfl | ⟨-, hb'⟩ := hb.eq_or_isNum
      · exact hbefore
      · exact before_num_right hb' _
    simp [hbefore']

variable {known : String → Option Int} {env : String → Int}

private theorem combineAll_perm [RightCommutative op] {e : Int} (he : ∀ a, op e a = a)
    {I : Interpretation Int} {ts us : List Term} (h : ts.Perm us) (hts : ∃ vs, Forall₂ (fun t x =>
      t.interpret I = .ok x) ts vs ∧ combineAll (fun a b => .ok (op a b)) vs = .ok v) :
    ∃ vs, Forall₂ (fun t x => t.interpret I = .ok x) us vs ∧
      combineAll (fun a b => .ok (op a b)) vs = .ok v := by
  obtain ⟨vs, hvs, hv⟩ := hts
  obtain ⟨ws, hws, hperm⟩ := perm_comp_forall₂ h.symm hvs
  obtain ⟨hne, rfl⟩ := (combineAll_ok he).mp hv
  refine ⟨ws, hws, (combineAll_ok he).mpr ⟨?_, hperm.foldl_eq _⟩⟩
  rintro rfl
  exact hne hperm.nil_eq.symm

/-- Terms that differ in the order of members have the same value in the integers. -/
private theorem Reordered.interpret (h : Reordered s t)
    (hs : s.interpret (.integers known) = .ok v) :
    t.interpret (.integers known) = .ok v := by
  induction h generalizing v with
  | refl t => exact hs
  | trans _ _ ih ih' => exact ih' (ih hs)
  | sum hperm =>
    rw [interpret_sum] at hs ⊢
    exact combineAll_perm zero_add hperm hs
  | prod hperm =>
    rw [interpret_prod] at hs ⊢
    exact combineAll_perm one_mul hperm hs
  | sum_head ts _ ih =>
    rw [interpret_sum, forall₂_visit_iff] at hs ⊢
    obtain ⟨x, hx, hv⟩ := hs
    exact ⟨x, ih hx, hv⟩
  | prod_head ts _ ih =>
    rw [interpret_prod, forall₂_visit_iff] at hs ⊢
    obtain ⟨x, hx, hv⟩ := hs
    exact ⟨x, ih hx, hv⟩
  | mod ha hb iha ihb =>
    rw [interpret_mod] at hs ⊢
    obtain ⟨n, x, hn, hx, hv⟩ := hs
    obtain ⟨hdivisor, hdividend⟩ := ha.mod_members hb hn
    refine ⟨n, x, hdivisor ▸ hn, ?_, hv⟩
    obtain ⟨heq, heq'⟩ | ⟨heq, heq'⟩ := hdividend
    · rw [heq']
      exact iha (heq ▸ hx)
    · rw [heq']
      exact ihb (heq ▸ hx)
  | floor q rest _ ih =>
    rw [interpret_floor] at hs ⊢
    obtain ⟨hq, x, hx, hv⟩ := hs
    exact ⟨hq, x, ih hx, hv⟩

/-! ## Names and moduli -/

private theorem Reordered.mentions_eq (h : Reordered s t) (p : String → Bool) :
    t.mentions p = s.mentions p := by
  induction h with
  | refl t => rfl
  | trans _ _ ih ih' => exact ih'.trans ih
  | sum hperm | prod hperm => simp only [mentions, mentionsAny_eq_any, hperm.any_eq]
  | sum_head ts _ ih | prod_head ts _ ih => simp only [mentions, mentionsAny, ih]
  | mod _ _ iha ihb => simp only [mentions, iha, ihb]
  | floor q rest _ ih => simp only [mentions, mentionsAny, ih]

mutual

/-- Is one of the integers that satisfy `p` a member of a remainder? -/
def hasModulus (p : Int → Bool) : Term → Bool
  | .num _ | .sym _ | .infinity | .undefined => false
  | .sum ts | .prod ts => hasModulusAny p ts
  | .pow a b => a.hasModulus p || b.hasModulus p
  | .mod a b => a.asInt?.any p || b.asInt?.any p || a.hasModulus p || b.hasModulus p
  | .floor a => a.hasModulus p

def hasModulusAny (p : Int → Bool) : List Term → Bool
  | [] => false
  | t :: ts => t.hasModulus p || hasModulusAny p ts

end

theorem hasModulusAny_eq_any (p : Int → Bool) (ts : List Term) :
    hasModulusAny p ts = ts.any (hasModulus p) := by
  induction ts with
  | nil => rfl
  | cons t ts ih => rw [hasModulusAny, ih, any_cons]

mutual

theorem hasModulus_false : ∀ t : Term, t.hasModulus (fun _ => false) = false
  | .num _ | .sym _ | .infinity | .undefined => rfl
  | .sum ts | .prod ts => by rw [hasModulus, hasModulusAny_false ts]
  | .pow a b => by rw [hasModulus, hasModulus_false a, hasModulus_false b]; rfl
  | .mod a b => by
    rw [hasModulus, hasModulus_false a, hasModulus_false b]
    cases a.asInt? <;> cases b.asInt? <;> rfl
  | .floor a => by rw [hasModulus, hasModulus_false a]

theorem hasModulusAny_false : ∀ ts : List Term, hasModulusAny (fun _ => false) ts = false
  | [] => rfl
  | t :: ts => by rw [hasModulusAny, hasModulus_false t, hasModulusAny_false ts]; rfl

end

private theorem Reordered.hasModulus_eq (h : Reordered s t) (p : Int → Bool) :
    t.hasModulus p = s.hasModulus p := by
  induction h with
  | refl t => rfl
  | trans _ _ ih ih' => exact ih'.trans ih
  | sum hperm | prod hperm => simp only [hasModulus, hasModulusAny_eq_any, hperm.any_eq]
  | sum_head ts _ ih | prod_head ts _ ih => simp only [hasModulus, hasModulusAny, ih]
  | mod ha hb iha ihb => simp only [hasModulus, ha.asInt?_eq, hb.asInt?_eq, iha, ihb]
  | floor q rest _ ih => simp only [hasModulus, hasModulusAny, ih]

/-! ## Targets that follow the integers -/

/-- A target whose operations follow those of the integers: every known name has a counterpart
if it is `named`, and every remainder by a nonzero integer if that is `allowed`. -/
structure Follows {β : Type} (J : Interpretation β) (known : String → Option Int)
    (named : String → Bool) (allowed : Int → Bool) (R : Int → β → Prop) : Prop where
  symbol : ∀ s n, named s = true → known s = some n → ∃ b, J.symbol s = .ok b ∧ R n b
  literal : ∀ n, R n (J.literal n)
  add : ∀ m n a b, R m a → R n b → ∃ c, J.add a b = .ok c ∧ R (m + n) c
  mul : ∀ m n a b, R m a → R n b → ∃ c, J.mul a b = .ok c ∧ R (m * n) c
  mod : ∀ m n a, n ≠ 0 → allowed n = true → R m a → ∃ c, J.mod a (J.literal n) = .ok c ∧
    R (Int.fmod m n) c
  floorDiv : ∀ m n a, 0 < n → R m a → ∃ c, J.floorDiv a (J.literal n) = .ok c ∧ R (Int.fdiv m n) c

section

variable {opJ : β → β → Except Fault β} {R : Int → β → Prop}
  (hop : ∀ m n a b, R m a → R n b → ∃ c, opJ a b = .ok c ∧ R (op m n) c)
  {bs : List β} (h : Forall₂ R vs bs)

include hop h

private theorem foldlM_follows {m : Int} {a : β} (hacc : R m a) :
    ∃ c, bs.foldlM opJ a = .ok c ∧ R (vs.foldl op m) c := by
  induction h generalizing m a with
  | nil => exact ⟨a, rfl, hacc⟩
  | cons hvb _ ih =>
    obtain ⟨c, hc, hR⟩ := hop _ _ _ _ hacc hvb
    obtain ⟨d, hd, hRd⟩ := ih hR
    exact ⟨d, by rw [foldlM_cons, hc]; exact hd, hRd⟩

private theorem combineAll_follows (hv : combineAll (fun a b => .ok (op a b)) vs = .ok v) :
    ∃ c, combineAll opJ bs = .ok c ∧ R v c := by
  cases h with
  | nil => simp [combineAll] at hv
  | cons hvb hrest =>
    obtain ⟨c, hc, hR⟩ := foldlM_follows hop hrest hvb
    rw [combineAll_cons, Except.ok.injEq] at hv
    exact ⟨c, hc, hv ▸ hR⟩

end

private theorem exists_members_of_names {J : Interpretation β}
    {named : String → Bool} {p : Int → Bool} {R : Int → β → Prop} {ts : List Term}
    (hnames : ∀ s ∈ visitsAll ts, named s = true) (hmoduli : hasModulusAny p ts = false)
    (hvs : Forall₂ (fun t v => t.interpret (.integers known) = .ok v) ts vs)
    (h : ∀ t ∈ ts, (∀ s ∈ t.visits, named s = true) → t.hasModulus p = false → ∀ {v : Int},
      t.interpret (.integers known) = .ok v → ∃ b, t.interpret J = .ok b ∧ R v b) :
    ∃ bs, Forall₂ (fun t b => t.interpret J = .ok b) ts bs ∧ Forall₂ R vs bs := by
  rw [visitsAll_eq_flatMap] at hnames
  rw [hasModulusAny_eq_any, any_eq_false] at hmoduli
  refine forall₂_trans_mem hvs fun t ht v hv => h t ht (fun s hs => ?_) ?_ hv
  · exact hnames s (mem_flatMap.mpr ⟨t, ht, hs⟩)
  · simpa using hmoduli t ht

theorem Follows.interpret {J : Interpretation β} {named : String → Bool} {allowed : Int → Bool}
    {R : Int → β → Prop} (hJ : Follows J known named allowed R)
    (hnames : ∀ s ∈ t.visits, named s = true) (hmoduli : t.hasModulus (fun n => !allowed n) = false)
    {v : Int} (h : t.interpret (.integers known) = .ok v) : ∃ b, t.interpret J = .ok b ∧ R v b := by
  induction accepted_of_interpret h generalizing v with
  | num hq =>
    obtain ⟨-, rfl⟩ := (interpret_num _ _ v).mp h
    exact ⟨_, (interpret_num J _ _).mpr ⟨hq, rfl⟩, hJ.literal _⟩
  | sym s =>
    rw [Term.interpret, integers_symbol] at h
    exact hJ.symbol s v (hnames s (by simp [visits])) h
  | sum hne hall ih =>
    obtain ⟨vs, hvs, hv⟩ := (interpret_sum _ _ v).mp h
    obtain ⟨bs, hbs, hR⟩ := exists_members_of_names hnames hmoduli hvs fun t ht => ih t ht
    obtain ⟨c, hc, hRc⟩ := combineAll_follows hJ.add hR hv
    exact ⟨c, (interpret_sum J _ c).mpr ⟨bs, hbs, hc⟩, hRc⟩
  | prod hne hall ih =>
    obtain ⟨vs, hvs, hv⟩ := (interpret_prod _ _ v).mp h
    obtain ⟨bs, hbs, hR⟩ := exists_members_of_names hnames hmoduli hvs fun t ht => ih t ht
    obtain ⟨c, hc, hRc⟩ := combineAll_follows hJ.mul hR hv
    exact ⟨c, (interpret_prod J _ c).mpr ⟨bs, hbs, hc⟩, hRc⟩
  | mod hn hd ih =>
    rename_i a b n
    obtain ⟨n, x, hn, hx, hv⟩ := (interpret_mod _ _ _ v).mp h
    obtain ⟨hne, rfl⟩ := integers_mod.mp hv
    rw [visits_mod] at hnames
    simp only [hasModulus, Bool.or_eq_false_iff] at hmoduli
    have hallowed : (divisor a b).asInt?.any (fun n => !allowed n) = false := by
      obtain ⟨-, heq⟩ | ⟨-, heq⟩ := @members_of_mod a b
      · rw [heq]
        exact hmoduli.1.1.2
      · rw [heq]
        exact hmoduli.1.1.1
    have hdividend : (dividend a b).hasModulus (fun n => !allowed n) = false := by
      obtain ⟨heq, -⟩ | ⟨heq, -⟩ := @members_of_mod a b
      · rw [heq]
        exact hmoduli.1.2
      · rw [heq]
        exact hmoduli.2
    obtain ⟨y, hy, hR⟩ := ih hnames hdividend hx
    obtain ⟨c, hc, hRc⟩ := hJ.mod x n y hne (by simpa [hn] using hallowed) hR
    exact ⟨c, (interpret_mod J _ _ c).mpr ⟨n, y, hn, hy, hc⟩, hRc⟩
  | floor rest hq ht ih =>
    rename_i q t
    obtain ⟨-, x, hx, hv⟩ := (interpret_floor _ q t rest v).mp h
    obtain ⟨-, rfl⟩ := integers_floorDiv.mp hv
    simp only [hasModulus, hasModulusAny, Bool.or_eq_false_iff] at hmoduli
    obtain ⟨y, hy, hR⟩ := ih (by simpa [visits] using hnames) hmoduli.2.1 hx
    obtain ⟨c, hc, hRc⟩ := hJ.floorDiv x q.den y (by exact_mod_cast q.den_pos) hR
    exact ⟨c, (interpret_floor J q t rest c).mpr ⟨hq, y, hy, hc⟩, hRc⟩

/-! ## Integer terms -/

private theorem follows_terms (henv : Extends env known) (named : String → Bool) :
    Follows .terms known named (0 < ·) fun n r => r.eval env = n where
  symbol s n _ hn := ⟨.var s, rfl, henv s n hn⟩
  literal n := rfl
  add := by
    rintro _ _ a b rfl rfl
    exact ⟨.add a b, rfl, rfl⟩
  mul := by
    rintro _ _ a b rfl rfl
    exact ⟨.mul a b, rfl, rfl⟩
  mod := by
    rintro _ n a - hn rfl
    have hpos : 0 < n := by simpa using hn
    exact ⟨.mod a (.const n), rfl, (Int.fmod_eq_emod_of_nonneg _ hpos.le).symm⟩
  floorDiv := by
    rintro _ n a hn rfl
    exact ⟨.div a (.const n), rfl, (Int.fdiv_eq_ediv_of_nonneg _ hn.le).symm⟩

end Term

/-! ## Affine expressions -/

def isPosition (s : String) : Bool := s.toList.head? = some 'd' || s.toList.head? = some 's'

theorem AffineDef.strictDimOrSymbol_of_isPosition {s : String} (h : isPosition s = true) :
    strictDimOrSymbol s = .ok (dimOrSymbol s) := by
  rw [isPosition, Bool.or_eq_true, decide_eq_true_eq, decide_eq_true_eq] at h
  unfold strictDimOrSymbol dimOrSymbol
  obtain h | h := h <;> simp [h]

namespace AffineOperand

/-- An operand is the given integer, or an expression that can be built and has it as its value. -/
def Means (env : String → Int) (n : Int) : AffineOperand → Prop
  | .plain d => d = .int n
  | .expr e => e.isBuildable = true ∧ e.eval env env = some n

variable {known : String → Option Int} {env : String → Int} {n m : Int} {o a b : AffineOperand}

private theorem Means.coerce (h : o.Means env n) :
    ∃ e, o.coerce = .ok e ∧ e.isBuildable = true ∧ e.eval env env = some n := by
  cases o with
  | plain d =>
    obtain rfl : d = .int n := h
    exact ⟨.const (.int n), rfl, rfl, rfl⟩
  | expr e => exact ⟨e, rfl, h.1, h.2⟩

private theorem means_binary {l r : AffineDef} (op : AffineOp) (hl : (expr l).Means env m)
    (hr : r.isBuildable = true ∧ r.eval env env = some n) :
    (expr (.binary op l r)).Means env (op.eval m n) := by
  refine ⟨?_, ?_⟩
  · rw [isBuildable, hl.1, hr.1]
    rfl
  · rw [eval, hl.2, hr.2]
    rfl

/-- What an operator does with an expression on the left, with two integers, and with an integer
on the left of an expression if it can be turned around, is to mean its value. -/
theorem exists_apply (op : AffineOperator) (kind : AffineOp)
    (hexpr : ∀ l r, b.coerce = .ok r → apply op (.expr l) b = .ok (.expr (.binary kind l r)))
    (hints : apply op (.plain (.int m)) (.plain (.int n)) = .ok (.plain (.int (kind.eval m n))))
    (hturned : ∀ r, b = .expr r → kind.eval m n = kind.eval n m ∧
      apply op (.plain (.int m)) (.expr r) = .ok (.expr (.binary kind r (.const (.int m)))))
    (ha : a.Means env m) (hb : b.Means env n) :
    ∃ c, apply op a b = .ok c ∧ c.Means env (kind.eval m n) := by
  cases a with
  | expr l =>
    obtain ⟨r, hr, hmeans⟩ := hb.coerce
    exact ⟨_, hexpr l r hr, means_binary kind ha hmeans⟩
  | plain d =>
    obtain rfl : d = .int m := ha
    cases b with
    | plain d' =>
      obtain rfl : d' = .int n := hb
      exact ⟨_, hints, rfl⟩
    | expr r =>
      obtain ⟨hcomm, happly⟩ := hturned r rfl
      rw [hcomm]
      exact ⟨_, happly, means_binary kind hb ⟨rfl, rfl⟩⟩

private theorem apply_add (ha : a.Means env m) (hb : b.Means env n) :
    ∃ c, apply .add a b = .ok c ∧ c.Means env (m + n) :=
  exists_apply .add .add (fun l r hr => by simp [apply, onExpr, hr, bind, Except.bind, pure,
    Except.pure, Except.map]) rfl (fun r _ => ⟨add_comm m n, rfl⟩) ha hb

private theorem apply_mul (ha : a.Means env m) (hb : b.Means env n) :
    ∃ c, apply .mul a b = .ok c ∧ c.Means env (m * n) :=
  exists_apply .mul .mul (fun l r hr => by simp [apply, onExpr, hr, bind, Except.bind, pure,
    Except.pure, Except.map]) rfl (fun r _ => ⟨mul_comm m n, rfl⟩) ha hb

private theorem apply_mod (ha : a.Means env m) (hn : n ≠ 0) :
    ∃ c, apply .mod a (.plain (.int n)) = .ok c ∧ c.Means env (Int.fmod m n) := by
  refine exists_apply .mod .mod (fun l r hr => ?_) ?_ nofun ha rfl
  · cases hr
    rfl
  · change (if n = 0 then _ else _ : Except Fault Datum).map plain = _
    rw [if_neg hn]
    rfl

private theorem apply_floorDiv (ha : a.Means env m) (hn : n ≠ 0) :
    ∃ c, apply .floorDiv a (.plain (.int n)) = .ok c ∧ c.Means env (Int.fdiv m n) := by
  refine exists_apply .floorDiv .floorDiv (fun l r hr => ?_) ?_ nofun ha rfl
  · cases hr
    rfl
  · change (if n = 0 then _ else _ : Except Fault Datum).map plain = _
    rw [if_neg hn]
    rfl

theorem follows_affine (henv : Term.Extends env known) {factory : String → Except Fault AffineDef}
    (hfactory : ∀ s, isPosition s = true → factory s = .ok (dimOrSymbol s)) :
    Term.Follows (.affine factory) known isPosition (fun _ => true) (Means env) where
  symbol s n hs hn := by
    refine ⟨.expr (dimOrSymbol s), ?_, ?_⟩
    · simp [Interpretation.affine, hfactory s hs, Except.map]
    · unfold dimOrSymbol
      split <;> exact ⟨rfl, congrArg some (henv s n hn)⟩
  literal n := rfl
  add _ _ _ _ := apply_add
  mul _ _ _ _ := apply_mul
  mod _ _ _ hn _ ha := apply_mod ha hn
  floorDiv _ _ _ hn ha := apply_floorDiv ha hn.ne'

/-- In every build state that has or may add the names of an expression, it builds to one with the
given value, at positions that have the values of the names registered at them. -/
def Builds (env : String → Int) (n : Int) : AffineOperand → Prop
  | .plain d => d = .int n
  | .expr e => ∀ scope build, AffineBuild.Admits build scope e →
      ∃ built scope' build', e.build.run.run (scope, build) = (.ok built, scope', build') ∧
        ∀ dims syms, scope'.Assigns dims syms env env → built.eval dims syms = some n

private theorem Means.builds (h : o.Means env n) : o.Builds env n := by
  cases o with
  | plain d => exact h
  | expr e =>
    intro scope build hadmits
    obtain ⟨built, next, hrun, -, hvalue⟩ := build_ok h.1 hadmits
    refine ⟨built, scope.after e, next, hrun, fun dims syms hassigns => ?_⟩
    rw [hvalue dims syms env env hassigns]
    exact h.2

end AffineOperand

namespace Term

variable {known : String → Option Int} {env : String → Int}

/-- Where a term over dimensions and symbols, with positive moduli, has a value in the integers,
its integer term and its affine expression have that value, in whatever order the members of
sums and products are visited. -/
theorem interpretations_agree {t u : Term} (horder : Reordered t u)
    (hnames : t.mentions (fun s => !isPosition s) = false)
    (hmoduli : t.hasModulus (fun n => !decide (0 < n)) = false) (henv : Extends env known)
    {factory : String → Except Fault AffineDef}
    (hfactory : ∀ s, isPosition s = true → factory s = .ok (dimOrSymbol s)) {v : Int}
    (hv : t.interpret (.integers known) = .ok v) :
    u.interpret (.integers known) = .ok v ∧ (∃ r, u.interpret .terms = .ok r ∧ r.eval env = v) ∧
      ∃ o, u.interpret (.affine factory) = .ok o ∧ o.Builds env v := by
  have hu := horder.interpret hv
  have hvisits : ∀ s ∈ u.visits, isPosition s = true := fun s hs => by
    rw [← horder.mentions_eq] at hnames
    by_contra hposition
    have hmentions : u.mentions (fun s => !isPosition s) = true :=
      mentions_of_mem_visits hs (by simpa using hposition)
    simp [hmentions] at hnames
  rw [← horder.hasModulus_eq] at hmoduli
  refine ⟨hu, (follows_terms henv isPosition).interpret hvisits hmoduli hu, ?_⟩
  obtain ⟨o, ho, hmeans⟩ :=
    (AffineOperand.follows_affine henv hfactory).interpret hvisits (hasModulus_false u) hu
  exact ⟨o, ho, hmeans.builds⟩

def tileThenPlace : Term :=
  .sum [.floor (.prod [.num (1 / 4), .sum [.num 7, .sym "d0"]]),
    .prod [.num (-3), .mod (.sym "s0") (.num 5)]]

def placeThenTile : Term :=
  .sum [.prod [.mod (.sym "s0") (.num 5), .num (-3)],
    .floor (.prod [.num (1 / 4), .sum [.sym "d0", .num 7]])]

theorem tileThenPlace_agrees :
    let known : String → Option Int := fun s => [("d0", -16), ("s0", 13)].lookup s
    let env : String → Int := fun s => (known s).getD 0
    tileThenPlace.interpret (.integers known) = .ok (-12) ∧
      placeThenTile.interpret (.integers known) = .ok (-12) ∧
      (∃ r, placeThenTile.interpret .terms = .ok r ∧ r.eval env = -12) ∧
      ∃ o, placeThenTile.interpret (.affine strictDimOrSymbol) = .ok o ∧ o.Builds env (-12) := by
  intro known env
  have horder : Reordered tileThenPlace placeThenTile :=
    .trans (.sum_head _ (.floor _ _ (.sum (Perm.swap _ _ []))))
      (.trans (.sum (Perm.swap _ _ [])) (.sum_head _ (.prod (Perm.swap _ _ []))))
  have henv : Extends env known := fun s n hn => by simp [env, hn]
  have hv : tileThenPlace.interpret (.integers known) = .ok (-12) := by cbv
  exact ⟨hv, interpretations_agree horder (by cbv) (by cbv) henv
    (fun s => strictDimOrSymbol_of_isPosition) hv⟩

/-- A build state that takes no new dimensions refuses one that it does not have. -/
theorem locked_build_refused :
    (Term.sym "d0").interpret (.integers fun _ => some 0) = .ok 0 ∧
      (Term.sym "d0").interpret (.affine strictDimOrSymbol) = .ok (.expr (.dim "d0")) ∧
      ((dim "d0").build.run.run ({}, { allowNewDims := false })).1 = .error (.badValue
        ("New dimensions not allowed in the current affine expression: " ++
          "Requested 'd0', Availble: \x7b\x7d")) := by
  refine ⟨?_, ?_, ?_⟩
  all_goals cbv

end Term

end Polyloom
