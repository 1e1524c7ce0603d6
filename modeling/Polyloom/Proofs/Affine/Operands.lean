import Polyloom.Proofs.Access.Application
import Polyloom.Proofs.Term.Agreement

/-!
# Operands of terms

A term that is applied to operands becomes a map whose positions are handed out by first visit.
The map has the value of the term as it is read, with the operands bound in that order.
-/

namespace Polyloom

open AffineDef AffineOperand Term List Option

variable {e : AffineDef} {is : List Nat} {letter : Char} {names : List String} {o : AffineOperand}
  {s : String} {t : Term} {ts : List Term} {x : Rat}

/-! ## Names by visit -/

namespace Term

def firstOf (letter : Char) (names : List String) : List String :=
  registered [] (names.filter fun s => s.toList.head? = some letter)

end Term

namespace AffineOperand

variable {a b c o : AffineOperand} {os : List AffineOperand}
  {e : AffineDef} {op : AffineOperator} {names : List String}

def named : AffineOperand → List AffineDef
  | .plain _ => []
  | .expr e => e.named

def isExpr : AffineOperand → Bool
  | .plain _ => false
  | .expr _ => true

def isBuildable : AffineOperand → Bool
  | .plain _ => true
  | .expr e => e.isBuildable

/-- An operand made from others keeps their names in order. -/
structure Composed (os : List AffineOperand) (o : AffineOperand) : Prop where
  named_eq : o.named = os.flatMap named
  isExpr_eq : o.isExpr = os.any isExpr
  isBuildable_eq : o.isBuildable = os.all isBuildable

private theorem Composed.self (o : AffineOperand) : Composed [o] o :=
  ⟨(flatMap_singleton named o).symm, (Bool.or_false _).symm, (Bool.and_true _).symm⟩

private theorem Composed.cons_congr (h : Composed [a, b] c) (hrest : Composed (c :: os) o) :
    Composed (a :: b :: os) o := by
  obtain ⟨hnamed, hexpr, hbuildable⟩ := h
  refine ⟨?_, ?_, ?_⟩
  · rw [hrest.named_eq, flatMap_cons, hnamed]
    simp
  · rw [hrest.isExpr_eq, any_cons, hexpr]
    simp [Bool.or_assoc]
  · rw [hrest.isBuildable_eq, all_cons, hbuildable]
    simp [Bool.and_assoc]

private theorem coerce_eq (h : o.coerce = .ok e) :
    e.named = o.named ∧ e.isBuildable = o.isBuildable := by
  cases o with
  | plain d => cases d <;> simp [coerce] at h <;> subst h <;> exact ⟨rfl, rfl⟩
  | expr => simp [coerce] at h; subst h; exact ⟨rfl, rfl⟩

private theorem onExpr_eq (hop : op ≠ .sub) {l : AffineDef} {r : AffineOperand}
    (h : onExpr op l r = .ok e) :
    e.named = l.named ++ r.named ∧ e.isBuildable = (l.isBuildable && r.isBuildable) := by
  cases hr : r.coerce with
  | error fault => cases op <;> simp [onExpr, hr, bind, Except.bind] at h hop
  | ok r' =>
    rw [← (coerce_eq hr).1, ← (coerce_eq hr).2]
    cases op <;> simp [onExpr, hr, bind, Except.bind, pure, Except.pure] at h hop <;> subst h <;>
      exact ⟨rfl, rfl⟩

theorem Composed.apply (hop : op ≠ .sub) (h : apply op a b = .ok c) : Composed [a, b] c := by
  cases a with
  | expr l =>
    obtain ⟨e, he, rfl⟩ := map_eq_ok.mp h
    obtain ⟨hnamed, hbuildable⟩ := onExpr_eq hop he
    exact ⟨by simpa [named] using hnamed, by simp [isExpr],
      by simpa [isBuildable] using hbuildable⟩
  | plain d =>
    cases b with
    | plain d' =>
      obtain ⟨e, he, rfl⟩ := map_eq_ok.mp h
      exact ⟨rfl, rfl, rfl⟩
    | expr r =>
      -- the number goes to the right and has no names
      have hright : ∀ op, op ≠ .sub → (onExpr op r (.plain d)).map expr = .ok c →
          Composed [.plain d, .expr r] c := fun op hop h => by
        obtain ⟨e, he, rfl⟩ := map_eq_ok.mp h
        obtain ⟨hnamed, hbuildable⟩ := onExpr_eq hop he
        exact ⟨by simpa [named] using hnamed, by simp [isExpr],
          by simpa [isBuildable] using hbuildable⟩
      cases op with
      | add => exact hright .add hop h
      | mul => exact hright .mul hop h
      | sub | mod | floorDiv | div => simp [apply] at h

private theorem Composed.combineAll (hop : op ≠ .sub)
    (h : Term.combineAll (AffineOperand.apply op) os = .ok o) : Composed os o := by
  cases os with
  | nil => simp [Term.combineAll] at h
  | cons a os =>
    rw [Term.combineAll] at h
    induction os generalizing a with
    | nil =>
      obtain rfl : a = o := by simpa [pure, Except.pure] using h
      exact .self a
    | cons b os ih =>
      rw [foldlM_cons, bind_eq_ok] at h
      obtain ⟨c, hc, ho⟩ := h
      exact (Composed.apply hop hc).cons_congr (ih c ho)

/-- The operand of a term whose visits meet the given names. -/
structure Visits (names : List String) (o : AffineOperand) : Prop where
  named_eq : o.named = names.map dimOrSymbol
  isExpr_eq : o.isExpr = !names.isEmpty
  position : ∀ s ∈ names, isPosition s = true
  buildable : o.isBuildable = true

private theorem Visits.all (h : Forall₂ (fun t o => Visits t.visits o) ts os) (ho : Composed os o) :
    o.Visits (ts.flatMap visits) := by
  have hall : os.flatMap named = (ts.flatMap visits).map dimOrSymbol ∧
      os.any isExpr = (!(ts.flatMap visits).isEmpty) ∧
      (∀ s ∈ ts.flatMap visits, isPosition s = true) ∧ os.all isBuildable = true := by
    clear ho
    induction h with
    | nil => simp
    | cons hto _ ih =>
      rename_i t _ _ _ _
      obtain ⟨hnamed, hexpr, hposition, hbuildable⟩ := ih
      rw [flatMap_cons, flatMap_cons, any_cons, all_cons, hto.1,
        hto.2, hnamed, hexpr, hto.buildable, hbuildable]
      refine ⟨by simp, by cases t.visits <;> simp, fun s hs => ?_, rfl⟩
      exact (mem_append.mp hs).elim (hto.position s) (hposition s)
  exact ⟨ho.named_eq.trans hall.1, ho.isExpr_eq.trans hall.2.1,
    hall.2.2.1, ho.isBuildable_eq.trans hall.2.2.2⟩

private theorem Visits.apply_plain (hop : op ≠ .sub) {d : Datum} (ha : a.Visits names)
    (h : apply op a (.plain d) = .ok c) : c.Visits names := by
  have hc := Composed.apply hop h
  refine ⟨?_, ?_, ha.position, ?_⟩
  · rw [hc.named_eq, ← ha.named_eq]
    simp [named]
  · rw [hc.isExpr_eq, ← ha.isExpr_eq]
    simp [isExpr]
  · rw [hc.isBuildable_eq, ← ha.buildable]
    simp [isBuildable]

private theorem strictDimOrSymbol_eq (h : strictDimOrSymbol s = .ok e) :
    e = dimOrSymbol s ∧ isPosition s = true := by
  unfold strictDimOrSymbol at h
  unfold dimOrSymbol isPosition
  split at h <;> simp_all

theorem visits_of_interpret (h : t.interpret (.affine AffineDef.strictDimOrSymbol) = .ok o) :
    o.Visits t.visits := by
  induction Term.accepted_of_interpret h generalizing o with
  | num hq =>
    obtain ⟨-, rfl⟩ := (Term.interpret_num _ _ o).mp h
    exact ⟨rfl, rfl, by simp [Term.visits], rfl⟩
  | sym s =>
    rw [Term.interpret] at h
    obtain ⟨e, he, rfl⟩ := map_eq_ok.mp h
    obtain ⟨rfl, hs⟩ := strictDimOrSymbol_eq he
    have hleaf : (AffineDef.dimOrSymbol s).named = [AffineDef.dimOrSymbol s] ∧
        (AffineDef.dimOrSymbol s).isBuildable = true := by
      unfold AffineDef.dimOrSymbol
      split <;> exact ⟨rfl, rfl⟩
    exact ⟨hleaf.1, rfl, by simpa [Term.visits] using hs, hleaf.2⟩
  | sum hne hall ih =>
    obtain ⟨as, has, ha⟩ := (Term.interpret_sum _ _ o).mp h
    rw [Term.visits, Term.visitsAll_eq_flatMap]
    exact .all (forall₂_imp_mem has fun t ht a ha => ih t ht ha) (.combineAll (by decide) ha)
  | prod hne hall ih =>
    obtain ⟨as, has, ha⟩ := (Term.interpret_prod _ _ o).mp h
    rw [Term.visits, Term.visitsAll_eq_flatMap]
    exact .all (forall₂_imp_mem has fun t ht a ha => ih t ht ha) (.combineAll (by decide) ha)
  | mod hn hd ih =>
    obtain ⟨n, x, -, hx, hv⟩ := (Term.interpret_mod _ _ _ o).mp h
    rw [Term.visits_mod]
    exact (ih hx).apply_plain (by decide) hv
  | floor rest hq ht ih =>
    rename_i q t
    obtain ⟨-, x, hx, hv⟩ := (Term.interpret_floor _ q t rest o).mp h
    rw [Term.visits]
    exact (ih hx).apply_plain (by decide) hv

private theorem dimName?_dimOrSymbol :
    dimName? ∘ dimOrSymbol = Option.guard fun s => s.toList.head? = some 'd' := by
  funext s
  simp only [Function.comp_apply, dimOrSymbol, Option.guard]
  split <;> simp_all [dimName?]

private theorem symName?_dimOrSymbol :
    symName? ∘ dimOrSymbol = Option.guard fun s => s.toList.head? ≠ some 'd' := by
  funext s
  simp only [Function.comp_apply, dimOrSymbol, Option.guard]
  split <;> simp_all [symName?]

private theorem Visits.dimNames_eq (h : (expr e).Visits names) :
    e.dimNames = names.filter fun s => s.toList.head? = some 'd' := by
  have hnamed : e.named = _ := h.named_eq
  rw [dimNames, hnamed, List.filterMap_map, dimName?_dimOrSymbol, List.filterMap_eq_filter]

private theorem Visits.symNames_eq (h : (expr e).Visits names) :
    e.symNames = names.filter fun s => s.toList.head? = some 's' := by
  have hnamed : e.named = _ := h.named_eq
  rw [symNames, hnamed, List.filterMap_map, symName?_dimOrSymbol, List.filterMap_eq_filter]
  refine List.filter_congr fun s hs => ?_
  have := h.position s hs
  rw [isPosition, Bool.or_eq_true, decide_eq_true_eq, decide_eq_true_eq] at this
  obtain hd | hs := this
  · simp [hd]
  · simp [hs]

end AffineOperand

namespace Term

variable {env : String → Int}

/-! ## Values at operands -/

private theorem exists_interpret_members {I : Interpretation Int} {xs : List Rat}
    (h : ∀ t ∈ ts, ∀ x, t.asRead.evalInt env = some x → ∃ v : Int, t.interpret I = .ok v ∧
      (v : Rat) = x) (hxs : Forall₂ (fun t y => t.evalInt env = some y) (ts.map asRead) xs) :
    ∃ vs : List Int, Forall₂ (fun t v => t.interpret I = .ok v) ts vs ∧ vs.map Int.cast = xs := by
  rw [forall₂_map_left_iff] at hxs
  obtain ⟨vs, hvs, hcast⟩ := forall₂_trans_mem hxs h
  have heq : Forall₂ Eq (vs.map Int.cast) xs := forall₂_map_left_iff.mpr hcast.flip
  rw [forall₂_eq_eq_eq] at heq
  exact ⟨vs, hvs, heq⟩

private theorem Accepted.exists_interpret (ht : Accepted t) (hx : t.asRead.evalInt env = some x) :
    ∃ v : Int, t.interpret (.integers fun s => some (env s)) = .ok v ∧ (v : Rat) = x := by
  induction ht generalizing x with
  | num hq =>
    rename_i q
    refine ⟨q.num, (interpret_num _ _ _).mpr ⟨hq, rfl⟩, ?_⟩
    rw [asRead, evalInt, eval, some.injEq] at hx
    · rw [Rat.coe_int_num_of_den_eq_one hq, hx]
    all_goals simp
  | sym s =>
    refine ⟨env s, by rw [interpret, integers_symbol], ?_⟩
    simpa [asRead, evalInt, eval] using hx
  | sum hne hall ih =>
    rw [asRead_sum, evalInt_sum] at hx
    obtain ⟨xs, hxs, rfl⟩ := hx
    obtain ⟨vs, hvs, rfl⟩ := exists_interpret_members (fun t ht x hx => ih t ht hx) hxs
    refine ⟨vs.sum, (interpret_sum _ _ _).mpr ⟨vs, hvs, ?_⟩, Int.cast_list_sum vs⟩
    refine (combineAll_ok zero_add).mpr ⟨?_, sum_eq_foldl.symm⟩
    rintro rfl
    exact hne (forall₂_nil_right_iff.mp hvs)
  | prod hne hall ih =>
    rw [asRead_prod, evalInt_prod] at hx
    obtain ⟨xs, hxs, rfl⟩ := hx
    obtain ⟨vs, hvs, rfl⟩ := exists_interpret_members (fun t ht x hx => ih t ht hx) hxs
    refine ⟨vs.prod, (interpret_prod _ _ _).mpr ⟨vs, hvs, ?_⟩, Int.cast_list_prod vs⟩
    refine (combineAll_ok one_mul).mpr ⟨?_, prod_eq_foldl.symm⟩
    rintro rfl
    exact hne (forall₂_nil_right_iff.mp hvs)
  | mod hn hd ih =>
    rename_i a b n
    rw [asRead_mod, asInt?_eq_some.mp hn, evalInt_mod_num] at hx
    obtain ⟨hne, y, hy, rfl⟩ := hx
    obtain ⟨v, hv, rfl⟩ := ih hy
    refine ⟨Int.fmod v n, ?_, (sub_mul_floor v n).symm⟩
    exact (interpret_mod _ _ _ _).mpr ⟨n, v, hn, hv, integers_mod.mpr ⟨hne, rfl⟩⟩
  | floor rest hq ht ih =>
    rename_i q t
    rw [asRead_floor, evalInt_floor_multiple] at hx
    obtain ⟨y, hy, rfl⟩ := hx
    obtain ⟨v, hv, rfl⟩ := ih hy
    have hden : (q.den : Int) ≠ 0 := by exact_mod_cast q.den_ne_zero
    refine ⟨Int.fdiv v q.den, ?_, ?_⟩
    · exact (interpret_floor _ q t rest _).mpr ⟨hq, v, hv, integers_floorDiv.mpr ⟨hden, rfl⟩⟩
    · rw [floor_unit_fraction hq, Int.fdiv_eq_ediv_of_nonneg _ (Int.natCast_nonneg _)]

private theorem Accepted.mem_visits (ht : Accepted t) (hplain : t.readsPlainly = true)
    (s : String) : s ∈ t.visits ↔ t.mentions (· == s) = true := by
  induction ht with
  | num => simp [visits, mentions]
  | sym r =>
    rw [visits, mentions, List.mem_singleton, beq_iff_eq]
    exact eq_comm
  | sum hne hall ih | prod hne hall ih =>
    rw [readsPlainly, readsPlainlyAll_iff] at hplain
    rw [visits, visitsAll_eq_flatMap, mentions, mentionsAny_eq_any, List.any_eq_true]
    simp only [List.mem_flatMap]
    exact exists_congr fun t => and_congr_right fun ht => ih t ht (hplain t ht)
  | mod hn hd ih =>
    rename_i a b n
    rw [readsPlainly, Bool.and_eq_true] at hplain
    obtain ⟨hbefore, hplain⟩ := hplain
    rw [divisor, if_pos hbefore] at hn
    rw [dividend, if_pos hbefore] at ih
    rw [visits, if_pos hbefore, ih hplain, mentions, asInt?_eq_some.mp hn]
    simp [mentions]
  | floor rest hq ht ih =>
    rw [readsPlainly, Bool.and_eq_true, List.isEmpty_iff] at hplain
    rw [visits, ih hplain.2, hplain.1]
    simp [mentions, mentionsAny]

private theorem nodup_firstOf (letter : Char) (names : List String) :
    (firstOf letter names).Nodup :=
  nodup_registered nodup_nil _

private theorem mem_firstOf :
    s ∈ firstOf letter names ↔ s ∈ names ∧ s.toList.head? = some letter := by
  simp [firstOf, mem_registered]

end Term

open AffineExpr (dimName symName)

private theorem head_dimName (i : Nat) : (dimName i).toList.head? = some 'd' := by
  simp [dimName]

private theorem head_symName (j : Nat) : (symName j).toList.head? = some 's' := by
  simp [symName]

/-- Operands in the order of names: first the dimensions, then the symbols. -/
structure Binds (dimNames symNames : List String) (operands : List Int) (env : String → Int) :
    Prop where
  dims : ∀ (i : Nat) s, dimNames[i]? = some s → operands[i]? = some (env s)
  symbols : ∀ (j : Nat) s, symNames[j]? = some s → operands[dimNames.length + j]? = some (env s)

def AffineMap.at (map : AffineMap) (operands : List Int) : Option Int := do
  let e ← map.results.head?
  e.eval (fun i => operands.getD i 0) fun j => operands.getD (map.dims + j) 0

theorem binds_map (dimNames symNames : List String) (env : String → Int) :
    Binds dimNames symNames ((dimNames ++ symNames).map env) env where
  dims i s hs := by
    have hi := (List.getElem?_eq_some_iff.mp hs).1
    rw [List.getElem?_map, List.getElem?_append_left hi, hs, Option.map_some]
  symbols j s hs := by
    rw [List.getElem?_map, List.getElem?_append_right (Nat.le_add_right _ _),
      Nat.add_sub_cancel_left, hs, Option.map_some]

private theorem Binds.assigns {dimNames symNames : List String}
    {operands : List Int} {env : String → Int} (h : Binds dimNames symNames operands env) :
    AffineScope.Assigns ⟨dimNames.zipIdx, symNames.zipIdx⟩ (fun i => operands.getD i 0)
      (fun j => operands.getD (dimNames.length + j) 0) env env where
  dims s i hs := by
    rw [getD_eq_getElem?_getD, h.dims i s (mk_mem_zipIdx_iff_getElem?.mp hs), getD_some]
  symbols s j hs := by
    rw [getD_eq_getElem?_getD, h.symbols j s (mk_mem_zipIdx_iff_getElem?.mp hs), getD_some]

namespace Term

variable {t : Term}

private theorem firstOf_perm {name : Nat → String}
    (hname : Function.Injective name) (his : is.Pairwise (· < ·))
    (h : ∀ s, s ∈ names ∧ s.toList.head? = some letter ↔ s ∈ is.map name) :
    (firstOf letter names).Perm (is.map name) := by
  have hnodup : is.Nodup := his.imp fun hlt => hlt.ne
  refine (perm_ext_iff_of_nodup (nodup_firstOf letter names) (hnodup.map hname)).mpr fun s => ?_
  rw [mem_firstOf, h]

private theorem Accepted.visits_perm (ht : Accepted t) (hplain : t.readsPlainly = true)
    {js : List Nat} (his : is.Pairwise (· < ·)) (hjs : js.Pairwise (· < ·))
    (hnames : ∀ s, t.mentions (· == s) = true ↔ s ∈ is.map dimName ++ js.map symName) :
    (firstOf 'd' t.visits).Perm (is.map dimName) ∧
      (firstOf 's' t.visits).Perm (js.map symName) := by
  have hvisits : ∀ s, s ∈ t.visits ↔ s ∈ is.map dimName ∨ s ∈ js.map symName := fun s => by
    rw [ht.mem_visits hplain, hnames, mem_append]
  have hdims : ∀ s ∈ is.map dimName, s.toList.head? = some 'd' := fun s hs => by
    obtain ⟨i, -, rfl⟩ := mem_map.mp hs
    exact head_dimName i
  have hsyms : ∀ s ∈ js.map symName, s.toList.head? = some 's' := fun s hs => by
    obtain ⟨j, -, rfl⟩ := mem_map.mp hs
    exact head_symName j
  constructor
  · refine firstOf_perm dimName_injective his fun s => ?_
    rw [hvisits]
    constructor
    · rintro ⟨hs | hs, hhead⟩
      · exact hs
      · simp [hsyms s hs] at hhead
    · exact fun hs => ⟨.inl hs, hdims s hs⟩
  · refine firstOf_perm symName_injective hjs fun s => ?_
    rw [hvisits]
    constructor
    · rintro ⟨hs | hs, hhead⟩
      · simp [hdims s hs] at hhead
      · exact hs
    · exact fun hs => ⟨.inr hs, hsyms s hs⟩

private theorem toMap_of_visits (h : (expr e).Visits names) :
    ∃ built, e.toMap = .ok ⟨(firstOf 'd' names).length, (firstOf 's' names).length, [built]⟩ ∧
      ∀ dims syms env, AffineScope.Assigns ⟨(firstOf 'd' names).zipIdx, (firstOf 's' names).zipIdx⟩
      dims syms env env → built.eval dims syms = e.eval env env := by
  have hadmits : AffineBuild.Admits {} {} e := ⟨fun _ _ => .inr rfl, fun _ _ => .inr rfl⟩
  obtain ⟨built, next, hrun, -, hvalue⟩ := build_ok h.buildable hadmits
  have hafter : AffineScope.after {} e =
      ⟨(firstOf 'd' names).zipIdx, (firstOf 's' names).zipIdx⟩ := by
    rw [AffineScope.after, h.dimNames_eq, h.symNames_eq]
    exact congrArg₂ AffineScope.mk (noted_zipIdx [] _) (noted_zipIdx [] _)
  rw [hafter] at hrun hvalue
  refine ⟨built, ?_, fun dims syms env => hvalue dims syms env env⟩
  rw [toMap, hrun]
  simp only [length_zipIdx]

private theorem eval_of_interpret (h : t.interpret (.affine strictDimOrSymbol) = .ok (.expr e))
    (hx : t.asRead.evalInt env = some x) : ∃ v : Int, e.eval env env = some v ∧ (v : Rat) = x := by
  obtain ⟨v, hv, hcast⟩ := (accepted_of_interpret h).exists_interpret hx
  have henv : Extends env fun s => some (env s) := fun s n hn => some.inj hn
  obtain ⟨o, ho, hmeans⟩ := (follows_affine henv fun s =>
    strictDimOrSymbol_of_isPosition).interpret (visits_of_interpret h).position
      (hasModulus_false t) hv
  obtain rfl : expr e = o := Except.ok.inj (h.symm.trans ho)
  exact ⟨v, hmeans.2, hcast⟩

private theorem exists_toAffineMap (h : t.interpret (.affine strictDimOrSymbol) = .ok o)
    (hne : t.visits ≠ []) : ∃ map, t.toAffineMap = .ok map ∧
    map.dims = (firstOf 'd' t.visits).length ∧ map.symbols = (firstOf 's' t.visits).length ∧
    ∀ operands env x, Binds (firstOf 'd' t.visits) (firstOf 's' t.visits) operands env →
    t.asRead.evalInt env = some x → (map.at operands).map Int.cast = some x := by
  have hvisits := visits_of_interpret h
  cases o with
  | plain d =>
    have hexpr := hvisits.isExpr_eq
    simp [isExpr, hne] at hexpr
  | expr e =>
    obtain ⟨built, hmap, hvalue⟩ := toMap_of_visits hvisits
    refine ⟨⟨(firstOf 'd' t.visits).length, (firstOf 's' t.visits).length, [built]⟩, ?_, rfl, rfl,
      fun operands env x hbinds hx => ?_⟩
    · rw [toAffineMap, h]
      exact hmap
    · obtain ⟨v, hv, rfl⟩ := eval_of_interpret h hx
      change (built.eval _ _).map Int.cast = _
      rw [hvalue _ _ env hbinds.assigns, hv]
      rfl

private theorem toAffineMap_plain (h : t.interpret (.affine strictDimOrSymbol) = .ok o)
    (hempty : t.visits = []) : t.toAffineMap = .error .wrongKind := by
  have hexpr := (visits_of_interpret h).isExpr_eq
  cases o with
  | plain d =>
    rw [toAffineMap, h]
    rfl
  | expr e => simp [isExpr, hempty] at hexpr

/-- A term without names is no map.  Any other becomes a map that has the value of the term as
it is read, with the operands bound in the order of first visits.  So the map has the value of
the term with the operands bound in increasing order where the term is read as it stands and
the two orders are the same. -/
theorem toAffineMap_value {t : Term} {o : AffineOperand}
    (h : t.interpret (.affine strictDimOrSymbol) = .ok o) {is js : List Nat}
    (his : is.Pairwise (· < ·)) (hjs : js.Pairwise (· < ·))
    (hnames : ∀ s, t.mentions (· == s) = true ↔ s ∈ is.map dimName ++ js.map symName)
    {operands : List Int} {env : String → Int}
    (henv : Binds (is.map dimName) (js.map symName) operands env)
      {x : Rat} (hx : t.evalInt env = some x) :
    (t.visits = [] → t.toAffineMap = .error .wrongKind) ∧
      (t.visits ≠ [] → ∃ map, t.toAffineMap = .ok map ∧
        map.dims = (firstOf 'd' t.visits).length ∧ map.symbols = (firstOf 's' t.visits).length ∧
        (∀ env' y, Binds (firstOf 'd' t.visits) (firstOf 's' t.visits) operands env' →
          t.asRead.evalInt env' = some y →
            ((map.at operands).map Int.cast = some x ↔ y = x)) ∧
        (t.readsPlainly = true → (firstOf 'd' t.visits).Perm (is.map dimName) ∧
          (firstOf 's' t.visits).Perm (js.map symName) ∧
          (firstOf 'd' t.visits = is.map dimName → firstOf 's' t.visits = js.map symName →
            (map.at operands).map Int.cast = some x))) := by
  refine ⟨toAffineMap_plain h, fun hne => ?_⟩
  obtain ⟨map, hmap, hdims, hsymbols, hvalue⟩ := exists_toAffineMap h hne
  refine ⟨map, hmap, hdims, hsymbols, fun env' y hbinds hy => ?_, fun hplain => ?_⟩
  · rw [hvalue operands env' y hbinds hy, some.injEq]
  · obtain ⟨hdimPerm, hsymPerm⟩ := (accepted_of_interpret h).visits_perm hplain his hjs hnames
    refine ⟨hdimPerm, hsymPerm, fun hdimOrder hsymOrder => ?_⟩
    refine hvalue operands env x ?_ ?_
    · rw [hdimOrder, hsymOrder]
      exact henv
    · rw [asRead_eq_self hplain]
      exact hx

def evenIndex : Term :=
  .sum [.sym "d1", .floor (.prod [.num (1 / 2), .sym "d2"]), .prod [.num 3, .sym "s0"]]

def evenValues (s : String) : Int := if s = "d1" then 5 else if s = "d2" then 7 else 11

theorem evenIndex_value :
    ∃ map, evenIndex.toAffineMap = .ok map ∧
      (map.at [5, 7, 11]).map Int.cast = some (41 : Rat) := by
  have horder : [1, 2].map dimName = ["d1", "d2"] ∧ [0].map symName = ["s0"] := ⟨by cbv, by cbv⟩
  have hbinds : Binds ([1, 2].map dimName) ([0].map symName) [5, 7, 11] evenValues := by
    rw [horder.1, horder.2]
    exact binds_map ["d1", "d2"] ["s0"] evenValues
  have hnames : ∀ s, evenIndex.mentions (· == s) = true ↔
      s ∈ [1, 2].map dimName ++ [0].map symName := fun s => by
    rw [horder.1, horder.2]
    simp [evenIndex, mentions, mentionsAny, @eq_comm _ s]
  have hinterpret : evenIndex.interpret (.affine strictDimOrSymbol) = .ok (.expr (.binary .add
        (.binary .add (.dim "d1") (.binary .floorDiv (.dim "d2") (.const (.int 2))))
        (.binary .mul (.sym "s0") (.const (.int 3))))) := by cbv
  have hvisits : evenIndex.visits = ["d1", "d2", "s0"] := by cbv
  have hvalue : evenIndex.evalInt evenValues = some 41 := by cbv
  obtain ⟨-, hmap⟩ := toAffineMap_value hinterpret (by decide) (by decide) hnames hbinds hvalue
  obtain ⟨map, hmap, -, -, -, hplain⟩ := hmap (by simp [hvisits])
  refine ⟨map, hmap, (hplain (by cbv)).2.2 ?_ ?_⟩
  · rw [hvisits, horder.1]
    cbv
  · rw [hvisits, horder.2]
    cbv

/-- The dimension with the greater index is visited first, so it takes the first operand. -/
theorem later_dimension_first :
    ∃ t map env, (Written.arith .add [.sym "d1", .arith .mul [.sym "d0", .int 2]]).denote =
        .ok (.term t) ∧
      t.toAffineMap = .ok map ∧ Binds ["d0", "d1"] [] [1, 10] env ∧
      t.evalInt env = some 12 ∧ map.at [1, 10] = some 21 := by
  refine ⟨.sum [.sym "d1", .prod [.num 2, .sym "d0"]],
    ⟨2, 0, [.binary .add (.dim 0) (.binary .mul (.dim 1) (.const 2))]⟩,
    fun s => if s = "d0" then 1 else 10, by cbv, by cbv, ?_, by cbv, by cbv⟩
  exact binds_map ["d0", "d1"] [] fun s => if s = "d0" then 1 else 10

end Term

end Polyloom
