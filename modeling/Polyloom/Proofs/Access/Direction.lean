import Polyloom.Proofs.Access.Dependence

/-!
# Tight direction vectors

A direction vector is read off the first and the last solution in the lexicographic order of the
distances.  Its intervals are those of the distances in all solutions exactly if one solution
has the least distance in every loop at once, and one has the greatest.
-/

namespace Polyloom

open Access Solver List IntTerm

variable {cs : List Constraint} {ivs : List String} {result result' : String}
  {index index' : IntTerm}

open NameTable (Tickless ticked)

namespace Access

/-! ## Names of distances -/

theorem tickless_distanceName (k : Nat) : Tickless (distanceName k) := by
  simp only [Tickless, distanceName, String.toList_append, mem_append, not_or]
  exact ⟨by simp, tickless_repr k⟩

private theorem unscored_distanceName (k : Nat) : '_' ∉ (distanceName k).toList := by
  simp only [distanceName, String.toList_append, mem_append, not_or, Nat.toList_repr]
  exact ⟨by simp, Nat.underscore_not_in_toDigits⟩

private theorem distanceName_injective : Function.Injective distanceName :=
  fun _ _ h => Text.repr_injective ((String.append_right_inj "v").mp h)

/-- The names of distances are used for nothing else: a system says nothing of them, and no common
loop variable prints as one of them. -/
structure DistancesFree (printed : String → String) (src dst : Access) (depth : Int) : Prop where
  silent : ∀ env env' : String → Int, (∀ n, (∀ k, n ≠ distanceName k) → env n = env' n) →
    (Solves (system printed src dst depth).2 env ↔ Solves (system printed src dst depth).2 env')
  loops : ∀ iv ∈ commonVariables printed src dst, ∀ k, iv ≠ distanceName k

/-! ## Distances of a solution -/

def difference (ivs : List String) (env : String → Int) (k : Nat) : Int :=
  env (primed (ivs.getD k "")) - env (ivs.getD k "")

def differences (ivs : List String) (env : String → Int) : List Int :=
  (range ivs.length).map (difference ivs env)

theorem solves_distances (env : String → Int) (i : Nat) (ivs : List String) :
    Solves (distances i ivs) env ↔
      ∀ k < ivs.length, env (distanceName (i + k)) = difference ivs env k := by
  induction ivs generalizing i with
  | nil => simp [distances, Solves]
  | cons iv rest ih =>
    have hfirst : (Constraint.compare .eq (.var (distanceName i))
        (.sub (.var (primed iv)) (.var iv))).holds env = true ↔
        env (distanceName i) = env (primed iv) - env iv := by
      simp only [Constraint.holds, Comparison.holdsInt, sub, neg, eval]
      rw [decide_eq_true_iff]
      constructor <;> intro h <;> linarith
    rw [distances, solves_cons, hfirst, ih]
    constructor
    · rintro ⟨hhead, htail⟩ k hk
      cases k with
      | zero => simpa [difference] using hhead
      | succ k =>
        rw [show i + (k + 1) = i + 1 + k by omega, htail k (by simpa using hk)]
        simp [difference]
    · intro hall
      refine ⟨by simpa [difference] using hall 0 (by simp), fun k hk => ?_⟩
      rw [show i + 1 + k = i + (k + 1) by omega, hall (k + 1) (by simpa using hk)]
      simp [difference]

theorem value_distanceName
    (henv : Solves (cs ++ distances 0 ivs) env) {k : Nat} (hk : k < ivs.length) :
    env (distanceName k) = difference ivs env k := by
  simpa using (solves_distances env 0 ivs).mp (solves_append.mp henv).2 k hk

private theorem map_distanceName (henv : Solves (cs ++ distances 0 ivs) env) :
    ((range ivs.length).map distanceName).map env = differences ivs env := by
  rw [differences, map_map]
  exact map_congr_left fun k hk => value_distanceName henv (mem_range.mp hk)

variable {printed : String → String} {src dst : Access} {depth : Int} {env : String → Int}

private theorem DistancesFree.exists_distances (h : DistancesFree printed src dst depth)
    (henv : Solves (system printed src dst depth).2 env) :
    ∃ env', Solves ((system printed src dst depth).2 ++
      distances 0 (commonVariables printed src dst)) env' ∧
      ∀ k < (commonVariables printed src dst).length,
        difference (commonVariables printed src dst) env' k =
          difference (commonVariables printed src dst) env k := by
  have hloops := h.loops
  generalize commonVariables printed src dst = ivs at hloops ⊢
  let env' := Function.extend distanceName (difference ivs env) env
  have hagree : ∀ n, (∀ k, n ≠ distanceName k) → env' n = env n :=
    fun n hn => Function.extend_apply' _ _ _ fun ⟨k, hk⟩ => hn k hk.symm
  have hdifference : ∀ k < ivs.length, difference ivs env' k = difference ivs env k := by
    intro k hk
    have hmem : ivs.getD k "" ∈ ivs := by
      simp [getD_eq_getElem?_getD, getElem?_eq_getElem hk]
    rw [difference, hagree _ (hloops _ hmem), hagree _ fun k => primed_ne (tickless_distanceName k)]
    rfl
  refine ⟨env', solves_append.mpr ⟨(h.silent env' env hagree).mpr henv, ?_⟩, hdifference⟩
  rw [solves_distances]
  intro k hk
  rw [hdifference k hk, Nat.zero_add]
  exact distanceName_injective.extend_apply _ _ k

/-- The distances of the solutions at a depth are bounded. -/
def BoundedDistances (printed : String → String) (src dst : Access) (depth : Int) : Prop :=
  ∃ bound : Int, ∀ env, Solves (system printed src dst depth).2 env →
    ∀ k < (commonVariables printed src dst).length,
      |difference (commonVariables printed src dst) env k| ≤ bound

/-- A direction vector has the distances of a first and of a last solution. -/
theorem DistancesFree.exists_direction (h : DistancesFree printed src dst depth)
    {solver : Bool → List String → Solver} (hsolver : IsLexicographic solver)
    (hloops : commonVariables printed src dst ≠ [])
    (hsolvable : ∃ env, Solves (system printed src dst depth).2 env)
    (hbounded : BoundedDistances printed src dst depth) :
    let ivs := commonVariables printed src dst
    let cs := (system printed src dst depth).2
    ∃ low high, Solves cs low ∧ Solves cs high ∧
        (∀ env, Solves cs env → differences ivs low ≤ differences ivs env ∧
        differences ivs env ≤ differences ivs high) ∧
      direction solver printed src dst depth = .ok (some ((range ivs.length).map fun k =>
        (distanceName k, difference ivs low k, difference ivs high k))) := by
  intro ivs cs
  let names := (range ivs.length).map distanceName
  have hextended : ∃ env, Solves (cs ++ distances 0 ivs) env := by
    obtain ⟨env, henv⟩ := hsolvable
    obtain ⟨env', henv', -⟩ := h.exists_distances henv
    exact ⟨env', henv'⟩
  have hbounded' : BoundedIn (Solves (cs ++ distances 0 ivs)) names := by
    obtain ⟨bound, hbound⟩ := hbounded
    refine ⟨bound, fun env henv n hn => ?_⟩
    obtain ⟨k, hk, rfl⟩ := mem_map.mp hn
    rw [value_distanceName henv (mem_range.mp hk)]
    exact hbound env (solves_append.mp henv).1 k (mem_range.mp hk)
  obtain ⟨low, hlow_eq, hlow⟩ := hsolver true names _ hextended hbounded'
  obtain ⟨high, hhigh_eq, hhigh⟩ := hsolver false names _ hextended hbounded'
  refine ⟨low.value, high.value, (solves_append.mp hlow.solves).1,
    (solves_append.mp hhigh.solves).1, fun env henv => ?_, ?_⟩
  · obtain ⟨env', henv', hdifference⟩ := h.exists_distances henv
    have heq : differences ivs env = names.map env' := by
      rw [map_distanceName henv']
      exact map_congr_left fun k hk => (hdifference k (mem_range.mp hk)).symm
    rw [heq, ← map_distanceName hlow.solves, ← map_distanceName hhigh.solves]
    exact ⟨hlow.below rfl env' henv', hhigh.above rfl env' henv'⟩
  · have hempty : ivs.isEmpty = false := by simpa using hloops
    have hvector : (names.map fun v => (v, low.value v, high.value v)) =
        (range ivs.length).map fun k =>
          (distanceName k, difference ivs low.value k, difference ivs high.value k) := by
      rw [map_map]
      refine map_congr_left fun k hk => ?_
      rw [mem_range] at hk
      simp only [Function.comp_apply, value_distanceName hlow.solves hk,
        value_distanceName hhigh.solves hk]
    rw [← hvector, direction]
    simp only [ivs, cs, names] at hempty hlow_eq hhigh_eq ⊢
    rw [hempty, hlow_eq, hhigh_eq]
    rfl

end Access

namespace MemoryOp

open Access (later primed_ne distanceName tickless_distanceName)

variable {printed : String → String} {history : List MemoryOp} {s t : MemoryOp} {src dst : Access}
  {env env' : String → Int} {upper : Int}

private theorem dimensionVariable_ne_distanceName (memref : String) (k l : Nat) :
    dimensionVariable memref k ≠ distanceName l := by
  intro heq
  refine unscored_distanceName l ?_
  rw [← heq]
  simp [dimensionVariable]

private theorem denotes_congr {name : String → String}
    {op : MemoryOp} {meaning : (String → Int) → Application → Prop}
    (hvalues : ∀ v, env (name v) = env' (name v)) (hdims : ∀ k,
      env (dimensionVariable (name op.memref) k) = env' (dimensionVariable (name op.memref) k)) :
    op.Denotes meaning name env ↔ op.Denotes meaning name env' := by
  simp only [Denotes, hvalues, hdims]

private theorem solves_orderingFrom_congr {depth : Int} {i : Nat}
    (h : ∀ iv ∈ ivs, env iv = env' iv ∧ env (primed iv) = env' (primed iv)) :
    Solves (orderingFrom depth i ivs) env ↔ Solves (orderingFrom depth i ivs) env' := by
  induction ivs generalizing i with
  | nil => simp [orderingFrom, Solves]
  | cons iv rest ih =>
    rw [forall_mem_cons] at h
    rw [orderingFrom, solves_cons, solves_cons, ih h.2]
    refine and_congr_left' ?_
    split <;> simp [Constraint.holds, eval, h.1.1, h.1.2]

namespace Analyzed

variable (h : Analyzed printed history s t src dst) (hdistance : ∀ v k, printed v ≠ distanceName k)

include h hdistance

private theorem naming_ne_distanceName (v : String) (k : Nat) :
    naming printed history v ≠ distanceName k := by
  intro heq
  obtain ⟨l, -, hl⟩ | hl := (ticked_tableAfter printed history).name_cases printed v
  · have hticked : ticked (printed v) l = ticked (distanceName k) 0 := by
      simpa using hl.symm.trans heq
    exact hdistance v k (NameTable.ticked_inj (h.plain.tickless v)
      (tickless_distanceName k) hticked).1
  · refine tickless_distanceName k ?_
    rw [← heq, naming, hl]
    simp

private theorem solves_system_congr (depth : Int) {env env' : String → Int}
    (hagree : ∀ n, (∀ k, n ≠ distanceName k) → env n = env' n) :
    Solves (system printed src dst depth).2 env ↔ Solves (system printed src dst depth).2 env' := by
  have hlater : ∀ n, (∀ k, n ≠ distanceName k) →
      env (later ((common s t).map printed) n) = env' (later ((common s t).map printed) n) := by
    intro n hn
    rw [later]
    split
    · exact hagree _ fun k => primed_ne (tickless_distanceName k)
    · exact hagree n hn
  have hvalues : ∀ v k, naming printed history v ≠ distanceName k :=
    h.naming_ne_distanceName hdistance
  have hordering : Solves (ordering printed src dst depth) env ↔
      Solves (ordering printed src dst depth) env' := by
    refine solves_orderingFrom_congr fun iv hiv => ?_
    rw [h.commonVariables_eq] at hiv
    obtain ⟨i, -, rfl⟩ := mem_map.mp (mem_of_mem_take hiv)
    exact ⟨hagree _ (hdistance i), hagree _ fun k => primed_ne (tickless_distanceName k)⟩
  have hsource : Solves src.constraints env ↔ Solves src.constraints env' := by
    rw [solves_constraints h.namesApart h.sourceFormed h.source_eq,
      solves_constraints h.namesApart h.sourceFormed h.source_eq]
    exact denotes_congr (fun v => hagree _ (hvalues v)) fun k =>
      hagree _ (dimensionVariable_ne_distanceName _ k)
  have htarget : Solves dst.constraints (fun n => env (later ((common s t).map printed) n)) ↔
      Solves dst.constraints fun n => env' (later ((common s t).map printed) n) := by
    rw [solves_constraints h.namesApart h.targetFormed h.target_eq,
      solves_constraints h.namesApart h.targetFormed h.target_eq]
    exact denotes_congr (fun v => hlater _ (hvalues v)) fun k =>
      hlater _ (dimensionVariable_ne_distanceName _ k)
  rw [system_snd, composePair]
  split
  · exact hordering
  · rw [solves_append, solves_append, solves_append, solves_append, hsource, hordering,
      solves_tickedConstraints h.plain.tickless,
      solves_tickedConstraints h.plain.tickless, h.commonVariables_eq, htarget]

theorem distancesFree (depth : Int) : DistancesFree printed src dst depth where
  silent _ _ := h.solves_system_congr hdistance depth
  loops iv hiv k := by
    rw [h.commonVariables_eq] at hiv
    obtain ⟨i, -, rfl⟩ := mem_map.mp hiv
    exact hdistance i k

end Analyzed

/-! ## Small pairs of accesses -/

def previousColumnLoad : MemoryOp :=
  inLoops .load "m" ["i", "j"] 9 [applied "b" ["i"] (.binary .add (.dim 0) (.const (-1)))] ["b"]

def antidiagonalStore : MemoryOp :=
  inLoops .store "m" ["i", "j"] 3 [applied "c" ["i", "j"] (.binary .add (.dim 0) (.dim 1))] ["c"]

def antidiagonalLoad : MemoryOp :=
  inLoops .load "m" ["i", "j"] 3 [applied "e" ["i", "j"] (.binary .add (.dim 0) (.dim 1))] ["e"]

theorem shown_ne_distanceName (v : String) (k : Nat) : shown v ≠ distanceName k := by
  intro heq
  have hv : 'v' ∈ (shown v).toList := by
    rw [heq]
    simp [distanceName]
  have hlist : ∀ s ∈ ["a", "b", "c", "e", "i", "j", "m", "n", "x"], 'v' ∉ s.toList := by decide
  exact hlist _ (shown_mem v) hv

/-- The constraints of two accesses in two loops, of which the outer one makes a step. -/
def pairConstraints (upper : Int) (result result' : String) (index index' : IntTerm) :
    List Constraint :=
  let within (v : String) : List Constraint :=
    [.compare .le (.const 0) (.var v), .compare .le (.var v) (.const upper)]
  [.compare .eq (.var "m_dim_0") (.var result), .compare .eq (.var result) index] ++
    within "i" ++ within "j" ++
    [.compare .eq (.var "m_dim_0") (.var result'), .compare .eq (.var result') index'] ++
    within "i'" ++ within "j'" ++ [.compare .ge (.var "i'") (.add (.var "i") (.const 1))]

theorem solves_pairConstraints :
    Solves (pairConstraints upper result result' index index') env ↔
      (env "m_dim_0" = env result ∧ env result = index.eval env) ∧
      ((0 ≤ env "i" ∧ env "i" ≤ upper) ∧ 0 ≤ env "j" ∧ env "j" ≤ upper) ∧
      (env "m_dim_0" = env result' ∧ env result' = index'.eval env) ∧
      ((0 ≤ env "i'" ∧ env "i'" ≤ upper) ∧ 0 ≤ env "j'" ∧ env "j'" ≤ upper) ∧
      env "i" + 1 ≤ env "i'" := by
  simp only [pairConstraints, Solves, forall_mem_append, forall_mem_cons,
    Constraint.holds, eval]
  simp [Comparison.holdsInt, and_assoc]

/-- Two accesses, and the constraints at the first depth that they were found to have. -/
structure AnalyzedPair (s t : MemoryOp) (cs : List Constraint) (src dst : Access) : Prop
    extends Analyzed shown [s, t] s t src dst where
  variables_eq : commonVariables shown src dst = ["i", "j"]
  system_eq : (system shown src dst (1 : Nat)).2 = cs

theorem exists_analyzedPair {operands operands' : List String} {e e' : AffineExpr}
    (he : e.isAffine operands.length 0 = true) (he' : e'.isAffine operands'.length 0 = true)
    (hshown : ∀ v ∈ ["i", "j"] ++ [result] ++ operands,
      v ∈ ["a", "b", "c", "e", "i", "j", "m", "n"]) (hshown' : ∀ v ∈ ["i", "j"] ++
      [result'] ++ operands', v ∈ ["a", "b", "c", "e", "i", "j", "m", "n"]) :
    let s := inLoops .store "m" ["i", "j"] upper [applied result operands e] [result]
    let t := inLoops .load "m" ["i", "j"] upper [applied result' operands' e'] [result']
    (do
      let src ← (s.construct shown (tableAfter shown [])).1
      let dst ← (t.construct shown (tableAfter shown [s])).1
      return (system shown src dst (1 : Nat)).2) = Except.ok cs →
    ∃ src dst, AnalyzedPair s t cs src dst := by
  intro s t hsystem
  obtain ⟨src, hsrc, hsystem⟩ := bind_eq_ok.mp hsystem
  obtain ⟨dst, hdst, hsystem⟩ := bind_eq_ok.mp hsystem
  have hs : s.WellFormed ∧ s.Scoped shown := formed_inLoops (by simp) (by simp) he hshown
  have ht : t.WellFormed ∧ t.Scoped shown := formed_inLoops (by simp) (by simp) he' hshown'
  have h : Analyzed shown [s, t] s t src dst :=
    ⟨plainNames_shown, ⟨[], [t], rfl, hsrc⟩, ⟨[s], [], rfl, hdst⟩, hs.1, ht.1, hs.2, ht.2⟩
  exact ⟨src, dst, h, h.commonVariables_eq, Except.ok.inj hsystem⟩

private theorem analyzedPair_column : ∃ src dst, AnalyzedPair columnStore previousColumnLoad
    (pairConstraints 9 "a" "b" (.var "i") (.add (.const (-1)) (.var "i'"))) src dst :=
  exists_analyzedPair rfl rfl (by decide) (by decide) (by cbv)

private theorem analyzedPair_antidiagonal :
    ∃ src dst, AnalyzedPair antidiagonalStore antidiagonalLoad
      (pairConstraints 3 "c" "e" (.add (.var "i") (.var "j")) (.add (.var "i'") (.var "j'")))
      src dst :=
  exists_analyzedPair rfl rfl (by decide) (by decide) (by cbv)

private theorem difference_outer (env : String → Int) :
    difference ["i", "j"] env 0 = env "i'" - env "i" := rfl

private theorem difference_inner (env : String → Int) :
    difference ["i", "j"] env 1 = env "j'" - env "j" := rfl

theorem AnalyzedPair.boundedDistances
    (h : AnalyzedPair s t (pairConstraints upper result result' index index') src dst) :
    BoundedDistances shown src dst (1 : Nat) := by
  refine ⟨upper, fun env henv k hk => ?_⟩
  rw [h.system_eq, solves_pairConstraints] at henv
  rw [h.variables_eq] at hk ⊢
  have hcases : ∀ k < ["i", "j"].length, k = 0 ∨ k = 1 := by decide
  obtain rfl | rfl := hcases k hk
  · rw [difference_outer, abs_le]
    omega
  · rw [difference_inner, abs_le]
    omega

end MemoryOp

/-! ## Tight vectors -/

namespace Access

variable {printed : String → String} {src dst : Access} {depth : Int} {env env' : String → Int}

def distancesAt (printed : String → String) (src dst : Access) (depth : Int) (k : Nat) : Set Int :=
  {x | ∃ env, Solves (system printed src dst depth).2 env ∧ difference (commonVariables printed
    src dst) env k = x}

/-- An entry of a direction vector gives the least and the greatest distance in its loop. -/
def Tight (printed : String → String) (src dst : Access) (depth : Int)
    (vector : List (String × Int × Int)) (k : Nat) : Prop :=
  ∃ lo hi, vector[k]? = some (distanceName k, lo, hi) ∧
    IsLeast (distancesAt printed src dst depth k) lo ∧
    IsGreatest (distancesAt printed src dst depth k) hi

theorem difference_zero_le (hivs : ivs ≠ []) (h : differences ivs env ≤ differences ivs env') :
    difference ivs env 0 ≤ difference ivs env' 0 := by
  obtain ⟨n, hn⟩ := Nat.exists_eq_succ_of_ne_zero (length_pos_of_ne_nil hivs).ne'
  rw [differences, differences, hn, range_succ_eq_map, map_cons_le_map_cons_iff] at h
  exact h.elim le_of_lt fun h => h.1.le

private theorem difference_eq_of_differences
    (h : differences ivs env = differences ivs env') {k : Nat} (hk : k < ivs.length) :
    difference ivs env k = difference ivs env' k :=
  map_inj_left.mp h k (mem_range.mpr hk)

/-- An entry is tight exactly if the solutions it was read off are extreme in its loop. -/
private theorem tight_iff {low high : String → Int}
    (hlow : Solves (system printed src dst depth).2 low)
    (hhigh : Solves (system printed src dst depth).2 high) {k : Nat}
    (hk : k < (commonVariables printed src dst).length) : let ivs := commonVariables printed src dst
    Tight printed src dst depth ((range ivs.length).map fun k =>
        (distanceName k, difference ivs low k, difference ivs high k)) k ↔
      (∀ env, Solves (system printed src dst depth).2 env →
        difference ivs low k ≤ difference ivs env k) ∧
      ∀ env, Solves (system printed src dst depth).2 env →
        difference ivs env k ≤ difference ivs high k := by
  intro ivs
  have hentry : ((range ivs.length).map fun k =>
      (distanceName k, difference ivs low k, difference ivs high k))[k]? =
      some (distanceName k, difference ivs low k, difference ivs high k) := by
    simp [ivs, hk]
  constructor
  · rintro ⟨lo, hi, heq, hlo, hhi⟩
    obtain ⟨rfl, rfl⟩ : difference ivs low k = lo ∧ difference ivs high k = hi := by
      simpa [hentry] using heq
    exact ⟨fun env henv => hlo.2 ⟨env, henv, rfl⟩, fun env henv => hhi.2 ⟨env, henv, rfl⟩⟩
  · rintro ⟨hleast, hgreatest⟩
    refine ⟨_, _, hentry, ⟨⟨low, hlow, rfl⟩, ?_⟩, ⟨high, hhigh, rfl⟩, ?_⟩
    · rintro _ ⟨env, henv, rfl⟩
      exact hleast env henv
    · rintro _ ⟨env, henv, rfl⟩
      exact hgreatest env henv

/-- The entries of a direction vector are the least and the greatest distances exactly if one
solution has the least distance in every loop, and one the greatest.  The entry of the
outermost loop always is. -/
theorem direction_tight_iff {solver : Bool → List String → Solver}
    (hsolver : IsLexicographic solver) (hfree : DistancesFree printed src dst depth)
    (hloops : commonVariables printed src dst ≠ [])
    (hsolvable : ∃ env, Solves (system printed src dst depth).2 env)
    (hbounded : BoundedDistances printed src dst depth) :
    let ivs := commonVariables printed src dst
    let cs := (system printed src dst depth).2
    ∃ vector, direction solver printed src dst depth = .ok (some vector) ∧
      vector.length = ivs.length ∧ Tight printed src dst depth vector 0 ∧
      ((∀ k < ivs.length, Tight printed src dst depth vector k) ↔
        (∃ low, Solves cs low ∧ ∀ env, Solves cs env → ∀ k < ivs.length,
          difference ivs low k ≤ difference ivs env k) ∧
        ∃ high, Solves cs high ∧ ∀ env, Solves cs env → ∀ k < ivs.length,
          difference ivs env k ≤ difference ivs high k) := by
  intro ivs cs
  obtain ⟨low, high, hlow, hhigh, hbetween, hdirection⟩ :=
    hfree.exists_direction hsolver hloops hsolvable hbounded
  have hlength : 0 < ivs.length := length_pos_of_ne_nil hloops
  refine ⟨_, hdirection, by simp [ivs], (tight_iff hlow hhigh hlength).mpr ⟨fun env henv => ?_,
    fun env henv => ?_⟩, fun hall => ⟨⟨low, hlow, fun env henv k hk => ?_⟩,
      high, hhigh, fun env henv k hk => ?_⟩, ?_⟩
  · exact difference_zero_le hloops (hbetween env henv).1
  · exact difference_zero_le hloops (hbetween env henv).2
  · exact ((tight_iff hlow hhigh hk).mp (hall k hk)).1 env henv
  · exact ((tight_iff hlow hhigh hk).mp (hall k hk)).2 env henv
  · rintro ⟨⟨least, hleast_solves, hleast⟩, greatest, hgreatest_solves, hgreatest⟩ k hk
    have hlow_eq : differences ivs low = differences ivs least :=
      le_antisymm (hbetween least hleast_solves).1
        (map_le_map fun k hk => hleast low hlow k (mem_range.mp hk))
    have hhigh_eq : differences ivs greatest = differences ivs high :=
      le_antisymm (hbetween greatest hgreatest_solves).2
        (map_le_map fun k hk => hgreatest high hhigh k (mem_range.mp hk))
    refine (tight_iff hlow hhigh hk).mpr ⟨fun env henv => ?_, fun env henv => ?_⟩
    · exact (difference_eq_of_differences hlow_eq hk).le.trans (hleast env henv k hk)
    · exact (hgreatest env henv k hk).trans (difference_eq_of_differences hhigh_eq hk).le

end Access

namespace MemoryOp

open Access (distanceName)

theorem columnStore_previousColumnLoad_tight :
    IsLexicographic extreme ∧
    ∃ src dst, Analyzed shown [columnStore, previousColumnLoad] columnStore previousColumnLoad
        src dst ∧
      ∃ vector, direction extreme shown src dst (1 : Nat) = .ok (some vector) ∧
        ∀ k < 2, Tight shown src dst (1 : Nat) vector k := by
  obtain ⟨src, dst, h⟩ := analyzedPair_column
  have hlow : Solves (system shown src dst (1 : Nat)).2
      fun v => if v = "i'" then 1 else if v = "j" then 9 else 0 := by
    rw [h.system_eq, solves_pairConstraints]
    simp [eval]
  have hhigh : Solves (system shown src dst (1 : Nat)).2
      fun v => if v = "i'" then 1 else if v = "j'" then 9 else 0 := by
    rw [h.system_eq, solves_pairConstraints]
    simp [eval]
  obtain ⟨vector, hvector, -, -, htight⟩ := direction_tight_iff isLexicographic_extreme
    (h.distancesFree shown_ne_distanceName _) (by simp [h.variables_eq])
      ⟨_, hlow⟩ h.boundedDistances
  refine ⟨isLexicographic_extreme, src, dst, h.toAnalyzed, vector, hvector, ?_⟩
  rw [h.variables_eq] at htight
  have hcases : ∀ k < ["i", "j"].length, k = 0 ∨ k = 1 := by decide
  refine htight.mpr ⟨⟨_, hlow, fun env henv k hk => ?_⟩, _, hhigh, fun env henv k hk => ?_⟩
  all_goals
    rw [h.system_eq, solves_pairConstraints] at henv
    simp only [eval] at henv
    obtain rfl | rfl := hcases k hk
    · simp only [difference_outer, String.reduceEq, ↓reduceIte]
      omega
    · simp only [difference_inner, String.reduceEq, ↓reduceIte]
      omega

/-- The distance in the inner loop is from -3 to -1, but it is -1 where the outer distance is
least and -3 where it is greatest. -/
theorem antidiagonal_direction :
    ∃ src dst, Analyzed shown [antidiagonalStore, antidiagonalLoad] antidiagonalStore
        antidiagonalLoad src dst ∧
      DistancesFree shown src dst (1 : Nat) ∧
      (∃ env, Solves (system shown src dst (1 : Nat)).2 env) ∧
      BoundedDistances shown src dst (1 : Nat) ∧
      ∀ solver, IsLexicographic solver → direction solver shown src dst (1 : Nat) =
          .ok (some [("v0", 1, 3), ("v1", -1, -3)]) := by
  obtain ⟨src, dst, h⟩ := analyzedPair_antidiagonal
  have hfree := h.distancesFree shown_ne_distanceName ((1 : Nat) : Int)
  have hsolves (x : Int) (hx : 1 ≤ x ∧ x ≤ 3) : Solves (system shown src dst (1 : Nat)).2
      fun v => if v = "i" ∨ v = "j'" then 0 else x := by
    have hrange : (0 ≤ x ∧ x ≤ 3) ∧ 1 ≤ x := by omega
    rw [h.system_eq, solves_pairConstraints]
    simpa [eval] using hrange
  refine ⟨src, dst, h.toAnalyzed, hfree, ⟨_, hsolves 1 (by decide)⟩,
    h.boundedDistances, fun solver hsolver => ?_⟩
  obtain ⟨low, high, hlow, hhigh, hbetween, hdirection⟩ :=
    hfree.exists_direction hsolver (by simp [h.variables_eq])
      ⟨_, hsolves 1 (by decide)⟩ h.boundedDistances
  rw [h.variables_eq] at hbetween hdirection
  have hfirst := difference_zero_le (by simp) (hbetween _ (hsolves 1 (by decide))).1
  have hlast := difference_zero_le (by simp) (hbetween _ (hsolves 3 (by decide))).2
  rw [h.system_eq, solves_pairConstraints] at hlow hhigh
  simp only [difference_outer, eval] at hfirst hlast hlow hhigh
  have hlow_eq : low "i'" - low "i" = 1 ∧ low "j'" - low "j" = -1 := by
    have hle : low "i'" - low "i" ≤ 1 := by simpa using hfirst
    omega
  have hhigh_eq : high "i'" - high "i" = 3 ∧ high "j'" - high "j" = -3 := by
    have hge : 3 ≤ high "i'" - high "i" := by simpa using hlast
    omega
  have hnames : distanceName 0 = "v0" ∧ distanceName 1 = "v1" := by decide
  rw [hdirection]
  simp [range_succ, hnames, difference_outer, difference_inner, hlow_eq, hhigh_eq]

end MemoryOp

end Polyloom
