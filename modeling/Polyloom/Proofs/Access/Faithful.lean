import Polyloom.Proofs.Access.Denotation

/-!
# When an application means its map

A map may multiply its inputs.  The relation of an application says that the result is what the
map is read as, so it is the map at the operands wherever no ceiling in it is of a whole
quotient.
-/

namespace Polyloom.Application

open AffineExpr

open MemoryOp (shown applied)

variable {printed : String → String} {table : NameTable String} {a : Application}

/-- An application of a map over its inputs, with positive numbers as divisors, to enough
operands. -/
abbrev Total (a : Application) : Prop := a.Formed fun _ _ => true

/-- No ceiling that the map takes at the operands is of a whole quotient. -/
def RoundsUp (p : String → Int) (a : Application) : Prop :=
  ∀ e ∈ a.map.results.head?, e.roundsUp (fun i => p (a.operands.getD i ""))
    (fun j => p (a.operands.getD (a.map.dims + j) "")) = true

private theorem RoundsUp.reads_iff_computes {product : AffineExpr → AffineExpr → Bool}
    (ha : a.Formed product) {p : String → Int} (h : a.RoundsUp p) : a.Reads p ↔ a.Computes p := by
  obtain ⟨e, rest, hresults⟩ := List.exists_cons_of_ne_nil ha.results
  have hread :=
    read_eq_eval_of_roundsUp (ha.formed e (by simp [hresults])) (h e (by simp [hresults]))
  rw [Reads, Computes, valueBy_eq hresults, valueBy_eq hresults, hread]

private theorem analyze_eq (htable : table.Ticked) (a : Application) :
    (a.analyze.exec printed table).1 =
      a.analyzeUnder ((a.analyze.exec printed table).2.name printed) :=
  (follows_analyze printed a table htable).2.2 _ (.refl _)

section

variable (htable : table.Ticked) (ha : a.Total)
  (hname : a.NamedApart ((a.analyze.exec printed table).2.name printed))

include htable ha hname

private theorem exists_relation :
    ∃ apply, (a.analyze.exec printed table).1 = .ok apply ∧ ∀ env, apply.relation.Holds env ↔
        a.Reads fun v => env ((a.analyze.exec printed table).2.name printed v) := by
  obtain ⟨apply, hrun, -, -, hholds⟩ :=
    analyzeUnder_formed Term.arithmetic_polynomial (fun table t h => h.substitute table)
      (fun l r s t _ _ _ hs ht => hs.mul ht) hname ha
  exact ⟨apply, (analyze_eq htable a).trans hrun, hholds⟩

/-- Every application of a map over its inputs has a relation.  It holds exactly where the
result is what the map is read as, and so exactly where the result is the map at the operands,
unless a ceiling is of a whole quotient there. -/
theorem relation_faithful :
    ∃ apply, (a.analyze.exec printed table).1 = .ok apply ∧ ∀ env p, (∀ v ∈ a.result :: a.operands,
          p v = env ((a.analyze.exec printed table).2.name printed v)) →
        (apply.relation.Holds env ↔ a.Reads p) ∧
        (a.RoundsUp p → (apply.relation.Holds env ↔ a.Computes p)) := by
  obtain ⟨apply, hrun, hholds⟩ := exists_relation htable ha hname
  refine ⟨apply, hrun, fun env p hp => ?_⟩
  rw [List.forall_mem_cons] at hp
  have hreads : apply.relation.Holds env ↔ a.Reads p :=
    (hholds env).trans (reads_congr ha hp.2 hp.1).symm
  exact ⟨hreads, fun hround => hreads.trans (hround.reads_iff_computes ha)⟩

end

def halvedSquare : Application :=
  applied "e" ["i", "j"] (.binary .ceilDiv
    (.binary .add (.binary .mul (.dim 0) (.dim 0)) (.dim 1)) (.const 2))

private theorem total_applied {operands : List String} {e : AffineExpr}
    (h : e.isFormed (fun _ _ => true) operands.length 0 = true) (result : String) :
    (applied result operands e).Total :=
  ⟨rfl, by simp [applied], by simpa [applied] using h, by simp [applied]⟩

private theorem namedApart_shown (a : Application) :
    a.NamedApart ((a.analyze.exec shown []).2.name shown) :=
  namedApart
    (MemoryOp.plainNames_shown.namesApart (follows_analyze shown a [] NameTable.ticked_nil).1) a

theorem halvedSquare_faithful : let name := (halvedSquare.analyze.exec shown []).2.name shown
    halvedSquare.Total ∧ halvedSquare.NamedApart name ∧ ∃ apply,
      (halvedSquare.analyze.exec shown []).1 = .ok apply ∧
        ∀ env : String → Int, env (name "i") = 3 → env (name "j") = 2 →
          (apply.relation.Holds env ↔ env (name "e") = 6) := by
  intro name
  have htotal : halvedSquare.Total := total_applied (by simp [isFormed]) "e"
  have hname : halvedSquare.NamedApart name := namedApart_shown halvedSquare
  obtain ⟨apply, hrun, hfaithful⟩ := relation_faithful NameTable.ticked_nil htotal hname
  refine ⟨htotal, hname, apply, hrun, fun env hi hj => ?_⟩
  have hround : halvedSquare.RoundsUp fun v => env (name v) := by
    simp [RoundsUp, halvedSquare, applied, roundsUp, eval, AffineOp.eval, hi, hj]
  rw [(hfaithful env (fun v => env (name v)) fun v _ => rfl).2 hround]
  simp [Computes, valueBy, halvedSquare, applied, eval, AffineOp.eval, hi, hj, eq_comm]

def quartered : Application := applied "e" ["i"] (.binary .ceilDiv (.dim 0) (.const 4))

def shadowed : Application := applied "d0" ["i"] (.binary .add (.dim 0) (.const 1))

def Missed (a : Application) : Prop :=
  ∃ apply next env, a.analyze.exec id [] = (.ok apply, next) ∧
    (a.Computes fun v => env (next.name id v)) ∧ ¬ apply.relation.Holds env

/-- A ceiling of a whole quotient is read as one more, and a result that has the name of an
input is taken for the operand. -/
theorem missed_quartered_shadowed : quartered.Missed ∧ shadowed.Missed := by
  refine ⟨⟨_, _, fun v => if v = "i" then 4 else 1, by cbv, by cbv, ?_⟩,
    _, _, fun v => if v = "i" then 4 else 5, by cbv, by cbv, ?_⟩
  · unfold Proposition.Holds
    cbv
    simp
  · unfold Proposition.Holds
    cbv
    simp

end Polyloom.Application
