import Polyloom.Builder.Compile
import Polyloom.Proofs.Builder.Steps
import Polyloom.Proofs.Text.Occurrence

/-!
# Pipelines that lower to the target dialect

Whether a pipeline lowers to the target dialect is seen from its passes one by one, or from the text
of the whole pipeline.  Both ways say the same, for the marker has none of the characters that
passes are joined and enclosed by.  So a module is compiled alike from a pipeline and from its text.
-/

namespace Polyloom

open Build

namespace Pipeline

def loweringMarker : List Char := "to-llvm".toList

private theorem toList_materialize (p : Pipeline) : (p.materialize true).toList =
    "builtin.module".toList ++ '(' ::
      ([','].intercalate (p.passes.map String.toList) ++ ')' :: []) := by
  simp [materialize, String.toList_append, String.toList_intercalate]

theorem lowersToLlvm_iff (p : Pipeline) :
    p.lowersToLlvm = true ↔ ∃ pass ∈ p.passes, loweringMarker <:+: pass.toList := by
  simp only [lowersToLlvm, List.any_eq_true, Text.contains_iff_infix]
  rfl

/-- The marker is in the text of a pipeline exactly if it is in the text of a pass. -/
theorem marker_infix_materialize_iff (p : Pipeline) :
    loweringMarker <:+: (p.materialize true).toList ↔
      ∃ pass ∈ p.passes, loweringMarker <:+: pass.toList := by
  -- the text is taken apart at the brackets first and then at the commas
  have hfront : ¬ loweringMarker <:+: "builtin.module".toList := by decide
  have hback : ¬ loweringMarker <:+: [] := by decide
  rw [toList_materialize, Text.infix_append_cons_iff (by decide),
    Text.infix_append_cons_iff (by decide),
    Text.infix_intercalate_iff (by decide) (by decide), or_iff_right hfront, or_iff_left hback]
  simp

private theorem lowersToLlvm_eq_contains (p : Pipeline) :
    p.lowersToLlvm = Text.contains (p.materialize true) "to-llvm" := by
  rw [Bool.eq_iff_iff, lowersToLlvm_iff, Text.contains_iff_infix, ← marker_infix_materialize_iff]
  rfl

end Pipeline

namespace Compile

private theorem exec_pipelineText_object {s : Session} {id : Nat}
    {p : Pipeline} (h : s.objects[id]? = some (.pipeline p)) :
    (pipelineText (.object id)).exec s = (.ok (.str (p.materialize true), p.lowersToLlvm), s) := by
  have hobject : (object id).exec s = (.ok (.pipeline p), s) := by
    rw [object, exec_bind_ok (exec_get s), h]
    rfl
  exact exec_bind_ok hobject

/-- A pipeline lowers to the target dialect exactly if its text says so, and compiling a module by
the pipeline is compiling it by the text: the same text is handed on, with the same decision on the
calling interface, and all that follows is the same. -/
theorem compile_materialize {s : Session} {id : Nat} {p : Pipeline}
    (h : s.objects[id]? = some (.pipeline p)) :
    (p.lowersToLlvm = true ↔ "to-llvm".toList <:+: (p.materialize true).toList) ∧
    (pipelineText (.object id)).exec s = (.ok (.str (p.materialize true), p.lowersToLlvm), s) ∧
    (pipelineText (.str (p.materialize true))).exec s =
      (.ok (.str (p.materialize true), p.lowersToLlvm), s) ∧
    ∀ module kernelName irPrinting, (compile module (.object id) kernelName irPrinting).exec s =
      (compile module (.str (p.materialize true)) kernelName irPrinting).exec s := by
  have hobject := exec_pipelineText_object h
  have htext : (pipelineText (.str (p.materialize true))).exec s =
      (.ok (.str (p.materialize true), p.lowersToLlvm), s) := by
    rw [p.lowersToLlvm_eq_contains]
    rfl
  refine ⟨?_, hobject, htext, fun module kernelName irPrinting => ?_⟩
  · rw [p.lowersToLlvm_iff, ← p.marker_infix_materialize_iff]
    rfl
  · rw [compile, compile, exec_bind_ok hobject, exec_bind_ok htext]

def halvedMarker : Pipeline :=
  ⟨["lower-to", "-llvm-late", "func.func(convert-arith-to-llvm)"], .null⟩

def halvedSession : Session := { objects := [.context {}, .pipeline halvedMarker] }

theorem compile_halvedMarker : halvedMarker.lowersToLlvm = true ∧
    "to-llvm".toList <:+: (halvedMarker.materialize true).toList ∧
    ∀ module, (compile module (.object 1) (.str "main") false).exec halvedSession =
      (compile module (.str "builtin.module(lower-to,-llvm-late,func.func(convert-arith-to-llvm))")
        (.str "main") false).exec halvedSession := by
  have hobject : halvedSession.objects[1]? = some (.pipeline halvedMarker) := rfl
  obtain ⟨hiff, -, -, hcompile⟩ := compile_materialize hobject
  have hlowers : halvedMarker.lowersToLlvm = true := by decide
  exact ⟨hlowers, hiff.mp hlowers, fun module => hcompile module _ _⟩

example : (⟨["lower-to", "-llvm-late"], .null⟩ : Pipeline).lowersToLlvm = false := by decide

end Compile

end Polyloom
