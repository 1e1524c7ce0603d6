import Mathlib.Data.List.Basic
import Mathlib.Data.Set.Insert
import Mathlib.Tactic.Common
import Polyloom.Fault

/-!
# Outcomes of steps

A step on a state ends with a value or with a fault, and what it did to the state before stays done.
-/

def ExceptT.exec {σ α : Type} (step : ExceptT Polyloom.Fault (StateM σ) α) (s : σ) :
    Except Polyloom.Fault α × σ := step.run.run s

namespace Polyloom

export ExceptT (exec)

namespace Stateful

variable {σ α β : Type} {x : ExceptT Fault (StateM σ) α} {f : α → ExceptT Fault (StateM σ) β}
  {s t u : σ} {a : α} {b : β} {fault : Fault}

@[simp] theorem exec_pure (a : α) (s : σ) :
    exec (pure a : ExceptT Fault (StateM σ) α) s = (.ok a, s) := rfl

@[simp] theorem exec_throw (fault : Fault) (s : σ) :
    exec (throw fault : ExceptT Fault (StateM σ) α) s = (.error fault, s) := rfl

@[simp] theorem exec_get (s : σ) : exec get s = (.ok s, s) := rfl

@[simp] theorem exec_modify (g : σ → σ) (s : σ) : exec (modify g) s = (.ok ⟨⟩, g s) := rfl

theorem exec_bind_ok (h : exec x s = (.ok a, t)) : exec (x >>= f) s = exec (f a) t := by
  simp only [exec, ExceptT.run_bind, StateT.run_bind] at *
  rw [h]
  rfl

theorem exec_bind_error (h : exec x s = (.error fault, t)) :
    exec (x >>= f) s = (.error fault, t) := by
  simp only [exec, ExceptT.run_bind, StateT.run_bind] at *
  rw [h]
  rfl

theorem exec_bind_eq_ok :
    exec (x >>= f) s = (.ok b, u) ↔ ∃ a t, exec x s = (.ok a, t) ∧ exec (f a) t = (.ok b, u) := by
  rcases h : exec x s with ⟨_ | a, t⟩
  · simp [exec_bind_error h]
  · simp [exec_bind_ok h]

theorem exec_of_then_ok {c : β} (h : exec (x >>= fun _ => pure b) s = (.ok c, t)) :
    ∃ a, exec x s = (.ok a, t) := by
  obtain ⟨a, _, hx, ⟨⟩⟩ := exec_bind_eq_ok.mp h
  exact ⟨a, hx⟩

theorem exec_of_then_error (h : exec (x >>= fun _ => pure b) s = (.error fault, t)) :
    exec x s = (.error fault, t) := by
  rcases hx : exec x s with ⟨_ | a, u⟩
  · rw [exec_bind_error hx] at h
    cases h
    rfl
  · rw [exec_bind_ok hx] at h
    cases h

end Stateful

end Polyloom
