import Mathlib.Logic.Relation

/-!
# Transactions over a step relation

A transaction runs on a working copy: its steps are kept when it commits and
thrown away when it aborts. Aborting only returns to a state that was there
before, so every working copy that can come up in a run with aborts can also be
reached by successful steps alone (`reaches_working`).
-/

namespace Rollback

universe u

variable {σ : Type u} {step : σ → σ → Prop} {idle : σ → Prop}

/-- The committed state and the working copy of the transaction under way. Between two
transactions the two are the same. -/
structure Config (σ : Type u) where
  /-- the state an abort returns to -/
  saved : σ
  /-- the state the steps act on -/
  working : σ

/-- No transaction is under way: an abort would return to the state itself. -/
def Config.start (s : σ) : Config σ := ⟨s, s⟩

/-- One step of a transaction, or its end. Only an `idle` working copy can be committed,
while an abort is possible at any point. -/
inductive Step (step : σ → σ → Prop) (idle : σ → Prop) : Config σ → Config σ → Prop
  /-- a step on the working copy -/
  | work {saved s t : σ} : step s t → Step step idle ⟨saved, s⟩ ⟨saved, t⟩
  /-- the transaction succeeded -/
  | commit {saved s : σ} : idle s → Step step idle ⟨saved, s⟩ ⟨s, s⟩
  /-- the transaction failed -/
  | abort {saved s : σ} : Step step idle ⟨saved, s⟩ ⟨saved, saved⟩

/-- A run with aborts keeps both copies within reach of successful steps. The induction is
on the run, and each kind of step sets one copy to a state that was reached before. -/
theorem reaches_both {s : σ} {c : Config σ}
    (h : Relation.ReflTransGen (Step step idle) (Config.start s) c) :
    Relation.ReflTransGen step s c.saved ∧ Relation.ReflTransGen step s c.working := by
  induction h with
  | refl => exact ⟨.refl, .refl⟩
  | tail _ hstep ih =>
    obtain ⟨hsaved, hworking⟩ := ih
    cases hstep with
    | work hst => exact ⟨hsaved, hworking.tail hst⟩
    | commit _ => exact ⟨hworking, hworking⟩
    | abort => exact ⟨hsaved, hsaved⟩

/-- **Aborts add no states.** A working copy that comes up in a run with aborts is reachable
by successful steps alone. So an invariant of those holds of it as well. -/
theorem reaches_working {s : σ} {c : Config σ}
    (h : Relation.ReflTransGen (Step step idle) (Config.start s) c) :
    Relation.ReflTransGen step s c.working :=
  (reaches_both h).2

/-- Conversely, successful steps are a run of one transaction that has not ended yet. -/
theorem of_reaches {s t : σ} (h : Relation.ReflTransGen step s t) :
    Relation.ReflTransGen (Step step idle) (Config.start s) ⟨s, t⟩ := by
  induction h with
  | refl => exact .refl
  | tail _ hst ih => exact ih.tail (.work hst)

end Rollback
