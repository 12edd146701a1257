import Mathlib.Data.List.Basic
import Mathlib.Order.Defs.Unbundled

/-!
# Rearranging a schedule

A system serves the requests of a schedule one after the other. Some requests are
*internal*: they are always served, and a relation `R` does not see what they do.
The others are *visible*: related states serve them alike. Then schedules with the
same visible requests, in the same order, lead to related states, wherever the
internal requests stand and whatever they are (`Independent.rearrange`).
-/

namespace Interleaving

universe u v

variable {σ : Type u} {ρ : Type v} {step : σ → ρ → σ → Prop}

/-! ## Serving a schedule -/

/-- The requests are served one after the other, each in the state the one before left. A
schedule that cannot be served to its end has no run. -/
inductive Run (step : σ → ρ → σ → Prop) : σ → List ρ → σ → Prop
  /-- nothing left to serve -/
  | nil {s : σ} : Run step s [] s
  /-- the first request, then the others -/
  | cons {s s₁ s' : σ} {r : ρ} {rs : List ρ} :
      step s r s₁ → Run step s₁ rs s' → Run step s (r :: rs) s'

/-- What goes back a step goes back a run. It is used for properties that can only be lost,
such as a flag that is never cleared, so that the last state speaks for all of them. -/
theorem Run.good (good : σ → Prop) (hgood : ∀ s r s', step s r s' → good s' → good s)
    {s s' : σ} {rs : List ρ} (h : Run step s rs s') (hs' : good s') : good s := by
  induction h with
  | nil => exact hs'
  | cons hstep _ ih => exact hgood _ _ _ hstep (ih hs')

/-- An invariant of a state together with what is still to be served, along a run that ends
well. What is left in the schedule may restrict the state, for example by keeping later
requests apart. -/
theorem Run.invariant (good : σ → Prop) {inv : σ → List ρ → Prop}
    (hgood : ∀ s r s', step s r s' → good s' → good s)
    (hstep : ∀ s r rs s', inv s (r :: rs) → step s r s' → good s' → inv s' rs)
    {s s' : σ} {rs rest : List ρ} (h : Run step s rs s') (hs' : good s')
    (hs : inv s (rs ++ rest)) : inv s' rest := by
  induction h with
  | nil => exact hs
  | cons hr hrun ih => exact ih hs' (hstep _ _ _ _ hs hr (hrun.good good hgood hs'))

/-! ## Internal requests -/

/-- The requests of a schedule that can be seen, in the order in which they stand there. -/
def visible (internal : ρ → Bool) (rs : List ρ) : List ρ := rs.filter fun r => !internal r

section Visible

variable {internal : ρ → Bool} {r : ρ} {rs : List ρ}

@[simp] theorem visible_nil : visible internal [] = [] := rfl

theorem visible_cons_of_internal (h : internal r = true) :
    visible internal (r :: rs) = visible internal rs := by
  simp [visible, h]

theorem visible_cons_of_not (h : internal r = false) :
    visible internal (r :: rs) = r :: visible internal rs := by
  simp [visible, h]

end Visible

/-- **Independence.** Internal requests are independent of the visible ones up to `R`, in
states with the invariant `inv` and as long as the run stays `good`. It is a condition on
single steps, and the theorems below carry it to schedules. -/
structure Independent (step : σ → ρ → σ → Prop) (internal : ρ → Bool) (good : σ → Prop)
    (inv : σ → List ρ → Prop) (R : σ → σ → Prop) : Prop where
  equivalence : Equivalence R
  /-- what is good was good before -/
  good_of_step : ∀ s r s', step s r s' → good s' → good s
  /-- and is so up to `R` -/
  good_congr : ∀ s t, R s t → good s → good t
  /-- the invariant is kept -/
  inv_step : ∀ s r rs s', inv s (r :: rs) → step s r s' → good s' → inv s' rs
  /-- internal requests are served -/
  serves : ∀ s r rs, inv s (r :: rs) → internal r = true → ∃ s', step s r s'
  /-- with no effect that could be seen -/
  unseen : ∀ s r rs s', inv s (r :: rs) → internal r = true → step s r s' → R s s'
  /-- visible ones have the same effect in related states -/
  mimics : ∀ s t r rs rs' s', inv s (r :: rs) → inv t (r :: rs') → R s t →
    internal r = false → step s r s' → good s' → ∃ t', step t r t' ∧ R s' t'

namespace Independent

variable {internal : ρ → Bool} {good : σ → Prop} {inv : σ → List ρ → Prop} {R : σ → σ → Prop}
  {s t s' : σ} {r : ρ} {rs rs' : List ρ}

theorem good_of_run (hi : Independent step internal good inv R) (h : Run step s rs s')
    (hs' : good s') : good s :=
  h.good good hi.good_of_step hs'

/-- A schedule of internal requests only has no effect that could be seen: the state it ends
in is related to the one it started from. -/
theorem related_of_internal (hi : Independent step internal good inv R)
    (hrun : Run step s rs s') (hgood : good s') (hs : inv s rs)
    (hvisible : visible internal rs = []) : R s s' := by
  induction hrun with
  | nil => exact hi.equivalence.refl _
  | @cons s s₁ s' r rs hstep hrun ih =>
    cases hr : internal r with
    | false =>
      rw [visible_cons_of_not hr] at hvisible
      cases hvisible
    | true =>
      rw [visible_cons_of_internal hr] at hvisible
      have hs₁ := hi.inv_step _ _ _ _ hs hstep (hi.good_of_run hrun hgood)
      exact hi.equivalence.trans (hi.unseen _ _ _ _ hs hr hstep) (ih hgood hs₁ hvisible)

/-- A run can be cut at its first visible request. What comes before has no effect that
could be seen, and what comes after is a run of the rest of the schedule. -/
theorem exists_first (hi : Independent step internal good inv R) {vs : List ρ}
    (hrun : Run step s rs s') (hgood : good s') (hs : inv s rs)
    (hvisible : visible internal rs = r :: vs) :
    ∃ s₁ s₂ rest, R s s₁ ∧ inv s₁ (r :: rest) ∧ internal r = false ∧ step s₁ r s₂ ∧
      Run step s₂ rest s' ∧ visible internal rest = vs := by
  induction hrun with
  | nil => cases hvisible
  | @cons s s₁ s' r' rs hstep hrun ih =>
    cases hr : internal r' with
    | false =>
      rw [visible_cons_of_not hr] at hvisible
      obtain ⟨rfl, hrest⟩ := List.cons.inj hvisible
      exact ⟨s, s₁, rs, hi.equivalence.refl s, hs, hr, hstep, hrun, hrest⟩
    | true =>
      rw [visible_cons_of_internal hr] at hvisible
      have hs₁ := hi.inv_step _ _ _ _ hs hstep (hi.good_of_run hrun hgood)
      obtain ⟨s₂, s₃, rest, hrel, hfound⟩ := ih hgood hs₁ hvisible
      exact ⟨s₂, s₃, rest, hi.equivalence.trans (hi.unseen _ _ _ _ hs hr hstep) hrel, hfound⟩

/-- **Rearranging.** A schedule with the same visible requests in the same order can be
served too, and leads to a related state. The induction is on the new schedule: an internal
request of it is served as it comes, and for a visible one the old run is cut at its first
visible request. -/
theorem rearrange (hi : Independent step internal good inv R) (hrun : Run step s rs s')
    (hgood : good s') (hs : inv s rs) (ht : inv t rs') (hst : R s t)
    (hvisible : visible internal rs' = visible internal rs) :
    ∃ t', Run step t rs' t' ∧ R s' t' := by
  -- along the new schedule; the old run is skipped up to the next visible request
  induction rs' generalizing s t rs with
  | nil =>
    have hrel := hi.related_of_internal hrun hgood hs hvisible.symm
    exact ⟨t, .nil, hi.equivalence.trans (hi.equivalence.symm hrel) hst⟩
  | cons r rs' ih =>
    cases hr : internal r with
    | true =>
      rw [visible_cons_of_internal hr] at hvisible
      obtain ⟨t₁, hstep⟩ := hi.serves _ _ _ ht hr
      have hrel := hi.equivalence.trans hst (hi.unseen _ _ _ _ ht hr hstep)
      have hgood₁ := hi.good_congr _ _ hrel (hi.good_of_run hrun hgood)
      obtain ⟨t', hrest, hrel'⟩ :=
        ih hrun hs (hi.inv_step _ _ _ _ ht hstep hgood₁) hrel hvisible
      exact ⟨t', .cons hstep hrest, hrel'⟩
    | false =>
      rw [visible_cons_of_not hr] at hvisible
      obtain ⟨s₁, s₂, rest, hskip, hs₁, -, hstep, hrest, hvisible'⟩ :=
        hi.exists_first hrun hgood hs hvisible.symm
      have hgood₂ := hi.good_of_run hrest hgood
      have hst₁ := hi.equivalence.trans (hi.equivalence.symm hskip) hst
      obtain ⟨t₂, hstep', hrel⟩ := hi.mimics _ _ _ _ _ _ hs₁ ht hst₁ hr hstep hgood₂
      have hs₂ := hi.inv_step _ _ _ _ hs₁ hstep hgood₂
      have ht₂ := hi.inv_step _ _ _ _ ht hstep' (hi.good_congr _ _ hrel hgood₂)
      obtain ⟨t', hrun', hrel'⟩ := ih hrest hs₂ ht₂ hrel hvisible'.symm
      exact ⟨t', .cons hstep' hrun', hrel'⟩

end Independent

end Interleaving
