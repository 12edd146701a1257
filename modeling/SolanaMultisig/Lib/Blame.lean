import Mathlib.Data.List.Infix
import Mathlib.Logic.Relation

/-!
# Who is to blame

A system logs what it does. When a step can break an invariant only together with an
event that is to blame for it, the same holds of whole runs: whoever finds the
invariant broken finds such an event in the log (`Accountable.run`).
-/

namespace Blame

universe u v

variable {σ : Type u} {ε : Type v} {step : σ → σ → Prop} {log : σ → List ε}
  {good : List ε → Prop} {safe : σ → Prop} {blamed : ε → Prop}

/-- Between the logs `h` and `h'` an event was logged that is to blame. The log before the
event is kept, since the blame is usually argued from what was logged earlier. -/
def Logged (blamed : ε → Prop) (h h' : List ε) : Prop :=
  ∃ later e earlier, h' = later ++ e :: earlier ∧ h <:+ earlier ∧ blamed e

/-- Whoever started before finds it as well. -/
theorem Logged.of_suffix_left {h₀ h h' : List ε} (hs : h₀ <:+ h) (hl : Logged blamed h h') :
    Logged blamed h₀ h' := by
  obtain ⟨later, e, earlier, he, hearlier, hblamed⟩ := hl
  exact ⟨later, e, earlier, he, hs.trans hearlier, hblamed⟩

/-- It stays in the log. -/
theorem Logged.of_suffix_right {h h' h'' : List ε} (hs : h' <:+ h'') (hl : Logged blamed h h') :
    Logged blamed h h'' := by
  obtain ⟨later, e, earlier, rfl, hearlier, hblamed⟩ := hl
  obtain ⟨new, rfl⟩ := hs
  exact ⟨new ++ later, e, earlier, by simp, hearlier, hblamed⟩

/-- Steps add to the log, and as long as the log is `good`, none of them breaks `safe`
without an event to blame. -/
structure Accountable (step : σ → σ → Prop) (log : σ → List ε) (good : List ε → Prop)
    (safe : σ → Prop) (blamed : ε → Prop) : Prop where
  /-- nothing is deleted from the log -/
  grows : ∀ s s', step s s' → log s <:+ log s'
  /-- a good log was good before -/
  good_of_suffix : ∀ h h', h <:+ h' → good h' → good h
  /-- what breaks the invariant is logged -/
  kept : ∀ s s', step s s' → good (log s') → safe s →
    safe s' ∨ Logged blamed (log s) (log s')

/-- A run adds to the log. -/
theorem Accountable.run_grows (h : Accountable step log good safe blamed) {s s' : σ}
    (hrun : Relation.ReflTransGen step s s') : log s <:+ log s' := by
  induction hrun with
  | refl => exact List.suffix_rfl
  | tail _ hstep ih => exact ih.trans (h.grows _ _ hstep)

/-- **Runs are accountable** when steps are: the invariant holds at the end, or somebody is
to blame. The induction is along the run; an event found stays in the log. -/
theorem Accountable.run (h : Accountable step log good safe blamed) {s s' : σ}
    (hrun : Relation.ReflTransGen step s s') (hgood : good (log s')) (hs : safe s) :
    safe s' ∨ Logged blamed (log s) (log s') := by
  induction hrun with
  | refl => exact .inl hs
  | tail hrun hstep ih =>
    have hsuffix := h.grows _ _ hstep
    rcases ih (h.good_of_suffix _ _ hsuffix hgood) with hsafe | hlogged
    · rcases h.kept _ _ hstep hgood hsafe with hsafe' | hlogged
      · exact .inl hsafe'
      · exact .inr (hlogged.of_suffix_left (h.run_grows hrun))
    · exact .inr (hlogged.of_suffix_right hsuffix)

end Blame
