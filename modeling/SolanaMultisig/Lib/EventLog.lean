import Mathlib.Data.List.Basic
import Mathlib.Data.List.Count
import Mathlib.Data.List.Range

/-!
# Event logs

A log is a list of events, the newest first. `ok h e` says that `e` may be
appended to the log `h`; a log is `Legal` when every event was allowed by the
events older than it. A rule of `ok` that looks at the past thus becomes a fact
about every legal log (`Legal.ok_of_split`), and three patterns of such rules
are packaged here: an event that may happen only once (`Legal.countP_le_one`),
events that number themselves (`Legal.numbers_eq_range`), and a relation between
states that every event respects (`Legal.related`).
-/

namespace EventLog

universe u v

variable {ε : Type u} {σ : Type v} {ok : List ε → ε → Prop}

/-- Every event was allowed by the events before it. The newest event is the head of the
list, so the induction goes back in time. -/
inductive Legal (ok : List ε → ε → Prop) : List ε → Prop
  /-- nothing happened yet -/
  | nil : Legal ok []
  /-- one more event -/
  | cons {h : List ε} {e : ε} : Legal ok h → ok h e → Legal ok (e :: h)

theorem Legal.tail {e : ε} {h : List ε} (hl : Legal ok (e :: h)) : Legal ok h := by
  cases hl with
  | cons hl _ => exact hl

theorem Legal.head {e : ε} {h : List ε} (hl : Legal ok (e :: h)) : ok h e := by
  cases hl with
  | cons _ he => exact he

/-- What happened first is legal on its own. -/
theorem Legal.of_append {later earlier : List ε} (hl : Legal ok (later ++ earlier)) :
    Legal ok earlier := by
  induction later with
  | nil => exact hl
  | cons e later ih => exact ih hl.tail

/-- An event in the middle of a legal log was allowed when it happened. -/
theorem Legal.ok_of_split {later earlier : List ε} {e : ε}
    (hl : Legal ok (later ++ e :: earlier)) : ok earlier e :=
  hl.of_append.head

/-- An event that is refused once one of its kind is in the log happens at most once. -/
theorem Legal.countP_le_one {p : ε → Bool}
    (honce : ∀ h e, Legal ok h → ok h e → p e = true → ∀ x ∈ h, p x = false) {h : List ε}
    (hl : Legal ok h) : h.countP p ≤ 1 := by
  induction hl with
  | nil => exact Nat.zero_le 1
  | @cons h e hl he ih =>
    cases hp : p e with
    | false =>
      rw [List.countP_cons_of_neg (by simp [hp])]
      exact ih
    | true =>
      have hzero : h.countP p = 0 :=
        List.countP_eq_zero.mpr fun x hx => by simp [honce h e hl he hp x hx]
      rw [List.countP_cons_of_pos hp, hzero]

/-- Events that each carry the number of earlier ones plus one are numbered
`1, 2, 3, …` without gaps or repetitions. -/
theorem Legal.numbers_eq_range {number : ε → Option ℕ}
    (hnext : ∀ h e, Legal ok h → ok h e →
      ∀ i, number e = some i → i = (h.filterMap number).length + 1)
    {h : List ε} (hl : Legal ok h) :
    (h.filterMap number).reverse = List.range' 1 (h.filterMap number).length := by
  induction hl with
  | nil => rfl
  | @cons h e hl he ih =>
    cases hn : number e with
    | none =>
      rw [List.filterMap_cons_none hn]
      exact ih
    | some i =>
      rw [List.filterMap_cons_some hn, List.reverse_cons, ih, List.length_cons,
        List.range'_concat, hnext h e hl he i hn]
      simp [Nat.add_comm]

/-- A relation that every event respects relates the state before to the state
after. -/
theorem Legal.related (view : List ε → σ) (r : σ → σ → Prop) (hrefl : ∀ s, r s s)
    (htrans : ∀ s t w, r s t → r t w → r s w)
    (hstep : ∀ h e, Legal ok h → ok h e → r (view h) (view (e :: h)))
    {later earlier : List ε} (hl : Legal ok (later ++ earlier)) :
    r (view earlier) (view (later ++ earlier)) := by
  induction later with
  | nil => exact hrefl _
  | cons e later ih =>
    exact htrans _ _ _ (ih hl.tail) (hstep _ e hl.tail hl.head)

end EventLog
