import Mathlib.Algebra.BigOperators.Group.Finset.Piecewise
import Mathlib.Algebra.BigOperators.Ring.Finset
import Mathlib.Algebra.Order.BigOperators.Group.Finset
import Mathlib.Logic.Relation

/-!
# Signed messages

Parties look at messages and sign them. A signed message can be delivered by anybody,
at any time, more than once or not at all. What is found in the system in the name of a
party is then covered by a message that was signed (`Covering.run`), and if no message
covers two items, what the items cost is at most what the messages allow
(`sum_le_allowances`).
-/

namespace Signing

universe u v w

variable {σ : Type u} {μ : Type v} {ι : Type w}

/-! ## Signing and delivering -/

/-- A system together with what was signed so far. Signed messages are never taken back, so
that list only grows. -/
structure Config (σ : Type u) (μ : Type v) where
  system : σ
  /-- the newest first -/
  signed : List μ

/-- A message is signed, or something happens to the system. What can happen depends on the
messages signed, and nobody has to deliver one of them. -/
inductive Step (accepts : σ → μ → Prop) (delivers : List μ → σ → σ → Prop) :
    Config σ μ → Config σ μ → Prop
  /-- whoever signs looks at the message and at the system -/
  | sign {s : σ} {signed : List μ} {m : μ} :
      accepts s m → Step accepts delivers ⟨s, signed⟩ ⟨s, m :: signed⟩
  /-- what can happen depends on what was signed -/
  | deliver {s s' : σ} {signed : List μ} :
      delivers signed s s' → Step accepts delivers ⟨s, signed⟩ ⟨s', signed⟩

/-- Every item found in the system is covered by a message that was signed, in the system as
it is now. -/
def Covered (found : σ → ι → Prop) (covers : μ → σ → ι → Prop) (c : Config σ μ) : Prop :=
  ∀ i, found c.system i → ∃ m ∈ c.signed, covers m c.system i

/-- What a delivery keeps: an invariant of the system, what the signers looked at (`holds`),
and what messages cover; and it adds no item that is not covered. The last two only as long
as the system is `good`. -/
structure Covering (accepts : σ → μ → Prop) (delivers : List μ → σ → σ → Prop)
    (inv good : σ → Prop) (holds : μ → σ → Prop) (found : σ → ι → Prop)
    (covers : μ → σ → ι → Prop) : Prop where
  holds_of_accepts : ∀ s m, inv s → accepts s m → holds m s
  inv_step : ∀ signed s s', delivers signed s s' → inv s → inv s'
  good_of_step : ∀ signed s s', delivers signed s s' → good s' → good s
  holds_step : ∀ signed s s' m, delivers signed s s' → holds m s → holds m s'
  covers_step : ∀ signed s s' m i, delivers signed s s' → inv s → good s' →
    covers m s i → covers m s' i
  found_step : ∀ signed s s' i, delivers signed s s' → inv s → good s' →
    (∀ m ∈ signed, holds m s) → found s' i → found s i ∨ ∃ m ∈ signed, covers m s' i

/-- A configuration as it should be: the invariant holds, what the signers looked at is
still true, and every item is covered. -/
structure Sound (inv : σ → Prop) (holds : μ → σ → Prop) (found : σ → ι → Prop)
    (covers : μ → σ → ι → Prop) (c : Config σ μ) : Prop where
  inv : inv c.system
  holds : ∀ m ∈ c.signed, holds m c.system
  covered : Covered found covers c

section Run

variable {accepts : σ → μ → Prop} {delivers : List μ → σ → σ → Prop} {inv good : σ → Prop}
  {holds : μ → σ → Prop} {found : σ → ι → Prop} {covers : μ → σ → ι → Prop} {c c' : Config σ μ}

/-- One step keeps a configuration sound. Signing adds a message whose signer looked at the
system, and a delivery is what the conditions above speak of. -/
theorem Covering.step (h : Covering accepts delivers inv good holds found covers)
    (hstep : Step accepts delivers c c') (hgood : good c'.system)
    (hc : Sound inv holds found covers c) : Sound inv holds found covers c' := by
  cases hstep with
  | @sign s signed m haccepts =>
    refine ⟨hc.inv, List.forall_mem_cons.mpr ⟨h.holds_of_accepts s m hc.inv haccepts, hc.holds⟩, ?_⟩
    intro i hi
    obtain ⟨m', hm', hcovers⟩ := hc.covered i hi
    exact ⟨m', List.mem_cons_of_mem _ hm', hcovers⟩
  | @deliver s s' signed hdelivers =>
    refine ⟨h.inv_step _ _ _ hdelivers hc.inv,
      fun m hm => h.holds_step _ _ _ m hdelivers (hc.holds m hm), ?_⟩
    intro i hi
    rcases h.found_step _ _ _ i hdelivers hc.inv hgood hc.holds hi with hold | hnew
    · obtain ⟨m, hm, hcovers⟩ := hc.covered i hold
      exact ⟨m, hm, h.covers_step _ _ _ m i hdelivers hc.inv hgood hcovers⟩
    · exact hnew

/-- **Runs cover what they add.** In a sound configuration that ends well, whatever was
found at the end is covered by a message that somebody signed on the way or before. -/
theorem Covering.run (h : Covering accepts delivers inv good holds found covers)
    (hrun : Relation.ReflTransGen (Step accepts delivers) c c') (hgood : good c'.system)
    (hc : Sound inv holds found covers c) : Sound inv holds found covers c' := by
  induction hrun with
  | refl => exact hc
  | tail _ hstep ih =>
    refine h.step hstep hgood (ih ?_)
    cases hstep with
    | sign => exact hgood
    | deliver hdelivers => exact h.good_of_step _ _ _ hdelivers hgood

end Run

/-! ## Allowances -/

/-- A sum over a list, item by item: the entries of one item are added up first. -/
theorem sum_eq_sum_fibers {ε : Type u} [DecidableEq ι] (key : ε → ι) (weight : ε → ℕ)
    {l : List ε} (items : Finset ι) (hitems : ∀ e ∈ l, key e ∈ items) :
    (l.map weight).sum = ∑ i ∈ items, ((l.filter fun e => key e = i).map weight).sum := by
  induction l with
  | nil => simp
  | cons e l ih =>
    obtain ⟨he, hl⟩ := List.forall_mem_cons.mp hitems
    have hcons : ∀ i, (((e :: l).filter fun e => key e = i).map weight).sum =
        (if key e = i then weight e else 0) + ((l.filter fun e => key e = i).map weight).sum := by
      intro i
      by_cases hi : key e = i <;> simp [hi]
    simp only [hcons, Finset.sum_add_distrib, Finset.sum_ite_eq, if_pos he]
    rw [List.map_cons, List.sum_cons, ih hl]

/-- **The items cost no more than the messages allow**, if every item is covered and no
message covers two. A message that covers no item only makes the bound larger. -/
theorem sum_le_allowances (covers : μ → ι → Prop) {cost : ι → ℕ} {allowance : μ → ℕ}
    (hunique : ∀ m i j, covers m i → covers m j → i = j)
    (hle : ∀ m i, covers m i → cost i ≤ allowance m) {signed : List μ} {items : Finset ι}
    (hcovered : ∀ i ∈ items, ∃ m ∈ signed, covers m i) :
    ∑ i ∈ items, cost i ≤ (signed.map allowance).sum := by
  classical
  induction signed generalizing items with
  | nil =>
    have hempty : items = ∅ := Finset.eq_empty_of_forall_notMem fun i hi => by
      obtain ⟨m, hm, -⟩ := hcovered i hi
      exact absurd hm List.not_mem_nil
    simp [hempty]
  | cons m signed ih =>
    rw [List.map_cons, List.sum_cons, ← Finset.sum_filter_add_sum_filter_not items (covers m)]
    refine add_le_add ?_ (ih fun i hi => ?_)
    · -- the first message covers one item, if any
      rcases (items.filter (covers m)).eq_empty_or_nonempty with hempty | ⟨i, hi⟩
      · simp [hempty]
      · have hi' := (Finset.mem_filter.mp hi).2
        have hone : items.filter (covers m) = {i} := Finset.eq_singleton_iff_unique_mem.mpr
          ⟨hi, fun j hj => hunique m j i (Finset.mem_filter.mp hj).2 hi'⟩
        rw [hone, Finset.sum_singleton]
        exact hle m i hi'
    · obtain ⟨hmem, hnot⟩ := Finset.mem_filter.mp hi
      obtain ⟨m', hm', hcovers⟩ := hcovered i hmem
      rcases List.mem_cons.mp hm' with rfl | hm'
      · exact absurd hcovers hnot
      · exact ⟨m', hm', hcovers⟩

/-- **A cost that needs the messages of several parties is allowed by each of them**, so it
is counted as often as parties are needed. -/
theorem mul_sum_le_allowances {κ : Type u} (covers : μ → ι → κ → Prop) {cost : ι → ℕ}
    {allowance : μ → ℕ}
    (hunique : ∀ m i j k l, covers m i k → covers m j l → i = j ∧ k = l)
    (hle : ∀ m i k, covers m i k → cost i ≤ allowance m) {signed : List μ} {items : Finset ι}
    (parties : ι → Finset κ) {need : ℕ} (hneed : ∀ i ∈ items, need ≤ (parties i).card)
    (hcovered : ∀ i ∈ items, ∀ k ∈ parties i, ∃ m ∈ signed, covers m i k) :
    need * ∑ i ∈ items, cost i ≤ (signed.map allowance).sum := by
  have hpairs : ∑ p ∈ items.sigma parties, cost p.1 ≤ (signed.map allowance).sum := by
    refine sum_le_allowances (fun m p => covers m p.1 p.2) ?_ ?_ ?_
    · rintro m ⟨i, k⟩ ⟨j, l⟩ hi hj
      obtain ⟨rfl, rfl⟩ := hunique m i j k l hi hj
      rfl
    · exact fun m p hp => hle m p.1 p.2 hp
    · rintro ⟨i, k⟩ hp
      obtain ⟨hi, hk⟩ := Finset.mem_sigma.mp hp
      exact hcovered i hi k hk
  refine le_trans ?_ hpairs
  rw [Finset.sum_sigma, Finset.mul_sum]
  refine Finset.sum_le_sum fun i hi => ?_
  calc need * cost i ≤ (parties i).card * cost i := Nat.mul_le_mul_right _ (hneed i hi)
    _ = ∑ _k ∈ parties i, cost i := (Finset.sum_const_nat fun _ _ => rfl).symm

end Signing
