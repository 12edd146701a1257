import Mathlib.Algebra.BigOperators.Ring.Finset
import Mathlib.Algebra.Order.BigOperators.Group.Finset
import Mathlib.Logic.Function.Basic

/-!
# Moving funds

Balances are numbers at keys. `Moves S spender b b'` says that between `b` and `b'`
funds were only moved: between the keys of `S`, none of them made or lost, and taken
only from keys that `spender` allows. The basic move is a transfer
(`Moves.transfer`); moves compose (`Moves.trans`) and keep the supply (`Moves.bounded`).
-/

namespace Conservation

universe u

variable {κ : Type u} {S T : Finset κ} {spender spender' : κ → Prop}
  {b b' b'' : κ → ℕ}

/-- Only moved: within `S`, and taken from a `spender`. The total is over the keys of `S`, a
finite set, as balances may be given for infinitely many keys. -/
structure Moves (S : Finset κ) (spender : κ → Prop) (b b' : κ → ℕ) : Prop where
  /-- nothing is made or lost -/
  total_eq : ∑ k ∈ S, b' k = ∑ k ∈ S, b k
  /-- the rest is left alone -/
  others : ∀ k, k ∉ S → b' k = b k
  /-- who has less was allowed to spend -/
  spent : ∀ k, b' k < b k → spender k

theorem Moves.refl (S : Finset κ) (spender : κ → Prop) (b : κ → ℕ) : Moves S spender b b :=
  ⟨rfl, fun _ _ => rfl, fun _ h => absurd h (lt_irrefl _)⟩

theorem Moves.of_eq (h : b' = b) : Moves S spender b b' := h ▸ .refl S spender b'

/-- Moves compose, so a program is followed operation by operation with one `S` and one
`spender`. -/
theorem Moves.trans (h : Moves S spender b b') (h' : Moves S spender b' b'') :
    Moves S spender b b'' where
  total_eq := h'.total_eq.trans h.total_eq
  others := fun k hk => (h'.others k hk).trans (h.others k hk)
  spent := by
    intro k hk
    by_cases hfirst : b' k < b k
    · exact h.spent k hfirst
    · exact h'.spent k (lt_of_lt_of_le hk (not_lt.mp hfirst))

/-- A key that may not spend loses nothing: the third clause, read the other way. -/
theorem Moves.le_of_not_spender (h : Moves S spender b b') {k : κ} (hk : ¬spender k) :
    b k ≤ b' k :=
  not_lt.mp fun hlt => hk (h.spent k hlt)

section Keys

variable [DecidableEq κ]

/-- More keys may be looked at, and more may be allowed to spend. -/
theorem Moves.mono (h : Moves S spender b b') (hS : S ⊆ T)
    (hspender : ∀ k, spender k → spender' k) : Moves T spender' b b' where
  total_eq := by
    have hrest : ∑ k ∈ T \ S, b' k = ∑ k ∈ T \ S, b k :=
      Finset.sum_congr rfl fun k hk => h.others k (Finset.mem_sdiff.mp hk).2
    rw [← Finset.sum_sdiff hS, ← Finset.sum_sdiff hS (f := b), hrest, h.total_eq]
  others := fun k hk => h.others k fun hmem => hk (hS hmem)
  spent := fun k hk => hspender k (h.spent k hk)

/-! ## Supply -/

/-- All balances together are at most `n`, said of every finite set of keys. -/
def Bounded (n : ℕ) (b : κ → ℕ) : Prop := ∀ T : Finset κ, ∑ k ∈ T, b k ≤ n

/-- Moving funds adds none to the supply. -/
theorem Moves.bounded {n : ℕ} (h : Moves S spender b b') (hb : Bounded n b) : Bounded n b' := by
  intro T
  calc ∑ k ∈ T, b' k ≤ ∑ k ∈ T ∪ S, b' k :=
        Finset.sum_le_sum_of_subset Finset.subset_union_left
    _ = ∑ k ∈ T ∪ S, b k := (h.mono Finset.subset_union_right fun _ hk => hk).total_eq
    _ ≤ n := hb _

/-- Take `n` from `src` and give it to `dst`, in this order, so that a transfer to oneself
changes nothing. -/
def transfer (b : κ → ℕ) (src dst : κ) (n : ℕ) : κ → ℕ :=
  let debited := Function.update b src (b src - n)
  Function.update debited dst (debited dst + n)

theorem transfer_of_ne {src dst k : κ} (n : ℕ) (hsrc : k ≠ src) (hdst : k ≠ dst) :
    transfer b src dst n k = b k := by
  simp [transfer, hsrc, hdst]

theorem transfer_dst {src dst : κ} (n : ℕ) (hne : src ≠ dst) :
    transfer b src dst n dst = b dst + n := by
  simp [transfer, hne.symm]

/-- A total after one balance was set: the old one is taken out and the new one put in. -/
theorem total_set {k : κ} (hk : k ∈ S) (b : κ → ℕ) (n : ℕ) :
    ∑ i ∈ S, Function.update b k n i + b k = n + ∑ i ∈ S, b i := by
  have hrest := Finset.sum_erase_add S b hk
  rw [Finset.sum_update_of_mem hk, Finset.sdiff_singleton_eq_erase]
  omega

/-- **A covered transfer only moves funds.** The two keys may be the same. -/
theorem Moves.transfer {src dst : κ} {n : ℕ} (hsrc : src ∈ S) (hdst : dst ∈ S) (hn : n ≤ b src)
    (hspender : spender src) : Moves S spender b (transfer b src dst n) where
  total_eq := by
    have hdebit := total_set hsrc b (b src - n)
    have hcredit := total_set hdst (Function.update b src (b src - n))
      (Function.update b src (b src - n) dst + n)
    simp only [Conservation.transfer]
    omega
  others := fun k hk =>
    transfer_of_ne n (fun he => hk (he ▸ hsrc)) (fun he => hk (he ▸ hdst))
  spent := by
    intro k hk
    by_cases hks : k = src
    · exact hks ▸ hspender
    · -- whoever else is concerned was credited
      by_cases hkd : k = dst
      · subst hkd
        rw [transfer_dst n (Ne.symm hks)] at hk
        omega
      · rw [transfer_of_ne n hks hkd] at hk
        exact absurd hk (lt_irrefl _)

end Keys

end Conservation
