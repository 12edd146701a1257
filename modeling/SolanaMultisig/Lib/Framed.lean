import Mathlib.Data.Finset.Piecewise
import Mathlib.Data.List.Perm.Basic

/-!
# Operations on separate parts of a store

A partial operation on a store is framed if it writes within `W` only and depends on
`K` only (`Framed`): another value elsewhere changes nothing but the value there. Framed
operations neither of which writes what the other one reads can be exchanged
(`Framed.exchange`), and a batch of them can be run in any order (`Sequence.perm`).
-/

namespace Store

universe u v w x

variable {κ : Type u} [DecidableEq κ] {α : Type v} {β : Type w}

/-! ## Two operations -/

/-- **Framed operations.** The operation `R` relates the store before, the result and the
store after. It is framed when it writes within `W` only and depends on `K` only: with
another value at a key outside of `K` it does the same and leaves that value alone. -/
structure Framed (K W : Finset κ) (R : (κ → α) → β → (κ → α) → Prop) : Prop where
  writes : ∀ {l r l'}, R l r l' → ∀ k, k ∉ W → l' k = l k
  ignores : ∀ {l r l'}, R l r l' → ∀ k, k ∉ K → ∀ a,
    R (Function.update l k a) r (Function.update l' k a)
  subset : W ⊆ K

section Framed

variable {K W K' W' S : Finset κ} {R R' : (κ → α) → β → (κ → α) → Prop} {l l₁ l₂ : κ → α}
  {r r' : β}

/-- Larger parts frame the operation as well, as long as it still writes within what it
reads. A batch is framed by the parts of its members joined in this way. -/
theorem Framed.mono (h : Framed K W R) (hK : K ⊆ K') (hW : W ⊆ W') (hsubset : W' ⊆ K') :
    Framed K' W' R where
  writes := fun hR k hk => h.writes hR k fun hmem => hk (hW hmem)
  ignores := fun hR k hk a => h.ignores hR k (fun hmem => hk (hK hmem)) a
  subset := hsubset

/-- Other values in a whole part of the store that is not concerned. The structure itself
speaks of one key at a time, and the induction here goes through the finite set of keys. -/
theorem Framed.piecewise (h : Framed K W R) (hS : Disjoint S K) (hR : R l r l₁) (g : κ → α) :
    R (S.piecewise g l) r (S.piecewise g l₁) := by
  induction S using Finset.induction with
  | empty => simpa using hR
  | insert k S hk ih =>
    obtain ⟨hkK, hS⟩ := Finset.disjoint_insert_left.mp hS
    rw [Finset.piecewise_insert, Finset.piecewise_insert]
    exact h.ignores (ih hS) k hkK (g k)

/-- **Exchange.** If neither operation writes what the other one reads, the second one can
go first: both have the results they had, and the store is the same in the end. Only the
store in between differs. -/
theorem Framed.exchange (h : Framed K W R) (h' : Framed K' W' R') (hK : Disjoint W K')
    (hK' : Disjoint W' K) (hR : R l r l₁) (hR' : R' l₁ r' l₂) :
    ∃ l', R' l r' l' ∧ R l' r l₂ := by
  have hback : W.piecewise l l₁ = l := by
    ext k
    by_cases hk : k ∈ W
    · simp [hk]
    · simp [hk, h.writes hR k hk]
  have hfirst := h'.piecewise hK hR' l
  rw [hback] at hfirst
  refine ⟨_, hfirst, ?_⟩
  have hsecond := h.piecewise hK' hR l₂
  have hend : W'.piecewise l₂ l₁ = l₂ := by
    ext k
    by_cases hk : k ∈ W'
    · simp [hk]
    · simp [hk, h'.writes hR' k hk]
  have hmiddle : W'.piecewise l₂ l = W.piecewise l l₂ := by
    ext k
    by_cases hk : k ∈ W'
    · have hkW : k ∉ W := fun hmem => Finset.disjoint_left.mp hK hmem (h'.subset hk)
      simp [hk, hkW]
    · by_cases hkW : k ∈ W
      · simp [hk, hkW]
      · simp [hk, hkW, h'.writes hR' k hk, h.writes hR k hkW]
  rwa [hend, hmiddle] at hsecond

end Framed

/-! ## Batches -/

variable {ι : Type x}

/-- The operations of the batch run one after the other, each with the result listed beside
it. Keeping the results in the list is what lets a rearranged batch say that every operation
still has the result it had. -/
inductive Sequence (R : ι → (κ → α) → β → (κ → α) → Prop) :
    (κ → α) → List (ι × β) → (κ → α) → Prop
  | nil {l : κ → α} : Sequence R l [] l
  | cons {l l₁ l' : κ → α} {i : ι} {r : β} {xs : List (ι × β)} :
      R i l r l₁ → Sequence R l₁ xs l' → Sequence R l ((i, r) :: xs) l'

/-- A batch of framed operations is framed itself, by the parts its members share. So a
batch can be exchanged with an operation that has nothing to do with it. -/
theorem Framed.sequence {R : ι → (κ → α) → β → (κ → α) → Prop} {K W : Finset κ} {is : List ι}
    (h : ∀ i ∈ is, Framed K W (R i)) (hsubset : W ⊆ K) :
    Framed K W fun l (xs : List (ι × β)) l' => xs.map Prod.fst = is ∧ Sequence R l xs l' where
  writes := by
    rintro l xs l' ⟨rfl, hrun⟩ k hk
    induction hrun with
    | nil => rfl
    | cons hR _ ih =>
      obtain ⟨hi, hrest⟩ := List.forall_mem_cons.mp h
      exact (ih hrest).trans (hi.writes hR k hk)
  ignores := by
    rintro l xs l' ⟨rfl, hrun⟩ k hk a
    refine ⟨rfl, ?_⟩
    induction hrun with
    | nil => exact .nil
    | cons hR _ ih =>
      obtain ⟨hi, hrest⟩ := List.forall_mem_cons.mp h
      exact .cons (hi.ignores hR k hk a) (ih hrest)
  subset := hsubset

/-- Neither operation writes what the other one reads. Both may read the same keys, and then
the order between them does not matter either. -/
def Independent (K W : ι → Finset κ) (i j : ι) : Prop := Disjoint (W i) (K j) ∧ Disjoint (W j) (K i)

omit [DecidableEq κ] in
/-- The relation does not tell the two operations apart, which the induction over
permutations needs where it exchanges two neighbours. -/
theorem Independent.symm {K W : ι → Finset κ} {i j : ι} (h : Independent K W i j) :
    Independent K W j i :=
  ⟨h.2, h.1⟩

/-- **Any order.** A batch of independent operations can be run in any order, with the same
results and the same store in the end. The induction is on the permutation, and its only
step with an argument in it is the exchange of two neighbours. -/
theorem Sequence.perm {R : ι → (κ → α) → β → (κ → α) → Prop} {K W : ι → Finset κ} {l l' : κ → α}
    {xs ys : List (ι × β)} (hframed : ∀ i, Framed (K i) (W i) (R i))
    (hrun : Sequence R l xs l') (hperm : xs.Perm ys)
    (hind : xs.Pairwise fun x y => Independent K W x.1 y.1) :
    Sequence R l ys l' := by
  induction hperm generalizing l with
  | nil => exact hrun
  | cons x _ ih =>
    cases hrun with
    | cons hR hrest => exact .cons hR (ih hrest (List.pairwise_cons.mp hind).2)
  | swap x y =>
    cases hrun with
    | cons hR hrest =>
      cases hrest with
      | cons hR' hrest =>
        obtain ⟨hxy, hyx⟩ := (List.pairwise_cons.mp hind).1 _ List.mem_cons_self
        obtain ⟨l₁, hfirst, hsecond⟩ := (hframed _).exchange (hframed _) hxy hyx hR hR'
        exact .cons hfirst (.cons hsecond hrest)
  | trans hxy _ ih ih' =>
    exact ih' (ih hrun hind) (hind.perm hxy fun h => h.symm)

end Store
