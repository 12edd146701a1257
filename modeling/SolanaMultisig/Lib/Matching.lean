import Mathlib.Data.List.Perm.Basic
import Mathlib.Data.List.Forall2

/-!
# First-fit matching

Two lists are matched greedily: each item takes the first entry of a pool that
fits and is not taken yet (`firstFit`). The method can miss a matching that
exists, but what it finds is one: when no item is left over and no entry is, the
pool is a rearrangement that fits the items one by one (`perm_of_firstFit`). It
finds one in every order of the two lists exactly when a choice never matters: any
two items that fit a common entry fit the same entries (`firstFit_complete_iff`).
-/

namespace Matching

universe u v

variable {α : Type u} {β : Type v}

/-- Take the first free entry that satisfies `p`. It is marked and stays in the pool, so
that the positions of the others do not change. -/
def take (p : α → Bool) : List (α × Bool) → Option (List (α × Bool))
  | [] => none
  | (a, used) :: pool =>
      if !used && p a then some ((a, true) :: pool)
      else (take p pool).map ((a, used) :: ·)

/-- Let every item take an entry, in the order of the items; gives the items that found none
and the pool afterwards. A choice that was made is never revised. -/
def firstFit (fits : β → α → Bool) : List β → List (α × Bool) → List β × List (α × Bool)
  | [], pool => ([], pool)
  | b :: bs, pool =>
      match take (fits b) pool with
      | some pool' => firstFit fits bs pool'
      | none =>
          let rest := firstFit fits bs pool
          (b :: rest.1, rest.2)

/-- The entries nobody took, in the order of the pool. At the end they are what was there
and not asked for. -/
def unused (pool : List (α × Bool)) : List α :=
  (pool.filter fun entry => !entry.2).map Prod.fst

@[simp] theorem unused_cons_true (a : α) (pool : List (α × Bool)) :
    unused ((a, true) :: pool) = unused pool := by
  simp [unused]

@[simp] theorem unused_cons_false (a : α) (pool : List (α × Bool)) :
    unused ((a, false) :: pool) = a :: unused pool := by
  simp [unused]

/-- In a pool nobody has touched every entry is free, so a run starts with all of them. -/
theorem unused_fresh (as : List α) : unused (as.map fun a => (a, false)) = as := by
  induction as with
  | nil => rfl
  | cons a as ih => simp [ih]

/-- Taking removes one fitting entry from the free ones and changes nothing else. Up to the
order, the free entries are the one taken and those that are left. -/
theorem perm_of_take {p : α → Bool} {pool pool' : List (α × Bool)}
    (h : take p pool = some pool') :
    ∃ a, p a = true ∧ (unused pool).Perm (a :: unused pool') := by
  induction pool generalizing pool' with
  | nil => cases h
  | cons entry pool ih =>
    obtain ⟨a, used⟩ := entry
    rw [take] at h
    split at h
    · rename_i hfits
      obtain ⟨hfree, hp⟩ := Bool.and_eq_true_iff.mp hfits
      cases h
      cases used with
      | true => cases hfree
      | false => exact ⟨a, hp, by simp⟩
    · obtain ⟨rest, hrest, rfl⟩ := Option.map_eq_some_iff.mp h
      obtain ⟨b, hb, hperm⟩ := ih hrest
      cases used with
      | true => exact ⟨b, hb, by simpa using hperm⟩
      | false =>
        refine ⟨b, hb, ?_⟩
        rw [unused_cons_false, unused_cons_false]
        exact (hperm.cons a).trans (.swap b a _)

/-- **What first fit finds is a matching.** With nothing left over on either side, the free
entries can be put in the order of the items they fit. -/
theorem perm_of_firstFit {fits : β → α → Bool} {bs : List β} {pool pool' : List (α × Bool)}
    (h : firstFit fits bs pool = ([], pool')) (hpool : unused pool' = []) :
    ∃ as, as.Perm (unused pool) ∧ List.Forall₂ (fun b a => fits b a = true) bs as := by
  induction bs generalizing pool with
  | nil =>
    cases h
    exact ⟨[], by rw [hpool], .nil⟩
  | cons b bs ih =>
    rw [firstFit] at h
    split at h
    · rename_i rest htake
      obtain ⟨a, ha, hperm⟩ := perm_of_take htake
      obtain ⟨as, has, hfits⟩ := ih h
      exact ⟨a :: as, (has.cons a).trans hperm.symm, .cons ha hfits⟩
    · cases congrArg Prod.fst h

/-! ## When a matching is found -/

/-- The items can be paired off with the entries, each item with one that fits it. It is
what a matching means, without a method to find one. -/
def Paired (fits : β → α → Bool) (bs : List β) (as : List α) : Prop :=
  ∃ as', as'.Perm as ∧ List.Forall₂ (fun b a => fits b a = true) bs as'

/-- Items that fit a common entry fit the same entries. Then the pairs that fit fall into
blocks, and within a block it is all the same which entry an item takes. -/
def Rectangular (fits : β → α → Bool) (bs : List β) (as : List α) : Prop :=
  ∀ b ∈ bs, ∀ b' ∈ bs, ∀ a ∈ as, ∀ a' ∈ as,
    fits b a = true → fits b' a = true → fits b' a' = true → fits b a' = true

/-- First fit leaves no item and no entry over, starting from a pool nobody has touched. -/
def Complete (fits : β → α → Bool) (bs : List β) (as : List α) : Prop :=
  (firstFit fits bs (as.map fun a => (a, false))).1 = [] ∧
    unused (firstFit fits bs (as.map fun a => (a, false))).2 = []

instance [DecidableEq α] [DecidableEq β] (fits : β → α → Bool) (bs : List β) (as : List α) :
    Decidable (Complete fits bs as) :=
  inferInstanceAs (Decidable (_ ∧ _))

variable {fits : β → α → Bool}

/-- A list can be rearranged so that a given entry of it stands in front. -/
theorem exists_perm_cons {γ : Type*} {c : γ} {l : List γ} (h : c ∈ l) :
    ∃ l', l.Perm (c :: l') := by
  obtain ⟨s, t, rfl⟩ := List.append_of_mem h
  exact ⟨s ++ t, List.perm_middle⟩

theorem Paired.perm_right {bs : List β} {as as' : List α} (h : Paired fits bs as)
    (hperm : as.Perm as') : Paired fits bs as' := by
  obtain ⟨cs, hcs, hfits⟩ := h
  exact ⟨cs, hcs.trans hperm, hfits⟩

theorem Paired.perm_left {bs bs' : List β} {as : List α} (h : Paired fits bs as)
    (hperm : bs'.Perm bs) : Paired fits bs' as := by
  obtain ⟨cs, hcs, hfits⟩ := h
  obtain ⟨ds, hds, hp⟩ := List.perm_comp_forall₂ hperm hfits
  exact ⟨ds, hp.trans hcs, hds⟩

theorem Paired.cons {b : β} {bs : List β} {a : α} {as : List α} (h : Paired fits bs as)
    (hba : fits b a = true) : Paired fits (b :: bs) (a :: as) := by
  obtain ⟨cs, hcs, hfits⟩ := h
  exact ⟨a :: cs, hcs.cons a, .cons hba hfits⟩

/-- The first item has its entry, and the rest are paired off with the rest. -/
theorem Paired.of_cons {b : β} {bs : List β} {as : List α} (h : Paired fits (b :: bs) as) :
    ∃ a as', fits b a = true ∧ as.Perm (a :: as') ∧ Paired fits bs as' := by
  obtain ⟨cs, hcs, hfits⟩ := h
  cases hfits with
  | @cons _ a _ as' hba hrest => exact ⟨a, as', hba, hcs.symm, as', .refl _, hrest⟩

/-- Without items there are no entries either, as nothing may be left over. -/
theorem Paired.nil_left {as : List α} (h : Paired fits [] as) : as = [] := by
  obtain ⟨cs, hcs, hfits⟩ := h
  cases hfits
  exact List.nil_perm.mp hcs

/-- The item that is paired with a given entry, and the rest paired off without the two. -/
theorem Paired.of_mem {bs : List β} {a : α} {as : List α} (h : Paired fits bs (a :: as)) :
    ∃ b bs', fits b a = true ∧ bs.Perm (b :: bs') ∧ Paired fits bs' as := by
  obtain ⟨cs, hcs, hfits⟩ := h
  obtain ⟨ds, hds, hp⟩ := List.perm_comp_forall₂ hcs.symm hfits.flip
  cases hds with
  | @cons _ b _ bs' hba hrest => exact ⟨b, bs', hba, hp.symm, as, .refl _, hrest.flip⟩

/-- The condition is about pairs of items and entries, so fewer of them satisfy it as well.
-/
theorem Rectangular.mono {bs bs' : List β} {as as' : List α} (h : Rectangular fits bs as)
    (hbs : bs' ⊆ bs) (has : as' ⊆ as) : Rectangular fits bs' as' :=
  fun b hb b' hb' a ha a' ha' => h b (hbs hb) b' (hbs hb') a (has ha) a' (has ha')

/-- **The exchange argument.** What an item takes it could have been paired with: its
partner goes to whoever was paired with the entry taken, and fits there as choices do not
matter. -/
theorem Paired.swap {b : β} {bs : List β} {a : α} {as : List α}
    (h : Paired fits (b :: bs) (a :: as)) (hrect : Rectangular fits (b :: bs) (a :: as))
    (hba : fits b a = true) : Paired fits bs as := by
  obtain ⟨c, rest, hbc, hperm, hpaired⟩ := h.of_cons
  have hc : c ∈ a :: as := hperm.mem_iff.mpr List.mem_cons_self
  by_cases hca : c = a
  · subst hca
    exact hpaired.perm_right hperm.symm.cons_inv
  · -- `a` was the partner of some other item, which fits `c` as well
    have ha : a ∈ rest := by
      have hmem := hperm.mem_iff.mp (List.mem_cons_self (a := a))
      exact (List.mem_cons.mp hmem).resolve_left (Ne.symm hca)
    obtain ⟨rest', hrest⟩ := exists_perm_cons ha
    obtain ⟨b', bs', hba', hbs, hpaired'⟩ := (hpaired.perm_right hrest).of_mem
    have hb' : b' ∈ b :: bs := List.mem_cons_of_mem _ (hbs.mem_iff.mpr List.mem_cons_self)
    have hbc' : fits b' c = true :=
      hrect b' hb' b List.mem_cons_self a List.mem_cons_self c hc hba' hba hbc
    have has : (c :: rest').Perm as := by
      refine List.Perm.cons_inv (a := a) ?_
      exact ((List.Perm.swap c a rest').trans (hrest.symm.cons c)).trans hperm.symm
    exact ((hpaired'.cons hbc').perm_left hbs).perm_right has

/-- An item that fits a free entry takes one, though perhaps another one that comes first.
-/
theorem take_isSome {p : α → Bool} {pool : List (α × Bool)} {a : α} (ha : a ∈ unused pool)
    (hp : p a = true) : ∃ pool', take p pool = some pool' := by
  induction pool with
  | nil => cases ha
  | cons entry pool ih =>
    obtain ⟨c, used⟩ := entry
    rw [take]
    split
    · exact ⟨_, rfl⟩
    · rename_i hnot
      cases used with
      | true =>
        obtain ⟨pool', htake⟩ := ih (by simpa using ha)
        exact ⟨_, by rw [htake]; rfl⟩
      | false =>
        have hne : a ≠ c := by
          rintro rfl
          exact hnot (by simpa using hp)
        rw [unused_cons_false] at ha
        obtain ⟨pool', htake⟩ := ih ((List.mem_cons.mp ha).resolve_left hne)
        exact ⟨_, by rw [htake]; rfl⟩

/-- **Where choices do not matter, first fit finds the matching.** The induction is on the
items: the first one takes some entry, and by the exchange argument the rest are still
paired off with what is free. -/
theorem firstFit_of_rectangular {bs : List β} {pool : List (α × Bool)}
    (h : Paired fits bs (unused pool)) (hrect : Rectangular fits bs (unused pool)) :
    (firstFit fits bs pool).1 = [] ∧ unused (firstFit fits bs pool).2 = [] := by
  induction bs generalizing pool with
  | nil => exact ⟨rfl, h.nil_left⟩
  | cons b bs ih =>
    obtain ⟨c, rest, hbc, hperm, -⟩ := h.of_cons
    obtain ⟨pool', htake⟩ := take_isSome (hperm.mem_iff.mpr List.mem_cons_self) hbc
    obtain ⟨a, hba, hpool⟩ := perm_of_take htake
    have hrect' : Rectangular fits (b :: bs) (a :: unused pool') :=
      hrect.mono (List.Subset.refl _) hpool.symm.subset
    simp only [firstFit, htake]
    exact ih ((h.perm_right hpool).swap hrect' hba)
      (hrect'.mono (List.subset_cons_self _ _) (List.subset_cons_self _ _))

/-- Entries that are taken are passed over, so a pool that starts with such entries is
searched as if they were not there. -/
theorem take_append {p : α → Bool} {taken pool : List (α × Bool)}
    (htaken : ∀ entry ∈ taken, entry.2 = true) :
    take p (taken ++ pool) = (take p pool).map (taken ++ ·) := by
  induction taken with
  | nil => simp
  | cons entry taken ih =>
    obtain ⟨a, used⟩ := entry
    obtain ⟨hused, hrest⟩ := List.forall_mem_cons.mp htaken
    obtain rfl : used = true := hused
    simp [take, ih hrest, Function.comp_def]

/-- Items listed in the order of entries they fit take exactly these entries, one after the
other, and the run goes on with the items and the entries behind them. -/
theorem firstFit_of_forall₂ {bs : List β} {as : List α}
    (h : List.Forall₂ (fun b a => fits b a = true) bs as) (rest : List β)
    (taken pool : List (α × Bool)) (htaken : ∀ entry ∈ taken, entry.2 = true) :
    firstFit fits (bs ++ rest) (taken ++ (as.map (fun a => (a, false)) ++ pool)) =
      firstFit fits rest (taken ++ (as.map (fun a => (a, true)) ++ pool)) := by
  induction h generalizing taken with
  | nil => rfl
  | @cons b a bs as hba _ ih =>
    have htake : take (fits b) (taken ++ ((a :: as).map (fun a => (a, false)) ++ pool)) =
        some (taken ++ [(a, true)] ++ (as.map (fun a => (a, false)) ++ pool)) := by
      simp [take_append htaken, take, hba]
    have htaken' : ∀ entry ∈ taken ++ [(a, true)], entry.2 = true := by
      simpa using htaken
    rw [List.cons_append, firstFit, htake]
    simp only
    rw [ih _ htaken']
    simp

theorem Complete.paired {bs : List β} {as : List α} (h : Complete fits bs as) :
    Paired fits bs as := by
  obtain ⟨as', hperm, hfits⟩ := perm_of_firstFit (Prod.ext h.1 rfl) h.2
  rw [unused_fresh] at hperm
  exact ⟨as', hperm, hfits⟩

theorem Paired.complete {bs : List β} {as : List α} (h : Paired fits bs as)
    (hrect : Rectangular fits bs as) : Complete fits bs as :=
  firstFit_of_rectangular ((unused_fresh as).symm ▸ h) ((unused_fresh as).symm ▸ hrect)

/-- With the entries of a matching taken, an item is left over when what is free does not
fit it. This is how a bad choice is forced: the item before it takes the entry it needed. -/
theorem not_complete_append {bs : List β} {as : List α} {b b' : β} {a a' : α}
    (h : List.Forall₂ (fun b a => fits b a = true) bs as) (hfit : fits b' a = true)
    (hba' : ¬fits b a' = true) : ¬Complete fits (bs ++ [b', b]) (as ++ [a, a']) := by
  rintro ⟨hleft, -⟩
  have hrun := firstFit_of_forall₂ h [b', b] [] [(a, false), (a', false)] (by simp)
  have htaken : ∀ entry ∈ as.map (fun a => (a, true)), entry.2 = true := by simp
  rw [List.map_append] at hleft
  change (firstFit fits (bs ++ [b', b]) ([] ++ (as.map (fun a => (a, false)) ++
    [(a, false), (a', false)]))).1 = [] at hleft
  rw [hrun] at hleft
  simp [firstFit, take_append htaken, take, hfit, hba'] at hleft

/-- With two items and their entries in front, first fit takes these and pairs off the rest.
-/
theorem Complete.paired_tail {bs : List β} {as : List α} {b b' : β} {a a' : α}
    (h : Complete fits (b :: b' :: bs) (a :: a' :: as)) (hba : fits b a = true)
    (hfit' : fits b' a' = true) : Paired fits bs as := by
  have hrun := firstFit_of_forall₂ (.cons hba (.cons hfit' .nil)) bs []
    (as.map fun a => (a, false)) (by simp)
  obtain ⟨hleft, hunused⟩ := h
  change (firstFit fits ([b, b'] ++ bs) ([] ++ ([a, a'].map (fun a => (a, false)) ++
    as.map fun a => (a, false)))).1 = [] at hleft
  change unused (firstFit fits ([b, b'] ++ bs) ([] ++ ([a, a'].map (fun a => (a, false)) ++
    as.map fun a => (a, false)))).2 = [] at hunused
  rw [hrun] at hleft hunused
  obtain ⟨as', hperm, hfits⟩ := perm_of_firstFit (Prod.ext hleft rfl) hunused
  rw [show unused ([] ++ ([a, a'].map (fun a => (a, true)) ++ as.map fun a => (a, false))) = as by
    simp [unused_fresh]] at hperm
  exact ⟨as', hperm, hfits⟩

/-- **When first fit decides the matching problem.** In every order of the two lists it
leaves nothing over exactly when a matching exists, if and only if there is no matching or
choices do not matter. In the other direction an order is built in which first fit makes the
bad choice. -/
theorem firstFit_complete_iff {bs : List β} {as : List α} :
    (∀ bs' as', bs'.Perm bs → as'.Perm as → (Complete fits bs' as' ↔ Paired fits bs as)) ↔
      (Paired fits bs as → Rectangular fits bs as) := by
  constructor
  · intro h hpaired b hb b' hb' a ha a' ha' hba hfit hfit'
    by_contra hba'
    -- the two items and the two entries differ, and can be put in front
    have hbb : b' ≠ b := by
      rintro rfl
      exact hba' hfit'
    have haa : a' ≠ a := by
      rintro rfl
      exact hba' hba
    obtain ⟨bs₀, hbs₀⟩ := exists_perm_cons hb
    obtain ⟨bs₁, hbs₁⟩ :=
      exists_perm_cons ((List.mem_cons.mp (hbs₀.mem_iff.mp hb')).resolve_left hbb)
    obtain ⟨as₀, has₀⟩ := exists_perm_cons ha
    obtain ⟨as₁, has₁⟩ :=
      exists_perm_cons ((List.mem_cons.mp (has₀.mem_iff.mp ha')).resolve_left haa)
    have hbs : bs.Perm (b :: b' :: bs₁) := hbs₀.trans (hbs₁.cons b)
    have has : as.Perm (a :: a' :: as₁) := has₀.trans (has₁.cons a)
    by_cases hrest : Paired fits bs₁ as₁
    · -- a matching of the rest comes first; then `b'` takes the entry `b` needs
      obtain ⟨as₂, has₂, hfits⟩ := hrest
      refine not_complete_append hfits hfit hba' ((h _ _ ?_ ?_).mpr hpaired)
      · refine List.perm_append_comm.trans (List.Perm.trans ?_ hbs.symm)
        exact List.Perm.swap b b' bs₁
      · refine List.perm_append_comm.trans (List.Perm.trans ?_ has.symm)
        exact (has₂.cons a').cons a
    · -- the two items come first; they take the two entries, and the rest is stuck
      exact hrest (((h _ _ hbs.symm has.symm).mpr hpaired).paired_tail hba hfit')
  · intro h bs' as' hbs has
    constructor
    · intro hcomplete
      exact (hcomplete.paired.perm_left hbs.symm).perm_right has
    · intro hpaired
      refine ((hpaired.perm_left hbs).perm_right has.symm).complete ?_
      exact (h hpaired).mono hbs.subset has.subset

end Matching
