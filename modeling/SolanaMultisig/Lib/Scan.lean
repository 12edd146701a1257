import Mathlib.Data.List.Sort

/-!
# Duplicate detection by sorting

Sort a copy, then compare every entry with its right neighbour. In a sorted
list equal entries are adjacent, so the scan passes exactly when the original
list had no duplicates, and then the sorted copy is strictly increasing. As a
loop over indexes the scan stays within bounds, and its verdict is that of the
quadratic scan it replaces (`adjacentScan_sorted`).
-/

namespace Scan

universe u

variable {α : Type u} [LinearOrder α]

/-- A sorted copy. The list itself stays as it is, as its order may carry meaning. -/
def sorted (l : List α) : List α := l.insertionSort (· ≤ ·)

/-- Every entry differs from its right neighbour. The bound is `len - 1`, which truncated
subtraction makes `0` for the empty list. -/
def adjacentDistinct (l : List α) : Bool :=
  (List.range (l.length - 1)).all fun i => decide (l[i]? ≠ l[i + 1]?)

theorem sorted_perm (l : List α) : (sorted l).Perm l := List.perm_insertionSort _ l

@[simp] theorem length_sorted (l : List α) : (sorted l).length = l.length :=
  List.length_insertionSort _ l

@[simp] theorem mem_sorted {l : List α} {a : α} : a ∈ sorted l ↔ a ∈ l :=
  List.mem_insertionSort _

theorem sortedLE_sorted (l : List α) : (sorted l).SortedLE := List.sortedLE_insertionSort

/-- Sorting forgets the order: permutations have the same sorted copy, and whatever is
computed from that copy does not depend on how the list was written down. -/
theorem sorted_eq_of_perm {l m : List α} (h : l.Perm m) : sorted l = sorted m := by
  have hperm : (sorted l).Perm (sorted m) :=
    (sorted_perm l).trans (h.trans (sorted_perm m).symm)
  exact hperm.eq_of_pairwise (fun a b _ _ hab hba => le_antisymm hab hba)
    (sortedLE_sorted l).pairwise (sortedLE_sorted m).pairwise

/-- Sorting a sorted list changes nothing, so the copy can take the place of the list. -/
theorem sorted_eq_self {l : List α} (h : l.SortedLE) : sorted l = l :=
  h.pairwise.insertionSort_eq

/-- The scan over indexes is the chain condition on neighbours, for which the library of
lists has its lemmas. -/
theorem adjacentDistinct_iff {l : List α} :
    adjacentDistinct l = true ↔ l.IsChain (· ≠ ·) := by
  rw [List.isChain_iff_getElem]
  simp only [adjacentDistinct, List.all_eq_true, List.mem_range, decide_eq_true_eq]
  constructor
  · intro h i hi
    have hne := h i (by omega)
    rw [List.getElem?_eq_getElem (by omega), List.getElem?_eq_getElem hi] at hne
    exact fun he => hne (congrArg some he)
  · intro h i hi
    rw [List.getElem?_eq_getElem (by omega), List.getElem?_eq_getElem (by omega)]
    exact fun he => h i (by omega) (Option.some.inj he)

/-- On a sorted list the scan passes exactly when the list is strictly increasing:
neighbours are ordered already, and now they differ too. -/
theorem adjacentDistinct_iff_sortedLT {l : List α} (hl : l.SortedLE) :
    adjacentDistinct l = true ↔ l.SortedLT := by
  rw [adjacentDistinct_iff]
  constructor
  · intro hne
    have hlt : l.IsChain fun a b => a < b := by
      rw [List.isChain_iff_getElem] at hne ⊢
      intro i hi
      exact lt_of_le_of_ne (hl.getElem_le_getElem_of_le (Nat.le_succ i)) (hne i hi)
    exact hlt.sortedLT
  · intro hlt
    exact hlt.isChain.imp fun _ _ h => ne_of_lt h

/-- What a passed scan gives in practice, for the copy it was run on. -/
theorem sortedLT_of_adjacentDistinct {l : List α} (h : adjacentDistinct (sorted l) = true) :
    (sorted l).SortedLT :=
  (adjacentDistinct_iff_sortedLT (sortedLE_sorted l)).mp h

/-- **The scan detects duplicates.** It passes exactly when the original list has none, as
equal entries of a sorted copy are neighbours. -/
theorem adjacentDistinct_sorted_iff {l : List α} :
    adjacentDistinct (sorted l) = true ↔ l.Nodup := by
  rw [adjacentDistinct_iff_sortedLT (sortedLE_sorted l), ← (sorted_perm l).nodup_iff]
  constructor
  · exact fun h => h.nodup
  · intro h
    exact (sortedLE_sorted l).sortedLT_of_nodup h

/-! ## The loop over indexes -/

/-- Compare entries `i` and `i + 1` for one index after the other and stop at the first
equal pair. `none` stands for a read out of bounds, which would abort the program. -/
def scanPairs (l : List α) : List ℕ → Option Bool
  | [] => some true
  | i :: is =>
      match l[i]?, l[i + 1]? with
      | some a, some b => if a = b then some false else scanPairs l is
      | _, _ => none

/-- The loop over `0..len - 1` as it is written, with its reads. That these stay in bounds
is a theorem and not part of the definition. -/
def adjacentScan (l : List α) : Option Bool := scanPairs l (List.range (l.length - 1))

/-- The quadratic scan that sorting replaces: every entry is compared with every later one.
-/
def pairwiseDistinct : List α → Bool
  | [] => true
  | a :: l => (l.all fun b => decide (a ≠ b)) && pairwiseDistinct l

/-- Two positions hold the same entry. -/
def Repeats (l : List α) : Prop := ∃ (i j : ℕ) (a : α), i ≠ j ∧ l[i]? = some a ∧ l[j]? = some a

/-- While the indexes are in bounds the loop is the conjunction of its comparisons. Stopping
early changes how many are made and not the verdict. -/
theorem scanPairs_eq {l : List α} {is : List ℕ} (h : ∀ i ∈ is, i + 1 < l.length) :
    scanPairs l is = some (is.all fun i => decide (l[i]? ≠ l[i + 1]?)) := by
  induction is with
  | nil => rfl
  | cons i is ih =>
    obtain ⟨hi, his⟩ := List.forall_mem_cons.mp h
    rw [scanPairs, List.getElem?_eq_getElem (by omega : i < l.length),
      List.getElem?_eq_getElem hi, ih his, List.all_cons, List.getElem?_eq_getElem hi,
      List.getElem?_eq_getElem (by omega : i < l.length)]
    by_cases he : l[i] = l[i + 1]
    · simp [he]
    · simp [he]

/-- The bound `len - 1` keeps both reads in bounds, for the empty list and for a single
entry as well. -/
theorem adjacentScan_eq (l : List α) : adjacentScan l = some (adjacentDistinct l) :=
  scanPairs_eq fun i hi => by
    have hlt := List.mem_range.mp hi
    omega

theorem pairwiseDistinct_iff {l : List α} : pairwiseDistinct l = true ↔ l.Nodup := by
  induction l with
  | nil => simp [pairwiseDistinct]
  | cons a l ih =>
    rw [pairwiseDistinct, Bool.and_eq_true, ih, List.nodup_cons, List.all_eq_true]
    refine and_congr_left fun _ => ?_
    constructor
    · exact fun h hmem => of_decide_eq_true (h a hmem) rfl
    · intro h b hb
      refine decide_eq_true fun he => h ?_
      rwa [he]

theorem repeats_iff {β : Type u} {l : List β} : Repeats l ↔ ¬l.Nodup := by
  rw [List.nodup_iff_getElem?_ne_getElem?]
  push Not
  constructor
  · rintro ⟨i, j, a, hne, hi, hj⟩
    -- in the order of the positions
    rcases Nat.lt_or_gt_of_ne hne with hlt | hlt
    · exact ⟨i, j, hlt, (List.getElem?_eq_some_iff.mp hj).1, hi.trans hj.symm⟩
    · exact ⟨j, i, hlt, (List.getElem?_eq_some_iff.mp hi).1, hj.trans hi.symm⟩
  · rintro ⟨i, j, hlt, hj, he⟩
    refine ⟨i, j, l[j], Nat.ne_of_lt hlt, ?_, List.getElem?_eq_getElem hj⟩
    rw [he, List.getElem?_eq_getElem hj]

/-- **The sorted scan refines the quadratic one.** On every list it runs without a read out
of bounds and comes to the same verdict. -/
theorem adjacentScan_sorted (l : List α) : adjacentScan (sorted l) = some (pairwiseDistinct l) := by
  rw [adjacentScan_eq]
  have hverdict : adjacentDistinct (sorted l) = pairwiseDistinct l :=
    Bool.eq_iff_iff.mpr (adjacentDistinct_sorted_iff.trans pairwiseDistinct_iff.symm)
  rw [hverdict]

/-- It rejects exactly the lists with a repeated entry, so a rejection always has a cause
that can be shown. -/
theorem adjacentDistinct_sorted_eq_false_iff {l : List α} :
    adjacentDistinct (sorted l) = false ↔ Repeats l := by
  rw [repeats_iff, ← adjacentDistinct_sorted_iff, Bool.not_eq_true]

end Scan
