import Mathlib.Data.List.Nodup

/-!
# Maps in insertion order

A map that remembers the order in which its keys first came up, as a list of
entries: adding an entry merges it into the one with its key, or appends it. The
keys of a collection are those of its entries, each once (`nodup_keys_collect`),
and a flag that merging joins is set exactly when some entry with the key sets it
(`flag_collect`).
-/

namespace OrderedMap

universe u v

variable {κ : Type u} {α : Type v} [DecidableEq κ] {key : α → κ} {merge : α → α → α}

/-- Merge an entry into the one with its key, or append it. The merged entry stays where the
key first came up, and its position carries meaning. -/
def insert (key : α → κ) (merge : α → α → α) : List α → α → List α
  | [], a => [a]
  | b :: m, a => if key b = key a then merge b a :: m else b :: insert key merge m a

/-- Add entries one after the other to a map that may have some already. -/
def collect (key : α → κ) (merge : α → α → α) (m : List α) (as : List α) : List α :=
  as.foldl (insert key merge) m

@[simp] theorem collect_nil (m : List α) : collect key merge m [] = m := rfl

@[simp] theorem collect_cons (m : List α) (a : α) (as : List α) :
    collect key merge m (a :: as) = collect key merge (insert key merge m a) as := rfl

section Keys

variable (hkey : ∀ b a, key (merge b a) = key b)
include hkey

/-- Adding an entry adds its key at the end, unless it is there, and moves no other key. -/
theorem keys_insert (m : List α) (a : α) :
    (insert key merge m a).map key =
      if key a ∈ m.map key then m.map key else m.map key ++ [key a] := by
  induction m with
  | nil => rfl
  | cons b m ih =>
    rw [insert]
    by_cases hb : key b = key a
    · rw [if_pos hb, if_pos (by simp [hb])]
      simp [hkey]
    · have hiff : key a ∈ (b :: m).map key ↔ key a ∈ m.map key := by
        simp [Ne.symm hb]
      rw [if_neg hb, List.map_cons, ih]
      simp only [hiff]
      split <;> rfl

/-- The keys afterwards, without their order. -/
theorem mem_keys_insert {m : List α} {a : α} {k : κ} :
    k ∈ (insert key merge m a).map key ↔ k ∈ m.map key ∨ k = key a := by
  rw [keys_insert hkey]
  split
  · rename_i h
    exact ⟨Or.inl, fun hk => hk.elim id fun he => he ▸ h⟩
  · simp

/-- A key is added only where it is missing, so none comes up twice. -/
theorem nodup_keys_insert {m : List α} {a : α} (h : (m.map key).Nodup) :
    ((insert key merge m a).map key).Nodup := by
  rw [keys_insert hkey]
  split
  · exact h
  · rename_i ha
    exact List.nodup_append.mpr ⟨h, List.nodup_singleton _, fun k hk k' hk' he =>
      ha (List.mem_singleton.mp hk' ▸ he ▸ hk)⟩

/-- The keys of a collection are those it had and those of the entries added. -/
theorem mem_keys_collect {m as : List α} {k : κ} :
    k ∈ (collect key merge m as).map key ↔ k ∈ m.map key ∨ k ∈ as.map key := by
  induction as generalizing m with
  | nil => simp
  | cons a as ih =>
    rw [collect_cons, ih, mem_keys_insert hkey, List.map_cons, List.mem_cons, or_assoc]

/-- **No key is listed twice**, however often it comes up among the entries. -/
theorem nodup_keys_collect {m as : List α} (h : (m.map key).Nodup) :
    ((collect key merge m as).map key).Nodup := by
  induction as generalizing m with
  | nil => exact h
  | cons a as ih => exact ih (nodup_keys_insert hkey h)

/-- The first key stays first, whatever is merged into its entry later. -/
theorem collect_eq_cons {b : α} {m as : List α} :
    ∃ b' m', collect key merge (b :: m) as = b' :: m' ∧ key b' = key b := by
  induction as generalizing b m with
  | nil => exact ⟨b, m, rfl, rfl⟩
  | cons a as ih =>
    rw [collect_cons, insert]
    split
    · obtain ⟨b', m', he, hb'⟩ := ih (b := merge b a) (m := m)
      exact ⟨b', m', he, hb'.trans (hkey b a)⟩
    · exact ih

end Keys

/-! ## Flags -/

/-- Does some entry with this key set the flag? The list need not be a map: it may be the
entries as they come, with several for one key. -/
def flag (key : α → κ) (p : α → Bool) (m : List α) (k : κ) : Bool :=
  m.any fun a => decide (key a = k) && p a

section Flags

variable {p : α → Bool} (hkey : ∀ b a, key (merge b a) = key b)
  (hp : ∀ b a, p (merge b a) = (p b || p a))
include hkey hp

/-- One entry more sets the flag of its own key and of no other. -/
theorem flag_insert (m : List α) (a : α) (k : κ) :
    flag key p (insert key merge m a) k = (flag key p m k || flag key p [a] k) := by
  induction m with
  | nil => simp [insert, flag]
  | cons b m ih =>
    rw [insert]
    simp only [flag, List.any_cons, List.any_nil, Bool.or_false] at ih ⊢
    split
    · rename_i hb
      rw [List.any_cons, hkey, hp, ← hb]
      cases decide (key b = k) <;> cases p a <;> simp
    · rw [List.any_cons, ih, Bool.or_assoc]

/-- **A flag is set when some entry sets it**: merging joins the flags of the entries with
one key, and none is lost or made up. -/
theorem flag_collect (m as : List α) (k : κ) :
    flag key p (collect key merge m as) k = (flag key p m k || flag key p as k) := by
  induction as generalizing m with
  | nil => simp [flag]
  | cons a as ih =>
    rw [collect_cons, ih, flag_insert hkey hp, Bool.or_assoc]
    simp [flag]

end Flags

/-- In a map the flag of a key is that of its only entry. -/
theorem flag_of_mem {p : α → Bool} {m : List α} {a : α} (h : (m.map key).Nodup) (ha : a ∈ m) :
    flag key p m (key a) = p a := by
  induction m with
  | nil => cases ha
  | cons b m ih =>
    rw [List.map_cons, List.nodup_cons] at h
    simp only [flag, List.any_cons] at ih ⊢
    rcases List.mem_cons.mp ha with rfl | ha
    · have hno : m.any (fun b => decide (key b = key a) && p b) = false := by
        rw [List.any_eq_false]
        intro b hb hbad
        simp only [Bool.and_eq_true, decide_eq_true_eq] at hbad
        exact h.1 (hbad.1 ▸ List.mem_map_of_mem hb)
      simp [hno]
    · have hne : key b ≠ key a := fun he => h.1 (he ▸ List.mem_map_of_mem ha)
      simp [hne, ih h.2 ha]

end OrderedMap
