import Mathlib.Data.List.Forall2

/-!
# Guarded computations

Checks that fail with an error and loops of such checks, in the `Except` monad,
with the inversion lemmas that take a successful run apart: what succeeded must
have passed every check on the way.
-/

namespace Guard

universe u v

variable {ε : Type u} {α β : Type v}

/-- Fail with `e` unless `c` holds. The lemma beside it turns a passed check into the fact
that was checked. -/
def require (c : Prop) [Decidable c] (e : ε) : Except ε Unit :=
  if c then .ok () else .error e

@[simp] theorem require_eq_ok {c : Prop} [Decidable c] {e : ε} {u : Unit} :
    require c e = .ok u ↔ c := by
  unfold require
  split <;> simp_all

/-- The value of an option, or the error `e` where there is none: a lookup that the
computation cannot go on without. -/
def orElse (o : Option α) (e : ε) : Except ε α :=
  match o with
  | some a => .ok a
  | none => .error e

@[simp] theorem orElse_eq_ok {o : Option α} {e : ε} {a : α} :
    orElse o e = .ok a ↔ o = some a := by
  cases o <;> simp [orElse]

@[simp] theorem pure_eq_ok {a b : α} : (pure a : Except ε α) = .ok b ↔ a = b :=
  Except.ok.injEq a b ▸ Iff.rfl

@[simp] theorem throw_ne_ok {e : ε} {a : α} : (throw e : Except ε α) ≠ .ok a :=
  fun h => nomatch h

/-- **Inversion of a sequence.** It succeeds when both halves do, the second one on the
result of the first. With this lemma a successful run is taken apart check by check, and no
proof has to unfold the computation. -/
@[simp] theorem bind_eq_ok {x : Except ε α} {f : α → Except ε β} {b : β} :
    (x >>= f) = .ok b ↔ ∃ a, x = .ok a ∧ f a = .ok b := by
  constructor
  · intro h
    cases x with
    | error e => cases h
    | ok a => exact ⟨a, rfl, h⟩
  · rintro ⟨a, rfl, h⟩
    exact h

/-- Mapping over a computation cannot make it fail, so a mapped success comes from a success
of the computation itself. -/
@[simp] theorem map_eq_ok {x : Except ε α} {f : α → β} {b : β} :
    (f <$> x) = .ok b ↔ ∃ a, x = .ok a ∧ f a = b := by
  rw [← bind_pure_comp, bind_eq_ok]
  simp only [pure_eq_ok]

/-- Run the check `f` on every element, stopping at the first failure. What comes after that
element is not looked at. -/
def forEach {α : Type u} (f : α → Except ε Unit) : List α → Except ε Unit
  | [] => .ok ()
  | a :: l => do
    f a
    forEach f l

/-- A loop of checks succeeds when each of them does. The order of the elements, which
decides about the error, is of no consequence for success. -/
@[simp] theorem forEach_eq_ok {α : Type u} {f : α → Except ε Unit} {l : List α} {u : Unit} :
    forEach f l = .ok u ↔ ∀ a ∈ l, f a = .ok () := by
  induction l with
  | nil => simp [forEach]
  | cons a l ih =>
    simp only [forEach, bind_eq_ok, ih, List.forall_mem_cons]
    constructor
    · rintro ⟨_, ha, hl⟩
      exact ⟨ha, hl⟩
    · rintro ⟨ha, hl⟩
      exact ⟨(), ha, hl⟩

/-- Apply `f` to every element, stopping at the first failure, and give the results in the
order of the elements. -/
def collect {α : Type u} (f : α → Except ε β) : List α → Except ε (List β)
  | [] => .ok []
  | a :: l => do
    let b ← f a
    let bs ← collect f l
    pure (b :: bs)

/-- A collecting loop succeeds when every element does, and its results are in the order of
the elements: the two lists are paired entry by entry. -/
theorem collect_eq_ok {α : Type u} {f : α → Except ε β} {l : List α} {bs : List β} :
    collect f l = .ok bs ↔ List.Forall₂ (fun a b => f a = .ok b) l bs := by
  induction l generalizing bs with
  | nil =>
    simp only [collect, Except.ok.injEq, List.forall₂_nil_left_iff]
    exact eq_comm
  | cons a l ih =>
    simp only [collect, bind_eq_ok, pure_eq_ok, List.forall₂_cons_left_iff]
    constructor
    · rintro ⟨b, hb, bs', hbs, rfl⟩
      exact ⟨b, bs', hb, ih.mp hbs, rfl⟩
    · rintro ⟨b, bs', hb, hbs, rfl⟩
      exact ⟨b, hb, bs', ih.mpr hbs, rfl⟩

/-- For success alone it is enough that every element succeeds by itself, since no round of
the loop depends on the one before. -/
theorem collect_isOk {α : Type u} {f : α → Except ε β} {l : List α}
    (h : ∀ a ∈ l, ∃ b, f a = .ok b) : ∃ bs, collect f l = .ok bs := by
  induction l with
  | nil => exact ⟨[], rfl⟩
  | cons a l ih =>
    obtain ⟨ha, hl⟩ := List.forall_mem_cons.mp h
    obtain ⟨b, hb⟩ := ha
    obtain ⟨bs, hbs⟩ := ih hl
    exact ⟨b :: bs, collect_eq_ok.mpr (.cons hb (collect_eq_ok.mp hbs))⟩

/-- In paired lists each element on the left has its partner on the right, whatever its
position is. -/
theorem exists_right_of_forall₂ {α : Type u} {r : α → β → Prop} {l : List α} {bs : List β} {a : α}
    (h : List.Forall₂ r l bs) (ha : a ∈ l) : ∃ b ∈ bs, r a b := by
  induction h with
  | nil => cases ha
  | cons hr _ ih =>
    rcases List.mem_cons.mp ha with rfl | ha
    · exact ⟨_, List.mem_cons_self, hr⟩
    · obtain ⟨b, hb, hab⟩ := ih ha
      exact ⟨b, List.mem_cons_of_mem _ hb, hab⟩

/-- And so does each element on the right: nothing stands among the results that no element
accounts for. -/
theorem exists_left_of_forall₂ {α β : Type u} {r : α → β → Prop} {l : List α} {bs : List β} {b : β}
    (h : List.Forall₂ r l bs) (hb : b ∈ bs) : ∃ a ∈ l, r a b :=
  exists_right_of_forall₂ h.flip hb

/-- Lists paired with the same list are paired with each other, position by position, by way
of the element in between. -/
theorem forall₂_join {α β γ : Type u} {p : α → β → Prop} {q : α → γ → Prop} {as : List α}
    {bs : List β} {cs : List γ} (hp : List.Forall₂ p as bs) (hq : List.Forall₂ q as cs) :
    List.Forall₂ (fun b c => ∃ a, p a b ∧ q a c) bs cs := by
  induction hp generalizing cs with
  | nil =>
    cases hq
    exact .nil
  | cons hab _ ih =>
    cases hq with
    | cons hac hq => exact .cons ⟨_, hab, hac⟩ (ih hq)

/-! ## Errors that do not happen -/

/-- The computation does not fail with this error, and may well fail with another one. It is
the shape in which one cause of failure is ruled out while others stay possible. -/
def Avoids (e : ε) (x : Except ε α) : Prop := x ≠ .error e

theorem eq_error_iff {x : Except ε α} {e : ε} : x = .error e ↔ ¬Avoids e x := not_not.symm

@[simp] theorem avoids_ok (e : ε) (a : α) : Avoids e (.ok a : Except ε α) := nofun

@[simp] theorem avoids_pure (e : ε) (a : α) : Avoids e (pure a : Except ε α) := nofun

@[simp] theorem avoids_error {e e' : ε} : Avoids e (.error e' : Except ε α) ↔ e' ≠ e :=
  not_congr (Except.error.injEq e' e ▸ Iff.rfl)

@[simp] theorem avoids_require {c : Prop} [Decidable c] {e e' : ε} :
    Avoids e (require c e') ↔ (e' = e → c) := by
  unfold require
  split <;> simp_all

@[simp] theorem avoids_orElse {o : Option α} {e e' : ε} :
    Avoids e (orElse o e') ↔ (e' = e → o ≠ none) := by
  cases o <;> simp [orElse]

/-- A sequence fails where one of its halves does, and the second half counts only for the
result that the first one has. -/
@[simp] theorem avoids_bind {x : Except ε α} {f : α → Except ε β} {e : ε} :
    Avoids e (x >>= f) ↔ Avoids e x ∧ ∀ a, x = .ok a → Avoids e (f a) := by
  cases x with
  | error e' =>
    change Avoids e (.error e' : Except ε β) ↔ _
    simp
  | ok a =>
    refine ⟨fun h => ⟨avoids_ok e a, ?_⟩, fun h => h.2 a rfl⟩
    rintro _ ⟨⟩
    exact h

@[simp] theorem avoids_map {x : Except ε α} {f : α → β} {e : ε} :
    Avoids e (f <$> x) ↔ Avoids e x := by
  rw [← bind_pure_comp, avoids_bind]
  simp

/-- What succeeds fails with no error at all, so with none in particular. -/
theorem avoids_of_isOk {x : Except ε α} {e : ε} (h : ∃ a, x = .ok a) : Avoids e x := by
  obtain ⟨a, rfl⟩ := h
  exact avoids_ok e a

/-- A loop avoids an error that none of its rounds can end with. -/
theorem avoids_forEach {α : Type u} {f : α → Except ε Unit} {l : List α} {e : ε}
    (h : ∀ a, Avoids e (f a)) : Avoids e (forEach f l) := by
  induction l with
  | nil => exact avoids_ok e ()
  | cons a l ih => exact avoids_bind.mpr ⟨h a, fun _ _ => ih⟩

end Guard
