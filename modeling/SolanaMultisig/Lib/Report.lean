import SolanaMultisig.Lib.Guard

/-!
# Checks that report

A gate that lists everything wrong with its input goes on after a failed check,
and may still give up when the input makes no sense at all. `Report` is such a
computation: the problems found so far and a result or an error. Problems are
only ever added, so a run is clean exactly when each of its parts is
(`clean_bind`), and a gate can be taken apart check by check.
-/

namespace Guard

universe u v

/-- **A report.** The problems found so far, and the result or what made the computation
give up. Unlike an error, a problem does not end the computation. -/
structure Report (π : Type u) (α : Type v) where
  /-- the problems, in the order they were found -/
  problems : List π
  /-- the result -/
  result : Except π α

namespace Report

variable {π : Type u} {α β : Type v}

/-- No problem, and the result `a`. It is what a passed gate means, and the lemmas below
push it through the operations down to the facts that were checked. -/
def Clean (r : Report π α) (a : α) : Prop := r.problems = [] ∧ r.result = .ok a

/-- Go on with the result and add the problems of what follows. Where there is no result,
the problems found before are kept. -/
def bind (x : Report π α) (f : α → Report π β) : Report π β :=
  match x.result with
  | .ok a => ⟨x.problems ++ (f a).problems, (f a).result⟩
  | .error e => ⟨x.problems, .error e⟩

instance : Monad (Report π) where
  pure a := ⟨[], .ok a⟩
  bind := bind

/-- Note a problem unless `c` holds, and go on in either case. -/
def check (c : Prop) [Decidable c] (problem : π) : Report π PUnit :=
  ⟨if c then [] else [problem], .ok ⟨⟩⟩

/-- Note problems that were found elsewhere, by a scan that collects them itself. -/
def note (problems : List π) : Report π PUnit := ⟨problems, .ok ⟨⟩⟩

/-- Give up if `x` does. It notes nothing: what goes wrong here makes the rest meaningless.
-/
def lift (x : Except π α) : Report π α := ⟨[], x⟩

/-- Run the checks `f` on every element and note the problems of all of them, in order. -/
def each {γ : Type u} (f : γ → Report π PUnit) : List γ → Report π PUnit
  | [] => pure ⟨⟩
  | c :: l => f c >>= fun _ => each f l

/-- Run the checks `f` on a value that is there. Where it is missing, nothing was expected
and nothing is noted. -/
def forSome {γ : Type u} (f : γ → Report π PUnit) : Option γ → Report π PUnit
  | none => pure ⟨⟩
  | some c => f c

/-- No problem, and a result: the verdict as a flag for the caller. -/
def ok (r : Report π α) : Bool := r.problems.isEmpty && r.result.toBool

theorem ok_iff {r : Report π α} : r.ok = true ↔ ∃ a, r.Clean a := by
  obtain ⟨problems, result⟩ := r
  cases result <;> simp [ok, Clean, Except.toBool]

@[simp] theorem clean_pure {a b : α} : (pure a : Report π α).Clean b ↔ a = b := by
  simp [Clean, pure]

@[simp] theorem clean_check {c : Prop} [Decidable c] {problem : π} {u : PUnit} :
    (check c problem).Clean u ↔ c := by
  by_cases hc : c <;> simp [Clean, check, hc]

@[simp] theorem clean_note {problems : List π} {u : PUnit} :
    (note problems).Clean u ↔ problems = [] := by
  simp [Clean, note]

@[simp] theorem clean_lift {x : Except π α} {a : α} : (lift x).Clean a ↔ x = .ok a := by
  simp [Clean, lift]

/-- **A run is clean when its parts are**, the second one on the result of the first. As
problems are only added, nothing that comes later can make up for one. -/
@[simp] theorem clean_bind {x : Report π α} {f : α → Report π β} {b : β} :
    (x >>= f).Clean b ↔ ∃ a, x.Clean a ∧ (f a).Clean b := by
  obtain ⟨problems, result⟩ := x
  change (bind ⟨problems, result⟩ f).Clean b ↔ _
  cases result with
  | error e => simp [Clean, bind]
  | ok a =>
    simp only [Clean, bind, List.append_eq_nil_iff, Except.ok.injEq]
    constructor
    · rintro ⟨⟨hx, hf⟩, hr⟩
      exact ⟨a, ⟨hx, rfl⟩, hf, hr⟩
    · rintro ⟨_, ⟨hx, rfl⟩, hf, hr⟩
      exact ⟨⟨hx, hf⟩, hr⟩

@[simp] theorem clean_ite {c : Prop} [Decidable c] {x y : Report π α} {a : α} :
    (if c then x else y).Clean a ↔ if c then x.Clean a else y.Clean a := by
  split <;> rfl

/-- A loop of checks is clean when each of its rounds is, in whatever order. -/
@[simp] theorem clean_each {γ : Type u} {f : γ → Report π PUnit} {l : List γ} {u : PUnit} :
    (each f l).Clean u ↔ ∀ c ∈ l, (f c).Clean ⟨⟩ := by
  induction l with
  | nil => simp [each]
  | cons c l ih =>
    simp only [each, clean_bind, ih, List.forall_mem_cons]
    constructor
    · rintro ⟨_, hc, hl⟩
      exact ⟨hc, hl⟩
    · rintro ⟨hc, hl⟩
      exact ⟨⟨⟩, hc, hl⟩

/-- An optional value is in order when it is missing or passes the checks. -/
@[simp] theorem clean_forSome {γ : Type u} {f : γ → Report π PUnit} {o : Option γ} {u : PUnit} :
    (forSome f o).Clean u ↔ ∀ c, o = some c → (f c).Clean ⟨⟩ := by
  cases o with
  | none => simp [forSome]
  | some c => simp [forSome]

/-! ## Computations that never give up -/

/-- There is a result, whatever problems were noted. Then the computation never gives up,
and its problems alone decide about it. -/
def Total (r : Report π α) : Prop := ∃ a, r.result = .ok a

theorem total_pure (a : α) : (pure a : Report π α).Total := ⟨a, rfl⟩

theorem total_check {c : Prop} [Decidable c] {problem : π} : (check c problem).Total := ⟨⟨⟩, rfl⟩

/-- A sequence gives up only where one of its halves does. -/
theorem Total.bind {x : Report π α} {f : α → Report π β} (hx : x.Total) (hf : ∀ a, (f a).Total) :
    (x >>= f).Total := by
  obtain ⟨a, ha⟩ := hx
  obtain ⟨b, hb⟩ := hf a
  obtain ⟨problems, result⟩ := x
  cases ha
  exact ⟨b, hb⟩

theorem total_each {γ : Type u} {f : γ → Report π PUnit} (hf : ∀ c, (f c).Total) (l : List γ) :
    (each f l).Total := by
  induction l with
  | nil => exact total_pure _
  | cons c l ih => exact (hf c).bind fun _ => ih

theorem total_forSome {γ : Type u} {f : γ → Report π PUnit} (hf : ∀ c, (f c).Total)
    (o : Option γ) : (forSome f o).Total := by
  cases o with
  | none => exact total_pure _
  | some c => exact hf c

/-- Without problems, what has a result is clean. -/
theorem Total.clean {r : Report π PUnit} (hr : r.Total) (h : r.problems = []) : r.Clean ⟨⟩ := by
  obtain ⟨⟨⟩, ha⟩ := hr
  exact ⟨h, ha⟩

/-! ## Problems of one kind -/

/-- None of the problems is of the kind `p`. Others may have been noted. -/
def Without (p : π → Prop) (r : Report π α) : Prop := ∀ problem ∈ r.problems, ¬p problem

variable {p : π → Prop}

theorem without_note {problems : List π} :
    (note problems).Without p ↔ ∀ problem ∈ problems, ¬p problem := Iff.rfl

/-- What goes on has the problems of both parts, so each of them has to be free of the kind.
-/
theorem without_bind {x : Report π PUnit} {f : PUnit → Report π β} (hx : x.Total) :
    (x >>= f).Without p ↔ x.Without p ∧ (f ⟨⟩).Without p := by
  obtain ⟨⟨⟩, ha⟩ := hx
  obtain ⟨problems, result⟩ := x
  cases ha
  exact List.forall_mem_append

/-- There is a result, and no problem of the kind `p`: what can be skipped when only
problems of this kind matter. -/
def Avoids (p : π → Prop) (r : Report π PUnit) : Prop := r.Total ∧ r.Without p

theorem avoids_note {problems : List π} (h : ∀ problem ∈ problems, ¬p problem) :
    (note problems).Avoids p := ⟨⟨⟨⟩, rfl⟩, h⟩

theorem avoids_pure : (pure ⟨⟩ : Report π PUnit).Avoids p := avoids_note (List.forall_mem_nil _)

theorem avoids_check {c : Prop} [Decidable c] {problem : π} (h : ¬p problem) :
    (check c problem).Avoids p := by
  refine ⟨total_check, fun x hx => ?_⟩
  rcases (List.mem_ite_nil_left).mp hx with ⟨-, hx⟩
  rwa [List.mem_singleton.mp hx]

/-- **Skipping.** What avoids the problems in front of a computation has no part in whether
it has one, so a long gate comes down to the one check that can note it. -/
theorem Avoids.without_bind {x : Report π PUnit} {f : PUnit → Report π β} (hx : x.Avoids p) :
    (x >>= f).Without p ↔ (f ⟨⟩).Without p :=
  (Report.without_bind hx.1).trans (and_iff_right hx.2)

theorem Avoids.bind {x : Report π PUnit} {f : PUnit → Report π PUnit} (hx : x.Avoids p)
    (hf : (f ⟨⟩).Avoids p) : (x >>= f).Avoids p :=
  ⟨hx.1.bind fun _ => hf.1, hx.without_bind.mpr hf.2⟩

/-- A loop avoids the problems when each of its rounds does. -/
theorem avoids_each {γ : Type u} {f : γ → Report π PUnit} {l : List γ}
    (hf : ∀ c ∈ l, (f c).Avoids p) : (each f l).Avoids p := by
  induction l with
  | nil => exact avoids_pure
  | cons c l ih =>
    obtain ⟨hc, hl⟩ := List.forall_mem_cons.mp hf
    exact hc.bind (ih hl)

theorem avoids_forSome {γ : Type u} {f : γ → Report π PUnit} {o : Option γ}
    (hf : ∀ c, (f c).Avoids p) : (forSome f o).Avoids p := by
  cases o with
  | none => exact avoids_pure
  | some c => exact hf c

end Report

end Guard
