import SolanaMultisig.Lib.Cursor

/-!
# Programs that read bytes

A `Reader` is a function of its whole buffer, which does not show where it looks. A
`Script` is such a program with its requests visible: it asks for the next so many
bytes and goes on with them. Run over a buffer it is a reader (`run`), and `reads`
lists what was read: never anything outside the buffer (`reads_inside`), and at most
as often as there are bytes if the script never asks for nothing (`length_reads_le`).
-/

namespace Wire

/-- **A program that asks for bytes.** Its requests are visible, one constructor each, and
what it does next is a function of the bytes it was given. -/
inductive Script (ε α : Type) where
  /-- the result -/
  | done (a : α)
  /-- give up -/
  | fail (e : ε)
  /-- ask for the next `n` bytes -/
  | read (n : ℕ) (k : List UInt8 → Script ε α)

namespace Script

variable {ε α β : Type}

/-- Continue with the result. The requests of the first program come before those of the
second one. -/
def bind : Script ε α → (α → Script ε β) → Script ε β
  | .done a, f => f a
  | .fail e, _ => .fail e
  | .read n k, f => .read n fun bs => (k bs).bind f

instance : Monad (Script ε) where
  pure := .done
  bind := bind

@[simp] theorem done_bind (a : α) (f : α → Script ε β) : (.done a : Script ε α) >>= f = f a := rfl

@[simp] theorem fail_bind (e : ε) (f : α → Script ε β) :
    (.fail e : Script ε α) >>= f = .fail e := rfl

@[simp] theorem read_bind (n : ℕ) (k : List UInt8 → Script ε α) (f : α → Script ε β) :
    (.read n k : Script ε α) >>= f = .read n fun bs => k bs >>= f := rfl

/-- Do the same `n` times and list the results. The count is often read from the input
itself, so it may be far too large for what follows. -/
def times (s : Script ε α) : ℕ → Script ε (List α)
  | 0 => pure []
  | n + 1 => do
    let a ← s
    let as ← times s n
    pure (a :: as)

/-- Run over a buffer. Asking for more than is left is an error, which depends on the number
of bytes, the offset and the length of the buffer. -/
def run (short : ℕ → ℕ → ℕ → ε) : Script ε α → Reader ε α
  | .done a => pure a
  | .fail e => Reader.fail e
  | .read n k => fun buf offset =>
      if offset + n ≤ buf.length then (k ((buf.drop offset).take n)).run short buf (offset + n)
      else .error (short n offset buf.length)

/-- The reads of a run, each with its offset and its number of bytes. A request that cannot
be met is not a read, and the run ends there. -/
def reads : Script ε α → List UInt8 → ℕ → List (ℕ × ℕ)
  | .done _, _, _ => []
  | .fail _, _, _ => []
  | .read n k, buf, offset =>
      if offset + n ≤ buf.length then
        (offset, n) :: (k ((buf.drop offset).take n)).reads buf (offset + n)
      else []

section Run

variable {short : ℕ → ℕ → ℕ → ε}

@[simp] theorem run_pure (a : α) : (pure a : Script ε α).run short = pure a := rfl

@[simp] theorem run_fail (e : ε) : (.fail e : Script ε α).run short = Reader.fail e := rfl

/-- **A script in sequence is run in sequence.** So a parser can be written as a script and
reasoned about as a reader. -/
@[simp] theorem run_bind (s : Script ε α) (f : α → Script ε β) :
    (s >>= f).run short = s.run short >>= fun a => (f a).run short := by
  funext buf offset
  induction s generalizing offset with
  | done a => rfl
  | fail e => rfl
  | read n k ih =>
    change run short (.read n fun bs => k bs >>= f) buf offset =
      Reader.bind (run short (.read n k)) _ buf offset
    simp only [run, Reader.bind]
    split
    · exact ih _ _
    · rfl

/-- And a repeated script is a repeated reader. -/
@[simp] theorem run_times (s : Script ε α) (n : ℕ) :
    (s.times n).run short = (s.run short).times n := by
  induction n with
  | zero => rfl
  | succ n ih => simp [times, Reader.times, ih]

end Run

/-- What is read lies in the buffer, at or behind the offset of the start. The induction is
on the script, with the offset moving. -/
theorem reads_inside (s : Script ε α) (buf : List UInt8) (offset : ℕ) :
    ∀ p ∈ s.reads buf offset, offset ≤ p.1 ∧ p.1 + p.2 ≤ buf.length := by
  induction s generalizing offset with
  | done a => simp [reads]
  | fail e => simp [reads]
  | read n k ih =>
    rw [reads]
    split
    · rename_i hn
      refine List.forall_mem_cons.mpr ⟨⟨le_rfl, hn⟩, fun p hp => ?_⟩
      obtain ⟨hle, hinside⟩ := ih _ _ p hp
      exact ⟨by omega, hinside⟩
    · simp

/-- Nothing is read twice: the reads together have no more bytes than are left. -/
theorem sum_reads_le (s : Script ε α) {buf : List UInt8} {offset : ℕ} (h : offset ≤ buf.length) :
    ((s.reads buf offset).map Prod.snd).sum ≤ buf.length - offset := by
  induction s generalizing offset with
  | done a => simp [reads]
  | fail e => simp [reads]
  | read n k ih =>
    rw [reads]
    split
    · rename_i hn
      have hrest := ih ((buf.drop offset).take n) hn
      rw [List.map_cons, List.sum_cons]
      omega
    · simp

/-! ## How often -/

/-- There are at least as many bytes read as reads, on every buffer. No request is for
nothing, so the reads are bounded by the length of the input. -/
def Thrifty (s : Script ε α) : Prop :=
  ∀ buf offset, (s.reads buf offset).length ≤ ((s.reads buf offset).map Prod.snd).sum

theorem thrifty_pure (a : α) : (pure a : Script ε α).Thrifty := fun _ _ => le_rfl

theorem thrifty_fail (e : ε) : (.fail e : Script ε α).Thrifty := fun _ _ => le_rfl

/-- Asking for something, and being thrifty with what comes after. -/
theorem Thrifty.read {n : ℕ} {k : List UInt8 → Script ε α} (hn : 0 < n) (hk : ∀ bs, (k bs).Thrifty) :
    (Script.read n k).Thrifty := by
  intro buf offset
  rw [reads]
  split
  · have hrest := hk ((buf.drop offset).take n) buf (offset + n)
    simp only [List.length_cons, List.map_cons, List.sum_cons]
    omega
  · exact le_rfl

/-- **What two scripts read in sequence.** The second one adds its reads behind those of the
first, if it is reached at all. -/
theorem reads_bind (s : Script ε α) (f : α → Script ε β) (buf : List UInt8) (offset : ℕ) :
    (s >>= f).reads buf offset = s.reads buf offset ∨
      ∃ a next, (s >>= f).reads buf offset = s.reads buf offset ++ (f a).reads buf next := by
  induction s generalizing offset with
  | done a => exact .inr ⟨a, offset, rfl⟩
  | fail e => exact .inl rfl
  | read n k ih =>
    simp only [read_bind, reads]
    split
    · rcases ih ((buf.drop offset).take n) (offset + n) with h | ⟨a, next, h⟩
      · exact .inl (by rw [h])
      · exact .inr ⟨a, next, by rw [h, List.cons_append]⟩
    · exact .inl rfl

theorem Thrifty.bind {s : Script ε α} {f : α → Script ε β} (hs : s.Thrifty)
    (hf : ∀ a, (f a).Thrifty) : (s >>= f).Thrifty := by
  intro buf offset
  have hfirst := hs buf offset
  rcases reads_bind s f buf offset with h | ⟨a, next, h⟩
  · rwa [h]
  · have hsecond := hf a buf next
    rw [h, List.length_append, List.map_append, List.sum_append]
    exact Nat.add_le_add hfirst hsecond

theorem Thrifty.times {s : Script ε α} (hs : s.Thrifty) (n : ℕ) : (s.times n).Thrifty := by
  induction n with
  | zero => exact thrifty_pure []
  | succ n ih => exact hs.bind fun a => ih.bind fun as => thrifty_pure (a :: as)

/-- **A thrifty script reads at most as often as there are bytes left**, however many
entries it was told to expect. A forged count costs no time beyond the length of the input.
-/
theorem Thrifty.length_reads_le {s : Script ε α} (hs : s.Thrifty) {buf : List UInt8} {offset : ℕ}
    (h : offset ≤ buf.length) : (s.reads buf offset).length ≤ buf.length - offset :=
  (hs buf offset).trans (s.sum_reads_le h)

end Script

end Wire
