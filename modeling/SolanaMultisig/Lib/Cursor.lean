import SolanaMultisig.Lib.Codec

/-!
# Readers over a buffer

A codec consumes the front of a byte string; programs often keep the whole
buffer and an offset instead, and say what went wrong. `Reader` is such a
program, and `Agrees` relates it to a codec: on every buffer and offset both
succeed or both fail, the reader returns a view of the value decoded, and its
offset ends where the rest begins. The relation follows the structure of readers
(`Agrees.bind`, `Agrees.vec`), so a hand-written parser is compared with a format
line by line.
-/

namespace Wire

universe u

/-- A computation on a buffer, from an offset to the next one. The buffer is never cut, so
an error can name a position. -/
def Reader (ε : Type u) (α : Type) : Type u := List UInt8 → ℕ → Except ε (α × ℕ)

namespace Reader

variable {ε : Type u} {α β : Type}

/-- Continue at the new offset. -/
def bind (r : Reader ε α) (k : α → Reader ε β) : Reader ε β := fun buf offset =>
  match r buf offset with
  | .ok (a, next) => k a buf next
  | .error e => .error e

instance : Monad (Reader ε) where
  pure a := fun _ offset => .ok (a, offset)
  bind := bind

/-- Stop with an error. -/
def fail (e : ε) : Reader ε α := fun _ _ => .error e

/-- Read `n` times in a row. -/
def times (r : Reader ε α) : ℕ → Reader ε (List α)
  | 0 => pure []
  | n + 1 => do
    let a ← r
    let as ← times r n
    pure (a :: as)

end Reader

variable {ε : Type u} {α β : Type}

/-- What a decoder finds at an offset, as a reader reports it: a view of the value and the
offset of the rest. -/
def located (buf : List UInt8) (f : β → α) (p : β × List UInt8) : α × ℕ :=
  (f p.1, buf.length - p.2.length)

/-- The reader returns the view `f` of what the codec decodes, and fails when the
codec does. -/
def Agrees (r : Reader ε α) (c : Codec β) (f : β → α) : Prop :=
  ∀ buf offset, offset ≤ buf.length →
    (r buf offset).toOption = (c.decode (buf.drop offset)).map (located buf f)

/-- What a codec leaves of a buffer is the buffer from a later offset on: a codec only takes
from the front. -/
theorem Codec.drop_of_decode (c : Codec β) {buf rest : List UInt8} {offset : ℕ} {b : β}
    (h : c.decode (buf.drop offset) = some (b, rest)) :
    buf.drop (buf.length - rest.length) = rest := by
  have hsuffix : rest <:+ buf := by
    have happ := (c.encode_of_decode h).2
    exact (happ ▸ List.suffix_append _ rest).trans (List.drop_suffix offset buf)
  exact (List.suffix_iff_eq_drop.mp hsuffix).symm

theorem toOption_eq_some {x : Except ε α} {a : α} : x.toOption = some a ↔ x = .ok a := by
  cases x <;> simp [Except.toOption]

theorem toOption_eq_none {x : Except ε α} : x.toOption = none ↔ ∃ e, x = .error e := by
  cases x <;> simp [Except.toOption]

/-- Where the format continues, the reader does. -/
theorem located_bind {α' β' : Type} {r : Reader ε α} {k : α → Reader ε α'}
    {c : Codec β} {f : β → α} {buf : List UInt8} {offset : ℕ} {o : Option (β' × List UInt8)}
    {g : β' → α'} (next : β → List UInt8 → Option (β' × List UInt8)) (hr : Agrees r c f)
    (hoffset : offset ≤ buf.length)
    (hk : ∀ b rest, c.decode (buf.drop offset) = some (b, rest) →
      (k (f b) buf (buf.length - rest.length)).toOption = (next b rest).map (located buf g))
    (ho : o = (c.decode (buf.drop offset)).bind fun p => next p.1 p.2) :
    ((r >>= k) buf offset).toOption = o.map (located buf g) := by
  have hread := hr buf offset hoffset
  change (Reader.bind r k buf offset).toOption = _
  rw [ho]
  cases hdec : c.decode (buf.drop offset) with
  | none =>
    rw [hdec] at hread
    obtain ⟨e, he⟩ := toOption_eq_none.mp hread
    simp [Reader.bind, he, Except.toOption]
  | some p =>
    obtain ⟨b, rest⟩ := p
    rw [hdec] at hread
    have hok := toOption_eq_some.mp hread
    simp only [Reader.bind, hok, located]
    exact hk b rest hdec

/-- **Sequencing**: a reader that goes on after another agrees with the pair of the formats.
-/
theorem Agrees.bind {α' β' : Type} {r : Reader ε α} {k : α → Reader ε α'}
    {c : Codec β} {d : Codec β'} {f : β → α} {g : β → β' → α'} (hr : Agrees r c f)
    (hk : ∀ b, Agrees (k (f b)) d (g b)) :
    Agrees (r >>= k) (c.pair d) fun p => g p.1 p.2 := by
  intro buf offset hoffset
  have hcontinue : ∀ b rest, c.decode (buf.drop offset) = some (b, rest) →
      (k (f b) buf (buf.length - rest.length)).toOption =
        ((d.decode rest).map fun q => ((b, q.1), q.2)).map
          (located buf fun p : β × β' => g p.1 p.2) := by
    intro b rest hdec
    rw [hk b buf _ (Nat.sub_le _ _), c.drop_of_decode hdec, Option.map_map]
    rfl
  exact located_bind _ hr hoffset hcontinue rfl

/-- Looking at the value differently. -/
theorem Agrees.map {α' : Type} {r : Reader ε α} {c : Codec β} {f : β → α} (hr : Agrees r c f)
    (g : α → α') : Agrees (r >>= fun a => pure (g a)) c fun b => g (f b) := by
  intro buf offset hoffset
  refine located_bind (fun b rest => some (b, rest)) hr hoffset ?_ ?_
  · exact fun _ _ _ => rfl
  · simp

/-- Records are read as the tuples they stand for. -/
theorem Agrees.iso {γ : Type} {r : Reader ε α} {c : Codec β} {f : β → α} {g : γ → α}
    {pack : β → γ} {unpack : γ → β} {h₁ : ∀ b, pack (unpack b) = b}
    {h₂ : ∀ a, unpack (pack a) = a}
    (hr : Agrees r c f) (hg : ∀ b, g (pack b) = f b) : Agrees r (c.iso pack unpack h₁ h₂) g := by
  intro buf offset hoffset
  have hcomp : located buf f = fun p => located buf g (pack p.1, p.2) := by
    funext p
    rw [located, located, hg]
  rw [hr buf offset hoffset, hcomp]
  simp only [Codec.iso, Option.map_map]
  rfl

/-- Rejecting the values that have no reading. -/
theorem Agrees.refine {α' γ : Type} {r : Reader ε α} {k : α → Reader ε α'} {c : Codec β}
    {d : Codec γ} {f : β → α} {g : γ → α'} (pack : β → Option γ)
    (hd : ∀ b, d.decode b = (c.decode b).bind fun p => (pack p.1).map fun x => (x, p.2))
    (hr : Agrees r c f)
    (hk : ∀ b buf offset,
      (k (f b) buf offset).toOption = (pack b).map fun x => (g x, offset)) :
    Agrees (r >>= k) d g := by
  intro buf offset hoffset
  refine located_bind (fun b rest => (pack b).map fun x => (x, rest)) hr hoffset ?_
    (hd _)
  intro b rest _
  rw [hk b buf, Option.map_map]
  rfl

/-- A loop reads what the format repeats, by induction on the number of turns. -/
theorem Agrees.times {r : Reader ε α} {c : Codec β} {f : β → α} (hr : Agrees r c f)
    (buf : List UInt8) (n : ℕ) : ∀ offset ≤ buf.length,
      (r.times n buf offset).toOption =
        (c.times n (buf.drop offset)).map (located buf (List.map f)) := by
  induction n with
  | zero =>
    intro offset hoffset
    change some (([] : List α), offset) = some ([], buf.length - (buf.drop offset).length)
    rw [List.length_drop, Nat.sub_sub_self hoffset]
  | succ n ih =>
    intro offset hoffset
    refine located_bind
      (fun b rest => (c.times n rest).map fun q => (b :: q.1, q.2)) hr hoffset ?_ rfl
    intro b rest hdec
    have hrest := ih (buf.length - rest.length) (Nat.sub_le _ _)
    rw [c.drop_of_decode hdec] at hrest
    change (Reader.bind (r.times n) _ buf _).toOption = _
    cases htimes : c.times n rest with
    | none =>
      rw [htimes] at hrest
      obtain ⟨e, he⟩ := toOption_eq_none.mp hrest
      simp [Reader.bind, he, Except.toOption]
    | some q =>
      rw [htimes] at hrest
      have hok := toOption_eq_some.mp hrest
      simp only [Reader.bind, hok, located]
      rfl

/-- A count and that many values are a vector, read with a loop as parsers do. -/
theorem Agrees.vec {count : Reader ε ℕ} {r : Reader ε α} {c : Codec β} {f : β → α}
    (hcount : Agrees count (Codec.le 4) id) (hr : Agrees r c f) :
    Agrees (count >>= fun n => r.times n) c.vec (List.map f) := by
  intro buf offset hoffset
  refine located_bind (fun n rest => c.times n rest) hcount hoffset ?_ rfl
  intro n rest hdec
  have htimes := hr.times buf n (buf.length - rest.length) (Nat.sub_le _ _)
  rwa [(Codec.le 4).drop_of_decode hdec] at htimes

/-- Bytes in a row. -/
theorem Codec.byte_times (n : ℕ) (b : List UInt8) :
    Codec.byte.times n b = if n ≤ b.length then some (b.take n, b.drop n) else none := by
  induction n generalizing b with
  | zero => simp [Codec.times]
  | succ n ih =>
    cases b with
    | nil => simp [Codec.times, Codec.byte]
    | cons x b =>
      have hdec : Codec.byte.decode (x :: b) = some (x, b) := rfl
      rw [Codec.times, hdec, Option.bind_some, ih]
      by_cases hn : n ≤ b.length
      · simp [hn]
      · simp [hn]

end Wire
