import SolanaMultisig.Lib.Bytes

/-!
# Codecs

A `Codec α` is a self-delimiting binary format: an encoder, a decoder that also
returns the unread rest, and the two laws that make them inverse. The laws are
fields, so every format assembled from the combinators below (fixed-width
numbers, raw bytes, length-prefixed vectors, pairs, record isomorphisms,
constant tags) is a format with a proof that it round-trips *and* that it
accepts nothing but encodings.

`Fits a` says that `a` has an encoding at all: a vector whose length does not
fit its 4-byte prefix has none.
-/

namespace Wire

universe u v

/-- A self-delimiting binary format for `α`. -/
structure Codec (α : Type u) where
  /-- write a value -/
  encode : α → List UInt8
  /-- read a value off the front, returning the rest -/
  decode : List UInt8 → Option (α × List UInt8)
  /-- the values that have an encoding -/
  Fits : α → Prop
  /-- having an encoding is decidable -/
  decFits : DecidablePred Fits
  /-- what was written is read back, whatever follows -/
  decode_encode : ∀ {a : α} (r : List UInt8), Fits a → decode (encode a ++ r) = some (a, r)
  /-- what is read is an encoding followed by the rest -/
  encode_of_decode : ∀ {b : List UInt8} {a : α} {r : List UInt8},
    decode b = some (a, r) → Fits a ∧ b = encode a ++ r

namespace Codec

variable {α : Type u} {β : Type v}

instance (c : Codec α) : DecidablePred c.Fits := c.decFits

/-- A decoder accepts exactly the strings that start with an encoding: both laws in one
equivalence. -/
theorem decode_eq_some_iff (c : Codec α) {b : List UInt8} {a : α} {r : List UInt8} :
    c.decode b = some (a, r) ↔ c.Fits a ∧ b = c.encode a ++ r := by
  constructor
  · exact c.encode_of_decode
  · rintro ⟨ha, rfl⟩
    exact c.decode_encode r ha

/-! ## Fixed-width values -/

/-- A single byte. -/
def byte : Codec UInt8 where
  encode b := [b]
  decode
    | [] => none
    | b :: r => some (b, r)
  Fits _ := True
  decFits := fun _ => instDecidableTrue
  decode_encode _ _ := rfl
  encode_of_decode {b a r} h := by
    cases b with
    | nil => cases h
    | cons x xs =>
      cases h
      exact ⟨trivial, rfl⟩

/-- Exactly `n` raw bytes; a string that is shorter has no reading. -/
def raw (n : ℕ) : Codec (List UInt8) where
  encode bs := bs
  decode b := if n ≤ b.length then some (b.take n, b.drop n) else none
  Fits bs := bs.length = n
  decFits := fun bs => inferInstanceAs (Decidable (bs.length = n))
  decode_encode {a} r ha := by
    subst ha
    simp
  encode_of_decode {b a r} h := by
    split at h
    · rename_i hn
      cases h
      exact ⟨by simp [hn], (List.take_append_drop n b).symm⟩
    · cases h

/-- Change of representation along an isomorphism: a record is written as the tuple of its
fields. -/
def iso (c : Codec α) (f : α → β) (g : β → α) (hfg : ∀ b, f (g b) = b)
    (hgf : ∀ a, g (f a) = a) : Codec β where
  encode b := c.encode (g b)
  decode b := (c.decode b).map fun p => (f p.1, p.2)
  Fits b := c.Fits (g b)
  decFits := fun b => c.decFits (g b)
  decode_encode {b} r hb := by
    rw [c.decode_encode r hb]
    simp [hfg]
  encode_of_decode {b a r} h := by
    obtain ⟨⟨x, s⟩, hx, he⟩ := Option.map_eq_some_iff.mp h
    cases he
    rw [hgf]
    exact c.encode_of_decode hx

/-- Change of representation along an embedding whose image is the fitting values: what is
read but has no reading as a value is rejected. -/
def subtype (c : Codec α) (f : α → Option β) (g : β → α) (hfits : ∀ b, c.Fits (g b))
    (hfg : ∀ b, f (g b) = some b) (hgf : ∀ {a b}, f a = some b → g b = a) : Codec β where
  encode b := c.encode (g b)
  decode b := (c.decode b).bind fun p => (f p.1).map fun x => (x, p.2)
  Fits _ := True
  decFits := fun _ => instDecidableTrue
  decode_encode {b} r _ := by
    rw [c.decode_encode r (hfits b)]
    simp [hfg]
  encode_of_decode {b a r} h := by
    obtain ⟨⟨x, s⟩, hx, he⟩ := Option.bind_eq_some_iff.mp h
    obtain ⟨y, hy, hp⟩ := Option.map_eq_some_iff.mp he
    cases hp
    rw [hgf hy]
    exact ⟨trivial, (c.encode_of_decode hx).2⟩

/-- An `n`-byte little-endian number. -/
def le (n : ℕ) : Codec ℕ where
  encode v := leBytes n v
  decode b := if n ≤ b.length then some (leNat (b.take n), b.drop n) else none
  Fits v := v < 256 ^ n
  decFits := fun v => inferInstanceAs (Decidable (v < 256 ^ n))
  decode_encode {v} r hv := by
    simp [leNat_leBytes hv]
  encode_of_decode {b a r} h := by
    split at h
    · rename_i hn
      cases h
      have hlen : (b.take n).length = n := by simp [hn]
      have hlt := leNat_lt (b.take n)
      have hback := leBytes_leNat (b.take n)
      rw [hlen] at hlt hback
      exact ⟨hlt, by rw [hback, List.take_append_drop]⟩
    · cases h

/-- A 32-byte string. -/
def bytes32 : Codec Bytes32 :=
  (raw 32).subtype Bytes32.ofList? Bytes32.bytes Bytes32.length_eq Bytes32.ofList?_bytes
    Bytes32.ofList?_eq_some

/-- A boolean as one byte, `0` or `1`; any other byte is rejected. -/
def bool : Codec Bool :=
  byte.subtype (fun b => if b = 0 then some false else if b = 1 then some true else none)
    (fun v => if v then 1 else 0) (fun _ => trivial)
    (fun v => by cases v <;> rfl)
    (fun {a b} h => by
      split at h
      · cases h
        simp_all
      · split at h
        · cases h
          simp_all
        · cases h)

/-- A `u64` as eight little-endian bytes. -/
def u64 : Codec UInt64 :=
  (le 8).subtype (fun v => if v < 2 ^ 64 then some (UInt64.ofNat v) else none) UInt64.toNat
    (fun v => v.toNat_lt)
    (fun v => by
      rw [if_pos v.toNat_lt, UInt64.ofNat_toNat])
    (fun {a b} h => by
      split at h
      · rename_i hlt
        cases h
        exact UInt64.toNat_ofNat_of_lt' hlt
      · cases h)

/-! ## Sequencing -/

/-- One format after the other. Since the first one says where it ends, the second one is
found. -/
def pair (c : Codec α) (d : Codec β) : Codec (α × β) where
  encode p := c.encode p.1 ++ d.encode p.2
  decode b := (c.decode b).bind fun p => (d.decode p.2).map fun q => ((p.1, q.1), q.2)
  Fits p := c.Fits p.1 ∧ d.Fits p.2
  decFits := fun p => inferInstanceAs (Decidable (c.Fits p.1 ∧ d.Fits p.2))
  decode_encode {p} r hp := by
    rw [List.append_assoc, c.decode_encode _ hp.1]
    simp [d.decode_encode r hp.2]
  encode_of_decode {b a r} h := by
    obtain ⟨⟨x, s⟩, hx, he⟩ := Option.bind_eq_some_iff.mp h
    obtain ⟨⟨y, t⟩, hy, hp⟩ := Option.map_eq_some_iff.mp he
    cases hp
    obtain ⟨hfx, hbx⟩ := c.encode_of_decode hx
    obtain ⟨hfy, hby⟩ := d.encode_of_decode hy
    refine ⟨⟨hfx, hfy⟩, ?_⟩
    rw [hbx, show s = d.encode y ++ t from hby, List.append_assoc]

/-! ## Vectors -/

/-- Read `n` values in a row, which fails as soon as one of them does. -/
def times (c : Codec α) : ℕ → List UInt8 → Option (List α × List UInt8)
  | 0, b => some ([], b)
  | n + 1, b =>
    (c.decode b).bind fun p => (c.times n p.2).map fun q => (p.1 :: q.1, q.2)

theorem times_encode (c : Codec α) (l : List α) (r : List UInt8) (hl : ∀ a ∈ l, c.Fits a) :
    c.times l.length (l.flatMap c.encode ++ r) = some (l, r) := by
  induction l with
  | nil => rfl
  | cons a l ih =>
    have ha : c.Fits a := hl a (List.mem_cons_self ..)
    have hl' : ∀ x ∈ l, c.Fits x := fun x hx => hl x (List.mem_cons_of_mem _ hx)
    rw [List.length_cons, times, List.flatMap_cons, List.append_assoc, c.decode_encode _ ha]
    simp [ih hl']

/-- What was read in a row is a row of encodings, by induction on the number of values. -/
theorem encode_of_times (c : Codec α) {n : ℕ} : ∀ {b : List UInt8} {l : List α} {r : List UInt8},
    c.times n b = some (l, r) →
      l.length = n ∧ (∀ a ∈ l, c.Fits a) ∧ b = l.flatMap c.encode ++ r := by
  induction n with
  | zero =>
    intro b l r h
    cases h
    exact ⟨rfl, fun a ha => absurd ha List.not_mem_nil, rfl⟩
  | succ n ih =>
    intro b l r h
    obtain ⟨⟨x, s⟩, hx, he⟩ := Option.bind_eq_some_iff.mp h
    obtain ⟨⟨xs, t⟩, hxs, hp⟩ := Option.map_eq_some_iff.mp he
    cases hp
    obtain ⟨hfx, hbx⟩ := c.encode_of_decode hx
    obtain ⟨hlen, hfits, hbs⟩ := ih hxs
    refine ⟨by rw [List.length_cons, hlen], ?_, ?_⟩
    · intro a ha
      rcases List.mem_cons.mp ha with rfl | ha
      · exact hfx
      · exact hfits a ha
    · rw [hbx, show s = xs.flatMap c.encode ++ t from hbs, List.flatMap_cons, List.append_assoc]

/-- A vector: a 4-byte little-endian length, then the elements. -/
def vec (c : Codec α) : Codec (List α) where
  encode l := leBytes 4 l.length ++ l.flatMap c.encode
  decode b := ((le 4).decode b).bind fun p => c.times p.1 p.2
  Fits l := l.length < 256 ^ 4 ∧ ∀ a ∈ l, c.Fits a
  decFits := fun l => inferInstanceAs (Decidable (l.length < 256 ^ 4 ∧ ∀ a ∈ l, c.Fits a))
  decode_encode {l} r hl := by
    have hlen : (le 4).decode (leBytes 4 l.length ++ (l.flatMap c.encode ++ r)) =
        some (l.length, l.flatMap c.encode ++ r) :=
      (le 4).decode_encode _ hl.1
    rw [List.append_assoc, hlen]
    exact c.times_encode l r hl.2
  encode_of_decode {b l r} h := by
    obtain ⟨⟨n, s⟩, hn, ht⟩ := Option.bind_eq_some_iff.mp h
    obtain ⟨hfn, hbn⟩ := (le 4).encode_of_decode hn
    obtain ⟨hlen, hfits, hbs⟩ := c.encode_of_times ht
    subst hlen
    refine ⟨⟨hfn, hfits⟩, ?_⟩
    rw [hbn, show s = l.flatMap c.encode ++ r from hbs, ← List.append_assoc]
    rfl

/-! ## Sizes -/

@[simp] theorem length_encode_byte (b : UInt8) : (byte.encode b).length = 1 := rfl

@[simp] theorem length_encode_bytes32 (k : Bytes32) : (bytes32.encode k).length = 32 :=
  k.length_eq

@[simp] theorem length_encode_bool (b : Bool) : (bool.encode b).length = 1 := rfl

@[simp] theorem length_encode_u64 (n : UInt64) : (u64.encode n).length = 8 :=
  length_leBytes 8 n.toNat

@[simp] theorem length_encode_pair (c : Codec α) (d : Codec β) (p : α × β) :
    ((c.pair d).encode p).length = (c.encode p.1).length + (d.encode p.2).length :=
  List.length_append

@[simp] theorem encode_iso (c : Codec α) {f : α → β} {g : β → α} {hfg : ∀ b, f (g b) = b}
    {hgf : ∀ a, g (f a) = a} (b : β) : (c.iso f g hfg hgf).encode b = c.encode (g b) := rfl

/-- A vector takes 4 bytes and those of its elements. -/
theorem length_encode_vec (c : Codec α) (l : List α) :
    (c.vec.encode l).length = 4 + (l.map fun a => (c.encode a).length).sum := by
  simp [vec, List.length_flatMap]

/-- Elements of one width: their number tells the size. -/
theorem length_encode_vec_of_width {c : Codec α} {w : ℕ} (hw : ∀ a, (c.encode a).length = w)
    (l : List α) : (c.vec.encode l).length = 4 + l.length * w := by
  simp [length_encode_vec, hw]

/-! ## Short encodings -/

/-- Only a length of 4 bytes can overflow, so that a value fits when its encoding is short.
The formats below have this property, and what is read from a string of limited length
therefore fits. -/
def Short (c : Codec α) : Prop := ∀ a, (c.encode a).length < 256 ^ 4 → c.Fits a

theorem short_byte : byte.Short := fun _ _ => trivial

theorem short_bytes32 : bytes32.Short := fun _ _ => trivial

theorem Short.iso {c : Codec α} (hc : c.Short) {f : α → β} {g : β → α} {hfg : ∀ b, f (g b) = b}
    {hgf : ∀ a, g (f a) = a} : (c.iso f g hfg hgf).Short := fun b hb => hc (g b) hb

theorem Short.pair {c : Codec α} {d : Codec β} (hc : c.Short) (hd : d.Short) :
    (c.pair d).Short := by
  intro p hp
  rw [length_encode_pair] at hp
  exact ⟨hc p.1 (by omega), hd p.2 (by omega)⟩

/-- Elements take at least a byte each, so a short encoding has a short list. -/
theorem Short.vec {c : Codec α} (hc : c.Short) (hpos : ∀ a, 0 < (c.encode a).length) :
    c.vec.Short := by
  intro l hl
  have hlen : ∀ l : List α, l.length ≤ (l.flatMap c.encode).length := by
    intro l
    induction l with
    | nil => exact le_rfl
    | cons a l ih =>
      have ha := hpos a
      rw [List.flatMap_cons, List.length_append, List.length_cons]
      omega
  have hsum : (c.vec.encode l).length = 4 + (l.flatMap c.encode).length := by
    simp [Codec.vec]
  have hcount := hlen l
  refine ⟨by omega, fun a ha => hc a ?_⟩
  have hsub : (c.encode a).Sublist (l.flatMap c.encode) :=
    List.sublist_flatten_of_mem (List.mem_map_of_mem ha)
  have hle := hsub.length_le
  omega

end Codec

end Wire
