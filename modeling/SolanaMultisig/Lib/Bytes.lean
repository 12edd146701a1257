import Mathlib.Data.List.Lex
import Mathlib.Order.Basic
import Mathlib.Data.Nat.Digits.Lemmas

/-!
# Byte strings

Little-endian numbers of a fixed width, and the 32-byte strings that serve as
keys and digests. `leBytes`/`leNat` are inverse to each other within the width
(`leNat_leBytes`, `leBytes_leNat`); a `Bytes32` carries its own length and is
ordered lexicographically, most significant byte first.
-/

namespace Wire

/-! ## Little-endian numbers -/

/-- The `n` little-endian bytes of `v`; higher bytes are dropped. The recursion is on the
width, so that a number of a fixed width is a string of a fixed length. -/
def leBytes : ℕ → ℕ → List UInt8
  | 0, _ => []
  | n + 1, v => UInt8.ofNat (v % 256) :: leBytes n (v / 256)

/-- The number a little-endian byte string denotes. -/
def leNat : List UInt8 → ℕ
  | [] => 0
  | b :: bs => b.toNat + 256 * leNat bs

@[simp] theorem leBytes_zero (v : ℕ) : leBytes 0 v = [] := rfl

@[simp] theorem length_leBytes (n v : ℕ) : (leBytes n v).length = n := by
  induction n generalizing v with
  | zero => rfl
  | succ n ih => simp [leBytes, ih]

@[simp] theorem take_leBytes (n v : ℕ) : (leBytes n v).take n = leBytes n v :=
  List.take_of_length_le (length_leBytes n v).le

/-- Reading back a number that fits the width. -/
theorem leNat_leBytes {n v : ℕ} (hv : v < 256 ^ n) : leNat (leBytes n v) = v := by
  induction n generalizing v with
  | zero =>
    have hv0 : v = 0 := by simpa using hv
    simp [hv0, leNat]
  | succ n ih =>
    have hdiv : v / 256 < 256 ^ n := by
      rw [pow_succ] at hv
      exact Nat.div_lt_of_lt_mul (by omega)
    have hmod : (UInt8.ofNat (v % 256)).toNat = v % 256 := by
      rw [UInt8.toNat_ofNat']
      omega
    rw [leBytes, leNat, ih hdiv, hmod]
    omega

/-- A byte string denotes a number within its width. -/
theorem leNat_lt (bs : List UInt8) : leNat bs < 256 ^ bs.length := by
  induction bs with
  | nil => simp [leNat]
  | cons b bs ih =>
    have hb : b.toNat < 256 := b.toNat_lt
    rw [leNat, List.length_cons, pow_succ]
    omega

/-- Writing back the number a byte string denotes, at the length it had. -/
theorem leBytes_leNat (bs : List UInt8) : leBytes bs.length (leNat bs) = bs := by
  induction bs with
  | nil => rfl
  | cons b bs ih =>
    have hb : b.toNat < 256 := b.toNat_lt
    have hmod : (b.toNat + 256 * leNat bs) % 256 = b.toNat := by omega
    have hdiv : (b.toNat + 256 * leNat bs) / 256 = leNat bs := by omega
    rw [leNat, List.length_cons, leBytes, hmod, hdiv, ih, UInt8.ofNat_toNat]

/-- Within the width, the bytes determine the number. -/
theorem leBytes_inj {n v w : ℕ} (hv : v < 256 ^ n) (hw : w < 256 ^ n)
    (h : leBytes n v = leBytes n w) : v = w := by
  rw [← leNat_leBytes hv, h, leNat_leBytes hw]

/-! ## 32-byte strings -/

/-- A byte string of length 32. The length is a field, so that a key of another length
cannot be built. -/
@[ext] structure Bytes32 where
  /-- the bytes, in memory order -/
  bytes : List UInt8
  /-- there are 32 of them -/
  length_eq : bytes.length = 32
  deriving DecidableEq

namespace Bytes32

@[simp] theorem length_bytes (k : Bytes32) : k.bytes.length = 32 := k.length_eq

/-- The byte string as a `Bytes32`, if it has the length. -/
def ofList? (bs : List UInt8) : Option Bytes32 :=
  if h : bs.length = 32 then some ⟨bs, h⟩ else none

@[simp] theorem ofList?_bytes (k : Bytes32) : ofList? k.bytes = some k := by
  simp [ofList?]

theorem ofList?_eq_some {bs : List UInt8} {k : Bytes32} (h : ofList? bs = some k) :
    k.bytes = bs := by
  unfold ofList? at h
  split at h
  · cases h
    rfl
  · cases h

/-- The all-zero string. -/
def zero : Bytes32 := ⟨List.replicate 32 0, by simp⟩

/-- The most significant byte first, as numbers: the sort key. -/
def digits (k : Bytes32) : List ℕ := k.bytes.map UInt8.toNat

/-- The sort key determines the string, so the order is antisymmetric. -/
theorem digits_injective : Function.Injective digits := by
  intro a b h
  have hmap : a.bytes = b.bytes :=
    List.map_injective_iff.mpr (fun _ _ he => UInt8.toNat_inj.mp he) h
  exact Bytes32.ext hmap

/-- Lexicographic order on the bytes. -/
instance : LinearOrder Bytes32 := LinearOrder.lift' digits digits_injective

theorem le_iff {a b : Bytes32} : a ≤ b ↔ a.digits ≤ b.digits := Iff.rfl

end Bytes32

/-- Concatenated keys determine the keys: every one has the same width, and no separators
are needed. -/
theorem flatMap_bytes_injective :
    Function.Injective fun ks : List Bytes32 => ks.flatMap Bytes32.bytes := by
  intro ks
  induction ks with
  | nil =>
    intro ls h
    cases ls with
    | nil => rfl
    | cons l ls =>
      have hlen := congrArg List.length h
      simp only [List.flatMap_nil, List.flatMap_cons, List.length_nil, List.length_append,
        Bytes32.length_bytes] at hlen
      omega
  | cons k ks ih =>
    intro ls h
    cases ls with
    | nil =>
      have hlen := congrArg List.length h
      simp only [List.flatMap_nil, List.flatMap_cons, List.length_nil, List.length_append,
        Bytes32.length_bytes] at hlen
      omega
    | cons l ls =>
      have happ : k.bytes ++ ks.flatMap Bytes32.bytes =
          l.bytes ++ ls.flatMap Bytes32.bytes := by
        simpa [List.flatMap_cons] using h
      obtain ⟨hk, hks⟩ := List.append_inj happ (by simp)
      rw [Bytes32.ext hk, ih hks]

end Wire
