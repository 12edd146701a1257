import SolanaMultisig.Lib.Bytes

/-!
# Base58

The textual form of a 32-byte string: one `1` for every leading zero byte, then
the remaining bytes as a big-endian number in base 58. `ofBase58` accepts a text
only if it denotes 32 bytes; reading a written string gives it back
(`ofBase58_toBase58`), so the text determines the bytes (`toBase58_injective`).
-/

namespace Wire

/-! ## Positional numerals, most significant digit first -/

/-- The digits of `n` in base `b`, most significant first; none for `0`. Mathlib has them
with the least significant first. -/
def bigDigits (b n : ℕ) : List ℕ := (b.digits n).reverse

/-- The number that big-endian digits denote. -/
def ofBigDigits (b : ℕ) (ds : List ℕ) : ℕ := Nat.ofDigits b ds.reverse

/-- A number is recovered from its digits, in any base. -/
theorem ofBigDigits_bigDigits (b n : ℕ) : ofBigDigits b (bigDigits b n) = n := by
  rw [ofBigDigits, bigDigits, List.reverse_reverse, Nat.ofDigits_digits]

/-- Digits are recovered from the number when the first one is not zero. -/
theorem bigDigits_ofBigDigits {b : ℕ} (hb : 1 < b) {ds : List ℕ} (hlt : ∀ d ∈ ds, d < b)
    (hhead : ∀ d, ds.head? = some d → d ≠ 0) : bigDigits b (ofBigDigits b ds) = ds := by
  rw [bigDigits, ofBigDigits, Nat.digits_ofDigits b hb, List.reverse_reverse]
  · intro d hd
    exact hlt d (List.mem_reverse.mp hd)
  · intro hne
    rw [List.getLast_reverse]
    exact hhead _ (List.head?_eq_some_head (by simpa using hne))

theorem bigDigits_lt {b n d : ℕ} (hb : 1 < b) (hd : d ∈ bigDigits b n) : d < b :=
  Nat.digits_lt_base hb (List.mem_reverse.mp hd)

/-- The first digit of a number is not zero, so leading zeros have to be written by
themselves. -/
theorem head?_bigDigits {b n d : ℕ} (h : (bigDigits b n).head? = some d) : d ≠ 0 := by
  rw [bigDigits, List.head?_reverse] at h
  have hne : b.digits n ≠ [] := by
    intro hnil
    rw [hnil] at h
    cases h
  rw [List.getLast?_eq_some_getLast hne] at h
  obtain rfl := Option.some.inj h
  intro hzero
  have hn : n ≠ 0 := by
    intro hn
    exact hne (by rw [hn, Nat.digits_zero])
  exact Nat.getLast_digit_ne_zero b hn hzero

/-! ## The alphabet -/

/-- The 58 symbols: no `0`, `O`, `I` or `l`. -/
def alphabet : List Char :=
  ['1', '2', '3', '4', '5', '6', '7', '8', '9', 'A', 'B', 'C', 'D', 'E', 'F', 'G',
   'H', 'J', 'K', 'L', 'M', 'N', 'P', 'Q', 'R', 'S', 'T', 'U', 'V', 'W', 'X', 'Y',
   'Z', 'a', 'b', 'c', 'd', 'e', 'f', 'g', 'h', 'i', 'j', 'k', 'm', 'n', 'o', 'p',
   'q', 'r', 's', 't', 'u', 'v', 'w', 'x', 'y', 'z']

/-- The symbol of a digit. -/
def symbol (d : ℕ) : Char := alphabet.getD d '1'

/-- The digit of a symbol. -/
def digit? (c : Char) : Option ℕ := alphabet.findIdx? (· == c)

/-- The alphabet has no symbol twice: the digit of a symbol is found again. -/
theorem digit?_symbol {d : ℕ} (hd : d < 58) : digit? (symbol d) = some d := by
  have hall : ∀ d < 58, digit? (symbol d) = some d := by decide
  exact hall d hd

theorem symbol_eq_one {d : ℕ} (hd : d < 58) (h : symbol d = '1') : d = 0 := by
  have hall : ∀ d < 58, symbol d = '1' → d = 0 := by decide
  exact hall d hd h

/-! ## Text and bytes -/

/-- How many leading entries equal `a`: the zeros that a number does not show. -/
def leading {α : Type} [DecidableEq α] (a : α) (l : List α) : ℕ :=
  (l.takeWhile (· = a)).length

/-- The textual form of 32 bytes. Every leading zero byte becomes a `1`, since the number
behind them does not tell how many there were. -/
def toBase58 (k : Bytes32) : String :=
  let zeros := leading 0 k.bytes
  let number := ofBigDigits 256 ((k.bytes.drop zeros).map UInt8.toNat)
  String.ofList (List.replicate zeros '1' ++ (bigDigits 58 number).map symbol)

/-- The 32 bytes a text denotes, if it is one: symbols of the alphabet that stand for
exactly 32 bytes. -/
def ofBase58 (s : String) : Option Bytes32 :=
  let zeros := leading '1' s.toList
  ((s.toList.drop zeros).mapM digit?).bind fun ds =>
    Bytes32.ofList? (List.replicate zeros 0 ++
      (bigDigits 256 (ofBigDigits 58 ds)).map UInt8.ofNat)

theorem mapM_digit?_symbol {ds : List ℕ} (h : ∀ d ∈ ds, d < 58) :
    (ds.map symbol).mapM digit? = some ds := by
  induction ds with
  | nil => rfl
  | cons d ds ih =>
    have hd : d < 58 := h d (List.mem_cons_self ..)
    have hds : ∀ x ∈ ds, x < 58 := fun x hx => h x (List.mem_cons_of_mem _ hx)
    rw [List.map_cons, List.mapM_cons, digit?_symbol hd, ih hds]
    rfl

/-- A block of `a`s followed by something else is counted exactly. -/
theorem leading_replicate_append {α : Type} [DecidableEq α] {a : α} (n : ℕ) {l : List α}
    (hl : l.head? ≠ some a) : leading a (List.replicate n a ++ l) = n := by
  induction n with
  | zero =>
    cases l with
    | nil => rfl
    | cons x xs =>
      have hx : x ≠ a := fun he => hl (by rw [he]; rfl)
      simp [leading, hx]
  | succ n ih =>
    have hn : leading a (a :: (List.replicate n a ++ l)) =
        leading a (List.replicate n a ++ l) + 1 := by
      simp [leading]
    rw [List.replicate_succ, List.cons_append, hn, ih]

/-- Splitting off the leading block: what is counted and what is left make up the list. -/
theorem replicate_leading_append {α : Type} [DecidableEq α] (a : α) (l : List α) :
    List.replicate (leading a l) a ++ l.drop (leading a l) = l := by
  induction l with
  | nil => rfl
  | cons x xs ih =>
    by_cases hx : x = a
    · subst hx
      have hn : leading x (x :: xs) = leading x xs + 1 := by simp [leading]
      rw [hn, List.replicate_succ, List.drop_succ_cons, List.cons_append, ih]
    · have hn : leading a (x :: xs) = 0 := by simp [leading, hx]
      rw [hn]
      rfl

theorem head?_drop_leading {α : Type} [DecidableEq α] (a : α) (l : List α) :
    (l.drop (leading a l)).head? ≠ some a := by
  induction l with
  | nil => simp [leading]
  | cons x xs ih =>
    by_cases hx : x = a
    · subst hx
      have hn : leading x (x :: xs) = leading x xs + 1 := by simp [leading]
      rw [hn, List.drop_succ_cons]
      exact ih
    · have hn : leading a (x :: xs) = 0 := by simp [leading, hx]
      rw [hn]
      simpa using hx

/-- **Round trip**: the text of a 32-byte string denotes it. -/
@[simp] theorem ofBase58_toBase58 (k : Bytes32) : ofBase58 (toBase58 k) = some k := by
  set zeros := leading (0 : UInt8) k.bytes with hzeros
  set rest := (k.bytes.drop zeros).map UInt8.toNat with hrest
  -- the bytes after the leading zeros are the base-256 digits of the number
  have hlt256 : ∀ d ∈ rest, d < 256 := by
    intro d hd
    obtain ⟨b, -, rfl⟩ := List.mem_map.mp hd
    exact b.toNat_lt
  have hhead256 : ∀ d, rest.head? = some d → d ≠ 0 := by
    intro d hd hd0
    rw [hrest, List.head?_map] at hd
    obtain ⟨b, hb, hbd⟩ := Option.map_eq_some_iff.mp hd
    have hb0 : b = 0 := UInt8.toNat_inj.mp (by rw [hbd, hd0]; rfl)
    exact head?_drop_leading 0 k.bytes (by rw [hb, hb0])
  have hbytes : (bigDigits 256 (ofBigDigits 256 rest)).map UInt8.ofNat = k.bytes.drop zeros := by
    rw [bigDigits_ofBigDigits (by decide) hlt256 hhead256, hrest, List.map_map]
    simp [Function.comp_def]
  set ds := bigDigits 58 (ofBigDigits 256 rest) with hds
  have hlt58 : ∀ d ∈ ds, d < 58 := fun d hd => bigDigits_lt (by decide) hd
  -- the text after the leading ones does not start with a one
  have hhead58 : (ds.map symbol).head? ≠ some '1' := by
    intro h
    rw [List.head?_map] at h
    obtain ⟨d, hd, hd1⟩ := Option.map_eq_some_iff.mp h
    exact head?_bigDigits hd (symbol_eq_one (hlt58 d (List.mem_of_head? hd)) hd1)
  have htext : (toBase58 k).toList = List.replicate zeros '1' ++ ds.map symbol := by
    rw [toBase58, String.toList_ofList]
  have hones : leading '1' (toBase58 k).toList = zeros := by
    rw [htext, leading_replicate_append _ hhead58]
  have hdrop : (toBase58 k).toList.drop zeros = ds.map symbol := by
    rw [htext, List.drop_left' (by simp)]
  have hall : List.replicate zeros 0 ++ k.bytes.drop zeros = k.bytes :=
    replicate_leading_append 0 k.bytes
  simp only [ofBase58]
  rw [hones, hdrop, mapM_digit?_symbol hlt58, Option.bind_some, hds, ofBigDigits_bigDigits,
    hbytes, hall, Bytes32.ofList?_bytes]

/-- The symbol of the digit a symbol stands for is that symbol. -/
theorem symbol_of_digit? {c : Char} {d : ℕ} (h : digit? c = some d) : symbol d = c ∧ d < 58 := by
  obtain ⟨hlt, hc, -⟩ := List.findIdx?_eq_some_iff_getElem.mp h
  have hd : d < 58 := hlt
  refine ⟨?_, hd⟩
  rw [symbol, List.getD_eq_getElem?_getD, List.getElem?_eq_getElem hlt, Option.getD_some]
  exact eq_of_beq hc

theorem map_symbol_of_mapM {cs : List Char} {ds : List ℕ} (h : cs.mapM digit? = some ds) :
    ds.map symbol = cs ∧ ∀ d ∈ ds, d < 58 := by
  induction cs generalizing ds with
  | nil =>
    cases h
    exact ⟨rfl, fun d hd => absurd hd List.not_mem_nil⟩
  | cons c cs ih =>
    rw [List.mapM_cons] at h
    obtain ⟨d, hd, h⟩ := Option.bind_eq_some_iff.mp h
    obtain ⟨ds', hds, h⟩ := Option.bind_eq_some_iff.mp h
    cases h
    obtain ⟨hsymbol, hlt⟩ := symbol_of_digit? hd
    obtain ⟨hmap, hall⟩ := ih hds
    rw [List.map_cons, hsymbol, hmap]
    exact ⟨rfl, List.forall_mem_cons.mpr ⟨hlt, hall⟩⟩

/-- **Round trip**: a text that denotes 32 bytes is the text of these bytes, so comparing
texts is comparing bytes. -/
theorem eq_toBase58_of_ofBase58 {s : String} {k : Bytes32} (h : ofBase58 s = some k) :
    s = toBase58 k := by
  obtain ⟨ds, hds, hk⟩ := Option.bind_eq_some_iff.mp h
  obtain ⟨hsymbols, hlt58⟩ := map_symbol_of_mapM hds
  have hbytes := Bytes32.ofList?_eq_some hk
  set zeros := leading '1' s.toList with hzeros
  -- the digits after the leading ones do not start with a zero
  have hhead58 : ∀ d, ds.head? = some d → d ≠ 0 := by
    rintro d hd rfl
    have hone : (s.toList.drop zeros).head? = some '1' := by
      rw [← hsymbols, List.head?_map, hd]
      rfl
    exact head?_drop_leading '1' s.toList hone
  -- nor do the bytes after the leading zeros
  have hhead256 : ((bigDigits 256 (ofBigDigits 58 ds)).map UInt8.ofNat).head? ≠ some 0 := by
    intro h0
    rw [List.head?_map] at h0
    obtain ⟨d, hd, hd0⟩ := Option.map_eq_some_iff.mp h0
    have hd256 : d < 256 := bigDigits_lt (by decide) (List.mem_of_head? hd)
    have hval := congrArg UInt8.toNat hd0
    rw [UInt8.toNat_ofNat_of_lt' hd256] at hval
    exact head?_bigDigits hd hval
  have hleading : leading 0 k.bytes = zeros := by
    rw [hbytes, leading_replicate_append _ hhead256]
  have hdrop : (k.bytes.drop zeros).map UInt8.toNat = bigDigits 256 (ofBigDigits 58 ds) := by
    rw [hbytes, List.drop_left' (by simp), List.map_map]
    refine (List.map_congr_left fun d hd => ?_).trans (List.map_id _)
    exact UInt8.toNat_ofNat_of_lt' (bigDigits_lt (by decide) hd)
  have hlist : s.toList = List.replicate zeros '1' ++ ds.map symbol := by
    rw [hsymbols, replicate_leading_append]
  simp only [toBase58]
  rw [hleading, hdrop, ofBigDigits_bigDigits, bigDigits_ofBigDigits (by decide) hlt58 hhead58,
    ← hlist, String.ofList_toList]

theorem toBase58_injective : Function.Injective toBase58 := by
  intro a b h
  have hd : ofBase58 (toBase58 a) = some b := by rw [h, ofBase58_toBase58]
  rw [ofBase58_toBase58] at hd
  exact Option.some.inj hd

/-- No text is empty: a string of zeros has a `1` for each of them. -/
theorem toBase58_ne_empty (k : Bytes32) : toBase58 k ≠ "" := by
  intro h
  have hnone : ofBase58 "" = none := by decide
  rw [← h, ofBase58_toBase58] at hnone
  cases hnone

@[simp] theorem toBase58_inj {a b : Bytes32} : toBase58 a = toBase58 b ↔ a = b :=
  toBase58_injective.eq_iff

end Wire
