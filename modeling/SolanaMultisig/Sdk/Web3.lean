import SolanaMultisig.Lib.Base58
import SolanaMultisig.Runtime

/-!
# What the SDK stands on

The values of JavaScript as the gates meet them (optional strings that count as
unset when empty, numbers, big integers, decimal strings) and the parts of
web3.js they call. Keys in text form are base58; reading the wire format of a
transaction and base64 are parameters (`Web3`).
-/

namespace SolanaMultisig.Sdk

open Wire Guard

variable {env : Env}

/-! ## Values -/

/-- A string as a condition sees it: `undefined` and `""` are false, so an option set to the
empty string counts as not set. -/
def given (s : Option String) : Option String := s.filter fun t => decide (t ≠ "")

@[simp] theorem given_none : given none = none := rfl

theorem given_eq_some {s : Option String} {t : String} (h : given s = some t) :
    s = some t ∧ t ≠ "" := by
  simpa [given] using h

theorem given_some {t : String} (h : t ≠ "") : given (some t) = some t := by
  simp [given, h]

/-- The text of a key is never empty, so a key that was written out counts as given. -/
@[simp] theorem given_toBase58 (k : Pubkey) : given (some (toBase58 k)) = some (toBase58 k) :=
  given_some (toBase58_ne_empty k)

/-- **A number.** Its value with the fraction cut off (zero for `NaN` and the infinities),
whether nothing was cut off, and its text. These are the only things the gates ask of a
number. -/
structure Number where
  /-- the integer part -/
  trunc : ℤ
  /-- is it an integer? -/
  isInteger : Bool
  /-- `String(n)` -/
  text : String
  deriving DecidableEq

/-- An integer below `2 ^ 53`, which a number holds exactly. -/
def Number.ofNat (n : ℕ) : Number := ⟨n, true, toString n⟩

/-- `n === value`: equality without conversion, so a number with a fraction equals no
integer. -/
def Number.Is (n : Number) (value : ℕ) : Prop := n.isInteger = true ∧ n.trunc = value

instance (n : Number) (value : ℕ) : Decidable (n.Is value) :=
  inferInstanceAs (Decidable (n.isInteger = true ∧ n.trunc = value))

/-- `Buffer.from([n])[0]`: the number is taken modulo 256, where the serializer would throw.
-/
def Number.byte (n : Number) : UInt8 := UInt8.ofNat (n.trunc % 256).toNat

/-- `BigInt(n)`, which throws where the number is no integer. -/
def Number.bigInt (n : Number) : Except String ℤ :=
  if n.isInteger then .ok n.trunc
  else .error ("The number " ++ n.text ++
    " cannot be converted to a BigInt because it is not an integer")

/-- `Number.isSafeInteger(n)`: an integer that is not the rounded value of another one. -/
def Number.isSafeInteger (n : Number) : Bool := n.isInteger && decide (n.trunc.natAbs < 2 ^ 53)

theorem Number.byte_of_is {n : Number} {b : UInt8} (h : n.Is b.toNat) : n.byte = b := by
  have hmod : b.toNat % 256 = b.toNat := Nat.mod_eq_of_lt b.toNat_lt
  rw [Number.byte, h.2]
  norm_cast
  rw [hmod]
  exact UInt8.ofNat_toNat

/-- `string | number | bigint`: the types in which a caller may give an amount or a cap. -/
inductive Amount where
  | string (s : String)
  | number (n : Number)
  | bigint (z : ℤ)
  deriving DecidableEq

/-- `String(value)`, as the messages of the gates quote an amount. -/
def Amount.text : Amount → String
  | .string s => s
  | .number n => n.text
  | .bigint z => toString z

/-- The number a text of decimal digits denotes: `/^[0-9]+$/`, then `BigInt`. Signs, blanks
and a decimal point are refused, leading zeros are not. -/
def decimal (s : String) : Option ℕ :=
  if s.toList ≠ [] ∧ s.toList.all Char.isDigit = true then
    some (Nat.ofDigitChars 10 s.toList 0)
  else none

/-- Parse a non-negative integer amount. Anything else gives `none`, which the gates report
as a mismatch and never take for zero. -/
def toBigIntOrNull : Option Amount → Option ℕ
  | none => none
  | some (.bigint z) => if 0 ≤ z then some z.toNat else none
  | some (.number n) => if n.isSafeInteger = true ∧ 0 ≤ n.trunc then some n.trunc.toNat else none
  | some (.string s) => decimal s

/-- Written numbers are read back, so an amount can be compared by its text. -/
@[simp] theorem decimal_toString (n : ℕ) : decimal (toString n) = some n := by
  have hlist : (toString n).toList = Nat.toDigits 10 n := Nat.toList_repr
  have hdigits : (Nat.toDigits 10 n).all Char.isDigit = true :=
    List.all_eq_true.mpr fun c hc => Nat.isDigit_of_mem_toDigits (by decide) (by decide) hc
  rw [decimal, hlist, if_pos ⟨Nat.toDigits_ne_nil, hdigits⟩]
  rw [Nat.ofDigitChars_toDigits (by decide) (by decide)]

/-! ## web3.js -/

/-- `new PublicKey(value)`. It throws for a character outside of base58 and for a text that
does not denote 32 bytes, with different messages. -/
def publicKey (value : String) : Except String Pubkey :=
  match ofBase58 value with
  | some k => .ok k
  | none =>
      .error (if value.toList.all fun c => (digit? c).isSome then "Invalid public key input"
        else "Non-base58 character")

/-- A key and its text determine each other. The gates compare texts, and by this lemma that
is comparing keys. -/
@[simp] theorem publicKey_eq_ok {value : String} {k : Pubkey} :
    publicKey value = .ok k ↔ value = toBase58 k := by
  constructor
  · intro h
    unfold publicKey at h
    split at h
    · rename_i k' hk
      cases h
      exact eq_toBase58_of_ofBase58 hk
    · cases h
  · rintro rfl
    rw [publicKey, ofBase58_toBase58]

/-- `PublicKey.findProgramAddressSync`, without the bump. The client searches for the bump
as the program does, and throws where there is none. -/
def findProgramAddressSync (env : Env) (seeds : List (List UInt8)) (programId : Pubkey) :
    Except String Pubkey := do
  let derived ← orElse (findProgramAddress env seeds programId)
    "Unable to find a viable program address nonce"
  pure derived.1

/-- The address found off chain is the one the program derives with some bump. -/
theorem findProgramAddressSync_eq_ok {env : Env} {seeds : List (List UInt8)}
    {programId address : Pubkey} :
    findProgramAddressSync env seeds programId = .ok address ↔
      ∃ bump, findProgramAddress env seeds programId = some (address, bump) := by
  simp only [findProgramAddressSync, bind_eq_ok, orElse_eq_ok, pure_eq_ok]
  constructor
  · rintro ⟨⟨k, bump⟩, hfind, rfl⟩
    exact ⟨bump, hfind⟩
  · rintro ⟨bump, hfind⟩
    exact ⟨(address, bump), hfind, rfl⟩

/-- A legacy transaction, as far as the gates look at it. Its signatures and its blockhash
are not among what they read. -/
structure Transaction where
  /-- who pays the fees -/
  feePayer : Option Pubkey
  /-- its instructions, in order -/
  instructions : List Instruction

/-- The libraries that are not modelled: base64 and the wire format of transactions. They
are parameters, so what is proved of the gates holds for whatever bytes they decode. -/
structure Web3 where
  /-- `Buffer.from(s, "base64")` -/
  base64 : String → List UInt8
  /-- `Transaction.from(bytes)` -/
  transactionFrom : List UInt8 → Except String Transaction

/-! ## Well-known programs -/

/-- The Token program, by its bytes. That these have the usual text is checked once for all
the programs below. -/
def tokenProgramId : Pubkey :=
  ⟨[6, 221, 246, 225, 215, 101, 161, 147, 217, 203, 225, 70, 206, 235, 121, 172, 28, 180, 133, 237,
    95, 91, 55, 145, 58, 140, 245, 133, 126, 255, 0, 169], rfl⟩

/-- The Token-2022 program. An owner has another associated account under it. -/
def token2022ProgramId : Pubkey :=
  ⟨[6, 221, 246, 225, 238, 117, 143, 222, 24, 66, 93, 188, 228, 108, 205, 218, 182, 26, 252, 77,
    131, 185, 13, 39, 254, 189, 249, 40, 216, 161, 139, 252], rfl⟩

/-- The Associated Token Account program, under which token accounts are derived. -/
def ataProgramId : Pubkey :=
  ⟨[140, 151, 37, 143, 78, 36, 137, 241, 187, 61, 16, 41, 20, 142, 13, 131, 11, 90, 19, 153, 218,
    255, 16, 132, 4, 142, 123, 216, 219, 233, 248, 89], rfl⟩

/-- The Compute Budget program. Its instructions set what a transaction pays for priority.
-/
def computeBudgetProgramId : Pubkey :=
  ⟨[3, 6, 70, 111, 229, 33, 23, 50, 255, 236, 173, 186, 114, 195, 155, 231, 188, 140, 229, 187, 197,
    247, 18, 107, 44, 67, 155, 58, 64, 0, 0, 0], rfl⟩

/-- SPL Memo v2, whose instructions move no funds. -/
def memoProgramId : Pubkey :=
  ⟨[5, 74, 83, 90, 153, 41, 33, 6, 77, 36, 232, 113, 96, 218, 56, 124, 124, 53, 181, 221, 188, 146,
    187, 129, 228, 31, 168, 64, 65, 5, 68, 141], rfl⟩

/-- They are the ones with these names. -/
example : [tokenProgramId, token2022ProgramId, ataProgramId, computeBudgetProgramId,
      memoProgramId].map (some ·) =
    ["TokenkegQfeZyiNwAJbNbGKPFXCWuBvf9Ss623VQ5DA", "TokenzQdBNbLqP5VEhdkAS6EPFLC1PHnBqCXEpPxuEb",
      "ATokenGPvbdGVxr1b2hvZbsiqW5xWH25efTNsLJA8knL",
      "ComputeBudget111111111111111111111111111111",
      "MemoSq4gqABAXKb96qnH8TysNcWxMyWCqXgDLGmfcHr"].map ofBase58 := by
  decide +kernel

/-- Hand-rolled Associated Token Account derivation: owner, token program and mint, in that
order, are the seeds. -/
def deriveAssociatedTokenAddress (env : Env) (owner mint tokenProgramId : Pubkey) :
    Except String Pubkey :=
  findProgramAddressSync env [owner.bytes, tokenProgramId.bytes, mint.bytes] ataProgramId

end SolanaMultisig.Sdk
