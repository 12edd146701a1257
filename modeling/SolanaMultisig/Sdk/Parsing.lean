import SolanaMultisig.Lib.Script
import SolanaMultisig.Program
import SolanaMultisig.Sdk.Reader

/-!
# What the parser of `create_transaction` accepts

The bytes are chosen by somebody else. `parseCreateTransactionData` accepts them
exactly when they start with an encoded message, which the program then sees as well,
and it never looks outside of them (`parseCreateTransactionData_spec`). To say where
it looks, the parser is written once more as a script, line by line.
-/

namespace SolanaMultisig.Sdk

open Wire Guard

/-! ## The parser as a script -/

/-- A sequential Borsh reader whose reads are visible. -/
abbrev ByteScript (α : Type) := Script String α

/-- `ensure` throws, before it reads anything, with the number of bytes, the offset and what
there is. -/
def truncated (n offset length : ℕ) : String :=
  "truncated data: need " ++ toString n ++ " byte(s) at offset " ++ toString offset ++
    ", have " ++ toString length

namespace ByteScript

/-- The next `n` bytes, in one read. -/
def bytes (n : ℕ) : ByteScript (List UInt8) := .read n .done

/-- A byte. Where the read succeeds there is exactly one. -/
def u8 : ByteScript UInt8 := do
  let b ← bytes 1
  pure (b.headD 0)

/-- A 4-byte little-endian number, as Borsh writes counts and lengths. -/
def u32 : ByteScript ℕ := do
  let b ← bytes 4
  pure (leNat b)

/-- A key. Its 32 bytes make one whatever they are. -/
def pubkey : ByteScript Pubkey := do
  let b ← bytes 32
  match Bytes32.ofList? b with
  | some k => pure k
  | none => .fail "Invalid public key input"

/-- A count, then that many values. The count is not checked against what is left, so it may
be too large for the values that follow. -/
def vec {α : Type} (s : ByteScript α) : ByteScript (List α) := do
  let count ← u32
  s.times count

/-- A length, then that many bytes, all in one read. -/
def blob : ByteScript (List UInt8) := do
  let len ← u32
  bytes len

/-- One instruction of a message: the program by position, then accounts and data. -/
def compiledInstruction : ByteScript CompiledInstruction := do
  let programIdIndex ← u8
  let accountIndexes ← blob
  let data ← blob
  pure ⟨programIdIndex, accountIndexes, data⟩

/-- One lookup table, skipped: only their number is kept. -/
def lookup : ByteScript Unit := do
  let _ ← bytes 32
  let _ ← blob
  let _ ← blob
  pure ()

/-- A Borsh `TransactionMessage`. The counts of the header are read and not kept. -/
def transactionMessage (vaultIndex : UInt8) : ByteScript InnerMessage := do
  let _ ← u8
  let _ ← u8
  let _ ← u8
  let accountKeys ← pubkey.vec
  let instructions ← compiledInstruction.vec
  let lookups ← lookup.vec
  pure ⟨vaultIndex, accountKeys, instructions, lookups.length⟩

/-- `create_transaction` instruction data: discriminator, vault index, message. -/
def createTransaction : ByteScript InnerMessage := do
  let _ ← bytes 8
  let vaultIndex ← u8
  transactionMessage vaultIndex

/-! ### Run, it is the parser -/

@[simp] theorem run_bytes (n : ℕ) : (bytes n).run truncated = ByteReader.bytes n := rfl

@[simp] theorem run_u8 : u8.run truncated = ByteReader.u8 := by
  simp [u8, ByteReader.u8]

@[simp] theorem run_u32 : u32.run truncated = ByteReader.u32 := by
  simp [u32, ByteReader.u32]

@[simp] theorem run_pubkey : pubkey.run truncated = ByteReader.pubkey := by
  simp only [pubkey, ByteReader.pubkey, Script.run_bind, run_bytes]
  congr 1
  funext b
  cases Bytes32.ofList? b <;> rfl

@[simp] theorem run_vec {α : Type} (s : ByteScript α) :
    s.vec.run truncated = ByteReader.vec (s.run truncated) := by
  simp [vec, ByteReader.vec]

@[simp] theorem run_blob : blob.run truncated = ByteReader.blob := by
  simp [blob, ByteReader.blob]

@[simp] theorem run_compiledInstruction :
    compiledInstruction.run truncated = parseCompiledInstruction := by
  simp [compiledInstruction, parseCompiledInstruction]

@[simp] theorem run_lookup : lookup.run truncated = skipLookup := by
  simp [lookup, skipLookup]

@[simp] theorem run_transactionMessage (vaultIndex : UInt8) :
    (transactionMessage vaultIndex).run truncated = parseTransactionMessage vaultIndex := by
  simp [transactionMessage, parseTransactionMessage]

/-- **The script is the parser.** Line by line the two are written alike, so each part of
the one is run to the same part of the other. -/
theorem run_createTransaction : createTransaction.run truncated = readCreateTransaction := by
  simp [createTransaction, readCreateTransaction]

/-! ### It never asks for nothing twice in a row -/

theorem thrifty_bytes {n : ℕ} (hn : 0 < n) : (bytes n).Thrifty :=
  .read hn fun bs => Script.thrifty_pure bs

theorem thrifty_u8 : u8.Thrifty :=
  (thrifty_bytes (by decide)).bind fun b => Script.thrifty_pure (b.headD 0)

theorem thrifty_u32 : u32.Thrifty :=
  (thrifty_bytes (by decide)).bind fun b => Script.thrifty_pure (leNat b)

theorem thrifty_pubkey : pubkey.Thrifty := by
  refine (thrifty_bytes (by decide)).bind fun b => ?_
  cases Bytes32.ofList? b with
  | some k => exact Script.thrifty_pure k
  | none => exact Script.thrifty_fail _

theorem thrifty_vec {α : Type} {s : ByteScript α} (hs : s.Thrifty) : s.vec.Thrifty :=
  thrifty_u32.bind fun count => hs.times count

/-- An empty string still has a length in front, so the read of nothing is paid for. -/
theorem thrifty_blob : blob.Thrifty := by
  have hblob : blob = .read 4 fun b => .read (leNat b) .done := rfl
  intro buf offset
  rw [hblob, Script.reads]
  split
  · rw [Script.reads]
    split
    · simp only [Script.reads, List.length_cons, List.length_nil, List.map_cons, List.map_nil,
        List.sum_cons, List.sum_nil]
      omega
    · simp
  · exact le_rfl

theorem thrifty_compiledInstruction : compiledInstruction.Thrifty :=
  thrifty_u8.bind fun _ => thrifty_blob.bind fun _ => thrifty_blob.bind fun _ => Script.thrifty_pure _

theorem thrifty_lookup : lookup.Thrifty :=
  (thrifty_bytes (by decide)).bind fun _ => thrifty_blob.bind fun _ => thrifty_blob.bind fun _ =>
    Script.thrifty_pure ()

theorem thrifty_transactionMessage (vaultIndex : UInt8) : (transactionMessage vaultIndex).Thrifty :=
  thrifty_u8.bind fun _ => thrifty_u8.bind fun _ => thrifty_u8.bind fun _ =>
    (thrifty_vec thrifty_pubkey).bind fun _ => (thrifty_vec thrifty_compiledInstruction).bind fun _ =>
      (thrifty_vec thrifty_lookup).bind fun _ => Script.thrifty_pure _

/-- The whole parser reads at least as many bytes as it makes reads. -/
theorem thrifty_createTransaction : createTransaction.Thrifty :=
  (thrifty_bytes (by decide)).bind fun _ => thrifty_u8.bind fun vaultIndex =>
    thrifty_transactionMessage vaultIndex

end ByteScript

/-! ## What it accepts -/

/-- **An encoding.** The bytes are a discriminator, a vault index, an encoded message, and
anything behind it. Which discriminator is up to the caller of the parser. -/
structure Encodes (b head : List UInt8) (vaultIndex : UInt8) (message : TransactionMessage)
    (rest : List UInt8) : Prop where
  head_length : head.length = 8
  /-- the message has an encoding -/
  fits : TransactionMessage.codec.Fits message
  bytes_eq : b = head ++ (vaultIndex :: TransactionMessage.codec.encode message ++ rest)

/-- The bytes behind the discriminator are the arguments and a rest, which is how the
program reads them. -/
theorem encodes_iff {b head rest : List UInt8} {vaultIndex : UInt8} {message : TransactionMessage} :
    Encodes b head vaultIndex message rest ↔ head = b.take 8 ∧ 8 ≤ b.length ∧
      (Codec.byte.pair TransactionMessage.codec).decode (b.drop 8) =
        some ((vaultIndex, message), rest) := by
  rw [Codec.decode_eq_some_iff]
  constructor
  · rintro ⟨hlen, hfits, rfl⟩
    refine ⟨(List.take_left' hlen).symm, by simp [hlen], ⟨trivial, hfits⟩, ?_⟩
    rw [List.drop_left' hlen]
    rfl
  · rintro ⟨rfl, hlen, ⟨-, hfits⟩, hdrop⟩
    refine ⟨List.length_take_of_le hlen, hfits, ?_⟩
    conv_lhs => rw [← List.take_append_drop 8 b, hdrop]
    rfl

/-- **What the parser does with the bytes `b`**: what it accepts, what it returns, and where
it looks. -/
structure ParsesExactly (b : List UInt8) : Prop where
  /-- it accepts encodings, and returns what was encoded -/
  ok_iff : ∀ inner, parseCreateTransactionData b = .ok inner ↔
    ∃ head vaultIndex message rest, Encodes b head vaultIndex message rest ∧
      inner = ⟨vaultIndex, message.accountKeys, message.instructions,
        message.addressTableLookups.length⟩
  /-- only one thing can be encoded in them -/
  unique : ∀ {head head' vaultIndex vaultIndex' message message' rest rest'},
    Encodes b head vaultIndex message rest → Encodes b head' vaultIndex' message' rest' →
      head = head' ∧ vaultIndex = vaultIndex' ∧ message = message' ∧ rest = rest'
  /-- it throws otherwise -/
  throws : (∀ head vaultIndex message rest, ¬Encodes b head vaultIndex message rest) →
    ∃ error, parseCreateTransactionData b = .error error
  /-- the program deserializes the same -/
  program_iff : b.take 8 = createTransactionTag → ∀ vaultIndex message,
    parseInstruction b = .ok (.createTransaction vaultIndex message) ↔
      ∃ head rest, Encodes b head vaultIndex message rest
  /-- the script is the parser -/
  script_eq : ByteScript.createTransaction.run truncated b 0 = readCreateTransaction b 0
  /-- every read is inside of `b` -/
  inside : ∀ p ∈ ByteScript.createTransaction.reads b 0, p.1 + p.2 ≤ b.length
  /-- and there are no more of them than bytes -/
  reads_le : (ByteScript.createTransaction.reads b 0).length ≤ b.length

/-- **The parser reads exactly the encodings**, on every byte string, whoever made it.
Forged counts only make it throw. -/
theorem parseCreateTransactionData_spec (b : List UInt8) : ParsesExactly b where
  ok_iff inner := by
    rw [parseCreateTransactionData_eq_ok]
    constructor
    · rintro ⟨vaultIndex, message, rest, hlen, hdec, rfl⟩
      exact ⟨_, vaultIndex, message, rest, encodes_iff.mpr ⟨rfl, hlen, hdec⟩, rfl⟩
    · rintro ⟨head, vaultIndex, message, rest, hencodes, rfl⟩
      obtain ⟨-, hlen, hdec⟩ := encodes_iff.mp hencodes
      exact ⟨vaultIndex, message, rest, hlen, hdec, rfl⟩
  unique h h' := by
    obtain ⟨rfl, -, hdec⟩ := encodes_iff.mp h
    obtain ⟨rfl, -, hdec'⟩ := encodes_iff.mp h'
    rw [hdec] at hdec'
    cases hdec'
    exact ⟨rfl, rfl, rfl, rfl⟩
  throws hnone := by
    cases hparse : parseCreateTransactionData b with
    | error error => exact ⟨error, rfl⟩
    | ok inner =>
      obtain ⟨vaultIndex, message, rest, hlen, hdec, -⟩ := parseCreateTransactionData_eq_ok.mp hparse
      exact absurd (encodes_iff.mpr ⟨rfl, hlen, hdec⟩) (hnone _ vaultIndex message rest)
  program_iff htag vaultIndex message := by
    have hlen : 8 ≤ b.length := by
      have htake : (b.take 8).length = 8 := by rw [htag]; rfl
      rw [List.length_take] at htake
      omega
    rw [parseInstruction_create htag, readArgs_eq_ok]
    constructor
    · rintro ⟨⟨⟨_, _⟩, rest⟩, hdec, hp⟩
      cases hp
      exact ⟨_, rest, encodes_iff.mpr ⟨rfl, hlen, hdec⟩⟩
    · rintro ⟨head, rest, hencodes⟩
      exact ⟨_, (encodes_iff.mp hencodes).2.2, rfl⟩
  script_eq := by rw [ByteScript.run_createTransaction]
  inside p hp := (Script.reads_inside _ b 0 p hp).2
  reads_le := ByteScript.thrifty_createTransaction.length_reads_le (Nat.zero_le _)

end SolanaMultisig.Sdk
