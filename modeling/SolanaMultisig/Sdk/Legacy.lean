import SolanaMultisig.Landing
import SolanaMultisig.Sdk.Decode

/-!
# The wire format of legacy transactions

The bytes of an unsigned transaction, their base64 text, and what web3.js makes of
them. The gates take web3.js as a parameter; a message written here is an instance
of it on which the parameter behaves as the library does.
-/

namespace SolanaMultisig.Sdk

open Wire Guard

/-! ## Text -/

/-- A digit of base64: letters, digits, and two more characters. -/
def base64Digit (n : ℕ) : Char :=
  if n < 26 then Char.ofNat (n + 65)
  else if n < 52 then Char.ofNat (n + 71)
  else if n < 62 then Char.ofNat (n - 4)
  else if n = 62 then '+' else '/'

/-- Three bytes are four digits; the end is padded to a multiple of four. -/
def base64Chars : List UInt8 → List Char
  | [] => []
  | [a] => [base64Digit (a.toNat / 4), base64Digit (a.toNat % 4 * 16), '=', '=']
  | [a, b] => [base64Digit (a.toNat / 4), base64Digit (a.toNat % 4 * 16 + b.toNat / 16),
      base64Digit (b.toNat % 16 * 4), '=']
  | a :: b :: c :: rest => base64Digit (a.toNat / 4) ::
      base64Digit (a.toNat % 4 * 16 + b.toNat / 16) ::
      base64Digit (b.toNat % 16 * 4 + c.toNat / 64) :: base64Digit (c.toNat % 64) ::
      base64Chars rest

/-- `bytes.toString("base64")`, with which a transaction is sent to a device. -/
def base64Encode (bytes : List UInt8) : String := String.ofList (base64Chars bytes)

/-- As in the test vectors everybody has. -/
example : [ascii "f", ascii "fo", ascii "foo", ascii "foob"].map base64Chars =
    ["Zg==", "Zm8=", "Zm9v", "Zm9vYg=="].map String.toList := by
  decide +kernel

/-! ## Messages -/

/-- A length prefix, seven bits a byte, the low ones first. -/
def compactU16 (n : ℕ) : List UInt8 :=
  if n < 128 then [UInt8.ofNat n]
  else if n < 16384 then [UInt8.ofNat (n % 128 + 128), UInt8.ofNat (n / 128)]
  else [UInt8.ofNat (n % 128 + 128), UInt8.ofNat (n / 128 % 128 + 128), UInt8.ofNat (n / 16384)]

/-- A legacy message: the header, the accounts it orders, a blockhash, and instructions by
positions. -/
structure LegacyMessage where
  numRequiredSignatures : ℕ
  numReadonlySigned : ℕ
  numReadonlyUnsigned : ℕ
  accountKeys : List Pubkey
  recentBlockhash : Bytes32
  instructions : List CompiledInstruction

namespace LegacyMessage

/-- The message behind empty signatures, one for each signer: what a device is asked to
sign. -/
def serialize (m : LegacyMessage) : List UInt8 :=
  compactU16 m.numRequiredSignatures ++ List.replicate (64 * m.numRequiredSignatures) 0 ++
    [m.numRequiredSignatures, m.numReadonlySigned, m.numReadonlyUnsigned].map UInt8.ofNat ++
    compactU16 m.accountKeys.length ++ m.accountKeys.flatMap Bytes32.bytes ++
    m.recentBlockhash.bytes ++ compactU16 m.instructions.length ++
    m.instructions.flatMap fun ix => ix.programIdIndex ::
      (compactU16 ix.accountIndexes.length ++ ix.accountIndexes ++ compactU16 ix.data.length ++
        ix.data)

/-- The key at an index, or zero beyond the accounts. -/
def key (m : LegacyMessage) (i : UInt8) : Pubkey := m.accountKeys.getD i.toNat Bytes32.zero

/-- The account at an index, with the privileges its position gives. -/
def accountMeta (m : LegacyMessage) (i : UInt8) : AccountMeta where
  pubkey := m.key i
  isSigner := decide (i.toNat < m.numRequiredSignatures)
  isWritable := decide (i.toNat + m.numReadonlySigned < m.numRequiredSignatures ∨
    m.numRequiredSignatures ≤ i.toNat ∧ i.toNat + m.numReadonlyUnsigned < m.accountKeys.length)

/-- The transaction the message stands for, paid by the first account. -/
def transaction (m : LegacyMessage) : Transaction where
  feePayer := m.accountKeys.head?
  instructions := m.instructions.map fun ix =>
    ⟨m.key ix.programIdIndex, ix.accountIndexes.map m.accountMeta, ix.data⟩

/-- The message as it is sent to a device. -/
def base64 (m : LegacyMessage) : String := base64Encode m.serialize

/-- The libraries, as far as this message is concerned: they read back its bytes and no
others. -/
def web3 (m : LegacyMessage) : Web3 where
  base64 text := if text = m.base64 then m.serialize else []
  transactionFrom bytes :=
    if bytes = m.serialize then .ok m.transaction else .error "Reached end of buffer unexpectedly"

theorem transactionFrom_base64 (m : LegacyMessage) :
    m.web3.transactionFrom (m.web3.base64 m.base64) = .ok m.transaction := by
  simp [web3]

theorem serialize_ne_nil (m : LegacyMessage) : m.serialize ≠ [] := by
  simp [serialize]

/-- Parsing the text of a message sorts the instructions of its transaction. So an example
can be evaluated without the bytes. -/
@[simp] theorem parseBundle_eq (m : LegacyMessage) (programId : Pubkey) :
    parseBundle m.web3 m.base64 programId = parseTransaction programId m.transaction := by
  have hbase : m.web3.base64 m.base64 = m.serialize := by simp [web3]
  have hfrom : m.web3.transactionFrom m.serialize = .ok m.transaction := by simp [web3]
  have hne : require (m.serialize ≠ []) "empty transaction bytes" = .ok () := by
    simp [m.serialize_ne_nil]
  simp only [parseBundle, hbase, hfrom, hne]
  rfl

/-- Decoding the text of a message reports on its transaction, for the same reason. -/
theorem decode_eq (env : Env) (m : LegacyMessage) (programId : Pubkey)
    (opts : DecodeVaultSolanaOptions) :
    decodeVaultSolanaTransaction env m.web3 m.base64 programId opts =
      .ofResult (parseTransaction programId m.transaction >>= fun b => decodeBundle env b opts) := by
  rw [decodeVaultSolanaTransaction, parseBundle_eq]

end LegacyMessage

/-! ## Compiling -/

/-- An instruction, by the positions of its keys among the accounts of the message. -/
def compileOuter (keys : List Pubkey) (o : OuterInstruction) : CompiledInstruction where
  programIdIndex := UInt8.ofNat (keys.idxOf o.program)
  accountIndexes := o.infos.map fun info => UInt8.ofNat (keys.idxOf info.key)
  data := o.data

theorem LegacyMessage.key_idxOf {m : LegacyMessage} {k : Pubkey} (hlen : m.accountKeys.length ≤ 256)
    (hk : k ∈ m.accountKeys) : m.key (UInt8.ofNat (m.accountKeys.idxOf k)) = k := by
  have hlt := List.idxOf_lt_length_of_mem hk
  have hnat : (UInt8.ofNat (m.accountKeys.idxOf k)).toNat = m.accountKeys.idxOf k :=
    UInt8.toNat_ofNat_of_lt' (lt_of_lt_of_le hlt hlen)
  rw [LegacyMessage.key, hnat, List.getD_eq_getElem?_getD, List.getElem?_eq_getElem hlt,
    Option.getD_some, List.getElem_idxOf]

/-- A message made of instructions stands for these instructions, if its accounts have all
their keys. -/
theorem LegacyMessage.submittedAs {m : LegacyMessage} {os : List OuterInstruction}
    (hm : m.instructions = os.map (compileOuter m.accountKeys))
    (hlen : m.accountKeys.length ≤ 256)
    (hkeys : ∀ o ∈ os, o.program ∈ m.accountKeys ∧ ∀ info ∈ o.infos, info.key ∈ m.accountKeys) :
    List.Forall₂ Instruction.SubmittedAs m.transaction.instructions os := by
  rw [LegacyMessage.transaction, hm, List.map_map, List.forall₂_map_left_iff, List.forall₂_same]
  intro o ho
  obtain ⟨hprogram, hinfos⟩ := hkeys o ho
  simp only [Function.comp, compileOuter]
  refine ⟨?_, ?_, rfl⟩
  · rw [key_idxOf hlen hprogram]
  · simp only [Instruction.keys, List.map_map]
    refine List.map_congr_left fun info hinfo => ?_
    simp only [Function.comp, accountMeta]
    rw [key_idxOf hlen (hinfos info hinfo)]

end SolanaMultisig.Sdk
