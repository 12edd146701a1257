import SolanaMultisig.Lib.Cursor
import SolanaMultisig.State
import SolanaMultisig.Sdk.Web3

/-!
# Reading Borsh in the SDK

The `ByteReader` of the decoder and the two layouts it knows. Each of its methods
agrees with the codec the program uses, and so do the parsers made of them
(`parseTransactionMessage_agrees`, `readVaultTransaction_agrees`): the SDK and the
program accept the same bytes and see the same message.
-/

namespace SolanaMultisig.Sdk

open Wire Guard

/-- A sequential Borsh reader with strict bounds checking. Its errors are texts. -/
abbrev ByteReader (α : Type) := Reader String α

/-! ## The methods -/

namespace ByteReader

/-- `readUInt32LE`, `readBigUInt64LE` and their like: the next `n` bytes, or an error that
says what was needed and what there is. -/
def bytes (n : ℕ) : ByteReader (List UInt8) := fun buf offset =>
  if offset + n ≤ buf.length then .ok ((buf.drop offset).take n, offset + n)
  else .error ("truncated data: need " ++ toString n ++ " byte(s) at offset " ++ toString offset ++
    ", have " ++ toString buf.length)

/-- A byte. Where the read succeeds there is exactly one. -/
def u8 : ByteReader UInt8 := do
  let b ← bytes 1
  pure (b.headD 0)

/-- A 4-byte little-endian number, as Borsh writes counts and lengths. -/
def u32 : ByteReader ℕ := do
  let b ← bytes 4
  pure (leNat b)

/-- An 8-byte little-endian number. It is a big integer in the source, so nothing is
rounded. -/
def u64 : ByteReader ℕ := do
  let b ← bytes 8
  pure (leNat b)

/-- A boolean byte, where anything but zero and one is an error, as it is for the program.
-/
def bool : ByteReader Bool := do
  let v ← u8
  if 1 < v.toNat then Reader.fail ("invalid bool byte " ++ toString v.toNat) else pure (v == 1)

/-- A key. Its 32 bytes make one whatever they are. -/
def pubkey : ByteReader Pubkey := do
  let b ← bytes 32
  match Bytes32.ofList? b with
  | some k => pure k
  | none => Reader.fail "Invalid public key input"

/-- A count, then that many values. -/
def vec {α : Type} (r : ByteReader α) : ByteReader (List α) := do
  let count ← u32
  r.times count

/-- A length, then that many bytes. -/
def blob : ByteReader (List UInt8) := do
  let len ← u32
  bytes len

end ByteReader

/-! ## The layouts -/

/-- **A message as the decoder keeps it.** Of lookup tables only the number is kept, and the
counts of the header are dropped. -/
structure InnerMessage where
  /-- the vault it spends from -/
  vaultIndex : UInt8
  /-- the static keys -/
  accountKeys : List Pubkey
  /-- the instructions, in order -/
  instructions : List CompiledInstruction
  /-- how many lookup tables it names -/
  addressTableLookupCount : ℕ
  deriving DecidableEq

/-- One instruction of a message: the program by position, then accounts and data. -/
def parseCompiledInstruction : ByteReader CompiledInstruction := do
  let programIdIndex ← ByteReader.u8
  let accountIndexes ← ByteReader.blob
  let data ← ByteReader.blob
  pure ⟨programIdIndex, accountIndexes, data⟩

/-- One lookup table, skipped: its key and two lists of positions. -/
def skipLookup : ByteReader Unit := do
  let _ ← ByteReader.bytes 32
  let _ ← ByteReader.blob
  let _ ← ByteReader.blob
  pure ()

/-- Parse a Borsh `TransactionMessage`, which both layouts contain. The vault index comes
from outside of it. -/
def parseTransactionMessage (vaultIndex : UInt8) : ByteReader InnerMessage := do
  let _ ← ByteReader.u8
  let _ ← ByteReader.u8
  let _ ← ByteReader.u8
  let accountKeys ← ByteReader.pubkey.vec
  let instructions ← parseCompiledInstruction.vec
  let lookups ← skipLookup.vec
  pure ⟨vaultIndex, accountKeys, instructions, lookups.length⟩

/-- `create_transaction` instruction data; the discriminator was matched by the caller. -/
def readCreateTransaction : ByteReader InnerMessage := do
  let _ ← ByteReader.bytes 8
  let vaultIndex ← ByteReader.u8
  parseTransactionMessage vaultIndex

/-- Parse `create_transaction` instruction data. Bytes behind the message are ignored. -/
def parseCreateTransactionData (data : List UInt8) : Except String InnerMessage :=
  (readCreateTransaction data 0).map Prod.fst

/-- The fields of a `VaultTransaction` the decoder looks at, in the order in which they are
stored. -/
structure StoredProposal where
  /-- the multisig it belongs to -/
  multisig : Pubkey
  /-- its index -/
  transactionIndex : ℕ
  /-- who created it -/
  creator : Pubkey
  /-- who paid the rent -/
  payer : Pubkey
  /-- the vault it spends from -/
  vaultIndex : UInt8
  /-- has it been executed? -/
  executed : Bool
  /-- who approved -/
  approvals : List Pubkey
  /-- what it will run -/
  inner : InnerMessage

/-- Read a `VaultTransaction` behind its discriminator. -/
def readVaultTransaction : ByteReader StoredProposal := do
  let multisig ← ByteReader.pubkey
  let transactionIndex ← ByteReader.u64
  let creator ← ByteReader.pubkey
  let payer ← ByteReader.pubkey
  let _ ← ByteReader.u8
  let vaultIndex ← ByteReader.u8
  let _ ← ByteReader.u8
  let executed ← ByteReader.bool
  let approvals ← ByteReader.pubkey.vec
  let inner ← parseTransactionMessage vaultIndex
  pure ⟨multisig, transactionIndex, creator, payer, vaultIndex, executed, approvals, inner⟩

/-- The message as the decoder keeps it, of one that the program has. -/
def InnerMessage.of (vaultIndex : UInt8) (message : TransactionMessage) : InnerMessage :=
  ⟨vaultIndex, message.accountKeys, message.instructions, message.addressTableLookups.length⟩

/-- The proposal as the decoder keeps it, of one that the program has stored. -/
def StoredProposal.of (t : VaultTransaction) : StoredProposal :=
  ⟨t.multisig, t.transactionIndex.toNat, t.creator, t.payer, t.vaultIndex, t.executed, t.approvals,
    InnerMessage.of t.vaultIndex t.message⟩

/-! ## Agreement with the program's codecs -/

namespace ByteReader

theorem toOption_bytes (n : ℕ) (buf : List UInt8) {offset : ℕ} (h : offset ≤ buf.length) :
    (bytes n buf offset).toOption =
      (Codec.byte.times n (buf.drop offset)).map (located buf id) := by
  rw [Codec.byte_times, bytes, List.length_drop]
  by_cases hn : offset + n ≤ buf.length
  · rw [if_pos hn, if_pos (by omega)]
    simp only [Except.toOption, Option.map_some, located, id, List.length_drop]
    congr 2
    omega
  · rw [if_neg hn, if_neg (by omega)]
    rfl

theorem bytes_agrees (n : ℕ) : Agrees (bytes n) (Codec.raw n) id := by
  intro buf offset h
  rw [toOption_bytes n buf h, Codec.byte_times]
  rfl

theorem u8_agrees : Agrees u8 Codec.byte id := by
  intro buf offset h
  have hbytes := bytes_agrees 1 buf offset h
  have hmap := (bytes_agrees 1).map (fun b => b.headD 0) buf offset h
  rw [u8, hmap]
  cases hdrop : buf.drop offset with
  | nil => rfl
  | cons b rest => simp [Codec.raw, Codec.byte, located]

theorem le_agrees (n : ℕ) : Agrees (bytes n >>= fun b => pure (leNat b)) (Codec.le n) id := by
  intro buf offset h
  rw [(bytes_agrees n).map leNat buf offset h]
  simp only [Codec.raw, Codec.le]
  split <;> rfl

theorem u32_agrees : Agrees u32 (Codec.le 4) id := le_agrees 4

theorem u64_agrees : Agrees u64 Codec.u64 UInt64.toNat := by
  intro buf offset h
  rw [u64, le_agrees 8 buf offset h]
  simp only [Codec.u64, Codec.subtype, Codec.le]
  split
  · have hlt : leNat ((buf.drop offset).take 8) < 2 ^ 64 := by
      have hle := leNat_lt ((buf.drop offset).take 8)
      rwa [List.length_take_of_le ‹_›] at hle
    simp only [Option.bind_some, Option.map_some, located, id, if_pos hlt,
      UInt64.toNat_ofNat_of_lt' hlt]
  · rfl

theorem bool_agrees : Agrees bool Codec.bool id := by
  refine Agrees.refine
    (fun b => if b = 0 then some false else if b = 1 then some true else none)
    (fun _ => rfl) u8_agrees ?_
  intro b buf offset
  rw [id]
  split
  · rename_i hlarge
    rw [if_neg, if_neg]
    · rfl
    · rintro rfl
      exact absurd hlarge (by decide)
    · rintro rfl
      exact absurd hlarge (by decide)
  · rename_i hsmall
    have hcases : b = 0 ∨ b = 1 := by
      rcases Nat.lt_or_ge b.toNat 1 with h | h
      · exact .inl (UInt8.toNat_inj.mp (by change b.toNat = 0; omega))
      · exact .inr (UInt8.toNat_inj.mp (by change b.toNat = 1; omega))
    rcases hcases with rfl | rfl <;> rfl

theorem pubkey_agrees : Agrees pubkey Codec.bytes32 id := by
  refine Agrees.refine Bytes32.ofList? (fun _ => rfl) (bytes_agrees 32) ?_
  intro b buf offset
  rw [id]
  cases Bytes32.ofList? b <;> rfl

/-- A key that is only skipped has the length of a key all the same. -/
theorem keyBytes_agrees : Agrees (bytes 32) Codec.bytes32 Bytes32.bytes := by
  intro buf offset h
  rw [bytes_agrees 32 buf offset h]
  simp only [Codec.bytes32, Codec.subtype, Codec.raw]
  split
  · rename_i hlen
    have hkey : ((buf.drop offset).take 32).length = 32 := List.length_take_of_le hlen
    simp only [Bytes32.ofList?, dif_pos hkey, Option.bind_some, Option.map_some, located, id]
  · rfl

theorem vec_agrees {α β : Type} {r : ByteReader α} {c : Codec β} {f : β → α}
    (hr : Agrees r c f) : Agrees r.vec c.vec (List.map f) :=
  Agrees.vec u32_agrees hr

theorem vec_agrees_id {α : Type} {r : ByteReader α} {c : Codec α} (hr : Agrees r c id) :
    Agrees r.vec c.vec id := by
  have hvec := vec_agrees hr
  rwa [List.map_id_fun] at hvec

theorem blob_agrees : Agrees blob Codec.byte.vec id := by
  intro buf offset h
  refine located_bind (fun n rest => Codec.byte.times n rest) u32_agrees h ?_ rfl
  intro n rest hdec
  rw [id, toOption_bytes n buf (Nat.sub_le _ _), (Codec.le 4).drop_of_decode hdec]

end ByteReader

open ByteReader

theorem parseCompiledInstruction_agrees : Agrees parseCompiledInstruction CompiledInstruction.codec id := by
  refine Agrees.iso (u8_agrees.bind fun i => blob_agrees.bind fun accounts =>
    blob_agrees.map fun data => CompiledInstruction.mk i accounts data) ?_
  exact fun _ => rfl

theorem skipLookup_agrees :
    Agrees skipLookup MessageAddressTableLookup.codec fun _ => () := by
  refine Agrees.iso (keyBytes_agrees.bind fun _ => blob_agrees.bind fun _ =>
    blob_agrees.map fun _ => ()) ?_
  exact fun _ => rfl

/-- **The SDK and the program read the same messages**: from the same bytes, with the same
bytes left over. -/
theorem parseTransactionMessage_agrees (vaultIndex : UInt8) :
    Agrees (parseTransactionMessage vaultIndex) TransactionMessage.codec
      (InnerMessage.of vaultIndex) := by
  refine Agrees.iso (u8_agrees.bind fun _ => u8_agrees.bind fun _ => u8_agrees.bind fun _ =>
    (vec_agrees_id pubkey_agrees).bind fun accountKeys =>
      (vec_agrees_id parseCompiledInstruction_agrees).bind fun instructions =>
        (vec_agrees skipLookup_agrees).map fun lookups =>
          InnerMessage.mk vaultIndex accountKeys instructions lookups.length) ?_
  rintro ⟨_, _, _, accountKeys, instructions, lookups⟩
  simp [InnerMessage.of]

/-- The two read the same proposals, field by field. -/
theorem readVaultTransaction_agrees :
    Agrees readVaultTransaction VaultTransaction.codec StoredProposal.of := by
  refine Agrees.iso (pubkey_agrees.bind fun multisig => u64_agrees.bind fun index =>
    pubkey_agrees.bind fun creator => pubkey_agrees.bind fun payer => u8_agrees.bind fun _ =>
      u8_agrees.bind fun vaultIndex => u8_agrees.bind fun _ => bool_agrees.bind fun executed =>
        (vec_agrees_id pubkey_agrees).bind fun approvals =>
          (parseTransactionMessage_agrees vaultIndex).map fun inner =>
            StoredProposal.mk multisig index.toNat creator payer vaultIndex executed approvals
              inner) ?_
  exact fun _ => rfl

/-- What a reader returns is a view of what the codec decodes. This is what agreement comes
to where the rest is of no interest. -/
theorem map_fst_eq_ok {α β : Type} {r : ByteReader α} {c : Codec β} {f : β → α}
    (hr : Agrees r c f) {buf : List UInt8} {offset : ℕ} {a : α} (hoffset : offset ≤ buf.length) :
    (r buf offset).map Prod.fst = .ok a ↔
      ∃ b rest, c.decode (buf.drop offset) = some (b, rest) ∧ f b = a := by
  have hread := hr buf offset hoffset
  have hok : (r buf offset).map Prod.fst = .ok a ↔
      ∃ next, (r buf offset).toOption = some (a, next) := by
    cases r buf offset with
    | error e => simp [Except.map, Except.toOption]
    | ok p =>
      obtain ⟨x, next⟩ := p
      simp [Except.map, Except.toOption]
  rw [hok, hread]
  constructor
  · rintro ⟨next, hdec⟩
    obtain ⟨⟨b, rest⟩, hb, hloc⟩ := Option.map_eq_some_iff.mp hdec
    exact ⟨b, rest, hb, congrArg Prod.fst hloc⟩
  · rintro ⟨b, rest, hb, rfl⟩
    exact ⟨buf.length - rest.length, Option.map_eq_some_iff.mpr ⟨(b, rest), hb, rfl⟩⟩

/-- **The parser of `create_transaction` data, as one condition**: it succeeds when the
program deserializes the arguments, and returns what the program sees. -/
theorem parseCreateTransactionData_eq_ok {data : List UInt8} {inner : InnerMessage} :
    parseCreateTransactionData data = .ok inner ↔
      ∃ vaultIndex message rest, 8 ≤ data.length ∧
        (Codec.byte.pair TransactionMessage.codec).decode (data.drop 8) =
          some ((vaultIndex, message), rest) ∧ inner = InnerMessage.of vaultIndex message := by
  have hargs : Agrees (u8 >>= parseTransactionMessage) (Codec.byte.pair TransactionMessage.codec)
      fun p => InnerMessage.of p.1 p.2 :=
    u8_agrees.bind parseTransactionMessage_agrees
  have hagrees : Agrees readCreateTransaction
      ((Codec.raw 8).pair (Codec.byte.pair TransactionMessage.codec))
      fun p => InnerMessage.of p.2.1 p.2.2 :=
    Agrees.bind (d := Codec.byte.pair TransactionMessage.codec)
      (k := fun _ => u8 >>= parseTransactionMessage)
      (g := fun _ (p : UInt8 × TransactionMessage) => InnerMessage.of p.1 p.2)
      (bytes_agrees 8) fun _ => hargs
  rw [parseCreateTransactionData, map_fst_eq_ok hagrees (Nat.zero_le _), List.drop_zero]
  constructor
  · rintro ⟨⟨head, vaultIndex, message⟩, rest, hp, rfl⟩
    obtain ⟨⟨head', data'⟩, hraw, hq⟩ := Option.bind_eq_some_iff.mp hp
    obtain ⟨⟨args, rest'⟩, hread', he⟩ := Option.map_eq_some_iff.mp hq
    simp only [Codec.raw] at hraw
    split at hraw
    · rename_i hlen
      cases hraw
      cases he
      exact ⟨vaultIndex, message, _, hlen, hread', rfl⟩
    · cases hraw
  · rintro ⟨vaultIndex, message, rest, hlen, hdec, rfl⟩
    refine ⟨(data.take 8, vaultIndex, message), rest, ?_, rfl⟩
    refine Option.bind_eq_some_iff.mpr ⟨(data.take 8, data.drop 8), if_pos hlen, ?_⟩
    exact Option.map_eq_some_iff.mpr ⟨((vaultIndex, message), rest), hdec, rfl⟩

end SolanaMultisig.Sdk
