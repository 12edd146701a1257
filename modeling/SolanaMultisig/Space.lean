import SolanaMultisig.State

/-!
# How much space the accounts need

The program reserves the space of an account once, by a formula, and Anchor writes
the encoding of the account into it again and again. The formulas are exact: a
multisig always fills its account, a proposal does once every member has approved
(`length_bytes_multisig`, `length_bytes_transaction`).
-/

namespace SolanaMultisig

open Wire

/-! ## Layouts -/

/-- A list of keys takes four bytes for its length and 32 for each key. -/
@[simp] theorem length_encode_keys (keys : List Pubkey) :
    (Codec.bytes32.vec.encode keys).length = 4 + keys.length * 32 :=
  Codec.length_encode_vec_of_width Codec.length_encode_bytes32 keys

@[simp] theorem length_encode_bytes (bytes : List UInt8) :
    (Codec.byte.vec.encode bytes).length = 4 + bytes.length := by
  rw [Codec.length_encode_vec_of_width Codec.length_encode_byte, mul_one]

/-- The instructions of a message, as `compute_proposal_space` adds them up: each with its
program, its indexes and its data. -/
theorem length_encode_instructions (l : List CompiledInstruction) :
    (CompiledInstruction.codec.vec.encode l).length =
      4 + (l.map fun ix => 1 + 4 + ix.accountIndexes.length + 4 + ix.data.length).sum := by
  have hsize : ∀ ix : CompiledInstruction, (CompiledInstruction.codec.encode ix).length =
      1 + 4 + ix.accountIndexes.length + 4 + ix.data.length := by
    intro ix
    simp only [CompiledInstruction.codec, Codec.encode_iso, Codec.length_encode_pair,
      Codec.length_encode_byte, length_encode_bytes]
    omega
  simp only [Codec.length_encode_vec, hsize]

theorem length_encode_lookups (l : List MessageAddressTableLookup) :
    (MessageAddressTableLookup.codec.vec.encode l).length =
      4 + (l.map fun lookup =>
        32 + 4 + lookup.writableIndexes.length + 4 + lookup.readonlyIndexes.length).sum := by
  have hsize : ∀ lookup : MessageAddressTableLookup,
      (MessageAddressTableLookup.codec.encode lookup).length =
        32 + 4 + lookup.writableIndexes.length + 4 + lookup.readonlyIndexes.length := by
    intro lookup
    simp only [MessageAddressTableLookup.codec, Codec.encode_iso, Codec.length_encode_pair,
      Codec.length_encode_bytes32, length_encode_bytes]
    omega
  simp only [Codec.length_encode_vec, hsize]

/-- The encoding of a message: the fixed fields and the three vectors. It has no padding, so
the sum is exact and not only a bound. -/
theorem length_encode_message (message : TransactionMessage) :
    (TransactionMessage.codec.encode message).length =
      1 + 1 + 1 + (4 + message.accountKeys.length * 32) +
        (4 + (message.instructions.map fun ix =>
          1 + 4 + ix.accountIndexes.length + 4 + ix.data.length).sum) +
        (4 + (message.addressTableLookups.map fun l =>
          32 + 4 + l.writableIndexes.length + 4 + l.readonlyIndexes.length).sum) := by
  simp only [TransactionMessage.codec, Codec.encode_iso, Codec.length_encode_pair,
    Codec.length_encode_byte, length_encode_keys, length_encode_instructions,
    length_encode_lookups]
  omega

theorem short_instruction : CompiledInstruction.codec.Short :=
  (Codec.short_byte.pair ((Codec.short_byte.vec fun _ => Nat.one_pos).pair
    (Codec.short_byte.vec fun _ => Nat.one_pos))).iso

theorem short_lookup : MessageAddressTableLookup.codec.Short :=
  (Codec.short_bytes32.pair ((Codec.short_byte.vec fun _ => Nat.one_pos).pair
    (Codec.short_byte.vec fun _ => Nat.one_pos))).iso

/-- A message of fewer than `2 ^ 32` bytes has an encoding. -/
theorem short_message : TransactionMessage.codec.Short := by
  have hkey : ∀ k : Bytes32, 0 < (Codec.bytes32.encode k).length := by simp
  have hix : ∀ ix, 0 < (CompiledInstruction.codec.encode ix).length := by
    simp [CompiledInstruction.codec]
  have hlookup : ∀ l, 0 < (MessageAddressTableLookup.codec.encode l).length := by
    simp [MessageAddressTableLookup.codec]
  exact (Codec.short_byte.pair (Codec.short_byte.pair (Codec.short_byte.pair
    ((Codec.short_bytes32.vec hkey).pair ((short_instruction.vec hix).pair
      (short_lookup.vec hlookup)))))).iso

/-! ## Accounts -/

/-- An account starts with the eight bytes of its discriminator. -/
theorem AccountType.length_bytes {α : Type} (T : AccountType α) (a : α) :
    (T.bytes a).length = 8 + (T.codec.encode a).length := by
  rw [AccountType.bytes, List.length_append, T.length_discriminator]

/-- **A multisig fills its account**, in every state: nothing in it has a varying length
once the members are fixed. -/
theorem length_bytes_multisig (m : Multisig) :
    (multisigAccount.bytes m).length = computeMultisigSpace m.members.length := by
  rw [AccountType.length_bytes]
  simp only [multisigAccount, Multisig.codec, Codec.encode_iso, Codec.length_encode_pair,
    Codec.length_encode_byte, Codec.length_encode_u64, length_encode_keys, computeMultisigSpace]
  omega

/-- **A proposal fills its account** but for the approvals still to come, each of which
takes 32 bytes more. -/
theorem length_bytes_transaction {t : VaultTransaction} {memberCount : ℕ}
    (h : t.approvals.length ≤ memberCount) :
    (transactionAccount.bytes t).length =
      computeProposalSpace t.message memberCount - 32 * (memberCount - t.approvals.length) := by
  rw [AccountType.length_bytes]
  simp only [transactionAccount, VaultTransaction.codec, Codec.encode_iso,
    Codec.length_encode_pair, Codec.length_encode_bytes32, Codec.length_encode_u64,
    Codec.length_encode_byte, Codec.length_encode_bool, length_encode_keys,
    length_encode_message, computeProposalSpace]
  omega

/-- So it always fits, as long as there are no more approvals than members. -/
theorem length_bytes_transaction_le {t : VaultTransaction} {memberCount : ℕ}
    (h : t.approvals.length ≤ memberCount) :
    (transactionAccount.bytes t).length ≤ computeProposalSpace t.message memberCount := by
  rw [length_bytes_transaction h]
  exact Nat.sub_le _ _

/-- Multisigs of up to 30 members have an encoding: the length of the list fits in four
bytes. -/
theorem fits_multisig {m : Multisig} (h : m.members.length ≤ maxMembers) :
    multisigAccount.codec.Fits m := by
  have hlen : m.members.length < 256 ^ 4 := by
    rw [maxMembers] at h
    omega
  exact ⟨⟨hlen, fun _ _ => trivial⟩, trivial, trivial, trivial⟩

end SolanaMultisig
