import SolanaMultisig.Anchor

/-!
# Accounts of the program

The two account structs with their Borsh layouts, the space reserved for them
and the limits.
-/

namespace SolanaMultisig

open Wire

/-! ## Limits -/

/-- Members of a multisig. Only `initialize_multisig` checks it; the bound keeps the account
and the transaction that registers it small. -/
def maxMembers : ℕ := 30

/-- Static account keys of a message. A message has no others, as lookup tables inside a
proposal are refused. -/
def maxTxAccountKeys : ℕ := 128

/-- Instructions of a message. -/
def maxTxInstructions : ℕ := 16

/-- Account references of an instruction. -/
def maxInstructionAccounts : ℕ := 64

/-- Bytes of instruction data. -/
def maxInstructionDataLen : ℕ := 1024

/-- Accounts a transaction can address with one byte. With at most 128 static keys and no
lookup tables the check against it cannot fail. -/
def maxCombinedAccounts : ℕ := 256

/-! ## Structs -/

/-- A multisig: its configuration and the proposal counter. Members and threshold are
written once, at registration; the counter is the only field any instruction changes later.
-/
structure Multisig where
  /-- sorted member keys -/
  members : List Pubkey
  /-- approvals needed -/
  threshold : UInt8
  /-- index of the newest proposal -/
  transactionIndex : UInt64
  /-- bump seed of the account's address -/
  bump : UInt8
  deriving DecidableEq

/-- An instruction of a message: program and accounts by index into the keys of the message,
so that a key that several instructions use is stored once. -/
structure CompiledInstruction where
  /-- index of the program -/
  programIdIndex : UInt8
  /-- indexes of the accounts -/
  accountIndexes : List UInt8
  /-- input of the program -/
  data : List UInt8
  deriving DecidableEq

/-- A reference to an address lookup table. It is part of the stored layout, but no proposal
can carry one: the executor would choose what the table says. -/
structure MessageAddressTableLookup where
  /-- the table -/
  accountKey : Pubkey
  /-- entries loaded writable -/
  writableIndexes : List UInt8
  /-- entries loaded read-only -/
  readonlyIndexes : List UInt8
  deriving DecidableEq

/-- What a proposal will run. Signers come first in `accountKeys`, then writable
non-signers, then the rest; the three counts say where the blocks end. -/
structure TransactionMessage where
  /-- signers in `accountKeys` -/
  numSigners : UInt8
  /-- writable ones among them -/
  numWritableSigners : UInt8
  /-- writable keys after the signers -/
  numWritableNonSigners : UInt8
  /-- all accounts, the vault first -/
  accountKeys : List Pubkey
  /-- the instructions, in order -/
  instructions : List CompiledInstruction
  /-- lookup tables -/
  addressTableLookups : List MessageAddressTableLookup
  deriving DecidableEq

/-- A proposal: where it belongs, who created and paid for it, which vault it spends from,
how far it has come, and the message it will run. -/
structure VaultTransaction where
  /-- the multisig it belongs to -/
  multisig : Pubkey
  /-- the counter at creation -/
  transactionIndex : UInt64
  /-- the member who created it -/
  creator : Pubkey
  /-- who paid the rent and gets it back -/
  payer : Pubkey
  /-- bump seed of the account's address -/
  bump : UInt8
  /-- the vault it spends from -/
  vaultIndex : UInt8
  /-- bump seed of that vault -/
  vaultBump : UInt8
  /-- has it been executed? -/
  executed : Bool
  /-- members who approved, in order -/
  approvals : List Pubkey
  /-- what it will run -/
  message : TransactionMessage
  deriving DecidableEq

/-! ## Layouts -/

/-- Borsh layout of `Multisig`: the fields in the order of the struct, the members with a
length of four bytes in front. -/
def Multisig.codec : Codec Multisig :=
  (Codec.bytes32.vec.pair (Codec.byte.pair (Codec.u64.pair Codec.byte))).iso
    (fun p => ⟨p.1, p.2.1, p.2.2.1, p.2.2.2⟩)
    (fun m => (m.members, m.threshold, m.transactionIndex, m.bump))
    (fun _ => rfl) (fun _ => rfl)

/-- Borsh layout of `CompiledInstruction`. -/
def CompiledInstruction.codec : Codec CompiledInstruction :=
  (Codec.byte.pair (Codec.byte.vec.pair Codec.byte.vec)).iso
    (fun p => ⟨p.1, p.2.1, p.2.2⟩)
    (fun c => (c.programIdIndex, c.accountIndexes, c.data))
    (fun _ => rfl) (fun _ => rfl)

/-- Borsh layout of `MessageAddressTableLookup`. -/
def MessageAddressTableLookup.codec : Codec MessageAddressTableLookup :=
  (Codec.bytes32.pair (Codec.byte.vec.pair Codec.byte.vec)).iso
    (fun p => ⟨p.1, p.2.1, p.2.2⟩)
    (fun l => (l.accountKey, l.writableIndexes, l.readonlyIndexes))
    (fun _ => rfl) (fun _ => rfl)

/-- Borsh layout of `TransactionMessage`. -/
def TransactionMessage.codec : Codec TransactionMessage :=
  (Codec.byte.pair (Codec.byte.pair (Codec.byte.pair (Codec.bytes32.vec.pair
      (CompiledInstruction.codec.vec.pair MessageAddressTableLookup.codec.vec))))).iso
    (fun p => ⟨p.1, p.2.1, p.2.2.1, p.2.2.2.1, p.2.2.2.2.1, p.2.2.2.2.2⟩)
    (fun m => (m.numSigners, m.numWritableSigners, m.numWritableNonSigners, m.accountKeys,
      m.instructions, m.addressTableLookups))
    (fun _ => rfl) (fun _ => rfl)

/-- Borsh layout of `VaultTransaction`. The approvals stand before the message, so an
approval moves the message by 32 bytes inside the account. -/
def VaultTransaction.codec : Codec VaultTransaction :=
  (Codec.bytes32.pair (Codec.u64.pair (Codec.bytes32.pair (Codec.bytes32.pair (Codec.byte.pair
      (Codec.byte.pair (Codec.byte.pair (Codec.bool.pair (Codec.bytes32.vec.pair
        TransactionMessage.codec))))))))).iso
    (fun p => ⟨p.1, p.2.1, p.2.2.1, p.2.2.2.1, p.2.2.2.2.1, p.2.2.2.2.2.1, p.2.2.2.2.2.2.1,
      p.2.2.2.2.2.2.2.1, p.2.2.2.2.2.2.2.2.1, p.2.2.2.2.2.2.2.2.2⟩)
    (fun t => (t.multisig, t.transactionIndex, t.creator, t.payer, t.bump, t.vaultIndex,
      t.vaultBump, t.executed, t.approvals, t.message))
    (fun _ => rfl) (fun _ => rfl)

/-- `Account<'info, Multisig>`. The discriminator is the first eight bytes of
`sha256("account:Multisig")`. -/
def multisigAccount : AccountType Multisig where
  discriminator := [224, 116, 121, 186, 68, 161, 79, 236]
  length_discriminator := rfl
  codec := Multisig.codec

/-- `Account<'info, VaultTransaction>`, with the first eight bytes of
`sha256("account:VaultTransaction")`; the decoder of the SDK compares the same constant. -/
def transactionAccount : AccountType VaultTransaction where
  discriminator := [168, 250, 162, 100, 81, 14, 162, 207]
  length_discriminator := rfl
  codec := VaultTransaction.codec

theorem discriminator_ne : multisigAccount.discriminator ≠ transactionAccount.discriminator := by
  decide

/-- The bytes a multisig of `memberCount` members needs: the discriminator, the length of
the member list, the members and the three scalars. The counter changes in place. -/
def computeMultisigSpace (memberCount : ℕ) : ℕ := 8 + 4 + memberCount * 32 + 1 + 8 + 1

/-- The bytes a proposal of `message` needs in a multisig of `memberCount` members. Room for
every member's approval is reserved at once, so an approval never has to grow the account.
-/
def computeProposalSpace (message : TransactionMessage) (memberCount : ℕ) : ℕ :=
  8 + 32 + 8 + 32 + 32 + 1 + 1 + 1 + 1
    + 4 + memberCount * 32
    + 1 + 1 + 1
    + 4 + message.accountKeys.length * 32
    + 4 + (message.instructions.map fun ix =>
        1 + 4 + ix.accountIndexes.length + 4 + ix.data.length).sum
    + 4 + (message.addressTableLookups.map fun l =>
        32 + 4 + l.writableIndexes.length + 4 + l.readonlyIndexes.length).sum

end SolanaMultisig
