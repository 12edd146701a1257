import SolanaMultisig.Message
import SolanaMultisig.Sdk.Web3

/-!
# What calls move

The instructions a vault can be asked to run, read as movements of funds: System
transfers, token transfers with a named mint, and memos. `ExactFlows` says that a
list of calls pays a list of payees one by one, refunds at most a fixed sum to the
fee payer, and does nothing else. It speaks about the instructions themselves, not
about what a decoder makes of them.
-/

namespace SolanaMultisig

open Wire Sdk

variable {env : Env}

/-- The accounts of an instruction, by address, in its order. -/
def Instruction.keys (ix : Instruction) : List Pubkey := ix.accounts.map AccountMeta.pubkey

/-- A System transfer of `lamports` from `src` to `dst`; further accounts would be ignored.
-/
structure IsSystemTransfer (ix : Instruction) (src dst : Pubkey) (lamports : ℕ) : Prop where
  /-- run by the System program -/
  program_eq : ix.programId = systemProgramId
  /-- tag 2 and the amount -/
  data_eq : ix.data = leBytes 4 2 ++ leBytes 8 lamports
  /-- which is a `u64` -/
  lamports_lt : lamports < 2 ^ 64
  /-- from `src` to `dst` -/
  accounts : [src, dst] <+: ix.keys

/-- A `TransferChecked` of `amount` of `mint` into the token account `dst`. -/
structure IsTransferChecked (ix : Instruction) (mint dst authority : Pubkey) (amount : ℕ) :
    Prop where
  /-- run by one of the token programs -/
  program_eq : ix.programId = tokenProgramId ∨ ix.programId = token2022ProgramId
  /-- tag 12, the amount and the decimals -/
  data_eq : ∃ decimals, ix.data = 12 :: (leBytes 8 amount ++ [decimals])
  /-- which is a `u64` -/
  amount_lt : amount < 2 ^ 64
  /-- from some account the authority may debit -/
  accounts : ∃ source, [source, mint, dst, authority] <+: ix.keys

/-- A memo without accounts: a memo with accounts would ask for their signatures, and the
vault's is at hand. -/
structure IsMemo (ix : Instruction) : Prop where
  /-- run by the Memo program -/
  program_eq : ix.programId = memoProgramId
  /-- on no account -/
  accounts_eq : ix.accounts = []

/-- `ata` is an associated token account of `owner` for `mint`, under Token or
Token-2022. -/
def IsAssociatedTokenAccount (env : Env) (owner mint ata : Pubkey) : Prop :=
  deriveAssociatedTokenAddress env owner mint tokenProgramId = .ok ata ∨
    deriveAssociatedTokenAddress env owner mint token2022ProgramId = .ok ata

/-- A payment to the address itself or, for tokens, into one of its associated token
accounts. The address may be the token account, so this is weaker than paying an owner. -/
def PaysAddress (env : Env) (vault : Pubkey) (tokenMint : Option String) (address : String)
    (amount : ℕ) (ix : Instruction) : Prop :=
  match tokenMint with
  | none => ∃ dst, toBase58 dst = address ∧ IsSystemTransfer ix vault dst amount
  | some text => ∃ mint dst, toBase58 mint = text ∧ IsTransferChecked ix mint dst vault amount ∧
      (toBase58 dst = address ∨
        ∃ owner, toBase58 owner = address ∧ IsAssociatedTokenAccount env owner mint dst)

/-- The calls are, up to order, one payment for each payee, refunds to the fee
payer of at most `maxFee` lamports in all, memos if they are allowed, and nothing
else. -/
structure ExactFlows {π : Type} (pays : π → Instruction → Prop) (payees : List π)
    (vault : Pubkey) (feePayer : Option String) (maxFee : ℕ) (allowMemo : Bool)
    (calls : List Instruction) : Prop where
  intro ::
  /-- the calls, sorted by purpose -/
  split : ∃ payments refunds memos, calls.Perm (payments ++ (refunds ++ memos)) ∧
    List.Forall₂ pays payees payments ∧
    (∃ amounts : List ℕ, amounts.sum ≤ maxFee ∧
      List.Forall₂ (fun lamports ix => ∃ dst, feePayer = some (toBase58 dst) ∧
        IsSystemTransfer ix vault dst lamports) amounts refunds) ∧
    ∀ ix ∈ memos, allowMemo = true ∧ IsMemo ix

/-! ## Reading the instructions of a message -/

/-- The calls a message stands for, in order: the list to which what an execution issues is
compared. -/
def TransactionMessage.calls (message : TransactionMessage) : List Instruction :=
  message.instructions.map message.instruction

theorem TransactionMessage.keys_instruction (message : TransactionMessage)
    (ix : CompiledInstruction) :
    (message.instruction ix).keys = ix.accountIndexes.map message.key := by
  simp [Instruction.keys, TransactionMessage.instruction, TransactionMessage.accountMeta]

/-- Twelve bytes with tag 2 are a transfer: the decoder's test of length and tag determines
them. -/
theorem systemTransfer_data {d : List UInt8} (hlen : d.length = 12) (htag : leNat (d.take 4) = 2) :
    d = leBytes 4 2 ++ leBytes 8 (leNat ((d.drop 4).take 8)) ∧
      leNat ((d.drop 4).take 8) < 2 ^ 64 := by
  have hhead : (d.take 4).length = 4 := by simp [hlen]
  have htail : (d.drop 4).take 8 = d.drop 4 := List.take_of_length_le (by simp [hlen])
  have htail8 : (d.drop 4).length = 8 := by simp [hlen]
  have h₁ := leBytes_leNat (d.take 4)
  have h₂ := leBytes_leNat (d.drop 4)
  have hlt := leNat_lt (d.drop 4)
  rw [hhead, htag] at h₁
  rw [htail8] at h₂ hlt
  rw [htail, h₁, h₂, List.take_append_drop]
  exact ⟨rfl, hlt⟩

/-- Ten bytes with tag 12 are a checked transfer, whose last byte are the decimals. -/
theorem transferChecked_data {d : List UInt8} (hlen : d.length = 10) (htag : d[0]? = some 12) :
    (∃ decimals, d = 12 :: (leBytes 8 (leNat ((d.drop 1).take 8)) ++ [decimals])) ∧
      leNat ((d.drop 1).take 8) < 2 ^ 64 := by
  obtain ⟨x, tail, rfl⟩ : ∃ x tail, d = x :: tail := List.exists_cons_of_length_eq_add_one hlen
  obtain rfl := Option.some.inj htag
  have htail : tail.length = 9 := by simpa using hlen
  have hamount : (tail.take 8).length = 8 := by simp [htail]
  obtain ⟨decimals, hdecimals⟩ : ∃ b, tail.drop 8 = [b] :=
    List.length_eq_one_iff.mp (by simp [htail])
  have h := leBytes_leNat (tail.take 8)
  have hlt := leNat_lt (tail.take 8)
  rw [hamount] at h hlt
  refine ⟨⟨decimals, ?_⟩, hlt⟩
  rw [List.drop_one, List.tail_cons, h, ← hdecimals, List.take_append_drop]

end SolanaMultisig
