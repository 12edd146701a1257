import SolanaMultisig.Sdk.Build
import SolanaMultisig.Sdk.Consumer

/-!
# What passes the consumer gate

The other direction of the rules: an honest instruction is classified as what it is
wherever its accounts stand in the message (`classify_transfer` and its like), and
every rule holds of what an honest wallet sends.
-/

namespace SolanaMultisig.Sdk

open Wire Guard Report

variable {env : Env}

/-! ## What wallets send -/

/-- `SystemProgram.transfer`, as web3.js builds it: four bytes of tag, then the lamports. -/
def transferInstruction (fromPubkey toPubkey : Pubkey) (lamports : UInt64) : Instruction where
  programId := systemProgramId
  accounts := [⟨fromPubkey, true, true⟩, ⟨toPubkey, false, true⟩]
  data := leBytes 4 2 ++ leBytes 8 lamports.toNat

/-- `TransferChecked` with the owner as the only authority, as the token library builds it.
-/
def transferCheckedInstruction (programId source mint destination owner : Pubkey) (amount : UInt64)
    (decimals : UInt8) : Instruction where
  programId := programId
  accounts := [⟨source, false, true⟩, ⟨mint, false, false⟩, ⟨destination, false, true⟩,
    ⟨owner, true, false⟩]
  data := 12 :: (leBytes 8 amount.toNat ++ [decimals])

/-- A memo that no account signs. One with accounts would be an unknown instruction to the
gates. -/
def memoInstruction (text : String) : Instruction where
  programId := memoProgramId
  accounts := []
  data := text.toUTF8.data.toList

/-- How a System transfer is shown: the address and the lamports. -/
def shownTransfer (toPubkey : Pubkey) (lamports : UInt64) : DecodedSolanaVaultRecipient where
  address := toBase58 toPubkey
  ata := none
  ataVerified := none
  amount := toString lamports.toNat
  asset := .native
  mint := none
  decimals := none
  tokenProgram := none

/-- How a `TransferChecked` is shown, resolved or not. Mint, decimals and token program are
taken from the signed bytes. -/
def shownTransferChecked (address : Pubkey) (ataVerified : Option Bool)
    (programId mint destination : Pubkey) (amount : UInt64) (decimals : UInt8) :
    DecodedSolanaVaultRecipient where
  address := toBase58 address
  ata := some (toBase58 destination)
  ataVerified := ataVerified
  amount := toString amount.toNat
  asset := .spl
  mint := some (toBase58 mint)
  decimals := some decimals
  tokenProgram := some (toBase58 programId)

/-! ## Classification -/

section Classify

variable {message : TransactionMessage} {vaultIndex : UInt8} {ix : Instruction}
  {cix : CompiledInstruction} {vault : Pubkey} {feePayer : Option String}

theorem Lists.resolve (h : Lists message ix cix) :
    (InnerMessage.of vaultIndex message).resolve cix.programIdIndex = .ok ix.programId :=
  orElse_eq_ok.mpr h.program_eq

theorem Lists.account (h : Lists message ix cix) {i : ℕ} {k : Pubkey} (hk : ix.keys[i]? = some k) :
    (InnerMessage.of vaultIndex message).account cix i = .ok k := by
  obtain ⟨hi, rfl⟩ := List.getElem?_eq_some_iff.mp hk
  have hlt : i < cix.accountIndexes.length := h.accounts.length_eq ▸ hi
  rw [InnerMessage.account, List.getD_eq_getElem?_getD, List.getElem?_eq_getElem hlt,
    Option.getD_some]
  exact orElse_eq_ok.mpr (h.accounts.get hlt hi)

/-- An amount between other data is read as it was written. -/
theorem readU64LE_append (n : UInt64) (front back : List UInt8) :
    readU64LE (front ++ leBytes 8 n.toNat ++ back) front.length = .ok n.toNat := by
  have hlt : n.toNat < 256 ^ 8 := n.toNat_lt
  simp only [readU64LE, bind_eq_ok, require_eq_ok, pure_eq_ok]
  refine ⟨(), by simp, ?_⟩
  rw [List.append_assoc, List.drop_left, List.take_left' (length_leBytes 8 n.toNat),
    leNat_leBytes hlt]

theorem classifyOrUnknown_of_ok {inner : InnerMessage} {allowMemo : Bool} {c : Classified}
    (h : classifyInstruction inner feePayer allowMemo cix = .ok c) :
    classifyOrUnknown inner feePayer allowMemo cix = c := by
  rw [classifyOrUnknown, h]

/-- **A System transfer of the vault** is a refund if it is to the fee payer, and else a
payment. It may stand anywhere, and its accounts at any positions of the message. -/
theorem classify_transfer {toPubkey : Pubkey} {lamports : UInt64} {allowMemo : Bool}
    (hvault : message.accountKeys[0]? = some vault)
    (h : Lists message (transferInstruction vault toPubkey lamports) cix) :
    classifyOrUnknown (.of vaultIndex message) feePayer allowMemo cix =
      if given feePayer = some (toBase58 toPubkey) then .fee lamports.toNat
      else .recipient (shownTransfer toPubkey lamports) := by
  refine classifyOrUnknown_of_ok ?_
  have hfirst : (InnerMessage.of vaultIndex message).accountKeys[0]? = some vault := hvault
  have hdata : cix.data = leBytes 4 2 ++ leBytes 8 lamports.toNat := h.data_eq
  have hcount : cix.accountIndexes.length = 2 := h.accounts.length_eq
  have hread : readU64LE cix.data 4 = .ok lamports.toNat := by
    have hread := readU64LE_append lamports (leBytes 4 2) []
    rwa [List.append_nil, ← hdata] at hread
  simp only [classifyInstruction, bind_eq_ok]
  refine ⟨systemProgramId, h.resolve, ?_⟩
  rw [if_pos ⟨rfl, by simp [hdata], by simp [hdata, leNat_leBytes], hcount.ge⟩]
  simp only [bind_eq_ok]
  refine ⟨vault, h.account rfl, toPubkey, h.account rfl, _, hread, ?_⟩
  rw [if_neg (by simp [hfirst])]
  split <;> rfl

/-- **A `TransferChecked` of the vault** is a payment into a token account. Whose account it
is remains to be resolved. -/
theorem classify_transferChecked {programId source mint destination : Pubkey} {amount : UInt64}
    {decimals : UInt8} {allowMemo : Bool} (hvault : message.accountKeys[0]? = some vault)
    (hprogram : programId = tokenProgramId ∨ programId = token2022ProgramId)
    (h : Lists message
      (transferCheckedInstruction programId source mint destination vault amount decimals) cix) :
    classifyOrUnknown (.of vaultIndex message) feePayer allowMemo cix =
      .recipient (shownTransferChecked destination none programId mint destination amount
        decimals) := by
  refine classifyOrUnknown_of_ok ?_
  have hfirst : (InnerMessage.of vaultIndex message).accountKeys[0]? = some vault := hvault
  have hdata : cix.data = 12 :: (leBytes 8 amount.toNat ++ [decimals]) := h.data_eq
  have hcount : cix.accountIndexes.length = 4 := h.accounts.length_eq
  have hlast : cix.data[9]? = some decimals := by
    rw [hdata, List.getElem?_cons_succ, List.getElem?_append_right (by simp)]
    simp
  have hread : readU64LE cix.data 1 = .ok amount.toNat := by
    have hread := readU64LE_append amount [12] [decimals]
    rwa [List.append_assoc, List.singleton_append, ← hdata] at hread
  -- the token programs are not the System program
  have hsystem : programId ≠ systemProgramId := by
    rcases hprogram with rfl | rfl <;> decide
  simp only [classifyInstruction, bind_eq_ok]
  refine ⟨programId, h.resolve, ?_⟩
  rw [if_neg (fun hguard => hsystem hguard.1),
    if_pos ⟨hprogram, by simp [hdata], by simp [hdata], hcount.ge⟩]
  simp only [bind_eq_ok]
  refine ⟨vault, h.account rfl, ?_⟩
  rw [if_neg (by simp [hfirst])]
  simp only [bind_eq_ok]
  refine ⟨destination, h.account rfl, _, hread, mint, h.account rfl, ?_⟩
  rw [hlast]
  rfl

/-- Text without control characters is read back. -/
theorem decodeUtf8Strict_toUTF8 {text : String} (h : hasControl text = false) :
    decodeUtf8Strict text.toUTF8.data.toList = some text := by
  have hback : String.fromUTF8? text.toUTF8 = some text := dif_pos text.isValidUTF8
  rw [decodeUtf8Strict, Array.toArray_toList]
  change (String.fromUTF8? text.toUTF8).filter _ = _
  rw [hback]
  simp [h]

/-- **A memo** is shown if it has no control characters, and else it is an unknown
instruction. -/
theorem classify_memo {text : String} (htext : hasControl text = false)
    (h : Lists message (memoInstruction text) cix) :
    classifyOrUnknown (.of vaultIndex message) feePayer true cix = .memo text := by
  refine classifyOrUnknown_of_ok ?_
  have hdata : cix.data = text.toUTF8.data.toList := h.data_eq
  have hnone : cix.accountIndexes = [] := List.forall₂_nil_right_iff.mp h.accounts
  simp only [classifyInstruction, bind_eq_ok]
  refine ⟨memoProgramId, h.resolve, ?_⟩
  rw [if_neg (fun hguard => absurd hguard.1 (by decide)),
    if_neg (fun hguard => absurd hguard.1 (by decide)), if_pos ⟨trivial, rfl, hnone⟩, hdata,
    decodeUtf8Strict_toUTF8 htext]
  rfl

end Classify

/-! ## The rules -/

section Rules

variable {params : ConsumerSolanaBundleParams} {multisig transaction : Pubkey}
  {members : List Pubkey}

/-- A fee payer who is no member, and the one expected, if one is. -/
theorem clean_checkFeePayer {payer : Pubkey} (hmember : payer ∉ members)
    (hexpected : ∀ e, given params.expectedFeePayer = some e → e = toBase58 payer) :
    (checkFeePayer params (members.map toBase58) (some (toBase58 payer))).Clean () := by
  simp only [checkFeePayer, given_toBase58, clean_bind, clean_check, clean_forSome,
    List.mem_map_of_injective toBase58_injective]
  exact ⟨⟨⟩, hmember, fun e he => (hexpected e he).symm⟩

/-- Nothing foreign, and a nonceAdvance in front if anywhere. -/
theorem clean_checkOuter {b : ParsedBundle} (hforeign : b.foreign = [])
    (hnonce : b.nonceAdvanceIndexes = [] ∨ b.nonceAdvanceIndexes = [0]) :
    (checkOuter b).Clean () := by
  simp only [checkOuter, clean_bind, clean_note, clean_check, clean_each, hforeign, List.map_nil]
  refine ⟨⟨⟩, trivial, ⟨⟩, ?_⟩
  rcases hnonce with h | h <;> simp [h]

/-- Approvals of the proposal, by members who have not approved yet. The induction is on the
approvals, with the list of those seen growing. -/
theorem clean_checkApprovals (seen : List Pubkey) {approvers : List Pubkey}
    {approves : List ParsedMultisigIx}
    (h : List.Forall₂ (fun approver a => [multisig, transaction, approver] <+:
      ParsedMultisigIx.keys a) approvers approves)
    (hmembers : ∀ a ∈ approvers, a ∈ members) (hnodup : (approvers ++ seen).Nodup) :
    (checkApprovals (members.map toBase58) (toBase58 multisig) (toBase58 transaction)
      (seen.map toBase58) approves).Clean ((approvers.reverse ++ seen).map toBase58) := by
  induction h generalizing seen with
  | nil => exact clean_pure.mpr rfl
  | @cons approver a approvers approves ha _ ih =>
    obtain ⟨hmember, hmembers'⟩ := List.forall_mem_cons.mp hmembers
    have hmiddle := (@List.perm_middle _ approver approvers seen).nodup_iff
    obtain ⟨hfresh, -⟩ := List.nodup_cons.mp hnodup
    have hseen : approver ∉ seen := fun hbad => hfresh (List.mem_append_right _ hbad)
    have hrest := ih (approver :: seen) hmembers' (hmiddle.mpr hnodup)
    simp only [checkApprovals, clean_bind, clean_lift, clean_check, firstThree_eq_ok,
      List.mem_map_of_injective toBase58_injective]
    refine ⟨(multisig, transaction, approver), ha, ⟨⟩, rfl, ⟨⟩, rfl, ⟨⟩, hmember, ⟨⟩, hseen, ?_⟩
    rwa [List.reverse_cons, List.append_assoc, List.singleton_append]

theorem clean_checkTarget {label : String} {ix : ParsedMultisigIx}
    (h : [multisig, transaction] <+: ix.keys) :
    (checkTarget (toBase58 multisig) (toBase58 transaction) label ix).Clean () := by
  obtain ⟨rest, hkeys⟩ := h
  simp [checkTarget, ← hkeys]

/-- Creation, approvals, execution and closing of one proposal, with the signer among those
who approve. -/
theorem clean_checkMultisigIxs {b : ParsedBundle} {signer creator : Pubkey}
    {approvers : List Pubkey} (hcreator : creator ∈ members)
    (happroves : List.Forall₂ (fun approver a => [multisig, transaction, approver] <+:
      ParsedMultisigIx.keys a) approvers b.approves)
    (hmembers : ∀ a ∈ approvers, a ∈ members) (hnodup : approvers.Nodup)
    (hsigner : signer ∈ approvers) (hone : b.executes.length ≤ 1)
    (hexecutes : ∀ e ∈ b.executes, [multisig, transaction] <+: e.keys)
    (hone' : b.closes.length ≤ 1) (hcloses : ∀ e ∈ b.closes, [multisig, transaction] <+: e.keys) :
    (checkMultisigIxs (members.map toBase58) (toBase58 multisig) (toBase58 transaction)
      (toBase58 signer) b (toBase58 creator)).Clean () := by
  have happrovals := clean_checkApprovals [] happroves hmembers (by rwa [List.append_nil])
  simp only [checkMultisigIxs, clean_bind, clean_check, clean_each,
    List.mem_map_of_injective toBase58_injective]
  refine ⟨⟨⟩, hcreator, _, happrovals, ⟨⟩, ?_, ⟨⟩, hone, ⟨⟩, hone', ⟨⟩,
    fun e he => clean_checkTarget (hexecutes e he), fun e he => clean_checkTarget (hcloses e he)⟩
  rw [List.mem_map_of_injective toBase58_injective, List.append_nil]
  exact List.mem_reverse.mpr hsigner

/-- One recipient, as announced, and a refund within the cap. -/
theorem clean_compareFundFlows {expected : FundFlowExpectation} {exp : ExpectedRecipient}
    {r : DecodedSolanaVaultRecipient} {feePayer : Option String} {fee : ℕ}
    (hexpected : expected.recipients = [exp]) (hfits : recipientFits env exp r = true)
    (hasset : (checkAsset expected r).Clean ())
    (hfee : ∃ maxFee, expected.maxFee = some maxFee ∧ fee ≤ maxFee)
    (hpayer : ∀ p, given expected.expectedFeePayer = some p → feePayer = some p) :
    (compareFundFlows env ⟨[r], toString fee, feePayer, 0⟩ expected).Clean () := by
  simp only [compareFundFlows, toBigIntOrNull, decimal_toString, Option.getD_some, clean_bind,
    clean_check, clean_note, clean_forSome, clean_each, checkFee_clean, hexpected]
  refine ⟨⟨⟩, trivial, ⟨⟩, hfee, ⟨⟩, fun p hp => .inr (hpayer p hp), ⟨⟩, ?_, ⟨⟩, ?_, ?_⟩
  · simp [Matching.firstFit, Matching.take, hfits]
  · simp [Matching.firstFit, Matching.take, Matching.unused, hfits]
  · simpa using hasset

end Rules

end SolanaMultisig.Sdk
