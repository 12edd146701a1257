import SolanaMultisig.Sdk.Completeness

/-!
# The message of an honest send

What a wallet that keeps to the protocol asks of the vault: one payment, maybe a
refund to the paymaster and a memo (`ConsumerSend`). Whatever accounts of the send
coincide, and in whatever order its instructions stand, the message built for it is
classified as the send and passes the rules on the message
(`ConsumerSend.clean_checkInner`).
-/

namespace SolanaMultisig.Sdk

open Wire Guard Report

variable {env : Env}

/-! ## The send -/

/-- The token of a send, with the accounts between which it moves. -/
structure TokenSend where
  tokenProgram : Pubkey
  mint : Pubkey
  /-- the token account of the vault -/
  source : Pubkey
  /-- that of the recipient -/
  destination : Pubkey
  decimals : UInt8

/-- **A send, as the wallet composes it.** Some of its accounts may coincide: a wallet may
pay the vault itself, or a token account of it. -/
structure ConsumerSend where
  multisig : Pubkey
  members : List Pubkey
  vaultIndex : UInt8
  vault : Pubkey
  /-- the member whose device verifies the bundle -/
  signer : Pubkey
  paymaster : Pubkey
  /-- the proposal to be created -/
  transaction : Pubkey
  recipient : Pubkey
  amount : UInt64
  /-- what is sent; lamports when unset -/
  token : Option TokenSend
  /-- lamports the vault pays back to the paymaster -/
  reimbursement : Option UInt64
  memo : Option String

/-- The token account of the recipient is the associated one, under the token program of the
send. The gate derives the account under the other program as well. -/
structure TokenSend.Valid (env : Env) (recipient : Pubkey) (t : TokenSend) : Prop where
  program_eq : t.tokenProgram = tokenProgramId ∨ t.tokenProgram = token2022ProgramId
  destination_eq :
    deriveAssociatedTokenAddress env recipient t.mint t.tokenProgram = .ok t.destination
  /-- a bump is found under either program -/
  derivable : ∀ program ∈ [tokenProgramId, token2022ProgramId],
    ∃ ata, deriveAssociatedTokenAddress env recipient t.mint program = .ok ata

namespace ConsumerSend

variable (send : ConsumerSend)

/-- The payment, in lamports or with `TransferChecked`. -/
def payment : Instruction :=
  match send.token with
  | none => transferInstruction send.vault send.recipient send.amount
  | some t => transferCheckedInstruction t.tokenProgram t.source t.mint t.destination send.vault
      send.amount t.decimals

/-- The instructions for the vault, in some order: the payment, and a refund and a memo if
there are any. -/
def inner : List Instruction :=
  send.payment ::
    (send.reimbursement.toList.map (transferInstruction send.vault send.paymaster) ++
      send.memo.toList.map memoInstruction)

/-- The refund in lamports, or zero. -/
def fee : ℕ := (send.reimbursement.map UInt64.toNat).getD 0

/-- How the payment is shown: to the recipient, also when it goes into a token account. -/
def shown : DecodedSolanaVaultRecipient :=
  match send.token with
  | none => shownTransfer send.recipient send.amount
  | some t => shownTransferChecked send.recipient (some true) t.tokenProgram t.mint t.destination
      send.amount t.decimals

/-- How it is shown before token accounts are resolved. -/
def unresolved : DecodedSolanaVaultRecipient :=
  match send.token with
  | none => shownTransfer send.recipient send.amount
  | some t => shownTransferChecked t.destination none t.tokenProgram t.mint t.destination
      send.amount t.decimals

/-- What its instructions are, in the same order. -/
def classified : List Classified :=
  .recipient send.unresolved ::
    (send.reimbursement.toList.map (fun lamports => .fee lamports.toNat) ++
      send.memo.toList.map .memo)

/-- **The send keeps to the rules.** The paymaster is no member and not the recipient, as
lamports for the paymaster would be taken for a refund. -/
structure Valid (env : Env) : Prop where
  members_nodup : send.members.Nodup
  signer_mem : send.signer ∈ send.members
  paymaster_notMem : send.paymaster ∉ send.members
  recipient_ne : send.recipient ≠ send.paymaster
  memo_text : ∀ text, send.memo = some text → hasControl text = false
  token : ∀ t, send.token = some t → t.Valid env send.recipient

/-- The device was told of this send: its vault, its recipient and amount, and a cap on the
refund that is high enough. -/
structure Displayed (env : Env) (params : ConsumerSolanaBundleParams) : Prop where
  multisig_eq : params.multisigPda = toBase58 send.multisig
  members_eq : params.members = send.members.map toBase58
  signer_eq : params.signer = toBase58 send.signer
  vaultIndex_is : (params.vaultIndex.getD (.ofNat 0)).Is send.vaultIndex.toNat
  vault_eq : deriveVaultPda env send.multisig (params.vaultIndex.getD (.ofNat 0))
    params.programId = .ok send.vault
  recipient_eq : params.expected.recipient = toBase58 send.recipient
  amount_eq : decimal params.expected.amount = some send.amount.toNat
  tokenMint_eq : given params.expected.tokenMint = send.token.map fun t => toBase58 t.mint
  tokenDecimals_is : ∀ t, send.token = some t → ∀ n, params.expected.tokenDecimals = some n →
    n.Is t.decimals.toNat
  fee_le : ∃ maxFee, params.flows.maxFee = some maxFee ∧ send.fee ≤ maxFee
  feePayer_eq : ∀ payer, given params.expectedFeePayer = some payer →
    payer = toBase58 send.paymaster
  /-- the program is none of the builtin programs of a bundle -/
  programId_notMem : params.programId ∉ [systemProgramId, computeBudgetProgramId, ataProgramId]

end ConsumerSend

/-! ## Its message -/

section Message

variable {send : ConsumerSend} {message : TransactionMessage} {instructions : List Instruction}

/-- There are three kinds of instructions in a send, so a fact about them has three cases,
whatever the order. -/
theorem ConsumerSend.forall_inner {p : Instruction → Prop}
    (htransfer : ∀ k lamports, p (transferInstruction send.vault k lamports))
    (hchecked : ∀ t : TokenSend, p (transferCheckedInstruction t.tokenProgram t.source t.mint
      t.destination send.vault send.amount t.decimals))
    (hmemo : ∀ text, p (memoInstruction text)) (hinner : instructions.Perm send.inner) :
    ∀ ix ∈ instructions, p ix := by
  intro ix hix
  have hmem := hinner.mem_iff.mp hix
  simp only [inner, List.mem_cons, List.mem_append, List.mem_map] at hmem
  rcases hmem with rfl | ⟨lamports, -, rfl⟩ | ⟨text, -, rfl⟩
  · unfold payment
    split
    · exact htransfer _ _
    · exact hchecked _
  · exact htransfer _ _
  · exact hmemo _

/-- Only the vault is marked as a signer, as an execution can sign for no other account. -/
theorem ConsumerSend.signer_eq (hinner : instructions.Perm send.inner) :
    ∀ ix ∈ instructions, ∀ a ∈ ix.accounts, a.isSigner = true → a.pubkey = send.vault :=
  forall_inner (by simp [transferInstruction]) (by simp [transferCheckedInstruction])
    (by simp [memoInstruction]) hinner

theorem ConsumerSend.accounts_le (hinner : instructions.Perm send.inner) :
    ∀ ix ∈ instructions, ix.accounts.length ≤ 4 :=
  forall_inner (by simp [transferInstruction]) (by simp [transferCheckedInstruction])
    (by simp [memoInstruction]) hinner

/-- At most the accounts of a token transfer, a refund and a memo, and the vault, so
positions fit a byte. -/
theorem ConsumerSend.entries_le (hinner : instructions.Perm send.inner) :
    (entries send.vault instructions).length ≤ 256 := by
  refine length_entries_le.trans ?_
  have hpayment : send.payment.accounts.length ≤ 4 :=
    accounts_le (.refl send.inner) _ List.mem_cons_self
  rw [(hinner.map _).sum_nat, inner]
  cases send.reimbursement <;> cases send.memo <;>
    simp [transferInstruction, memoInstruction] <;> omega

/-- Every send can be built and serialized. -/
theorem ConsumerSend.exists_message (hinner : instructions.Perm send.inner) :
    ∃ built message, buildMessageFromInstructions send.vault instructions = .ok built ∧
      built.onchain = .ok message :=
  Sdk.exists_message (signer_eq hinner) (entries_le hinner)

/-- The message lists the instructions of the send, in the order they were given. -/
theorem ConsumerSend.builtFrom {built : BuiltMessage} (hinner : instructions.Perm send.inner)
    (hbuild : buildMessageFromInstructions send.vault instructions = .ok built)
    (honchain : built.onchain = .ok message) : BuiltFrom message send.vault instructions :=
  builtFrom_of_build (signer_eq hinner) (entries_le hinner) hbuild honchain

/-- Each instruction is classified as what it is, wherever the message lists it. -/
theorem ConsumerSend.classify_inner (vaultIndex : UInt8) (hsend : send.Valid env)
    (hvault : message.accountKeys[0]? = some send.vault) :
    List.Forall₂ (fun ix c => ∀ cix, Lists message ix cix →
        classifyOrUnknown (.of vaultIndex message) (some (toBase58 send.paymaster)) true cix = c)
      send.inner send.classified := by
  refine .cons ?_ (List.rel_append ?_ ?_)
  · -- the payment, which is not to the paymaster
    intro cix hlists
    unfold unresolved
    unfold payment at hlists
    split at hlists
    · have hne : toBase58 send.paymaster ≠ toBase58 send.recipient := fun h =>
        hsend.recipient_ne (toBase58_injective h).symm
      rw [classify_transfer hvault hlists, given_toBase58,
        if_neg fun h => hne (Option.some.inj h)]
    · rename_i t htoken
      rw [classify_transferChecked hvault (hsend.token t htoken).program_eq hlists]
  · rw [List.forall₂_map_left_iff, List.forall₂_map_right_iff, List.forall₂_same]
    intro lamports _ cix hlists
    rw [classify_transfer hvault hlists, if_pos (given_toBase58 _)]
  · rw [List.forall₂_map_left_iff, List.forall₂_map_right_iff, List.forall₂_same]
    intro text htext cix hlists
    exact classify_memo (hsend.memo_text text (Option.mem_toList.mp htext)) hlists

/-- In whatever order they stand in the message, the kinds are those of the send. -/
theorem ConsumerSend.classified_perm (vaultIndex : UInt8) (hsend : send.Valid env)
    (hbuilt : BuiltFrom message send.vault instructions) (hinner : instructions.Perm send.inner) :
    (message.instructions.map (classifyOrUnknown (.of vaultIndex message)
      (some (toBase58 send.paymaster)) true)).Perm send.classified := by
  obtain ⟨compiled, hlists, hperm⟩ := List.perm_comp_forall₂ hinner.symm hbuilt.lists
  have hclassified := forall₂_join (send.classify_inner vaultIndex hsend hbuilt.vault_first)
    hlists
  have heq : send.classified = compiled.map (classifyOrUnknown (.of vaultIndex message)
      (some (toBase58 send.paymaster)) true) := by
    rw [← List.forall₂_eq_eq_eq, List.forall₂_map_right_iff]
    refine hclassified.imp ?_
    rintro c cix ⟨ix, hc, hix⟩
    exact (hc cix hix).symm
  rw [heq]
  exact hperm.symm.map _

theorem ConsumerSend.recipients_classified :
    send.classified.filterMap Classified.recipient? = [send.unresolved] := by
  cases hr : send.reimbursement <;> cases hm : send.memo <;>
    simp [classified, hr, hm, List.filterMap_cons, Classified.recipient?]

theorem ConsumerSend.fees_classified :
    (send.classified.filterMap Classified.fee?).sum = send.fee := by
  cases hr : send.reimbursement <;> cases hm : send.memo <;>
    simp [classified, fee, hr, hm, List.filterMap_cons, Classified.fee?]

/-- **The message is classified as the send**: one recipient, the refund and no
unknowns. -/
theorem ConsumerSend.classifyInnerMessage_eq (vaultIndex : UInt8) (hsend : send.Valid env)
    (hbuilt : BuiltFrom message send.vault instructions) (hinner : instructions.Perm send.inner) :
    ∃ c, classifyInnerMessage (.of vaultIndex message) (some (toBase58 send.paymaster)) true =
        .ok c ∧ c.recipients = [send.unresolved] ∧ c.feeLamports = send.fee ∧
      c.unknownInnerInstructionCount = 0 := by
  have hperm := send.classified_perm vaultIndex hsend hbuilt hinner
  have hne : (InnerMessage.of vaultIndex message).accountKeys ≠ [] := by
    intro hnil
    have hfirst : (InnerMessage.of vaultIndex message).accountKeys[0]? = some send.vault :=
      hbuilt.vault_first
    rw [hnil] at hfirst
    cases hfirst
  refine ⟨_, bind_eq_ok.mpr ⟨(), require_eq_ok.mpr hne, rfl⟩, ?_⟩
  obtain ⟨hrecipients, hfee, hcount⟩ := foldl_add
    ⟨[], 0, (InnerMessage.of vaultIndex message).addressTableLookupCount, []⟩
    (message.instructions.map (classifyOrUnknown (.of vaultIndex message)
      (some (toBase58 send.paymaster)) true))
  refine ⟨hrecipients.trans ?_, hfee.trans ?_, hcount.mpr ⟨?_, ?_⟩⟩
  · rw [List.nil_append, ← List.perm_singleton, ← send.recipients_classified]
    exact hperm.filterMap _
  · rw [Nat.zero_add, (hperm.filterMap _).sum_nat, send.fees_classified]
  · simp [InnerMessage.of, hbuilt.lookups_eq]
  · rw [hperm.mem_iff]
    simp [classified]

end Message

/-! ## The rules on the message -/

section Inner

variable {send : ConsumerSend} {params : ConsumerSolanaBundleParams}

theorem ConsumerSend.address_shown : send.shown.address = toBase58 send.recipient := by
  unfold shown
  split <;> rfl

theorem ConsumerSend.amount_shown : send.shown.amount = toString send.amount.toNat := by
  unfold shown
  split <;> rfl

/-- The recipient's token account is resolved to the recipient, under either token program.
-/
theorem ConsumerSend.resolveExpected_eq (hsend : send.Valid env)
    (hparams : send.Displayed env params) :
    resolveExpected params env [send.unresolved] = .ok [send.shown] := by
  have hmint := hparams.tokenMint_eq
  unfold resolveExpected unresolved shown
  cases htoken : send.token with
  | none =>
    rw [htoken, Option.map_none] at hmint
    rw [hmint]
    rfl
  | some t =>
    have ht := hsend.token t htoken
    rw [htoken, Option.map_some] at hmint
    rw [hmint]
    obtain ⟨token, hderive⟩ := ht.derivable tokenProgramId (by simp)
    obtain ⟨token2022, hderive2022⟩ := ht.derivable token2022ProgramId (by simp)
    have hmem : t.destination ∈ [token, token2022] := by
      have hdest := ht.destination_eq
      rcases ht.program_eq with hprogram | hprogram
      · rw [hprogram, hderive] at hdest
        simp [Except.ok.inj hdest]
      · rw [hprogram, hderive2022] at hdest
        simp [Except.ok.inj hdest]
    simp only [resolveAtaOwner, bind_eq_ok, publicKey_eq_ok, pure_eq_ok]
    refine ⟨send.recipient, hparams.recipient_eq, t.mint, rfl, token, hderive, token2022,
      hderive2022, ?_⟩
    have htext : toBase58 t.destination ∈ [toBase58 token, toBase58 token2022] :=
      List.mem_map_of_mem (f := toBase58) hmem
    simp only [List.map_cons, List.map_nil, resolveRecipient, shownTransferChecked, given_toBase58,
      if_pos htext]

/-- The recipient fits what the device displays, in address and amount. -/
theorem ConsumerSend.recipientFits_shown (hparams : send.Displayed env params) :
    recipientFits env ⟨params.expected.recipient, params.expected.amount⟩ send.shown = true := by
  have haddress : send.shown.address = params.expected.recipient :=
    send.address_shown.trans hparams.recipient_eq.symm
  have hamount : decimal send.shown.amount = some send.amount.toNat := by
    rw [send.amount_shown, decimal_toString]
  rw [recipientFits, Bool.and_eq_true]
  refine ⟨by simp [recipientMatchesAddress, haddress], ?_⟩
  simp [toBigIntOrNull, hamount, hparams.amount_eq]

/-- It is of the asset displayed, with the decimals displayed if there are any. -/
theorem ConsumerSend.clean_checkAsset (hparams : send.Displayed env params) :
    (checkAsset params.flows send.shown).Clean () := by
  have hmint := hparams.tokenMint_eq
  unfold checkAsset shown
  cases htoken : send.token with
  | none =>
    rw [htoken, Option.map_none] at hmint
    change (forSome _ (given params.expected.tokenMint)).Clean ()
    rw [hmint]
    exact clean_pure.mpr rfl
  | some t =>
    rw [htoken, Option.map_some] at hmint
    simp only [shownTransferChecked, given_toBase58, clean_bind, checkMint_clean, clean_forSome]
    refine ⟨(), hmint, fun n hn => clean_check.mpr ?_⟩
    exact decide_eq_true (hparams.tokenDecimals_is t htoken n hn)

/-- **The message passes**, and shows the send: one recipient and the refund. -/
theorem ConsumerSend.clean_checkInner {message : TransactionMessage}
    {instructions : List Instruction} (hsend : send.Valid env) (hparams : send.Displayed env params)
    (hbuilt : BuiltFrom message send.vault instructions) (hinner : instructions.Perm send.inner) :
    ∃ c, c.feeLamports = send.fee ∧
      (checkInner params env (params.vaultIndex.getD (.ofNat 0)) (toBase58 send.vault)
        (some (toBase58 send.paymaster)) (.of send.vaultIndex message)).Clean
          (c, [send.shown]) := by
  obtain ⟨c, hclassify, hrecipients, hfee, hunknown⟩ :=
    send.classifyInnerMessage_eq send.vaultIndex hsend hbuilt hinner
  refine ⟨c, hfee, ?_⟩
  have hsender : (InnerMessage.of send.vaultIndex message).accountKeys.head? = some send.vault := by
    rw [List.head?_eq_getElem?]
    exact hbuilt.vault_first
  have hflows : (compareFundFlows env ⟨[send.shown], toString send.fee,
      some (toBase58 send.paymaster), 0⟩ params.flows).Clean () :=
    clean_compareFundFlows rfl (send.recipientFits_shown hparams) (send.clean_checkAsset hparams)
      hparams.fee_le fun p hp => congrArg some (hparams.feePayer_eq p hp).symm
  have hverified : send.shown.asset = .spl → send.shown.ataVerified = some true := by
    unfold shown
    split <;> simp [shownTransfer, shownTransferChecked]
  simp only [checkInner, checkDestination, clean_bind, clean_check, clean_lift, clean_each,
    orElse_eq_ok, clean_pure]
  refine ⟨⟨⟩, hparams.vaultIndex_is, send.vault, hsender, ⟨⟩, rfl, c, hclassify, [send.shown], ?_,
    ⟨⟩, ?_, ⟨⟩, ?_, rfl⟩
  · rw [hrecipients]
    exact send.resolveExpected_eq hsend hparams
  · rw [hunknown, hfee]
    exact hflows
  · simpa using hverified

end Inner

end SolanaMultisig.Sdk
