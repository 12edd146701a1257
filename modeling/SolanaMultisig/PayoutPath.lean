import SolanaMultisig.ApprovePath
import SolanaMultisig.Sdk.HonestPayout

/-!
# Payouts that wait for approvals

The split flow of a payout: its proposal was created earlier, and a cosigner is sent a
bundle that only approves. As long as the proposal waits, the gate finds it where the
bundle says, reads the payout back from the chain and accepts (`pending_payout_accepted`).
-/

namespace SolanaMultisig

open Wire Guard Sdk Report

variable {env : Env} {web3 : Web3} {payout : Payout}

/-! ## The bundle -/

/-- What the bundle is reported as: everything it approves is the payout's proposal, and
nothing in it is unknown. -/
structure Sdk.DecodedApprove.Of (d : DecodedApprove) (payout : Payout) (index : UInt64)
    (steps : List PayoutStep) : Prop where
  multisigPda_eq : d.multisigPda = toBase58 payout.multisig
  transactionPda_eq : d.transactionPda = toBase58 payout.transaction
  approvers_eq : d.approvers = (steps.filterMap PayoutStep.approver?).map toBase58
  approveTargets_eq : ∀ target ∈ d.approveTargets, target = toBase58 payout.transaction
  approveMultisigs_eq : ∀ multisig ∈ d.approveMultisigs.getD [], multisig = toBase58 payout.multisig
  transactionIndex_eq : d.transactionIndex = some (toString index.toNat)
  unknownOuterPrograms_eq : d.unknownOuterPrograms = []

/-- The index that is approved, read back from the eight bytes behind the tag. -/
theorem readTransactionIndexArg_approve (index : UInt64) :
    readTransactionIndexArg (approveTransactionTag ++ leBytes 8 index.toNat) =
      .ok (some index.toNat) := by
  have hread := readU64LE_append index approveTransactionTag []
  rw [List.append_nil] at hread
  rw [readTransactionIndexArg, if_pos (by simp [approveTransactionTag])]
  exact map_eq_ok.mpr ⟨_, hread, rfl⟩

/-- What the decoder reports on a bundle in which these members approve the proposal of the
payout at this index, and nothing is created. -/
def Sdk.Payout.decodedApprove (payout : Payout) (index : UInt64) (members : List Pubkey) :
    DecodedApprove where
  multisigPda := toBase58 payout.multisig
  transactionPda := toBase58 payout.transaction
  approvers := (payout.approveKeys members).map fun a => toBase58 a.2.2
  approveTargets := (payout.approveKeys members).map fun a => toBase58 a.2.1
  approveMultisigs := some ((payout.approveKeys members).map fun a => toBase58 a.1)
  transactionIndex := some (toString index.toNat)
  unknownOuterPrograms := []

/-- This is a report on the payout, whatever further steps the bundle has. -/
theorem Sdk.Payout.decodedApprove_of {index : UInt64} {steps : List PayoutStep} :
    (payout.decodedApprove index (steps.filterMap PayoutStep.approver?)).Of payout index
      steps where
  multisigPda_eq := rfl
  transactionPda_eq := rfl
  approvers_eq := by simp [decodedApprove, approveKeys]
  approveTargets_eq := by
    intro target htarget
    simp only [decodedApprove, approveKeys, List.map_map, List.mem_map] at htarget
    obtain ⟨member, -, rfl⟩ := htarget
    rfl
  approveMultisigs_eq := by
    intro multisig hmultisig
    simp only [decodedApprove, approveKeys, List.map_map, Option.getD_some, List.mem_map]
      at hmultisig
    obtain ⟨member, -, rfl⟩ := hmultisig
    rfl
  transactionIndex_eq := rfl
  unknownOuterPrograms_eq := rfl

/-- **A bundle that creates nothing decodes to its approvals.** The index reported is that
of the first approval; executions and closings beside them are not reported on. -/
theorem Sdk.ParsedBundle.Of.exists_approve {b : ParsedBundle} {index : UInt64}
    {message : TransactionMessage} {steps : List PayoutStep} {opts : DecodeVaultSolanaOptions}
    {member : Pubkey} {members : List Pubkey}
    (h : b.Of payout index message steps opts.allowComputeBudget)
    (hcreators : steps.filterMap PayoutStep.creator? = [])
    (happrovers : steps.filterMap PayoutStep.approver? = member :: members) :
    ∃ d, decodeBundle env b opts = .ok (.approve d) ∧ d.Of payout index steps := by
  have hcreates : b.creates = [] := by
    have hcreates := h.creates
    rw [hcreators] at hcreates
    exact List.forall₂_nil_left_iff.mp hcreates
  obtain ⟨first, rest, ⟨-, hdata⟩, -, hfirst⟩ :=
    List.forall₂_cons_left_iff.mp (happrovers ▸ h.approves)
  have hindex : readTransactionIndexArg first.data = .ok (some index.toNat) :=
    hdata ▸ readTransactionIndexArg_approve index
  have happroves := h.collect_approves "approve_transaction instruction has too few accounts"
  have hdecode : decodeApprove [] (payout.approveKeys (steps.filterMap PayoutStep.approver?))
      (payout.multisig, payout.transaction, member) first =
      .ok (payout.decodedApprove index (steps.filterMap PayoutStep.approver?)) := by
    rw [decodeApprove, hindex]
    rfl
  refine ⟨payout.decodedApprove index (steps.filterMap PayoutStep.approver?), ?_,
    payout.decodedApprove_of⟩
  simp only [decodeBundle, bind_eq_ok, require_eq_ok]
  refine ⟨[], h.unknown, (), by simp [hcreates], _, happroves, ?_⟩
  rw [hcreates, hfirst]
  rw [happrovers] at hdecode ⊢
  exact map_eq_ok.mpr ⟨_, hdecode, rfl⟩

/-! ## What the device is told -/

/-- The device expects the payout, and decodes the proposal with the paymaster as the fee
payer. A field it leaves open is not compared. -/
structure Sdk.Payout.Asked (payout : Payout) (params : ApproveOnlyParams) : Prop where
  expected : payout.Expected params.expected.toExpectedProposal
  /-- the multisig is given or waived -/
  multisig : ∃ e, params.expected.expectedMultisigPda = some e ∧
    ∀ m, e = some m → m = toBase58 payout.multisig
  feePayer : ∀ payer, params.proposalOptions.feePayer.join = some payer →
    payer = toBase58 payout.paymaster
  decodes : payout.Decodes params.proposalOptions.expectedRecipientOwner
    params.proposalOptions.expectedMint params.proposalOptions.allowMemo

/-- Refunds are told from payments by the paymaster, whether the device names it or takes
the stored payer. -/
theorem Sdk.Payout.Asked.feePayer_eq {params : ApproveOnlyParams} (h : payout.Asked params) :
    params.options.feePayer.join.getD (toBase58 payout.paymaster) = toBase58 payout.paymaster := by
  have hgiven := h.feePayer
  have hexpected := h.expected.announced.feePayer_eq
  unfold ApproveOnlyParams.options
  cases hopt : params.proposalOptions.feePayer with
  | some payer =>
    rw [hopt] at hgiven
    cases payer with
    | some payer => exact hgiven payer rfl
    | none => rfl
  | none =>
    change ((given params.expected.expectedFeePayer).map some).join.getD _ = _
    cases hfee : given params.expected.expectedFeePayer with
    | some payer => exact hexpected payer hfee
    | none => rfl

/-- Against the proposal it names, once that is verified, the bundle compares without
mismatches. -/
theorem Sdk.DecodedApprove.Of.clean {d : DecodedApprove} {index : UInt64} {steps : List PayoutStep}
    {params : ApproveOnlyParams} (h : d.Of payout index steps) (hasked : payout.Asked params) :
    (compareDecodedToExpected env (.approve d) (params.bundleExpected d true)).Clean () := by
  obtain ⟨e, he, hmultisig⟩ := hasked.multisig
  have htarget : given (some d.transactionPda) = some d.transactionPda := by
    rw [h.transactionPda_eq, given_toBase58]
  simp only [compareDecodedToExpected, compareOuter, compareApprove,
    ApproveOnlyParams.bundleExpected, clean_bind, clean_check, clean_forSome, clean_each, htarget]
  refine ⟨⟨⟩, ⟨⟨⟩, h.unknownOuterPrograms_eq, fun m hm => ?_⟩, ⟨⟩, fun t ht => ⟨⟨⟩, ?_, ?_⟩, ⟨⟩,
    fun m hm => ?_, ⟨⟩, ?_, ⟨⟩, trivial, by simp⟩
  · rw [he, Option.join_some] at hm
    rw [h.multisigPda_eq, hmultisig m (given_eq_some (given_eq_some hm).1).1]
  · rw [h.approveTargets_eq t ht, h.transactionPda_eq]
  · rintro pda ⟨⟩
    rw [h.approveTargets_eq t ht, h.transactionPda_eq]
  · rw [h.approveMultisigs_eq m hm, h.multisigPda_eq]
  · rintro pda ⟨⟩
    trivial

/-! ## The proposal -/

/-- The proposal is of this payout: it is the multisig's, from its vault, paid for by the
paymaster, and its message was built from the payout's instructions in some order. -/
structure VaultTransaction.PaysOut (t : VaultTransaction) (payout : Payout) : Prop where
  multisig_eq : t.multisig = payout.multisig
  vaultIndex_eq : t.vaultIndex = payout.vaultIndex
  payer_eq : t.payer = payout.paymaster
  message : ∃ instructions built, instructions.Perm payout.inner ∧
    buildMessageFromInstructions payout.vault instructions = .ok built ∧
    built.onchain = .ok t.message

/-- Approvals do not change what it pays: the message and the payer are as they were
created. -/
theorem VaultTransaction.SameProposal.paysOut {t r : VaultTransaction} (h : t.SameProposal r)
    (hr : r.PaysOut payout) : t.PaysOut payout := by
  rw [h]
  exact ⟨hr.multisig_eq, hr.vaultIndex_eq, hr.payer_eq, hr.message⟩

/-- What the proposal is reported as. The recipients may come in another order, that in
which the message was built. -/
structure Sdk.DecodedProposal.Of (p : DecodedProposal) (payout : Payout) (t : VaultTransaction) :
    Prop where
  transactionPda_eq : p.transactionPda = toBase58 payout.transaction
  multisigPda_eq : p.multisigPda = toBase58 payout.multisig
  transactionIndex_eq : p.transactionIndex = toString t.transactionIndex.toNat
  vaultIndex_eq : p.vaultIndex = payout.vaultIndex
  vaultPda_eq : p.vaultPda = toBase58 payout.vault
  executed_eq : p.executed = t.executed
  approvals_eq : p.approvals = t.approvals.map toBase58
  sender_eq : p.sender = toBase58 payout.vault
  recipients_perm : p.recipients.Perm (payout.payments.map payout.shown)
  feeLamports_eq : p.feeLamports = toString payout.fee
  feePayer_eq : p.feePayer = toBase58 payout.paymaster
  known : p.unknownInnerInstructionCount = 0

/-- What the decoder reports on the stored proposal of the payout, given what the
instructions of its message were classified as. -/
def Sdk.Payout.decodedProposal (payout : Payout) (t : VaultTransaction)
    (classified : InnerClassification) : DecodedProposal where
  transactionPda := toBase58 payout.transaction
  multisigPda := toBase58 t.multisig
  transactionIndex := toString t.transactionIndex.toNat
  creator := toBase58 t.creator
  payer := toBase58 t.payer
  vaultIndex := t.vaultIndex
  vaultPda := toBase58 payout.vault
  executed := t.executed
  approvals := t.approvals.map toBase58
  sender := toBase58 payout.vault
  recipients := classified.recipients
  feeLamports := toString classified.feeLamports
  feePayer := toBase58 payout.paymaster
  unknownInnerInstructionCount := classified.unknownInnerInstructionCount
  memos := classified.memos

/-- **The proposal is reported as the payout.** It lives at its canonical address, its vault
is the one it derives, and the paymaster that paid for it is taken for the fee payer. -/
theorem VaultTransaction.PaysOut.exists_report {t : VaultTransaction} {params : ApproveOnlyParams}
    {vault : Pubkey} (h : t.PaysOut payout) (hvalid : payout.Valid env)
    (hasked : payout.Asked params) (haddress : t.AddressOf env payout.transaction)
    (hvault : t.ValidFor env vault) :
    ∃ p, reportProposal env (.of t) payout.transaction env.programId params.options = .ok p ∧
      p.Of payout t := by
  obtain ⟨instructions, built, hinner, hbuild, honchain⟩ := h.message
  obtain ⟨hderive, hmessage⟩ := hvault
  obtain ⟨rfl, -⟩ := calls_of_buildMessageFromInstructions hbuild honchain hmessage
  have hbuilt := payout.builtFrom hinner hbuild honchain (hmessage.keys_le.trans (by decide))
  obtain ⟨classified, hclassify, hrecipients, hfee, hknown⟩ :=
    payout.classifyInnerMessage_eq t.vaultIndex hvalid
      (fun hmemos => beq_iff_eq.mpr (hasked.decodes.memos hmemos)) hbuilt hinner
  have hfeePayer : params.options.feePayer.join.getD (toBase58 (StoredProposal.of t).payer) =
      toBase58 payout.paymaster := by
    rw [show (StoredProposal.of t).payer = payout.paymaster from h.payer_eq]
    exact hasked.feePayer_eq
  have hcanonical : Sdk.deriveTransactionPda env t.multisig t.transactionIndex.toNat env.programId =
      .ok payout.transaction := deriveTransactionPda_eq_ok.mpr ⟨_, haddress⟩
  have hvaultPda : Sdk.deriveVaultPda env t.multisig (.ofNat t.vaultIndex.toNat) env.programId =
      .ok payout.vault := (deriveVaultPda_eq_ok ⟨rfl, rfl⟩).mpr ⟨_, hderive⟩
  have hsender : t.message.accountKeys.head? = some payout.vault :=
    List.head?_eq_getElem?.trans hmessage.vault_first
  refine ⟨payout.decodedProposal t classified, ?_, ?_⟩
  · rw [reportProposal, hfeePayer]
    simp only [bind_eq_ok, require_eq_ok, orElse_eq_ok, pure_eq_ok]
    exact ⟨payout.transaction, hcanonical, (), rfl, classified, hclassify, _,
      hasked.decodes.resolveGiven_eq _, payout.vault, hvaultPda, payout.vault, hsender, rfl⟩
  · exact
      { transactionPda_eq := rfl
        multisigPda_eq := congrArg toBase58 h.multisig_eq
        transactionIndex_eq := rfl
        vaultIndex_eq := h.vaultIndex_eq
        vaultPda_eq := rfl
        executed_eq := rfl
        approvals_eq := rfl
        sender_eq := rfl
        recipients_perm := hrecipients
        feeLamports_eq := congrArg toString hfee
        feePayer_eq := rfl
        known := hknown }

/-- **It compares without mismatches** while it waits: once it is executed the gate refuses
it. -/
theorem Sdk.DecodedProposal.Of.clean {p : DecodedProposal} {t : VaultTransaction}
    {params : ApproveOnlyParams} {transactionPda : Option String} (h : p.Of payout t)
    (hvalid : payout.Valid env) (hasked : payout.Asked params) (hpending : t.executed = false)
    (htransaction : ∀ pda, given transactionPda = some pda → pda = toBase58 payout.transaction) :
    (compareProposalToExpected env (.proposal p)
      { params.expected with expectedTransactionPda := transactionPda }).Clean () := by
  have hflows := payout.clean_compareFundFlows hvalid hasked.expected.announced h.recipients_perm
  rw [← h.feeLamports_eq, ← h.feePayer_eq, ← h.known] at hflows
  obtain ⟨e, he, hmultisig⟩ := hasked.multisig
  have hchecked : (checkMultisig p.multisigPda params.expected.expectedMultisigPda).Clean () := by
    rw [he]
    cases e with
    | none => exact clean_pure.mpr rfl
    | some m => exact clean_check.mpr (h.multisigPda_eq.trans (hmultisig m rfl).symm)
  simp only [compareProposalToExpected, clean_bind, clean_check, clean_forSome]
  refine ⟨⟨⟩, h.executed_eq.trans hpending, ⟨⟩, hchecked, ⟨⟩, h.sender_eq.trans h.vaultPda_eq.symm,
    ⟨⟩, fun n hn => ?_, ⟨⟩, fun pda hpda => ?_, ⟨⟩, fun pda hpda => ?_, hflows⟩
  · rw [h.vaultIndex_eq]
    exact hasked.expected.vaultIndex_is n hn
  · rw [h.vaultPda_eq, hasked.expected.vaultPda_eq pda hpda]
  · rw [h.transactionPda_eq, htransaction pda hpda]

/-! ## The gate -/

/-- The connection serves the account at `k` as it is in `s`, whatever commitment is asked
for. -/
def Sdk.SolanaConnection.Serves (connection : SolanaConnection) (s : State) (k : Pubkey) : Prop :=
  ∀ commitment, connection.getAccountInfo k commitment =
    .ok (some ⟨(s.ledger k).owner, (s.ledger k).data⟩)

/-- The proposal is fetched from where it lives: the text of its address parses back to the
address. -/
theorem fetch_of_holds {connection : SolanaConnection} {s : State} {k : Pubkey}
    {t : VaultTransaction} {opts : DecodeProposalOptions} {p : DecodedProposal}
    (hserves : connection.Serves s k) (hholds : transactionAccount.Holds env s.ledger k t)
    (hreport : reportProposal env (.of t) k env.programId opts = .ok p) :
    fetchAndDecodeProposal env connection (toBase58 k) env.programId opts = .proposal p := by
  obtain ⟨howner, hfits, spare, hdata⟩ := hholds
  have hpublic : publicKey (toBase58 k) = .ok k := publicKey_eq_ok.mpr rfl
  have hdecode : decodeVaultTransactionAccount env (s.ledger k).data k env.programId opts =
      .proposal p := decodeVaultTransactionAccount_eq_proposal.mpr ⟨t, spare, hfits, hdata, hreport⟩
  have hfound := hserves (opts.commitment.getD .confirmed)
  simp only [fetchAndDecodeProposal, hpublic, Bind.bind, Except.bind, hfound, orElse, require,
    howner, if_true]
  exact hdecode

/-- Where every comparison is without mismatches, the gate accepts, and returns the proposal
it read. -/
theorem verifyDecoded_of_clean {params : ApproveOnlyParams} {d : DecodedApprove}
    {p : DecodedProposal}
    (hfetch : fetchAndDecodeProposal env params.connection d.transactionPda params.programId
      params.options = .proposal p)
    (happrover : (checkApprover d params.expectedApprover).Clean ())
    (hproposal : (compareProposalToExpected env (.proposal p)
      { params.expected with
        expectedTransactionPda :=
          some (params.expected.expectedTransactionPda.getD d.transactionPda) }).Clean ())
    (hindex : (compareIndex d (.proposal p)).Clean ())
    (hbundle :
      (compareDecodedToExpected env (.approve d) (params.bundleExpected d true)).Clean ()) :
    verifyDecoded env params (.approve d) = ⟨true, [], .approve d, some (.proposal p)⟩ := by
  have hok := ok_iff.mpr ⟨(), hproposal⟩
  simp only [verifyDecoded, hfetch, hok, happrover.1, hproposal.1, hindex.1, hbundle.1,
    List.append_nil, List.foldl_nil, List.isEmpty_nil]

/-- **A payout that waits can be approved.** The proposal of a payout was created at some
time. In every state reached since in which it lives and was not executed, whatever happened
in between, the gate accepts a bundle that approves it, with the right index, as the
approver asked for, and shows the payments, the refunds together and the approvals recorded
so far. The device must have been told of this payout (`Payout.Asked`), with options that
admit the memos and leave recipients unresolved; and as for the creation no account credited
may be the associated one of another (`Payout.Valid.separate`), and memos have no control
characters. -/
theorem pending_payout_accepted {s : State} {r t : VaultTransaction} {params : ApproveOnlyParams}
    {message : TransactionMessage} {steps : List PayoutStep} {tx : Transaction}
    (hs : Reachable env s) (hcf : DistinctAddresses env s.history)
    (hcreated : .created payout.transaction r ∈ s.history) (hr : r.PaysOut payout)
    (hholds : transactionAccount.Holds env s.ledger payout.transaction t)
    (hpending : t.executed = false) (hserves : params.connection.Serves s payout.transaction)
    (hvalid : payout.Valid env) (hasked : payout.Asked params)
    (hprogramId : params.programId = env.programId)
    (hprogram : params.programId ∉ [systemProgramId, computeBudgetProgramId, ataProgramId])
    (hbundle : PayoutBundle params.programId payout t.transactionIndex message steps tx)
    (hbudget : BudgetWithin params.decodeOptions.allowComputeBudget steps)
    (hcreators : steps.filterMap PayoutStep.creator? = [])
    (happrovers : steps.filterMap PayoutStep.approver? ≠ [])
    (hmember : ∀ approver, given params.expectedApprover = some approver →
      ∃ member, .approve member ∈ steps ∧ approver = toBase58 member)
    (hbytes : web3.base64 params.serializedTxBase64 ≠ [])
    (htx : web3.transactionFrom (web3.base64 params.serializedTxBase64) = .ok tx) :
    ∃ p, (verifyApproveOnlyTransaction env web3 params).ok = true ∧
      (verifyApproveOnlyTransaction env web3 params).proposal = some (.proposal p) ∧
      p.recipients.Perm (payout.payments.map payout.shown) ∧ p.feeLamports = toString payout.fee ∧
      p.approvals = t.approvals.map toBase58 := by
  have hrefines := refines_of_reachable hs hcf
  -- the live proposal is the one created, up to approvals
  obtain ⟨r', hr', hsame⟩ :=
    recordAt_of_proposalAt ((hrefines.accounts.proposals payout.transaction t).mp hholds)
  obtain rfl := hrefines.legal.created_unique hcreated (recordAt_mem hr')
  obtain ⟨_, _, -, -, haddress, ⟨vault, hvault⟩, -⟩ := LegalLog.created_split hrefines.legal hr'
  obtain ⟨p, hreport, hp⟩ := (hsame.paysOut hr).exists_report hvalid hasked
    (hsame.addressOf haddress) (hsame.validFor hvault)
  have hfetch := fetch_of_holds hserves hholds hreport
  -- the bundle decodes to approvals of it
  obtain ⟨member, members, happrovers⟩ := List.exists_cons_of_ne_nil happrovers
  obtain ⟨b, hparse, hb⟩ := hbundle.parse hbudget hprogram hbytes htx
  obtain ⟨d, hdecode, hd⟩ := hb.exists_approve hcreators happrovers
  have hdecoded : decodeVaultSolanaTransaction env web3 params.serializedTxBase64 params.programId
      params.decodeOptions = .approve d := by
    rw [decodeVaultSolanaTransaction, hparse]
    exact congrArg DecodedVaultSolanaTx.ofResult hdecode
  have htransaction : ∀ pda, given (some (params.expected.expectedTransactionPda.getD
      d.transactionPda)) = some pda → pda = toBase58 payout.transaction := by
    intro pda hpda
    cases hexpected : params.expected.expectedTransactionPda with
    | some pda' =>
      rw [hexpected] at hpda
      exact hasked.expected.transactionPda_eq pda (hexpected ▸ hpda)
    | none =>
      rw [hexpected, Option.getD_none, hd.transactionPda_eq, given_toBase58] at hpda
      exact (Option.some.inj hpda).symm
  have happrover : (checkApprover d params.expectedApprover).Clean () := by
    refine clean_forSome.mpr fun approver happrover => clean_check.mpr ?_
    obtain ⟨member, hmem, rfl⟩ := hmember approver happrover
    rw [hd.approvers_eq]
    exact List.mem_map_of_mem (List.mem_filterMap.mpr ⟨_, hmem, rfl⟩)
  have hindex : (compareIndex d (.proposal p)).Clean () := by
    simp only [compareIndex, clean_bind, clean_check, clean_forSome, hd.transactionIndex_eq]
    refine ⟨⟨⟩, hd.multisigPda_eq.trans hp.multisigPda_eq.symm, ?_⟩
    rintro index ⟨⟩
    exact hp.transactionIndex_eq.symm
  have hverdict : verifyApproveOnlyTransaction env web3 params =
      ⟨true, [], .approve d, some (.proposal p)⟩ := by
    rw [verifyApproveOnlyTransaction, hdecoded]
    refine verifyDecoded_of_clean ?_ happrover (hp.clean hvalid hasked hpending htransaction)
      hindex (hd.clean hasked)
    rw [hd.transactionPda_eq, hprogramId]
    exact hfetch
  rw [hverdict]
  exact ⟨p, rfl, rfl, hp.recipients_perm, hp.feeLamports_eq, hp.approvals_eq⟩

/-! ## The payroll waits on the example cluster -/

namespace Example

/-- `bob` approves the payroll, and it is executed and closed, all in the transaction that
he is sent. -/
def cosign : LegacyMessage :=
  Sdk.Example.payrollBundle [approve bob, Sdk.Example.executePayroll, close]

/-- What the device of `bob` displays, and the node it asks. -/
def cosignParams (s : State) : ApproveOnlyParams where
  connection := connection s
  serializedTxBase64 := cosign.base64
  programId := programId
  expected :=
    { Sdk.Example.payrollExpected.toExpectedProposal with
      expectedMultisigPda := some (some (toBase58 multisig)) }
  expectedApprover := some (toBase58 bob)
  decodeOptions := ⟨none, none, none, some true⟩
  proposalOptions := ⟨none, some true, none, none, none⟩

/-- The log before: `alice` has proposed the payroll and approved it. -/
def payrollHistory : List Event :=
  [.approved transaction alice, .created transaction payrollRecord,
    .initialized multisig ⟨[alice, bob], 2, 0, 255⟩]

/-- The run that leaves this log, and then the node serves the proposal. -/
theorem exists_waiting :
    ∃ s, Reachable cluster s ∧ s.history = payrollHistory ∧
      (connection s).Serves s transaction := by
  have hrun : ((drive cluster bank genesis
      [register, Sdk.Example.proposePayroll, approve alice]).map fun s =>
        decide (s.history = payrollHistory ∧ (s.ledger transaction).lamports ≠ 0)) =
      some true := by
    decide +kernel
  obtain ⟨s, hs, hchecked⟩ := Option.map_eq_some_iff.mp hrun
  obtain ⟨hhistory, hlamports⟩ := of_decide_eq_true hchecked
  have hkeys : ∀ c ∈ [register, Sdk.Example.proposePayroll, approve alice],
      c.KeysOnly cluster := by
    simp only [List.forall_mem_cons, List.not_mem_nil, IsEmpty.forall_iff, implies_true, and_true]
    refine ⟨?_, ?_, ?_⟩ <;> exact keysOnly (by decide)
  exact ⟨s, reachable_of_reaches genesis_genesis (drive_reaches hkeys hs), hhistory,
    fun _ => congrArg Except.ok (if_neg hlamports)⟩

theorem distinctAddresses_payroll : DistinctAddresses cluster payrollHistory := by
  decide +kernel

theorem payrollRecord_paysOut : payrollRecord.PaysOut Sdk.Example.payout where
  multisig_eq := rfl
  vaultIndex_eq := rfl
  payer_eq := rfl
  message := by
    obtain ⟨built, hbuild, honchain⟩ := build_payroll
    exact ⟨payroll, built, Sdk.Example.payroll_perm, hbuild, honchain⟩

theorem cosign_asked (s : State) : Sdk.Example.payout.Asked (cosignParams s) where
  expected :=
    { announced := Sdk.Example.payroll_announced
      vaultIndex_is := by simp [cosignParams, Sdk.Example.payrollExpected, expected]
      vaultPda_eq := by simp [cosignParams, Sdk.Example.payrollExpected, expected, given]
      transactionPda_eq := by
        simp [cosignParams, Sdk.Example.payrollExpected, expected, given] }
  multisig := ⟨_, rfl, by simp [Sdk.Example.payout]⟩
  feePayer := by simp [cosignParams]
  decodes := Sdk.Example.payroll_decodes

theorem cosign_bundle : PayoutBundle programId Sdk.Example.payout 1 payrollMessage
    [.approve bob, .execute, .close] cosign.transaction where
  feePayer_eq := rfl
  takes := by
    refine .cons ⟨?_, ?_, ?_⟩ (.cons ⟨?_, ?_, ?_⟩ (.cons ⟨?_, ?_, ?_⟩ .nil)) <;> decide +kernel
  size_le := by decide +kernel

end Example

/-- `alice` has approved the payroll of the example, and `bob` is asked to. -/
theorem pending_payout_accepted_example :
    ∃ s p, Reachable Example.cluster s ∧
      (verifyApproveOnlyTransaction Example.cluster Example.cosign.web3
        (Example.cosignParams s)).ok = true ∧
      (verifyApproveOnlyTransaction Example.cluster Example.cosign.web3
        (Example.cosignParams s)).proposal = some (.proposal p) ∧
      p.recipients.Perm [shownTransfer Example.carol 700, shownTransfer Example.bob 300] ∧
      p.feeLamports = "10" ∧ p.approvals = [toBase58 Example.alice] := by
  obtain ⟨s, hreach, hhistory, hserves⟩ := Example.exists_waiting
  have hcf : DistinctAddresses Example.cluster s.history :=
    hhistory ▸ Example.distinctAddresses_payroll
  have hholds : transactionAccount.Holds Example.cluster s.ledger Example.transaction
      { Example.payrollRecord with approvals := [Example.alice] } :=
    ((refines_of_reachable hreach hcf).accounts.proposals _ _).mpr (hhistory ▸ rfl)
  have hbytes : Example.cosign.web3.base64 Example.cosign.base64 ≠ [] := by
    simp [LegacyMessage.web3, Example.cosign.serialize_ne_nil]
  have hmember : ∀ approver, given (Example.cosignParams s).expectedApprover = some approver →
      ∃ member, PayoutStep.approve member ∈ [.approve Example.bob, .execute, .close] ∧
        approver = toBase58 member := fun approver h =>
    ⟨Example.bob, by simp, (Option.some.inj ((given_toBase58 _).symm.trans h)).symm⟩
  have hprogram : Example.programId ∉ [systemProgramId, computeBudgetProgramId, ataProgramId] := by
    decide +kernel
  obtain ⟨p, h⟩ := pending_payout_accepted hreach hcf
    (hhistory ▸ by simp [Example.payrollHistory, Sdk.Example.payout])
    Example.payrollRecord_paysOut hholds rfl hserves Sdk.Example.payout_valid
    (Example.cosign_asked s) rfl hprogram Example.cosign_bundle
    { limits_le := by decide
      prices_le := by decide
      limit_le := by simp
      price_le := by simp }
    rfl (by simp [PayoutStep.approver?]) hmember hbytes Example.cosign.transactionFrom_base64
  exact ⟨s, p, hreach, h⟩

end SolanaMultisig
