import SolanaMultisig.ApprovePath
import SolanaMultisig.ConsumerPath

/-!
# The outer instructions of an accepted bundle

A signature authorizes every outer instruction of a bundle. Which proposals those of
an accepted bundle approve and execute (`targetsOnly_iff`), and whom they charge
(`chargesOnly_iff`): in both cases exactly when it is the one expected.
-/

namespace SolanaMultisig

open Wire Guard Report Sdk

variable {env : Env} {web3 : Web3}

/-! ## Proposals -/

/-- An instruction of the program with this discriminator: what the chain will take it for,
whatever the decoder did. -/
structure Instruction.Calls (ix : Instruction) (programId : Pubkey) (tag : List UInt8) : Prop where
  program_eq : ix.programId = programId
  tag_eq : ix.data.take 8 = tag

instance (ix : Instruction) (programId : Pubkey) (tag : List UInt8) :
    Decidable (ix.Calls programId tag) :=
  decidable_of_iff (ix.programId = programId ∧ ix.data.take 8 = tag)
    ⟨fun h => ⟨h.1, h.2⟩, fun h => ⟨h.1, h.2⟩⟩

/-- The proposal an instruction names, if it names at least two accounts. -/
def Instruction.Targets (ix : Instruction) (pda : String) : Prop :=
  ∀ k ∈ ix.keys[1]?, toBase58 k = pda

instance (ix : Instruction) (pda : String) : Decidable (ix.Targets pda) :=
  inferInstanceAs (Decidable (∀ k ∈ ix.keys[1]?, toBase58 k = pda))

/-- Every approval and every execution of a transaction targets the proposal `pda`, judged
by the second account, where the program expects the proposal. -/
structure TargetsOnly (programId : Pubkey) (tx : Transaction) (pda : String) : Prop where
  approvals : ∀ ix ∈ tx.instructions, ix.Calls programId approveTransactionTag → ix.Targets pda
  executions : ∀ ix ∈ tx.instructions, ix.Calls programId executeTransactionTag → ix.Targets pda

theorem Instruction.targets_of_isPrefix {ix : Instruction} {multisig pda : String}
    (h : [multisig, pda] <+: ix.keys.map toBase58) : ix.Targets pda := by
  obtain ⟨rest, hrest⟩ := h
  rintro k hk
  have hsecond := congrArg (·[1]?) hrest
  rw [List.getElem?_map, Option.mem_def.mp hk] at hsecond
  exact (Option.some.inj hsecond).symm

section Parsed

variable {programId : Pubkey} {tx : Transaction} {outer : List ParsedOuter} {b : ParsedBundle}
  {pda : String}

/-- The approvals and executions of a bundle without foreign instructions are those of its
transaction, so what is said of the parsed ones holds of all. -/
theorem Sdk.ParsedBundle.Parses.targetsOnly (h : b.Parses programId tx outer)
    (hforeign : b.foreign = [])
    (hnotMem : programId ∉ [systemProgramId, computeBudgetProgramId, ataProgramId])
    (happroves : ∀ a ∈ b.approves, ∀ k ∈ a.keys[1]?, toBase58 k = pda)
    (hexecutes : ∀ e ∈ b.executes, ∀ k ∈ e.keys[1]?, toBase58 k = pda) :
    TargetsOnly programId tx pda where
  approvals ix hix hcalls := by
    obtain ⟨p, hp, htag, hkeys⟩ := h.exists_own hforeign hnotMem hix hcalls.program_eq
    obtain ⟨a, rfl⟩ := ParsedOuter.eq_approve (hcalls.tag_eq ▸ htag)
    have ha := happroves a (h.mem_approves.mpr hp)
    rwa [show a.keys = ix.keys from Option.some.inj hkeys] at ha
  executions ix hix hcalls := by
    obtain ⟨p, hp, htag, hkeys⟩ := h.exists_own hforeign hnotMem hix hcalls.program_eq
    obtain ⟨e, rfl⟩ := ParsedOuter.eq_execute (hcalls.tag_eq ▸ htag)
    have he := hexecutes e (h.mem_executes.mpr hp)
    rwa [show e.keys = ix.keys from Option.some.inj hkeys] at he

/-- A bundle without creations has none in its transaction. -/
theorem Sdk.ParsedBundle.Parses.not_creates (h : b.Parses programId tx outer)
    (hforeign : b.foreign = [])
    (hnotMem : programId ∉ [systemProgramId, computeBudgetProgramId, ataProgramId])
    (hcreates : b.creates = []) :
    ¬∃ ix ∈ tx.instructions, ix.Calls programId createTransactionTag := by
  rintro ⟨ix, hix, hcalls⟩
  obtain ⟨p, hp, htag, -⟩ := h.exists_own hforeign hnotMem hix hcalls.program_eq
  obtain ⟨c, rfl⟩ := ParsedOuter.eq_create (hcalls.tag_eq ▸ htag)
  have hc := h.mem_creates.mpr hp
  rw [hcreates] at hc
  exact List.not_mem_nil hc

/-- What was decoded to kind approve is for no builtin program. -/
theorem Sdk.ApproveDecoding.notMem {opts : DecodeVaultSolanaOptions} {d : DecodedApprove}
    (ha : ApproveDecoding opts b d) (hparses : b.Parses programId tx outer) :
    programId ∉ [systemProgramId, computeBudgetProgramId, ataProgramId] := by
  obtain ⟨first, rest, index, hfirst, -⟩ := ha.first
  have hmem : .approve first ∈ outer := hparses.mem_approves.mp (by simp [hfirst])
  exact hparses.notMem hmem rfl

end Parsed

/-- A bundle that creates a proposal approves and executes no other: the decoder compares
the targets of both with the proposal created. -/
theorem create_targetsOnly {serializedTxBase64 pda : String} {programId : Pubkey}
    {opts : DecodeVaultSolanaOptions} {d : DecodedCreate} {expected : ExpectedSolanaVaultPayload}
    {tx : Transaction}
    (hdecode : decodeVaultSolanaTransaction env web3 serializedTxBase64 programId opts = .create d)
    (hok : (compareDecodedToExpected env (.create d) expected).ok = true)
    (hpda : given expected.expectedTransactionPda = some pda)
    (htx : web3.transactionFrom (web3.base64 serializedTxBase64) = .ok tx) :
    TargetsOnly programId tx pda := by
  obtain ⟨b, c, unknown, approves, hb, hunknown, hone, happroves, hd⟩ := decode_create hdecode
  obtain ⟨tx', outer, htx', hparses⟩ := parses_of_parseBundle hb
  obtain rfl := Except.ok.inj (htx.symm.trans htx')
  have hforeign := ((decodeCreate_eq_ok hone hunknown hd).foreign_eq hok).1
  obtain ⟨_, hclean⟩ := ok_iff.mp hok
  simp only [compareDecodedToExpected, compareCreate, clean_bind, clean_each, clean_check,
    clean_forSome] at hclean
  obtain ⟨-, -, -, -, -, -, -, happroved, -, hexecuted, -, hcreated, -⟩ := hclean
  have htransaction : d.transactionPda = pda := hcreated pda hpda
  simp only [decodeCreate, bind_eq_ok, pure_eq_ok] at hd
  obtain ⟨keys, -, sender, -, classified, -, recipients, -, rfl⟩ := hd
  have hmem : .create c ∈ outer := hparses.mem_creates.mp (by simp [hone])
  refine hparses.targetsOnly hforeign (hparses.notMem hmem rfl) ?_ ?_
  · intro a ha k hk
    obtain ⟨p, hp, rest, hrest⟩ := exists_right_of_forall₂ happroves ha
    rw [← hrest] at hk
    obtain rfl := Option.some.inj hk
    exact (happroved _ (List.mem_map_of_mem hp)).trans htransaction
  · intro e he k hk
    refine (hexecuted _ (List.mem_filterMap.mpr ⟨e, he, ?_⟩)).trans htransaction
    rw [Option.mem_def.mp hk, Option.map_some]

/-- A bundle that only approves approves no other proposal, but its executions are not
looked at. So the bundle is as expected exactly if none of them targets another proposal. -/
theorem approve_targetsOnly_iff {serializedTxBase64 pda : String} {programId : Pubkey}
    {opts : DecodeVaultSolanaOptions} {d : DecodedApprove} {expected : ExpectedSolanaVaultPayload}
    {tx : Transaction}
    (hdecode : decodeVaultSolanaTransaction env web3 serializedTxBase64 programId opts = .approve d)
    (hok : (compareDecodedToExpected env (.approve d) expected).ok = true)
    (hpda : given expected.expectedTransactionPda = some pda)
    (htx : web3.transactionFrom (web3.base64 serializedTxBase64) = .ok tx) :
    (¬∃ ix ∈ tx.instructions, ix.Calls programId createTransactionTag) ∧
      (TargetsOnly programId tx pda ↔
        ∀ ix ∈ tx.instructions, ix.Calls programId executeTransactionTag → ix.Targets pda) := by
  obtain ⟨tx', outer, b, htx', hparses, ha⟩ := decode_eq_approve hdecode
  obtain rfl := Except.ok.inj (htx.symm.trans htx')
  obtain ⟨_, hclean⟩ := ok_iff.mp hok
  obtain ⟨hunknown, -, hprefix⟩ := ha.targets hclean
  have hforeign := (unknownPrograms_eq_nil (hunknown ▸ ha.unknown)).1
  have hnotMem := ha.notMem hparses
  have htransaction : d.transactionPda = pda := by
    simp only [compareDecodedToExpected, compareApprove, clean_bind, clean_check,
      clean_forSome] at hclean
    obtain ⟨-, -, -, -, -, -, -, htarget, -⟩ := hclean
    exact htarget pda hpda
  refine ⟨hparses.not_creates hforeign hnotMem ha.creates_eq, TargetsOnly.executions,
    fun hexecutions => ⟨fun ix hix hcalls => ?_, hexecutions⟩⟩
  obtain ⟨p, hp, htag, hkeys⟩ := hparses.exists_own hforeign hnotMem hix hcalls.program_eq
  obtain ⟨a, rfl⟩ := ParsedOuter.eq_approve (hcalls.tag_eq ▸ htag)
  have hnamed := hprefix a (hparses.mem_approves.mpr hp)
  rw [show a.keys = ix.keys from Option.some.inj hkeys, htransaction] at hnamed
  exact Instruction.targets_of_isPrefix hnamed

/-- **Which proposals an accepted bundle touches.** A bundle decodes and compares without
mismatches, for the proposal `pda`. It approves and executes no other exactly when it
creates the proposal, or none of its executions targets another. -/
theorem targetsOnly_iff {serializedTxBase64 pda : String} {programId : Pubkey}
    {opts : DecodeVaultSolanaOptions} {expected : ExpectedSolanaVaultPayload} {tx : Transaction}
    (hok : (compareDecodedToExpected env
      (decodeVaultSolanaTransaction env web3 serializedTxBase64 programId opts) expected).ok = true)
    (hpda : given expected.expectedTransactionPda = some pda)
    (htx : web3.transactionFrom (web3.base64 serializedTxBase64) = .ok tx) :
    TargetsOnly programId tx pda ↔
      (∃ ix ∈ tx.instructions, ix.Calls programId createTransactionTag) ∨
        ∀ ix ∈ tx.instructions, ix.Calls programId executeTransactionTag → ix.Targets pda := by
  cases hdecode : decodeVaultSolanaTransaction env web3 serializedTxBase64 programId opts with
  | create d =>
    rw [hdecode] at hok
    have htargets := create_targetsOnly hdecode hok hpda htx
    exact iff_of_true htargets (.inr htargets.executions)
  | approve d =>
    rw [hdecode] at hok
    obtain ⟨hcreates, hiff⟩ := approve_targetsOnly_iff hdecode hok hpda htx
    rw [hiff, or_iff_right hcreates]
  | undecodable error =>
    rw [hdecode] at hok
    exact absurd hok (by simp [compareDecodedToExpected, note, Report.ok])

/-! ## Who pays -/

/-- Everybody an outer instruction charges lamports is `payer`: who pays the fees, the
funders of token accounts, and whom the program charges for the rent of the
proposal. -/
structure ChargesOnly (programId : Pubkey) (tx : Transaction) (payer : String) : Prop where
  feePayer : tx.feePayer.map toBase58 = some payer
  funders : ∀ ix ∈ tx.instructions, ix.programId = ataProgramId →
    ∀ k ∈ ix.keys[0]?, toBase58 k = payer
  rentPayer : ∀ ix ∈ tx.instructions, ix.Calls programId createTransactionTag →
    ∀ k ∈ ix.keys[3]?, toBase58 k = payer

/-- The message of some `create_transaction` has a call that refunds lamports to the fee
payer. Only then is the fee payer compared with the expected one. -/
def RefundsFeePayer (programId : Pubkey) (tx : Transaction) : Prop :=
  ∃ ix ∈ tx.instructions, ix.Calls programId createTransactionTag ∧
    ∃ vaultIndex message, parseInstruction ix.data = .ok (.createTransaction vaultIndex message) ∧
      ∃ call ∈ message.calls, ∃ vault payer lamports, message.accountKeys[0]? = some vault ∧
        tx.feePayer = some payer ∧ 0 < lamports ∧ IsSystemTransfer call vault payer lamports

/-- A gate accepts the bundle, with `payer` as the expected fee payer. -/
inductive AcceptedFor (env : Env) (web3 : Web3) (serializedTxBase64 : String) (programId : Pubkey)
    (payer : String) : Prop
  | create {opts : DecodeVaultSolanaOptions} {d : DecodedCreate}
      {expected : ExpectedSolanaVaultPayload} :
      decodeVaultSolanaTransaction env web3 serializedTxBase64 programId opts = .create d →
      (compareDecodedToExpected env (.create d) expected).ok = true →
      given expected.expectedFeePayer = some payer →
        AcceptedFor env web3 serializedTxBase64 programId payer
  | approve {params : ApproveOnlyParams} :
      (verifyApproveOnlyTransaction env web3 params).ok = true →
      params.serializedTxBase64 = serializedTxBase64 → params.programId = programId →
      given params.expected.expectedFeePayer = some payer →
        AcceptedFor env web3 serializedTxBase64 programId payer

/-- A funder that is not flagged is the fee payer, so token accounts are charged to nobody
else. -/
theorem funder_eq_of_unflagged {payer : String} {ata : ParsedAtaCreate} {k : Pubkey}
    (hpayer : payer ≠ "") (h : flagAtaCreate (some payer) ata = none)
    (hfunder : ata.funder = some (toBase58 k)) : toBase58 k = payer := by
  simp only [flagAtaCreate, given_some hpayer, hfunder, given_toBase58] at h
  split at h
  · cases h
  · rename_i heq
    exact not_not.mp heq

section Charges

variable {serializedTxBase64 payer : String} {programId : Pubkey} {tx : Transaction}

/-- The funders of token accounts are the fee payer. -/
theorem funders_of_unflagged {outer : List ParsedOuter} {b : ParsedBundle}
    (hparses : b.Parses programId tx outer) (hforeign : b.foreign = [])
    (hunflagged : ∀ ata ∈ b.ataCreates, flagAtaCreate b.feePayer ata = none)
    (hpayer : payer ≠ "") (hfee : tx.feePayer.map toBase58 = some payer) :
    ∀ ix ∈ tx.instructions, ix.programId = ataProgramId → ∀ k ∈ ix.keys[0]?, toBase58 k = payer := by
  intro ix hix hprogram k hk
  obtain ⟨ata, hata, hfunder⟩ := hparses.exists_ataCreate hforeign hix hprogram
  have hflag := hunflagged ata hata
  rw [hparses.feePayer_eq, hfee] at hflag
  rw [Option.mem_def.mp hk] at hfunder
  exact funder_eq_of_unflagged hpayer hflag hfunder

/-- A created proposal whose message refunds lamports is compared with the expected fee
payer. -/
theorem feePayer_of_refund {opts : DecodeVaultSolanaOptions} {d : DecodedCreate}
    {expected : ExpectedSolanaVaultPayload}
    (hdecode : decodeVaultSolanaTransaction env web3 serializedTxBase64 programId opts = .create d)
    (hok : (compareDecodedToExpected env (.create d) expected).ok = true)
    (hpayer : given expected.expectedFeePayer = some payer)
    (htx : web3.transactionFrom (web3.base64 serializedTxBase64) = .ok tx)
    (hrefund : RefundsFeePayer programId tx) : tx.feePayer.map toBase58 = some payer := by
  obtain ⟨tx', outer, b, c, htx', hparses, hc⟩ := decode_eq_create hdecode
  obtain rfl := Except.ok.inj (htx.symm.trans htx')
  obtain ⟨ix, hix, hcalls, vaultIndex, message, hparse, call, hcall, vault, k, lamports, hvault, hk,
    hpos, htransfer⟩ := hrefund
  obtain ⟨hinner, -⟩ :=
    hparses.create_eq hc.creates_eq (hc.foreign_eq hok).1 hix hcalls.program_eq hcalls.tag_eq
  obtain ⟨classified, hclassified, -, hfee, hunknown⟩ := hc.classified
  have hpaid : b.feePayer = some (toBase58 k) := by rw [hparses.feePayer_eq, hk, Option.map_some]
  rw [inner_of_create hinner hcalls.tag_eq hparse, hpaid] at hclassified
  -- the refund is among the lamports counted, so that the fee payer was compared
  obtain ⟨_, hclean⟩ := ok_iff.mp hok
  simp only [compareDecodedToExpected, compareCreate, compareFundFlows, clean_bind, clean_check,
    clean_forSome] at hclean
  obtain ⟨-, -, -, -, -, -, -, -, -, -, -, -, -, hknown, -, -, -, hcompared, -⟩ := hclean
  have hrefunded := feeLamports_pos hvault hclassified (hunknown.symm.trans hknown) hcall htransfer
    hpos
  have hpair := hcompared payer hpayer
  rw [hfee, toBigIntOrNull, decimal_toString, Option.getD_some, or_iff_right hrefunded.ne',
    hc.feePayer_eq, hparses.feePayer_eq] at hpair
  exact hpair

end Charges

/-- **Whom an accepted bundle charges.** A gate accepts a bundle with an expected fee payer.
It charges nobody else exactly when it pays the rent of the proposal, and the fees as well
unless they are refunded. Neither is checked by the gates, apart from the fee payer of a
refund. -/
theorem chargesOnly_iff {serializedTxBase64 payer : String} {programId : Pubkey} {tx : Transaction}
    (hok : AcceptedFor env web3 serializedTxBase64 programId payer)
    (htx : web3.transactionFrom (web3.base64 serializedTxBase64) = .ok tx) :
    ChargesOnly programId tx payer ↔
      (RefundsFeePayer programId tx ∨ tx.feePayer.map toBase58 = some payer) ∧
        ∀ ix ∈ tx.instructions, ix.Calls programId createTransactionTag →
          ∀ k ∈ ix.keys[3]?, toBase58 k = payer := by
  constructor
  · exact fun h => ⟨.inr h.feePayer, h.rentPayer⟩
  · rintro ⟨hfee, hrent⟩
    cases hok with
    | create hdecode hok hpayer =>
      have hpaid : tx.feePayer.map toBase58 = some payer :=
        hfee.elim (feePayer_of_refund hdecode hok hpayer htx) id
      obtain ⟨tx', outer, b, c, htx', hparses, hc⟩ := decode_eq_create hdecode
      obtain rfl := Except.ok.inj (htx.symm.trans htx')
      obtain ⟨hforeign, hunflagged⟩ := hc.foreign_eq hok
      exact ⟨hpaid, funders_of_unflagged hparses hforeign hunflagged (given_eq_some hpayer).2 hpaid,
        hrent⟩
    | @approve params hok hbytes hprogram hpayer =>
      subst hbytes hprogram
      obtain ⟨d, _, _, hdecode, -, -, -, hclean⟩ := compared_of_ok hok
      obtain ⟨tx', outer, b, htx', hparses, ha⟩ := decode_eq_approve hdecode
      obtain rfl := Except.ok.inj (htx.symm.trans htx')
      obtain ⟨hunknown, -⟩ := ha.targets hclean
      obtain ⟨hforeign, hunflagged⟩ := unknownPrograms_eq_nil (hunknown ▸ ha.unknown)
      have hnone := hparses.not_creates hforeign (ha.notMem hparses) ha.creates_eq
      have hpaid : tx.feePayer.map toBase58 = some payer :=
        hfee.elim (fun ⟨ix, hix, hcalls, _⟩ => absurd ⟨ix, hix, hcalls⟩ hnone) id
      exact ⟨hpaid, funders_of_unflagged hparses hforeign hunflagged (given_eq_some hpayer).2 hpaid,
        hrent⟩

/-! ## Bundles of the example cluster -/

namespace Example

/-- What the device of `alice` is shown of a bundle that only approves. -/
def approveExpected : ExpectedSolanaVaultPayload where
  recipients := []
  tokenMint := none
  tokenDecimals := none
  maxFeeLamports := none
  expectedFeePayer := none
  expectedTransactionPda := some (toBase58 jointSecond)
  expectedVaultIndex := none
  expectedVaultPda := none
  expectedMultisigPda := some (toBase58 joint)
  approveOnlyVerifiedOnChain := true

/-- The comparison is that of the parsed transaction. -/
theorem compare_approveBundle (commands : List Command)
    (h : (compareDecodedToExpected cluster (decodedBundle commands) approveExpected).ok = true) :
    (compareDecodedToExpected cluster (decodeVaultSolanaTransaction cluster
      (approveBundle commands).web3 (approveBundle commands).base64 programId
      ⟨none, none, none, none⟩) approveExpected).ok = true := by
  rw [(approveBundle commands).decode_eq cluster programId]
  exact h

/-- A bundle that creates, compared for an expected fee payer. -/
theorem acceptedFor_of {m : LegacyMessage} {payer : String}
    (hok : ((DecodedVaultSolanaTx.ofResult (parseTransaction programId m.transaction >>= fun b =>
      decodeBundle cluster b options)).create?.map fun d => (compareDecodedToExpected cluster
        (.create d) { expected with expectedFeePayer := some payer }).ok) = some true)
    (hpayer : payer ≠ "") : AcceptedFor cluster m.web3 m.base64 programId payer := by
  obtain ⟨d, hdecode, hcompare⟩ := exists_decoded_of hok
  exact .create hdecode hcompare (given_some hpayer)

end Example

/-- The bundle that approves and executes one proposal. -/
theorem targetsOnly_iff_example :
    TargetsOnly Example.programId (Example.approveBundle Example.honest).transaction
      (toBase58 Example.jointSecond) :=
  (targetsOnly_iff (Example.compare_approveBundle Example.honest (by decide +kernel)) (by decide)
    (Example.approveBundle Example.honest).transactionFrom_base64).mpr
    (.inr (by decide +kernel))

/-- A bundle compares without mismatches for one proposal and executes another. -/
theorem executes_other_proposal :
    (compareDecodedToExpected Example.cluster (decodeVaultSolanaTransaction Example.cluster
      (Example.approveBundle Example.stray).web3 (Example.approveBundle Example.stray).base64
      Example.programId ⟨none, none, none, none⟩) Example.approveExpected).ok = true ∧
    Example.approveExpected.approveOnlyVerifiedOnChain = true ∧
    Example.approveExpected.expectedTransactionPda = some (toBase58 Example.jointSecond) ∧
    (Example.approveBundle Example.stray).web3.transactionFrom
      ((Example.approveBundle Example.stray).web3.base64
        (Example.approveBundle Example.stray).base64) =
        .ok (Example.approveBundle Example.stray).transaction ∧
    ¬TargetsOnly Example.programId (Example.approveBundle Example.stray).transaction
      (toBase58 Example.jointSecond) := by
  refine ⟨Example.compare_approveBundle Example.stray (by decide +kernel), rfl, rfl,
    (Example.approveBundle Example.stray).transactionFrom_base64, fun h => ?_⟩
  have hexecutions : ¬∀ ix ∈ (Example.approveBundle Example.stray).transaction.instructions,
      ix.Calls Example.programId executeTransactionTag →
        ix.Targets (toBase58 Example.jointSecond) := by
    decide +kernel
  exact hexecutions h.executions

/-- The bundle of the example, expected to be paid by the paymaster. -/
theorem chargesOnly_iff_example :
    ChargesOnly Example.programId Example.bundle.transaction (toBase58 Example.paymaster) :=
  (chargesOnly_iff (Example.acceptedFor_of (by decide +kernel) (by decide))
    Example.bundle.transactionFrom_base64).mpr ⟨.inr rfl, by decide +kernel⟩

/-- The gate accepts a bundle whose fees somebody else pays than the expected fee
payer, and one whose rent somebody else pays. -/
theorem charges_others :
    (AcceptedFor Example.cluster Example.bundle.web3 Example.bundle.base64 Example.programId
        (toBase58 Example.carol) ∧
      Example.bundle.web3.transactionFrom (Example.bundle.web3.base64 Example.bundle.base64) =
        .ok Example.bundle.transaction ∧
      ¬ChargesOnly Example.programId Example.bundle.transaction (toBase58 Example.carol)) ∧
    AcceptedFor Example.cluster Example.chargingBundle.web3 Example.chargingBundle.base64
        Example.programId (toBase58 Example.paymaster) ∧
      Example.chargingBundle.web3.transactionFrom
        (Example.chargingBundle.web3.base64 Example.chargingBundle.base64) =
          .ok Example.chargingBundle.transaction ∧
      ¬ChargesOnly Example.programId Example.chargingBundle.transaction
        (toBase58 Example.paymaster) := by
  refine ⟨⟨Example.acceptedFor_of (by decide +kernel) (by decide),
      Example.bundle.transactionFrom_base64, fun h => ?_⟩,
    Example.acceptedFor_of (by decide +kernel) (by decide),
    Example.chargingBundle.transactionFrom_base64, fun h => ?_⟩
  · exact absurd h.feePayer (by decide)
  · have hrent : ¬∀ ix ∈ Example.chargingBundle.transaction.instructions,
        ix.Calls Example.programId createTransactionTag →
          ∀ k ∈ ix.keys[3]?, toBase58 k = toBase58 Example.paymaster := by
      decide +kernel
    exact hrent h.rentPayer

end SolanaMultisig
