import SolanaMultisig.Address
import SolanaMultisig.Sdk.Decode

/-!
# Verifying a proposal on chain

The gate for bundles that only approve: the proposal they name is fetched, decoded
and compared with what the device displays. `ProposalReport` says what a decoded
account is, `approves_of_ok` what an accepted bundle is known to be.
-/

namespace SolanaMultisig.Sdk

open Wire Guard Report

variable {env : Env} {web3 : Web3}

/-! ## Derived addresses -/

/-- Vault PDA = findProgramAddress(["vault", multisig, [vaultIndex]], programId). The index
is a number, of which one byte is taken. -/
def deriveVaultPda (env : Env) (multisig : Pubkey) (vaultIndex : Number) (programId : Pubkey) :
    Except String Pubkey :=
  findProgramAddressSync env [ascii "vault", multisig.bytes, [vaultIndex.byte]] programId

/-- Proposal PDA = findProgramAddress(["transaction", multisig, index u64 LE], programId). -/
def deriveTransactionPda (env : Env) (multisig : Pubkey) (transactionIndex : ℕ)
    (programId : Pubkey) : Except String Pubkey :=
  findProgramAddressSync env [ascii "transaction", multisig.bytes, leBytes 8 transactionIndex]
    programId

/-- The SDK derives the vaults of the program, for indexes of one byte. -/
theorem deriveVaultPda_eq_ok {multisig vault : Pubkey} {n : Number} {v : UInt8}
    (hn : n.Is v.toNat) :
    deriveVaultPda env multisig n env.programId = .ok vault ↔
      ∃ bump, SolanaMultisig.deriveVaultPda env multisig v = some (vault, bump) := by
  rw [deriveVaultPda, Number.byte_of_is hn, findProgramAddressSync_eq_ok]
  rfl

/-- And its proposals, for indexes of 64 bits. -/
theorem deriveTransactionPda_eq_ok {multisig address : Pubkey} {n : UInt64} :
    deriveTransactionPda env multisig n.toNat env.programId = .ok address ↔
      ∃ bump, SolanaMultisig.deriveTransactionPda env multisig n = some (address, bump) :=
  findProgramAddressSync_eq_ok

/-! ## Decoding -/

/-- Minimal account shape: who owns it, and its data. -/
structure SolanaAccountInfo where
  owner : Pubkey
  data : List UInt8

/-- How settled the state read must be. -/
inductive Commitment where
  | processed
  | confirmed
  | finalized

/-- Minimal connection shape: reading an account, which may be missing. It is the device's
own view of the chain, and a parameter of the gate. -/
structure SolanaConnection where
  getAccountInfo : Pubkey → Commitment → Except String (Option SolanaAccountInfo)

/-- **A decoded proposal.** The addresses are texts, and the vault is derived and not read.
-/
structure DecodedProposal where
  /-- the account the proposal was read from -/
  transactionPda : String
  multisigPda : String
  transactionIndex : String
  creator : String
  /-- rent funder (paymaster) -/
  payer : String
  vaultIndex : UInt8
  /-- vault PDA derived from (multisig, vaultIndex, programId) -/
  vaultPda : String
  executed : Bool
  approvals : List String
  /-- stored message account_keys[0], must equal vaultPda -/
  sender : String
  recipients : List DecodedSolanaVaultRecipient
  feeLamports : String
  /-- address reimbursements were bucketed against -/
  feePayer : String
  unknownInnerInstructionCount : ℕ
  memos : List String

/-- What decoding an account reports. An account that is no proposal is undecodable. -/
inductive DecodedOnChainProposal where
  | proposal (p : DecodedProposal)
  | undecodable (error : String)

/-- Failures are reported, too: decoding never throws. -/
def DecodedOnChainProposal.ofResult : Except String DecodedProposal → DecodedOnChainProposal
  | .ok p => .proposal p
  | .error error => .undecodable error

theorem DecodedOnChainProposal.ofResult_eq_proposal {r : Except String DecodedProposal}
    {p : DecodedProposal} : ofResult r = .proposal p ↔ r = .ok p := by
  cases r <;> simp [ofResult]

/-- Options for decoding an account; no options are unset ones. A fee payer can be present
and still undefined. -/
structure DecodeProposalOptions where
  feePayer : Option (Option String)
  allowMemo : Option Bool
  expectedRecipientOwner : Option String
  expectedMint : Option String
  commitment : Option Commitment

/-- Check the discriminator, then read. Bytes behind the proposal are ignored, as an account
may be larger than what is stored in it. -/
def readProposalAccount : ByteReader StoredProposal := do
  let disc ← ByteReader.bytes 8
  if disc = transactionAccount.discriminator then readVaultTransaction
  else Reader.fail "account is not a VaultTransaction (discriminator mismatch)"

/-- Report on a proposal read from `transactionPda`, which has to be the address derived for
its multisig and index. -/
def reportProposal (env : Env) (stored : StoredProposal) (transactionPda programId : Pubkey)
    (opts : DecodeProposalOptions) : Except String DecodedProposal := do
  let canonicalPda ← deriveTransactionPda env stored.multisig stored.transactionIndex programId
  require (canonicalPda = transactionPda)
    ("account " ++ toBase58 transactionPda ++ " is not the canonical proposal PDA for multisig " ++
      toBase58 stored.multisig ++ " index " ++ toString stored.transactionIndex)
  -- an undefined fee payer counts as none; the stored payer takes its place
  let feePayer := opts.feePayer.join.getD (toBase58 stored.payer)
  let classified ← classifyInnerMessage stored.inner (some feePayer) (opts.allowMemo == some true)
  let recipients ← resolveGiven env classified.recipients opts.expectedRecipientOwner
    opts.expectedMint
  let vaultPda ← deriveVaultPda env stored.multisig (.ofNat stored.vaultIndex.toNat) programId
  let sender ← orElse stored.inner.accountKeys.head?
    "Cannot read properties of undefined (reading 'toBase58')"
  pure
    { transactionPda := toBase58 transactionPda
      multisigPda := toBase58 stored.multisig
      transactionIndex := toString stored.transactionIndex
      creator := toBase58 stored.creator
      payer := toBase58 stored.payer
      vaultIndex := stored.vaultIndex
      vaultPda := toBase58 vaultPda
      executed := stored.executed
      approvals := stored.approvals.map toBase58
      sender := toBase58 sender
      recipients
      feeLamports := toString classified.feeLamports
      feePayer
      unknownInnerInstructionCount := classified.unknownInnerInstructionCount
      memos := classified.memos }

/-- Decode raw `VaultTransaction` account data (pure, offline, never throws). -/
def decodeVaultTransactionAccount (env : Env) (data : List UInt8)
    (transactionPda programId : Pubkey) (opts : DecodeProposalOptions) : DecodedOnChainProposal :=
  .ofResult do
    let stored ← (readProposalAccount data 0).map Prod.fst
    reportProposal env stored transactionPda programId opts

/-- Fetch the on-chain `VaultTransaction` at `transactionPda` and decode its stored message
(never throws). The account must be owned by the program. -/
def fetchAndDecodeProposal (env : Env) (connection : SolanaConnection) (transactionPda : String)
    (programId : Pubkey) (opts : DecodeProposalOptions) : DecodedOnChainProposal :=
  let fetched : Except String (Pubkey × SolanaAccountInfo) := do
    let pda ← publicKey transactionPda
    let found ← connection.getAccountInfo pda (opts.commitment.getD .confirmed)
    let info ← orElse found ("proposal account " ++ toBase58 pda ++ " not found on-chain")
    require (info.owner = programId)
      ("proposal account " ++ toBase58 pda ++ " is owned by " ++ toBase58 info.owner ++
        ", not the multisig program " ++ toBase58 programId)
    pure (pda, info)
  match fetched with
  | .ok (pda, info) => decodeVaultTransactionAccount env info.data pda programId opts
  | .error error => .undecodable error

/-! ## Comparing -/

/-- What the device is being asked to approve, where the multisig must be given or
explicitly null. -/
structure ExpectedOnChainProposal extends ExpectedProposal where
  expectedMultisigPda : Option (Option String)

/-- The proposal belongs to the multisig expected. Leaving that out by mistake is reported,
and leaving it out on purpose is not. -/
def checkMultisig (multisigPda : String) : Option (Option String) → Report String Unit
  | none => note ["expectedMultisigPda must be provided (or explicitly null)"]
  | some none => pure ()
  | some (some expected) =>
      check (multisigPda = expected)
        ("proposal belongs to multisig " ++ multisigPda ++ ", expected " ++ expected)

/-- **Compare a decoded on-chain proposal** against the payload the device is displaying. -/
def compareProposalToExpected (env : Env) (proposal : DecodedOnChainProposal)
    (expected : ExpectedOnChainProposal) : Report String Unit :=
  match proposal with
  | .undecodable error => note ["on-chain proposal is undecodable: " ++ error]
  | .proposal p => do
    check (p.executed = false) ("proposal " ++ p.transactionPda ++ " has already been executed")
    checkMultisig p.multisigPda expected.expectedMultisigPda
    check (p.sender = p.vaultPda)
      ("proposal debits " ++ p.sender ++ ", not its vault PDA " ++ p.vaultPda)
    forSome (fun n =>
      check (n.Is p.vaultIndex.toNat)
        ("proposal vault index " ++ toString p.vaultIndex.toNat ++ " does not match expected " ++
          n.text))
      expected.expectedVaultIndex
    forSome (fun pda =>
      check (p.vaultPda = pda)
        ("proposal vault " ++ p.vaultPda ++ " does not match the expected vault " ++ pda))
      (given expected.expectedVaultPda)
    forSome (fun pda =>
      check (p.transactionPda = pda)
        ("proposal " ++ p.transactionPda ++ " does not match expected " ++ pda))
      (given expected.expectedTransactionPda)
    compareFundFlows env
      { recipients := p.recipients
        feeLamports := p.feeLamports
        feePayer := some p.feePayer
        unknownInnerInstructionCount := p.unknownInnerInstructionCount }
      expected.toFundFlowExpectation

/-! ## The gate -/

/-- The parameters of the gate. The connection is the device's own, never one supplied by
the relay. -/
structure ApproveOnlyParams where
  connection : SolanaConnection
  serializedTxBase64 : String
  programId : Pubkey
  expected : ExpectedOnChainProposal
  /-- the device's own member pubkey: it must be the approver in the bundle -/
  expectedApprover : Option String
  decodeOptions : DecodeVaultSolanaOptions
  proposalOptions : DecodeProposalOptions

/-- The verdict, with what was decoded of the bundle and of the proposal. -/
structure ApproveOnlyVerdict where
  ok : Bool
  mismatches : List String
  decoded : DecodedVaultSolanaTx
  proposal : Option DecodedOnChainProposal

/-- The options for decoding the proposal: the expected fee payer, unless the caller gave
one. -/
def ApproveOnlyParams.options (params : ApproveOnlyParams) : DecodeProposalOptions :=
  { params.proposalOptions with
    feePayer := params.proposalOptions.feePayer <|>
      (given params.expected.expectedFeePayer).map some }

/-- The bundle names the proposal's multisig and index, as far as it carries one. -/
def compareIndex (decoded : DecodedApprove) : DecodedOnChainProposal → Report String Unit
  | .undecodable _ => pure ()
  | .proposal p => do
    check (decoded.multisigPda = p.multisigPda)
      ("approve names multisig " ++ decoded.multisigPda ++ ", the proposal belongs to " ++
        p.multisigPda)
    forSome (fun index =>
      check (index = p.transactionIndex)
        ("approve transaction_index " ++ index ++ " does not match the proposal's " ++
          p.transactionIndex))
      decoded.transactionIndex

/-- What the bundle itself is compared with: no flows of funds, as those are in the
proposal. -/
def ApproveOnlyParams.bundleExpected (params : ApproveOnlyParams) (decoded : DecodedApprove)
    (verified : Bool) : ExpectedSolanaVaultPayload where
  recipients := []
  tokenMint := none
  tokenDecimals := none
  maxFeeLamports := none
  expectedFeePayer := none
  expectedTransactionPda := some decoded.transactionPda
  expectedVaultIndex := none
  expectedVaultPda := none
  expectedMultisigPda := given params.expected.expectedMultisigPda.join
  approveOnlyVerifiedOnChain := verified

/-- The device's own key is among the approvers, if the caller names it. -/
def checkApprover (decoded : DecodedApprove) (expectedApprover : Option String) :
    Report String Unit :=
  forSome (fun expected =>
    check (expected ∈ decoded.approvers)
      ("the bundle does not approve as " ++ expected ++ " (approvers: " ++
        ", ".intercalate decoded.approvers ++ ")"))
    (given expectedApprover)

/-- A mismatch that is not listed yet. The checks of bundle and proposal overlap. -/
def pushNew (mismatches : List String) (m : String) : List String :=
  if m ∈ mismatches then mismatches else mismatches ++ [m]

/-- The gate, once the bundle is decoded. A bundle of another kind is refused at once. -/
def verifyDecoded (env : Env) (params : ApproveOnlyParams) (decoded : DecodedVaultSolanaTx) :
    ApproveOnlyVerdict :=
  match decoded with
  | .undecodable error =>
      ⟨false, ["transaction bytes are undecodable: " ++ error], decoded, none⟩
  | .create _ =>
      ⟨false, ["expected an approve-only transaction, got kind 'create'"], decoded, none⟩
  | .approve d =>
    let proposal := fetchAndDecodeProposal env params.connection d.transactionPda params.programId
      params.options
    let proposalCmp := compareProposalToExpected env proposal
      { params.expected with
        expectedTransactionPda :=
          some (params.expected.expectedTransactionPda.getD d.transactionPda) }
    let bundleCmp := compareDecodedToExpected env decoded
      (params.bundleExpected d proposalCmp.ok)
    let mismatches := bundleCmp.problems.foldl pushNew
      ((checkApprover d params.expectedApprover).problems ++ proposalCmp.problems ++
        (compareIndex d proposal).problems)
    ⟨mismatches.isEmpty, mismatches, decoded, some proposal⟩

/-- **The complete approve-only (split-flow) gate.** Never throws. What the proposal does is
read from chain, as the bundle does not say. -/
def verifyApproveOnlyTransaction (env : Env) (web3 : Web3) (params : ApproveOnlyParams) :
    ApproveOnlyVerdict :=
  verifyDecoded env params
    (decodeVaultSolanaTransaction env web3 params.serializedTxBase64 params.programId
      params.decodeOptions)

/-! ## What a decoded account is -/

/-- An account is read when it starts with a proposal, as the program encodes it. What
follows is spare. -/
theorem readProposalAccount_eq_ok {data : List UInt8} {stored : StoredProposal} :
    (readProposalAccount data 0).map Prod.fst = .ok stored ↔
      ∃ t spare, transactionAccount.codec.Fits t ∧ data = transactionAccount.bytes t ++ spare ∧
        StoredProposal.of t = stored := by
  change (Reader.bind (ByteReader.bytes 8) _ data 0).map Prod.fst = _ ↔ _
  rw [Reader.bind, ByteReader.bytes, Nat.zero_add, List.drop_zero]
  constructor
  · intro h
    split at h
    · rename_i disc next heq
      split at heq
      · rename_i hlen
        cases heq
        split at h
        · rename_i hdisc
          obtain ⟨t, spare, hdec, hof⟩ := (map_fst_eq_ok readVaultTransaction_agrees hlen).mp h
          obtain ⟨hfits, hrest⟩ := VaultTransaction.codec.encode_of_decode hdec
          refine ⟨t, spare, hfits, ?_, hof⟩
          rw [AccountType.bytes, List.append_assoc, ← hdisc]
          exact (List.take_append_drop 8 data).symm.trans (congrArg _ hrest)
        · cases h
      · cases heq
    · cases h
  · rintro ⟨t, spare, hfits, rfl, hof⟩
    have hdisc := transactionAccount.length_discriminator
    have hlen : 8 ≤ (transactionAccount.bytes t ++ spare).length := by
      simp only [AccountType.bytes, List.length_append, hdisc]
      omega
    have htake : (transactionAccount.bytes t ++ spare).take 8 = transactionAccount.discriminator := by
      rw [AccountType.bytes, List.append_assoc, ← hdisc, List.take_left]
    have hdrop : (transactionAccount.bytes t ++ spare).drop 8 =
        transactionAccount.codec.encode t ++ spare := by
      rw [AccountType.bytes, List.append_assoc, ← hdisc, List.drop_left]
    simp only [if_pos hlen, htake, if_true]
    refine (map_fst_eq_ok readVaultTransaction_agrees hlen).mpr ⟨t, spare, ?_, hof⟩
    rw [hdrop]
    exact transactionAccount.codec.decode_encode spare hfits

/-- **A decoded account starts with a proposal**, which is what is reported. -/
theorem decodeVaultTransactionAccount_eq_proposal {data : List UInt8} {pda programId : Pubkey}
    {opts : DecodeProposalOptions} {p : DecodedProposal} :
    decodeVaultTransactionAccount env data pda programId opts = .proposal p ↔
      ∃ t spare, transactionAccount.codec.Fits t ∧ data = transactionAccount.bytes t ++ spare ∧
        reportProposal env (.of t) pda programId opts = .ok p := by
  rw [decodeVaultTransactionAccount, DecodedOnChainProposal.ofResult_eq_proposal, bind_eq_ok]
  constructor
  · rintro ⟨stored, hstored, hreport⟩
    obtain ⟨t, spare, hfits, hdata, rfl⟩ := readProposalAccount_eq_ok.mp hstored
    exact ⟨t, spare, hfits, hdata, hreport⟩
  · rintro ⟨t, spare, hfits, hdata, hreport⟩
    exact ⟨_, readProposalAccount_eq_ok.mpr ⟨t, spare, hfits, hdata, rfl⟩, hreport⟩

/-- What the report on a proposal says about it, field by field as the theorems use it. -/
structure ProposalReport (env : Env) (t : VaultTransaction) (pda programId : Pubkey)
    (opts : DecodeProposalOptions) (p : DecodedProposal) : Prop where
  canonical : deriveTransactionPda env t.multisig t.transactionIndex.toNat programId = .ok pda
  transaction_eq : p.transactionPda = toBase58 pda
  multisig_eq : p.multisigPda = toBase58 t.multisig
  sender_eq : t.message.accountKeys.head?.map toBase58 = some p.sender
  classified : ∃ classified,
    classifyInnerMessage (.of t.vaultIndex t.message) (some p.feePayer)
      (opts.allowMemo == some true) = .ok classified ∧
    resolveGiven env classified.recipients opts.expectedRecipientOwner opts.expectedMint =
      .ok p.recipients ∧
    p.feeLamports = toString classified.feeLamports ∧
    p.unknownInnerInstructionCount = classified.unknownInnerInstructionCount

theorem reportProposal_eq_ok {t : VaultTransaction} {pda programId : Pubkey}
    {opts : DecodeProposalOptions} {p : DecodedProposal}
    (h : reportProposal env (.of t) pda programId opts = .ok p) :
    ProposalReport env t pda programId opts p := by
  simp only [reportProposal, bind_eq_ok, require_eq_ok, orElse_eq_ok, pure_eq_ok] at h
  obtain ⟨k, hk, -, rfl, classified, hclassified, recipients, hrecipients, vault, -, sender,
    hsender, rfl⟩ := h
  have hsender' : t.message.accountKeys.head? = some sender := hsender
  exact
    { canonical := hk
      transaction_eq := rfl
      multisig_eq := rfl
      sender_eq := by rw [hsender', Option.map_some]
      classified := ⟨classified, hclassified, hrecipients, rfl, rfl⟩ }

/-- **The message of a proposal that compares without mismatches** is exactly the flows
expected, as for a bundle that creates it. -/
theorem ProposalReport.exactFlows {t : VaultTransaction} {pda programId vault : Pubkey}
    {opts : DecodeProposalOptions} {p : DecodedProposal} {expected : ExpectedOnChainProposal}
    (hreport : ProposalReport env t pda programId opts p)
    (hcompare : (compareProposalToExpected env (.proposal p) expected).Clean ())
    (hmint : ∀ m, opts.expectedMint = some m → expected.tokenMint = some m)
    (hvault : t.message.accountKeys[0]? = some vault) :
    ∃ maxFee, expected.maxFee = some maxFee ∧
      ExactFlows (PaysRecipient env vault expected.tokenMint) expected.recipients vault
        (some p.feePayer) maxFee (opts.allowMemo == some true) t.message.calls := by
  obtain ⟨classified, hclassified, hresolved, hfee, hunknown⟩ := hreport.classified
  have hclean : (compareFundFlows env
      ⟨p.recipients, p.feeLamports, some p.feePayer, p.unknownInnerInstructionCount⟩
      expected.toFundFlowExpectation).Clean () := by
    simp only [compareProposalToExpected, clean_bind] at hcompare
    obtain ⟨-, -, -, -, -, -, -, -, -, -, -, -, hflows⟩ := hcompare
    exact hflows
  exact exactFlows_of_resolved hvault hclassified hresolved hfee hunknown hmint hclean

/-! ## What an accepted bundle is -/

theorem foldl_pushNew_eq_nil {ms l : List String} : l.foldl pushNew ms = [] ↔ ms = [] ∧ l = [] := by
  induction l generalizing ms with
  | nil => simp
  | cons m l ih =>
    rw [List.foldl_cons, ih, pushNew]
    split
    · rename_i hmem
      simp [List.ne_nil_of_mem hmem]
    · simp

theorem fetch_eq_proposal {connection : SolanaConnection} {transactionPda : String}
    {programId : Pubkey} {opts : DecodeProposalOptions} {p : DecodedProposal}
    (h : fetchAndDecodeProposal env connection transactionPda programId opts = .proposal p) :
    ∃ pda info commitment, transactionPda = toBase58 pda ∧
      connection.getAccountInfo pda commitment = .ok (some info) ∧ info.owner = programId ∧
      decodeVaultTransactionAccount env info.data pda programId opts = .proposal p := by
  unfold fetchAndDecodeProposal at h
  dsimp only at h
  split at h
  · rename_i pda info hfetched
    simp only [bind_eq_ok, publicKey_eq_ok, orElse_eq_ok, require_eq_ok, pure_eq_ok] at hfetched
    obtain ⟨k, hk, found, hfound, info', rfl, -, howner, heq⟩ := hfetched
    obtain ⟨rfl, rfl⟩ := Prod.mk.inj heq
    exact ⟨k, info', _, hk, hfound, howner, h⟩
  · cases h

/-- **What the gate establishes** of the bundle `b` and the proposal `t`, read at `pda`. -/
structure ApproveAccepts (env : Env) (params : ApproveOnlyParams) (b : ParsedBundle)
    (pda : Pubkey) (t : VaultTransaction) (p : DecodedProposal) : Prop where
  /-- every instruction is on the allowlist -/
  foreign_eq : b.foreign = []
  /-- there is an approval -/
  approves_ne : b.approves ≠ []
  /-- every approval is of the proposal -/
  named : ∀ a ∈ b.approves, [t.multisig, pda] <+: a.keys
  /-- which was read, in one piece, from an account of the program -/
  read : ∃ info commitment, params.connection.getAccountInfo pda commitment = .ok (some info) ∧
    info.owner = params.programId ∧ transactionAccount.codec.Fits t ∧
    ∃ spare, info.data = transactionAccount.bytes t ++ spare
  report : ProposalReport env t pda params.programId params.options p
  /-- it belongs to the multisig expected, unless there is none -/
  multisig : ∃ expected, params.expected.expectedMultisigPda = some expected ∧
    ∀ m, expected = some m → m = toBase58 t.multisig
  /-- and it is as displayed -/
  compare : ∃ transactionPda, (compareProposalToExpected env (.proposal p)
    { params.expected with expectedTransactionPda := transactionPda }).Clean ()

theorem checkMultisig_clean {multisigPda : String} {expected : Option (Option String)} {u : Unit}
    (h : (checkMultisig multisigPda expected).Clean u) :
    ∃ e, expected = some e ∧ ∀ m, e = some m → m = multisigPda := by
  unfold checkMultisig at h
  split at h
  · simp at h
  · exact ⟨none, rfl, nofun⟩
  · rename_i m
    rw [clean_check] at h
    exact ⟨some m, rfl, fun m' hm => (Option.some.inj hm) ▸ h.symm⟩

/-- An accepted bundle only approves, and compares without mismatches, to the proposal that
was fetched as well as to itself. -/
theorem compared_of_ok {params : ApproveOnlyParams}
    (h : (verifyApproveOnlyTransaction env web3 params).ok = true) :
    ∃ d proposal transactionPda,
      decodeVaultSolanaTransaction env web3 params.serializedTxBase64 params.programId
        params.decodeOptions = .approve d ∧
      fetchAndDecodeProposal env params.connection d.transactionPda params.programId
        params.options = proposal ∧
      (verifyApproveOnlyTransaction env web3 params).proposal = some proposal ∧
      (compareIndex d proposal).problems = [] ∧
      (compareDecodedToExpected env (.approve d) (params.bundleExpected d
        (compareProposalToExpected env proposal
          { params.expected with expectedTransactionPda := transactionPda }).ok)).Clean () := by
  unfold verifyApproveOnlyTransaction verifyDecoded at h ⊢
  split at h
  · cases h
  · cases h
  · rename_i d hdecoded
    rw [List.isEmpty_iff, foldl_pushNew_eq_nil, List.append_eq_nil_iff, hdecoded] at h
    obtain ⟨⟨-, hindex⟩, hbundle⟩ := h
    rw [hdecoded]
    exact ⟨d, _, _, rfl, rfl, rfl, hindex, (compareApprove_total d _).clean hbundle⟩

/-- **Every check holds of an accepted bundle**, and the verdict carries the report on the
proposal. -/
theorem approves_of_ok {params : ApproveOnlyParams}
    (h : (verifyApproveOnlyTransaction env web3 params).ok = true) :
    ∃ tx outer b pda t p, web3.transactionFrom (web3.base64 params.serializedTxBase64) = .ok tx ∧
      ParsedBundle.Parses b params.programId tx outer ∧
      (verifyApproveOnlyTransaction env web3 params).proposal = some (.proposal p) ∧
      ApproveAccepts env params b pda t p := by
  obtain ⟨d, proposal, transactionPda, hdecoded, hfetch, hproposal, hindex, hclean⟩ :=
    compared_of_ok h
  obtain ⟨tx, outer, b, htx, hparses, hdecode⟩ := decode_eq_approve hdecoded
  obtain ⟨hunknown, hverified, hnamed⟩ := hdecode.targets hclean
  obtain ⟨_, hcompare⟩ := ok_iff.mp hverified
  cases proposal with
  | undecodable error => simp [compareProposalToExpected] at hcompare
  | proposal p =>
    obtain ⟨pda, info, commitment, hpda, hinfo, howner, haccount⟩ := fetch_eq_proposal hfetch
    obtain ⟨t, spare, hfits, hdata, hreport⟩ := decodeVaultTransactionAccount_eq_proposal.mp haccount
    have hmultisigPda : d.multisigPda = p.multisigPda := by
      have htotal : (compareIndex d (.proposal p)).Total :=
        total_check.bind fun _ => total_forSome (fun _ => total_check) _
      have hindexed := htotal.clean hindex
      simp only [compareIndex, clean_bind, clean_check] at hindexed
      obtain ⟨-, heq, -⟩ := hindexed
      exact heq
    refine ⟨tx, outer, b, pda, t, p, htx, hparses, hproposal, ?_⟩
    have hreport' := reportProposal_eq_ok hreport
    exact
      { foreign_eq := (unknownPrograms_eq_nil (hunknown ▸ hdecode.unknown)).1
        approves_ne := by
          obtain ⟨first, rest, index, hfirst, -⟩ := hdecode.first
          simp [hfirst]
        named := fun a ha => by
          have hprefix := hnamed a ha
          rw [hmultisigPda, hreport'.multisig_eq, hpda] at hprefix
          have hmapped : [t.multisig, pda].map toBase58 <+: a.keys.map toBase58 := hprefix
          exact (List.prefix_map_iff_of_injective toBase58_injective).mp hmapped
        read := ⟨info, commitment, hinfo, howner, hfits, spare, hdata⟩
        report := hreport'
        multisig := by
          simp only [compareProposalToExpected, clean_bind] at hcompare
          obtain ⟨-, -, _, hmultisig, -⟩ := hcompare
          rw [hreport'.multisig_eq] at hmultisig
          exact checkMultisig_clean hmultisig
        compare := ⟨_, hcompare⟩ }

end SolanaMultisig.Sdk
