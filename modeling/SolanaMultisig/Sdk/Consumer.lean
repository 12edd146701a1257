import SolanaMultisig.Sdk.Proposal

/-!
# The consumer gate

Verification of a consumer send bundle before a device signs it: every rule must
hold. `accepts_of_ok` lists what an accepted bundle is known to be.
-/

namespace SolanaMultisig.Sdk

open Wire Guard Report

variable {env : Env} {web3 : Web3}

/-! ## Parameters and result -/

/-- The transfer the device displays: one recipient and one amount, of lamports or of a
token. -/
structure ConsumerExpected where
  /-- recipient owner for SPL, address for SOL -/
  recipient : String
  amount : String
  tokenMint : Option String
  tokenDecimals : Option Number

/-- What the device knows about its vault, and what it expects. The multisig is to be
derived on the device and never taken from the request. -/
structure ConsumerSolanaBundleParams where
  programId : Pubkey
  multisigPda : String
  members : List String
  signer : String
  vaultIndex : Option Number
  expected : ConsumerExpected
  maxFeeLamports : Amount
  expectedFeePayer : Option String
  maxComputeUnitLimit : Option Number
  maxComputeUnitPriceMicroLamports : Option Amount

/-- What is shown of an accepted bundle, read from the signed bytes. -/
structure ConsumerSolanaBundleDecoded where
  multisigPda : String
  vaultPda : String
  transactionPda : String
  feePayer : Option String
  recipients : List DecodedSolanaVaultRecipient
  feeLamports : String
  memos : List String
  computeUnitLimit : Option String
  computeUnitPriceMicroLamports : Option String

/-- The verdict. What was decoded is given whenever decoding succeeded, also beside a list
of mismatches. -/
structure ConsumerVerdict where
  ok : Bool
  mismatches : List String
  decoded : Option ConsumerSolanaBundleDecoded

/-! ## The rules -/

section Rules

variable (params : ConsumerSolanaBundleParams) (members : List String)

/-- There is a fee payer, no member, and the one expected. A member who paid the fees would
sign away lamports of their own. -/
def checkFeePayer (feePayer : Option String) : Report String Unit :=
  match given feePayer with
  | none => note ["transaction has no fee payer"]
  | some payer => do
    check (payer ∉ members) ("fee payer " ++ payer ++ " is a vault member")
    forSome (fun expected =>
      check (payer = expected)
        ("fee payer " ++ payer ++ " does not match the expected paymaster " ++ expected))
      (given params.expectedFeePayer)

/-- A unit limit within the cap, if a cap is set. A cap that is no integer throws. -/
def checkUnitLimit (value : ℕ) : Report String Unit :=
  forSome (fun limit => do
    let cap ← lift limit.bigInt
    check ((value : ℤ) ≤ cap)
      ("compute unit limit " ++ toString value ++ " exceeds the cap " ++ limit.text))
    params.maxComputeUnitLimit

/-- A unit price within the cap, if a cap is set. A cap that cannot be read is a mismatch.
-/
def checkUnitPrice (value : ℕ) : Report String Unit :=
  forSome (fun price =>
    match toBigIntOrNull (some price) with
    | none => note ["invalid maxComputeUnitPriceMicroLamports"]
    | some cap =>
        check (value ≤ cap)
          ("compute unit price " ++ toString value ++ " exceeds the cap " ++ toString cap))
    params.maxComputeUnitPriceMicroLamports

/-- The ComputeBudget instructions: each setter at most once, within its cap. The loop
carries what was set so far. -/
def checkComputeBudget :
    Option ℕ → Option ℕ → List ParsedComputeBudget → Report String (Option ℕ × Option ℕ)
  | limit, price, [] => pure (limit, price)
  | limit, price, cb :: rest =>
    match cb.value with
    | none => do
      note ["unsupported ComputeBudget instruction #" ++ toString cb.index]
      checkComputeBudget limit price rest
    | some value =>
      if cb.tag = 2 then do
        check (limit = none) "duplicate SetComputeUnitLimit"
        checkUnitLimit params value
        checkComputeBudget (some value) price rest
      else do
        check (price = none) "duplicate SetComputeUnitPrice"
        checkUnitPrice params value
        checkComputeBudget limit (some value) rest

/-- Only allowed instructions, and a nonceAdvance only in front, where the runtime looks for
it. -/
def checkOuter (bundle : ParsedBundle) : Report String Unit := do
  note (bundle.foreign.map fun f =>
    "unknown outer instruction #" ++ toString f.index ++ " (program " ++ f.programId ++ ")")
  check (bundle.nonceAdvanceIndexes.length ≤ 1) "more than one nonceAdvance instruction"
  each (fun i =>
    check (i = 0) ("nonceAdvance at position " ++ toString i ++ ", must be first"))
    bundle.nonceAdvanceIndexes

variable (multisigPda transactionPda : String)

/-- The approvals: of the created proposal, by distinct members. The result is the list of
approvers, the last one first. -/
def checkApprovals : List String → List ParsedMultisigIx → Report String (List String)
  | seenApprovers, [] => pure seenApprovers
  | seenApprovers, a :: rest => do
    let keys ← lift (firstThree a.keys "approve_transaction instruction has too few accounts")
    let approver := toBase58 keys.2.2
    check (toBase58 keys.1 = multisigPda)
      ("approve_transaction names multisig " ++ toBase58 keys.1)
    check (toBase58 keys.2.1 = transactionPda)
      ("approve_transaction targets " ++ toBase58 keys.2.1 ++ ", not the created proposal " ++
        transactionPda)
    check (approver ∈ members) ("approver " ++ approver ++ " is not a vault member")
    check (approver ∉ seenApprovers) ("duplicate approval by " ++ approver)
    checkApprovals (approver :: seenApprovers) rest

/-- An execution or closing is of the created proposal and names its multisig. -/
def checkTarget (label : String) (ix : ParsedMultisigIx) : Report String Unit :=
  match ix.keys with
  | k₀ :: k₁ :: _ => do
    check (toBase58 k₀ = multisigPda) (label ++ " names multisig " ++ toBase58 k₀)
    check (toBase58 k₁ = transactionPda)
      (label ++ " targets " ++ toBase58 k₁ ++ ", not the created proposal " ++ transactionPda)
  | _ => note [label ++ " has too few accounts"]

/-- The destination of a token transfer is the recipient's account. Lamports go to an
address that is compared as it is. -/
def checkDestination (r : DecodedSolanaVaultRecipient) : Report String Unit :=
  check (r.asset = .spl → r.ataVerified = some true)
    ("token destination " ++ r.ata.getD r.address ++ " is not the associated token account of " ++
      params.expected.recipient)

/-- The address of a created account is derived from its owner and mint, by the gate and not
taken from the bundle. -/
def checkAtaAddress (env : Env) (owner mint tokenProgram : String) (ata : Option String) :
    Report String Unit :=
  let derived : Except String Pubkey := do
    let ownerKey ← publicKey owner
    let mintKey ← publicKey mint
    let programKey ← publicKey tokenProgram
    deriveAssociatedTokenAddress env ownerKey mintKey programKey
  match derived with
  | .ok k =>
      check (some (toBase58 k) = ata)
        "ATA create address is not the derived associated token account"
  | .error _ => note ["ATA create accounts are invalid"]

/-- A created account is funded by the fee payer, and the recipient's: it has to be the
destination of some transfer of the message. -/
def checkAtaCreate (env : Env) (feePayer : Option String)
    (recipients : List DecodedSolanaVaultRecipient) (ata : ParsedAtaCreate) :
    Report String Unit := do
  check (ata.dataOk = true) "unsupported associated-token-account instruction"
  check (given feePayer ≠ none ∧ ata.funder = feePayer)
    ("ATA create funded by " ++ ata.funder.getD "unknown" ++ ", not the fee payer")
  let destination := recipients.find? fun r => decide (r.asset = .spl ∧ r.ata = ata.ata)
  match destination, given ata.owner, given ata.mint, given ata.tokenProgram with
  | some r, some owner, some mint, some tokenProgram =>
      if owner = params.expected.recipient ∧ some mint = params.expected.tokenMint ∧
          r.tokenProgram = some tokenProgram then
        checkAtaAddress env owner mint tokenProgram ata.ata
      else note ["ATA create does not match the recipient's token account"]
  | _, _, _, _ => note ["ATA create does not match the recipient's token account"]

/-- The flows of funds expected: one payment, with the refund capped. -/
def ConsumerSolanaBundleParams.flows : FundFlowExpectation where
  recipients := [⟨params.expected.recipient, params.expected.amount⟩]
  tokenMint := params.expected.tokenMint
  tokenDecimals := params.expected.tokenDecimals
  maxFeeLamports := some params.maxFeeLamports
  expectedFeePayer := params.expectedFeePayer

/-- The proposal's instructions name the multisig and the created proposal, and the signer
is one of the approvers. -/
def checkMultisigIxs (signer : String) (bundle : ParsedBundle) (creator : String) :
    Report String Unit := do
  check (creator ∈ members) ("proposal creator " ++ creator ++ " is not a vault member")
  let seenApprovers ← checkApprovals members multisigPda transactionPda [] bundle.approves
  check (signer ∈ seenApprovers) ("the bundle contains no approval by the signer " ++ signer)
  check (bundle.executes.length ≤ 1) "more than one execute_transaction"
  check (bundle.closes.length ≤ 1) "more than one close_transaction"
  each (checkTarget multisigPda transactionPda "execute_transaction") bundle.executes
  each (checkTarget multisigPda transactionPda "close_transaction") bundle.closes

/-- Token accounts are resolved to the recipient when a mint is expected. -/
def resolveExpected (env : Env) (recipients : List DecodedSolanaVaultRecipient) :
    Except String (List DecodedSolanaVaultRecipient) :=
  match given params.expected.tokenMint with
  | some tokenMint => resolveAtaOwner env recipients params.expected.recipient tokenMint
  | none => pure recipients

/-- The message moves funds to the recipient only, out of the vault with the expected index.
-/
def checkInner (env : Env) (vaultIndex : Number) (vaultPda : String) (feePayer : Option String)
    (inner : InnerMessage) :
    Report String (InnerClassification × List DecodedSolanaVaultRecipient) := do
  check (vaultIndex.Is inner.vaultIndex.toNat)
    ("proposal vault index " ++ toString inner.vaultIndex.toNat ++ ", expected " ++ vaultIndex.text)
  let sender ← lift (orElse inner.accountKeys.head?
    "create_transaction inner message has no account keys")
  check (toBase58 sender = vaultPda)
    ("proposal debits " ++ toBase58 sender ++ ", not the vault " ++ vaultPda)
  let classified ← lift (classifyInnerMessage inner feePayer true)
  let recipients ← lift (resolveExpected params env classified.recipients)
  compareFundFlows env
    { recipients
      feeLamports := toString classified.feeLamports
      feePayer
      unknownInnerInstructionCount := classified.unknownInnerInstructionCount }
    params.flows
  each (checkDestination params) recipients
  pure (classified, recipients)

end Rules

/-- Exactly one proposal is created. With none or several the bundle is given up. -/
def oneCreate (bundle : ParsedBundle) : Except String ParsedCreate :=
  match bundle.creates with
  | [create] => .ok create
  | creates => .error ("expected exactly one create_transaction instruction, found " ++
      toString creates.length)

/-- **All rules, in order.** `parsed` is what parsing the transaction gives; a bundle that
does not parse is given up where the source parses it. -/
def consumerReport (env : Env) (parsed : Except String ParsedBundle)
    (params : ConsumerSolanaBundleParams) : Report String ConsumerSolanaBundleDecoded := do
  let vaultIndex := params.vaultIndex.getD (.ofNat 0)
  let multisig ← lift (publicKey params.multisigPda)
  let multisigPda := toBase58 multisig
  let memberKeys ← lift (collect publicKey params.members)
  let members := memberKeys.map toBase58
  let signerKey ← lift (publicKey params.signer)
  let signer := toBase58 signerKey
  -- what cannot be read or does not belong together ends the verification here
  lift (require (signer ∈ members) ("signer " ++ signer ++ " is not a member of the vault"))
  lift (require members.Nodup "duplicate vault members")
  let vault ← lift (deriveVaultPda env multisig vaultIndex params.programId)
  let bundle ← lift parsed
  checkFeePayer params members bundle.feePayer
  checkOuter bundle
  let units ← checkComputeBudget params none none bundle.computeBudget
  let create ← lift (oneCreate bundle)
  -- of the four accounts the last one, who pays the rent, is not looked at
  lift (require (4 ≤ create.keys.length) "create_transaction instruction has too few accounts")
  let keys ← lift (firstThree create.keys "create_transaction instruction has too few accounts")
  let transactionPda := toBase58 keys.2.1
  check (toBase58 keys.1 = multisigPda)
    ("create_transaction names multisig " ++ toBase58 keys.1 ++ ", expected " ++ multisigPda)
  checkMultisigIxs members multisigPda transactionPda signer bundle (toBase58 keys.2.2)
  let flows ← checkInner params env vaultIndex (toBase58 vault) bundle.feePayer create.inner
  check (bundle.ataCreates.length ≤ 1)
    "more than one associated-token-account create instruction"
  each (checkAtaCreate params env bundle.feePayer flows.2) bundle.ataCreates
  pure
    { multisigPda
      vaultPda := toBase58 vault
      transactionPda
      feePayer := bundle.feePayer
      recipients := flows.2
      feeLamports := toString flows.1.feeLamports
      memos := flows.1.memos
      computeUnitLimit := units.1.map toString
      computeUnitPriceMicroLamports := units.2.map toString }

/-- **Fail-closed verification of a consumer send bundle.** Never throws: what any step
throws is the last of the mismatches. -/
def verifyConsumerSolanaBundle (env : Env) (web3 : Web3) (serializedTxBase64 : String)
    (params : ConsumerSolanaBundleParams) : ConsumerVerdict :=
  let report :=
    consumerReport env (parseBundle web3 serializedTxBase64 params.programId) params
  match report.result with
  | .ok decoded => ⟨report.problems.isEmpty, report.problems, some decoded⟩
  | .error error =>
      ⟨false, report.problems ++ ["transaction bytes are undecodable: " ++ error], none⟩

theorem verifyConsumer_ok {serializedTxBase64 : String} {params : ConsumerSolanaBundleParams} :
    (verifyConsumerSolanaBundle env web3 serializedTxBase64 params).ok = true ↔
      ∃ decoded, (consumerReport env (parseBundle web3 serializedTxBase64 params.programId)
        params).Clean decoded := by
  simp only [verifyConsumerSolanaBundle, Clean]
  split
  · rename_i decoded hresult
    simp [hresult]
  · rename_i error hresult
    simp [hresult]

/-! ## What an accepted bundle is -/

/-- The addresses an accepted bundle is about, as keys. The gate itself compares texts. -/
structure ConsumerKeys where
  multisig : Pubkey
  transaction : Pubkey
  vault : Pubkey
  signer : Pubkey
  members : List Pubkey

/-- The payment a device displayed: for tokens, into the recipient's associated token
account and in the mint expected. -/
def PaysConsumer (env : Env) (vault : Pubkey) (tokenMint : Option String)
    (exp : ExpectedRecipient) (ix : Instruction) : Prop :=
  ∃ amount, decimal exp.amount = some amount ∧
    match given tokenMint with
    | none => ∃ dst, toBase58 dst = exp.address ∧ IsSystemTransfer ix vault dst amount
    | some text => ∃ mint owner dst, toBase58 mint = text ∧ toBase58 owner = exp.address ∧
        IsTransferChecked ix mint dst vault amount ∧ IsAssociatedTokenAccount env owner mint dst

/-- **What the rules say** about the bundle `b` and its creation `c`. One field for each
rule that the theorems about landings use. -/
structure ConsumerAccepts (env : Env) (params : ConsumerSolanaBundleParams) (b : ParsedBundle)
    (c : ParsedCreate) (k : ConsumerKeys) : Prop where
  multisig_eq : params.multisigPda = toBase58 k.multisig
  members_eq : params.members = k.members.map toBase58
  signer_eq : params.signer = toBase58 k.signer
  vault_eq : deriveVaultPda env k.multisig (params.vaultIndex.getD (.ofNat 0)) params.programId =
    .ok k.vault
  vaultIndex_is : (params.vaultIndex.getD (.ofNat 0)).Is c.inner.vaultIndex.toNat
  feePayer : ∃ payer, b.feePayer = some payer ∧ payer ∉ params.members
  foreign_eq : b.foreign = []
  ataCreates : ∀ ata ∈ b.ataCreates, ata.funder = b.feePayer
  creates_eq : b.creates = [c]
  create_keys : [k.multisig, k.transaction] <+: c.keys ∧ 4 ≤ c.keys.length
  approvals : ∃ approvers, List.Forall₂ (fun a approver =>
      [k.multisig, k.transaction, approver] <+: ParsedMultisigIx.keys a) b.approves approvers ∧
    approvers.Nodup ∧ k.signer ∈ approvers ∧ ∀ a ∈ approvers, a ∈ k.members
  executes : ∀ e ∈ b.executes, [k.multisig, k.transaction] <+: e.keys
  closes : ∀ e ∈ b.closes, [k.multisig, k.transaction] <+: e.keys
  flows : ∃ classified recipients,
    classifyInnerMessage c.inner b.feePayer true = .ok classified ∧
    resolveExpected params env classified.recipients = .ok recipients ∧
    FlowsMatch env ⟨recipients, toString classified.feeLamports, b.feePayer,
      classified.unknownInnerInstructionCount⟩ params.flows ∧
    ∀ r ∈ recipients, r.asset = .spl → r.ataVerified = some true
  sender_eq : c.inner.accountKeys.head? = some k.vault

/-- Approvals that pass are of the proposal, by distinct members. The approvers come out in
the order of the approvals. -/
theorem checkApprovals_clean {members : List Pubkey} {multisig transaction : Pubkey}
    (seen : List Pubkey) {approves : List ParsedMultisigIx} {result : List String}
    (h : (checkApprovals (members.map toBase58) (toBase58 multisig) (toBase58 transaction)
      (seen.map toBase58) approves).Clean result) :
    ∃ approvers, List.Forall₂ (fun a approver =>
        [multisig, transaction, approver] <+: ParsedMultisigIx.keys a) approves approvers ∧
      result = (approvers.reverse ++ seen).map toBase58 ∧
      (seen.Nodup → (approvers.reverse ++ seen).Nodup) ∧ ∀ a ∈ approvers, a ∈ members := by
  induction approves generalizing seen with
  | nil =>
    rw [checkApprovals, clean_pure] at h
    exact ⟨[], .nil, h.symm, id, fun a ha => absurd ha List.not_mem_nil⟩
  | cons a approves ih =>
    simp only [checkApprovals, clean_bind, clean_lift, clean_check, firstThree_eq_ok] at h
    obtain ⟨⟨k₀, k₁, approver⟩, hkeys, -, hmultisig, -, htransaction, -, hmember, -, hfresh,
      hrest⟩ := h
    rw [List.mem_map_of_injective toBase58_injective] at hmember hfresh
    obtain rfl := toBase58_injective hmultisig
    obtain rfl := toBase58_injective htransaction
    obtain ⟨approvers, happrovers, hresult, hnodup, hmembers⟩ :=
      ih (approver :: seen) hrest
    refine ⟨approver :: approvers, .cons hkeys happrovers, ?_, fun hseen => ?_,
      List.forall_mem_cons.mpr ⟨hmember, hmembers⟩⟩
    · rw [hresult, List.reverse_cons, List.append_assoc, List.singleton_append]
    · rw [List.reverse_cons, List.append_assoc, List.singleton_append]
      exact hnodup (List.nodup_cons.mpr ⟨hfresh, hseen⟩)

theorem checkTarget_clean {multisig transaction : Pubkey} {label : String} {ix : ParsedMultisigIx}
    {u : Unit} (h : (checkTarget (toBase58 multisig) (toBase58 transaction) label ix).Clean u) :
    [multisig, transaction] <+: ix.keys := by
  unfold checkTarget at h
  split at h
  · rename_i k₀ k₁ rest hkeys
    simp only [clean_bind, clean_check] at h
    obtain ⟨-, hmultisig, htransaction⟩ := h
    rw [hkeys, ← toBase58_injective hmultisig, ← toBase58_injective htransaction]
    exact ⟨rest, rfl⟩
  · simp at h

theorem collect_publicKey {members : List String} {keys : List Pubkey}
    (h : collect publicKey members = .ok keys) : members = keys.map toBase58 := by
  rw [collect_eq_ok] at h
  induction h with
  | nil => rfl
  | cons hk _ ih => rw [List.map_cons, ← ih, publicKey_eq_ok.mp hk]

theorem oneCreate_eq_ok {b : ParsedBundle} {c : ParsedCreate} :
    oneCreate b = .ok c ↔ b.creates = [c] := by
  unfold oneCreate
  split
  · rename_i create hcreates
    simp [hcreates]
  · rename_i creates hcreates
    simpa using fun hone => hcreates c hone

theorem checkFeePayer_clean {params : ConsumerSolanaBundleParams} {members : List String}
    {feePayer : Option String} {u : Unit} (h : (checkFeePayer params members feePayer).Clean u) :
    ∃ payer, feePayer = some payer ∧ payer ∉ members := by
  unfold checkFeePayer at h
  split at h
  · simp at h
  · rename_i payer hpayer
    simp only [clean_bind, clean_check] at h
    obtain ⟨-, hmember, -⟩ := h
    exact ⟨payer, (given_eq_some hpayer).1, hmember⟩

theorem checkAtaCreate_clean {params : ConsumerSolanaBundleParams} {feePayer : Option String}
    {recipients : List DecodedSolanaVaultRecipient} {ata : ParsedAtaCreate} {u : Unit}
    (h : (checkAtaCreate params env feePayer recipients ata).Clean u) : ata.funder = feePayer := by
  simp only [checkAtaCreate, clean_bind, clean_check] at h
  obtain ⟨-, -, -, ⟨-, hfunder⟩, -⟩ := h
  exact hfunder

theorem checkOuter_clean {b : ParsedBundle} {u : Unit} (h : (checkOuter b).Clean u) :
    b.foreign = [] := by
  simp only [checkOuter, clean_bind, clean_note, List.map_eq_nil_iff] at h
  obtain ⟨-, hforeign, -⟩ := h
  exact hforeign

/-- What the rules on the proposal's instructions establish: they name one multisig and one
proposal, and the signer approves. -/
theorem checkMultisigIxs_clean {members : List Pubkey} {multisig transaction signer : Pubkey}
    {b : ParsedBundle} {creator : String} {u : Unit}
    (h : (checkMultisigIxs (members.map toBase58) (toBase58 multisig) (toBase58 transaction)
      (toBase58 signer) b creator).Clean u) :
    (∃ approvers, List.Forall₂ (fun a approver =>
        [multisig, transaction, approver] <+: ParsedMultisigIx.keys a) b.approves approvers ∧
      approvers.Nodup ∧ signer ∈ approvers ∧ ∀ a ∈ approvers, a ∈ members) ∧
    (∀ e ∈ b.executes, [multisig, transaction] <+: e.keys) ∧
    ∀ e ∈ b.closes, [multisig, transaction] <+: e.keys := by
  simp only [checkMultisigIxs, clean_bind, clean_check, clean_each] at h
  obtain ⟨-, -, seen, happrovals, -, hsigner, -, -, -, -, -, hexecutes, hcloses⟩ := h
  obtain ⟨approvers, hkeys, rfl, hnodup, hmembers⟩ := checkApprovals_clean [] happrovals
  rw [List.append_nil] at hsigner hnodup
  refine ⟨⟨approvers, hkeys, List.nodup_reverse.mp (hnodup List.nodup_nil), ?_, hmembers⟩,
    fun e he => checkTarget_clean (hexecutes e he), fun e he => checkTarget_clean (hcloses e he)⟩
  rwa [List.mem_map_of_injective toBase58_injective, List.mem_reverse] at hsigner

/-- What the rules on the message establish: it is of the vault expected, and what it moves
is what was expected. -/
theorem checkInner_clean {params : ConsumerSolanaBundleParams} {vaultIndex : Number}
    {vault : Pubkey} {feePayer : Option String} {inner : InnerMessage}
    {p : InnerClassification × List DecodedSolanaVaultRecipient}
    (h : (checkInner params env vaultIndex (toBase58 vault) feePayer inner).Clean p) :
    vaultIndex.Is inner.vaultIndex.toNat ∧ inner.accountKeys.head? = some vault ∧
    ∃ classified recipients, classifyInnerMessage inner feePayer true = .ok classified ∧
      resolveExpected params env classified.recipients = .ok recipients ∧
      FlowsMatch env ⟨recipients, toString classified.feeLamports, feePayer,
        classified.unknownInnerInstructionCount⟩ params.flows ∧
      ∀ r ∈ recipients, r.asset = .spl → r.ataVerified = some true := by
  simp only [checkInner, checkDestination, clean_bind, clean_check, clean_lift, clean_each,
    orElse_eq_ok] at h
  obtain ⟨-, hindex, sender, hsender, -, hvault, classified, hclassified, recipients, hrecipients,
    _, hflows, -, hverified, -⟩ := h
  obtain rfl := toBase58_injective hvault
  exact ⟨hindex, hsender, classified, recipients, hclassified, hrecipients,
    flowsMatch_of_clean hflows, hverified⟩

/-- **Every rule holds of an accepted bundle.** There are a transaction behind the bytes,
its instructions sorted by kind, and the keys that the texts of the device denote. -/
theorem accepts_of_ok {serializedTxBase64 : String} {params : ConsumerSolanaBundleParams}
    (h : (verifyConsumerSolanaBundle env web3 serializedTxBase64 params).ok = true) :
    ∃ tx outer b c k, web3.transactionFrom (web3.base64 serializedTxBase64) = .ok tx ∧
      ParsedBundle.Parses b params.programId tx outer ∧ ConsumerAccepts env params b c k := by
  obtain ⟨decoded, hclean⟩ := verifyConsumer_ok.mp h
  simp only [consumerReport, clean_bind, clean_lift, clean_check, clean_each, require_eq_ok,
    publicKey_eq_ok, oneCreate_eq_ok, firstThree_eq_ok] at hclean
  obtain ⟨multisig, hmultisig, members, hmembers, signer, hsigner, -, -, -, -, vault, hvault, b, hb,
    _, hpayer, _, houter, _, -, c, hcreates, -, hlength, ⟨k₀, transaction, creator⟩, hkeys, -,
    hcreate, _, hixs, flows, hinner, -, -, -, hatas, -⟩ := hclean
  obtain rfl : k₀ = multisig := toBase58_injective hcreate
  obtain ⟨tx, outer, htx, hparses⟩ := parses_of_parseBundle hb
  obtain ⟨happrovals, hexecutes, hcloses⟩ := checkMultisigIxs_clean hixs
  obtain ⟨hindex, hsender, hflows⟩ := checkInner_clean hinner
  refine ⟨tx, outer, b, c, ⟨k₀, transaction, vault, signer, members⟩, htx, hparses, ?_⟩
  exact
    { multisig_eq := hmultisig
      members_eq := collect_publicKey hmembers
      signer_eq := hsigner
      vault_eq := hvault
      vaultIndex_is := hindex
      feePayer := collect_publicKey hmembers ▸ checkFeePayer_clean hpayer
      foreign_eq := checkOuter_clean houter
      ataCreates := fun ata hata => checkAtaCreate_clean (hatas ata hata)
      creates_eq := hcreates
      create_keys := ⟨(List.prefix_append _ [creator]).trans hkeys, hlength⟩
      approvals := happrovals
      executes := hexecutes
      closes := hcloses
      flows := hflows
      sender_eq := hsender }

/-! ## From what is accepted to what is run -/

/-- Whom the recipients are resolved for: the recipient displayed, if a mint is. -/
def ConsumerSolanaBundleParams.claimed (params : ConsumerSolanaBundleParams) :
    Option (String × String) :=
  (given params.expected.tokenMint).map fun m => (params.expected.recipient, m)

theorem shows_resolveExpected {params : ConsumerSolanaBundleParams} {vault : Pubkey}
    {payments : List Instruction} {rs rs' : List DecodedSolanaVaultRecipient}
    (h : List.Forall₂ (Shows env vault none) payments rs)
    (hresolve : resolveExpected params env rs = .ok rs') :
    List.Forall₂ (Shows env vault params.claimed) payments rs' := by
  unfold resolveExpected at hresolve
  unfold ConsumerSolanaBundleParams.claimed
  split at hresolve
  · rename_i tokenMint hmint
    rw [hmint]
    exact shows_resolveAtaOwner h hresolve
  · rename_i hmint
    rw [pure_eq_ok] at hresolve
    subst hresolve
    rw [hmint]
    exact h

/-- The one recipient that fits is a payment to the recipient displayed, of the amount and
in the asset displayed. -/
theorem paysConsumer_of_fits {params : ConsumerSolanaBundleParams} {vault : Pubkey}
    {ix : Instruction} {r : DecodedSolanaVaultRecipient}
    (hshows : Shows env vault params.claimed ix r) (hasset : AssetOk params.flows r)
    (hverified : r.asset = .spl → r.ataVerified = some true)
    (hfits : recipientFits env ⟨params.expected.recipient, params.expected.amount⟩ r = true) :
    PaysConsumer env vault params.expected.tokenMint
      ⟨params.expected.recipient, params.expected.amount⟩ ix := by
  cases hshows with
  | @native dst amount htransfer =>
    obtain ⟨hmatch, hamount⟩ := amount_of_fits hfits rfl
    have htoken : given params.expected.tokenMint = none := hasset
    refine ⟨amount, hamount, ?_⟩
    rw [htoken]
    refine ⟨dst, ?_, htransfer⟩
    simpa [recipientMatchesAddress] using hmatch
  | @spl mint dst amount address verified decimals htransfer haddress =>
    obtain ⟨text, htext, htoken⟩ : ∃ text, some (toBase58 mint) = some text ∧
        given params.expected.tokenMint = some text := hasset
    obtain rfl := Option.some.inj htext
    refine ⟨amount, (amount_of_fits hfits rfl).2, ?_⟩
    rw [htoken]
    -- a verified token account was resolved to the recipient
    obtain ⟨-, hunverified⟩ | ⟨owner, m, hclaimed, -, hata⟩ := haddress
    · exact absurd (hverified rfl) hunverified
    · simp only [ConsumerSolanaBundleParams.claimed, htoken, Option.map_some, Option.some.injEq,
        Prod.mk.injEq] at hclaimed
      obtain ⟨howner, hm⟩ := hclaimed
      obtain rfl := toBase58_injective hm
      exact ⟨mint, owner, dst, rfl, howner.symm, htransfer, hata⟩

/-- **The message of an accepted bundle** pays the recipient displayed, once, and moves
nothing else but a refund within the cap. -/
theorem ConsumerAccepts.exactFlows {params : ConsumerSolanaBundleParams} {b : ParsedBundle}
    {c : ParsedCreate} {k : ConsumerKeys} {vaultIndex : UInt8} {message : TransactionMessage}
    (hc : ConsumerAccepts env params b c k) (hinner : c.inner = InnerMessage.of vaultIndex message) :
    ∃ maxFee, params.flows.maxFee = some maxFee ∧
      ExactFlows (PaysConsumer env k.vault params.expected.tokenMint)
        [⟨params.expected.recipient, params.expected.amount⟩] k.vault b.feePayer maxFee true
        message.calls := by
  obtain ⟨classified, recipients, hclassified, hrecipients, hmatch, hverified⟩ := hc.flows
  have hsender := hc.sender_eq
  rw [hinner] at hclassified hsender
  rw [List.head?_eq_getElem?] at hsender
  refine exactFlows_of_flowsMatch hsender hclassified rfl rfl
    (fun payments hshows => shows_resolveExpected hshows hrecipients) ?_ hmatch
  intro exp hexp ix r hr hshows hfits
  obtain rfl := List.mem_singleton.mp hexp
  exact paysConsumer_of_fits hshows (hmatch.assets r hr) (hverified r hr) hfits

end SolanaMultisig.Sdk
