import SolanaMultisig.Sdk.Bundle

/-!
# Decoding a bundle and comparing it

The gate for enterprise bundles: `decodeVaultSolanaTransaction` reports what
signing a transaction authorizes, `compareDecodedToExpected` compares the report
with what the device displays. Both paths, a bundle that creates a proposal and
one that only approves one, are specified by what an accepted bundle is
(`CreateDecoding`, `ApproveDecoding`).
-/

namespace SolanaMultisig.Sdk

open Wire Guard Report

variable {env : Env} {web3 : Web3}

/-! ## Decoding -/

/-- Caps on outer ComputeBudget instructions. A cap that is not set admits any value. -/
structure ComputeBudgetCaps where
  maxUnitLimit : Option Number
  maxUnitPriceMicroLamports : Option Amount

/-- Options for decoding; no options are unset ones. Without them memos and ComputeBudget
instructions are reported as unknown. -/
structure DecodeVaultSolanaOptions where
  expectedRecipientOwner : Option String
  expectedMint : Option String
  /-- accept ComputeBudget setters within these caps -/
  allowComputeBudget : Option ComputeBudgetCaps
  /-- accept memos -/
  allowMemo : Option Bool

/-- **A decoded bundle that creates a proposal.** The keys are texts, the first three are
those of the `create_transaction`, and nothing is compared yet. -/
structure DecodedCreate where
  vaultIndex : UInt8
  multisigPda : String
  transactionPda : String
  creator : String
  /-- inner message account_keys[0], by convention the vault PDA -/
  sender : String
  recipients : List DecodedSolanaVaultRecipient
  feeLamports : String
  feePayer : Option String
  approvers : List String
  /-- proposal each bundled `approve_transaction` targets -/
  approveTargets : List String
  /-- proposal each bundled `execute_transaction` targets -/
  executeTargets : List String
  unknownInnerInstructionCount : ℕ
  /-- outer instructions outside the allowlist -/
  unknownOuterPrograms : List String
  memos : List String

/-- A decoded bundle that only approves. It says nothing about what the proposal does: that
is read from chain. -/
structure DecodedApprove where
  multisigPda : String
  transactionPda : String
  approvers : List String
  approveTargets : List String
  /-- multisig account each `approve_transaction` names -/
  approveMultisigs : Option (List String)
  /-- argument of the first approve, in decimal -/
  transactionIndex : Option String
  unknownOuterPrograms : List String

/-- What decoding reports. Bytes it cannot make sense of are a third kind, which callers
must treat as a hard block. -/
inductive DecodedVaultSolanaTx where
  | create (d : DecodedCreate)
  | approve (d : DecodedApprove)
  | undecodable (error : String)

/-- Failures are reported, too: the decoder never throws. -/
def DecodedVaultSolanaTx.ofResult : Except String DecodedVaultSolanaTx → DecodedVaultSolanaTx
  | .ok decoded => decoded
  | .error error => .undecodable error

/-- The report on a bundle that creates a proposal. -/
def DecodedVaultSolanaTx.create? : DecodedVaultSolanaTx → Option DecodedCreate
  | .create d => some d
  | _ => none

theorem DecodedVaultSolanaTx.eq_create {x : DecodedVaultSolanaTx} {d : DecodedCreate}
    (h : x.create? = some d) : x = .create d := by
  cases x with
  | create d' => rw [Option.some.inj h]
  | approve | undecodable => cases h

/-- The funder of an account creation must be the fee payer. A partial signature authorizes
every instruction, so another funder could be a member who is drained. -/
def flagAtaCreate (paymaster : Option String) (ata : ParsedAtaCreate) : Option ParsedForeign :=
  match given paymaster, given ata.funder with
  | some payer, some funder =>
      if funder ≠ payer then some ⟨ata.index, toBase58 ataProgramId⟩ else none
  | _, _ => none

/-- Is a ComputeBudget instruction within the caps, and the first with its tag? Without caps
none is admitted. -/
def admitComputeBudget (cbCaps : Option ComputeBudgetCaps) (seenCbTags : List ℤ)
    (cb : ParsedComputeBudget) : Except String Bool :=
  match cbCaps, cb.value with
  | some caps, some value =>
      if cb.tag ∈ seenCbTags then pure false
      else if cb.tag = 2 then
        match caps.maxUnitLimit with
        | none => pure true
        | some limit => (fun cap => decide ((value : ℤ) ≤ cap)) <$> limit.bigInt
      else if cb.tag = 3 then
        match caps.maxUnitPriceMicroLamports with
        | none => pure true
        | some price => pure ((toBigIntOrNull (some price)).any fun cap => decide (value ≤ cap))
      else pure false
  | _, _ => pure false

/-- The ComputeBudget instructions that are not admitted. The loop carries the tags seen. -/
def flagComputeBudget (cbCaps : Option ComputeBudgetCaps) :
    List ℤ → List ParsedComputeBudget → Except String (List ParsedForeign)
  | _, [] => pure []
  | seenCbTags, cb :: rest => do
    let admitted ← admitComputeBudget cbCaps seenCbTags cb
    let flagged ← flagComputeBudget cbCaps (cb.tag :: seenCbTags) rest
    pure (if admitted then flagged else ⟨cb.index, toBase58 computeBudgetProgramId⟩ :: flagged)

/-- The first three accounts of an instruction. Further ones are not looked at. -/
def firstThree (keys : List Pubkey) (error : String) : Except String (Pubkey × Pubkey × Pubkey) :=
  match keys with
  | k₀ :: k₁ :: k₂ :: _ => .ok (k₀, k₁, k₂)
  | _ => .error error

/-- `transaction_index` argument (u64 after the discriminator), if it is there. -/
def readTransactionIndexArg (data : List UInt8) : Except String (Option ℕ) :=
  if 16 ≤ data.length then some <$> readU64LE data 8 else pure none

/-- The outer allowlist verdict, in instruction order: everything flagged, sorted by
position. -/
def unknownPrograms (bundle : ParsedBundle) (cbCaps : Option ComputeBudgetCaps) :
    Except String (List String) := do
  let budget ← flagComputeBudget cbCaps [] bundle.computeBudget
  let flagged := bundle.foreign ++ bundle.ataCreates.filterMap (flagAtaCreate bundle.feePayer) ++
    budget
  pure ((flagged.insertionSort fun a b => a.index ≤ b.index).map ParsedForeign.programId)

/-- **The report on a bundle that creates a proposal.** The recipients are resolved when the
options name an owner and a mint. -/
def decodeCreate (env : Env) (bundle : ParsedBundle) (opts : DecodeVaultSolanaOptions)
    (unknownOuterPrograms : List String) (approves : List (Pubkey × Pubkey × Pubkey))
    (create : ParsedCreate) : Except String DecodedCreate := do
  let keys ← firstThree create.keys "create_transaction instruction has too few accounts"
  let inner := create.inner
  let sender ← orElse inner.accountKeys.head?
    "create_transaction inner message has no account keys"
  let classified ← classifyInnerMessage inner bundle.feePayer (opts.allowMemo == some true)
  let recipients ← resolveGiven env classified.recipients opts.expectedRecipientOwner
    opts.expectedMint
  pure
    { vaultIndex := inner.vaultIndex
      multisigPda := toBase58 keys.1
      transactionPda := toBase58 keys.2.1
      creator := toBase58 keys.2.2
      sender := toBase58 sender
      recipients
      feeLamports := toString classified.feeLamports
      feePayer := bundle.feePayer
      approvers := approves.map fun a => toBase58 a.2.2
      approveTargets := approves.map fun a => toBase58 a.2.1
      executeTargets := bundle.executes.filterMap fun e => e.keys[1]?.map toBase58
      unknownInnerInstructionCount := classified.unknownInnerInstructionCount
      unknownOuterPrograms
      memos := classified.memos }

/-- The report on a bundle that only approves. The proposal is the one of the first
approval, and the targets of all of them are listed beside it. -/
def decodeApprove (unknownOuterPrograms : List String) (approves : List (Pubkey × Pubkey × Pubkey))
    (firstKeys : Pubkey × Pubkey × Pubkey) (first : ParsedMultisigIx) :
    Except String DecodedApprove := do
  let index ← readTransactionIndexArg first.data
  pure
    { multisigPda := toBase58 firstKeys.1
      transactionPda := toBase58 firstKeys.2.1
      approvers := approves.map fun a => toBase58 a.2.2
      approveTargets := approves.map fun a => toBase58 a.2.1
      approveMultisigs := some (approves.map fun a => toBase58 a.1)
      transactionIndex := index.map toString
      unknownOuterPrograms }

/-- Decode a parsed bundle. A creation makes it a bundle that creates, whatever else is in
it, and with neither a creation nor an approval it is undecodable. -/
def decodeBundle (env : Env) (bundle : ParsedBundle) (opts : DecodeVaultSolanaOptions) :
    Except String DecodedVaultSolanaTx := do
  let unknownOuterPrograms ← unknownPrograms bundle opts.allowComputeBudget
  require (bundle.creates.length ≤ 1) "multiple create_transaction instructions"
  let approves ← collect
    (fun a => firstThree a.keys "approve_transaction instruction has too few accounts")
    bundle.approves
  match bundle.creates, bundle.approves, approves with
  | create :: _, _, _ =>
      .create <$> decodeCreate env bundle opts unknownOuterPrograms approves create
  | [], first :: _, firstKeys :: _ =>
      .approve <$> decodeApprove unknownOuterPrograms approves firstKeys first
  | _, _, _ => .error "no create_transaction or approve_transaction instruction found"

/-- **Decode a serialized transaction.** Never throws. It reports what signing authorizes
and leaves the comparison to the caller. -/
def decodeVaultSolanaTransaction (env : Env) (web3 : Web3) (serializedTxBase64 : String)
    (programId : Pubkey) (opts : DecodeVaultSolanaOptions) : DecodedVaultSolanaTx :=
  .ofResult do
    let bundle ← parseBundle web3 serializedTxBase64 programId
    decodeBundle env bundle opts

theorem DecodedVaultSolanaTx.ofResult_eq {r : Except String DecodedVaultSolanaTx}
    {decoded : DecodedVaultSolanaTx} (h : ofResult r = decoded)
    (hdecoded : ∀ error, decoded ≠ .undecodable error) : r = .ok decoded := by
  cases r with
  | ok decoded' => exact congrArg Except.ok h
  | error error => exact absurd h.symm (hdecoded error)

/-! ## Comparing -/

/-- What the device expects of a proposal, apart from its multisig: the flows of funds, and
what it may know of the proposal and the vault. -/
structure ExpectedProposal extends FundFlowExpectation where
  /-- the proposal the approver is being shown -/
  expectedTransactionPda : Option String
  /-- when set, the proposal's vault_index must equal it -/
  expectedVaultIndex : Option Number
  /-- when set, the debited vault PDA must equal it -/
  expectedVaultPda : Option String

/-- What the device is being asked to approve. A bundle that only approves is refused unless
its proposal was verified on chain. -/
structure ExpectedSolanaVaultPayload extends ExpectedProposal where
  /-- the multisig the device expects to sign for -/
  expectedMultisigPda : Option String
  /-- was the proposal's message verified on chain? -/
  approveOnlyVerifiedOnChain : Bool

/-- The checks of both kinds: nothing outside of the allowlist, and the multisig expected,
if one is. -/
def compareOuter (unknownOuterPrograms : List String) (multisigPda : String)
    (expected : ExpectedSolanaVaultPayload) : Report String Unit := do
  check (unknownOuterPrograms = [])
    ("unknown outer program instruction(s): " ++ ", ".intercalate unknownOuterPrograms)
  forSome (fun expectedMultisigPda =>
    check (multisigPda = expectedMultisigPda)
      ("multisig " ++ multisigPda ++ " does not match the expected vault multisig " ++
        expectedMultisigPda))
    (given expected.expectedMultisigPda)

/-- Every approve in the bundle must target the same proposal of the same multisig, and the
proposal expected, if one is. -/
def compareApprove (decoded : DecodedApprove) (expected : ExpectedSolanaVaultPayload) :
    Report String Unit := do
  each (fun t => do
    check (t = decoded.transactionPda)
      ("approve_transaction targets " ++ t ++ ", not the bundle's proposal " ++
        decoded.transactionPda)
    forSome (fun pda =>
      check (t = pda) ("approve_transaction targets " ++ t ++ ", expected proposal " ++ pda))
      (given expected.expectedTransactionPda))
    decoded.approveTargets
  each (fun m =>
    check (m = decoded.multisigPda)
      ("approve_transaction names multisig " ++ m ++ ", not the bundle's multisig " ++
        decoded.multisigPda))
    (decoded.approveMultisigs.getD [])
  forSome (fun pda =>
    check (decoded.transactionPda = pda)
      ("approve targets proposal " ++ decoded.transactionPda ++ ", expected " ++ pda))
    (given expected.expectedTransactionPda)
  -- executions are not looked at: the report on approvals carries none
  check (expected.approveOnlyVerifiedOnChain = true)
    ("approve-only transaction: the proposal message is not present in these bytes. Fetch the " ++
      "on-chain VaultTransaction at the target PDA, verify its recipients/amounts, then set " ++
      "approveOnlyVerifiedOnChain (with expectedTransactionPda) to approve.")
  check (expected.approveOnlyVerifiedOnChain = true → given expected.expectedTransactionPda ≠ none)
    ("approveOnlyVerifiedOnChain set without expectedTransactionPda: cannot confirm which " ++
      "proposal was verified")

/-- Bind everything to the created proposal, and compare the flows of funds. -/
def compareCreate (env : Env) (decoded : DecodedCreate) (expected : ExpectedSolanaVaultPayload) :
    Report String Unit := do
  forSome (fun n =>
    check (n.Is decoded.vaultIndex.toNat)
      ("proposal vault index " ++ toString decoded.vaultIndex.toNat ++ " does not match expected " ++
        n.text))
    expected.expectedVaultIndex
  forSome (fun pda =>
    check (decoded.sender = pda)
      ("debited vault " ++ decoded.sender ++ " does not match the expected vault " ++ pda))
    (given expected.expectedVaultPda)
  each (fun t =>
    check (t = decoded.transactionPda)
      ("approve_transaction targets " ++ t ++ ", not the created proposal " ++
        decoded.transactionPda))
    decoded.approveTargets
  each (fun t =>
    check (t = decoded.transactionPda)
      ("execute_transaction targets " ++ t ++ ", not the created proposal " ++
        decoded.transactionPda))
    decoded.executeTargets
  forSome (fun pda =>
    check (decoded.transactionPda = pda)
      ("created proposal " ++ decoded.transactionPda ++ " does not match expected " ++ pda))
    (given expected.expectedTransactionPda)
  compareFundFlows env
    { recipients := decoded.recipients
      feeLamports := decoded.feeLamports
      feePayer := decoded.feePayer
      unknownInnerInstructionCount := decoded.unknownInnerInstructionCount }
    expected.toFundFlowExpectation

/-- **Compare what was decoded with what is displayed.** The device may sign when there is
no mismatch. -/
def compareDecodedToExpected (env : Env) (decoded : DecodedVaultSolanaTx)
    (expected : ExpectedSolanaVaultPayload) : Report String Unit :=
  match decoded with
  | .undecodable error => note ["transaction bytes are undecodable: " ++ error]
  | .approve d => do
    compareOuter d.unknownOuterPrograms d.multisigPda expected
    compareApprove d expected
  | .create d => do
    compareOuter d.unknownOuterPrograms d.multisigPda expected
    compareCreate env d expected

/-! ## Accepted bundles that create -/

/-- Nothing is flagged: there is no foreign instruction, and no account creation that
somebody else pays for. -/
theorem unknownPrograms_eq_nil {b : ParsedBundle} {cbCaps : Option ComputeBudgetCaps}
    (h : unknownPrograms b cbCaps = .ok []) :
    b.foreign = [] ∧ ∀ ata ∈ b.ataCreates, flagAtaCreate b.feePayer ata = none := by
  simp only [unknownPrograms, bind_eq_ok, pure_eq_ok, List.map_eq_nil_iff] at h
  obtain ⟨budget, -, hsorted⟩ := h
  have hnil := (List.perm_insertionSort _ _).symm.trans (List.Perm.of_eq hsorted)
  obtain ⟨hflagged, -⟩ := List.append_eq_nil_iff.mp hnil.eq_nil
  obtain ⟨hforeign, hatas⟩ := List.append_eq_nil_iff.mp hflagged
  exact ⟨hforeign, fun ata hata => List.filterMap_eq_nil_iff.mp hatas ata hata⟩

/-- A bundle decodes to a report only if it parses and its one creation, with all its
approvals, is reported on. The fields say where each part of the report comes from. -/
structure CreateDecoding (env : Env) (opts : DecodeVaultSolanaOptions) (b : ParsedBundle)
    (c : ParsedCreate) (d : DecodedCreate) : Prop where
  creates_eq : b.creates = [c]
  unknown : unknownPrograms b opts.allowComputeBudget = .ok d.unknownOuterPrograms
  keys : [d.multisigPda, d.transactionPda, d.creator] <+: c.keys.map toBase58
  sender_eq : c.inner.accountKeys.head?.map toBase58 = some d.sender
  feePayer_eq : d.feePayer = b.feePayer
  classified : ∃ classified,
    classifyInnerMessage c.inner b.feePayer (opts.allowMemo == some true) = .ok classified ∧
    resolveGiven env classified.recipients opts.expectedRecipientOwner opts.expectedMint =
      .ok d.recipients ∧
    d.feeLamports = toString classified.feeLamports ∧
    d.unknownInnerInstructionCount = classified.unknownInnerInstructionCount

theorem firstThree_eq_ok {keys : List Pubkey} {error : String} {p : Pubkey × Pubkey × Pubkey} :
    firstThree keys error = .ok p ↔ [p.1, p.2.1, p.2.2] <+: keys := by
  obtain ⟨k₀, k₁, k₂⟩ := p
  unfold firstThree
  split
  · simp [List.cons_prefix_cons, eq_comm]
  · rename_i hshort
    constructor
    · intro h
      cases h
    · rintro ⟨rest, rfl⟩
      exact absurd rfl (hshort k₀ k₁ k₂ rest)

theorem decodeCreate_eq_ok {bundle : ParsedBundle} {opts : DecodeVaultSolanaOptions}
    {unknown : List String} {approves : List (Pubkey × Pubkey × Pubkey)} {c : ParsedCreate}
    {d : DecodedCreate} (hcreates : bundle.creates = [c])
    (hunknown : unknownPrograms bundle opts.allowComputeBudget = .ok unknown)
    (h : decodeCreate env bundle opts unknown approves c = .ok d) :
    CreateDecoding env opts bundle c d := by
  simp only [decodeCreate, bind_eq_ok, pure_eq_ok, firstThree_eq_ok, orElse_eq_ok] at h
  obtain ⟨keys, hkeys, sender, hsender, classified, hclassified, recipients, hrecipients, rfl⟩ := h
  exact
    { creates_eq := hcreates
      unknown := hunknown
      keys := hkeys.map toBase58
      sender_eq := by rw [hsender, Option.map_some]
      feePayer_eq := rfl
      classified := ⟨classified, hclassified, hrecipients, rfl, rfl⟩ }

/-- A bundle decoded to kind create was parsed, and its one creation is reported on. The
steps of the decoder are kept apart here. -/
theorem decode_create {serializedTxBase64 : String} {programId : Pubkey}
    {opts : DecodeVaultSolanaOptions} {d : DecodedCreate}
    (h : decodeVaultSolanaTransaction env web3 serializedTxBase64 programId opts = .create d) :
    ∃ b c unknown approves, parseBundle web3 serializedTxBase64 programId = .ok b ∧
      unknownPrograms b opts.allowComputeBudget = .ok unknown ∧ b.creates = [c] ∧
      List.Forall₂ (fun a k => [k.1, k.2.1, k.2.2] <+: ParsedMultisigIx.keys a) b.approves
        approves ∧ decodeCreate env b opts unknown approves c = .ok d := by
  obtain ⟨b, hb, hdecode⟩ := bind_eq_ok.mp (DecodedVaultSolanaTx.ofResult_eq h nofun)
  simp only [decodeBundle, bind_eq_ok, require_eq_ok, collect_eq_ok, firstThree_eq_ok] at hdecode
  obtain ⟨unknown, hunknown, -, hone, approves, happroves, hdecode⟩ := hdecode
  split at hdecode
  · rename_i c rest hcreates
    rw [hcreates] at hone
    obtain rfl : rest = [] := by simpa using hone
    obtain ⟨d', hd', he⟩ := map_eq_ok.mp hdecode
    cases he
    exact ⟨b, c, unknown, _, hb, hunknown, hcreates, happroves, hd'⟩
  · obtain ⟨d', -, he⟩ := map_eq_ok.mp hdecode
    cases he
  · cases hdecode

/-- **A bundle decoded to kind create** comes from a transaction whose instructions its
lists account for, and its report is that of its one creation. -/
theorem decode_eq_create {serializedTxBase64 : String} {programId : Pubkey}
    {opts : DecodeVaultSolanaOptions} {d : DecodedCreate}
    (h : decodeVaultSolanaTransaction env web3 serializedTxBase64 programId opts = .create d) :
    ∃ tx outer b c, web3.transactionFrom (web3.base64 serializedTxBase64) = .ok tx ∧
      ParsedBundle.Parses b programId tx outer ∧ CreateDecoding env opts b c d := by
  obtain ⟨b, c, unknown, approves, hb, hunknown, hcreates, -, hd⟩ := decode_create h
  obtain ⟨tx, outer, htx, hparses⟩ := parses_of_parseBundle hb
  exact ⟨tx, outer, b, c, htx, hparses, decodeCreate_eq_ok hcreates hunknown hd⟩

/-- Every outer instruction of an accepted bundle is on the allowlist. -/
theorem CreateDecoding.foreign_eq {opts : DecodeVaultSolanaOptions} {b : ParsedBundle}
    {c : ParsedCreate} {d : DecodedCreate} {expected : ExpectedSolanaVaultPayload}
    (hdecode : CreateDecoding env opts b c d)
    (hcompare : (compareDecodedToExpected env (.create d) expected).ok = true) :
    b.foreign = [] ∧ ∀ ata ∈ b.ataCreates, flagAtaCreate b.feePayer ata = none := by
  obtain ⟨_, hclean⟩ := ok_iff.mp hcompare
  simp only [compareDecodedToExpected, compareOuter, clean_bind, clean_check] at hclean
  obtain ⟨-, ⟨-, hnil, -⟩, -⟩ := hclean
  exact unknownPrograms_eq_nil (hnil ▸ hdecode.unknown)

theorem given_of_eq {a b : Option String} (h : ∀ m, a = some m → b = some m) {m : String}
    (ha : given a = some m) : given b = some m := by
  obtain ⟨hm, hne⟩ := given_eq_some ha
  rw [h m hm, given_some hne]

/-- Recipients resolved for the mint expected, if the options name no other. -/
theorem claimedOwner_mint {owner mint tokenMint : Option String}
    (hmint : ∀ m, mint = some m → tokenMint = some m) (o m : String)
    (hclaimed : claimedOwner owner mint = some (o, m)) : given tokenMint = some m := by
  unfold claimedOwner at hclaimed
  split at hclaimed
  · rename_i hm
    cases hclaimed
    exact given_of_eq hmint hm
  · cases hclaimed

/-- What compares without mismatches, resolved for the mint expected, is exactly the flows
expected. Both gates of this kind use it, with the message from the bundle or from chain. -/
theorem exactFlows_of_resolved {message : TransactionMessage} {vaultIndex : UInt8}
    {feePayer owner mint : Option String} {allowMemo : Bool} {c : InnerClassification}
    {vault : Pubkey} {view : FundFlowView} {expected : FundFlowExpectation}
    (hvault : message.accountKeys[0]? = some vault)
    (hclassify : classifyInnerMessage (.of vaultIndex message) feePayer allowMemo = .ok c)
    (hresolved : resolveGiven env c.recipients owner mint = .ok view.recipients)
    (hfee : view.feeLamports = toString c.feeLamports)
    (hunknown : view.unknownInnerInstructionCount = c.unknownInnerInstructionCount)
    (hmint : ∀ m, mint = some m → expected.tokenMint = some m)
    (hclean : (compareFundFlows env view expected).Clean ()) :
    ∃ maxFee, expected.maxFee = some maxFee ∧
      ExactFlows (PaysRecipient env vault expected.tokenMint) expected.recipients vault feePayer
        maxFee allowMemo message.calls := by
  have hmatch := flowsMatch_of_clean hclean
  refine exactFlows_of_flowsMatch hvault hclassify hunknown hfee
    (fun payments hshows => shows_resolveGiven hshows hresolved) ?_ hmatch
  intro exp _ ix r hr hshows hfits
  exact paysRecipient_of_fits hshows (claimedOwner_mint hmint) (hmatch.assets r hr) hfits

/-- **What an accepted bundle creates runs exactly the flows expected**, out of the vault
that is the first account of its message. -/
theorem CreateDecoding.exactFlows {opts : DecodeVaultSolanaOptions} {b : ParsedBundle}
    {c : ParsedCreate} {d : DecodedCreate} {expected : ExpectedSolanaVaultPayload}
    {vaultIndex : UInt8} {message : TransactionMessage} {vault : Pubkey}
    (hdecode : CreateDecoding env opts b c d)
    (hcompare : (compareDecodedToExpected env (.create d) expected).ok = true)
    (hmint : ∀ m, opts.expectedMint = some m → expected.tokenMint = some m)
    (hinner : c.inner = InnerMessage.of vaultIndex message)
    (hvault : message.accountKeys[0]? = some vault) :
    ∃ maxFee, expected.maxFee = some maxFee ∧
      ExactFlows (PaysRecipient env vault expected.tokenMint) expected.recipients vault b.feePayer
        maxFee (opts.allowMemo == some true) message.calls := by
  obtain ⟨classified, hclassified, hresolved, hfee, hunknown⟩ := hdecode.classified
  have hclean : (compareFundFlows env ⟨d.recipients, d.feeLamports, d.feePayer,
      d.unknownInnerInstructionCount⟩ expected.toFundFlowExpectation).Clean () := by
    obtain ⟨_, hclean⟩ := ok_iff.mp hcompare
    simp only [compareDecodedToExpected, compareCreate, clean_bind] at hclean
    obtain ⟨-, -, -, -, -, -, -, -, -, -, -, -, hflows⟩ := hclean
    exact hflows
  rw [hinner] at hclassified
  exact exactFlows_of_resolved hvault hclassified hresolved hfee hunknown hmint hclean

/-! ## Accepted bundles that approve -/

/-- A bundle decodes to an approval only if it creates nothing and each of its approvals has
the accounts it needs. -/
structure ApproveDecoding (opts : DecodeVaultSolanaOptions) (b : ParsedBundle) (d : DecodedApprove) :
    Prop where
  creates_eq : b.creates = []
  unknown : unknownPrograms b opts.allowComputeBudget = .ok d.unknownOuterPrograms
  approves : ∃ approves : List (Pubkey × Pubkey × Pubkey),
    List.Forall₂ (fun a k => [k.1, k.2.1, k.2.2] <+: ParsedMultisigIx.keys a) b.approves approves ∧
    d.approvers = approves.map (fun k => toBase58 k.2.2) ∧
    d.approveTargets = approves.map (fun k => toBase58 k.2.1) ∧
    d.approveMultisigs = some (approves.map fun k => toBase58 k.1)
  first : ∃ first rest index, b.approves = first :: rest ∧
    [d.multisigPda, d.transactionPda] <+: first.keys.map toBase58 ∧
    readTransactionIndexArg first.data = .ok index ∧ d.transactionIndex = index.map toString

/-- **A bundle decoded to kind approve** comes from a transaction whose instructions its
lists account for. -/
theorem decode_eq_approve {serializedTxBase64 : String} {programId : Pubkey}
    {opts : DecodeVaultSolanaOptions} {d : DecodedApprove}
    (h : decodeVaultSolanaTransaction env web3 serializedTxBase64 programId opts = .approve d) :
    ∃ tx outer b, web3.transactionFrom (web3.base64 serializedTxBase64) = .ok tx ∧
      ParsedBundle.Parses b programId tx outer ∧ ApproveDecoding opts b d := by
  obtain ⟨b, hb, hdecode⟩ := bind_eq_ok.mp (DecodedVaultSolanaTx.ofResult_eq h nofun)
  obtain ⟨tx, outer, htx, hparses⟩ := parses_of_parseBundle hb
  simp only [decodeBundle, bind_eq_ok, require_eq_ok, collect_eq_ok, firstThree_eq_ok] at hdecode
  obtain ⟨unknown, hunknown, -, -, approves, happroves, hdecode⟩ := hdecode
  refine ⟨tx, outer, b, htx, hparses, ?_⟩
  split at hdecode
  · obtain ⟨d', -, he⟩ := map_eq_ok.mp hdecode
    cases he
  · rename_i first rest keys restKeys hcreates hfirst
    obtain ⟨d', hd', he⟩ := map_eq_ok.mp hdecode
    cases he
    simp only [decodeApprove, bind_eq_ok, pure_eq_ok] at hd'
    obtain ⟨index, hindex, rfl⟩ := hd'
    have hkeys := happroves
    rw [hfirst] at hkeys
    obtain ⟨hkey, -⟩ := List.forall₂_cons.mp hkeys
    refine ⟨hcreates, hunknown, ⟨_, happroves, rfl, rfl, rfl⟩,
      ⟨first, rest, index, hfirst, ?_, hindex, rfl⟩⟩
    exact ((List.prefix_append [keys.1, keys.2.1] [keys.2.2]).trans hkey).map toBase58
  · cases hdecode

/-- Comparing a bundle of this kind finds mismatches, or none; it never gives up. -/
theorem compareApprove_total (d : DecodedApprove) (expected : ExpectedSolanaVaultPayload) :
    (compareDecodedToExpected env (.approve d) expected).Total := by
  refine Total.bind (.bind total_check fun _ => ?_) fun _ => ?_
  · exact total_forSome (fun _ => total_check) _
  · refine .bind (total_each (fun _ => ?_) _) fun _ => ?_
    · exact total_check.bind fun _ => total_forSome (fun _ => total_check) _
    refine .bind (total_each (fun _ => total_check) _) fun _ => ?_
    refine .bind (total_forSome (fun _ => total_check) _) fun _ => ?_
    exact total_check.bind fun _ => total_check

/-- What an accepted bundle of this kind approves: one proposal of one multisig. Of its
executions nothing is said, as none of the checks looks at them. -/
theorem ApproveDecoding.targets {opts : DecodeVaultSolanaOptions} {b : ParsedBundle}
    {d : DecodedApprove} {expected : ExpectedSolanaVaultPayload} (hdecode : ApproveDecoding opts b d)
    (hcompare : (compareDecodedToExpected env (.approve d) expected).Clean ()) :
    d.unknownOuterPrograms = [] ∧ expected.approveOnlyVerifiedOnChain = true ∧
      ∀ a ∈ b.approves, [d.multisigPda, d.transactionPda] <+: a.keys.map toBase58 := by
  simp only [compareDecodedToExpected, compareOuter, compareApprove, clean_bind, clean_each,
    clean_check] at hcompare
  obtain ⟨-, ⟨-, hunknown, -⟩, -, htargets, -, hmultisigs, -, -, -, hverified, -⟩ := hcompare
  refine ⟨hunknown, hverified, fun a ha => ?_⟩
  obtain ⟨approves, hkeys, -, htargetsEq, hmultisigsEq⟩ := hdecode.approves
  obtain ⟨k, hk, hprefix⟩ := exists_right_of_forall₂ hkeys ha
  rw [htargetsEq] at htargets
  rw [hmultisigsEq] at hmultisigs
  obtain ⟨-, htarget, -⟩ := htargets _ (List.mem_map_of_mem hk)
  have hmultisig := hmultisigs _ (List.mem_map_of_mem hk)
  rw [← htarget, ← hmultisig]
  exact ((List.prefix_append [k.1, k.2.1] [k.2.2]).trans hprefix).map toBase58

end SolanaMultisig.Sdk
