import SolanaMultisig.KeyApprovals
import SolanaMultisig.OuterInstructions

/-!
# What a device displays

A device signs what one of the three gates accepts. The gates do not look at everything
a transaction does, but they do look at what their key approves: when the transaction
lands, this key approves one proposal, and the calls of this proposal are exactly what
was displayed (`Sdk.DeviceRequest.Accepted.shows`).
-/

namespace SolanaMultisig

open Wire Guard Report Sdk

variable {env : Env} {web3 : Web3}

/-! ## Requests -/

namespace Sdk

/-- What a device is asked to sign, with what it displays: one constructor for each of the
three functions of the SDK that gate a signature. -/
inductive DeviceRequest where
  /-- a send of a consumer wallet -/
  | consumer (serializedTxBase64 : String) (params : ConsumerSolanaBundleParams)
  /-- a bundle that creates a proposal -/
  | create (serializedTxBase64 : String) (opts : DecodeVaultSolanaOptions)
    (expected : ExpectedSolanaVaultPayload)
  /-- an approval of a proposal on chain -/
  | approve (params : ApproveOnlyParams)

/-- The transaction to sign. -/
def DeviceRequest.serializedTxBase64 : DeviceRequest → String
  | .consumer serializedTxBase64 _ => serializedTxBase64
  | .create serializedTxBase64 _ _ => serializedTxBase64
  | .approve params => params.serializedTxBase64

/-- The payees, the mint and the cap on refunds: what the person holding the device
compares. -/
def DeviceRequest.flows : DeviceRequest → FundFlowExpectation
  | .consumer _ params => params.flows
  | .create _ _ expected => expected.toFundFlowExpectation
  | .approve params => params.expected.toFundFlowExpectation

/-- The multisig, if the device knows it. A consumer wallet always does; the other two
compare it only where the expectation carries it. -/
def DeviceRequest.multisigPda : DeviceRequest → Option String
  | .consumer _ params => some params.multisigPda
  | .create _ _ expected => given expected.expectedMultisigPda
  | .approve params => params.expected.expectedMultisigPda.join

/-- The vault, if the device knows it; a consumer wallet derives it from the multisig and
the index. -/
def DeviceRequest.vaultPda (env : Env) : DeviceRequest → Option String
  | .consumer _ params => (publicKey params.multisigPda >>= fun multisig =>
      toBase58 <$> deriveVaultPda env multisig (params.vaultIndex.getD (.ofNat 0))
        params.programId).toOption
  | .create _ _ expected => given expected.expectedVaultPda
  | .approve params => given params.expected.expectedVaultPda

/-- Who is refunded: the fee payer of a bundle, or the one a proposal was decoded for. A
refund to anybody else is displayed as a payment. -/
def DeviceRequest.refundee (env : Env) (web3 : Web3) : DeviceRequest → Option String
  | .consumer serializedTxBase64 _ | .create serializedTxBase64 _ _ =>
      (web3.transactionFrom (web3.base64 serializedTxBase64)).toOption.bind fun tx =>
        tx.feePayer.map toBase58
  | .approve params =>
      match (verifyApproveOnlyTransaction env web3 params).proposal with
      | some (.proposal p) => some p.feePayer
      | _ => none

/-- May there be memos? -/
def DeviceRequest.allowMemo : DeviceRequest → Bool
  | .consumer _ _ => true
  | .create _ opts _ => opts.allowMemo == some true
  | .approve params => params.proposalOptions.allowMemo == some true

/-- The gate of the request accepts it; that of an approval reads the proposal in `s`.
Recipients are resolved for the mint displayed. -/
def DeviceRequest.Accepted (env : Env) (web3 : Web3) (s : State) : DeviceRequest → Prop
  | .consumer serializedTxBase64 params =>
      (verifyConsumerSolanaBundle env web3 serializedTxBase64 params).ok = true ∧
        params.programId = env.programId
  | .create serializedTxBase64 opts expected =>
      (∃ d, decodeVaultSolanaTransaction env web3 serializedTxBase64 env.programId opts =
        .create d ∧ (compareDecodedToExpected env (.create d) expected).ok = true) ∧
        ∀ m, opts.expectedMint = some m → expected.tokenMint = some m
  | .approve params =>
      (verifyApproveOnlyTransaction env web3 params).ok = true ∧
        params.programId = env.programId ∧ params.connection.Reads s ∧
        ∀ m, params.proposalOptions.expectedMint = some m → params.expected.tokenMint = some m

/-- The instructions are those of the transaction to sign: a signature covers the whole
message, so nothing can be added or left out. -/
def DeviceRequest.SubmittedAs (web3 : Web3) (r : DeviceRequest) (os : List OuterInstruction) :
    Prop :=
  ∃ tx, web3.transactionFrom (web3.base64 r.serializedTxBase64) = .ok tx ∧
    List.Forall₂ Instruction.SubmittedAs tx.instructions os

end Sdk

/-! ## One proposal -/

/-- The transaction approves the proposal at `address`, and no other, with however many
members. -/
structure ApprovesOnly (programId : Pubkey) (tx : Transaction) (address : Pubkey) : Prop where
  approves : ∃ ix ∈ tx.instructions, ix.Calls programId approveTransactionTag
  only : ∀ ix ∈ tx.instructions, ix.Calls programId approveTransactionTag →
    ix.keys[1]? = some address

/-- A transaction approves only one proposal in this sense. -/
theorem ApprovesOnly.unique {programId address address' : Pubkey} {tx : Transaction}
    (h : ApprovesOnly programId tx address) (h' : ApprovesOnly programId tx address') :
    address = address' := by
  obtain ⟨ix, hix, hcalls⟩ := h.approves
  exact Option.some.inj ((h.only ix hix hcalls).symm.trans (h'.only ix hix hcalls))

/-- If all approvals of a bundle name one proposal, this is what a key approves when it
lands. That executions inside the bundle approve nothing for the key is
`Lands.approved_by_key`. -/
theorem Sdk.ParsedBundle.Parses.approvesOnly {tx : Transaction} {outer : List ParsedOuter}
    {b : ParsedBundle} {os : List OuterInstruction} {s s' : State} {target address k : Pubkey}
    (h : b.Parses env.programId tx outer) (hforeign : b.foreign = [])
    (hnamed : ∀ a ∈ b.approves, ∃ multisig, [multisig, target] <+: a.keys)
    (hos : List.Forall₂ Instruction.SubmittedAs tx.instructions os)
    (hland : Lands env s os s') (hs : Refines env s) (hrules : RuntimeRules env)
    (hcf : DistinctAddresses env s'.history) (hk : ¬IsProgramAddress env k)
    (happroved : .approved address k ∈ s'.history) (hnew : .approved address k ∉ s.history) :
    address = target ∧ ApprovesOnly env.programId tx target := by
  obtain ⟨a, ha, multisig, hkeys⟩ :=
    (h.approved_by_key hforeign hos hland hs hrules hcf hk happroved).resolve_left hnew
  obtain ⟨multisig', hkeys'⟩ := hnamed a ha
  have heq := eq_of_prefixes ((List.prefix_append [multisig, address] [k]).trans hkeys) hkeys' rfl
  simp only [List.cons.injEq, and_true] at heq
  have hmem := h.mem_approves.mp ha
  obtain ⟨ix, hix, hof⟩ := exists_left_of_forall₂ h.kinds hmem
  refine ⟨heq.2, ⟨ix, hix, hof.1.program_eq, hof.2.1⟩, fun ix' hix' hcalls => ?_⟩
  obtain ⟨p, hp, htag, hpkeys⟩ :=
    h.exists_own hforeign (h.notMem hmem rfl) hix' hcalls.program_eq
  obtain ⟨a', rfl⟩ := ParsedOuter.eq_approve (hcalls.tag_eq ▸ htag)
  obtain ⟨multisig'', hkeys''⟩ := hnamed a' (h.mem_approves.mpr hp)
  rw [← Option.some.inj hpkeys]
  exact getElem?_of_isPrefix hkeys'' rfl

/-! ## What is displayed -/

/-- The proposal `t` at `address` is what the request displays: the transaction approves
it alone, and its calls are exactly the payments, refunds within the cap, and memos. -/
structure Sdk.DeviceRequest.Shows (env : Env) (web3 : Web3) (r : DeviceRequest) (address : Pubkey)
    (t : VaultTransaction) : Prop where
  approvesOnly : ∃ tx, web3.transactionFrom (web3.base64 r.serializedTxBase64) = .ok tx ∧
    ApprovesOnly env.programId tx address
  multisig_eq : ∀ m, r.multisigPda = some m → m = toBase58 t.multisig
  flows : ∃ vault maxFee,
    SolanaMultisig.deriveVaultPda env t.multisig t.vaultIndex = some (vault, t.vaultBump) ∧
    (∀ pda, r.vaultPda env = some pda → pda = toBase58 vault) ∧
    r.flows.maxFee = some maxFee ∧
    ExactFlows (PaysRecipient env vault r.flows.tokenMint) r.flows.recipients vault
      (r.refundee env web3) maxFee r.allowMemo t.message.calls

/-- Flows paid in a weaker sense: the gates ask for more or less of a payment, and what they
share is stated with the weakest. -/
theorem ExactFlows.imp {π : Type} {pays pays' : π → Instruction → Prop} {payees : List π}
    {vault : Pubkey} {feePayer : Option String} {maxFee : ℕ} {allowMemo : Bool}
    {calls : List Instruction} (h : ExactFlows pays payees vault feePayer maxFee allowMemo calls)
    (himp : ∀ p ix, pays p ix → pays' p ix) :
    ExactFlows pays' payees vault feePayer maxFee allowMemo calls := by
  obtain ⟨payments, refunds, memos, hperm, hpayments, hrest⟩ := h.split
  exact ⟨payments, refunds, memos, hperm, hpayments.imp himp, hrest⟩

/-- A payment of the consumer gate is one to the recipient. -/
theorem paysRecipient_of_consumer {vault : Pubkey} {tokenMint : Option String}
    {p : ExpectedRecipient} {ix : Instruction} (h : PaysConsumer env vault tokenMint p ix) :
    PaysRecipient env vault tokenMint p ix := by
  obtain ⟨amount, hamount, hpays⟩ := h
  refine ⟨amount, hamount, ?_⟩
  unfold PaysAddress
  cases hmint : given tokenMint with
  | none =>
    rw [hmint] at hpays
    exact hpays
  | some text =>
    rw [hmint] at hpays
    obtain ⟨mint, owner, dst, hmint', howner, htransfer, hata⟩ := hpays
    exact ⟨mint, dst, hmint', htransfer, .inr ⟨owner, howner, hata⟩⟩

/-! ## The gates -/

section Gates

variable {os : List OuterInstruction} {s s' : State} {address k : Pubkey}

/-- The gate of consumer wallets: what lands is the payout that was compared. -/
theorem shows_of_consumer {serializedTxBase64 : String} {params : ConsumerSolanaBundleParams}
    (hok : (verifyConsumerSolanaBundle env web3 serializedTxBase64 params).ok = true)
    (hprogram : params.programId = env.programId)
    (hos : (DeviceRequest.consumer serializedTxBase64 params).SubmittedAs web3 os)
    (hs : Refines env s) (hland : Lands env s os s') (hrules : RuntimeRules env)
    (hcf : DistinctAddresses env s'.history) (hk : ¬IsProgramAddress env k)
    (happroved : .approved address k ∈ s'.history) (hnew : .approved address k ∉ s.history) :
    ∃ t, recordAt s'.history address = some t ∧
      (DeviceRequest.consumer serializedTxBase64 params).Shows env web3 address t := by
  obtain ⟨tx, outer, b, c, keys, htx, hparses, hc⟩ := accepts_of_ok hok
  obtain ⟨tx', htx', hos⟩ := hos
  obtain rfl := Except.ok.inj (htx.symm.trans htx')
  have hnamed : ∀ a ∈ b.approves, ∃ multisig, [multisig, keys.transaction] <+: a.keys :=
    fun a ha => ⟨keys.multisig, hc.named hparses (hparses.mem_approves.mp ha) rfl⟩
  rw [hprogram] at hparses
  obtain ⟨rfl, honly⟩ := hparses.approvesOnly hc.foreign_eq hnamed hos hland hs hrules hcf hk
    happroved hnew
  obtain ⟨t, -, hrecord, hmultisig, hvalid, hmessage⟩ := hc.creates hparses hos hs hland hcf
  obtain ⟨maxFee, hmax, hflows⟩ := hc.exactFlows hmessage
  refine ⟨t, hrecord, ⟨tx, htx, honly⟩, fun m hm => ?_,
    keys.vault, maxFee, hvalid.1, fun pda hpda => ?_, hmax, ?_⟩
  · rw [← Option.some.inj hm, hmultisig]
    exact hc.multisig_eq
  · have hkey : publicKey params.multisigPda = .ok keys.multisig :=
      publicKey_eq_ok.mpr hc.multisig_eq
    have hderived : (DeviceRequest.consumer serializedTxBase64 params).vaultPda env =
        some (toBase58 keys.vault) := by
      simp [DeviceRequest.vaultPda, hkey, hc.vault_eq, Bind.bind, Except.bind, Except.toOption]
    exact Option.some.inj (hpda.symm.trans hderived)
  · have hrefundee : (DeviceRequest.consumer serializedTxBase64 params).refundee env web3 =
        b.feePayer := by
      simp [DeviceRequest.refundee, htx, hparses.feePayer_eq, Except.toOption]
    rw [hrefundee]
    exact hflows.imp fun _ _ => paysRecipient_of_consumer

/-- The gate of a bundle that creates a proposal: what is approved is what is created,
because the decoder refuses approvals of anything else. -/
theorem Sdk.CreateDecoding.approves {serializedTxBase64 : String} {programId : Pubkey}
    {opts : DecodeVaultSolanaOptions} {d : DecodedCreate} {expected : ExpectedSolanaVaultPayload}
    (hdecode : decodeVaultSolanaTransaction env web3 serializedTxBase64 programId opts = .create d)
    (hok : (compareDecodedToExpected env (.create d) expected).ok = true) :
    ∃ tx outer b c multisig transaction,
      web3.transactionFrom (web3.base64 serializedTxBase64) = .ok tx ∧
      ParsedBundle.Parses b programId tx outer ∧ CreateDecoding env opts b c d ∧
      [multisig, transaction] <+: c.keys ∧ d.multisigPda = toBase58 multisig ∧
      ∀ a ∈ b.approves, ∃ m, [m, transaction] <+: a.keys := by
  obtain ⟨b, c, unknown, approves, hb, hunknown, hone, happroves, hd⟩ := decode_create hdecode
  obtain ⟨tx, outer, htx, hparses⟩ := parses_of_parseBundle hb
  have hdecoding := decodeCreate_eq_ok hone hunknown hd
  obtain ⟨_, hclean⟩ := ok_iff.mp hok
  simp only [compareDecodedToExpected, compareCreate, clean_bind, clean_each, clean_check] at hclean
  obtain ⟨-, -, -, -, -, -, -, happroved, -⟩ := hclean
  simp only [decodeCreate, bind_eq_ok, pure_eq_ok, firstThree_eq_ok] at hd
  obtain ⟨keys, hkeys, sender, -, classified, -, recipients, -, rfl⟩ := hd
  refine ⟨tx, outer, b, c, keys.1, keys.2.1, htx, hparses, hdecoding,
    (List.prefix_append [keys.1, keys.2.1] [keys.2.2]).trans hkeys, rfl, fun a ha => ?_⟩
  obtain ⟨q, hq, hprefix⟩ := exists_right_of_forall₂ happroves ha
  have htarget := toBase58_injective (happroved _ (List.mem_map_of_mem hq))
  exact ⟨q.1, htarget ▸ (List.prefix_append [q.1, q.2.1] [q.2.2]).trans hprefix⟩

/-- So the gate of a created proposal shows what its key approves. -/
theorem shows_of_create {serializedTxBase64 : String} {opts : DecodeVaultSolanaOptions}
    {d : DecodedCreate} {expected : ExpectedSolanaVaultPayload}
    (hdecode : decodeVaultSolanaTransaction env web3 serializedTxBase64 env.programId opts =
      .create d)
    (hok : (compareDecodedToExpected env (.create d) expected).ok = true)
    (hmint : ∀ m, opts.expectedMint = some m → expected.tokenMint = some m)
    (hos : (DeviceRequest.create serializedTxBase64 opts expected).SubmittedAs web3 os)
    (hs : Refines env s) (hland : Lands env s os s') (hrules : RuntimeRules env)
    (hcf : DistinctAddresses env s'.history) (hk : ¬IsProgramAddress env k)
    (happroved : .approved address k ∈ s'.history) (hnew : .approved address k ∉ s.history) :
    ∃ t, recordAt s'.history address = some t ∧
      (DeviceRequest.create serializedTxBase64 opts expected).Shows env web3 address t := by
  obtain ⟨tx, outer, b, c, multisig, transaction, htx, hparses, hdecoding, hkeys, hmultisigPda,
    hnamed⟩ := CreateDecoding.approves hdecode hok
  obtain ⟨tx', htx', hos⟩ := hos
  obtain rfl := Except.ok.inj (htx.symm.trans htx')
  have hforeign := (hdecoding.foreign_eq hok).1
  obtain ⟨rfl, honly⟩ := hparses.approvesOnly hforeign hnamed hos hland hs hrules hcf hk happroved
    hnew
  obtain ⟨t, vault, -, hrecord, rfl, hvalid, hmessage⟩ :=
    hparses.creates hdecoding.creates_eq hforeign hkeys hos hs hland hcf
  obtain ⟨maxFee, hmax, hflows⟩ :=
    hdecoding.exactFlows hok hmint hmessage hvalid.2.vault_first
  obtain ⟨_, hclean⟩ := ok_iff.mp hok
  simp only [compareDecodedToExpected, compareOuter, compareCreate, clean_bind, clean_forSome,
    clean_check] at hclean
  obtain ⟨-, ⟨-, -, hmultisig⟩, -, -, -, hvault, -⟩ := hclean
  refine ⟨t, hrecord, ⟨tx, htx, honly⟩, fun m hm => ?_,
    vault, maxFee, hvalid.1, fun pda hpda => ?_, hmax, ?_⟩
  · exact (hmultisig m hm).symm.trans hmultisigPda
  · -- the sender is the first account of the message
    have hsender := hdecoding.sender_eq
    rw [hmessage, List.head?_eq_getElem?] at hsender
    rw [show (InnerMessage.of t.vaultIndex t.message).accountKeys[0]? = some vault from
      hvalid.2.vault_first, Option.map_some] at hsender
    exact (hvault pda hpda).symm.trans (Option.some.inj hsender).symm
  · have hrefundee : (DeviceRequest.create serializedTxBase64 opts expected).refundee env web3 =
        b.feePayer := by
      simp [DeviceRequest.refundee, htx, hparses.feePayer_eq, Except.toOption]
    rw [hrefundee]
    exact hflows

/-- The gate of approvals: the proposal was read before, and is still the same, since a
proposal is only ever extended. -/
theorem shows_of_approve {params : ApproveOnlyParams} {s₀ : State}
    (hok : (verifyApproveOnlyTransaction env web3 params).ok = true)
    (hprogram : params.programId = env.programId) (hreads : params.connection.Reads s₀)
    (hmint : ∀ m, params.proposalOptions.expectedMint = some m → params.expected.tokenMint = some m)
    (hs₀ : Refines env s₀) (hrun : Reaches env s₀ s)
    (hos : (DeviceRequest.approve params).SubmittedAs web3 os)
    (hs : Refines env s) (hland : Lands env s os s') (hrules : RuntimeRules env)
    (hcf : DistinctAddresses env s'.history) (hk : ¬IsProgramAddress env k)
    (happroved : .approved address k ∈ s'.history) (hnew : .approved address k ∉ s.history) :
    ∃ t, recordAt s'.history address = some t ∧
      (DeviceRequest.approve params).Shows env web3 address t := by
  obtain ⟨tx, outer, b, pda, t, p, htx, hparses, hproposal, hacc⟩ := approves_of_ok hok
  obtain ⟨tx', htx', hos⟩ := hos
  obtain rfl := Except.ok.inj (htx.symm.trans htx')
  rw [hprogram] at hparses
  obtain ⟨rfl, honly⟩ := hparses.approvesOnly hacc.foreign_eq
    (fun a ha => ⟨t.multisig, hacc.named a ha⟩) hos hland hs hrules hcf hk happroved hnew
  have hverified := verified_stays hacc hprogram hmint hs₀ hreads
  obtain ⟨r, hr, hsame⟩ := hverified.record
  obtain ⟨vault, maxFee, hvault, hmax, hflows⟩ := hverified.flows
  have hl' := (hs.reaches hland.reaches hcf).legal
  have hr' := hl'.recordAt_of_suffix (hrun.history_suffix.trans hland.reaches.history_suffix) hr
  obtain ⟨_, _, -, -, -, ⟨vault', hvalid⟩, -⟩ := hl'.created_split hr'
  have hvault' : deriveVaultPda env r.multisig r.vaultIndex = some (vault, r.vaultBump) := by
    rw [hsame] at hvault
    exact hvault
  obtain rfl : vault' = vault := congrArg Prod.fst (Option.some.inj (hvalid.1.symm.trans hvault'))
  refine ⟨r, hr', ⟨tx, htx, honly⟩, fun m hm => ?_,
    vault', maxFee, hvault', fun q hq => ?_, hmax, ?_⟩
  · have hjoin : params.expected.expectedMultisigPda = some (some m) :=
      Option.join_eq_some_iff.mp hm
    obtain ⟨expected, hexpected, hall⟩ := hacc.multisig
    rw [← hsame.multisig_eq]
    exact hall m (Option.some.inj (hexpected.symm.trans hjoin))
  · -- the sender is the first account of the message
    obtain ⟨_, hcompare⟩ := hacc.compare
    simp only [compareProposalToExpected, clean_bind, clean_check, clean_forSome] at hcompare
    obtain ⟨-, -, -, -, -, hsender, -, -, -, hpda, -⟩ := hcompare
    have hhead := hacc.report.sender_eq
    rw [hsame.message_eq, List.head?_eq_getElem?, hvalid.2.vault_first, Option.map_some] at hhead
    exact (hpda q hq).symm.trans (hsender.symm.trans (Option.some.inj hhead).symm)
  · have hrefundee : (DeviceRequest.approve params).refundee env web3 = some p.feePayer := by
      simp [DeviceRequest.refundee, hproposal]
    rw [hrefundee, ← hsame.message_eq]
    exact hflows

/-- **What a device signed shows what its key approves.** Whatever happened since the
gate accepted the request: where its transaction lands, what the key newly approves by it
is the one proposal that was displayed. -/
theorem Sdk.DeviceRequest.Accepted.shows {r : DeviceRequest} {s₀ : State}
    (h : r.Accepted env web3 s₀) (hs₀ : Refines env s₀) (hrun : Reaches env s₀ s)
    (hos : r.SubmittedAs web3 os) (hs : Refines env s) (hland : Lands env s os s')
    (hrules : RuntimeRules env) (hcf : DistinctAddresses env s'.history)
    (hk : ¬IsProgramAddress env k) (happroved : .approved address k ∈ s'.history)
    (hnew : .approved address k ∉ s.history) :
    ∃ t, recordAt s'.history address = some t ∧ r.Shows env web3 address t := by
  cases r with
  | consumer serializedTxBase64 params =>
    exact shows_of_consumer h.1 h.2 hos hs hland hrules hcf hk happroved hnew
  | create serializedTxBase64 opts expected =>
    obtain ⟨⟨d, hdecode, hok⟩, hmint⟩ := h
    exact shows_of_create hdecode hok hmint hos hs hland hrules hcf hk happroved hnew
  | approve params =>
    obtain ⟨hok, hprogram, hreads, hmint⟩ := h
    exact shows_of_approve hok hprogram hreads hmint hs₀ hrun hos hs hland hrules hcf hk happroved
      hnew

end Gates

end SolanaMultisig
