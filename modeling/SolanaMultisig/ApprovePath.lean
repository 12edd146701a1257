import SolanaMultisig.BundleRun
import SolanaMultisig.Sdk.Legacy
import SolanaMultisig.Sdk.Proposal

/-!
# What signing an approval lets happen

The device reads a proposal in one state and its approval lands in another. What it
read is still there, whatever happened in between (`verified_stays`), and that is
what the approval is recorded on, provided the bundle executes no other proposal
(`approve_only_runs_exactly`): the gate does not look at its executions, and one of
another proposal can record approvals anywhere (`approval_elsewhere`).
-/

namespace SolanaMultisig

open Wire Guard Sdk

variable {env : Env} {web3 : Web3}

/-- The connection returns the accounts of the state: it may fail, or not know an account,
but what it returns is true. -/
def Sdk.SolanaConnection.Reads (connection : SolanaConnection) (s : State) : Prop :=
  ∀ k commitment info, connection.getAccountInfo k commitment = .ok (some info) →
    info.owner = (s.ledger k).owner ∧ info.data = (s.ledger k).data

/-- What the device verified of the proposal at `address`, found in the state `s` as
`t`, holds whenever it is looked at again. -/
structure Verified (env : Env) (params : ApproveOnlyParams) (s : State) (address : Pubkey)
    (t : VaultTransaction) (p : DecodedProposal) : Prop where
  transaction_eq : p.transactionPda = toBase58 address
  /-- it was read in `s` -/
  holds : transactionAccount.Holds env s.ledger address t
  /-- as the proposal created there -/
  record : ∃ r, recordAt s.history address = some r ∧ t.SameProposal r
  /-- it is still the same, while it is there -/
  message_eq : ∀ s' t', Reaches env s s' → DistinctAddresses env s'.history →
    transactionAccount.Holds env s'.ledger address t' →
      t'.message = t.message ∧ t'.multisig = t.multisig
  /-- it belongs to the multisig expected -/
  multisig_eq : ∀ m, params.expected.expectedMultisigPda = some (some m) →
    m = toBase58 t.multisig
  /-- its calls are those of its message -/
  runs : ∀ s', Reaches env s s' → DistinctAddresses env s'.history →
    Runs s'.history address t.message.calls
  /-- which moves the funds displayed -/
  flows : ∃ vault maxFee, deriveVaultPda env t.multisig t.vaultIndex = some (vault, t.vaultBump) ∧
    params.expected.maxFee = some maxFee ∧
    ExactFlows (PaysRecipient env vault params.expected.tokenMint) params.expected.recipients vault
      (some p.feePayer) maxFee (params.proposalOptions.allowMemo == some true) t.message.calls

/-- **What was verified stays.** The gate compared the message stored in `s`; a proposal
keeps its message and its multisig while it lives, and its address is never used for another
one. -/
theorem verified_stays {params : ApproveOnlyParams} {b : ParsedBundle} {address : Pubkey}
    {t : VaultTransaction} {p : DecodedProposal} {s : State}
    (hacc : ApproveAccepts env params b address t p) (hprogram : params.programId = env.programId)
    (hmint : ∀ m, params.proposalOptions.expectedMint = some m → params.expected.tokenMint = some m)
    (hs : Refines env s) (hreads : params.connection.Reads s) :
    Verified env params s address t p := by
  obtain ⟨info, commitment, hinfo, howner, hfits, spare, hdata⟩ := hacc.read
  obtain ⟨howner', hdata'⟩ := hreads address commitment info hinfo
  have hholds : transactionAccount.Holds env s.ledger address t :=
    ⟨howner'.symm.trans (howner.trans hprogram), hfits, spare, hdata'.symm.trans hdata⟩
  obtain ⟨r, hr, hsame⟩ := recordAt_of_proposalAt ((hs.accounts.proposals address t).mp hholds)
  obtain ⟨_, _, -, -, -, ⟨vault, hvalid⟩, -⟩ := LegalLog.created_split hs.legal hr
  -- no other proposal is ever created there
  have hrecord : ∀ s', Reaches env s s' → DistinctAddresses env s'.history →
      Refines env s' ∧ recordAt s'.history address = some r := by
    intro s' hrun hcf
    have hs' := hs.reaches hrun hcf
    exact ⟨hs', hs'.legal.recordAt_of_suffix hrun.history_suffix hr⟩
  have hvalid' := hsame.validFor hvalid
  obtain ⟨transactionPda, hcompare⟩ := hacc.compare
  obtain ⟨maxFee, hmax, hflows⟩ :=
    hacc.report.exactFlows hcompare hmint hvalid'.2.vault_first
  refine
    { transaction_eq := hacc.report.transaction_eq
      holds := hholds
      record := ⟨r, hr, hsame⟩
      message_eq := fun s' t' hrun hcf ht' => ?_
      multisig_eq := fun m hm => ?_
      runs := fun s' hrun hcf => ?_
      flows := ⟨vault, maxFee, hvalid'.1, hmax, hflows⟩ }
  · obtain ⟨hs', hr'⟩ := hrecord s' hrun hcf
    obtain ⟨r', hr'', hsame'⟩ := recordAt_of_proposalAt ((hs'.accounts.proposals address t').mp ht')
    rw [hr'] at hr''
    obtain rfl := Option.some.inj hr''
    rw [hsame.message_eq, hsame.multisig_eq]
    exact ⟨hsame'.message_eq, hsame'.multisig_eq⟩
  · obtain ⟨expected, hexpected, hall⟩ := hacc.multisig
    rw [hexpected] at hm
    exact hall m (Option.some.inj hm)
  · obtain ⟨hs', hr'⟩ := hrecord s' hrun hcf
    rw [hsame.message_eq]
    exact LegalLog.runs hs'.legal hr'

/-- The bundle executes no other proposal than it approves. It can be checked on the bundle,
by the second account of each instruction. -/
def ExecutesApproved (programId : Pubkey) (tx : Transaction) : Prop :=
  ∀ e ∈ tx.instructions, e.programId = programId → e.data.take 8 = executeTransactionTag →
    ∀ a ∈ tx.instructions, a.programId = programId → a.data.take 8 = approveTransactionTag →
      ∀ k ∈ e.keys[1]?, a.keys[1]? = some k

instance (programId : Pubkey) (tx : Transaction) : Decidable (ExecutesApproved programId tx) :=
  inferInstanceAs (Decidable (∀ e ∈ tx.instructions, e.programId = programId →
    e.data.take 8 = executeTransactionTag → ∀ a ∈ tx.instructions, a.programId = programId →
      a.data.take 8 = approveTransactionTag → ∀ k ∈ e.keys[1]?, a.keys[1]? = some k))

/-- A payment is a call of the System or a token program, and so never of this program. -/
theorem paysRecipient_program {vault : Pubkey} {tokenMint : Option String} {exp : ExpectedRecipient}
    {ix : Instruction} (h : PaysRecipient env vault tokenMint exp ix) :
    ix.programId ∈ [systemProgramId, tokenProgramId, token2022ProgramId] := by
  obtain ⟨amount, -, hpays⟩ := h
  unfold PaysAddress at hpays
  split at hpays
  · obtain ⟨dst, -, htransfer⟩ := hpays
    simp [htransfer.program_eq]
  · obtain ⟨mint, dst, -, htransfer, -⟩ := hpays
    rcases htransfer.program_eq with h | h <;> simp [h]

/-- Every approval recorded from `s₁` to `s₂` is on the proposal that was verified in `s`,
under the address the gate returned. -/
def ApprovesVerified (env : Env) (web3 : Web3) (params : ApproveOnlyParams) (s s₁ s₂ : State) :
    Prop :=
  ∃ address t p new,
    (verifyApproveOnlyTransaction env web3 params).proposal = some (.proposal p) ∧
    Verified env params s address t p ∧ s₂.history = new ++ s₁.history ∧
    ∀ k member, .approved k member ∈ new → k = address

/-- **An accepted approval is recorded on the proposal displayed.** The proposal was
read in a reachable state; the bundle lands in any state reached from it, and
executes no other proposal than it approves. Then every approval it records is on
the proposal that was verified, which is still the same and whose execution moves
the funds displayed. -/
theorem approve_only_runs_exactly {params : ApproveOnlyParams} {tx : Transaction}
    {os : List OuterInstruction} {s s₁ s₂ : State}
    (hok : (verifyApproveOnlyTransaction env web3 params).ok = true)
    (hprogram : params.programId = env.programId)
    (hmint : ∀ m, params.proposalOptions.expectedMint = some m → params.expected.tokenMint = some m)
    (htx : web3.transactionFrom (web3.base64 params.serializedTxBase64) = .ok tx)
    (hexecutes : ExecutesApproved params.programId tx)
    (hos : List.Forall₂ Instruction.SubmittedAs tx.instructions os)
    (hs : Reachable env s) (hreads : params.connection.Reads s) (hrun : Reaches env s s₁)
    (hland : Lands env s₁ os s₂) (hrules : RuntimeRules env)
    (hcf : DistinctAddresses env s₂.history) :
    ApprovesVerified env web3 params s s₁ s₂ := by
  obtain ⟨tx', outer, b, address, t, p, htx', hparses, hproposal, hacc⟩ := approves_of_ok hok
  rw [htx] at htx'
  obtain rfl := Except.ok.inj htx'
  rw [hprogram] at hparses hexecutes
  have hcf₁ := hcf.of_suffix hland.reaches.history_suffix
  have hs₀ := refines_of_reachable hs (hcf₁.of_suffix hrun.history_suffix)
  have hs₁ := hs₀.reaches hrun hcf₁
  have hs₂ := hs₁.reaches hland.reaches hcf
  have hverified := verified_stays hacc hprogram hmint hs₀ hreads
  obtain ⟨r₀, hr₀, hsame⟩ := hverified.record
  obtain ⟨vault, maxFee, -, -, hflows⟩ := hverified.flows
  have hothers := hflows.callsOthers hrules fun _ _ => paysRecipient_program
  obtain ⟨segments, hadds, hhistory⟩ := hparses.lands hacc.foreign_eq hos hland hs₁ hrules hcf (by
    -- what the bundle executes is what it approves
    intro e he k r hk hr
    obtain ⟨a, ha⟩ := List.exists_mem_of_ne_nil _ hacc.approves_ne
    obtain ⟨ix, hix, hown, htag, hekeys⟩ :=
      exists_left_of_forall₂ hparses.kinds (hparses.mem_executes.mp he)
    obtain ⟨ix', hix', hown', htag', hakeys, -⟩ :=
      exists_left_of_forall₂ hparses.kinds (hparses.mem_approves.mp ha)
    have hk' := hexecutes ix hix hown.program_eq htag ix' hix' hown'.program_eq htag' k
      (hekeys ▸ hk)
    rw [← hakeys, getElem?_of_isPrefix (hacc.named a ha) (i := 1) rfl] at hk'
    obtain rfl := Option.some.inj hk'
    have hsuffix := hrun.history_suffix.trans hland.reaches.history_suffix
    rw [hs₂.legal.recordAt_of_suffix hsuffix hr₀] at hr
    obtain rfl := Option.some.inj hr
    rw [← hsame.message_eq]
    exact hothers)
  refine ⟨address, t, p, segments.reverse.flatten, hproposal, hverified, hhistory, ?_⟩
  intro k member hmem
  have happroved : (k, member) ∈ segments.flatten.filterMap Event.approval? :=
    (segments.reverse_perm.flatten.filterMap _).mem_iff.mp (mem_approvals.mpr hmem)
  obtain ⟨a, ha, multisig, hkeys⟩ :=
    exists_left_of_forall₂ (hparses.approves_eq ▸ approvals_of_adds hadds) happroved
  have heq := eq_of_prefixes ((List.prefix_append [multisig, k] [member]).trans hkeys)
    (hacc.named a ha) rfl
  simp only [List.cons.injEq, and_true] at heq
  exact heq.2

/-! ## Approvals on the example cluster -/

namespace Example

/-- A connection to a node that has seen `s`. -/
def connection (s : State) : SolanaConnection where
  getAccountInfo k _ := .ok <|
    if (s.ledger k).lamports = 0 then none else some ⟨(s.ledger k).owner, (s.ledger k).data⟩

theorem connection_reads (s : State) : (connection s).Reads s := by
  intro k commitment info h
  have hinfo := Except.ok.inj h
  split at hinfo
  · cases hinfo
  · cases hinfo
    exact ⟨rfl, rfl⟩

/-- The keys of the bundles. -/
def approveKeys : List Pubkey :=
  [paymaster, alice, jointSecond, transaction, jointFirst, vault, jointVault, carol, joint, multisig,
    systemProgramId, programId]

/-- The transaction that consists of these commands. -/
def approveBundle (commands : List Command) : LegacyMessage where
  numRequiredSignatures := 2
  numReadonlySigned := 1
  numReadonlyUnsigned := 4
  accountKeys := approveKeys
  recentBlockhash := key 8
  instructions := (commands.filterMap (Command.outer? cluster)).map (compileOuter approveKeys)

/-- What the device of `alice` displays, and the node it asks. -/
def approveParams (s : State) (commands : List Command) : ApproveOnlyParams where
  connection := connection s
  serializedTxBase64 := (approveBundle commands).base64
  programId := programId
  expected :=
    { recipients := [⟨toBase58 carol, "700"⟩]
      tokenMint := none
      tokenDecimals := none
      maxFeeLamports := none
      expectedFeePayer := none
      expectedTransactionPda := some (toBase58 jointSecond)
      expectedVaultIndex := none
      expectedVaultPda := none
      expectedMultisigPda := some (some (toBase58 joint)) }
  expectedApprover := some (toBase58 alice)
  decodeOptions := ⟨none, none, none, none⟩
  proposalOptions := ⟨none, none, none, none, none⟩

/-- What the bundle decodes to. -/
def decodedBundle (commands : List Command) : DecodedVaultSolanaTx :=
  .ofResult (parseTransaction programId (approveBundle commands).transaction >>= fun b =>
    decodeBundle cluster b ⟨none, none, none, none⟩)

theorem verify_eq (s : State) (commands : List Command) :
    verifyApproveOnlyTransaction cluster (approveBundle commands).web3 (approveParams s commands) =
      verifyDecoded cluster (approveParams s commands) (decodedBundle commands) := by
  rw [verifyApproveOnlyTransaction, approveParams, LegacyMessage.decode_eq]
  rfl

/-- The bundle is accepted and everything has returned, before and after. -/
def accepted (commands : List Command) (s s' : State) : Bool :=
  s.frames.isEmpty && s'.frames.isEmpty && decide (DistinctAddresses cluster s'.history) &&
    (verifyDecoded cluster (approveParams s commands) (decodedBundle commands)).ok

/-- The outer instructions of some commands. -/
abbrev outers (commands : List Command) : List OuterInstruction :=
  commands.filterMap (Command.outer? cluster)

/-- A bundle that is accepted after the preparation, and lands: the run is computed, and the
gate is evaluated on its state. -/
theorem exists_accepted (commands : List Command) (also : State → State → Bool)
    (hrun : ((drive cluster bank genesis preparation).bind fun s =>
      (drive cluster bank s commands).map fun s' => accepted commands s s' && also s s') =
        some true)
    (hprepare : ∀ c ∈ preparation, c.KeysOnly cluster)
    (hkeys : ∀ c ∈ commands, c.KeysOnly cluster) :
    ∃ s s', Reachable cluster s ∧ Lands cluster s (outers commands) s' ∧
      DistinctAddresses cluster s'.history ∧
      (verifyApproveOnlyTransaction cluster (approveBundle commands).web3
        (approveParams s commands)).ok = true ∧ also s s' = true := by
  obtain ⟨s, hs, hrest⟩ := Option.bind_eq_some_iff.mp hrun
  obtain ⟨s', hs', hchecked⟩ := Option.map_eq_some_iff.mp hrest
  simp only [accepted, Bool.and_eq_true, List.isEmpty_iff, decide_eq_true_eq] at hchecked
  obtain ⟨⟨⟨⟨hempty, hend⟩, hdistinct⟩, hok⟩, halso⟩ := hchecked
  obtain ⟨s₁, hinner, -, hland⟩ := lands_of_drive hkeys hs' hend
  obtain rfl := eq_of_inner_run hempty hinner
  refine ⟨s₁, s', reachable_of_reaches genesis_genesis (drive_reaches hprepare hs), hland,
    hdistinct, ?_, halso⟩
  rw [verify_eq]
  exact hok

/-- The bundle stands for the commands. -/
theorem approveBundle_submittedAs {commands : List Command}
    (hkeys : ∀ o ∈ outers commands, o.program ∈ approveKeys ∧
      ∀ info ∈ o.infos, info.key ∈ approveKeys) :
    List.Forall₂ Instruction.SubmittedAs (approveBundle commands).transaction.instructions
      (outers commands) :=
  LegacyMessage.submittedAs rfl (by simp [approveBundle, approveKeys]) hkeys

theorem exists_honest : ∃ s s', Reachable cluster s ∧ Lands cluster s (outers honest) s' ∧
    DistinctAddresses cluster s'.history ∧
    (verifyApproveOnlyTransaction cluster (approveBundle honest).web3 (approveParams s honest)).ok =
      true := by
  obtain ⟨s, s', hs, hland, hdistinct, hok, -⟩ := exists_accepted honest
    (fun _ _ => true) (by decide +kernel) preparation_keysOnly (by
      simp only [honest, List.forall_mem_cons, List.not_mem_nil, IsEmpty.forall_iff, implies_true,
        and_true]
      exact ⟨keysOnly (by decide), keysOnly (by decide), trivial, trivial, trivial⟩)
  exact ⟨s, s', hs, hland, hdistinct, hok⟩

theorem honest_executesApproved :
    ExecutesApproved programId (approveBundle honest).transaction := by
  decide +kernel

/-- Approvals of both proposals were recorded in between: of the one displayed, and of one
that an execution in the bundle approved. -/
def approvesBoth (s s' : State) : Bool :=
  decide (.approved jointSecond alice ∈ s'.history ∧ .approved jointSecond alice ∉ s.history ∧
    .approved jointFirst vault ∈ s'.history ∧ .approved jointFirst vault ∉ s.history)

theorem exists_stray : ∃ s s', Reachable cluster s ∧ Lands cluster s (outers stray) s' ∧
    DistinctAddresses cluster s'.history ∧
    (verifyApproveOnlyTransaction cluster (approveBundle stray).web3 (approveParams s stray)).ok =
      true ∧ approvesBoth s s' = true :=
  exists_accepted stray approvesBoth (by decide +kernel) preparation_keysOnly (by
    simp only [stray, List.forall_mem_cons, List.not_mem_nil, IsEmpty.forall_iff, implies_true,
      and_true]
    exact ⟨keysOnly (by decide), keysOnly (by decide), trivial, trivial⟩)

end Example

/-- Approving and executing a proposal of the example cluster. -/
theorem approve_only_runs_exactly_example :
    ∃ s s', Reachable Example.cluster s ∧
      ApprovesVerified Example.cluster (Example.approveBundle Example.honest).web3
        (Example.approveParams s Example.honest) s s s' := by
  obtain ⟨s, s', hs, hland, hdistinct, hok⟩ := Example.exists_honest
  exact ⟨s, s', hs, approve_only_runs_exactly hok rfl nofun
    (Example.approveBundle Example.honest).transactionFrom_base64 Example.honest_executesApproved
    (Example.approveBundle_submittedAs (by decide +kernel)) hs (Example.connection_reads s) .refl
    hland Example.runtimeRules hdistinct⟩

/-- A bundle is accepted and lands at once, and records an approval of a proposal
nobody looked at. -/
theorem approval_elsewhere :
    ∃ s s', Reachable Example.cluster s ∧
      (verifyApproveOnlyTransaction Example.cluster (Example.approveBundle Example.stray).web3
        (Example.approveParams s Example.stray)).ok = true ∧
      (Example.approveParams s Example.stray).connection.Reads s ∧
      List.Forall₂ Instruction.SubmittedAs
        (Example.approveBundle Example.stray).transaction.instructions
        (Example.outers Example.stray) ∧
      Lands Example.cluster s (Example.outers Example.stray) s' ∧
      DistinctAddresses Example.cluster s'.history ∧
      ¬ApprovesVerified Example.cluster (Example.approveBundle Example.stray).web3
        (Example.approveParams s Example.stray) s s s' := by
  obtain ⟨s, s', hs, hland, hdistinct, hok, hboth⟩ := Example.exists_stray
  refine ⟨s, s', hs, hok, Example.connection_reads s,
    Example.approveBundle_submittedAs (by decide +kernel), hland, hdistinct, ?_⟩
  rintro ⟨address, t, p, new, -, -, hhistory, honly⟩
  obtain ⟨hin₁, hout₁, hin₂, hout₂⟩ := of_decide_eq_true hboth
  rw [hhistory] at hin₁ hin₂
  have h₁ := honly _ _ ((List.mem_append.mp hin₁).resolve_right hout₁)
  have h₂ := honly _ _ ((List.mem_append.mp hin₂).resolve_right hout₂)
  exact absurd (h₁.trans h₂.symm) (by decide)

end SolanaMultisig
