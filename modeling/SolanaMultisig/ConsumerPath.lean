import SolanaMultisig.BundleRun
import SolanaMultisig.CreatePath
import SolanaMultisig.Sdk.Consumer

/-!
# What signing a consumer bundle lets happen

A bundle the consumer gate accepts, landing in any reachable state, creates one
proposal, touches no other, and whenever that proposal is executed it pays the
recipient displayed and nobody else (`consumer_runs_exactly`). Who pays for the
transaction is another matter: no member pays its fees or for a token account, but
the gate does not look at who pays for the proposal (`noMemberPays_iff`).
-/

namespace SolanaMultisig

open Wire Guard EventLog Sdk

variable {env : Env} {web3 : Web3}

/-! ## Who pays -/

/-- The rent of created proposals is paid by others: `payer` is the fourth account of a
`create_transaction`, and no member's key stands there. -/
def RentByOthers (programId : Pubkey) (members : List String) (tx : Transaction) : Prop :=
  ∀ ix ∈ tx.instructions, ix.programId = programId → ix.data.take 8 = createTransactionTag →
    ∀ k ∈ ix.keys[3]?, toBase58 k ∉ members

instance (programId : Pubkey) (members : List String) (tx : Transaction) :
    Decidable (RentByOthers programId members tx) :=
  inferInstanceAs (Decidable (∀ ix ∈ tx.instructions, ix.programId = programId →
    ix.data.take 8 = createTransactionTag → ∀ k ∈ ix.keys[3]?, toBase58 k ∉ members))

/-- No member pays lamports by an outer instruction: neither fees, nor token accounts, nor
the rent of proposals. -/
structure NoMemberPays (programId : Pubkey) (members : List String) (tx : Transaction) : Prop where
  /-- the fees -/
  feePayer : ∃ k, tx.feePayer = some k ∧ toBase58 k ∉ members
  /-- the token accounts created -/
  funder : ∀ ix ∈ tx.instructions, ix.programId = ataProgramId →
    ∃ k, ix.keys[0]? = some k ∧ toBase58 k ∉ members
  /-- the proposals created -/
  rentPayer : ∀ ix ∈ tx.instructions, ix.programId = programId →
    ix.data.take 8 = createTransactionTag → ∃ k, ix.keys[3]? = some k ∧ toBase58 k ∉ members

/-- **Of an accepted bundle, no member pays by an outer instruction if and only if
none pays the rent of the proposal**: the gate checks the fee payer and the funders
of token accounts, and not the payer of the `create_transaction`. -/
theorem noMemberPays_iff {serializedTxBase64 : String} {params : ConsumerSolanaBundleParams}
    {tx : Transaction}
    (hok : (verifyConsumerSolanaBundle env web3 serializedTxBase64 params).ok = true)
    (htx : web3.transactionFrom (web3.base64 serializedTxBase64) = .ok tx) :
    NoMemberPays params.programId params.members tx ↔
      RentByOthers params.programId params.members tx := by
  obtain ⟨tx', outer, b, c, k, htx', hparses, hc⟩ := accepts_of_ok hok
  rw [htx] at htx'
  obtain rfl := Except.ok.inj htx'
  obtain ⟨payer, hpayer, hmember⟩ := hc.feePayer
  constructor
  · intro h ix hix hprogram htag k₃ hk₃
    obtain ⟨k', hk', hnot⟩ := h.rentPayer ix hix hprogram htag
    rw [hk₃] at hk'
    obtain rfl := Option.some.inj hk'
    exact hnot
  · intro h
    refine ⟨?_, fun ix hix hprogram => ?_, fun ix hix hprogram htag => ?_⟩
    · rw [hparses.feePayer_eq, Option.map_eq_some_iff] at hpayer
      obtain ⟨k₀, hk₀, rfl⟩ := hpayer
      exact ⟨k₀, hk₀, hmember⟩
    · obtain ⟨ata, hata, hfunder⟩ := hparses.exists_ataCreate hc.foreign_eq hix hprogram
      rw [hc.ataCreates ata hata, hpayer] at hfunder
      obtain ⟨k₀, hk₀, rfl⟩ := Option.map_eq_some_iff.mp hfunder.symm
      exact ⟨k₀, hk₀, hmember⟩
    · obtain ⟨-, hkeys⟩ := hparses.create_eq hc.creates_eq hc.foreign_eq hix hprogram htag
      have hlen : 3 < ix.keys.length := hkeys ▸ hc.create_keys.2
      exact ⟨_, List.getElem?_eq_getElem hlen, h ix hix hprogram htag _
        (List.getElem?_eq_getElem hlen)⟩

/-! ## What runs -/

/-- What a bundle does that creates the proposal `t` at `transaction` and takes the chain
from `s` to `s'`, adding `new` to the log. -/
structure ConsumerRun (env : Env) (params : ConsumerSolanaBundleParams) (feePayer : Option String)
    (s s' : State) (transaction : Pubkey) (t : VaultTransaction) (vault : Pubkey)
    (new : List Event) : Prop where
  history_eq : s'.history = new ++ s.history
  /-- the proposal is fresh -/
  fresh : recordAt s.history transaction = none
  /-- it is created -/
  created : .created transaction t ∈ new
  /-- and no other -/
  created_eq : ∀ address r, .created address r ∈ new → address = transaction ∧ r = t
  /-- whatever happens is about it -/
  proposal_eq : ∀ e ∈ new, e.proposal? = some transaction
  multisig_eq : params.multisigPda = toBase58 t.multisig
  vaultIndex_is : (params.vaultIndex.getD (.ofNat 0)).Is t.vaultIndex.toNat
  vault_eq : deriveVaultPda env t.multisig t.vaultIndex = some (vault, t.vaultBump)
  /-- its calls, now and ever after, are those of its message -/
  runs : ∀ s'', Reaches env s' s'' → DistinctAddresses env s''.history →
    Runs s''.history transaction t.message.calls
  /-- which pays the recipient displayed -/
  flows : ∃ maxFee, params.flows.maxFee = some maxFee ∧
    ExactFlows (PaysConsumer env vault params.expected.tokenMint)
      [⟨params.expected.recipient, params.expected.amount⟩] vault feePayer maxFee true
      t.message.calls
  /-- no member approves twice -/
  approvals_nodup : (new.filterMap Event.approval?).Nodup
  /-- and only members do -/
  approver_mem : ∀ address member, .approved address member ∈ new →
    toBase58 member ∈ params.members
  /-- among them the signer -/
  signer_approved : ∃ signer, params.signer = toBase58 signer ∧ .approved transaction signer ∈ new

/-- A payment of the consumer gate is a call of the System or a token program. -/
theorem paysConsumer_program {vault : Pubkey} {tokenMint : Option String} {p : ExpectedRecipient}
    {ix : Instruction} (h : PaysConsumer env vault tokenMint p ix) :
    ix.programId ∈ [systemProgramId, tokenProgramId, token2022ProgramId] := by
  obtain ⟨amount, -, hpays⟩ := h
  cases hmint : given tokenMint with
  | none =>
    rw [hmint] at hpays
    obtain ⟨dst, -, htransfer⟩ := hpays
    simp [htransfer.program_eq]
  | some text =>
    rw [hmint] at hpays
    obtain ⟨mint, owner, dst, -, -, htransfer, -⟩ := hpays
    rcases htransfer.program_eq with h | h <;> simp [h]

/-- The approvals of an accepted bundle are of its proposal, by its approvers in
order. -/
theorem approvals_eq {multisig transaction : Pubkey} {approves : List ParsedMultisigIx}
    {approvers : List Pubkey} {approvals : List (Pubkey × Pubkey)}
    (happrovers : List.Forall₂ (fun a approver =>
      [multisig, transaction, approver] <+: ParsedMultisigIx.keys a) approves approvers)
    (happrovals : List.Forall₂ (fun a q => ∃ k, [k, q.1, q.2] <+: ParsedMultisigIx.keys a)
      approves approvals) :
    approvals = approvers.map fun approver => (transaction, approver) := by
  induction happrovers generalizing approvals with
  | nil =>
    cases happrovals
    rfl
  | cons ha _ ih =>
    cases happrovals with
    | cons hq happrovals =>
      obtain ⟨k, hk⟩ := hq
      have heq := eq_of_prefixes hk ha rfl
      rw [List.map_cons, ← ih happrovals]
      simp_all [Prod.ext_iff]

/-- Every multisig instruction of an accepted bundle names the multisig and the
proposal. -/
theorem Sdk.ConsumerAccepts.named {params : ConsumerSolanaBundleParams} {b : ParsedBundle}
    {c : ParsedCreate} {k : ConsumerKeys} {tx : Transaction} {outer : List ParsedOuter}
    (hc : ConsumerAccepts env params b c k) (hparses : b.Parses params.programId tx outer)
    {p : ParsedOuter} (hp : p ∈ outer) {keys : List Pubkey} (hkeys : p.keys? = some keys) :
    [k.multisig, k.transaction] <+: keys := by
  cases p with
  | create c' =>
    obtain rfl := Option.some.inj hkeys
    have hc' := hparses.mem_creates.mpr hp
    rw [hc.creates_eq, List.mem_singleton] at hc'
    subst hc'
    exact hc.create_keys.1
  | approve a =>
    obtain rfl := Option.some.inj hkeys
    obtain ⟨approvers, happrovers, -⟩ := hc.approvals
    obtain ⟨approver, -, ha⟩ :=
      exists_right_of_forall₂ happrovers (hparses.mem_approves.mpr hp)
    exact (List.prefix_append _ [approver]).trans ha
  | execute e =>
    obtain rfl := Option.some.inj hkeys
    exact hc.executes e (hparses.mem_executes.mpr hp)
  | close c =>
    obtain rfl := Option.some.inj hkeys
    exact hc.closes c (hparses.mem_closes.mpr hp)
  | nonceAdvance | computeBudget | ataCreate | foreign => cases hkeys

/-- The one `create_transaction` of a bundle creates the proposal it describes. -/
theorem Sdk.ParsedBundle.Parses.creates {tx : Transaction} {outer : List ParsedOuter}
    {b : ParsedBundle} {c : ParsedCreate} {multisig address : Pubkey} {os : List OuterInstruction}
    {s s' : State} (h : b.Parses env.programId tx outer) (hone : b.creates = [c])
    (hforeign : b.foreign = []) (hnamed : [multisig, address] <+: c.keys)
    (hos : List.Forall₂ Instruction.SubmittedAs tx.instructions os) (hs : Refines env s)
    (hland : Lands env s os s') (hcf : DistinctAddresses env s'.history) :
    ∃ t vault, recordAt s.history address = none ∧ recordAt s'.history address = some t ∧
      t.multisig = multisig ∧ t.ValidFor env vault ∧
      c.inner = InnerMessage.of t.vaultIndex t.message := by
  have hcreate : ParsedOuter.create c ∈ outer := h.mem_creates.mp (by simp [hone])
  obtain ⟨o, ho, -, ix, ⟨hown, htag, hinner, hkeys⟩, hix⟩ :=
    exists_right_of_forall₂ (h.submitted hforeign hos) hcreate
  rw [← hix.data_eq] at htag hinner
  obtain ⟨transaction, t, hfresh, hrecord, ⟨vault, hvalid⟩, hpasses, hparse⟩ :=
    hland.created hs hcf ho (hix.program_eq.trans hown.program_eq) htag
  rw [Passes, hix.keys_eq, ← hkeys] at hpasses
  have hnamed' : [t.multisig, transaction] <+: c.keys :=
    (List.prefix_append [t.multisig, transaction] [t.creator, t.payer]).trans hpasses
  obtain ⟨hmultisig, rfl⟩ : t.multisig = multisig ∧ transaction = address := by
    simpa using eq_of_prefixes hnamed' hnamed rfl
  exact ⟨t, vault, hfresh, hrecord, hmultisig, hvalid, inner_of_create hinner htag hparse⟩

/-- The one `create_transaction` of an accepted bundle creates the proposal it
describes. -/
theorem Sdk.ConsumerAccepts.creates {params : ConsumerSolanaBundleParams} {b : ParsedBundle}
    {c : ParsedCreate} {k : ConsumerKeys} {tx : Transaction} {outer : List ParsedOuter}
    {os : List OuterInstruction} {s s' : State} (hc : ConsumerAccepts env params b c k)
    (hparses : b.Parses env.programId tx outer)
    (hos : List.Forall₂ Instruction.SubmittedAs tx.instructions os) (hs : Refines env s)
    (hland : Lands env s os s') (hcf : DistinctAddresses env s'.history) :
    ∃ t, recordAt s.history k.transaction = none ∧ recordAt s'.history k.transaction = some t ∧
      t.multisig = k.multisig ∧ t.ValidFor env k.vault ∧
      c.inner = InnerMessage.of t.vaultIndex t.message := by
  obtain ⟨t, vault, hfresh, hrecord, hmultisig, hvalid, hmessage⟩ :=
    hparses.creates hc.creates_eq hc.foreign_eq hc.create_keys.1 hos hs hland hcf
  -- both debit the first account of the message
  have hsender := hc.sender_eq
  rw [hmessage, List.head?_eq_getElem?] at hsender
  obtain rfl : vault = k.vault := Option.some.inj (hvalid.2.vault_first.symm.trans hsender)
  exact ⟨t, hfresh, hrecord, hmultisig, hvalid, hmessage⟩

/-- **Signing an accepted consumer bundle pays the recipient displayed.** In
whatever order its instructions stand, a bundle that lands in a reachable state
creates one fresh proposal of the multisig and is about no other; the calls of this
proposal, whenever it is executed, are exactly one payment of the amount to the
recipient, refunds to the fee payer within the cap, and memos; and its approvals
are by distinct members, the signer among them. -/
theorem consumer_runs_exactly {serializedTxBase64 : String} {params : ConsumerSolanaBundleParams}
    {tx : Transaction} {os : List OuterInstruction} {s s' : State}
    (hok : (verifyConsumerSolanaBundle env web3 serializedTxBase64 params).ok = true)
    (hprogram : params.programId = env.programId)
    (htx : web3.transactionFrom (web3.base64 serializedTxBase64) = .ok tx)
    (hos : List.Forall₂ Instruction.SubmittedAs tx.instructions os)
    (hs : Reachable env s) (hland : Lands env s os s') (hrules : RuntimeRules env)
    (hcf : DistinctAddresses env s'.history) :
    ∃ transaction t vault new,
      ConsumerRun env params (tx.feePayer.map toBase58) s s' transaction t vault new := by
  obtain ⟨tx', outer, b, c, k, htx', hparses, hc⟩ := accepts_of_ok hok
  rw [htx] at htx'
  obtain rfl := Except.ok.inj htx'
  have hnamed : ∀ p ∈ outer, ∀ keys, p.keys? = some keys →
      [k.multisig, k.transaction] <+: keys := fun p hp keys => hc.named hparses hp
  rw [hprogram] at hparses
  have hs₀ := refines_of_reachable hs (hcf.of_suffix hland.reaches.history_suffix)
  have hs' := hs₀.reaches hland.reaches hcf
  obtain ⟨t, hfresh, hrecord, hmultisig, hvalid, hmessage⟩ :=
    hc.creates hparses hos hs₀ hland hcf
  obtain ⟨maxFee, hmax, hflows⟩ := hc.exactFlows hmessage
  have hothers := hflows.callsOthers hrules fun _ _ => paysConsumer_program
  -- the proposal executed is the one created, which calls other programs only
  obtain ⟨segments, hadds, hhistory⟩ := hparses.lands hc.foreign_eq hos hland hs₀ hrules hcf (by
    intro e he address r haddress hr
    rw [getElem?_of_isPrefix (hc.executes e he) (i := 1) rfl] at haddress
    obtain rfl := Option.some.inj haddress
    rw [hrecord] at hr
    obtain rfl := Option.some.inj hr
    exact hothers)
  have hproposal := proposal_of_adds hadds hnamed
  obtain ⟨approvers, happrovers, hnodup, hsigner, hmembers⟩ := hc.approvals
  -- the approvals logged are those of the bundle, the newest first
  have happrovals : (segments.reverse.flatten.filterMap Event.approval?).Perm
      (approvers.map fun approver => (k.transaction, approver)) := by
    rw [← approvals_eq happrovers (hparses.approves_eq ▸ approvals_of_adds hadds)]
    exact segments.reverse_perm.flatten.filterMap _
  have hmem : ∀ address member, .approved address member ∈ segments.reverse.flatten ↔
      address = k.transaction ∧ member ∈ approvers := by
    intro address member
    rw [← mem_approvals, happrovals.mem_iff]
    simp [and_comm, eq_comm]
  refine ⟨k.transaction, t, k.vault, segments.reverse.flatten, ?_⟩
  refine
    { history_eq := hhistory
      fresh := hfresh
      created := LegalLog.created_mem hs₀.legal hfresh (hhistory ▸ hrecord)
      created_eq := fun address r hr => ?_
      proposal_eq := hproposal
      multisig_eq := hmultisig ▸ hc.multisig_eq
      vaultIndex_is := ?_
      vault_eq := hvalid.1
      runs := fun s'' hrun hcf'' => ?_
      flows := ⟨maxFee, hmax, hparses.feePayer_eq ▸ hflows⟩
      approvals_nodup := ?_
      approver_mem := fun address member h => ?_
      signer_approved := ⟨k.signer, hc.signer_eq, (hmem _ _).mpr ⟨rfl, hsigner⟩⟩ }
  · obtain rfl := Option.some.inj (hproposal _ hr)
    refine ⟨rfl, LegalLog.created_unique hs'.legal ?_ (recordAt_mem hrecord)⟩
    exact hhistory ▸ List.mem_append_left _ hr
  · have hindex := hc.vaultIndex_is
    rwa [hmessage] at hindex
  · have hl := (hs'.reaches hrun hcf'').legal
    exact LegalLog.runs hl (hl.recordAt_of_suffix hrun.history_suffix hrecord)
  · exact happrovals.nodup_iff.mpr (hnodup.map fun _ _ h => (Prod.mk.inj h).2)
  · rw [hc.members_eq]
    exact List.mem_map_of_mem (hmembers member ((hmem address member).mp h).2)

/-! ## Consumer bundles of the example cluster -/

/-- The gate's verdict on the text of a message is that on its transaction. -/
theorem Sdk.LegacyMessage.consumer_ok {m : LegacyMessage} {params : ConsumerSolanaBundleParams} :
    (verifyConsumerSolanaBundle env m.web3 m.base64 params).ok = true ↔
      (consumerReport env (parseTransaction params.programId m.transaction) params).ok = true := by
  rw [verifyConsumer_ok, m.parseBundle_eq, Report.ok_iff]

namespace Example

/-- What the device of `alice` knows and displays. -/
def params : ConsumerSolanaBundleParams where
  programId := programId
  multisigPda := toBase58 multisig
  members := [toBase58 alice, toBase58 bob]
  signer := toBase58 alice
  vaultIndex := none
  expected := ⟨toBase58 carol, "700", none, none⟩
  maxFeeLamports := .bigint 0
  expectedFeePayer := some (toBase58 paymaster)
  maxComputeUnitLimit := none
  maxComputeUnitPriceMicroLamports := none

/-- The bundle of the example is accepted. -/
theorem bundle_accepted :
    (verifyConsumerSolanaBundle cluster bundle.web3 bundle.base64 params).ok = true :=
  LegacyMessage.consumer_ok.mpr (by decide +kernel)

/-- The proposal, its rent paid by `alice`. -/
def createByAlice : OuterInstruction where
  program := programId
  infos := [⟨multisig, false, true⟩, ⟨transaction, false, true⟩, ⟨alice, true, true⟩,
    ⟨alice, true, true⟩, ⟨systemProgramId, false, false⟩]
  data := createTransactionTag ++ [0] ++ TransactionMessage.codec.encode message

/-- The bundle that charges `alice`. -/
def chargingBundle : LegacyMessage :=
  { bundle with
    numReadonlySigned := 1
    instructions := compileOuter bundleKeys createByAlice :: bundle.instructions.tail }

/-- The bundle lands after the registration. -/
theorem exists_landing : ∃ s s', Reachable cluster s ∧
    Lands cluster s (commands.tail.filterMap (Command.outer? cluster)) s' ∧ s'.history = history := by
  obtain ⟨s', hs', hend, hhistory⟩ := exists_driven
  obtain ⟨hempty, o, ho, hrest⟩ := drive_submit hs'
  have hkeys := commands_keysOnly
  have hreach : Reachable cluster (genesis.apply o) :=
    reachable_of_reaches genesis_genesis
      (.single (.submit hempty (hkeys register List.mem_cons_self) (.process rfl ho)))
  obtain ⟨s, hrun, -, hland⟩ :=
    lands_of_drive (fun c hc => hkeys c (List.mem_cons_of_mem _ hc)) hrest hend
  exact ⟨s, s', hreach.trans (inner_run_reaches hrun), hland, hhistory⟩

end Example

/-- The bundle of the example, on the example cluster. -/
theorem consumer_runs_exactly_example :
    ∃ (s s' : State) (transaction : Pubkey) (t : VaultTransaction) (vault : Pubkey)
      (new : List Event), Reachable Example.cluster s ∧ s'.history = Example.history ∧
      ConsumerRun Example.cluster Example.params (some (toBase58 Example.paymaster)) s s'
        transaction t vault new := by
  obtain ⟨s, s', hs, hland, hhistory⟩ := Example.exists_landing
  obtain ⟨transaction, t, vault, new, hrun⟩ :=
    consumer_runs_exactly Example.bundle_accepted rfl Example.bundle.transactionFrom_base64
      Example.bundle_submittedAs hs hland Example.runtimeRules
      (hhistory ▸ Example.distinctAddresses)
  exact ⟨s, s', transaction, t, vault, new, hs, hhistory, hrun⟩

/-- For the bundle of the example, whose rent the paymaster pays. -/
theorem noMemberPays_iff_example :
    NoMemberPays Example.programId Example.params.members Example.bundle.transaction :=
  (noMemberPays_iff Example.bundle_accepted Example.bundle.transactionFrom_base64).mpr
    (by decide +kernel)

/-- The gate accepts a bundle in which a member pays the rent of the proposal. -/
theorem member_pays_rent :
    (verifyConsumerSolanaBundle Example.cluster Example.chargingBundle.web3
      Example.chargingBundle.base64 Example.params).ok = true ∧
    Example.chargingBundle.web3.transactionFrom
      (Example.chargingBundle.web3.base64 Example.chargingBundle.base64) =
        .ok Example.chargingBundle.transaction ∧
    ¬NoMemberPays Example.programId Example.params.members Example.chargingBundle.transaction := by
  refine ⟨LegacyMessage.consumer_ok.mpr (by decide +kernel),
    Example.chargingBundle.transactionFrom_base64, fun h => ?_⟩
  obtain ⟨k, hk, hnot⟩ := h.rentPayer _ List.mem_cons_self (by decide +kernel) (by decide +kernel)
  have hkey : k = Example.alice := Option.some.inj (hk.symm.trans (by decide +kernel))
  exact hnot (hkey ▸ List.mem_cons_self)

end SolanaMultisig
