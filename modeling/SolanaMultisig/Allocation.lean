import SolanaMultisig.Interpreter
import SolanaMultisig.Space

/-!
# Accounts do not outgrow their allocation

The space of an account is reserved when it is created; later approvals make the
encoding of a proposal longer. Every account keeps the size it was created with
(`Sized`), a proposal has at most one approval for each member, and so every
write-back fits and every member can approve (`accountsFit_of_reachable`).
-/

namespace SolanaMultisig

open Wire Guard EventLog

variable {env : Env}

/-! ## Sizes -/

/-- Every account of the program has the size it was created with. For a proposal that size
depends on its multisig, so the invariant also says that the multisig is still there. -/
structure Sized (env : Env) (ledger : Ledger) : Prop where
  /-- that of its members -/
  multisigs : ∀ k m, multisigAccount.Holds env ledger k m →
    (ledger k).data.length = computeMultisigSpace m.members.length
  /-- that of its message and the members of its multisig, which is still there -/
  proposals : ∀ k t, transactionAccount.Holds env ledger k t →
    ∃ m, multisigAccount.Holds env ledger t.multisig m ∧
      (ledger k).data.length = computeProposalSpace t.message m.members.length

/-- Writing back does not resize: the new bytes go over the front of the old ones. -/
theorem AccountType.length_exit {α : Type} {T : AccountType α} {ledger ledger' : Ledger}
    {key : Pubkey} {a : α} (h : T.exit env ledger key a = .ok ledger') (k : Pubkey) :
    (ledger' k).data.length = (ledger k).data.length := by
  by_cases hvacant : (ledger key).Vacant
  · rw [AccountType.exit_vacant hvacant] at h
    cases h
    rfl
  · have hwritten := AccountType.written_of_exit hvacant h
    by_cases hk : k = key
    · rw [hk, hwritten.length_eq]
    · rw [hwritten.others k hk]

/-- What an instruction does to the sizes of the accounts it writes, for each event it can
leave. The other events write to no account of the program. -/
structure Resizes (env : Env) (ledger : Ledger) (o : Outcome) : Prop where
  initialized : ∀ address m, o.event = some (.initialized address m) →
    (o.ledger address).data.length = computeMultisigSpace m.members.length
  created : ∀ address t, o.event = some (.created address t) →
    (∃ m, multisigAccount.Holds env ledger t.multisig m ∧
      (o.ledger address).data.length = computeProposalSpace t.message m.members.length) ∧
    (o.ledger t.multisig).data.length = (ledger t.multisig).data.length
  approved : ∀ address member, o.event = some (.approved address member) →
    (o.ledger address).data.length = (ledger address).data.length
  entered : ∀ address multisig index, o.event = some (.entered address multisig index) →
    (o.ledger address).data.length = (ledger address).data.length

theorem InitializeMultisig.process_resizes {ledger : Ledger} {infos : List AccountInfo}
    {memberHash : Bytes32} {threshold memberCount : UInt8} {o : Outcome}
    (h : InitializeMultisig.process env ledger infos memberHash threshold memberCount = .ok o) :
    Resizes env ledger o := by
  obtain ⟨multisig, payer, system, remaining, rfl, -, -, bump, -, allocated, hinit, -, -, record,
    hbody, written, hexit, rfl⟩ := InitializeMultisig.process_eq_ok.mp h
  obtain ⟨-, hmembers, -, -, -, -, hcount⟩ := initializeMultisig_eq_ok hbody
  refine ⟨?_, nofun, nofun, nofun⟩
  rintro _ _ ⟨⟩
  rw [AccountType.length_exit hexit, (initAccount_allocated hinit).data_eq,
    List.length_replicate, hmembers, sortMembers, Scan.length_sorted, hcount]

theorem CreateTransaction.process_resizes {ledger : Ledger} {infos : List AccountInfo}
    {vaultIndex : UInt8} {message : TransactionMessage} {o : Outcome}
    (h : CreateTransaction.process env ledger infos vaultIndex message = .ok o) :
    Resizes env ledger o := by
  obtain ⟨multisig, transaction, creator, payer, system, rest, rfl, m, hm, -, -, -, nextIndex, -,
    bump, -, allocated, hinit, -, -, -, ⟨m', t⟩, hbody, written, hexit, written', hexit', rfl⟩ :=
    CreateTransaction.process_eq_ok.mp h
  obtain ⟨-, -, -, -, ht⟩ := createTransaction_eq_ok hbody
  have halloc := initAccount_allocated hinit
  have hlength : ∀ k, (written' k).data.length = (allocated k).data.length := fun k =>
    (AccountType.length_exit hexit' k).trans (AccountType.length_exit hexit k)
  have hne : t.multisig ≠ transaction.key := by
    rw [show t.multisig = multisig.key from congrArg VaultTransaction.multisig ht]
    exact fun he => (he ▸ hm).not_vacant halloc.vacant
  refine ⟨nofun, ?_, nofun, nofun⟩
  rintro _ _ ⟨⟩
  rw [hlength, hlength, (halloc.others _ hne).2, halloc.data_eq, List.length_replicate]
  rw [ht]
  exact ⟨⟨m, hm, rfl⟩, rfl⟩

theorem ApproveTransaction.process_resizes {ledger : Ledger} {infos : List AccountInfo}
    {transactionIndex : UInt64} {o : Outcome}
    (h : ApproveTransaction.process env ledger infos transactionIndex = .ok o) :
    Resizes env ledger o := by
  obtain ⟨multisig, transaction, member, rest, rfl, m, -, t, -, -, -, -, record, -, written, hexit,
    rfl⟩ := ApproveTransaction.process_eq_ok.mp h
  refine ⟨nofun, nofun, ?_, nofun⟩
  rintro _ _ ⟨⟩
  exact AccountType.length_exit hexit _

theorem ExecuteTransaction.process_resizes {ledger : Ledger} {infos : List AccountInfo}
    {transactionIndex : UInt64} {o : Outcome}
    (h : ExecuteTransaction.process env ledger infos transactionIndex = .ok o) :
    Resizes env ledger o := by
  obtain ⟨multisig, transaction, executor, remaining, rfl, m, -, t, -, -, -, -, record, -, written,
    hexit, execution, -, rfl⟩ := ExecuteTransaction.process_eq_ok.mp h
  refine ⟨nofun, nofun, nofun, ?_⟩
  rintro _ _ _ ⟨⟩
  exact AccountType.length_exit hexit _

/-- The sizes after any instruction: one case for each, as the fields of `Resizes` say. -/
theorem processInstruction_resizes {bank : Bank} {ledger : Ledger} {infos : List AccountInfo}
    {data : List UInt8} {o : Outcome}
    (h : processInstruction env bank ledger infos data = .ok o) : Resizes env ledger o := by
  simp only [processInstruction, bind_eq_ok] at h
  obtain ⟨instruction, -, h⟩ := h
  have heffect := ProgramInstruction.process_effect h
  cases instruction with
  | initializeMultisig => exact InitializeMultisig.process_resizes h
  | createTransaction => exact CreateTransaction.process_resizes h
  | approveTransaction => exact ApproveTransaction.process_resizes h
  | executeTransaction => exact ExecuteTransaction.process_resizes h
  | closeTransaction | provisionNonce | deriveAddress | deriveVaultAddress =>
    cases heffect
    exact ⟨nofun, nofun, nofun, nofun⟩

/-! ## Sizes in every run -/

/-- The account at `k` has the size it should have: `Sized` at one address, for the proofs
that look only at what was written. -/
structure SizedAt (env : Env) (ledger : Ledger) (k : Pubkey) : Prop where
  multisig : ∀ m, multisigAccount.Holds env ledger k m →
    (ledger k).data.length = computeMultisigSpace m.members.length
  proposal : ∀ t, transactionAccount.Holds env ledger k t →
    ∃ m, multisigAccount.Holds env ledger t.multisig m ∧
      (ledger k).data.length = computeProposalSpace t.message m.members.length

/-- Only accounts that were written have to be looked at, if multisigs keep their members:
the size of a proposal depends on its multisig through the number of members alone. -/
theorem Sized.of_accounts {ledger ledger' : Ledger} (hs : Sized env ledger)
    (hmultisigs : ∀ k m, multisigAccount.Holds env ledger k m →
      ∃ m', multisigAccount.Holds env ledger' k m' ∧ m'.members = m.members)
    (hk : ∀ k, SameContents ledger ledger' k ∨ SizedAt env ledger' k) : Sized env ledger' where
  multisigs k m hm := by
    rcases hk k with hsame | hsized
    · rw [hsame.2]
      exact hs.multisigs k m (hm.of_sameContents hsame.symm)
    · exact hsized.multisig m hm
  proposals k t ht := by
    rcases hk k with hsame | hsized
    · obtain ⟨m, hm, hlength⟩ := hs.proposals k t (ht.of_sameContents hsame.symm)
      obtain ⟨m', hm', hmembers⟩ := hmultisigs _ m hm
      exact ⟨m', hm', by rw [hsame.2, hlength, hmembers]⟩
    · exact hsized.proposal t ht

/-- An address without a multisig keeps its multisigs. -/
theorem multisigs_kept {ledger ledger' : Ledger} {address : Pubkey}
    (hno : ∀ m, ¬multisigAccount.Holds env ledger address m)
    (hothers : ∀ k, k ≠ address → SameContents ledger ledger' k) (k : Pubkey) (m : Multisig)
    (hm : multisigAccount.Holds env ledger k m) :
    ∃ m', multisigAccount.Holds env ledger' k m' ∧ m'.members = m.members := by
  have hne : k ≠ address := fun he => hno m (he ▸ hm)
  exact ⟨m, hm.of_sameContents (hothers k hne), rfl⟩

/-- When one account changes, which is no multisig, it is the only one to look at. -/
theorem Sized.change {ledger ledger' : Ledger} {address : Pubkey} (hs : Sized env ledger)
    (hno : ∀ m, ¬multisigAccount.Holds env ledger address m)
    (hothers : ∀ k, k ≠ address → SameContents ledger ledger' k)
    (hsized : SizedAt env ledger' address) : Sized env ledger' := by
  refine hs.of_accounts (multisigs_kept hno hothers) fun k => ?_
  by_cases hk : k = address
  · subst hk
    exact .inr hsized
  · exact .inl (hothers k hk)

/-- An account of another program has any size. -/
theorem SizedAt.of_owner {ledger : Ledger} {k : Pubkey} (h : (ledger k).owner ≠ env.programId) :
    SizedAt env ledger k :=
  ⟨fun _ hm => absurd hm.1 h, fun _ ht => absurd ht.1 h⟩

/-- A proposal that is rewritten in place keeps its size, since neither its message nor its
multisig changes. Approvals and executions are of this kind. -/
theorem Sized.rewrite {ledger ledger' : Ledger} {address : Pubkey} {t t' : VaultTransaction}
    (hs : Sized env ledger) (ht : transactionAccount.Holds env ledger address t)
    (ht' : transactionAccount.Holds env ledger' address t')
    (hmultisig : t'.multisig = t.multisig) (hmessage : t'.message = t.message)
    (hothers : ∀ k, k ≠ address → ledger' k = ledger k)
    (hlength : (ledger' address).data.length = (ledger address).data.length) :
    Sized env ledger' := by
  have hsame : ∀ k, k ≠ address → SameContents ledger ledger' k := fun k hk =>
    SameContents.of_eq (hothers k hk)
  have hno : ∀ m, ¬multisigAccount.Holds env ledger address m := fun m hm =>
    hm.not_of_ne discriminator_ne ht
  refine hs.change hno hsame ⟨fun m hm => absurd ht' (hm.not_of_ne discriminator_ne), ?_⟩
  intro u hu
  obtain rfl := hu.unique ht'
  obtain ⟨m, hm, hsize⟩ := hs.proposals _ t ht
  obtain ⟨m', hm', hmembers⟩ := multisigs_kept hno hsame _ m hm
  rw [hmultisig, hmessage, hlength, hsize, ← hmembers]
  exact ⟨m', hm', rfl⟩

/-- A new proposal has its size, and the multisig keeps its own while its counter
moves. -/
theorem Sized.create {ledger ledger' : Ledger} {address : Pubkey} {m : Multisig}
    {t : VaultTransaction} (hs : Sized env ledger) (hc : Creates env ledger ledger' address m t)
    (hsize : (ledger' address).data.length = computeProposalSpace t.message m.members.length)
    (hmultisig : (ledger' t.multisig).data.length = (ledger t.multisig).data.length) :
    Sized env ledger' := by
  -- the multisig is rewritten with another counter, all others stay
  have hmultisigs : ∀ k m, multisigAccount.Holds env ledger k m →
      ∃ m', multisigAccount.Holds env ledger' k m' ∧ m'.members = m.members := by
    intro k m hm
    by_cases hk : k = t.multisig
    · subst hk
      obtain rfl := hm.unique hc.multisig_holds
      exact ⟨_, hc.multisig_holds', rfl⟩
    · have hne : k ≠ address := fun he => (he ▸ hm).not_vacant hc.vacant
      exact ⟨m, hm.of_sameContents (hc.others k hne hk), rfl⟩
  refine hs.of_accounts hmultisigs fun k => ?_
  by_cases hk : k = address
  · subst hk
    refine .inr ⟨fun m hm => absurd hc.holds (hm.not_of_ne discriminator_ne), fun u hu => ?_⟩
    obtain rfl := hu.unique hc.holds
    exact ⟨_, hc.multisig_holds', hsize⟩
  by_cases hk' : k = t.multisig
  · subst hk'
    refine .inr ⟨fun m' hm' => ?_,
      fun u hu => absurd hu (hc.multisig_holds'.not_of_ne discriminator_ne)⟩
    rw [hm'.unique hc.multisig_holds', hmultisig]
    exact hs.multisigs _ m hc.multisig_holds
  · exact .inl (hc.others k hk hk')

/-- **An instruction keeps the sizes.** -/
theorem Sized.process {ledger : Ledger} {infos : List AccountInfo} {ix : ProgramInstruction}
    {o : Outcome} (hs : Sized env ledger) (heffect : Effect env ledger infos ix o)
    (hr : Resizes env ledger o) : Sized env o.ledger := by
  cases heffect with
  | @initialized ledger' address m _ hi _ =>
    refine hs.change (fun m hm => hm.not_vacant hi.vacant) hi.others
      ⟨fun m' hm' => ?_, fun t ht => absurd ht (hi.holds.not_of_ne discriminator_ne)⟩
    rw [hm'.unique hi.holds]
    exact hr.initialized address m rfl
  | @created ledger' address m t hc _ _ _ =>
    obtain ⟨⟨m₀, hm₀, hsize⟩, hmultisig⟩ := hr.created address t rfl
    obtain rfl := hm₀.unique hc.multisig_holds
    exact hs.create hc hsize hmultisig
  | @approved ledger' address member m t hap _ _ =>
    exact hs.rewrite hap.pending.holds hap.holds rfl rfl hap.others (hr.approved address member rfl)
  | @entered ledger' x m t hen _ =>
    have hholds := hen.holds
    rw [hen.cached_eq] at hholds
    exact hs.rewrite hen.pending.holds hholds rfl rfl hen.others (hr.entered _ _ _ rfl)
  | @closed ledger' address t hc _ _ =>
    -- the account is back with the System program
    have howner : (ledger' address).owner ≠ env.programId := by
      rw [hc.closed.absent]
      exact fun he => env.programId_ne he.symm
    exact hs.change (fun m hm => hm.not_of_ne discriminator_ne hc.holds) hc.closed.others
      (.of_owner howner)
  | @provisioned ledger' multisig nonce m hp =>
    -- a nonce account belongs to the System program
    have howner : (ledger' nonce).owner ≠ env.programId := by
      rw [hp.owner_eq]
      exact fun he => env.programId_ne he.symm
    exact hs.change (fun m hm => hm.not_vacant hp.vacant) hp.others (.of_owner howner)
  | viewedAddress | viewedVault => exact hs

/-- Foreign programs cannot resize an account of the program: the runtime lets only the
owner write to it. -/
theorem Sized.foreign {ledger ledger' : Ledger} {infos : List AccountInfo} (hs : Sized env ledger)
    (hf : ForeignStep env infos ledger ledger') : Sized env ledger' := by
  have hmultisigs : ∀ k m, multisigAccount.Holds env ledger' k m ↔
      multisigAccount.Holds env ledger k m := hf.holds_iff fun h => h.typed_multisig
  have hproposals : ∀ k t, transactionAccount.Holds env ledger' k t ↔
      transactionAccount.Holds env ledger k t := hf.holds_iff fun h => h.typed_transaction
  constructor
  · intro k m hm
    rw [hmultisigs] at hm
    rw [(hf.keeps k hm.typed_multisig).1.2]
    exact hs.multisigs k m hm
  · intro k t ht
    rw [hproposals] at ht
    simp only [hmultisigs, (hf.keeps k ht.typed_transaction).1.2]
    exact hs.proposals k t ht

theorem Sized.apply {s : State} {bank : Bank} {infos : List AccountInfo} {data : List UInt8}
    {o : Outcome} (hs : Sized env s.ledger)
    (h : processInstruction env bank s.ledger infos data = .ok o) : Sized env (s.apply o).ledger := by
  obtain ⟨_, -, heffect⟩ := processInstruction_effect h
  exact hs.process heffect (processInstruction_resizes h)

/-- **Every step keeps the sizes.** The refinement is needed for the multisig of a proposal
to be there; without it the invariant would not be inductive. -/
theorem Sized.step {s s' : State} (hs : Sized env s.ledger) (href : Refines env s)
    (hstep : Step env s s') : Sized env s'.ledger := by
  cases hstep with
  | settle _ hforeign => exact hs.foreign hforeign
  | submit _ _ hsubmit =>
    cases hsubmit with
    | process _ hprocess => exact hs.apply hprocess
    | foreign _ => exact hs
  | inner hinner =>
    cases hinner with
    | call | leave => exact hs
    | @callSelf e rest cpi bank o _ _ _ _ hprocess =>
      exact Sized.apply (s := s.issue e rest cpi) hs hprocess
    | callback _ _ _ hprocess => exact hs.apply hprocess
    | foreign _ hforeign => exact hs.foreign hforeign
    | finish hframes _ hexit =>
      obtain rfl := href.exit_eq hframes hexit
      exact hs

theorem Sized.reaches {s s' : State} (hs : Sized env s.ledger) (href : Refines env s)
    (hrun : Reaches env s s') (hcf : DistinctAddresses env s'.history) : Sized env s'.ledger := by
  induction hrun with
  | refl => exact hs
  | tail hrun hstep ih =>
    have hcf' := hcf.of_suffix hstep.history_suffix
    exact (ih hcf').step (href.reaches hrun hcf') hstep

/-- The sizes in every reachable state. -/
theorem sized_of_reachable {s : State} (hs : Reachable env s)
    (hcf : DistinctAddresses env s.history) : Sized env s.ledger := by
  obtain ⟨genesis, hg, hrun⟩ := hs.reaches
  have hsized : Sized env genesis.ledger :=
    ⟨fun k m hm => absurd hm.typed_multisig (hg.untyped k),
      fun k t ht => absurd ht.typed_transaction (hg.untyped k)⟩
  exact hsized.reaches (refines_of_genesis hg) hrun hcf

/-! ## Write-backs fit -/

/-- A live proposal in its account, with its multisig: what approving it and writing it back
depend on, gathered from the refinement and the sizes. -/
structure Housed (env : Env) (ledger : Ledger) (k : Pubkey) (t : VaultTransaction)
    (m : Multisig) : Prop where
  holds : transactionAccount.Holds env ledger k t
  multisig_holds : multisigAccount.Holds env ledger t.multisig m
  address_eq : t.AddressOf env k
  nodup : t.approvals.Nodup
  subset : t.approvals ⊆ m.members
  length_eq : (ledger k).data.length = computeProposalSpace t.message m.members.length

/-- A live proposal has the address it was created at. -/
theorem LegalLog.addressOf {h : List Event} {k : Pubkey} {t : VaultTransaction}
    (hl : LegalLog env h) (ht : proposalAt h k = some t) : t.AddressOf env k := by
  obtain ⟨r, hr, hsame⟩ := recordAt_of_proposalAt ht
  obtain ⟨-, -, -, -, haddress, -⟩ := hl.created_split hr
  rw [hsame]
  exact haddress

/-- In a state that refines its log, with the sizes right, every live proposal is housed. -/
theorem Refines.housed {s : State} (hs : Refines env s) (hsized : Sized env s.ledger)
    {k : Pubkey} {t : VaultTransaction} (ht : transactionAccount.Holds env s.ledger k t) :
    ∃ m, Housed env s.ledger k t m := by
  have hlog := (hs.accounts.proposals _ _).mp ht
  obtain ⟨hnodup, m, hm, hsubset⟩ := hs.legal.approvals_valid hlog
  have hholds := (hs.accounts.multisigs _ _).mpr hm
  obtain ⟨m', hm', hlength⟩ := hsized.proposals k t ht
  obtain rfl := hm'.unique hholds
  exact ⟨m', ht, hholds, hs.legal.addressOf hlog, hnodup, hsubset, hlength⟩

section Housed

variable {ledger : Ledger} {k : Pubkey} {t : VaultTransaction} {m : Multisig}

/-- Every member approves at most once, so the approvals never outnumber the members and the
space reserved for them suffices. -/
theorem Housed.length_approvals_le (h : Housed env ledger k t m) :
    t.approvals.length ≤ m.members.length :=
  (h.nodup.subperm h.subset).length_le

/-- There is room for one more. -/
theorem Housed.length_approvals_lt (h : Housed env ledger k t m) {member : Pubkey}
    (hmember : member ∈ m.members) (hnew : member ∉ t.approvals) :
    t.approvals.length + 1 ≤ m.members.length := by
  have hnodup : (member :: t.approvals).Nodup := List.nodup_cons.mpr ⟨hnew, h.nodup⟩
  have hsubset : member :: t.approvals ⊆ m.members := List.cons_subset.mpr ⟨hmember, h.subset⟩
  exact (hnodup.subperm hsubset).length_le

/-- **Writing back succeeds** as long as there are no more approvals than members: the
encoding is at most as long as the space computed at creation. -/
theorem Housed.exit_isOk (h : Housed env ledger k t m) {approvals : List Pubkey} (executed : Bool)
    (hle : approvals.length ≤ m.members.length) :
    ∃ ledger', transactionAccount.exit env ledger k
      { t with approvals := approvals, executed := executed } = .ok ledger' := by
  have hcount : approvals.length < 256 ^ 4 :=
    lt_of_le_of_lt hle h.multisig_holds.2.1.1.1
  have hfits : transactionAccount.codec.Fits
      { t with approvals := approvals, executed := executed } := by
    obtain ⟨h₁, h₂, h₃, h₄, h₅, h₆, h₇, h₈, -, h₁₀⟩ := h.holds.2.1
    exact ⟨h₁, h₂, h₃, h₄, h₅, h₆, h₇, trivial, ⟨hcount, fun _ _ => trivial⟩, h₁₀⟩
  refine AccountType.exit_isOk h.holds.1 hfits ?_
  rw [h.length_eq]
  exact length_bytes_transaction_le hle

/-- The accounts of an approval: the multisig, the proposal to be written, and a member who
signed. Accounts behind them do not matter. -/
inductive ApproveAccounts (multisigKey address member : Pubkey) : List AccountInfo → Prop
  | intro {multisig transaction signer : AccountInfo} {rest : List AccountInfo} :
      multisig.key = multisigKey → transaction.key = address → transaction.isWritable = true →
      signer.key = member → signer.isSigner = true →
        ApproveAccounts multisigKey address member (multisig :: transaction :: signer :: rest)

/-- **Approving succeeds**, for every member who has not approved yet: every check of the
instruction holds, and the longer record still fits. -/
theorem Housed.approve_isOk (h : Housed env ledger k t m) (hexecuted : t.executed = false)
    {member : Pubkey} (hmember : member ∈ m.members) (hnew : member ∉ t.approvals)
    {infos : List AccountInfo} (hinfos : ApproveAccounts t.multisig k member infos)
    {data : List UInt8}
    (hdata : parseInstruction data = .ok (.approveTransaction t.transactionIndex)) (bank : Bank) :
    ∃ ledger', processInstruction env bank ledger infos data =
      .ok ⟨ledger', some (.approved k member), none⟩ := by
  cases hinfos with
  | @intro multisig transaction signer rest hmultisig htransaction hwritable hkey hsigner =>
    have hle : (t.approvals ++ [member]).length ≤ m.members.length := by
      rw [List.length_append, List.length_singleton]
      exact h.length_approvals_lt hmember hnew
    obtain ⟨ledger', hexit⟩ := h.exit_isOk false hle
    have happroved : { t with approvals := t.approvals ++ [member], executed := false } =
        { t with approvals := t.approvals ++ [member] } := by rw [hexecuted]
    rw [happroved] at hexit
    have hprocess : ApproveTransaction.process env ledger
        (multisig :: transaction :: signer :: rest) t.transactionIndex =
          .ok ⟨ledger', some (.approved k member), none⟩ := by
      subst htransaction hkey
      exact ApproveTransaction.process_eq_ok.mpr ⟨multisig, transaction, signer, rest, rfl, m,
        hmultisig ▸ h.multisig_holds, t, h.holds, hsigner, ⟨t.bump, hmultisig ▸ h.address_eq⟩,
        hwritable, _, approveTransaction_eq_ok.mpr ⟨hmultisig.symm, rfl, hexecuted, hmember, hnew,
          rfl⟩, ledger', hexit, rfl⟩
    refine ⟨ledger', ?_⟩
    simp only [processInstruction, hdata]
    exact hprocess

end Housed

/-! ## No instruction fails to write back -/

/-- The error of a write-back that does not fit. The lemmas below show for each part of an
instruction that it cannot end in it. -/
abbrev unserializable : ProgramError := .anchor .accountDidNotSerialize

section Avoids

variable {ledger : Ledger} {infos : List AccountInfo}

@[simp] theorem avoids_load {α : Type} (T : AccountType α) (key : Pubkey) :
    Avoids unserializable (T.load env ledger key) := by
  simp [AccountType.load]

@[simp] theorem avoids_signer (info : AccountInfo) : Avoids unserializable (signer info) := by
  simp [signer]

@[simp] theorem avoids_mutable (info : AccountInfo) : Avoids unserializable (mutable info) := by
  simp [mutable]

@[simp] theorem avoids_systemProgram (info : AccountInfo) :
    Avoids unserializable (systemProgram info) := by
  simp [systemProgram]

@[simp] theorem avoids_seedsConstraint (key : Pubkey) (seeds : List (List UInt8)) :
    Avoids unserializable (seedsConstraint env key seeds) := by
  simp [seedsConstraint]

@[simp] theorem avoids_transfer (src dst : Pubkey) (lamports : ℕ) :
    Avoids unserializable (systemTransfer ledger src dst lamports) := by
  simp [systemTransfer]

@[simp] theorem avoids_allocate (key : Pubkey) (space : ℕ) :
    Avoids unserializable (systemAllocate ledger key space) := by
  simp [systemAllocate]

@[simp] theorem avoids_createAccount (src dst owner : Pubkey) (lamports space : ℕ) :
    Avoids unserializable (systemCreateAccount ledger src dst lamports space owner) := by
  simp [systemCreateAccount]

@[simp] theorem avoids_initAccount (field payer : AccountInfo) (space : ℕ) :
    Avoids unserializable (initAccount env ledger field payer space) := by
  have htop : Avoids unserializable (topUp env ledger field.key payer.key space) := by
    simp only [topUp]
    split <;> simp
  simp only [initAccount, avoids_bind]
  refine ⟨by simp, fun _ _ => ?_⟩
  split
  · simp
  · simp [htop]

@[simp] theorem avoids_validateMessage (message : TransactionMessage) (vault : Pubkey) :
    Avoids unserializable (validateMessage message vault) := by
  have hbounds : Avoids unserializable (forEach validateBounds message.instructions) :=
    avoids_forEach fun ix => by simp [validateBounds, messageError]
  have hindexes : ∀ n, Avoids unserializable (forEach (validateIndexes n) message.instructions) :=
    fun n => avoids_forEach fun ix => by
      simp [validateIndexes, messageError, avoids_forEach]
  simp [validateMessage, messageError, hbounds, hindexes]

/-- How matching the accounts of an execution fails. -/
def matchErrors : List ProgramError :=
  [.custom .invalidMessage, .custom .insufficientRemainingAccounts, .custom .accountMismatch]

theorem avoids_matchKeys {e : ProgramError} (he : e ∉ matchErrors) (keys : List Pubkey)
    (remaining : List AccountInfo) : Avoids e (matchKeys keys remaining) := by
  simp only [matchErrors, List.mem_cons, not_or] at he
  induction keys generalizing remaining with
  | nil => simp [matchKeys]
  | cons k keys ih =>
    cases remaining with
    | nil => simpa [matchKeys] using Ne.symm he.2.1
    | cons info remaining => simp [matchKeys, ih, Ne.symm he.2.2.1]

theorem avoids_start_of_notMem {e : ProgramError} (he : e ∉ matchErrors) (multisig : AccountInfo)
    (transaction : Pubkey) (cached : VaultTransaction) (remaining : List AccountInfo) :
    Avoids e (Execution.start multisig transaction cached infos remaining) := by
  have hmatch := avoids_matchKeys he
  have hresolve : Avoids e (resolveAccounts cached.message remaining) := by
    simp only [matchErrors, List.mem_cons, not_or] at he
    simp [resolveAccounts, hmatch, Ne.symm he.1, Ne.symm he.2.1]
  unfold Execution.start
  split
  · rename_i e he
    rw [he] at hresolve
    simpa using hresolve
  · exact avoids_ok _ _

@[simp] theorem avoids_start (multisig : AccountInfo) (transaction : Pubkey)
    (cached : VaultTransaction) (remaining : List AccountInfo) :
    Avoids unserializable (Execution.start multisig transaction cached infos remaining) :=
  avoids_start_of_notMem (by decide) multisig transaction cached remaining

/-- A new multisig fits, whatever the arguments: the space is computed from the claimed
number of members, which the body compares with the number it found. -/
theorem InitializeMultisig.process_avoids (memberHash : Bytes32) (threshold memberCount : UInt8) :
    Avoids unserializable
      (InitializeMultisig.process env ledger infos memberHash threshold memberCount) := by
  unfold InitializeMultisig.process
  split
  · simp only [avoids_bind, avoids_signer, avoids_systemProgram, avoids_seedsConstraint,
      avoids_initAccount, avoids_mutable, avoids_pure, true_and, and_true, implies_true]
    intro _ _ _ _ bump _ allocated hinit _ _ _ _
    constructor
    · simp [initializeMultisig]
    · intro record hbody
      obtain ⟨hvalid, hmembers, -, -, -, -, hcount⟩ := initializeMultisig_eq_ok hbody
      have halloc := initAccount_allocated hinit
      refine avoids_of_isOk (AccountType.exit_isOk halloc.owner_eq (fits_multisig hvalid.length_le) ?_)
      rw [length_bytes_multisig, halloc.data_eq, List.length_replicate, hmembers, sortMembers,
        Scan.length_sorted, hcount]
  · simp

/-- The counter of the multisig takes the place of the old one, and a new proposal fits, as
its space was computed from the very message that is stored. -/
theorem CreateTransaction.process_avoids (hs : Sized env ledger) (vaultIndex : UInt8)
    {message : TransactionMessage} (hmessage : TransactionMessage.codec.Fits message) :
    Avoids unserializable (CreateTransaction.process env ledger infos vaultIndex message) := by
  unfold CreateTransaction.process
  split
  · rename_i multisig transaction creator payer system rest
    simp only [avoids_bind, avoids_load, avoids_signer, avoids_systemProgram, avoids_orElse,
      avoids_seedsConstraint, avoids_initAccount, avoids_mutable, avoids_pure, true_and, and_true,
      implies_true, reduceCtorEq, false_implies]
    intro m hm _ _ _ _ _ _ next hnext bump hbump allocated hinit _ _ _ _ _ _
    constructor
    · simp [createTransaction]
    · rintro ⟨m', t⟩ hbody
      obtain ⟨-, -, -, hm', ht⟩ := createTransaction_eq_ok hbody
      have halloc := initAccount_allocated hinit
      rw [AccountType.load_eq_ok] at hm
      have hne : multisig.key ≠ transaction.key := fun he => (he ▸ hm).not_vacant halloc.vacant
      have hsame := halloc.others _ hne
      constructor
      · have hfits : multisigAccount.codec.Fits m' := hm' ▸ hm.2.1
        refine avoids_of_isOk (AccountType.exit_isOk (hsame.1.trans hm.1) hfits ?_)
        rw [length_bytes_multisig, hsame.2, hs.multisigs _ m hm, hm']
      · intro written hexit
        have howner : (written transaction.key).owner = env.programId := by
          rw [(AccountType.written_of_exit (hm.of_sameContents hsame).not_vacant hexit).others _
            hne.symm]
          exact halloc.owner_eq
        have hfits : transactionAccount.codec.Fits t := by
          rw [ht]
          exact ⟨trivial, trivial, trivial, trivial, trivial, trivial, trivial, trivial,
            ⟨by simp, by simp⟩, hmessage⟩
        refine avoids_of_isOk (AccountType.exit_isOk howner hfits ?_)
        rw [AccountType.length_exit hexit, halloc.data_eq, List.length_replicate, ht]
        exact length_bytes_transaction_le (Nat.zero_le _)
  · simp

/-- One more approval fits, because the member who gives it had not approved before. -/
theorem ApproveTransaction.process_avoids
    (hhoused : ∀ k t, transactionAccount.Holds env ledger k t → ∃ m, Housed env ledger k t m)
    (transactionIndex : UInt64) :
    Avoids unserializable (ApproveTransaction.process env ledger infos transactionIndex) := by
  unfold ApproveTransaction.process
  split
  · rename_i multisig transaction member rest
    simp only [avoids_bind, avoids_load, avoids_signer, avoids_seedsConstraint, avoids_mutable,
      avoids_pure, true_and, and_true, implies_true]
    intro m hm t ht _ _ _ _ _ _
    constructor
    · simp [approveTransaction]
    · intro record hbody
      rw [AccountType.load_eq_ok] at hm ht
      obtain ⟨m', h⟩ := hhoused _ t ht
      obtain ⟨hmultisig, -, hexecuted, hmember, hnew, rfl⟩ := approveTransaction_eq_ok.mp hbody
      obtain rfl := hm.unique (hmultisig ▸ h.multisig_holds)
      have hle : (t.approvals ++ [member.key]).length ≤ m.members.length := by
        rw [List.length_append, List.length_singleton]
        exact h.length_approvals_lt hmember hnew
      exact avoids_of_isOk (h.exit_isOk t.executed hle)
  · simp

/-- The executed flag takes the place of the old one, byte for byte. -/
theorem ExecuteTransaction.process_avoids
    (hhoused : ∀ k t, transactionAccount.Holds env ledger k t → ∃ m, Housed env ledger k t m)
    (transactionIndex : UInt64) :
    Avoids unserializable (ExecuteTransaction.process env ledger infos transactionIndex) := by
  unfold ExecuteTransaction.process
  split
  · rename_i multisig transaction executor remaining
    simp only [avoids_bind, avoids_load, avoids_signer, avoids_seedsConstraint, avoids_mutable,
      avoids_start, avoids_pure, true_and, and_true, implies_true]
    intro m hm t ht _ _ _ _ _ _
    constructor
    · simp [executeTransaction]
    · intro record hbody
      rw [AccountType.load_eq_ok] at ht
      obtain ⟨m', h⟩ := hhoused _ t ht
      obtain ⟨-, -, -, -, rfl⟩ := executeTransaction_eq_ok.mp hbody
      exact avoids_of_isOk (h.exit_isOk true h.length_approvals_le)
  · simp

end Avoids

theorem parseInstruction_avoids (data : List UInt8) :
    Avoids unserializable (parseInstruction data) := by
  have hread : ∀ {α : Type} (c : Codec α) (args : List UInt8) (f : α → ProgramInstruction),
      Avoids unserializable (readArgs c args f) := fun c args f => by simp [readArgs]
  unfold parseInstruction
  simp only
  repeat' split
  all_goals first
    | exact hread _ _ _
    | simp

/-- A message that was read has an encoding: its lengths were read from four bytes each. -/
theorem fits_of_parse {data : List UInt8} {vaultIndex : UInt8} {message : TransactionMessage}
    (h : parseInstruction data = .ok (.createTransaction vaultIndex message)) :
    TransactionMessage.codec.Fits message := by
  unfold parseInstruction at h
  simp only at h
  repeat' split at h
  all_goals first
    | cases h
    | obtain ⟨p, hp, he⟩ := readArgs_eq_ok.mp h
      cases he
  exact ((Codec.byte.pair TransactionMessage.codec).encode_of_decode hp).1.2

/-- **No instruction fails to write back**, whatever it is given: neither its accounts nor
its data can make it outgrow the space of an account. -/
theorem processInstruction_avoids {s : State} (hs : Refines env s) (hsized : Sized env s.ledger)
    (bank : Bank) (infos : List AccountInfo) (data : List UInt8) :
    Avoids unserializable (processInstruction env bank s.ledger infos data) := by
  have hhoused : ∀ k t, transactionAccount.Holds env s.ledger k t →
      ∃ m, Housed env s.ledger k t m := fun k t ht => hs.housed hsized ht
  rw [processInstruction, avoids_bind]
  refine ⟨parseInstruction_avoids data, fun instruction hparse => ?_⟩
  cases instruction with
  | initializeMultisig hash threshold count =>
    exact InitializeMultisig.process_avoids hash threshold count
  | createTransaction vaultIndex message =>
    exact CreateTransaction.process_avoids hsized vaultIndex (fits_of_parse hparse)
  | approveTransaction index => exact ApproveTransaction.process_avoids hhoused index
  | executeTransaction index => exact ExecuteTransaction.process_avoids hhoused index
  | closeTransaction index =>
    change Avoids _ (CloseTransaction.process env s.ledger infos index)
    unfold CloseTransaction.process
    split <;> simp [closeTransaction, closeAccount]
  | provisionNonce =>
    change Avoids _ (ProvisionNonce.process env bank s.ledger infos)
    unfold ProvisionNonce.process
    split <;> simp [createNonceAccountWithSeed]
  | deriveAddress members threshold =>
    change Avoids _ (DeriveAddress.process s.ledger infos _)
    unfold DeriveAddress.process
    split <;> simp [deriveAddress]
  | deriveVaultAddress members threshold vaultIndex =>
    change Avoids _ (DeriveAddress.process s.ledger infos _)
    unfold DeriveAddress.process
    split <;> simp [deriveVaultAddress]

/-! ## Every reachable state -/

/-- The accounts of the program fit into the space they were given: the sizes, and what
follows from them for the instructions still to come. -/
structure AccountsFit (env : Env) (s : State) : Prop where
  /-- a multisig fills its account -/
  multisig_size : ∀ k m, multisigAccount.Holds env s.ledger k m →
    (multisigAccount.bytes m).length = computeMultisigSpace m.members.length ∧
      (s.ledger k).data.length = computeMultisigSpace m.members.length
  /-- a proposal leaves room for the approvals that are missing, and no more -/
  proposal_size : ∀ k t, transactionAccount.Holds env s.ledger k t →
    ∃ m, multisigAccount.Holds env s.ledger t.multisig m ∧
      t.approvals.length ≤ m.members.length ∧
      (transactionAccount.bytes t).length =
        computeProposalSpace t.message m.members.length -
          32 * (m.members.length - t.approvals.length) ∧
      (s.ledger k).data.length = computeProposalSpace t.message m.members.length
  /-- no instruction fails because what it writes back does not fit -/
  serializes : ∀ bank infos data,
    processInstruction env bank s.ledger infos data ≠ .error (.anchor .accountDidNotSerialize)
  /-- nor does an execution that returns -/
  returns : ∀ e rest, s.frames = .execution e :: rest →
    ∃ ledger, transactionAccount.exit env s.ledger e.transaction e.cached = .ok ledger
  /-- a member who has not approved a pending proposal can do so -/
  approvable : ∀ k t m member, transactionAccount.Holds env s.ledger k t → t.executed = false →
    multisigAccount.Holds env s.ledger t.multisig m → member ∈ m.members →
    member ∉ t.approvals → ∀ bank infos data, ApproveAccounts t.multisig k member infos →
    parseInstruction data = .ok (.approveTransaction t.transactionIndex) →
      ∃ ledger', processInstruction env bank s.ledger infos data =
        .ok ⟨ledger', some (.approved k member), none⟩

/-- The write-back of an execution succeeds: the proposal is as it was cached, or gone. In
between nobody could change it, since it was marked executed before the first call. -/
theorem Refines.exit_isOk {s : State} {e : Execution} {rest : List Frame} (hs : Refines env s)
    (hframes : s.frames = .execution e :: rest) :
    ∃ ledger, transactionAccount.exit env s.ledger e.transaction e.cached = .ok ledger := by
  obtain ⟨r, he⟩ := hs.top hframes
  cases hp : proposalAt s.history e.transaction with
  | none => exact ⟨_, AccountType.exit_vacant (hs.accounts.closed _ r he.record hp)⟩
  | some t =>
    obtain rfl := he.current t hp
    exact ⟨_, AccountType.exit_of_holds ((hs.accounts.proposals _ _).mpr hp)⟩

/-- **Accounts never outgrow their allocation**, in any run. A proposal has no more
approvals than its multisig has members, and the space was reserved for that many; so every
write-back fits and a member who has not approved can always do so. -/
theorem accountsFit_of_reachable {s : State} (hs : Reachable env s)
    (hcf : DistinctAddresses env s.history) : AccountsFit env s := by
  have href := refines_of_reachable hs hcf
  have hsized := sized_of_reachable hs hcf
  refine
    { multisig_size := fun k m hm => ⟨length_bytes_multisig m, hsized.multisigs k m hm⟩
      proposal_size := ?_
      serializes := processInstruction_avoids href hsized
      returns := fun e rest hframes => href.exit_isOk hframes
      approvable := ?_ }
  · intro k t ht
    obtain ⟨m, h⟩ := href.housed hsized ht
    have hle := h.length_approvals_le
    exact ⟨m, h.multisig_holds, hle, length_bytes_transaction hle, h.length_eq⟩
  · intro k t m member ht hexecuted hm hmember hnew bank infos data hinfos hdata
    obtain ⟨m', h⟩ := href.housed hsized ht
    obtain rfl := hm.unique h.multisig_holds
    exact h.approve_isOk hexecuted hmember hnew hinfos hdata bank

namespace Example

/-- The state between the two approvals is reachable. -/
theorem exists_pending :
    ∃ s, Reachable cluster s ∧ s.frames = [] ∧ s.history = history.drop 5 := by
  obtain ⟨s, hs, hframes, hhistory⟩ := exists_drive_pending
  have hkeys : ∀ c ∈ [register, create, approve alice], c.KeysOnly cluster := fun c hc =>
    commands_keysOnly c (List.mem_of_mem_take (i := 3) hc)
  exact ⟨s, reachable_of_reaches genesis_genesis (drive_reaches hkeys hs), hframes, hhistory⟩

end Example

/-- The accounts of the example, between the two approvals. -/
theorem accountsFit_of_reachable_example :
    ∃ s, Reachable Example.cluster s ∧ s.history = Example.history.drop 5 ∧
      AccountsFit Example.cluster s := by
  obtain ⟨s, hs, -, hhistory⟩ := Example.exists_pending
  exact ⟨s, hs, hhistory,
    accountsFit_of_reachable hs (hhistory ▸ Example.distinctAddresses_pending)⟩

end SolanaMultisig
