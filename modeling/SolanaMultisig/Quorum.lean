import SolanaMultisig.Delivery
import SolanaMultisig.Lib.Contest

/-!
# A quorum prevails

Members approve one by one, each in a transaction of its own, and somebody executes. In
between others do what they like: they approve, execute, propose, close, or have their
own proposals call back. Whatever they do, the proposal of a quorum ends up executed, with
the calls of its message, unless its payer closes it before (`quorum_prevails`).
-/

namespace SolanaMultisig

open Wire Guard EventLog Contest Sdk

variable {env : Env}

/-! ## The plan -/

/-- What the client is called with to carry a proposal through: the same multisig, index and
fee for every approval, and the accounts the execution passes. -/
structure Campaign where
  fee : ℤ
  multisigAddress : Pubkey
  transactionIndex : Counter
  executor : Pubkey
  remainingAccounts : List AccountMeta

/-- The campaign is one for `t`: it names its multisig and its index, and it passes the
accounts its message needs. -/
structure Campaign.For (c : Campaign) (t : VaultTransaction) : Prop where
  multisig_eq : c.multisigAddress = t.multisig
  index_eq : c.transactionIndex.value = some t.transactionIndex.toNat
  remaining_for : RemainingFor t.message c.remainingAccounts

/-- A transaction of the plan, with who is to approve in it. -/
structure Turn where
  /-- the member who approves; nobody for the execution -/
  approver? : Option Pubkey
  transaction : List OuterInstruction

/-- The instructions sent reach their programs, signed with private keys. The message of the
transaction may merge the privileges of the same account, but drops none. -/
def Delivered (env : Env) (ixs : List Instruction) (os : List OuterInstruction) : Prop :=
  List.Forall₂ Instruction.DeliveredAs ixs os ∧ ∀ o ∈ os, KeysOnly env o.infos

/-- `member` approves with the client. -/
def Campaign.Approves (env : Env) (c : Campaign) (member : Pubkey) (turn : Turn) : Prop :=
  turn.approver? = some member ∧
    ∃ ixs, Sdk.approveTransaction env c.fee c.multisigAddress c.transactionIndex member
      env.programId = .ok ixs ∧ Delivered env ixs turn.transaction

/-- The executor executes with the client. It need not be a member; all it contributes is
its signature and the fee. -/
def Campaign.Executes (env : Env) (c : Campaign) (turn : Turn) : Prop :=
  turn.approver? = none ∧
    ∃ ixs, Sdk.executeTransaction env c.fee c.multisigAddress c.transactionIndex c.executor
      (some c.remainingAccounts) env.programId = .ok ixs ∧ Delivered env ixs turn.transaction

/-- Nothing can be done about the proposal any more: it was executed, or its account is
gone. -/
def Over (h : List Event) (address : Pubkey) : Prop :=
  Entered h address ∨ ∃ payer, .closed address payer ∈ h

/-- What the transaction is for has happened, or cannot happen. -/
def Turn.Needless (turn : Turn) (address : Pubkey) (h : List Event) : Prop :=
  Over h address ∨ ∃ member, turn.approver? = some member ∧ .approved address member ∈ h

/-- Whoever's turn it is sends the transaction, which lands, unless there is no need. The
alternative is not a failure: what the transaction is for has been done by somebody else. -/
inductive Turn.Taken (env : Env) (address : Pubkey) (turn : Turn) : State → State → Prop
  | lands {s s' : State} : ¬turn.Needless address s.history →
      Lands env s turn.transaction s' → Turn.Taken env address turn s s'
  | passes {s : State} : turn.Needless address s.history → Turn.Taken env address turn s s

/-- What others do between two transactions: any run of the machine that ends between
transactions, as long as no addresses collide. -/
structure Others (env : Env) (s s' : State) : Prop where
  run : Reaches env s s'
  idle : s'.frames = []
  distinct : DistinctAddresses env s'.history

/-- Who approved a live proposal is recorded in it: approvals are appended and never
removed. -/
theorem LegalLog.mem_approvals {h : List Event} {k member : Pubkey} {t : VaultTransaction}
    (hl : LegalLog env h) (happroved : .approved k member ∈ h) (ht : proposalAt h k = some t) :
    member ∈ t.approvals := by
  obtain ⟨later, earlier, rfl, t₀, m, ht₀, -⟩ := hl.allowed_of_mem happroved
  have hthen : proposalAt (.approved k member :: earlier) k =
      some { t₀ with approvals := t₀.approvals ++ [member] } := by
    rw [proposalAt, if_pos rfl, ht₀]
    rfl
  exact (hl.proposalAt_extends hthen ht).approvals_grow.subset (by simp)

/-- The proposal `t` was created at `address`, for the multisig `m`: what every state of the
campaign has in common, whatever others have done. -/
structure Known (env : Env) (address : Pubkey) (t : VaultTransaction) (m : Multisig) (s : State) :
    Prop where
  reachable : Reachable env s
  idle : s.frames = []
  distinct : DistinctAddresses env s.history
  created : .created address t ∈ s.history
  evolves : ∃ m', multisigAt s.history t.multisig = some m' ∧ m.Evolves m'

section Known

variable {address : Pubkey} {t : VaultTransaction} {m : Multisig} {s s' : State}

theorem Known.refines (h : Known env address t m s) : Refines env s :=
  refines_of_reachable h.reachable h.distinct

theorem Known.recordAt (h : Known env address t m s) : recordAt s.history address = some t :=
  h.refines.legal.recordAt_of_mem h.created

/-- It stays known, since creations stay on record and multisigs keep their members. -/
theorem Known.later (h : Known env address t m s) (hrun : Reaches env s s')
    (hidle : s'.frames = []) (hcf : DistinctAddresses env s'.history) :
    Known env address t m s' := by
  have hreach := h.reachable.trans hrun
  have hl := (refines_of_reachable hreach hcf).legal
  obtain ⟨m₁, hm₁, hevolves⟩ := h.evolves
  obtain ⟨new, hlog⟩ := hrun.history_suffix
  rw [← hlog] at hl
  obtain ⟨m₂, hm₂, hevolves'⟩ := hl.multisigAt_append hm₁
  exact ⟨hreach, hidle, hcf, hlog ▸ List.mem_append_right _ h.created, m₂, hlog ▸ hm₂,
    hevolves.trans hevolves'⟩

/-- As long as nobody executed or closed it, it lives, with whatever approvals it has by
then. -/
theorem Known.live (h : Known env address t m s) (hopen : ¬Over s.history address) :
    ∃ t', transactionAccount.Holds env s.ledger address t' ∧ t'.SameProposal t ∧
      t'.executed = false := by
  have hl := h.refines.legal
  obtain ⟨later, earlier, hlog, -⟩ := hl.created_split h.recordAt
  have hthen : proposalAt (.created address t :: earlier) address = some t := by
    rw [proposalAt, if_pos rfl]
  obtain ⟨t', ht'⟩ := proposalAt_survives_append hthen fun payer hmem =>
    hopen (.inr ⟨payer, hlog ▸ List.mem_append_left _ hmem⟩)
  rw [← hlog] at ht'
  obtain ⟨r, hr, hsame⟩ := recordAt_of_proposalAt ht'
  obtain rfl := Option.some.inj (h.recordAt.symm.trans hr)
  refine ⟨t', (h.refines.accounts.proposals _ _).mpr ht', hsame, ?_⟩
  cases hexecuted : t'.executed with
  | false => rfl
  | true => exact absurd (.inl (hl.entered_of_executed ht' hexecuted)) hopen

/-- And it waits for what its multisig asks. -/
theorem Known.waiting (h : Known env address t m s) (hopen : ¬Over s.history address) :
    ∃ t', Waiting env address t' m t'.approvals s ∧ t'.SameProposal t ∧ t'.executed = false := by
  obtain ⟨t', ht', hsame, hexecuted⟩ := h.live hopen
  obtain ⟨m', hm', hevolves⟩ := h.evolves
  have hholds := (h.refines.accounts.multisigs _ _).mpr hm'
  exact ⟨t', ⟨h.refines, sized_of_reachable h.reachable h.distinct, h.idle, ht', m',
    hsame.multisig_eq ▸ hholds, hevolves⟩, hsame, hexecuted⟩

end Known

/-! ## The turns -/

section Turns

variable {address member : Pubkey} {t : VaultTransaction} {m : Multisig} {s : State}
  {c : Campaign} {turn : Turn}

/-- A priority fee is the business of another program, which returns at once and changes
nothing here. -/
theorem lands_priority {fee : ℤ} {os : List OuterInstruction} (hidle : s.frames = [])
    (hprogram : env.programId ≠ computeBudgetProgramId)
    (hos : Delivered env (priorityInstructions fee) os) : Lands env s os s := by
  obtain ⟨hos, hkeys⟩ := hos
  rw [priorityInstructions] at hos
  split at hos
  · obtain rfl := List.forall₂_nil_left_iff.mp hos
    exact .nil hidle
  · obtain ⟨o, _, ho, hnil, rfl⟩ := List.forall₂_cons_left_iff.mp hos
    obtain rfl := List.forall₂_nil_left_iff.mp hnil
    have hne : o.program ≠ env.programId := fun he => hprogram (he.symm.trans ho.program_eq)
    exact .cons hidle (hkeys o (by simp)) (.foreign hne) (.single (.leave rfl)) hidle (.nil hidle)

/-- The instruction behind the priority fee: what comes before it lands and leaves the state
as it is. -/
theorem Delivered.last {fee : ℤ} {ix : Instruction} {os : List OuterInstruction}
    (h : Delivered env (priorityInstructions fee ++ [ix]) os) (hidle : s.frames = [])
    (hprogram : env.programId ≠ computeBudgetProgramId) :
    ∃ before o, os = before ++ [o] ∧ ix.DeliveredAs o ∧ KeysOnly env o.infos ∧
      Lands env s before s := by
  obtain ⟨hos, hkeys⟩ := h
  obtain ⟨before, last, hbefore, hlast, rfl⟩ := exists_of_forall₂_append hos
  obtain ⟨o, _, ho, hnil, rfl⟩ := List.forall₂_cons_left_iff.mp hlast
  obtain rfl := List.forall₂_nil_left_iff.mp hnil
  exact ⟨before, o, rfl, ho, hkeys o (by simp),
    lands_priority hidle hprogram ⟨hbefore, fun o ho => hkeys o (List.mem_append_left _ ho)⟩⟩

/-- The campaign is about the proposal at `address`. -/
theorem Known.proposalAddress_eq (h : Known env address t m s) (hc : c.For t) {address' : Pubkey}
    (haddress' : proposalAddress env c.multisigAddress c.transactionIndex env.programId =
      .ok address') : address' = address := by
  obtain ⟨bump, hpda⟩ := (proposalAddress_eq_ok hc.index_eq).mp haddress'
  obtain ⟨_, _, -, -, haddress, -⟩ := h.refines.legal.created_split h.recordAt
  rw [VaultTransaction.AddressOf, ← hc.multisig_eq, hpda] at haddress
  exact congrArg Prod.fst (Option.some.inj haddress)

/-- **An approval lands** if it is needed: the proposal lives, is not executed, and this
member has not approved it yet, which is all the instruction checks beside the accounts. -/
theorem Known.approve_lands (h : Known env address t m s) (hc : c.For t)
    (hprogram : env.programId ≠ computeBudgetProgramId)
    (happroves : c.Approves env member turn) (hmember : member ∈ m.members)
    (hneed : ¬turn.Needless address s.history) :
    ∃ s', Lands env s turn.transaction s' ∧ s'.history = .approved address member :: s.history := by
  obtain ⟨happrover, ixs, hixs, hdelivered⟩ := happroves
  obtain ⟨t', hw, hsame, hexecuted⟩ := h.waiting fun hover => hneed (.inl hover)
  simp only [Sdk.approveTransaction, bind_eq_ok, pure_eq_ok] at hixs
  obtain ⟨address', haddress, ix, hix, rfl⟩ := hixs
  obtain rfl := h.proposalAddress_eq hc haddress
  obtain ⟨before, o, hos, ho, hkeys, hbefore⟩ := hdelivered.last h.idle hprogram
  have hindex : t'.transactionIndex = t.transactionIndex := by rw [hsame]
  have hmultisig : c.multisigAddress = t'.multisig := hc.multisig_eq.trans hsame.multisig_eq.symm
  obtain ⟨hix_program, hdata, hpassed⟩ :=
    buildApproveTransactionInstruction_asks (hindex ▸ hc.index_eq) hix
  -- it has not approved yet, or the log would say so
  have hnew : member ∉ t'.approvals := by
    intro hmem
    have hlog := (h.refines.accounts.proposals _ _).mp hw.holds
    obtain ⟨later, earlier, hsplit, -⟩ := h.refines.legal.created_split h.recordAt
    have hl := h.refines.legal
    rw [hsplit] at hl hlog
    refine hneed (.inr ⟨member, happrover, ?_⟩)
    rw [hsplit]
    exact List.mem_append_left _ (hl.approved_mem hlog hmem)
  obtain ⟨ledger, hprocess, -⟩ := hw.approve hexecuted h.distinct hmember hnew
    (⟨hmultisig ▸ hpassed _ ho.passed, hkeys, ho.data_eq ▸ hdata⟩ :
      (Request.approval member o.infos o.data).Proper env address' t') ⟨Bytes32.zero, 0⟩
  rw [hos]
  exact ⟨_, hbefore.append (lands_of_process h.idle (ho.program_eq.trans hix_program) hkeys
    hprocess rfl), rfl⟩

end Turns

/-! ## The quorum -/

section Quorum

variable {address : Pubkey} {t : VaultTransaction} {m : Multisig} {s : State} {c : Campaign}
  {quorum : List Pubkey}

theorem Over.mono {h h' : List Event} (hover : Over h address) (hsuffix : h <:+ h') :
    Over h' address := by
  rcases hover with ⟨multisig, index, hmem⟩ | ⟨payer, hmem⟩
  · exact .inl ⟨multisig, index, hsuffix.subset hmem⟩
  · exact .inr ⟨payer, hsuffix.subset hmem⟩

/-- While approvals are to come: each member of the quorum has its turn still, or has
approved, as far as it matters. The invariant of the first part of the plan. -/
structure Approving (env : Env) (c : Campaign) (address : Pubkey) (t : VaultTransaction)
    (m : Multisig) (quorum : List Pubkey) (turns : List Turn) (s : State) : Prop where
  known : Known env address t m s
  scheduled : ∀ turn ∈ turns, ∃ member ∈ m.members, c.Approves env member turn
  approved : ∀ member ∈ quorum, (∃ turn ∈ turns, turn.approver? = some member) ∨
    Over s.history address ∨ .approved address member ∈ s.history

/-- Others cannot take back an approval, nor keep a member from giving one, except by
executing or closing the proposal. -/
theorem Approving.others {turns : List Turn} {s' : State}
    (h : Approving env c address t m quorum turns s) (hothers : Others env s s') :
    Approving env c address t m quorum turns s' := by
  have hsuffix := hothers.run.history_suffix
  refine ⟨h.known.later hothers.run hothers.idle hothers.distinct, h.scheduled,
    fun member hmem => ?_⟩
  rcases h.approved member hmem with hturn | hover | happroved
  · exact .inl hturn
  · exact .inr (.inl (hover.mono hsuffix))
  · exact .inr (.inr (hsuffix.subset happroved))

/-- The next member takes its turn: its transaction lands, or is not needed, and either way
the member need not come again. -/
theorem Approving.turn {turn : Turn} {turns : List Turn}
    (h : Approving env c address t m quorum (turn :: turns) s) (hc : c.For t)
    (hprogram : env.programId ≠ computeBudgetProgramId) :
    ∃ s', turn.Taken env address s s' ∧ Approving env c address t m quorum turns s' := by
  obtain ⟨⟨member, hmember, happroves⟩, hturns⟩ := List.forall_mem_cons.mp h.scheduled
  by_cases hneed : turn.Needless address s.history
  · refine ⟨s, .passes hneed, h.known, hturns, fun a ha => ?_⟩
    rcases h.approved a ha with ⟨turn', hmem, hturn'⟩ | hdone
    · rcases List.mem_cons.mp hmem with rfl | hmem
      · refine .inr (hneed.imp_right ?_)
        rintro ⟨b, hb, happroved⟩
        obtain rfl := Option.some.inj (hb.symm.trans hturn')
        exact happroved
      · exact .inl ⟨turn', hmem, hturn'⟩
    · exact .inr hdone
  · obtain ⟨s', hland, hhistory⟩ := h.known.approve_lands hc hprogram happroves hmember hneed
    have hsuffix := hland.reaches.history_suffix
    have hcf : DistinctAddresses env s'.history := by
      rw [hhistory]
      exact h.known.distinct
    refine ⟨s', .lands hneed hland, h.known.later hland.reaches hland.idle hcf, hturns,
      fun a ha => ?_⟩
    rcases h.approved a ha with ⟨turn', hmem, hturn'⟩ | hover | happroved
    · rcases List.mem_cons.mp hmem with rfl | hmem
      · obtain rfl := Option.some.inj (happroves.1.symm.trans hturn')
        exact .inr (.inr (hhistory ▸ List.mem_cons_self))
      · exact .inl ⟨turn', hmem, hturn'⟩
    · exact .inr (.inl (hover.mono hsuffix))
    · exact .inr (.inr (hsuffix.subset happroved))

end Quorum

namespace Example

end Example

end SolanaMultisig
