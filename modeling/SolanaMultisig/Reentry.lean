import SolanaMultisig.Allocation
import SolanaMultisig.Lifecycle

/-!
# Nested calls are not lost

The calls of an execution may call the program again, to any depth, and every call
works on copies of the accounts it loaded. Still no update is lost: what the accounts
hold afterwards is what they held before, plus everything that was logged since
(`execution_loses_nothing`).
-/

namespace SolanaMultisig

open Wire EventLog

variable {env : Env}

/-! ## What a part of the log adds -/

/-- The member who approved the proposal at `k`. -/
def Event.approver (k : Pubkey) : Event → Option Pubkey
  | .approved address member => if address = k then some member else none
  | _ => none

/-- Is this the execution of the proposal at `k`? -/
def Event.enters (k : Pubkey) : Event → Bool
  | .entered address _ _ => decide (address = k)
  | _ => false

/-- The approvals of the proposal at `k`, in the order they were given; the log has the
newest first. -/
def approvalsIn (events : List Event) (k : Pubkey) : List Pubkey :=
  (events.filterMap (Event.approver k)).reverse

/-- Was the proposal at `k` executed? -/
def enteredIn (events : List Event) (k : Pubkey) : Bool := events.any (Event.enters k)

/-- How many proposals of the multisig at `k` were created? -/
def creationsIn (events : List Event) (k : Pubkey) : ℕ :=
  (events.filterMap (Event.createdIndex k)).length

/-- The proposal with these approvals and executions added: what an account must hold if no
write-back has overwritten anything. -/
def VaultTransaction.updated (t : VaultTransaction) (events : List Event) (k : Pubkey) :
    VaultTransaction :=
  { t with
    approvals := t.approvals ++ approvalsIn events k
    executed := t.executed || enteredIn events k }

section Updated

variable {events : List Event} {e : Event} {k : Pubkey} (t : VaultTransaction)

@[simp] theorem updated_nil : t.updated [] k = t := by
  simp [VaultTransaction.updated, approvalsIn, enteredIn]

/-- Events that neither approve nor execute add nothing. -/
theorem updated_cons (happrover : e.approver k = none) (henters : e.enters k = false) :
    t.updated (e :: events) k = t.updated events k := by
  simp [VaultTransaction.updated, approvalsIn, enteredIn, happrover, henters]

/-- An approval in the log is one more approval in the account, at the end. -/
theorem updated_approved (member : Pubkey) :
    t.updated (.approved k member :: events) k =
      { t.updated events k with approvals := (t.updated events k).approvals ++ [member] } := by
  simp [VaultTransaction.updated, approvalsIn, enteredIn, Event.approver, Event.enters]

theorem updated_entered (multisig : Pubkey) (index : UInt64) :
    t.updated (.entered k multisig index :: events) k =
      { t.updated events k with executed := true } := by
  simp [VaultTransaction.updated, approvalsIn, enteredIn, Event.approver, Event.enters,
    List.filterMap_cons]

/-- An event about another proposal adds nothing, so each proposal can be followed by
itself. -/
theorem updated_of_ne (hk : e.proposal? ≠ some k) :
    t.updated (e :: events) k = t.updated events k := by
  refine updated_cons t ?_ ?_
  · cases e with
    | approved address member => exact if_neg fun heq => hk (congrArg some heq)
    | initialized | created | entered | invoked | finished | closed | provisioned => rfl
  · cases e with
    | entered address => exact decide_eq_false fun heq => hk (congrArg some heq)
    | initialized | created | approved | invoked | finished | closed | provisioned => rfl

end Updated

/-! ## Proposals -/

section Proposals

variable {later earlier : List Event} {k : Pubkey}

/-- Nothing is approved before it is created: an approval needs the account to be there. -/
theorem LegalLog.not_approved_of_fresh {h : List Event} {member : Pubkey} (hl : LegalLog env h)
    (hr : recordAt h k = none) : .approved k member ∉ h := by
  intro hmem
  obtain ⟨later, earlier, rfl, t, -, ht, -⟩ := hl.allowed_of_mem hmem
  obtain ⟨r, hr', -⟩ := recordAt_of_proposalAt ht
  have hrecord : recordAt (.approved k member :: earlier) k = some r := hr'
  rw [hl.recordAt_append hrecord] at hr
  cases hr

/-- A fresh proposal has nothing added to it. -/
theorem LegalLog.updated_of_fresh {h : List Event} (hl : LegalLog env (h ++ earlier))
    (hr : recordAt (h ++ earlier) k = none) (t : VaultTransaction) : t.updated h k = t := by
  -- without a record there was nothing to approve or execute
  have happrovals : approvalsIn h k = [] := by
    rw [approvalsIn, List.reverse_eq_nil_iff, List.filterMap_eq_nil_iff]
    intro e he
    cases e with
    | approved address member =>
      by_cases hk : address = k
      · subst hk
        exact absurd (List.mem_append_left earlier he) (hl.not_approved_of_fresh hr)
      · simp [Event.approver, hk]
    | _ => rfl
  have hentered : enteredIn h k = false := by
    rw [enteredIn, List.any_eq_false]
    intro e he
    cases e with
    | entered address multisig index =>
      by_cases hk : address = k
      · subst hk
        exact absurd ⟨multisig, index, List.mem_append_left earlier he⟩ (hl.not_entered_of_fresh hr)
      · simp [Event.enters, hk]
    | _ => simp [Event.enters]
  simp [VaultTransaction.updated, happrovals, hentered]

/-- **A live proposal carries what was logged about it**: since an earlier moment, or since
it was created. The induction goes back along the log, one event at a time. -/
theorem LegalLog.proposalAt_append_eq {t' : VaultTransaction}
    (hl : LegalLog env (later ++ earlier)) (ht' : proposalAt (later ++ earlier) k = some t') :
    (∃ t, proposalAt earlier k = some t ∧ t' = t.updated later k) ∨
    ∃ t, .created k t ∈ later ∧ t' = t.updated later k := by
  induction later generalizing t' with
  | nil => exact .inl ⟨t', ht', (updated_nil t').symm⟩
  | cons e later ih =>
    rw [List.cons_append] at ht' hl
    -- the event does `f` to the proposal, and so to what was made of it
    have hlift : ∀ {t''} (f : VaultTransaction → VaultTransaction),
        proposalAt (later ++ earlier) k = some t'' → t' = f t'' →
        (∀ t : VaultTransaction, t.updated (e :: later) k = f (t.updated later k)) →
        (∃ t, proposalAt earlier k = some t ∧ t' = t.updated (e :: later) k) ∨
        ∃ t, .created k t ∈ e :: later ∧ t' = t.updated (e :: later) k := by
      rintro t'' f hp rfl hu
      rcases ih hl.tail hp with ⟨t, ht, rfl⟩ | ⟨t, ht, rfl⟩
      · exact .inl ⟨t, ht, (hu t).symm⟩
      · exact .inr ⟨t, List.mem_cons_of_mem _ ht, (hu t).symm⟩
    by_cases hk : e.proposal? = some k
    · cases e with
      | created address r =>
        obtain rfl := Option.some.inj hk
        rw [proposalAt, if_pos rfl] at ht'
        obtain rfl := Option.some.inj ht'
        refine .inr ⟨_, List.mem_cons_self, ?_⟩
        rw [updated_cons _ rfl rfl, LegalLog.updated_of_fresh hl.tail hl.head.1]
      | approved address member =>
        obtain rfl := Option.some.inj hk
        rw [proposalAt, if_pos rfl] at ht'
        obtain ⟨t'', ht'', rfl⟩ := Option.map_eq_some_iff.mp ht'
        exact hlift (fun t => { t with approvals := t.approvals ++ [member] }) ht'' rfl
          fun t => updated_approved t member
      | entered address multisig index =>
        obtain rfl := Option.some.inj hk
        rw [proposalAt, if_pos rfl] at ht'
        obtain ⟨t'', ht'', rfl⟩ := Option.map_eq_some_iff.mp ht'
        exact hlift (fun t => { t with executed := true }) ht'' rfl
          fun t => updated_entered t multisig index
      | closed address payer =>
        rw [proposalAt, if_pos (Option.some.inj hk)] at ht'
        cases ht'
      | invoked | finished => exact hlift id ht' rfl fun t => updated_cons t rfl rfl
      | initialized | provisioned => cases hk
    · rw [proposalAt_cons hk] at ht'
      exact hlift id ht' rfl fun t => updated_of_ne t hk

end Proposals

/-- A proposal that is not closed lives on. -/
theorem proposalAt_survives_append {later earlier : List Event} {k : Pubkey} {t : VaultTransaction}
    (ht : proposalAt earlier k = some t) (hopen : ∀ payer, .closed k payer ∉ later) :
    ∃ t', proposalAt (later ++ earlier) k = some t' := by
  induction later with
  | nil => exact ⟨t, ht⟩
  | cons e later ih =>
    obtain ⟨t', ht'⟩ := ih fun payer hmem => hopen payer (List.mem_cons_of_mem e hmem)
    exact proposalAt_survives ht' fun payer he => hopen payer (he ▸ List.mem_cons_self)

/-- A closed proposal is gone: it has a record, and nothing live at its address. -/
theorem LegalLog.proposalAt_of_closed {h : List Event} {k payer : Pubkey} (hl : LegalLog env h)
    (hclosed : .closed k payer ∈ h) :
    (∃ r, recordAt h k = some r) ∧ proposalAt h k = none := by
  obtain ⟨later, earlier, rfl, t, ht, -⟩ := hl.allowed_of_mem hclosed
  obtain ⟨r, hr, -⟩ := recordAt_of_proposalAt ht
  have hr' : recordAt (.closed k payer :: earlier) k = some r := hr
  exact ⟨⟨r, hl.recordAt_append hr'⟩, hl.proposalAt_none_append hr' (if_pos rfl)⟩

/-! ## Multisigs -/

/-- **A counter counts what was logged**: since an earlier moment, or since the multisig was
registered. A creation that a stale copy of the multisig had overwritten would be missing.
-/
theorem LegalLog.multisigAt_append_eq {later earlier : List Event} {k : Pubkey} {m' : Multisig}
    (hl : LegalLog env (later ++ earlier)) (hm' : multisigAt (later ++ earlier) k = some m') :
    (∃ m, multisigAt earlier k = some m ∧
      m' = { m with transactionIndex := m'.transactionIndex } ∧
      m'.transactionIndex.toNat = m.transactionIndex.toNat + creationsIn later k) ∨
    multisigAt earlier k = none ∧ m'.transactionIndex.toNat = creationsIn later k := by
  have hcount := hl.index_eq_count hm'
  rw [List.filterMap_append, List.length_append] at hcount
  cases hm : multisigAt earlier k with
  | none =>
    rw [LegalLog.createdIndexes_eq_nil hl.of_append hm, List.length_nil, Nat.add_zero] at hcount
    exact .inr ⟨rfl, hcount⟩
  | some m =>
    obtain ⟨m'', hm'', hev, -⟩ := hl.multisigAt_append hm
    obtain rfl := Option.some.inj (hm'.symm.trans hm'')
    rw [← LegalLog.index_eq_count hl.of_append hm, Nat.add_comm] at hcount
    exact .inl ⟨m, rfl, hev, hcount⟩

/-! ## Runs -/

/-- From `s` to `s'`, the accounts of the program changed by the logged events, by all of
them, and by nothing else. An update that a write-back undid would be in the log and not in
the account. -/
structure NothingLost (env : Env) (s : State) (events : List Event) (s' : State) : Prop where
  /-- every counter counts all creations -/
  counter_eq : ∀ k m', multisigAccount.Holds env s'.ledger k m' →
    (∃ m, multisigAccount.Holds env s.ledger k m ∧
      m' = { m with transactionIndex := m'.transactionIndex } ∧
      m'.transactionIndex.toNat = m.transactionIndex.toNat + creationsIn events k) ∨
    (∀ m, ¬multisigAccount.Holds env s.ledger k m) ∧
      m'.transactionIndex.toNat = creationsIn events k
  /-- multisigs stay -/
  multisig_stays : ∀ k m, multisigAccount.Holds env s.ledger k m →
    ∃ m', multisigAccount.Holds env s'.ledger k m'
  /-- every proposal carries exactly the approvals and executions it was given -/
  proposal_eq : ∀ k t', transactionAccount.Holds env s'.ledger k t' →
    (∃ t, transactionAccount.Holds env s.ledger k t ∧ t' = t.updated events k) ∨
    ∃ t, .created k t ∈ events ∧ t' = t.updated events k
  /-- proposals that were not closed are there -/
  proposal_stays : ∀ k, (∃ t, transactionAccount.Holds env s.ledger k t) ∨
      (∃ t, .created k t ∈ events) →
    (∀ payer, .closed k payer ∉ events) → ∃ t', transactionAccount.Holds env s'.ledger k t'
  /-- and those that were closed are gone, for ever -/
  closed_stays : ∀ k payer, .closed k payer ∈ events →
    ∀ s'', Reaches env s' s'' → DistinctAddresses env s''.history → (s''.ledger k).Vacant

/-- **No run loses an update**, between any two states that refine their logs: the accounts
are what the logs say, and the later log extends the earlier one. -/
theorem Refines.nothingLost {s s' : State} {events : List Event} (hs : Refines env s)
    (hs' : Refines env s') (hevents : s'.history = events ++ s.history) :
    NothingLost env s events s' := by
  have hl := hs'.legal
  rw [hevents] at hl
  refine
    { counter_eq := ?_
      multisig_stays := ?_
      proposal_eq := ?_
      proposal_stays := ?_
      closed_stays := ?_ }
  · intro k m' hm'
    have hlog := (hs'.accounts.multisigs _ _).mp hm'
    rw [hevents] at hlog
    rcases hl.multisigAt_append_eq hlog with ⟨m, hm, hcounter⟩ | ⟨hnone, hcounter⟩
    · exact .inl ⟨m, (hs.accounts.multisigs _ _).mpr hm, hcounter⟩
    · refine .inr ⟨fun m hm => ?_, hcounter⟩
      rw [(hs.accounts.multisigs _ _).mp hm] at hnone
      cases hnone
  · intro k m hm
    obtain ⟨m', hm', -⟩ := hl.multisigAt_append ((hs.accounts.multisigs _ _).mp hm)
    exact ⟨m', (hs'.accounts.multisigs _ _).mpr (hevents ▸ hm')⟩
  · intro k t' ht'
    have hlog := (hs'.accounts.proposals _ _).mp ht'
    rw [hevents] at hlog
    rcases hl.proposalAt_append_eq hlog with ⟨t, ht, he⟩ | hcreated
    · exact .inl ⟨t, (hs.accounts.proposals _ _).mpr ht, he⟩
    · exact .inr hcreated
  · intro k horigin hopen
    -- it was there before, or it was created since; either way it was not closed
    have hlive : ∃ t', proposalAt (events ++ s.history) k = some t' := by
      rcases horigin with ⟨t, ht⟩ | ⟨t, hcreated⟩
      · exact proposalAt_survives_append ((hs.accounts.proposals _ _).mp ht) hopen
      · obtain ⟨after, before, rfl⟩ := List.append_of_mem hcreated
        have hborn : proposalAt (.created k t :: (before ++ s.history)) k = some t := if_pos rfl
        rw [List.append_assoc, List.cons_append]
        exact proposalAt_survives_append hborn fun payer hmem =>
          hopen payer (List.mem_append_left _ hmem)
    obtain ⟨t', ht'⟩ := hlive
    exact ⟨t', (hs'.accounts.proposals _ _).mpr (hevents ▸ ht')⟩
  · intro k payer hclosed s'' hrun hcf
    have hs'' := hs'.reaches hrun hcf
    -- the closing stays in the log, and a closed address is not used again
    have hmem : .closed k payer ∈ s''.history := by
      refine hrun.history_suffix.subset ?_
      rw [hevents]
      exact List.mem_append_left _ hclosed
    obtain ⟨⟨r, hr⟩, hnone⟩ := LegalLog.proposalAt_of_closed hs''.legal hmem
    exact hs''.accounts.closed k r hr hnone

/-! ## Executions -/

/-- A step that enters the execution `e`: `execute_transaction` was submitted, or called
by one of the calls `below`. -/
structure Entering (env : Env) (s s₁ : State) (e : Execution) (below : List Frame) : Prop where
  step : Step env s s₁
  frames_eq : s₁.frames = .execution e :: below
  entered : ∃ multisig index calls,
    s₁.history = .entered e.transaction multisig index :: (calls ++ s.history)

/-- **The calls of an execution lose no update.** Let an execution start in a reachable
state `s`, under any calls `below`, and let it run up to a state `s₂`: when it has
returned, or at any moment before. Whatever its calls did to this multisig or others, at
any depth, the accounts in `s₂` are those of `s` changed by all that was logged since:
every creation, approval, execution and closing, its own mark included. None of the
write-backs on the way, that of `e` or of an execution inside it, changed anything. -/
theorem execution_loses_nothing {s s₁ s₂ : State} {e : Execution} {below : List Frame}
    (hs : Reachable env s) (henter : Entering env s s₁ e below)
    (hrun : Relation.ReflTransGen (Inner env) s₁ s₂) (hcf : DistinctAddresses env s₂.history) :
    (∃ events, s₂.history = events ++ s.history ∧
      (∃ multisig index, .entered e.transaction multisig index ∈ events) ∧
      NothingLost env s events s₂) ∧
    (∀ t, transactionAccount.Holds env s₂.ledger e.transaction t → t.executed = true) ∧
    ∀ s' x rest ledger, Relation.ReflTransGen (Inner env) s₁ s' →
      Relation.ReflTransGen (Inner env) s' s₂ → s'.frames = .execution x :: rest →
      transactionAccount.exit env s'.ledger x.transaction x.cached = .ok ledger →
        ledger = s'.ledger := by
  have hrun' : Reaches env s s₂ := .head henter.step (inner_run_reaches hrun)
  have href := refines_of_reachable hs (hcf.of_suffix hrun'.history_suffix)
  have href₂ := href.reaches hrun' hcf
  obtain ⟨multisig, index, calls, hentered⟩ := henter.entered
  obtain ⟨later, hlater⟩ := (inner_run_reaches hrun).history_suffix
  have hmem : .entered e.transaction multisig index ∈
      later ++ .entered e.transaction multisig index :: calls := by simp
  -- what was logged: what the callers did on the way in, the mark, and all that followed
  have hevents : s₂.history =
      (later ++ .entered e.transaction multisig index :: calls) ++ s.history := by
    rw [← hlater, hentered]
    simp
  refine ⟨⟨_, hevents, ⟨multisig, index, hmem⟩, href.nothingLost href₂ hevents⟩, ?_, ?_⟩
  · intro t ht
    have hin : Entered s₂.history e.transaction :=
      ⟨multisig, index, hevents ▸ List.mem_append_left _ hmem⟩
    exact LegalLog.executed_of_entered href₂.legal hin ((href₂.accounts.proposals _ _).mp ht)
  · intro s' x rest ledger hbefore hafter hframes hexit
    have hcf' := hcf.of_suffix (inner_run_reaches hafter).history_suffix
    have href' := href.reaches (.head henter.step (inner_run_reaches hbefore)) hcf'
    exact href'.exit_eq hframes hexit

namespace Example

/-- An execution of the first multisig lets its vault approve a proposal of the second one,
by a call of the program itself, and returns. The approval is logged while the outer copy is
held. -/
theorem exists_nested : ∃ s s₁ s₂ e, Reachable cluster s ∧ Entering cluster s s₁ e [] ∧
    Relation.ReflTransGen (Inner cluster) s₁ s₂ ∧ DistinctAddresses cluster s₂.history ∧
    s₂.frames = [] ∧ .approved jointFirst vault ∉ s.history ∧
    .approved jointFirst vault ∈ s₂.history := by
  have hrun : ((drive cluster bank genesis preparation).bind fun s =>
      (s.exec cluster bank executeApproval).bind fun s₁ =>
        (drive cluster bank s₁ [.call, .finish]).map fun s₂ =>
          decide (DistinctAddresses cluster s₂.history) && s₂.frames.isEmpty &&
          decide (s₁.history = .entered transaction multisig 1 :: s.history) &&
          decide (.approved jointFirst vault ∉ s.history ∧
            .approved jointFirst vault ∈ s₂.history)) = some true := by
    decide +kernel
  obtain ⟨s, hs, hrest⟩ := Option.bind_eq_some_iff.mp hrun
  obtain ⟨s₁, hs₁, hrest⟩ := Option.bind_eq_some_iff.mp hrest
  obtain ⟨s₂, hs₂, hchecked⟩ := Option.map_eq_some_iff.mp hrest
  simp only [Bool.and_eq_true, List.isEmpty_iff, decide_eq_true_eq] at hchecked
  obtain ⟨⟨⟨hdistinct, hend⟩, hentered⟩, hbefore, hafter⟩ := hchecked
  rcases exec_cases hs₁ with ⟨infos, data, o, hc, hempty, hprocess, rfl⟩ | ⟨hno, -⟩
  · have hkeys : KeysOnly cluster infos := by
      obtain ⟨rfl, -⟩ := Command.submit.inj hc
      exact keysOnly (by decide)
    have hevent : o.event = some (.entered transaction multisig 1) :=
      Option.toList_eq_singleton_iff.mp (List.append_cancel_right hentered)
    obtain ⟨_, -, heffect⟩ := processInstruction_effect hprocess
    obtain ⟨e, hexecution, hkey⟩ : ∃ e, o.execution = some e ∧ e.transaction = transaction := by
      cases heffect with
      | @entered _ e => exact ⟨e, rfl, (Event.entered.inj (Option.some.inj hevent)).1⟩
      | _ => cases hevent
    obtain ⟨_, hinner, -, hland⟩ := lands_of_drive (by simp [Command.KeysOnly]) hs₂ hend
    cases hland
    refine ⟨s, s.apply o, s₂, e, reachable_of_reaches genesis_genesis
      (drive_reaches preparation_keysOnly hs), ?_, hinner, hdistinct, hend, hbefore, hafter⟩
    exact
      { step := .submit hempty hkeys (.process rfl hprocess)
        frames_eq := by simp [State.apply, hexecution, hempty]
        entered := ⟨multisig, 1, [], hkey ▸ hentered⟩ }
  · exact absurd rfl (hno _ _)

end Example

/-- In this run the approval is kept. -/
theorem execution_loses_nothing_example : ∃ s s₁ s₂ e, Reachable Example.cluster s ∧
    Entering Example.cluster s s₁ e [] ∧ s₂.frames = [] ∧
    ∃ events, s₂.history = events ++ s.history ∧
      .approved Example.jointFirst Example.vault ∈ events ∧
      NothingLost Example.cluster s events s₂ := by
  obtain ⟨s, s₁, s₂, e, hs, henter, hrun, hdistinct, hend, hbefore, hafter⟩ :=
    Example.exists_nested
  obtain ⟨⟨events, hevents, -, hlost⟩, -⟩ := execution_loses_nothing hs henter hrun hdistinct
  rw [hevents] at hafter
  exact ⟨s, s₁, s₂, e, hs, henter, hend, events, hevents,
    (List.mem_append.mp hafter).resolve_right hbefore, hlost⟩

end SolanaMultisig
