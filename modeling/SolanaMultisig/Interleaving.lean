import SolanaMultisig.Lib.Interleaving
import SolanaMultisig.Locality

/-!
# Approvals in any order

The members sign on different devices, and their approvals of a proposal arrive
between transactions about other proposals and other multisigs. All of them succeed,
the proposal ends up with the same approvals in whatever order they arrive, and
nothing else depends on when they do (`approvals_interleave`).
-/

namespace SolanaMultisig

open Wire Guard EventLog Interleaving

variable {env : Env}

/-! ## Schedules -/

/-- What arrives while a proposal waits: an approval of it, a whole transaction of anybody,
or what the chain does by itself between transactions. -/
inductive Request where
  /-- `approve_transaction`, to be signed by `member` -/
  | approval (member : Pubkey) (infos : List AccountInfo) (data : List UInt8)
  /-- any other transaction -/
  | transaction (ixs : List OuterInstruction)
  /-- fees, rent and rewards -/
  | settle

/-- Is it one of the approvals? -/
def Request.isApproval : Request → Bool
  | .approval _ _ _ => true
  | .transaction _ => false
  | .settle => false

/-- Who approves. -/
def Request.approver? : Request → Option Pubkey
  | .approval member _ _ => some member
  | .transaction _ => none
  | .settle => none

/-- The members who approve, in this order, whatever arrives between them. -/
def approvers (schedule : List Request) : List Pubkey := schedule.filterMap Request.approver?

/-- The requests that are no approvals. -/
abbrev others (schedule : List Request) : List Request := visible Request.isApproval schedule

/-- An approval is one of the proposal `t` at `P`, with the accounts it needs. Of the other
requests nothing is asked here. -/
def Request.Proper (env : Env) (P : Pubkey) (t : VaultTransaction) : Request → Prop
  | .approval member infos data => ApproveAccounts t.multisig P member infos ∧
      KeysOnly env infos ∧ parseInstruction data = .ok (.approveTransaction t.transactionIndex)
  | .transaction _ => True
  | .settle => True

/-- Try an instruction; if it fails, nothing happens. This keeps success out of the
definition of serving, so that it has to be proved. -/
def State.attempt (env : Env) (bank : Bank) (s : State) (infos : List AccountInfo)
    (data : List UInt8) : State :=
  (s.applyResult (processInstruction env bank s.ledger infos data)).getD s

/-- Serve one request. Approvals may fail, as far as this goes; the transactions are
those that succeed, and that are not about the proposal at `P`: nothing they call
is. -/
inductive Serve (env : Env) (P : Pubkey) : State → Request → State → Prop
  | approval {s : State} {bank : Bank} {member : Pubkey} {infos : List AccountInfo}
      {data : List UInt8} : s.frames = [] → KeysOnly env infos →
        Serve env P s (.approval member infos data) (s.attempt env bank infos data)
  | transaction {s s' : State} {ixs : List OuterInstruction} : Lands env s ixs s' →
      Quiet P s s' → Serve env P s (.transaction ixs) s'
  | settle {s : State} {ledger : Ledger} : s.frames = [] → ForeignStep env [] s.ledger ledger →
      Serve env P s .settle { s with ledger := ledger }

/-! ## The log without the approvals -/

/-- Is it an approval of the proposal at `k`? -/
def Event.approves (k : Pubkey) : Event → Bool
  | .approved address _ => decide (address = k)
  | _ => false

/-- The log without the approvals of the proposal at `k`: what has to be the same whenever
the approvals arrive. -/
def withoutApprovals (k : Pubkey) (h : List Event) : List Event :=
  h.filter fun e => !e.approves k

section Log

variable {h h' : List Event} {P k : Pubkey}

theorem withoutApprovals_append :
    withoutApprovals P (h ++ h') = withoutApprovals P h ++ withoutApprovals P h' :=
  List.filter_append h h'

@[simp] theorem withoutApprovals_approved (member : Pubkey) :
    withoutApprovals P (.approved P member :: h) = withoutApprovals P h := by
  simp [withoutApprovals, Event.approves]

/-- An event is left in unless it approves. -/
theorem withoutApprovals_cons (e : Event) : withoutApprovals P (e :: h) = withoutApprovals P h ∧
      (∃ member, e = .approved P member) ∨
    withoutApprovals P (e :: h) = e :: withoutApprovals P h := by
  cases happroves : e.approves P with
  | false => exact .inr (by simp [withoutApprovals, happroves])
  | true =>
    cases e with
    | approved address member =>
      obtain rfl : address = P := of_decide_eq_true happroves
      exact .inl ⟨withoutApprovals_approved member, member, rfl⟩
    | initialized | created | entered | invoked | finished | closed | provisioned =>
      cases happroves

/-- Approvals derive no addresses, so the assumption on the hash is the same for both logs.
-/
theorem derivations_withoutApprovals :
    derivations env (withoutApprovals P h) = derivations env h := by
  induction h with
  | nil => rfl
  | cons e h ih =>
    rcases withoutApprovals_cons (h := h) (P := P) e with ⟨heq, member, rfl⟩ | heq
    · rw [heq]
      exact ih
    · rw [heq]
      cases e <;> simp only [derivations, ih]

/-- They change no multisig, -/
theorem multisigAt_withoutApprovals : multisigAt (withoutApprovals P h) k = multisigAt h k := by
  induction h with
  | nil => rfl
  | cons e h ih =>
    rcases withoutApprovals_cons (h := h) (P := P) e with ⟨heq, member, rfl⟩ | heq
    · rw [heq]
      exact ih
    · rw [heq]
      cases e <;> simp only [multisigAt, ih]

/-- and no other proposal. -/
theorem proposalAt_withoutApprovals (hk : k ≠ P) :
    proposalAt (withoutApprovals P h) k = proposalAt h k := by
  induction h with
  | nil => rfl
  | cons e h ih =>
    rcases withoutApprovals_cons (h := h) (P := P) e with ⟨heq, member, rfl⟩ | heq
    · rw [heq, ih, proposalAt, if_neg hk.symm]
    · rw [heq]
      cases e <;> simp only [proposalAt, ih]

theorem DistinctAddresses.of_withoutApprovals (hcf : DistinctAddresses env h)
    (heq : withoutApprovals P h' = withoutApprovals P h) : DistinctAddresses env h' := by
  rw [DistinctAddresses, ← derivations_withoutApprovals (P := P), heq, derivations_withoutApprovals]
  exact hcf

end Log

/-! ## The proposal, waiting -/

/-- The states differ in the account at `P` and in when it was approved, nowhere else: the
relation between two runs that serve the approvals at other moments. -/
structure Aligned (P : Pubkey) (s r : State) : Prop where
  frames_eq : r.frames = s.frames
  others_eq : ∀ k, k ≠ P → r.ledger k = s.ledger k
  log_eq : withoutApprovals P r.history = withoutApprovals P s.history

/-- Alignment is an equivalence, so two runs can be compared through any third one. -/
theorem aligned_equivalence (P : Pubkey) : Equivalence (Aligned P) where
  refl _ := ⟨rfl, fun _ _ => rfl, rfl⟩
  symm h := ⟨h.frames_eq.symm, fun k hk => (h.others_eq k hk).symm, h.log_eq.symm⟩
  trans h h' := ⟨h'.frames_eq.trans h.frames_eq,
    fun k hk => (h'.others_eq k hk).trans (h.others_eq k hk), h'.log_eq.trans h.log_eq⟩

theorem Aligned.ledger_eq {P : Pubkey} {s r : State} (h : Aligned P s r) :
    r.ledger = Function.update s.ledger P (r.ledger P) := by
  funext k
  by_cases hk : k = P
  · rw [hk, Function.update_self]
  · rw [Function.update_of_ne hk, h.others_eq k hk]

theorem Aligned.eq_swap {P : Pubkey} {s r : State} (h : Aligned P s r) :
    r = s.swap P (r.ledger P) r.history := by
  rw [State.swap, ← h.ledger_eq, ← h.frames_eq]

/-- The proposal `t` of the multisig `m` waits at `P`, with these approvals so far. The
multisig may meanwhile count other proposals. -/
structure Waiting (env : Env) (P : Pubkey) (t : VaultTransaction) (m : Multisig)
    (approvals : List Pubkey) (s : State) : Prop where
  refines : Refines env s
  sized : Sized env s.ledger
  idle : s.frames = []
  holds : transactionAccount.Holds env s.ledger P { t with approvals := approvals }
  multisig_evolves : ∃ m', multisigAccount.Holds env s.ledger t.multisig m' ∧ m.Evolves m'

section Waiting

variable {P : Pubkey} {t : VaultTransaction} {m : Multisig} {approvals : List Pubkey} {s s' : State}

/-- The members are those of the beginning, so there is room for the approvals still
missing. -/
theorem Waiting.housed (hw : Waiting env P t m approvals s) :
    ∃ m', Housed env s.ledger P { t with approvals := approvals } m' ∧ m'.members = m.members ∧
      m'.threshold = m.threshold := by
  obtain ⟨m', hm', hevolves⟩ := hw.multisig_evolves
  obtain ⟨m'', hhoused⟩ := hw.refines.housed hw.sized hw.holds
  obtain rfl : m'' = m' := hhoused.multisig_holds.unique hm'
  refine ⟨m'', hhoused, ?_, ?_⟩ <;> rw [hevolves.1]

/-- **An approval succeeds**, and the proposal waits with one approval more. -/
theorem Waiting.approve (hw : Waiting env P t m approvals s) (hexecuted : t.executed = false)
    (hcf : DistinctAddresses env s.history) {member : Pubkey} (hmember : member ∈ m.members)
    (hnew : member ∉ approvals) {infos : List AccountInfo} {data : List UInt8}
    (hproper : (Request.approval member infos data).Proper env P t) (bank : Bank) :
    ∃ ledger, processInstruction env bank s.ledger infos data =
        .ok ⟨ledger, some (.approved P member), none⟩ ∧
      Waiting env P t m (approvals ++ [member])
        (s.apply ⟨ledger, some (.approved P member), none⟩) ∧
      Aligned P s (s.apply ⟨ledger, some (.approved P member), none⟩) := by
  obtain ⟨haccounts, -, hdata⟩ := hproper
  obtain ⟨m', hhoused, hmembers, -⟩ := hw.housed
  obtain ⟨ledger, hprocess⟩ :=
    hhoused.approve_isOk hexecuted (hmembers ▸ hmember) hnew haccounts hdata bank
  obtain ⟨instruction, -, heffect⟩ := processInstruction_effect hprocess
  have hrefines := hw.refines.apply heffect hcf
  have hsized := hw.sized.apply hprocess
  refine ⟨ledger, hprocess, ?_⟩
  cases heffect with
  | @approved _ _ _ m'' t'' happroves _ _ =>
    obtain rfl : t'' = { t with approvals := approvals } :=
      happroves.pending.holds.unique hw.holds
    obtain ⟨n, hn, hevolves⟩ := hw.multisig_evolves
    have hne : t.multisig ≠ P := fun he =>
      hw.holds.not_of_ne discriminator_ne.symm (he ▸ hn)
    refine ⟨⟨hrefines, hsized, hw.idle, happroves.holds, n, ?_, hevolves⟩, rfl,
      happroves.others, withoutApprovals_approved member⟩
    -- the multisig is another account, which an approval does not write
    have hkept : ledger t.multisig = s.ledger t.multisig := happroves.others _ hne
    exact hn.of_sameContents (.of_eq hkept)

/-- A transaction about something else, or the chain itself, leaves it waiting: nothing was
logged about the proposal, so its account is as it was. -/
theorem Waiting.of_reaches (hw : Waiting env P t m approvals s) (hrun : Reaches env s s')
    (hcf : DistinctAddresses env s'.history) (hidle : s'.frames = []) (hquiet : Quiet P s s') :
    Waiting env P t m approvals s' := by
  obtain ⟨new, hlog, hquiet⟩ := hquiet
  have hs' := hw.refines.reaches hrun hcf
  refine ⟨hs', hw.sized.reaches hw.refines hrun hcf, hidle,
    hw.refines.holds_of_quiet hs' hw.holds hlog hquiet, ?_⟩
  obtain ⟨m', hm', hevolves⟩ := hw.multisig_evolves
  rw [hw.refines.accounts.multisigs] at hm'
  have hlegal := hs'.legal
  rw [hlog] at hlegal
  obtain ⟨m'', hm'', hevolves'⟩ := LegalLog.multisigAt_append hlegal hm'
  rw [← hlog, ← hs'.accounts.multisigs] at hm''
  exact ⟨m'', hm'', hevolves.trans hevolves'⟩

end Waiting

/-! ## Serving -/

/-- What is still to be served fits what the proposal waits for: in the end the members in
`total` have approved, each once. The invariant of a run of requests. -/
structure Ready (env : Env) (P : Pubkey) (t : VaultTransaction) (m : Multisig)
    (total : List Pubkey) (s : State) (schedule : List Request) : Prop where
  proper : ∀ request ∈ schedule, request.Proper env P t
  pending : t.executed = false
  nodup : total.Nodup
  members : ∀ member ∈ approvers schedule, member ∈ m.members
  waiting : ∃ approvals, approvals ++ approvers schedule = total ∧
    Waiting env P t m approvals s

section Serve

variable {P : Pubkey} {t : VaultTransaction} {m : Multisig} {total : List Pubkey}
  {s s' r : State} {request : Request} {schedule : List Request}

theorem State.attempt_of_ok {bank : Bank} {infos : List AccountInfo} {data : List UInt8}
    {o : Outcome} (h : processInstruction env bank s.ledger infos data = .ok o) :
    s.attempt env bank infos data = s.apply o := by
  rw [State.attempt, h]
  rfl

theorem Lands.idle {ixs : List OuterInstruction} (h : Lands env s ixs s') : s'.frames = [] := by
  induction h with
  | nil hidle => exact hidle
  | cons _ _ _ _ _ _ ih => exact ih

/-- A transaction or the chain is a run that says nothing about `P`. -/
theorem Serve.reaches (h : Serve env P s request s') (hother : request.isApproval = false) :
    Reaches env s s' ∧ s'.frames = [] ∧ Quiet P s s' := by
  cases h with
  | approval => cases hother
  | transaction hland hquiet => exact ⟨hland.reaches, hland.idle, hquiet⟩
  | settle hidle hf => exact ⟨.single (.settle hidle hf), hidle, [], rfl, nofun⟩

/-- The next approval succeeds, the proposal is ready for what comes after it, and the rest
of the state has not noticed. -/
theorem Ready.approve {member : Pubkey} {infos : List AccountInfo} {data : List UInt8}
    (h : Ready env P t m total s (.approval member infos data :: schedule))
    (hcf : DistinctAddresses env s.history) (bank : Bank) :
    ∃ ledger, processInstruction env bank s.ledger infos data =
        .ok ⟨ledger, some (.approved P member), none⟩ ∧
      Ready env P t m total (s.attempt env bank infos data) schedule ∧
      Aligned P s (s.attempt env bank infos data) := by
  obtain ⟨hproper, hrest⟩ := List.forall_mem_cons.mp h.proper
  obtain ⟨hmember, hmembers⟩ := List.forall_mem_cons.mp h.members
  obtain ⟨approvals, htotal, hw⟩ := h.waiting
  have hsplit : approvals ++ [member] ++ approvers schedule = total := by
    rw [← htotal, List.append_assoc]
    rfl
  have hnew : member ∉ approvals := by
    intro hmem
    have hnodup := h.nodup
    rw [← hsplit, List.nodup_append, List.nodup_append] at hnodup
    exact hnodup.1.2.2 member hmem member List.mem_cons_self rfl
  obtain ⟨ledger, hprocess, hw', haligned⟩ := hw.approve h.pending hcf hmember hnew hproper bank
  refine ⟨ledger, hprocess, ?_⟩
  rw [State.attempt_of_ok hprocess]
  exact ⟨⟨hrest, h.pending, h.nodup, hmembers, _, hsplit, hw'⟩, haligned⟩

theorem good_of_serve (h : Serve env P s request s') (hcf : DistinctAddresses env s'.history) :
    DistinctAddresses env s.history := by
  cases h with
  | @approval bank _ infos data _ _ =>
    refine hcf.of_suffix ?_
    cases hprocess : processInstruction env bank s.ledger infos data with
    | ok o =>
      rw [State.attempt_of_ok hprocess]
      exact apply_history s o
    | error e =>
      rw [State.attempt, hprocess]
      exact List.suffix_rfl
  | transaction hland => exact hcf.of_suffix hland.reaches.history_suffix
  | settle => exact hcf

/-- Serving a request makes the proposal ready for the others, whichever kind it is. -/
theorem Ready.serve (h : Ready env P t m total s (request :: schedule))
    (hserve : Serve env P s request s') (hcf : DistinctAddresses env s'.history) :
    Ready env P t m total s' schedule := by
  cases hother : request.isApproval with
  | true =>
    have hcf₀ := good_of_serve hserve hcf
    cases hserve with
    | @approval bank _ _ _ _ _ =>
      obtain ⟨-, -, hready, -⟩ := h.approve hcf₀ bank
      exact hready
    | transaction | settle => cases hother
  | false =>
    obtain ⟨hrun, hidle, hquiet⟩ := hserve.reaches hother
    have hsame : approvers (request :: schedule) = approvers schedule := by
      cases request with
      | approval => cases hother
      | transaction | settle => rfl
    obtain ⟨approvals, htotal, hw⟩ := h.waiting
    rw [hsame] at htotal
    exact ⟨fun x hx => h.proper x (List.mem_cons_of_mem _ hx), h.pending, h.nodup,
      hsame ▸ h.members, approvals, htotal, hw.of_reaches hrun hcf hidle hquiet⟩

/-- What is not an approval is served alike in aligned states, since it does not see the
account at `P` (`Lands.swap`). -/
theorem Aligned.serve (ha : Aligned P s r) (hs : Refines env s)
    (ht : transactionAccount.Holds env s.ledger P t) (hother : request.isApproval = false)
    (hcf : DistinctAddresses env s'.history) (hserve : Serve env P s request s') :
    ∃ r', Serve env P r request r' ∧ Aligned P s' r' := by
  cases hserve with
  | approval => cases hother
  | transaction hland hquiet =>
    obtain ⟨new, hlog, hnew⟩ := hquiet
    refine ⟨s'.swap P (r.ledger P) (new ++ r.history), ?_, ?_⟩
    · -- `P` gets its contents in the other state, above the log of that state
      have hswap := hland.swap (a := r.ledger P) (h := r.history) hs hcf ht hlog hnew
      rw [← ha.eq_swap] at hswap
      exact .transaction hswap ⟨new, rfl, hnew⟩
    · refine ⟨rfl, fun k hk => Function.update_of_ne hk _ _, ?_⟩
      rw [hlog, State.swap, withoutApprovals_append, withoutApprovals_append, ha.log_eq]
  | @settle ledger hidle hf =>
    refine ⟨{ r with ledger := Function.update ledger P (r.ledger P) }, ?_, ?_⟩
    · refine .settle (ha.frames_eq.trans hidle) ?_
      rw [ha.ledger_eq, Function.update_self]
      exact hf.update
    · exact ⟨ha.frames_eq, fun k hk => Function.update_of_ne hk _ _, ha.log_eq⟩

/-- **The approvals of `P` are independent of everything else**: the instance of the
abstract notion, from which the rearrangements of whole schedules follow. -/
theorem independent_approvals (P : Pubkey) (t : VaultTransaction) (m : Multisig) :
    Independent (Serve env P) Request.isApproval (fun s => DistinctAddresses env s.history)
      (fun s schedule => ∃ total, DistinctAddresses env s.history ∧
        Ready env P t m total s schedule) (Aligned P) where
  equivalence := aligned_equivalence P
  good_of_step _ _ _ := good_of_serve
  good_congr _ _ ha hcf := hcf.of_withoutApprovals ha.log_eq
  inv_step := by
    rintro s request schedule s' ⟨total, -, hready⟩ hserve hcf
    exact ⟨total, hcf, hready.serve hserve hcf⟩
  serves := by
    rintro s request schedule ⟨total, hcf, hready⟩ happroval
    cases request with
    | approval member infos data =>
      obtain ⟨-, hkeys, -⟩ := hready.proper _ List.mem_cons_self
      obtain ⟨_, -, hw⟩ := hready.waiting
      exact ⟨s.attempt env ⟨Bytes32.zero, 0⟩ infos data, .approval hw.idle hkeys⟩
    | transaction | settle => cases happroval
  unseen := by
    rintro s request schedule s' ⟨total, hcf, hready⟩ happroval hserve
    cases hserve with
    | @approval bank _ _ _ _ _ =>
      obtain ⟨-, -, -, haligned⟩ := hready.approve hcf bank
      exact haligned
    | transaction | settle => cases happroval
  mimics := by
    rintro s r request schedule schedule' s' ⟨total, -, hready⟩ - ha hother hserve hcf
    obtain ⟨_, -, hw⟩ := hready.waiting
    exact ha.serve hw.refines hw.holds hother hcf hserve

end Serve

/-! ## The check of an execution -/

/-- An execution of a waiting proposal is refused for lack of approvals just when there
are fewer than the threshold. Its accounts begin like those of an approval: the
multisig, the proposal to be written, and somebody who signed. -/
theorem Housed.execute_refused_iff {ledger : Ledger} {k executor : Pubkey} {t : VaultTransaction}
    {m : Multisig} (h : Housed env ledger k t m) (hexecuted : t.executed = false)
    {infos : List AccountInfo} (hinfos : ApproveAccounts t.multisig k executor infos)
    {data : List UInt8}
    (hdata : parseInstruction data = .ok (.executeTransaction t.transactionIndex)) (bank : Bank) :
    processInstruction env bank ledger infos data = .error (.custom .insufficientApprovals) ↔
      t.approvals.length < m.threshold.toNat := by
  cases hinfos with
  | @intro multisig transaction signer rest hmultisig htransaction hwritable hkey hsigner =>
    have hloadMultisig := AccountType.load_eq_ok.mpr h.multisig_holds
    have hload := AccountType.load_eq_ok.mpr h.holds
    have hsigned : SolanaMultisig.signer signer = .ok () := signer_eq_ok.mpr hsigner
    have hmutable : mutable transaction = .ok () := mutable_eq_ok.mpr hwritable
    have hseeds : seedsConstraint env k (transactionSeeds t.multisig t.transactionIndex) =
        .ok t.bump := seedsConstraint_eq_ok.mpr h.address_eq
    -- everything before the handler goes through
    have hprocess : ExecuteTransaction.process env ledger
        (multisig :: transaction :: signer :: rest) t.transactionIndex = (do
          let record ← executeTransaction t.multisig m t t.transactionIndex
          let written ← transactionAccount.exit env ledger k record
          let execution ← Execution.start multisig k record
            (multisig :: transaction :: signer :: rest) rest
          pure ⟨written, some (.entered k t.multisig t.transactionIndex), some execution⟩) := by
      simp only [ExecuteTransaction.process, hmultisig, htransaction, hloadMultisig, hload,
        hsigned, hseeds, hmutable]
      rfl
    have hrun : processInstruction env bank ledger
        (multisig :: transaction :: signer :: rest) data =
          ExecuteTransaction.process env ledger (multisig :: transaction :: signer :: rest)
            t.transactionIndex := by
      simp only [processInstruction, hdata]
      rfl
    rw [hrun, hprocess]
    by_cases henough : m.threshold.toNat ≤ t.approvals.length
    · have hrecord : executeTransaction t.multisig m t t.transactionIndex =
          .ok { t with executed := true } := by
        simp [executeTransaction, hexecuted, henough]
      -- nothing behind the check fails with this error
      obtain ⟨written, hexit⟩ := h.exit_isOk true h.length_approvals_le
      have hstart : Avoids (.custom .insufficientApprovals) (Execution.start multisig k
          { t with executed := true } (multisig :: transaction :: signer :: rest) rest) :=
        avoids_start_of_notMem (by decide) multisig k _ rest
      refine iff_of_false ?_ (not_lt.mpr henough)
      rw [hrecord]
      refine avoids_bind.mpr ⟨avoids_ok _ _, fun record hrecord => ?_⟩
      obtain rfl := Except.ok.inj hrecord
      refine avoids_bind.mpr ⟨avoids_of_isOk ⟨written, hexit⟩, fun _ _ => ?_⟩
      exact avoids_bind.mpr ⟨hstart, fun _ _ => avoids_pure _ _⟩
    · refine iff_of_true ?_ (not_le.mp henough)
      have hrecord : executeTransaction t.multisig m t t.transactionIndex =
          .error (.custom .insufficientApprovals) := by
        simp only [executeTransaction, hexecuted, require, henough]
        rfl
      rw [hrecord]
      rfl

/-! ## The law -/

/-- What becomes of the proposal `t` at `P`, of the multisig `m`, when the requests of
`schedule` are served from `s` to `s'`: success, the result, and what else does not depend
on the order. -/
structure ApprovalsInterleave (env : Env) (P : Pubkey) (t : VaultTransaction) (m : Multisig)
    (s : State) (schedule : List Request) (s' : State) : Prop where
  /-- every approval succeeds when its turn comes -/
  succeeds : ∀ before member infos data after s₁,
    schedule = before ++ .approval member infos data :: after →
    Run (Serve env P) s before s₁ →
    Run (Serve env P) s₁ (.approval member infos data :: after) s' →
      ∀ bank, ∃ ledger, processInstruction env bank s₁.ledger infos data =
        .ok ⟨ledger, some (.approved P member), none⟩
  /-- in the end all of them are there, and nothing else changed -/
  holds : transactionAccount.Holds env s'.ledger P
    { t with approvals := t.approvals ++ approvers schedule }
  /-- an execution is refused for lack of approvals just when the members who approved
  are fewer than the threshold -/
  refused_iff : ∀ executor infos data, ApproveAccounts t.multisig P executor infos →
    parseInstruction data = .ok (.executeTransaction t.transactionIndex) → ∀ bank,
      (processInstruction env bank s'.ledger infos data =
          .error (.custom .insufficientApprovals) ↔
        (t.approvals.toFinset ∪ (approvers schedule).toFinset).card < m.threshold.toNat)
  /-- whenever the same members approve, among whatever other requests, they are the
  approvals in the end -/
  perm : ∀ schedule' s'', (∀ request ∈ schedule', request.Proper env P t) →
    (approvers schedule').Perm (approvers schedule) → Run (Serve env P) s schedule' s'' →
    DistinctAddresses env s''.history →
      ∃ approvals, approvals.Perm (t.approvals ++ approvers schedule) ∧
        transactionAccount.Holds env s''.ledger P { t with approvals := approvals }
  /-- the other requests can be served with the approvals at any other moments, and to
  the same effect on all other accounts -/
  rearranged : ∀ schedule', (∀ request ∈ schedule', request.Proper env P t) →
    (approvers schedule').Perm (approvers schedule) → others schedule' = others schedule →
      ∃ s'', Run (Serve env P) s schedule' s'' ∧ DistinctAddresses env s''.history ∧
        withoutApprovals P s''.history = withoutApprovals P s'.history ∧
        ∀ k, k ≠ P → s''.ledger k = s'.ledger k
  /-- in every run in which the rest of the log is the same, the other proposals and the
  multisigs are -/
  same : ∀ schedule' s'', Run (Serve env P) s schedule' s'' → DistinctAddresses env s''.history →
    (∀ request ∈ schedule', request.Proper env P t) →
    (approvers schedule').Perm (approvers schedule) →
    withoutApprovals P s''.history = withoutApprovals P s'.history → ∀ k, k ≠ P →
      (∀ u, transactionAccount.Holds env s''.ledger k u ↔
        transactionAccount.Holds env s'.ledger k u) ∧
      ∀ n, multisigAccount.Holds env s''.ledger k n ↔ multisigAccount.Holds env s'.ledger k n

section Law

variable {P : Pubkey} {t : VaultTransaction} {m : Multisig} {total : List Pubkey}
  {s s' : State} {schedule rest : List Request}

theorem Ready.run (hready : Ready env P t m total s (schedule ++ rest))
    (hrun : Run (Serve env P) s schedule s') (hcf : DistinctAddresses env s'.history) :
    Ready env P t m total s' rest :=
  hrun.invariant (fun s => DistinctAddresses env s.history) (fun _ _ _ => good_of_serve)
    (fun _ _ _ _ h => h.serve) hcf hready

/-- When everything is served, all have approved: the run lemma of `Ready`, at the end. -/
theorem Ready.waiting_total (hready : Ready env P t m total s schedule)
    (hrun : Run (Serve env P) s schedule s') (hcf : DistinctAddresses env s'.history) :
    Waiting env P t m total s' := by
  rw [← List.append_nil schedule] at hready
  obtain ⟨approvals, htotal, hw⟩ := (hready.run hrun hcf).waiting
  obtain rfl : approvals = total := (List.append_nil approvals).symm.trans htotal
  exact hw

/-- **Approvals of a proposal succeed in any order, between any other transactions, with the
same result.** An approval reads only the proposal and the configuration of its multisig,
and nobody else's transaction changes either; so the members' devices need not coordinate.
-/
theorem approvals_interleave (hs : Reachable env s) (hidle : s.frames = [])
    (ht : transactionAccount.Holds env s.ledger P t) (hexecuted : t.executed = false)
    (hm : multisigAccount.Holds env s.ledger t.multisig m)
    (hproper : ∀ request ∈ schedule, request.Proper env P t)
    (hnodup : (approvers schedule).Nodup)
    (hmembers : ∀ member ∈ approvers schedule, member ∈ m.members ∧ member ∉ t.approvals)
    (hrun : Run (Serve env P) s schedule s') (hcf : DistinctAddresses env s'.history) :
    ApprovalsInterleave env P t m s schedule s' := by
  have hcf₀ : DistinctAddresses env s.history :=
    (independent_approvals P t m).good_of_run hrun hcf
  have hrefines := refines_of_reachable hs hcf₀
  have hw : Waiting env P t m t.approvals s :=
    ⟨hrefines, sized_of_reachable hs hcf₀, hidle, ht, m, hm, .refl m⟩
  obtain ⟨hnodup₀, -⟩ := LegalLog.approvals_valid hrefines.legal
    ((hrefines.accounts.proposals P t).mp ht)
  -- any order of the same approvals is ready to be served
  have hready : ∀ schedule', (∀ request ∈ schedule', request.Proper env P t) →
      (approvers schedule').Perm (approvers schedule) →
        Ready env P t m (t.approvals ++ approvers schedule') s schedule' := by
    intro schedule' hproper' hperm
    refine ⟨hproper', hexecuted, ?_, fun x hx => (hmembers x (hperm.subset hx)).1, _, rfl, hw⟩
    refine List.nodup_append.mpr ⟨hnodup₀, hperm.nodup_iff.mpr hnodup, fun x hx y hy hxy => ?_⟩
    exact (hmembers y (hperm.subset hy)).2 (hxy ▸ hx)
  have hend := (hready schedule hproper (.refl _)).waiting_total hrun hcf
  refine
    { succeeds := ?_
      holds := hend.holds
      refused_iff := ?_
      perm := ?_
      rearranged := ?_
      same := ?_ }
  · rintro before member infos data after s₁ rfl hbefore hafter bank
    have hcf₁ : DistinctAddresses env s₁.history :=
      (independent_approvals P t m).good_of_run hafter hcf
    obtain ⟨ledger, hprocess, -⟩ :=
      ((hready _ hproper (.refl _)).run hbefore hcf₁).approve hcf₁ bank
    exact ⟨ledger, hprocess⟩
  · intro executor infos data haccounts hdata bank
    obtain ⟨m', hhoused, -, hthreshold⟩ := hend.housed
    rw [hhoused.execute_refused_iff hexecuted haccounts hdata bank, hthreshold,
      ← List.toFinset_append, List.toFinset_card_of_nodup (hready _ hproper (.refl _)).nodup]
  · intro schedule' s'' hproper' hperm hrun' hcf'
    exact ⟨_, hperm.append_left t.approvals,
      ((hready _ hproper' hperm).waiting_total hrun' hcf').holds⟩
  · intro schedule' hproper' hperm hothers
    obtain ⟨s'', hrun', ha⟩ := (independent_approvals P t m).rearrange hrun hcf
      ⟨_, hcf₀, hready _ hproper (.refl _)⟩ ⟨_, hcf₀, hready _ hproper' hperm⟩
      ((aligned_equivalence P).refl s) hothers
    exact ⟨s'', hrun', hcf.of_withoutApprovals ha.log_eq, ha.log_eq, ha.others_eq⟩
  · intro schedule' s'' hrun' hcf' hproper' hperm hlog k hk
    have hend' := (hready _ hproper' hperm).waiting_total hrun' hcf'
    refine ⟨fun u => ?_, fun n => ?_⟩
    · rw [hend'.refines.accounts.proposals, hend.refines.accounts.proposals,
        ← proposalAt_withoutApprovals hk, hlog, proposalAt_withoutApprovals hk]
    · rw [hend'.refines.accounts.multisigs, hend.refines.accounts.multisigs,
        ← multisigAt_withoutApprovals (P := P), hlog, multisigAt_withoutApprovals]

end Law

/-! ## An example -/

namespace Example

/-- `bob` approves while another multisig is registered and used. -/
def interleaved : List Request :=
  [.transaction ([registerJoint].filterMap (Command.outer? cluster)),
    .approval bob [⟨multisig, false, false⟩, ⟨transaction, false, true⟩, ⟨bob, true, false⟩]
      (approveTransactionTag ++ leBytes 8 1),
    .transaction ([proposeJoint jointFirst].filterMap (Command.outer? cluster))]

/-- One event was added, and it is not about the proposal. -/
def quietly (s s' : State) : Bool :=
  decide (s'.history = s'.history.take 1 ++ s.history ∧
    ∀ e ∈ s'.history.take 1, e.proposal? ≠ some transaction)

theorem quiet_of_quietly {s s' : State} (h : quietly s s' = true) : Quiet transaction s s' :=
  ⟨_, of_decide_eq_true h⟩

/-- Submitting one instruction is a transaction, and it is quiet if it logs nothing about
the proposal. -/
theorem serve_of_drive {s s' : State} {infos : List AccountInfo} {data : List UInt8}
    (hkeys : KeysOnly cluster infos) (hrun : drive cluster bank s [.submit infos data] = some s')
    (hidle : s'.frames = []) (hquiet : quietly s s' = true) :
    Serve cluster transaction s
      (.transaction ([.submit infos data].filterMap (Command.outer? cluster))) s' := by
  obtain ⟨hframes, o, ho, hrest⟩ := drive_submit hrun
  obtain rfl : s.apply o = s' := Option.some.inj hrest
  exact .transaction (.cons hframes hkeys (.process rfl ho) .refl hidle (.nil hidle))
    (quiet_of_quietly hquiet)

theorem exists_interleaved : ∃ s s', Reachable cluster s ∧ s.frames = [] ∧
    s.history = history.drop 5 ∧ Run (Serve cluster transaction) s interleaved s' ∧
    DistinctAddresses cluster s'.history := by
  have hchecked : ((drive cluster bank genesis [register, create, approve alice]).bind fun s =>
      (drive cluster bank s [registerJoint]).bind fun s₁ =>
        (drive cluster bank s₁ [approve bob]).bind fun s₂ =>
          (drive cluster bank s₂ [proposeJoint jointFirst]).map fun s₃ =>
            (s₁.frames.isEmpty && s₃.frames.isEmpty && quietly s s₁ && quietly s₂ s₃ &&
              decide (DistinctAddresses cluster s₃.history))) = some true := by
    decide +kernel
  obtain ⟨s, hs, hchecked⟩ := Option.bind_eq_some_iff.mp hchecked
  obtain ⟨s₁, hs₁, hchecked⟩ := Option.bind_eq_some_iff.mp hchecked
  obtain ⟨s₂, hs₂, hchecked⟩ := Option.bind_eq_some_iff.mp hchecked
  obtain ⟨s₃, hs₃, hchecked⟩ := Option.map_eq_some_iff.mp hchecked
  simp only [Bool.and_eq_true, List.isEmpty_iff, decide_eq_true_eq] at hchecked
  obtain ⟨⟨⟨⟨hidle₁, hidle₃⟩, hquiet₁⟩, hquiet₃⟩, hdistinct⟩ := hchecked
  obtain ⟨s₀, hs₀, hidle, hhistory⟩ := exists_drive_pending
  obtain rfl : s = s₀ := Option.some.inj (hs.symm.trans hs₀)
  have hkeys : ∀ c ∈ [register, create, approve alice], c.KeysOnly cluster := fun c hc =>
    commands_keysOnly c (List.mem_of_mem_take (i := 3) hc)
  refine ⟨s, s₃, reachable_of_reaches genesis_genesis (drive_reaches hkeys hs), hidle, hhistory,
    .cons (serve_of_drive (keysOnly (by decide)) hs₁ hidle₁ hquiet₁) (.cons ?_
      (.cons (serve_of_drive (keysOnly (by decide)) hs₃ hidle₃ hquiet₃) .nil)), hdistinct⟩
  obtain ⟨hframes, o, ho, hrest⟩ := drive_submit hs₂
  obtain rfl : s₁.apply o = s₂ := Option.some.inj hrest
  rw [← State.attempt_of_ok ho]
  exact .approval hframes (keysOnly (by decide))

end Example

/-- The second approval of the example, in between. -/
theorem approvals_interleave_example : ∃ s s', Reachable Example.cluster s ∧
    ApprovalsInterleave Example.cluster Example.transaction
      { Example.record with approvals := [Example.alice] }
      ⟨[Example.alice, Example.bob], 2, 1, 255⟩ s Example.interleaved s' := by
  obtain ⟨s, s', hs, hidle, hhistory, hrun, hcf⟩ := Example.exists_interleaved
  have hrefines := refines_of_reachable hs (hhistory ▸ Example.distinctAddresses_pending)
  refine ⟨s, s', hs,
    approvals_interleave hs hidle ?_ rfl ?_ ?_ (List.nodup_singleton _) ?_ hrun hcf⟩
  · rw [hrefines.accounts.proposals, hhistory]
    rfl
  · rw [hrefines.accounts.multisigs, hhistory]
    rfl
  · simp only [Example.interleaved, List.forall_mem_cons, List.not_mem_nil, IsEmpty.forall_iff,
      implies_true, and_true]
    refine ⟨trivial, ⟨.intro rfl rfl rfl rfl rfl, Example.keysOnly (by decide), ?_⟩, trivial⟩
    decide
  · decide

end SolanaMultisig
