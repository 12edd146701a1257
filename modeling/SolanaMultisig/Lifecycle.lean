import SolanaMultisig.Interpreter

/-!
# The life of a proposal

The counter of a multisig counts its proposals; a proposal appears once, at the
address of its index, is only ever extended, disappears only when its payer
closes it, and its address stays empty from then on (`lifecycle_of_reachable`).
-/

namespace SolanaMultisig

open Wire EventLog

variable {env : Env}

/-! ## Counting creations -/

/-- The index of a proposal created for `multisig`; other events, and creations for other
multisigs, have none. -/
def Event.createdIndex (multisig : Pubkey) : Event → Option ℕ
  | .created _ t => if t.multisig = multisig then some t.transactionIndex.toNat else none
  | _ => none

/-- The indexes of the proposals created for `multisig`, in order: one for each
successful `create_transaction`. -/
def createdIndexes (h : List Event) (multisig : Pubkey) : List ℕ :=
  (h.filterMap (Event.createdIndex multisig)).reverse

@[simp] theorem length_createdIndexes (h : List Event) (multisig : Pubkey) :
    (createdIndexes h multisig).length = (h.filterMap (Event.createdIndex multisig)).length :=
  List.length_reverse

/-- No creation before the registration: the instruction reads the multisig account. -/
theorem LegalLog.createdIndexes_eq_nil {h : List Event} {k : Pubkey} (hl : LegalLog env h)
    (hm : multisigAt h k = none) : h.filterMap (Event.createdIndex k) = [] := by
  induction hl with
  | nil => rfl
  | @cons h e hl hok ih =>
    cases e with
    | initialized address m =>
      rw [multisigAt] at hm
      split at hm
      · cases hm
      · exact ih hm
    | created address t =>
      obtain ⟨-, -, -, -, -, m, hm', -⟩ := hok
      rw [multisigAt] at hm
      split at hm
      · rename_i heq
        subst heq
        rw [hm'] at hm
        cases hm
      · rename_i hne
        rw [List.filterMap_cons_none (by simp [Event.createdIndex, hne])]
        exact ih hm
    | approved | entered | invoked | finished | closed | provisioned => exact ih hm

/-- The counter counts the creations: it starts at zero, and each creation moves it by one.
Nothing else writes it, and a counter that would wrap makes the creation fail. -/
theorem LegalLog.index_eq_count {h : List Event} {k : Pubkey} {m : Multisig} (hl : LegalLog env h)
    (hm : multisigAt h k = some m) :
    m.transactionIndex.toNat = (h.filterMap (Event.createdIndex k)).length := by
  induction hl generalizing m with
  | nil => cases hm
  | @cons h e hl hok ih =>
    cases e with
    | initialized address m' =>
      rw [multisigAt] at hm
      split at hm
      · rename_i heq
        subst heq
        obtain rfl := Option.some.inj hm
        have hnone := LegalLog.createdIndexes_eq_nil hl hok.1
        rw [List.filterMap_cons_none rfl, hnone, hok.2.2.1]
        rfl
      · exact ih hm
    | created address t =>
      rw [multisigAt] at hm
      split at hm
      · rename_i heq
        subst heq
        obtain ⟨m', hm', rfl⟩ := Option.map_eq_some_iff.mp hm
        obtain ⟨-, -, -, -, -, m'', hm'', -, hindex⟩ := hok
        rw [hm'] at hm''
        obtain rfl := Option.some.inj hm''
        have hsome : (Event.created address t).createdIndex t.multisig =
            some t.transactionIndex.toNat := if_pos rfl
        rw [List.filterMap_cons_some hsome, List.length_cons, ← ih hm']
        exact hindex
      · rename_i hne
        rw [List.filterMap_cons_none (by simp [Event.createdIndex, hne])]
        exact ih hm
    | approved | entered | invoked | finished | closed | provisioned => exact ih hm

/-- The proposals of a multisig are numbered `1, 2, 3, …`, without gaps and without
repetition, in the order in which they were created. -/
theorem LegalLog.createdIndexes_eq_range {h : List Event} {k : Pubkey} (hl : LegalLog env h) :
    createdIndexes h k = List.range' 1 (createdIndexes h k).length := by
  rw [length_createdIndexes]
  refine Legal.numbers_eq_range ?_ hl
  intro h e hl hok i hi
  cases e with
  | created address t =>
    rw [Event.createdIndex] at hi
    split at hi
    · rename_i heq
      subst heq
      obtain rfl := Option.some.inj hi
      obtain ⟨-, -, -, -, -, m, hm, -, hindex⟩ := hok
      rw [hindex, LegalLog.index_eq_count hl hm]
    · cases hi
  | initialized | approved | entered | invoked | finished | closed | provisioned => cases hi

/-! ## Disappearing -/

/-- Only closing removes a proposal: every other event leaves it, or changes it in place. -/
theorem proposalAt_survives {h : List Event} {e : Event} {k : Pubkey} {t : VaultTransaction}
    (ht : proposalAt h k = some t) (he : ∀ payer, e ≠ .closed k payer) :
    ∃ t', proposalAt (e :: h) k = some t' := by
  by_cases hk : e.proposal? = some k
  · cases e with
    | created address r =>
      obtain rfl := Option.some.inj hk
      exact ⟨r, if_pos rfl⟩
    | approved address member =>
      obtain rfl := Option.some.inj hk
      exact ⟨_, by rw [proposalAt, if_pos rfl, ht]; rfl⟩
    | entered address multisig index =>
      obtain rfl := Option.some.inj hk
      exact ⟨_, by rw [proposalAt, if_pos rfl, ht]; rfl⟩
    | closed address payer =>
      obtain rfl := Option.some.inj hk
      exact absurd rfl (he payer)
    | invoked | finished => exact ⟨t, ht⟩
    | initialized | provisioned => cases hk
  · exact ⟨t, (proposalAt_cons hk).trans ht⟩

/-- The account at `address` was removed by a `close_transaction` that its stored
payer signed and that paid its whole balance to this payer. -/
def ClosedByPayer (env : Env) (s s' : State) (address : Pubkey) (t : VaultTransaction) : Prop :=
  ∃ (bank : Bank) (infos : List AccountInfo) (data : List UInt8) (o : Outcome),
    processInstruction env bank s.ledger infos data = .ok o ∧
    parseInstruction data = .ok (.closeTransaction t.transactionIndex) ∧
    Signed infos t.payer ∧ s'.ledger = o.ledger ∧ s'.ledger address = Account.absent ∧
    (s'.ledger t.payer).lamports = (s.ledger t.payer).lamports + (s.ledger address).lamports

/-- An instruction after which a proposal is gone closed it: of all effects only the closing
of this address removes it from the log. -/
theorem closedByPayer_of_process {s s₁ : State} {bank : Bank} {infos : List AccountInfo}
    {data : List UInt8} {o : Outcome} {address : Pubkey} {t : VaultTransaction}
    (hs₁ : Refines env (s₁.apply o))
    (hprocess : processInstruction env bank s.ledger infos data = .ok o)
    (ht : transactionAccount.Holds env s.ledger address t)
    (hlog : proposalAt s₁.history address = some t)
    (hgone : ∀ t', ¬transactionAccount.Holds env (s₁.apply o).ledger address t') :
    ClosedByPayer env s (s₁.apply o) address t := by
  obtain ⟨ix, hparse, heffect⟩ := processInstruction_effect hprocess
  have hdead : ¬∃ t', proposalAt (s₁.apply o).history address = some t' :=
    fun ⟨t', h⟩ => hgone t' ((hs₁.accounts.proposals _ _).mpr h)
  cases heffect with
  | @closed ledger' address' t' hc _ hsigned =>
    by_cases haddress : address' = address
    · subst haddress
      obtain rfl := ht.unique hc.holds
      exact ⟨bank, infos, data, _, hprocess, hparse, hsigned, rfl, hc.closed.absent,
        hc.closed.refund⟩
    · exact (hdead (proposalAt_survives hlog
        fun payer heq => haddress (Event.closed.inj heq).1)).elim
  | initialized | created | approved | entered | provisioned =>
    exact (hdead (proposalAt_survives hlog fun _ => nofun)).elim
  | viewedAddress | viewedVault => exact (hdead ⟨t, hlog⟩).elim

/-- A step after which a proposal is gone is a closing, whether it was submitted or called.
Foreign programs cannot remove an account of the program. -/
theorem closedByPayer_of_step {s s' : State} {address : Pubkey} {t : VaultTransaction}
    (hs : Refines env s) (hs' : Refines env s') (hstep : Step env s s')
    (ht : transactionAccount.Holds env s.ledger address t)
    (hgone : ∀ t', ¬transactionAccount.Holds env s'.ledger address t') :
    ClosedByPayer env s s' address t := by
  have hlog := (hs.accounts.proposals _ _).mp ht
  -- a step that logs nothing or something else leaves it there
  have hstay : s'.history = s.history ∨ (∃ e, s'.history = e :: s.history ∧
      ∀ payer, e ≠ .closed address payer) → False := by
    rintro (heq | ⟨e, heq, he⟩)
    · exact hgone t ((hs'.accounts.proposals _ _).mpr (heq ▸ hlog))
    · obtain ⟨t', ht'⟩ := proposalAt_survives hlog he
      exact hgone t' ((hs'.accounts.proposals _ _).mpr (heq ▸ ht'))
  cases hstep with
  | settle => exact (hstay (.inl rfl)).elim
  | submit _ _ hsubmit =>
    cases hsubmit with
    | process _ hprocess => exact closedByPayer_of_process hs' hprocess ht hlog hgone
    | foreign => exact (hstay (.inl rfl)).elim
  | inner hinner =>
    cases hinner with
    | call => exact (hstay (.inr ⟨_, rfl, fun _ => nofun⟩)).elim
    | callSelf _ _ _ _ hprocess => exact closedByPayer_of_process hs' hprocess ht hlog hgone
    | finish => exact (hstay (.inr ⟨_, rfl, fun _ => nofun⟩)).elim
    | foreign => exact (hstay (.inl rfl)).elim
    | callback _ _ _ hprocess => exact closedByPayer_of_process hs' hprocess ht hlog hgone
    | leave => exact (hstay (.inl rfl)).elim

/-! ## The laws -/

/-- How the proposals of a multisig come and go, from the state `s` on: what a client may
assume that remembers an index or an address. -/
structure Lifecycle (env : Env) (s : State) (multisig : Pubkey) : Prop where
  /-- the counter is the number of successful creations; it has not wrapped -/
  index_eq : ∀ m, multisigAccount.Holds env s.ledger multisig m →
    m.transactionIndex.toNat = (createdIndexes s.history multisig).length
  /-- these got the indexes `1, 2, 3, …`, each exactly once -/
  indexes_eq : createdIndexes s.history multisig =
    List.range' 1 (createdIndexes s.history multisig).length
  /-- each at the address derived from the multisig and its index -/
  address_eq : ∀ address t, Event.created address t ∈ s.history → t.multisig = multisig →
    deriveTransactionPda env multisig t.transactionIndex = some (address, t.bump)
  /-- a live proposal changes in its approvals, which are appended to, and in its
  executed flag, which is set, and in nothing else -/
  extends_of_reaches : ∀ s', Reaches env s s' → DistinctAddresses env s'.history →
    ∀ address t t', transactionAccount.Holds env s.ledger address t → t.multisig = multisig →
      transactionAccount.Holds env s'.ledger address t' → t.Extends t'
  /-- it disappears only when its payer closes it and takes the balance -/
  closedByPayer : ∀ s', Step env s s' → DistinctAddresses env s'.history →
    ∀ address t, transactionAccount.Holds env s.ledger address t → t.multisig = multisig →
      (∀ t', ¬transactionAccount.Holds env s'.ledger address t') →
        ClosedByPayer env s s' address t
  /-- and then its address stays empty -/
  vacant_of_gone : ∀ s₁ s₂, Reaches env s s₁ → Reaches env s₁ s₂ →
    DistinctAddresses env s₂.history →
    ∀ address t, transactionAccount.Holds env s.ledger address t → t.multisig = multisig →
      (∀ t', ¬transactionAccount.Holds env s₁.ledger address t') → (s₂.ledger address).Vacant

/-- **The life of proposals**, in every reachable state and from there on. All of it is read
off the log, where creations, extensions and closings are the only events that matter. -/
theorem lifecycle_of_reachable {s : State} (hs : Reachable env s)
    (hcf : DistinctAddresses env s.history) (multisig : Pubkey) : Lifecycle env s multisig := by
  have href := refines_of_reachable hs hcf
  have hlater : ∀ {s'}, Reaches env s s' → DistinctAddresses env s'.history → Refines env s' :=
    fun hrun hcf' => href.reaches hrun hcf'
  refine
    { index_eq := ?_
      indexes_eq := href.legal.createdIndexes_eq_range
      address_eq := ?_
      extends_of_reaches := ?_
      closedByPayer := ?_
      vacant_of_gone := ?_ }
  · intro m hm
    rw [length_createdIndexes]
    exact href.legal.index_eq_count ((href.accounts.multisigs _ _).mp hm)
  · rintro address t hmem rfl
    obtain ⟨later, earlier, -, -, haddress, -⟩ := href.legal.allowed_of_mem hmem
    exact haddress
  · intro s' hrun hcf' address t t' ht _ ht'
    have href' := hlater hrun hcf'
    obtain ⟨later, hlog⟩ := hrun.history_suffix
    have hl' := href'.legal
    rw [← hlog] at hl'
    refine hl'.proposalAt_extends ((href.accounts.proposals _ _).mp ht) ?_
    rw [hlog]
    exact (href'.accounts.proposals _ _).mp ht'
  · intro s' hstep hcf' address t ht _ hgone
    exact closedByPayer_of_step href (href.step hstep hcf') hstep ht hgone
  · intro s₁ s₂ hrun hrun' hcf' address t ht _ hgone
    have href₁ := hlater hrun (hcf'.of_suffix hrun'.history_suffix)
    have href₂ := href₁.reaches hrun' hcf'
    obtain ⟨r, hr, -⟩ := recordAt_of_proposalAt ((href.accounts.proposals _ _).mp ht)
    -- the record outlives the account, and a recorded address is not used again
    have hr₁ := href₁.legal.recordAt_of_suffix hrun.history_suffix hr
    have hnone : proposalAt s₁.history address = none := by
      cases hp : proposalAt s₁.history address with
      | none => rfl
      | some t' => exact absurd ((href₁.accounts.proposals _ _).mpr hp) (hgone t')
    have hr₂ := href₂.legal.recordAt_of_suffix hrun'.history_suffix hr₁
    have hnone₂ : proposalAt s₂.history address = none := by
      obtain ⟨later, hlog⟩ := hrun'.history_suffix
      have hl₂ := href₂.legal
      rw [← hlog] at hl₂ ⊢
      exact hl₂.proposalAt_none_append hr₁ hnone
    exact href₂.accounts.closed _ _ hr₂ hnone₂

/-- The laws hold at the end of the example run. -/
theorem lifecycle_of_reachable_example :
    ∃ s, Reachable Example.cluster s ∧ s.history = Example.history ∧
      Lifecycle Example.cluster s Example.multisig := by
  obtain ⟨s, hs, hhistory⟩ := Example.exists_reachable
  exact ⟨s, hs, hhistory,
    lifecycle_of_reachable hs (hhistory ▸ Example.distinctAddresses) Example.multisig⟩

end SolanaMultisig
