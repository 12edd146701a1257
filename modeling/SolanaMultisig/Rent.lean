import SolanaMultisig.Balances
import SolanaMultisig.Reentry

/-!
# Rent

An account of the program is given the rent-exempt balance when it is created
(`Funded`), and nothing takes lamports out of it but closing: in every reachable
state every account is rent-exempt (`rentExempt_of_reachable`), and who paid for a
proposal gets at least that back when it is closed (`rent_refunded`).
-/

namespace SolanaMultisig

open Wire Guard Conservation EventLog

variable {env : Env}

/-! ## What an account costs -/

/-- The balance a new account starts with: the rent-exempt one, or what was sent there
before if that is more. -/
def initBalance (env : Env) (space before : ℕ) : ℕ :=
  if before = 0 then env.minimumBalance space else max before (max (env.minimumBalance space) 1)

theorem minimumBalance_le_initBalance (space before : ℕ) :
    env.minimumBalance space ≤ initBalance env space before := by
  rw [initBalance]
  split
  · exact le_rfl
  · exact (le_max_left _ _).trans (le_max_right _ _)

theorem before_le_initBalance (space before : ℕ) : before ≤ initBalance env space before := by
  rw [initBalance]
  split
  · omega
  · exact le_max_left _ _

/-- The payer made up for what the new account at `address` lacked, and paid no more than
that. -/
structure Funded (env : Env) (ledger ledger' : Ledger) (address payer : Pubkey) : Prop where
  payer_ne : payer ≠ address
  balance_eq : (ledger' address).lamports =
    initBalance env (ledger' address).data.length (ledger address).lamports
  payer_eq : (ledger' payer).lamports + ((ledger' address).lamports - (ledger address).lamports) =
    (ledger payer).lamports

/-- Between two accounts, what one has more the other has less: conservation, for a transfer
between two. -/
theorem lamports_add_eq {spender : Pubkey → Prop} {ledger ledger' : Ledger} {a b : Pubkey}
    (h : Touches {a, b} spender ledger ledger') (hne : a ≠ b) :
    (ledger' a).lamports + (ledger' b).lamports = (ledger a).lamports + (ledger b).lamports := by
  have htotal := h.moves.total_eq
  rwa [Finset.sum_pair hne, Finset.sum_pair hne] at htotal

/-- Creating an account leaves it with the lamports asked for. -/
theorem systemCreateAccount_lamports {ledger ledger' : Ledger} {src dst owner : Pubkey}
    {lamports space : ℕ} (howner : owner ≠ systemProgramId)
    (h : systemCreateAccount ledger src dst lamports space owner = .ok ledger') :
    src ≠ dst ∧ (ledger' dst).lamports = lamports := by
  simp only [systemCreateAccount, systemTransfer_eq_ok, bind_eq_ok, require_eq_ok] at h
  obtain ⟨-, hzero, allocated, hallocate, ⟨hsystem, -⟩, -, -, rfl⟩ := h
  obtain ⟨-, -, rfl⟩ := systemAllocate_eq_ok.mp hallocate
  have hne : src ≠ dst := by
    rintro rfl
    exact howner (by simpa [systemAssign] using hsystem)
  rw [lamports_transferred _ hne]
  exact ⟨hne, by simp [systemAssign, hzero]⟩

/-- Topping up raises the balance to the required one, and leaves a larger one alone. -/
theorem topUp_lamports {ledger funded : Ledger} {field payer : Pubkey} {space : ℕ}
    (hne : payer ≠ field) (h : topUp env ledger field payer space = .ok funded) :
    (funded field).lamports = max (ledger field).lamports (max (env.minimumBalance space) 1) := by
  simp only [topUp] at h
  split at h
  · obtain ⟨-, -, -, rfl⟩ := systemTransfer_eq_ok.mp h
    rw [lamports_transferred _ hne]
    omega
  · cases h
    omega

/-- **What `init` costs**: on either path the payer pays the difference between what the
account has and what its size requires. -/
theorem initAccount_funded {ledger ledger' : Ledger} {field payer : AccountInfo} {space : ℕ}
    (h : initAccount env ledger field payer space = .ok ledger') :
    Funded env ledger ledger' field.key payer.key := by
  have hlength : (ledger' field.key).data.length = space := by
    rw [(initAccount_allocated h).data_eq, List.length_replicate]
  have htouches : Touches {payer.key, field.key} (fun _ => True) ledger ledger' :=
    initAccount_touches h (by simp) (by simp) fun _ => trivial
  obtain ⟨hne, hbalance⟩ : payer.key ≠ field.key ∧ (ledger' field.key).lamports =
      initBalance env space (ledger field.key).lamports := by
    simp only [initAccount, bind_eq_ok, require_eq_ok] at h
    obtain ⟨-, -, h⟩ := h
    rw [initBalance]
    split at h
    · rename_i hzero
      rw [if_pos hzero]
      exact systemCreateAccount_lamports env.programId_ne h
    · rename_i hzero
      simp only [bind_eq_ok, require_eq_ok, pure_eq_ok] at h
      obtain ⟨-, hne, funded, htop, allocated, hallocate, rfl⟩ := h
      obtain ⟨-, -, rfl⟩ := systemAllocate_eq_ok.mp hallocate
      rw [if_neg hzero, ← topUp_lamports hne htop]
      exact ⟨hne, by simp [systemAssign]⟩
  have htotal := lamports_add_eq htouches hne
  have hbefore : (ledger field.key).lamports ≤ initBalance env space (ledger field.key).lamports :=
    before_le_initBalance space _
  refine ⟨hne, hlength.symm ▸ hbalance, ?_⟩
  omega

/-- Writing back is not charged: neither the account written nor any other loses lamports.
-/
theorem AccountType.lamports_exit {α : Type} {T : AccountType α} {ledger ledger' : Ledger}
    {key : Pubkey} {a : α} (h : T.exit env ledger key a = .ok ledger') (k : Pubkey) :
    (ledger' k).lamports = (ledger k).lamports := by
  have htouches : Touches {key} (fun _ => False) ledger ledger' :=
    AccountType.exit_touches h (by simp)
  have hle : (ledger k).lamports ≤ (ledger' k).lamports := htouches.moves.le_of_not_spender id
  by_cases hk : k = key
  · subst hk
    have htotal := htouches.moves.total_eq
    rwa [Finset.sum_singleton, Finset.sum_singleton] at htotal
  · rw [htouches.unchanged k (by simpa using hk)]

/-- What was paid for stays so when the new record is written. -/
theorem Funded.of_exit {α : Type} {T : AccountType α} {l l₁ l₂ : Ledger}
    {address payer key : Pubkey} {a : α} (h : Funded env l l₁ address payer)
    (hexit : T.exit env l₁ key a = .ok l₂) :
    Funded env l l₂ address payer where
  payer_ne := h.payer_ne
  balance_eq := by
    rw [AccountType.lamports_exit hexit, AccountType.length_exit hexit, h.balance_eq]
  payer_eq := by
    rw [AccountType.lamports_exit hexit, AccountType.lamports_exit hexit, h.payer_eq]

/-- Every account an instruction creates was paid for: by somebody who signed, and for
a proposal by the payer it stores. -/
structure Charges (env : Env) (ledger : Ledger) (infos : List AccountInfo) (o : Outcome) :
    Prop where
  initialized : ∀ address m, o.event = some (.initialized address m) →
    ∃ payer, Signed infos payer ∧ Funded env ledger o.ledger address payer
  created : ∀ address t, o.event = some (.created address t) →
    Funded env ledger o.ledger address t.payer

theorem charges_of_processInstruction {bank : Bank} {ledger : Ledger} {infos : List AccountInfo}
    {data : List UInt8} {o : Outcome}
    (h : processInstruction env bank ledger infos data = .ok o) : Charges env ledger infos o := by
  simp only [processInstruction, bind_eq_ok] at h
  obtain ⟨instruction, -, h⟩ := h
  have heffect := ProgramInstruction.process_effect h
  cases instruction with
  | initializeMultisig =>
    obtain ⟨multisig, payer, system, remaining, rfl, hsigner, -, bump, -, allocated, hinit, -, -,
      record, -, written, hexit, rfl⟩ := InitializeMultisig.process_eq_ok.mp h
    refine ⟨?_, nofun⟩
    rintro _ _ ⟨⟩
    exact ⟨payer.key, ⟨payer, by simp, rfl, hsigner⟩, (initAccount_funded hinit).of_exit hexit⟩
  | createTransaction =>
    obtain ⟨multisig, transaction, creator, payer, system, rest, rfl, m, -, -, -, -, nextIndex, -,
      bump, -, allocated, hinit, -, -, -, ⟨m', t⟩, hbody, middle, hexit, written, hexit', rfl⟩ :=
      CreateTransaction.process_eq_ok.mp h
    obtain ⟨-, -, -, -, ht⟩ := createTransaction_eq_ok hbody
    have htp : t.payer = payer.key := by rw [ht]
    refine ⟨nofun, ?_⟩
    rintro _ _ ⟨⟩
    rw [htp]
    exact ((initAccount_funded hinit).of_exit hexit).of_exit hexit'
  | approveTransaction | executeTransaction | closeTransaction | provisionNonce | deriveAddress |
      deriveVaultAddress =>
    cases heffect
    exact ⟨nofun, nofun⟩

/-! ## Rent-exempt accounts -/

/-- Every account of the program has the balance its size requires, so that no rent is ever
collected from it and the runtime never removes it. -/
def RentExempt (env : Env) (ledger : Ledger) : Prop :=
  ∀ k, Typed env (ledger k) → env.minimumBalance (ledger k).data.length ≤ (ledger k).lamports

/-- What an account may turn into: it keeps its size and loses nothing, or it is paid for.
Each step is checked account by account. -/
theorem RentExempt.of_accounts {ledger ledger' : Ledger} (h : RentExempt env ledger)
    (hk : ∀ k, Typed env (ledger' k) →
      (Typed env (ledger k) ∧ (ledger' k).data.length = (ledger k).data.length ∧
        (ledger k).lamports ≤ (ledger' k).lamports) ∨
      env.minimumBalance (ledger' k).data.length ≤ (ledger' k).lamports) :
    RentExempt env ledger' := by
  intro k htyped
  rcases hk k htyped with ⟨hold, hlength, hle⟩ | hpaid
  · rw [hlength]
    exact (h k hold).trans hle
  · exact hpaid

theorem Typed.not_vacant {a : Account} (h : Typed env a) : ¬a.Vacant :=
  fun hv => env.programId_ne (h.1.symm.trans hv.1)

theorem Typed.of_sameContents {ledger ledger' : Ledger} {k : Pubkey}
    (h : Typed env (ledger' k)) (hs : SameContents ledger ledger' k) : Typed env (ledger k) := by
  rw [Typed, hs.1, hs.2] at h
  exact h

theorem not_typed_absent : ¬Typed env Account.absent :=
  fun h => h.not_vacant ⟨rfl, rfl⟩

theorem Funded.minimumBalance_le {ledger ledger' : Ledger} {address payer : Pubkey}
    (h : Funded env ledger ledger' address payer) :
    env.minimumBalance (ledger' address).data.length ≤ (ledger' address).lamports := by
  rw [h.balance_eq]
  exact minimumBalance_le_initBalance _ _

/-- An instruction takes nothing out of an account of the program that it does not close: a
payer must be a plain account. -/
theorem lamports_le_of_process {bank : Bank} {ledger : Ledger} {infos : List AccountInfo}
    {data : List UInt8} {o : Outcome} {k : Pubkey}
    (h : processInstruction env bank ledger infos data = .ok o) (htyped : Typed env (ledger k))
    (hopen : ∀ payer, o.event ≠ some (.closed k payer)) :
    (ledger k).lamports ≤ (o.ledger k).lamports := by
  refine (touches_of_processInstruction h).moves.le_of_not_spender ?_
  rintro (⟨hvacant, -⟩ | ⟨payer, hclosed⟩)
  · exact htyped.not_vacant hvacant
  · exact hopen payer hclosed

/-- **An instruction leaves all accounts rent-exempt**: new ones are paid for, and old ones
keep their size and their lamports. -/
theorem RentExempt.process {bank : Bank} {ledger : Ledger} {infos : List AccountInfo}
    {data : List UInt8} {o : Outcome} (hr : RentExempt env ledger)
    (h : processInstruction env bank ledger infos data = .ok o) : RentExempt env o.ledger := by
  have hcharges := charges_of_processInstruction h
  have hresizes := processInstruction_resizes h
  have hle := fun k => lamports_le_of_process (k := k) h
  obtain ⟨_, -, heffect⟩ := processInstruction_effect h
  refine hr.of_accounts fun k htyped => ?_
  cases heffect with
  | @initialized ledger' address m _ hi _ =>
    by_cases hk : k = address
    · subst hk
      obtain ⟨payer, -, hfunded⟩ := hcharges.initialized k m rfl
      exact .inr hfunded.minimumBalance_le
    · have hsame := hi.others k hk
      have hold := htyped.of_sameContents hsame
      exact .inl ⟨hold, congrArg List.length hsame.2, hle k hold nofun⟩
  | @created ledger' address m t hc _ _ _ =>
    by_cases hk : k = address
    · subst hk
      exact .inr (hcharges.created k t rfl).minimumBalance_le
    · by_cases hkm : k = t.multisig
      · subst hkm
        have hold := hc.multisig_holds.typed_multisig
        exact .inl ⟨hold, (hresizes.created address t rfl).2, hle _ hold nofun⟩
      · have hsame := hc.others k hk hkm
        have hold := htyped.of_sameContents hsame
        exact .inl ⟨hold, congrArg List.length hsame.2, hle k hold nofun⟩
  | @approved ledger' address member m t hap _ _ =>
    by_cases hk : k = address
    · subst hk
      have hold := hap.pending.holds.typed_transaction
      exact .inl ⟨hold, hresizes.approved k member rfl, hle k hold nofun⟩
    · have hold := htyped.of_sameContents (.of_eq (hap.others k hk))
      refine .inl ⟨hold, ?_, hle k hold nofun⟩
      simp only [hap.others k hk]
  | @entered ledger' x m t hen _ =>
    by_cases hk : k = x.transaction
    · subst hk
      have hold := hen.pending.holds.typed_transaction
      exact .inl ⟨hold, hresizes.entered _ _ _ rfl, hle _ hold nofun⟩
    · have hold := htyped.of_sameContents (.of_eq (hen.others k hk))
      refine .inl ⟨hold, ?_, hle k hold nofun⟩
      simp only [hen.others k hk]
  | @closed ledger' address t hc _ _ =>
    have hk : k ≠ address := by
      rintro rfl
      have habsent : ledger' k = Account.absent := hc.closed.absent
      have hgone : Typed env Account.absent := habsent ▸ htyped
      exact not_typed_absent hgone
    have hsame := hc.closed.others k hk
    have hold := htyped.of_sameContents hsame
    exact .inl ⟨hold, congrArg List.length hsame.2, hle k hold fun _ he => by
      cases he
      exact hk rfl⟩
  | @provisioned ledger' multisig nonce m hp =>
    have hk : k ≠ nonce := by
      rintro rfl
      exact env.programId_ne (htyped.1.symm.trans hp.owner_eq)
    have hsame := hp.others k hk
    have hold := htyped.of_sameContents hsame
    exact .inl ⟨hold, congrArg List.length hsame.2, hle k hold nofun⟩
  | viewedAddress | viewedVault => exact .inl ⟨htyped, rfl, le_rfl⟩

/-- Other programs can only add to them, since the program owns the accounts. -/
theorem RentExempt.foreign {infos : List AccountInfo} {ledger ledger' : Ledger}
    (h : RentExempt env ledger) (hf : ForeignStep env infos ledger ledger') :
    RentExempt env ledger' := by
  refine h.of_accounts fun k htyped => ?_
  have hold := hf.forges k htyped
  obtain ⟨hsame, hle⟩ := hf.keeps k hold
  exact .inl ⟨hold, congrArg List.length hsame.2, hle⟩

/-- **Every step leaves them rent-exempt**, the write-back of an execution included, which
changes nothing. -/
theorem RentExempt.step {s s' : State} (h : RentExempt env s.ledger) (hs : Refines env s)
    (hstep : Step env s s') : RentExempt env s'.ledger := by
  cases hstep with
  | settle _ hforeign => exact h.foreign hforeign
  | submit _ _ hsubmit =>
    cases hsubmit with
    | process _ hprocess => exact h.process hprocess
    | foreign _ => exact h
  | inner hinner =>
    cases hinner with
    | call | leave => exact h
    | callSelf _ _ _ _ hprocess | callback _ _ _ hprocess => exact h.process hprocess
    | foreign _ hforeign => exact h.foreign hforeign
    | finish hframes _ hexit =>
      obtain rfl := hs.exit_eq hframes hexit
      exact h

theorem RentExempt.reaches {s s' : State} (h : RentExempt env s.ledger) (hs : Refines env s)
    (hrun : Reaches env s s') (hcf : DistinctAddresses env s'.history) :
    RentExempt env s'.ledger := by
  induction hrun with
  | refl => exact h
  | tail hrun hstep ih =>
    have hcf' := hcf.of_suffix hstep.history_suffix
    exact (ih hcf').step (hs.reaches hrun hcf') hstep

/-! ## Deposits -/

/-- A step takes nothing out of an account of the program, unless it closes it, whoever
takes the step. -/
theorem lamports_le_of_step {s s' : State} {k : Pubkey} (hs : Refines env s)
    (hstep : Step env s s') (htyped : Typed env (s.ledger k))
    (hopen : ∀ payer, .closed k payer ∉ s'.history) :
    (s.ledger k).lamports ≤ (s'.ledger k).lamports := by
  -- an instruction that closes logs it
  have happly : ∀ {s₁ : State} {bank infos data o}, s₁.ledger = s.ledger →
      processInstruction env bank s.ledger infos data = .ok o → s' = s₁.apply o →
      (s.ledger k).lamports ≤ (s'.ledger k).lamports := by
    rintro s₁ bank infos data o - hprocess rfl
    refine lamports_le_of_process hprocess htyped fun payer he => hopen payer ?_
    exact List.mem_append_left _ (by simp [he])
  cases hstep with
  | settle _ hforeign => exact (hforeign.keeps k htyped).2
  | submit _ _ hsubmit =>
    cases hsubmit with
    | process _ hprocess => exact happly rfl hprocess rfl
    | foreign _ => exact le_rfl
  | inner hinner =>
    cases hinner with
    | call | leave => exact le_rfl
    | @callSelf e rest cpi bank o _ _ _ _ hprocess =>
      have hissued : (s.issue e rest cpi).ledger = s.ledger := rfl
      exact happly hissued hprocess rfl
    | callback _ _ _ hprocess => exact happly rfl hprocess rfl
    | foreign _ hforeign => exact (hforeign.keeps k htyped).2
    | finish hframes _ hexit =>
      obtain rfl := hs.exit_eq hframes hexit
      exact le_rfl

/-- **A proposal keeps its deposit** until it is closed: it lives on, at its full size, and
has at least what it had. -/
theorem Refines.deposit_kept {s s' : State} {k : Pubkey} {t : VaultTransaction}
    (hs : Refines env s) (hrun : Reaches env s s') (hcf : DistinctAddresses env s'.history)
    (ht : transactionAccount.Holds env s.ledger k t)
    (hopen : ∀ payer, .closed k payer ∉ s'.history) :
    (∃ t', transactionAccount.Holds env s'.ledger k t') ∧
      (s.ledger k).lamports ≤ (s'.ledger k).lamports := by
  induction hrun with
  | refl => exact ⟨⟨t, ht⟩, le_rfl⟩
  | @tail s₁ s₂ hrun hstep ih =>
    have hsuffix := hstep.history_suffix
    have hs₁ := hs.reaches hrun (hcf.of_suffix hsuffix)
    obtain ⟨⟨t₁, ht₁⟩, hle⟩ := ih (hcf.of_suffix hsuffix) fun payer hmem =>
      hopen payer (hsuffix.subset hmem)
    obtain ⟨later, hlater⟩ := hsuffix
    have hstays : ∀ payer, .closed k payer ∉ later := fun payer hmem =>
      hopen payer (hlater ▸ List.mem_append_left _ hmem)
    have hlive := proposalAt_survives_append ((hs₁.accounts.proposals _ _).mp ht₁) hstays
    rw [hlater] at hlive
    obtain ⟨t₂, ht₂⟩ := hlive
    exact ⟨⟨t₂, ((hs₁.step hstep hcf).accounts.proposals _ _).mpr ht₂⟩,
      hle.trans (lamports_le_of_step hs₁ hstep ht₁.typed_transaction hopen)⟩

/-! ## Results -/

/-- **Every account of the program is rent-exempt**, in every reachable state: no run
lets the cluster collect one. -/
theorem rentExempt_of_reachable {s : State} (hs : Reachable env s)
    (hcf : DistinctAddresses env s.history) :
    (∀ k m, multisigAccount.Holds env s.ledger k m →
      env.minimumBalance (computeMultisigSpace m.members.length) ≤ (s.ledger k).lamports) ∧
    ∀ k t, transactionAccount.Holds env s.ledger k t →
      ∃ m, multisigAccount.Holds env s.ledger t.multisig m ∧
        env.minimumBalance (computeProposalSpace t.message m.members.length) ≤
          (s.ledger k).lamports := by
  have hsized := sized_of_reachable hs hcf
  obtain ⟨genesis, hg, hrun⟩ := hs.reaches
  have hr : RentExempt env s.ledger := RentExempt.reaches
    (fun k htyped => absurd htyped (hg.untyped k)) (refines_of_genesis hg) hrun hcf
  refine ⟨fun k m hm => ?_, fun k t ht => ?_⟩
  · rw [← hsized.multisigs k m hm]
    exact hr k hm.typed_multisig
  · obtain ⟨m, hm, hlength⟩ := hsized.proposals k t ht
    exact ⟨m, hm, hlength ▸ hr k ht.typed_transaction⟩

/-- **Rent comes back.** Let `create_transaction` make the proposal at `address`, in
any state of any run, and let the run go on; when the proposal is closed, the payer
that creation charged gets all of it back, and what was added since. -/
theorem rent_refunded {s s' : State} {bank bank' : Bank} {infos infos' : List AccountInfo}
    {data data' : List UInt8} {o o' : Outcome} {address payer : Pubkey} {t : VaultTransaction}
    (hcreate : processInstruction env bank s.ledger infos data = .ok o)
    (hcreated : o.event = some (.created address t)) (hs : Reachable env (s.apply o))
    (hrun : Reaches env (s.apply o) s') (hcf : DistinctAddresses env s'.history)
    (hclose : processInstruction env bank' s'.ledger infos' data' = .ok o')
    (hclosed : o'.event = some (.closed address payer)) :
    payer = t.payer ∧ (s'.ledger payer).lamports +
      ((s.ledger payer).lamports - (o.ledger payer).lamports) ≤ (o'.ledger payer).lamports := by
  have href := refines_of_reachable hs (hcf.of_suffix hrun.history_suffix)
  have href' := href.reaches hrun hcf
  have hfunded := (charges_of_processInstruction hcreate).created address t hcreated
  have hheld : transactionAccount.Holds env o.ledger address t := by
    obtain ⟨_, -, heffect⟩ := processInstruction_effect hcreate
    cases heffect with
    | created hc =>
      cases hcreated
      exact hc.holds
    | initialized | approved | entered | closed | provisioned | viewedAddress | viewedVault =>
      cases hcreated
  obtain ⟨u, hu, hpayer, -, hrefund⟩ := closed_of_processInstruction hclose hclosed
  -- it was not closed before, since it is there
  have hlive := (href'.accounts.proposals _ _).mp hu
  have hopen : ∀ payer, .closed address payer ∉ s'.history := fun _ hmem => by
    rw [(href'.legal.proposalAt_of_closed hmem).2] at hlive
    cases hlive
  have hkept := (href.deposit_kept hrun hcf hheld hopen).2
  have hlog : proposalAt (s.apply o).history address = some t :=
    (href.accounts.proposals _ _).mp hheld
  obtain ⟨later, hlater⟩ := hrun.history_suffix
  have hl' := href'.legal
  rw [← hlater] at hl' hlive
  have hsame := (hl'.proposalAt_extends hlog hlive).same
  have hpayer' : u.payer = t.payer := by rw [hsame]
  refine ⟨hpayer.trans hpayer', ?_⟩
  rw [hpayer, hrefund, hpayer']
  have hcharged := hfunded.payer_eq
  change (o.ledger address).lamports ≤ (s'.ledger address).lamports at hkept
  omega

/-! ## In the example -/

/-- The end of the example run, where the multisig is still there. -/
theorem rentExempt_of_reachable_example : ∃ s m, Reachable Example.cluster s ∧
    multisigAccount.Holds Example.cluster s.ledger Example.multisig m ∧
    Example.cluster.minimumBalance (computeMultisigSpace m.members.length) ≤
      (s.ledger Example.multisig).lamports := by
  obtain ⟨s, hs, hhistory⟩ := Example.exists_reachable
  have hcf : DistinctAddresses Example.cluster s.history := hhistory ▸ Example.distinctAddresses
  have hm :
      multisigAt s.history Example.multisig = some ⟨[Example.alice, Example.bob], 2, 1, 255⟩ := by
    rw [hhistory]
    decide
  have hholds := ((refines_of_reachable hs hcf).accounts.multisigs _ _).mpr hm
  exact ⟨s, _, hs, hholds, (rentExempt_of_reachable hs hcf).1 _ _ hholds⟩

namespace Example

/-- The proposal of the example is created, executed and closed. -/
theorem exists_refund : ∃ (s s' : State) (o o' : Outcome) (infos infos' : List AccountInfo)
    (data data' : List UInt8), processInstruction cluster bank s.ledger infos data = .ok o ∧
    o.event = some (.created transaction record) ∧ Reachable cluster (s.apply o) ∧
    Reaches cluster (s.apply o) s' ∧ DistinctAddresses cluster s'.history ∧
    processInstruction cluster bank s'.ledger infos' data' = .ok o' ∧
    o'.event = some (.closed transaction paymaster) := by
  have hrun : ((drive cluster bank genesis [register]).bind fun s =>
      (s.exec cluster bank create).bind fun s₁ =>
        (drive cluster bank s₁ [approve alice, approve bob, execute, .call, .leave, .finish]).bind
          fun s₂ => (s₂.exec cluster bank close).map fun s₃ =>
            decide (s₁.history = .created transaction record :: s.history) &&
            decide (s₃.history = .closed transaction paymaster :: s₂.history) &&
            decide (s₂.history = history.drop 1)) = some true := by
    decide +kernel
  obtain ⟨s, hs, hrest⟩ := Option.bind_eq_some_iff.mp hrun
  obtain ⟨s₁, hs₁, hrest⟩ := Option.bind_eq_some_iff.mp hrest
  obtain ⟨s₂, hs₂, hrest⟩ := Option.bind_eq_some_iff.mp hrest
  obtain ⟨s₃, hs₃, hchecked⟩ := Option.map_eq_some_iff.mp hrest
  simp only [Bool.and_eq_true, decide_eq_true_eq] at hchecked
  obtain ⟨⟨hcreated, hclosed⟩, hhistory⟩ := hchecked
  obtain ⟨hempty, o, ho, rfl⟩ := exec_submit hs₁
  obtain ⟨-, o', ho', rfl⟩ := exec_submit hs₃
  have hkeys : ∀ c ∈ register :: create :: [approve alice, approve bob, execute, .call, .leave,
      .finish], c.KeysOnly cluster := fun c hc =>
    commands_keysOnly c (List.mem_append_left [close] hc)
  obtain ⟨hregister, hkeys⟩ := List.forall_mem_cons.mp hkeys
  obtain ⟨hcreate, hkeys⟩ := List.forall_mem_cons.mp hkeys
  have hreach : Reaches cluster genesis s :=
    drive_reaches (List.forall_mem_cons.mpr ⟨hregister, fun _ h => absurd h List.not_mem_nil⟩) hs
  refine ⟨s, s₂, o, o', _, _, _, _, ho, Option.toList_eq_singleton_iff.mp
    (List.append_cancel_right hcreated), ?_, drive_reaches hkeys hs₂, ?_, ho',
    Option.toList_eq_singleton_iff.mp (List.append_cancel_right hclosed)⟩
  · exact reachable_of_reaches genesis_genesis
      (hreach.tail (.submit hempty hcreate (.process rfl ho)))
  · rw [hhistory]
    exact distinctAddresses.of_suffix (List.drop_suffix 1 history)

end Example

/-- The paymaster of the example gets the rent back. -/
theorem rent_refunded_example : ∃ (s s' : State) (o o' : Outcome),
    o.event = some (.created Example.transaction Example.record) ∧
    o'.event = some (.closed Example.transaction Example.paymaster) ∧
    (s'.ledger Example.paymaster).lamports +
      ((s.ledger Example.paymaster).lamports - (o.ledger Example.paymaster).lamports) ≤
        (o'.ledger Example.paymaster).lamports := by
  obtain ⟨s, s', o, o', infos, infos', data, data', hcreate, hcreated, hs, hrun, hcf, hclose,
    hclosed⟩ := Example.exists_refund
  exact ⟨s, s', o, o', hcreated, hclosed,
    (rent_refunded hcreate hcreated hs hrun hcf hclose hclosed).2⟩

end SolanaMultisig
