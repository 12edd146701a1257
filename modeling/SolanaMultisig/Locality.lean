import SolanaMultisig.Allocation

/-!
# What does not touch an account does not see it

An instruction looks up the first few of its accounts and uses the others by address only
(`ProgramInstruction.loads`). Whatever is stored anywhere else, it succeeds with the same
outcome and leaves that account as it was (`ProgramInstruction.process_update`, one lemma
for each instruction). Two ways to know that an account is none of those loaded are used
later: it is not listed at all (`processInstruction_unlisted`), or it holds a proposal the
instruction is not about (`processInstruction_update`).

The second carries over to everything an execution calls (`Inner.swap`) and to whole
transactions (`Lands.swap`), so that what happens to one proposal and what happens to the
others can be exchanged.
-/

namespace SolanaMultisig

open Wire Guard

variable {env : Env}

/-! ## The System program and the accounts -/

section Update

variable {ledger ledger' : Ledger} {P src dst key : Pubkey} {a : Account}

/-- A transfer between two other accounts commutes with changing the one at `P`. All lemmas
of this section have this form, one for each operation that instructions are made of. -/
theorem transferred_update {lamports : ℕ} (hsrc : src ≠ P) (hdst : dst ≠ P) :
    transferred (Function.update ledger P a) src dst lamports =
      Function.update (transferred ledger src dst lamports) P a := by
  simp only [transferred, Function.update_of_ne hsrc, Function.update_comm hsrc.symm]
  rw [Function.update_of_ne hdst, Function.update_comm hdst.symm]

theorem systemTransfer_update {lamports : ℕ} (hsrc : src ≠ P) (hdst : dst ≠ P)
    (h : systemTransfer ledger src dst lamports = .ok ledger') :
    systemTransfer (Function.update ledger P a) src dst lamports =
      .ok (Function.update ledger' P a) := by
  rw [systemTransfer_eq_ok, transferred_update hsrc hdst, Function.update_of_ne hsrc,
    Function.update_of_ne hdst]
  obtain ⟨hvacant, hle, hlt, rfl⟩ := systemTransfer_eq_ok.mp h
  exact ⟨hvacant, hle, hlt, rfl⟩

theorem systemAllocate_update {space : ℕ} (hkey : key ≠ P)
    (h : systemAllocate ledger key space = .ok ledger') :
    systemAllocate (Function.update ledger P a) key space = .ok (Function.update ledger' P a) := by
  rw [systemAllocate_eq_ok, Function.update_of_ne hkey, Function.update_comm hkey.symm]
  obtain ⟨hvacant, hspace, rfl⟩ := systemAllocate_eq_ok.mp h
  exact ⟨hvacant, hspace, rfl⟩

theorem systemAssign_update {owner : Pubkey} (hkey : key ≠ P) :
    systemAssign (Function.update ledger P a) key owner =
      Function.update (systemAssign ledger key owner) P a := by
  rw [systemAssign, Function.update_of_ne hkey, Function.update_comm hkey.symm]
  rfl

/-- Creating an account does not depend on a third one. -/
theorem systemCreateAccount_update {lamports space : ℕ} {owner : Pubkey} (hsrc : src ≠ P)
    (hdst : dst ≠ P) (h : systemCreateAccount ledger src dst lamports space owner = .ok ledger') :
    systemCreateAccount (Function.update ledger P a) src dst lamports space owner =
      .ok (Function.update ledger' P a) := by
  simp only [systemCreateAccount, bind_eq_ok, require_eq_ok] at h ⊢
  obtain ⟨-, hzero, allocated, halloc, htransfer⟩ := h
  refine ⟨(), by rwa [Function.update_of_ne hdst], _, systemAllocate_update hdst halloc, ?_⟩
  rw [systemAssign_update hdst]
  exact systemTransfer_update hsrc hdst htransfer

/-- What an account holds does not depend on another one. -/
theorem AccountType.Holds.update {α : Type} {T : AccountType α} {x : α} (hkey : key ≠ P)
    (h : T.Holds env ledger key x) : T.Holds env (Function.update ledger P a) key x :=
  h.of_sameContents (.of_eq (Function.update_of_ne hkey _ _))

/-- Writing back does not depend on another account. -/
theorem exit_update {α : Type} {T : AccountType α} {x : α} (hkey : key ≠ P)
    (h : T.exit env ledger key x = .ok ledger') :
    T.exit env (Function.update ledger P a) key x = .ok (Function.update ledger' P a) := by
  simp only [AccountType.exit, Function.update_of_ne hkey, Function.update_comm hkey.symm] at h ⊢
  split at h
  · rename_i hvacant
    rw [if_pos hvacant, Except.ok.inj h]
  · rename_i hvacant
    simp only [bind_eq_ok, require_eq_ok, pure_eq_ok] at h
    obtain ⟨-, hfits, -, howner, rfl⟩ := h
    rw [if_neg hvacant]
    simp only [bind_eq_ok, require_eq_ok, pure_eq_ok]
    exact ⟨(), hfits, (), howner, trivial⟩

theorem topUp_update {payer : Pubkey} {space : ℕ} (hkey : key ≠ P) (hpayer : payer ≠ P)
    (h : topUp env ledger key payer space = .ok ledger') :
    topUp env (Function.update ledger P a) key payer space = .ok (Function.update ledger' P a) := by
  simp only [topUp, Function.update_of_ne hkey] at h ⊢
  split at h
  · rename_i hpos
    rw [if_pos hpos]
    exact systemTransfer_update hpayer hkey h
  · rename_i hpos
    rw [if_neg hpos, Except.ok.inj h]

/-- Neither path of `init` depends on a third account. -/
theorem initAccount_update {field payer : AccountInfo} {space : ℕ} (hfield : field.key ≠ P)
    (hpayer : payer.key ≠ P) (h : initAccount env ledger field payer space = .ok ledger') :
    initAccount env (Function.update ledger P a) field payer space =
      .ok (Function.update ledger' P a) := by
  simp only [initAccount, bind_eq_ok, require_eq_ok, Function.update_of_ne hfield] at h ⊢
  obtain ⟨-, hprivileges, h⟩ := h
  refine ⟨(), hprivileges, ?_⟩
  split at h
  · rename_i hzero
    rw [if_pos hzero]
    exact systemCreateAccount_update hpayer hfield h
  · rename_i hzero
    rw [if_neg hzero]
    simp only [bind_eq_ok, require_eq_ok, pure_eq_ok] at h ⊢
    obtain ⟨-, hne, funded, hfunded, allocated, halloc, rfl⟩ := h
    exact ⟨(), hne, _, topUp_update hfield hpayer hfunded, _, systemAllocate_update hfield halloc,
      systemAssign_update hfield⟩

/-- Closing an account does not depend on a third one. -/
theorem closeAccount_update {destination : Pubkey} (hkey : key ≠ P) (hdst : destination ≠ P)
    (h : closeAccount ledger key destination = .ok ledger') :
    closeAccount (Function.update ledger P a) key destination =
      .ok (Function.update ledger' P a) := by
  simp only [closeAccount, bind_eq_ok, require_eq_ok, pure_eq_ok, Function.update_of_ne hkey,
    Function.update_of_ne hdst, Function.update_comm hdst.symm,
    Function.update_comm hkey.symm] at h ⊢
  obtain ⟨-, hlt, rfl⟩ := h
  exact ⟨(), hlt, rfl⟩

/-- Creating a nonce uses the base for its address and signature only, so the account stored
there does not matter. -/
theorem createNonceAccountWithSeed_update {bank : Bank} {payer nonce base : AccountInfo}
    {seeds : List (List UInt8)} (hpayer : payer.key ≠ P) (hnonce : nonce.key ≠ P)
    (h : createNonceAccountWithSeed env bank ledger payer nonce base seeds = .ok ledger') :
    createNonceAccountWithSeed env bank (Function.update ledger P a) payer nonce base seeds =
      .ok (Function.update ledger' P a) := by
  simp only [createNonceAccountWithSeed, bind_eq_ok, require_eq_ok, pure_eq_ok] at h ⊢
  obtain ⟨signing, hsigning, -, hbase, -, hprivileges, -, haddress, created, hcreated, rfl⟩ := h
  refine ⟨signing, hsigning, (), hbase, (), hprivileges, (), haddress, _,
    systemCreateAccount_update hpayer hnonce hcreated, ?_⟩
  rw [Function.update_of_ne hnonce, Function.update_comm hnonce.symm]

end Update

/-! ## Instructions -/

/-- With another account at `P`. -/
def Outcome.update (o : Outcome) (P : Pubkey) (a : Account) : Outcome :=
  { o with ledger := Function.update o.ledger P a }

/-- The proposal an outcome is about, as its event says; registrations, nonces and views
have none. -/
def Outcome.proposal? (o : Outcome) : Option Pubkey := o.event.bind Event.proposal?

section Process

variable {ledger : Ledger} {P : Pubkey} {a : Account} {t : VaultTransaction}
  {infos : List AccountInfo} {o : Outcome}

/-- How many of the accounts it is given an instruction looks up in the ledger or has
changed. Of the accounts behind them it uses the addresses only: they are the signer who
approves or executes, the programs and sysvars, the members, and what an execution passes
on. -/
def ProgramInstruction.loads : ProgramInstruction → ℕ
  | .initializeMultisig .. => 2
  | .createTransaction .. => 4
  | .approveTransaction _ => 2
  | .executeTransaction _ => 2
  | .closeTransaction _ => 3
  | .provisionNonce => 3
  | .deriveAddress .. => 0
  | .deriveVaultAddress .. => 0

/-- `initialize_multisig` loads the account it makes and the payer's. -/
theorem InitializeMultisig.process_update {memberHash : Bytes32} {threshold memberCount : UInt8}
    (hP : ∀ info ∈ infos.take 2, info.key ≠ P)
    (h : InitializeMultisig.process env ledger infos memberHash threshold memberCount = .ok o) :
    InitializeMultisig.process env (Function.update ledger P a) infos memberHash threshold
      memberCount = .ok (o.update P a) := by
  obtain ⟨multisig, payer, system, remaining, rfl, hsigner, hsystem, bump, hfind, allocated, hinit,
    hmutable, hpayable, record, hbody, written, hexit, rfl⟩ := InitializeMultisig.process_eq_ok.mp h
  have hmultisig : multisig.key ≠ P := hP _ (by simp)
  have hpayer : payer.key ≠ P := hP _ (by simp)
  exact InitializeMultisig.process_eq_ok.mpr ⟨multisig, payer, system, remaining, rfl, hsigner,
    hsystem, bump, hfind, _, initAccount_update hmultisig hpayer hinit, hmutable, hpayable, record,
    hbody, _, exit_update hmultisig hexit, rfl⟩

/-- `create_transaction` loads the multisig, the account it makes, and, for a transfer of
rent, its payer. -/
theorem CreateTransaction.process_update {vaultIndex : UInt8} {message : TransactionMessage}
    (hP : ∀ info ∈ infos.take 4, info.key ≠ P)
    (h : CreateTransaction.process env ledger infos vaultIndex message = .ok o) :
    CreateTransaction.process env (Function.update ledger P a) infos vaultIndex message =
      .ok (o.update P a) := by
  obtain ⟨multisig, transaction, creator, payer, system, rest, rfl, m, hm, hcreator, hsigner,
    hsystem, nextIndex, hnext, bump, hfind, allocated, hinit, hmutable, hmutable', hpayable,
    records, hbody, middle, hexit, written, hexit', rfl⟩ := CreateTransaction.process_eq_ok.mp h
  have hmultisig : multisig.key ≠ P := hP _ (by simp)
  have htransaction : transaction.key ≠ P := hP _ (by simp)
  have hpayer : payer.key ≠ P := hP _ (by simp)
  exact CreateTransaction.process_eq_ok.mpr ⟨multisig, transaction, creator, payer, system, rest,
    rfl, m, hm.update hmultisig, hcreator, hsigner, hsystem, nextIndex, hnext, bump, hfind, _,
    initAccount_update htransaction hpayer hinit, hmutable, hmutable', hpayable, records, hbody, _,
    exit_update hmultisig hexit, _, exit_update htransaction hexit', rfl⟩

/-- `approve_transaction` loads the multisig and the proposal; of the member it uses the
address. -/
theorem ApproveTransaction.process_update {transactionIndex : UInt64}
    (hP : ∀ info ∈ infos.take 2, info.key ≠ P)
    (h : ApproveTransaction.process env ledger infos transactionIndex = .ok o) :
    ApproveTransaction.process env (Function.update ledger P a) infos transactionIndex =
      .ok (o.update P a) := by
  obtain ⟨multisig, transaction, member, rest, rfl, m, hm, u, hu, hsigner, hfind, hmutable, record,
    hbody, written, hexit, rfl⟩ := ApproveTransaction.process_eq_ok.mp h
  have hmultisig : multisig.key ≠ P := hP _ (by simp)
  have htransaction : transaction.key ≠ P := hP _ (by simp)
  exact ApproveTransaction.process_eq_ok.mpr ⟨multisig, transaction, member, rest, rfl, m,
    hm.update hmultisig, u, hu.update htransaction, hsigner, hfind, hmutable, record, hbody, _,
    exit_update htransaction hexit, rfl⟩

/-- `execute_transaction` loads the multisig and the proposal; up to its loop the other
accounts are compared by address only. -/
theorem ExecuteTransaction.process_update {transactionIndex : UInt64}
    (hP : ∀ info ∈ infos.take 2, info.key ≠ P)
    (h : ExecuteTransaction.process env ledger infos transactionIndex = .ok o) :
    ExecuteTransaction.process env (Function.update ledger P a) infos transactionIndex =
      .ok (o.update P a) := by
  obtain ⟨multisig, transaction, executor, remaining, rfl, m, hm, u, hu, hsigner, hfind, hmutable,
    record, hbody, written, hexit, execution, hstart, rfl⟩ := ExecuteTransaction.process_eq_ok.mp h
  have hmultisig : multisig.key ≠ P := hP _ (by simp)
  have htransaction : transaction.key ≠ P := hP _ (by simp)
  exact ExecuteTransaction.process_eq_ok.mpr ⟨multisig, transaction, executor, remaining, rfl, m,
    hm.update hmultisig, u, hu.update htransaction, hsigner, hfind, hmutable, record, hbody, _,
    exit_update htransaction hexit, execution, hstart, rfl⟩

/-- `close_transaction` loads the multisig, the proposal and the payer who is refunded. -/
theorem CloseTransaction.process_update {transactionIndex : UInt64}
    (hP : ∀ info ∈ infos.take 3, info.key ≠ P)
    (h : CloseTransaction.process env ledger infos transactionIndex = .ok o) :
    CloseTransaction.process env (Function.update ledger P a) infos transactionIndex =
      .ok (o.update P a) := by
  obtain ⟨multisig, transaction, payer, rest, rfl, ⟨m, hm⟩, u, hu, hsigner, hfind, hmutable, hpaid,
    hne, hpayable, hat, hindex, closed, hclose, rfl⟩ := CloseTransaction.process_eq_ok.mp h
  have hmultisig : multisig.key ≠ P := hP _ (by simp)
  have htransaction : transaction.key ≠ P := hP _ (by simp)
  have hpayer : payer.key ≠ P := hP _ (by simp)
  exact CloseTransaction.process_eq_ok.mpr ⟨multisig, transaction, payer, rest, rfl,
    ⟨m, hm.update hmultisig⟩, u, hu.update htransaction, hsigner, hfind, hmutable, hpaid, hne,
    hpayable, hat, hindex, _, closeAccount_update htransaction hpayer hclose, rfl⟩

/-- `provision_nonce` loads the multisig, the nonce and the payer. -/
theorem ProvisionNonce.process_update {bank : Bank} (hP : ∀ info ∈ infos.take 3, info.key ≠ P)
    (h : ProvisionNonce.process env bank ledger infos = .ok o) :
    ProvisionNonce.process env bank (Function.update ledger P a) infos = .ok (o.update P a) := by
  obtain ⟨multisig, nonce, payer, recent, rent, system, rest, rfl, m, hm, hsigner, hrent, hsystem,
    hmutable, hpayable, hrecent, created, hcreate, rfl⟩ := ProvisionNonce.process_eq_ok.mp h
  have hmultisig : multisig.key ≠ P := hP _ (by simp)
  have hnonce : nonce.key ≠ P := hP _ (by simp)
  have hpayer : payer.key ≠ P := hP _ (by simp)
  exact ProvisionNonce.process_eq_ok.mpr ⟨multisig, nonce, payer, recent, rent, system, rest, rfl,
    m, hm.update hmultisig, hsigner, hrent, hsystem, hmutable, hpayable, hrecent, _,
    createNonceAccountWithSeed_update hpayer hnonce hcreate, rfl⟩

/-- The views load nothing. -/
theorem DeriveAddress.process_update {derived : Except ProgramError Pubkey}
    (h : DeriveAddress.process ledger infos derived = .ok o) :
    DeriveAddress.process (Function.update ledger P a) infos derived = .ok (o.update P a) := by
  obtain ⟨caller, rest, rfl, hsigner, hderived, rfl⟩ := DeriveAddress.process_eq_ok.mp h
  exact DeriveAddress.process_eq_ok.mpr ⟨caller, rest, rfl, hsigner, hderived, rfl⟩

/-- **An instruction does not see the other accounts**: it does the same whatever is stored
at an address that is none of those it loads. That the instruction is not about `P`, or that
it does not even list it, are two ways to know this. -/
theorem ProgramInstruction.process_update {bank : Bank} {instruction : ProgramInstruction}
    (hP : ∀ info ∈ infos.take instruction.loads, info.key ≠ P)
    (h : instruction.process env bank ledger infos = .ok o) :
    instruction.process env bank (Function.update ledger P a) infos = .ok (o.update P a) := by
  cases instruction with
  | initializeMultisig => exact InitializeMultisig.process_update hP h
  | createTransaction => exact CreateTransaction.process_update hP h
  | approveTransaction => exact ApproveTransaction.process_update hP h
  | executeTransaction => exact ExecuteTransaction.process_update hP h
  | closeTransaction => exact CloseTransaction.process_update hP h
  | provisionNonce => exact ProvisionNonce.process_update hP h
  | deriveAddress | deriveVaultAddress => exact DeriveAddress.process_update h

/-- An instruction does not see accounts it does not list, whatever is stored there. What
the scheduler of the runtime relies on. -/
theorem processInstruction_unlisted {bank : Bank} {data : List UInt8}
    (hP : ∀ info ∈ infos, info.key ≠ P)
    (h : processInstruction env bank ledger infos data = .ok o) :
    processInstruction env bank (Function.update ledger P a) infos data = .ok (o.update P a) := by
  obtain ⟨instruction, hparse, hprocess⟩ := bind_eq_ok.mp h
  exact bind_eq_ok.mpr ⟨instruction, hparse, ProgramInstruction.process_update
    (fun info hinfo => hP info (List.mem_of_mem_take hinfo)) hprocess⟩

/-! ## Instructions about something else -/

/-- What an account can be to an instruction that loads it. None of these is a proposal the
instruction is not about. -/
inductive Loaded (env : Env) (ledger : Ledger) (o : Outcome) (info : AccountInfo) : Prop
  /-- it holds a multisig -/
  | multisig {m : Multisig} (h : multisigAccount.Holds env ledger info.key m)
  /-- it is free, and is made by the instruction -/
  | vacant (h : (ledger info.key).Vacant)
  /-- it signed: a creator or a payer -/
  | signed (h : info.isSigner = true)
  /-- it is the proposal the instruction is about -/
  | proposal (h : o.proposal? = some info.key)

/-- A proposal that did not sign, and that the instruction is not about, is elsewhere: it
holds no multisig and is not free. -/
theorem Loaded.key_ne {info : AccountInfo} (h : Loaded env ledger o info) (hinfo : info ∈ infos)
    (hP : transactionAccount.Holds env ledger P t) (hunsigned : ¬Signed infos P)
    (hquiet : o.proposal? ≠ some P) : info.key ≠ P := by
  rintro rfl
  cases h with
  | multisig hm => exact hP.not_of_ne discriminator_ne.symm hm
  | vacant hvacant => exact hP.not_vacant hvacant
  | signed hsigner => exact hunsigned ⟨info, hinfo, rfl, hsigner⟩
  | proposal hproposal => exact hquiet hproposal

/-- A new nonce account was free. -/
theorem vacant_of_createNonce {bank : Bank} {ledger' : Ledger} {payer nonce base : AccountInfo}
    {seeds : List (List UInt8)}
    (h : createNonceAccountWithSeed env bank ledger payer nonce base seeds = .ok ledger') :
    (ledger nonce.key).Vacant := by
  simp only [createNonceAccountWithSeed, bind_eq_ok] at h
  obtain ⟨-, -, -, -, -, -, -, -, created, hcreated, -⟩ := h
  exact (systemCreateAccount_allocated hcreated).vacant

/-- Each account an instruction loads is a multisig, free, a signer, or the proposal it is
about. -/
theorem ProgramInstruction.loaded {bank : Bank} {instruction : ProgramInstruction}
    (h : instruction.process env bank ledger infos = .ok o) :
    ∀ info ∈ infos.take instruction.loads, Loaded env ledger o info := by
  cases instruction with
  | initializeMultisig =>
    obtain ⟨multisig, payer, system, remaining, rfl, hsigner, -, -, -, allocated, hinit, -⟩ :=
      InitializeMultisig.process_eq_ok.mp h
    simpa [loads] using ⟨.vacant (initAccount_allocated hinit).vacant, .signed hsigner⟩
  | createTransaction =>
    obtain ⟨multisig, transaction, creator, payer, system, rest, rfl, m, hm, hcreator, hsigner, -,
      -, -, -, -, allocated, hinit, -⟩ := CreateTransaction.process_eq_ok.mp h
    simpa [loads] using ⟨.multisig hm, .vacant (initAccount_allocated hinit).vacant,
      .signed hcreator, .signed hsigner⟩
  | approveTransaction =>
    obtain ⟨multisig, transaction, member, rest, rfl, m, hm, u, hu, -, -, -, -, -, -, -, rfl⟩ :=
      ApproveTransaction.process_eq_ok.mp h
    simpa [loads] using ⟨.multisig hm, .proposal rfl⟩
  | executeTransaction =>
    obtain ⟨multisig, transaction, executor, remaining, rfl, m, hm, u, hu, -, -, -, -, -, -, -, -,
      -, rfl⟩ := ExecuteTransaction.process_eq_ok.mp h
    simpa [loads] using ⟨.multisig hm, .proposal rfl⟩
  | closeTransaction =>
    obtain ⟨multisig, transaction, payer, rest, rfl, ⟨m, hm⟩, u, hu, hsigner, -, -, -, -, -, -, -,
      -, -, rfl⟩ := CloseTransaction.process_eq_ok.mp h
    simpa [loads] using ⟨.multisig hm, .proposal rfl, .signed hsigner⟩
  | provisionNonce =>
    obtain ⟨multisig, nonce, payer, recent, rent, system, rest, rfl, m, hm, hsigner, -, -, -, -, -,
      created, hcreate, rfl⟩ := ProvisionNonce.process_eq_ok.mp h
    simpa [loads] using ⟨.multisig hm, .vacant (vacant_of_createNonce hcreate), .signed hsigner⟩
  | deriveAddress | deriveVaultAddress => simp [loads]

/-- **An instruction about something else does not see the proposal at `P`**, whatever is
stored there instead. It may well list the account, among those an execution passes on, but
it does not load it. -/
theorem processInstruction_update {bank : Bank} {data : List UInt8}
    (hP : transactionAccount.Holds env ledger P t) (hunsigned : ¬Signed infos P)
    (hquiet : o.proposal? ≠ some P) (h : processInstruction env bank ledger infos data = .ok o) :
    processInstruction env bank (Function.update ledger P a) infos data = .ok (o.update P a) := by
  obtain ⟨instruction, hparse, hprocess⟩ := bind_eq_ok.mp h
  refine bind_eq_ok.mpr ⟨instruction, hparse, ProgramInstruction.process_update ?_ hprocess⟩
  exact fun info hinfo => (ProgramInstruction.loaded hprocess info hinfo).key_ne
    (List.mem_of_mem_take hinfo) hP hunsigned hquiet

end Process

/-! ## Calls -/

/-- The state with another account at `P` and another log, for comparing two runs that
differ in nothing else. -/
def State.swap (s : State) (P : Pubkey) (a : Account) (h : List Event) : State :=
  ⟨Function.update s.ledger P a, s.frames, h⟩

/-- A foreign program, and the chain between instructions, do not depend on it either: what
they may do is said of each account by itself. -/
theorem ForeignStep.update {infos : List AccountInfo} {ledger ledger' : Ledger} {P : Pubkey}
    {a : Account} (hf : ForeignStep env infos ledger ledger') :
    ForeignStep env infos (Function.update ledger P a) (Function.update ledger' P a) where
  keeps k hk := by
    by_cases hkP : k = P
    · subst hkP
      simp [SameContents]
    · rw [Function.update_of_ne hkP] at hk
      simpa [SameContents, Function.update_of_ne hkP] using hf.keeps k hk
  forges k hk := by
    by_cases hkP : k = P
    · subst hkP
      simpa using hk
    · rw [Function.update_of_ne hkP] at hk ⊢
      exact hf.forges k hk
  vacant k hk hunsigned hvacant := by
    by_cases hkP : k = P
    · subst hkP
      simpa using hvacant
    · rw [Function.update_of_ne hkP] at hvacant ⊢
      exact hf.vacant k hk hunsigned hvacant

/-- Nothing about the proposal at `P` was logged between the two states. -/
def Quiet (P : Pubkey) (s s' : State) : Prop :=
  ∃ new, s'.history = new ++ s.history ∧ ∀ e ∈ new, e.proposal? ≠ some P

section Swap

variable {s s' : State} {P : Pubkey} {a : Account} {t : VaultTransaction} {new h : List Event}

/-- What is logged on the way is logged. -/
theorem exists_split {h₁ : List Event} (hearly : h <:+ h₁) (hlate : h₁ <:+ new ++ h) :
    ∃ new₁ new₂, h₁ = new₁ ++ h ∧ new = new₂ ++ new₁ := by
  obtain ⟨new₁, rfl⟩ := hearly
  obtain ⟨new₂, hnew⟩ := hlate
  rw [← List.append_assoc, List.append_cancel_right_eq] at hnew
  exact ⟨new₁, new₂, rfl, hnew.symm⟩

/-- The proposal at `P` stays as it is when nothing about it was logged: its account is what
the log says. -/
theorem Refines.holds_of_quiet (hs : Refines env s) (hs' : Refines env s')
    (hP : transactionAccount.Holds env s.ledger P t) (hlog : s'.history = new ++ s.history)
    (hquiet : ∀ e ∈ new, e.proposal? ≠ some P) : transactionAccount.Holds env s'.ledger P t := by
  rw [hs'.accounts.proposals, hlog, proposalAt_append hquiet, ← hs.accounts.proposals]
  exact hP

/-- A program that was called by somebody without the signature of `P` does not have it. So
no callback can pass the proposal as a payer or a creator. -/
theorem Refines.not_signed {program : Pubkey} {infos : List AccountInfo} (hs : Refines env s)
    (hcf : DistinctAddresses env s.history) (hP : transactionAccount.Holds env s.ledger P t)
    (hframe : FrameOk env s.history (.foreign program infos)) : ¬Signed infos P := by
  obtain ⟨r, hr, -⟩ := recordAt_of_proposalAt ((hs.accounts.proposals P t).mp hP)
  exact hframe.not_signed hs.legal hcf hr

/-- The address of a live proposal is one of the program's, for which no private key signs.
-/
theorem Refines.isProgramAddress (hs : Refines env s)
    (hP : transactionAccount.Holds env s.ledger P t) : IsProgramAddress env P := by
  obtain ⟨r, hr, -⟩ := recordAt_of_proposalAt ((hs.accounts.proposals P t).mp hP)
  exact LegalLog.isProgramAddress hs.legal hr

/-- What a step logged, read off both ends. -/
theorem eq_of_log {l : List Event} (hlog : l ++ h = new ++ h) : new = l :=
  (List.append_cancel_right hlog).symm

/-- The record of an instruction, found in the log. -/
theorem Outcome.proposal?_ne {o : Outcome} (hlog : o.event.toList = new)
    (hquiet : ∀ e ∈ new, e.proposal? ≠ some P) : o.proposal? ≠ some P := by
  subst hlog
  rw [Outcome.proposal?]
  cases hevent : o.event with
  | none => exact nofun
  | some e => exact hquiet e (by simp [hevent])

/-- **A step inside a call does not see the account at `P`** unless it is about `P`. -/
theorem Inner.swap (hs : Refines env s) (hcf : DistinctAddresses env s.history)
    (hP : transactionAccount.Holds env s.ledger P t) (hlog : s'.history = new ++ s.history)
    (hquiet : ∀ e ∈ new, e.proposal? ≠ some P) (hstep : Inner env s s') :
    Inner env (s.swap P a h) (s'.swap P a (new ++ h)) := by
  cases hstep with
  | @call e rest cpi hframes hcpi hprivileged hother =>
    have hnew : new = [.invoked e.transaction cpi] := eq_of_log hlog
    subst hnew
    exact .call hframes hcpi hprivileged hother
  | @callSelf e rest cpi bank o hframes hcpi hprivileged hself ho =>
    have hnew : new = o.event.toList ++ [.invoked e.transaction cpi] := by
      refine eq_of_log (h := s.history) ?_
      rw [← hlog]
      exact List.append_assoc ..
    subst hnew
    obtain ⟨r, he⟩ := hs.top hframes
    -- what an execution passes on is signed by its vault or by its callers, and not by `P`
    have hunsigned : ¬Signed cpi.calleeInfos P :=
      (hs.issue hframes hcpi).not_signed hcf hP (frameOk_callee hs.legal he hcpi)
    have ho' := processInstruction_update (a := a) hP hunsigned
      (Outcome.proposal?_ne rfl fun e he => hquiet e (List.mem_append_left _ he)) ho
    rw [List.append_assoc]
    exact .callSelf (s := s.swap P a h) hframes hcpi hprivileged hself ho'
  | @finish e rest ledger hframes hnext hexit =>
    have hnew : new = [.finished e.transaction] := eq_of_log hlog
    subst hnew
    have hne : e.transaction ≠ P := fun hkey =>
      hquiet _ List.mem_cons_self (congrArg some hkey)
    exact .finish hframes hnext (exit_update hne hexit)
  | foreign hframes hf =>
    have hnew : new = [] := eq_of_log hlog
    subst hnew
    exact .foreign hframes hf.update
  | @callback program infos callee rest bank data o hframes hreenters hsigners ho =>
    have hnew : new = o.event.toList := eq_of_log hlog
    -- nor has a foreign program the signature of a proposal
    have hunsigned : ¬Signed callee P := by
      intro hsigned
      rcases hsigners P hsigned with hinfos | hforeign
      · refine hs.not_signed hcf hP (hs.frames (.foreign program infos) ?_) hinfos
        rw [hframes]
        exact List.mem_cons_self
      · exact hforeign (hs.isProgramAddress hP)
    have ho' := processInstruction_update (a := a) hP hunsigned
      (Outcome.proposal?_ne hnew.symm hquiet) ho
    subst hnew
    exact .callback (s := s.swap P a h) hframes hreenters hsigners ho'
  | leave hframes =>
    have hnew : new = [] := eq_of_log hlog
    subst hnew
    exact .leave hframes

/-- So for everything that happens inside a call, by induction along it: the log of the
whole run tells which part each step added. -/
theorem inner_run_swap (hs : Refines env s) (hcf : DistinctAddresses env s'.history)
    (hP : transactionAccount.Holds env s.ledger P t) (hlog : s'.history = new ++ s.history)
    (hquiet : ∀ e ∈ new, e.proposal? ≠ some P) (hrun : Relation.ReflTransGen (Inner env) s s') :
    Relation.ReflTransGen (Inner env) (s.swap P a h) (s'.swap P a (new ++ h)) := by
  induction hrun using Relation.ReflTransGen.head_induction_on generalizing new h with
  | refl =>
    have hnew : new = [] := eq_of_log hlog
    subst hnew
    exact .refl
  | @head s s₁ hstep hrun ih =>
    have hlate : s₁.history <:+ s'.history := (inner_run_reaches hrun).history_suffix
    -- the events of the first step, and those after it
    obtain ⟨new₁, new₂, hlog₁, rfl⟩ := exists_split hstep.history_suffix (hlog ▸ hlate)
    have hcf₁ := hcf.of_suffix hlate
    have hs₁ := hs.inner hstep hcf₁
    have hquiet₁ : ∀ e ∈ new₁, e.proposal? ≠ some P := fun e he =>
      hquiet e (List.mem_append_right _ he)
    rw [List.append_assoc]
    refine .head (hstep.swap hs (hcf₁.of_suffix hstep.history_suffix) hP hlog₁ hquiet₁) ?_
    refine ih hs₁ (hs.holds_of_quiet hs₁ hP hlog₁ hquiet₁) ?_ fun e he =>
      hquiet e (List.mem_append_left _ he)
    rw [hlog, hlog₁, List.append_assoc]

/-! ## Transactions -/

/-- An outer instruction that is not about `P` is accepted with another account there as
well. -/
theorem Submit.swap {program : Pubkey} {infos : List AccountInfo} {data : List UInt8}
    (hs : Refines env s) (hP : transactionAccount.Holds env s.ledger P t)
    (hkeys : KeysOnly env infos) (hlog : s'.history = new ++ s.history)
    (hquiet : ∀ e ∈ new, e.proposal? ≠ some P) (hsubmit : Submit env s program infos data s') :
    Submit env (s.swap P a h) program infos data (s'.swap P a (new ++ h)) := by
  cases hsubmit with
  | @process bank o hprogram ho =>
    have hnew : new = o.event.toList := eq_of_log hlog
    -- transactions are signed with private keys, and `P` has none
    have hunsigned : ¬Signed infos P := fun hsigned => hkeys P hsigned (hs.isProgramAddress hP)
    have ho' := processInstruction_update (a := a) hP hunsigned
      (Outcome.proposal?_ne hnew.symm hquiet) ho
    subst hnew
    exact .process (s := s.swap P a h) hprogram ho'
  | foreign hprogram =>
    have hnew : new = [] := eq_of_log hlog
    subst hnew
    exact .foreign hprogram

/-- **A transaction that is not about `P` lands just the same with another account at `P`**,
and changes the other accounts in the same way. The induction goes over its instructions. -/
theorem Lands.swap {ixs : List OuterInstruction} (hs : Refines env s)
    (hcf : DistinctAddresses env s'.history) (hP : transactionAccount.Holds env s.ledger P t)
    (hlog : s'.history = new ++ s.history) (hquiet : ∀ e ∈ new, e.proposal? ≠ some P)
    (hland : Lands env s ixs s') : Lands env (s.swap P a h) ixs (s'.swap P a (new ++ h)) := by
  induction hland generalizing new h with
  | nil hidle =>
    have hnew : new = [] := eq_of_log hlog
    subst hnew
    exact .nil hidle
  | @cons s s₁ s₂ s₃ ix ixs hidle hkeys hsubmit hrun hidle' hrest ih =>
    have hstep : Step env s s₁ := .submit hidle hkeys hsubmit
    have hsuffix₂ : s₂.history <:+ s₃.history := hrest.reaches.history_suffix
    have hsuffix₁ : s₁.history <:+ s₂.history := (inner_run_reaches hrun).history_suffix
    -- the log in three parts: submission, calls, and the other instructions
    have hlate := hsuffix₁.trans hsuffix₂
    rw [hlog] at hlate
    obtain ⟨new₁, later, hlog₁, rfl⟩ := exists_split hstep.history_suffix hlate
    rw [List.append_assoc, ← hlog₁] at hlog
    obtain ⟨new₂, new₃, hlog₂, rfl⟩ := exists_split hsuffix₁ (hlog ▸ hsuffix₂)
    rw [List.append_assoc, ← hlog₂] at hlog
    simp only [List.mem_append, or_imp, forall_and] at hquiet
    obtain ⟨⟨hquiet₃, hquiet₂⟩, hquiet₁⟩ := hquiet
    have hcf₂ := hcf.of_suffix hsuffix₂
    have hcf₁ := hcf₂.of_suffix hsuffix₁
    have hs₁ := hs.step hstep hcf₁
    have hP₁ := hs.holds_of_quiet hs₁ hP hlog₁ hquiet₁
    have hs₂ := hs₁.reaches (inner_run_reaches hrun) hcf₂
    have hP₂ := hs₁.holds_of_quiet hs₂ hP₁ hlog₂ hquiet₂
    rw [List.append_assoc, List.append_assoc]
    exact .cons hidle hkeys (hsubmit.swap hs hP hkeys hlog₁ hquiet₁)
      (inner_run_swap hs₁ hcf₂ hP₁ hlog₂ hquiet₂ hrun) hidle' (ih hs₂ hcf hP₂ hlog hquiet₃)

end Swap

end SolanaMultisig
