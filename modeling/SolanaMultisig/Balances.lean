import SolanaMultisig.Lib.Conservation
import SolanaMultisig.Interpreter

/-!
# Where lamports go

An instruction of the program only moves lamports, between accounts it was given
writable, and takes them from nobody but a payer that signed and the proposal it
closes. What is not passed writable is left as it is (`lamports_conserved`).
-/

namespace SolanaMultisig

open Wire Guard Conservation

variable {env : Env}

/-! ## Accounts and balances -/

/-- The balances of a ledger, apart from everything else in it: the function that the
library on conservation talks about. -/
def balances (ledger : Ledger) (k : Pubkey) : ℕ := (ledger k).lamports

/-- The accounts passed writable. An account that is listed twice is among them if one of
its entries is writable. -/
def writableKeys (infos : List AccountInfo) : Finset Pubkey :=
  ((infos.filter AccountInfo.isWritable).map AccountInfo.key).toFinset

theorem mem_writableKeys {infos : List AccountInfo} {info : AccountInfo} (hmem : info ∈ infos)
    (hwritable : info.isWritable = true) : info.key ∈ writableKeys infos := by
  rw [writableKeys, List.mem_toFinset]
  exact List.mem_map_of_mem (List.mem_filter.mpr ⟨hmem, hwritable⟩)

/-- From `ledger` to `ledger'` only accounts of `S` changed, and lamports only moved between
them, away from a `spender`. It composes, so that an instruction is followed operation by
operation. -/
structure Touches (S : Finset Pubkey) (spender : Pubkey → Prop) (ledger ledger' : Ledger) :
    Prop where
  /-- lamports are neither made nor lost -/
  moves : Moves S spender (balances ledger) (balances ledger')
  /-- the other accounts are as they were -/
  unchanged : ∀ k, k ∉ S → ledger' k = ledger k

section Touches

variable {S : Finset Pubkey} {spender : Pubkey → Prop} {l l₁ l₂ : Ledger}

theorem Touches.refl (l : Ledger) : Touches S spender l l := ⟨.refl _ _ _, fun _ _ => rfl⟩

theorem Touches.trans (h : Touches S spender l l₁) (h' : Touches S spender l₁ l₂) :
    Touches S spender l l₂ :=
  ⟨h.moves.trans h'.moves, fun k hk => (h'.unchanged k hk).trans (h.unchanged k hk)⟩

/-- Changing an account but not its balance: owner and data are nobody's lamports. -/
theorem touches_update {key : Pubkey} (hkey : key ∈ S) {a : Account}
    (ha : a.lamports = (l key).lamports) : Touches S spender l (Function.update l key a) where
  moves := by
    refine .of_eq (funext fun k => ?_)
    by_cases hk : k = key
    · subst hk
      simp [balances, ha]
    · simp [balances, hk]
  unchanged := fun _ hk => Function.update_of_ne (ne_of_mem_of_not_mem hkey hk).symm _ _

/-! ## The operations of the runtime -/

/-- A transfer between accounts is one between their balances, also when both are the same.
-/
theorem balances_transferred (src dst : Pubkey) (lamports : ℕ) :
    balances (transferred l src dst lamports) = transfer (balances l) src dst lamports := by
  funext k
  by_cases hdst : k = dst
  · subst hdst
    by_cases hsrc : k = src
    · subst hsrc
      simp [balances, transfer, transferred]
    · simp [balances, transfer, transferred, hsrc]
  · by_cases hsrc : k = src
    · subst hsrc
      simp [balances, transfer, transferred, hdst]
    · rw [transfer_of_ne _ hsrc hdst]
      exact congrArg Account.lamports (transferred_of_ne _ hsrc hdst)

/-- A transfer moves lamports away from an account that holds nothing. -/
theorem systemTransfer_touches {src dst : Pubkey} {lamports : ℕ}
    (h : systemTransfer l src dst lamports = .ok l₁) (hsrc : src ∈ S) (hdst : dst ∈ S)
    (hspender : (l src).Vacant → spender src) : Touches S spender l l₁ := by
  obtain ⟨hvacant, hle, -, rfl⟩ := systemTransfer_eq_ok.mp h
  refine ⟨?_, fun k hk => ?_⟩
  · rw [balances_transferred]
    exact Moves.transfer hsrc hdst hle (hspender hvacant)
  · exact transferred_of_ne _ (ne_of_mem_of_not_mem hsrc hk).symm
      (ne_of_mem_of_not_mem hdst hk).symm

theorem systemAllocate_touches {key : Pubkey} {space : ℕ}
    (h : systemAllocate l key space = .ok l₁) (hkey : key ∈ S) : Touches S spender l l₁ := by
  obtain ⟨-, -, rfl⟩ := systemAllocate_eq_ok.mp h
  exact touches_update hkey rfl

theorem systemAssign_touches {key : Pubkey} (owner : Pubkey) (hkey : key ∈ S) :
    Touches S spender l (systemAssign l key owner) :=
  touches_update hkey rfl

/-- Creating an account moves its rent out of the payer, who holds nothing. -/
theorem systemCreateAccount_touches {src dst owner : Pubkey} {lamports space : ℕ}
    (h : systemCreateAccount l src dst lamports space owner = .ok l₁) (hsrc : src ∈ S)
    (hdst : dst ∈ S) (hspender : (l src).Vacant → spender src) : Touches S spender l l₁ := by
  simp only [systemCreateAccount, bind_eq_ok, require_eq_ok] at h
  obtain ⟨-, -, allocated, hallocate, htransfer⟩ := h
  refine ((systemAllocate_touches hallocate hdst).trans (systemAssign_touches owner hdst)).trans ?_
  refine systemTransfer_touches htransfer hsrc hdst fun hvacant => hspender ?_
  obtain ⟨hfree, -, rfl⟩ := systemAllocate_eq_ok.mp hallocate
  -- the new account was free as well
  by_cases he : src = dst
  · exact he ▸ hfree
  · simpa [systemAssign, he] using hvacant

theorem topUp_touches {field payer : Pubkey} {space : ℕ}
    (h : topUp env l field payer space = .ok l₁) (hpayer : payer ∈ S) (hfield : field ∈ S)
    (hspender : (l payer).Vacant → spender payer) : Touches S spender l l₁ := by
  simp only [topUp] at h
  split at h
  · exact systemTransfer_touches h hpayer hfield hspender
  · cases h
    exact .refl l

/-- Both paths of `init` take from the payer only. -/
theorem initAccount_touches {field payer : AccountInfo} {space : ℕ}
    (h : initAccount env l field payer space = .ok l₁) (hpayer : payer.key ∈ S)
    (hfield : field.key ∈ S) (hspender : (l payer.key).Vacant → spender payer.key) :
    Touches S spender l l₁ := by
  simp only [initAccount, bind_eq_ok, require_eq_ok] at h
  obtain ⟨-, -, h⟩ := h
  split at h
  · exact systemCreateAccount_touches h hpayer hfield hspender
  · simp only [bind_eq_ok, require_eq_ok, pure_eq_ok] at h
    obtain ⟨-, -, funded, htop, allocated, hallocate, rfl⟩ := h
    exact ((topUp_touches htop hpayer hfield hspender).trans
      (systemAllocate_touches hallocate hfield)).trans (systemAssign_touches _ hfield)

/-- Writing back moves nothing. -/
theorem AccountType.exit_touches {α : Type} {T : AccountType α} {key : Pubkey} {a : α}
    (h : T.exit env l key a = .ok l₁) (hkey : key ∈ S) : Touches S spender l l₁ := by
  by_cases hvacant : (l key).Vacant
  · rw [AccountType.exit_vacant hvacant] at h
    cases h
    exact .refl l
  · rw [AccountType.exit, if_neg hvacant] at h
    simp only [bind_eq_ok, require_eq_ok, pure_eq_ok] at h
    obtain ⟨-, -, -, -, rfl⟩ := h
    exact touches_update hkey rfl

/-- Closing moves the whole balance to the destination, which must be another account. -/
theorem closeAccount_touches {key destination : Pubkey} (hne : key ≠ destination)
    (h : closeAccount l key destination = .ok l₁) (hkey : key ∈ S) (hdst : destination ∈ S)
    (hspender : spender key) : Touches S spender l l₁ := by
  simp only [closeAccount, bind_eq_ok, require_eq_ok, pure_eq_ok] at h
  obtain ⟨-, -, rfl⟩ := h
  refine ⟨?_, fun k hk => ?_⟩
  · have hmoves := Moves.transfer (b := balances l) hkey hdst le_rfl hspender
    refine hmoves.trans (.of_eq (funext fun k => ?_))
    by_cases hk : k = key
    · subst hk
      simp [balances, transfer, hne, Account.absent]
    · by_cases hkd : k = destination
      · subst hkd
        simp [balances, transfer, hk]
      · simp [balances, transfer, hk, hkd]
  · have hnk := (ne_of_mem_of_not_mem hkey hk).symm
    have hnd := (ne_of_mem_of_not_mem hdst hk).symm
    simp [hnk, hnd]

end Touches

/-! ## The instructions -/

/-- Who may have less after an instruction: an account that holds nothing and signed — its
payer —, and the proposal it closed. -/
def Spender (ledger : Ledger) (infos : List AccountInfo) (event : Option Event) (k : Pubkey) :
    Prop :=
  (ledger k).Vacant ∧ Signed infos k ∨ ∃ payer, event = some (.closed k payer)

section Instructions

variable {ledger : Ledger} {infos : List AccountInfo} {o : Outcome}

/-- Registering moves the rent of the new account out of the payer. The lemmas for the other
instructions have the same form. -/
theorem InitializeMultisig.process_touches {memberHash : Bytes32} {threshold memberCount : UInt8}
    (h : InitializeMultisig.process env ledger infos memberHash threshold memberCount = .ok o) :
    Touches (writableKeys infos) (Spender ledger infos o.event) ledger o.ledger := by
  obtain ⟨multisig, payer, system, remaining, rfl, hsigner, -, bump, -, allocated, hinit,
    hmultisig, hpayer, record, -, written, hexit, rfl⟩ := InitializeMultisig.process_eq_ok.mp h
  have hkey : multisig.key ∈ writableKeys (multisig :: payer :: system :: remaining) :=
    mem_writableKeys (by simp) hmultisig
  refine (initAccount_touches hinit (mem_writableKeys (by simp) hpayer) hkey
    fun hvacant => .inl ⟨hvacant, payer, by simp, rfl, hsigner⟩).trans ?_
  exact AccountType.exit_touches hexit hkey

theorem CreateTransaction.process_touches {vaultIndex : UInt8} {message : TransactionMessage}
    (h : CreateTransaction.process env ledger infos vaultIndex message = .ok o) :
    Touches (writableKeys infos) (Spender ledger infos o.event) ledger o.ledger := by
  obtain ⟨multisig, transaction, creator, payer, system, rest, rfl, m, -, -, hsigner, -, nextIndex,
    -, bump, -, allocated, hinit, htransaction, hmultisig, hpayer, records, -, middle, hexit,
    written, hexit', rfl⟩ := CreateTransaction.process_eq_ok.mp h
  have hkey : transaction.key ∈ writableKeys
      (multisig :: transaction :: creator :: payer :: system :: rest) :=
    mem_writableKeys (by simp) htransaction
  refine (initAccount_touches hinit (mem_writableKeys (by simp) hpayer) hkey
    fun hvacant => .inl ⟨hvacant, payer, by simp, rfl, hsigner⟩).trans ?_
  exact (AccountType.exit_touches hexit (mem_writableKeys (by simp) hmultisig)).trans
    (AccountType.exit_touches hexit' hkey)

theorem ApproveTransaction.process_touches {transactionIndex : UInt64}
    (h : ApproveTransaction.process env ledger infos transactionIndex = .ok o) :
    Touches (writableKeys infos) (Spender ledger infos o.event) ledger o.ledger := by
  obtain ⟨multisig, transaction, member, rest, rfl, m, -, t, -, -, -, htransaction, record, -,
    written, hexit, rfl⟩ := ApproveTransaction.process_eq_ok.mp h
  exact AccountType.exit_touches hexit (mem_writableKeys (by simp) htransaction)

theorem ExecuteTransaction.process_touches {transactionIndex : UInt64}
    (h : ExecuteTransaction.process env ledger infos transactionIndex = .ok o) :
    Touches (writableKeys infos) (Spender ledger infos o.event) ledger o.ledger := by
  obtain ⟨multisig, transaction, executor, remaining, rfl, m, -, t, -, -, -, htransaction, record,
    -, written, hexit, execution, -, rfl⟩ := ExecuteTransaction.process_eq_ok.mp h
  exact AccountType.exit_touches hexit (mem_writableKeys (by simp) htransaction)

theorem CloseTransaction.process_touches {transactionIndex : UInt64}
    (h : CloseTransaction.process env ledger infos transactionIndex = .ok o) :
    Touches (writableKeys infos) (Spender ledger infos o.event) ledger o.ledger := by
  obtain ⟨multisig, transaction, payer, rest, rfl, -, t, -, -, -, htransaction, -, hne, hpayer, -,
    -, closed, hclose, rfl⟩ := CloseTransaction.process_eq_ok.mp h
  exact closeAccount_touches hne hclose (mem_writableKeys (by simp) htransaction)
    (mem_writableKeys (by simp) hpayer) (.inr ⟨payer.key, rfl⟩)

theorem ProvisionNonce.process_touches {bank : Bank}
    (h : ProvisionNonce.process env bank ledger infos = .ok o) :
    Touches (writableKeys infos) (Spender ledger infos o.event) ledger o.ledger := by
  obtain ⟨multisig, nonceAccount, payer, recentBlockhashes, rent, system, rest, rfl, m, -, hsigner,
    -, -, hnonce, hpayer, -, created, hcreate, rfl⟩ := ProvisionNonce.process_eq_ok.mp h
  simp only [createNonceAccountWithSeed, bind_eq_ok, orElse_eq_ok, require_eq_ok, pure_eq_ok]
    at hcreate
  obtain ⟨_, -, -, -, -, -, -, -, created, hcreate, rfl⟩ := hcreate
  have hkey : nonceAccount.key ∈ writableKeys
      (multisig :: nonceAccount :: payer :: recentBlockhashes :: rent :: system :: rest) :=
    mem_writableKeys (by simp) hnonce
  exact (systemCreateAccount_touches hcreate (mem_writableKeys (by simp) hpayer) hkey
    fun hvacant => .inl ⟨hvacant, payer, by simp, rfl, hsigner⟩).trans (touches_update hkey rfl)

/-- One lemma for all instructions: what each of them writes is passed writable, as its
account struct demands. -/
theorem ProgramInstruction.process_touches {bank : Bank} {instruction : ProgramInstruction}
    (h : instruction.process env bank ledger infos = .ok o) :
    Touches (writableKeys infos) (Spender ledger infos o.event) ledger o.ledger := by
  cases instruction with
  | initializeMultisig => exact InitializeMultisig.process_touches h
  | createTransaction => exact CreateTransaction.process_touches h
  | approveTransaction => exact ApproveTransaction.process_touches h
  | executeTransaction => exact ExecuteTransaction.process_touches h
  | closeTransaction => exact CloseTransaction.process_touches h
  | provisionNonce => exact ProvisionNonce.process_touches h
  | deriveAddress | deriveVaultAddress =>
    obtain ⟨-, -, -, -, -, rfl⟩ := DeriveAddress.process_eq_ok.mp h
    exact .refl ledger

theorem touches_of_processInstruction {bank : Bank} {data : List UInt8}
    (h : processInstruction env bank ledger infos data = .ok o) :
    Touches (writableKeys infos) (Spender ledger infos o.event) ledger o.ledger := by
  simp only [processInstruction, bind_eq_ok] at h
  obtain ⟨instruction, -, h⟩ := h
  exact ProgramInstruction.process_touches h

end Instructions

/-- An instruction that closes a proposal pays its balance to the stored payer, who signed
it. -/
theorem closed_of_processInstruction {bank : Bank} {ledger : Ledger} {infos : List AccountInfo}
    {data : List UInt8} {o : Outcome} {k payer : Pubkey}
    (h : processInstruction env bank ledger infos data = .ok o)
    (hclosed : o.event = some (.closed k payer)) :
    ∃ t, transactionAccount.Holds env ledger k t ∧ payer = t.payer ∧ Signed infos t.payer ∧
      (o.ledger t.payer).lamports = (ledger t.payer).lamports + (ledger k).lamports := by
  obtain ⟨_, -, heffect⟩ := processInstruction_effect h
  cases heffect with
  | closed hc _ hsigned =>
    cases hclosed
    exact ⟨_, hc.holds, rfl, hsigned, hc.closed.refund⟩
  | initialized | created | approved | entered | provisioned | viewedAddress | viewedVault =>
    cases hclosed

/-- **An instruction only moves lamports.** Whatever instruction of the program succeeds, on
whatever accounts: the total of all accounts that may change, with any others, stays the
same; what is not passed writable is left as it is; and nobody has less afterwards but a
plain account that signed, and the proposal that was closed, whose balance its stored payer,
who signed, has now. Of `execute_transaction` this covers what the program itself does
before its calls; the calls are steps of their own, and a call of the program is such an
instruction again. -/
theorem lamports_conserved {bank : Bank} {ledger : Ledger} {infos : List AccountInfo}
    {data : List UInt8} {o : Outcome}
    (h : processInstruction env bank ledger infos data = .ok o) :
    (∀ S, writableKeys infos ⊆ S →
      ∑ k ∈ S, (o.ledger k).lamports = ∑ k ∈ S, (ledger k).lamports) ∧
    (∀ k, (∀ info ∈ infos, info.key = k → info.isWritable = false) → o.ledger k = ledger k) ∧
    ∀ k, (o.ledger k).lamports < (ledger k).lamports →
      (ledger k).Vacant ∧ Signed infos k ∨
      ∃ t, transactionAccount.Holds env ledger k t ∧ Signed infos t.payer ∧
        o.event = some (.closed k t.payer) ∧
        (o.ledger t.payer).lamports = (ledger t.payer).lamports + (ledger k).lamports := by
  have htouches := touches_of_processInstruction h
  refine ⟨fun S hS => (htouches.moves.mono hS fun _ hk => hk).total_eq, fun k hk => ?_,
    fun k hlt => ?_⟩
  · refine htouches.unchanged k fun hmem => ?_
    rw [writableKeys, List.mem_toFinset] at hmem
    obtain ⟨info, hinfo, hkey⟩ := List.mem_map.mp hmem
    obtain ⟨hinfo, hwritable⟩ := List.mem_filter.mp hinfo
    rw [hk info hinfo hkey] at hwritable
    cases hwritable
  · rcases htouches.moves.spent k hlt with hpayer | ⟨payer, hclosed⟩
    · exact .inl hpayer
    · obtain ⟨t, ht, rfl, hsigned, hrefund⟩ := closed_of_processInstruction h hclosed
      exact .inr ⟨t, ht, hsigned, hclosed, hrefund⟩

/-- Registering the multisig of the example. -/
theorem lamports_conserved_example : ∃ infos data o, Example.register = .submit infos data ∧
    processInstruction Example.cluster Example.bank Example.genesis.ledger infos data = .ok o ∧
    (o.ledger Example.multisig).lamports + (o.ledger Example.paymaster).lamports = 1000000000 := by
  obtain ⟨s, hs, -, -⟩ := Example.exists_driven
  obtain ⟨-, o, ho, -⟩ := drive_submit hs
  refine ⟨_, _, o, rfl, ho, ?_⟩
  have htotal := (lamports_conserved ho).1 {Example.multisig, Example.paymaster} (by decide)
  rw [Finset.sum_pair (by decide), Finset.sum_pair (by decide)] at htotal
  rw [htotal]
  decide

end SolanaMultisig
