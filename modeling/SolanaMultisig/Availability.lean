import SolanaMultisig.ClientAddresses
import SolanaMultisig.Rent
import SolanaMultisig.Completion

/-!
# What is asked for properly is done

The conditions under which each instruction about a proposal succeeds, in any state
that the program can be in: nothing but what the instruction is documented to check can
stand in the way. `Housed.approve_isOk` said this of approvals; here are creation,
execution and closing.
-/

namespace SolanaMultisig

open Wire Guard

variable {env : Env}

/-! ## Creating -/

/-- `t` is a proposal that can be created next, at `address`: its creator is a member, its
index comes next, and its message is valid for `vault`. -/
structure Due (env : Env) (m : Multisig) (t : VaultTransaction) (address vault : Pubkey) :
    Prop where
  creator_mem : t.creator ∈ m.members
  index_eq : t.transactionIndex.toNat = m.transactionIndex.toNat + 1
  address_eq : t.AddressOf env address
  valid : t.ValidFor env vault
  not_executed : t.executed = false
  no_approvals : t.approvals = []

/-- The accounts of `create_transaction`, in its order and with the privileges it demands.
-/
inductive CreateAccounts (t : VaultTransaction) (address : Pubkey) : List AccountInfo → Prop
  | intro {multisig transaction creator payer system : AccountInfo} {rest : List AccountInfo} :
      multisig.key = t.multisig → multisig.isWritable = true →
      transaction.key = address → transaction.isWritable = true →
      creator.key = t.creator → creator.isSigner = true →
      payer.key = t.payer → payer.isSigner = true → payer.isWritable = true →
      system.key = systemProgramId →
        CreateAccounts t address (multisig :: transaction :: creator :: payer :: system :: rest)

theorem checkedSucc_of_toNat {n next : UInt64} (h : next.toNat = n.toNat + 1) :
    checkedSucc n = some next := by
  have hlt := next.toNat_lt
  rw [checkedSucc, if_pos (by omega), ← h, UInt64.ofNat_toNat]

section Due

variable {ledger : Ledger} {m : Multisig} {t : VaultTransaction} {address vault : Pubkey}

/-- The body stores the proposal as it is due, and moves the counter of the multisig to its
index. -/
theorem Due.body (h : Due env m t address vault) :
    createTransaction env t.multisig m t.creator t.payer t.bump t.vaultIndex t.message =
      .ok ({ m with transactionIndex := t.transactionIndex }, t) := by
  simp only [createTransaction, bind_eq_ok, require_eq_ok, orElse_eq_ok, pure_eq_ok]
  refine ⟨(), h.creator_mem, (vault, t.vaultBump), h.valid.1, (),
    validateMessage_eq_ok.mpr h.valid.2, t.transactionIndex, checkedSucc_of_toNat h.index_eq, ?_⟩
  have hexecuted := h.not_executed
  have happrovals := h.no_approvals
  cases t
  simp_all

/-- **Creating succeeds** for every proposal that is due, if somebody can pay for it: the
account is small enough to be allocated, and the multisig's own account takes the new
counter. -/
theorem Due.create_isOk (h : Due env m t address vault)
    (hm : multisigAccount.Holds env ledger t.multisig m)
    (hsize : (ledger t.multisig).data.length = computeMultisigSpace m.members.length)
    (hfund : CanFund env ledger t.payer address (computeProposalSpace t.message m.members.length))
    (hspace : computeProposalSpace t.message m.members.length ≤ maxCpiAllocation)
    (hfits : TransactionMessage.codec.Fits t.message) {infos : List AccountInfo}
    (hinfos : CreateAccounts t address infos) {data : List UInt8}
    (hdata : parseInstruction data = .ok (.createTransaction t.vaultIndex t.message))
    (bank : Bank) :
    ∃ ledger', processInstruction env bank ledger infos data =
      .ok ⟨ledger', some (.created address t), none⟩ := by
  cases hinfos with
  | @intro multisig transaction creator payer system rest hmultisig hmw haddress htw hcreator hcs
      hpayer hps hpw hsystem =>
    subst haddress
    have hfund' : CanFund env ledger payer.key transaction.key
        (computeProposalSpace t.message m.members.length) := hpayer ▸ hfund
    obtain ⟨allocated, hinit⟩ := initAccount_isOk hfund' hspace hps hpw htw
    have halloc := initAccount_allocated hinit
    have hne : t.multisig ≠ transaction.key := fun he => (he ▸ hm).not_vacant hfund.vacant
    have hsame := halloc.others _ hne
    -- the counter takes the place of the old one
    have hfits' : multisigAccount.codec.Fits { m with transactionIndex := t.transactionIndex } :=
      hm.2.1
    obtain ⟨middle, hexit⟩ := AccountType.exit_isOk (hsame.1.trans hm.1) hfits'
      (by rw [length_bytes_multisig, hsame.2, hsize])
    have hmiddle := (AccountType.written_of_exit (hm.of_sameContents hsame).not_vacant hexit).others
      _ hne.symm
    -- and the proposal fills the new account
    have hfitst : transactionAccount.codec.Fits t :=
      ⟨trivial, trivial, trivial, trivial, trivial, trivial, trivial, trivial,
        ⟨by simp [h.no_approvals], by simp [h.no_approvals]⟩, hfits⟩
    obtain ⟨written, hexit'⟩ := AccountType.exit_isOk (hmiddle ▸ halloc.owner_eq) hfitst (by
      rw [hmiddle, halloc.data_eq, List.length_replicate]
      exact length_bytes_transaction_le (by simp [h.no_approvals]))
    have hprocess : CreateTransaction.process env ledger
        (multisig :: transaction :: creator :: payer :: system :: rest) t.vaultIndex t.message =
          .ok ⟨written, some (.created transaction.key t), none⟩ := by
      refine CreateTransaction.process_eq_ok.mpr ⟨multisig, transaction, creator, payer, system,
        rest, rfl, m, hmultisig ▸ hm, hcs, hps, hsystem, t.transactionIndex,
        checkedSucc_of_toNat h.index_eq, t.bump, hmultisig ▸ h.address_eq, allocated, hinit, htw,
        hmw, hpw, ({ m with transactionIndex := t.transactionIndex }, t), ?_, middle,
        hmultisig ▸ hexit, written, hexit', rfl⟩
      rw [hmultisig, hcreator, hpayer]
      exact h.body
    refine ⟨written, ?_⟩
    simp only [processInstruction, hdata]
    exact hprocess

end Due

/-! ## Executing and closing -/

/-- The accounts of `execute_transaction`: somebody signs, and the accounts of the
message, `keys`, follow in its order. -/
inductive ExecuteAccounts (multisigKey address : Pubkey) (keys : List Pubkey) :
    List AccountInfo → Prop
  | intro {multisig transaction executor : AccountInfo} {remaining : List AccountInfo} :
      multisig.key = multisigKey → transaction.key = address → transaction.isWritable = true →
      executor.isSigner = true → (remaining.take keys.length).map AccountInfo.key = keys →
        ExecuteAccounts multisigKey address keys (multisig :: transaction :: executor :: remaining)

/-- The accounts of `close_transaction`, with the payer writable, as the refund goes there.
-/
inductive CloseAccounts (multisigKey address payerKey : Pubkey) : List AccountInfo → Prop
  | intro {multisig transaction payer : AccountInfo} {rest : List AccountInfo} :
      multisig.key = multisigKey → transaction.key = address → transaction.isWritable = true →
      payer.key = payerKey → payer.isSigner = true → payer.isWritable = true →
        CloseAccounts multisigKey address payerKey (multisig :: transaction :: payer :: rest)

section Housed

variable {ledger : Ledger} {k : Pubkey} {t : VaultTransaction} {m : Multisig}

/-- **Executing succeeds** up to the calls, once there are enough approvals. Who executes
does not matter, as long as the accounts of the message are passed in its order. -/
theorem Housed.execute_isOk (h : Housed env ledger k t m) (hexecuted : t.executed = false)
    (henough : m.threshold.toNat ≤ t.approvals.length)
    (hkeys : t.message.accountKeys.length ≤ maxCombinedAccounts) {infos : List AccountInfo}
    (hinfos : ExecuteAccounts t.multisig k t.message.accountKeys infos) {data : List UInt8}
    (hdata : parseInstruction data = .ok (.executeTransaction t.transactionIndex)) (bank : Bank) :
    ∃ ledger' e, processInstruction env bank ledger infos data =
        .ok ⟨ledger', some (.entered k t.multisig t.transactionIndex), some e⟩ ∧
      e.transaction = k ∧ e.cached = { t with executed := true } ∧ e.infos = infos := by
  cases hinfos with
  | @intro multisig transaction executor remaining hmultisig htransaction hwritable hsigner
      hmatch =>
    subst htransaction
    obtain ⟨ledger', hexit⟩ := h.exit_isOk true h.length_approvals_le
    have hresolve : resolveAccounts t.message remaining = .ok t.message.accountKeys :=
      resolveAccounts_eq_ok.mpr ⟨hkeys, rfl, hmatch⟩
    obtain ⟨e, hstart⟩ : ∃ e, Execution.start multisig transaction.key
        { t with executed := true } (multisig :: transaction :: executor :: remaining) remaining =
          .ok e := by
      unfold Execution.start
      split
      · rename_i herror
        rw [hresolve] at herror
        cases herror
      · exact ⟨_, rfl⟩
    obtain ⟨-, htransaction, hcached, hinfos, -⟩ := Execution.start_eq_ok hstart
    have hprocess : ExecuteTransaction.process env ledger
        (multisig :: transaction :: executor :: remaining) t.transactionIndex =
          .ok ⟨ledger', some (.entered transaction.key t.multisig t.transactionIndex), some e⟩ := by
      refine ExecuteTransaction.process_eq_ok.mpr ⟨multisig, transaction, executor, remaining, rfl,
        m, hmultisig ▸ h.multisig_holds, t, h.holds, hsigner, ⟨t.bump, hmultisig ▸ h.address_eq⟩,
        hwritable, { t with executed := true }, executeTransaction_eq_ok.mpr
          ⟨hmultisig.symm, rfl, hexecuted, henough, rfl⟩, ledger', hexit, e, hstart, ?_⟩
      rw [hmultisig]
    refine ⟨ledger', e, ?_, htransaction, hcached, hinfos⟩
    simp only [processInstruction, hdata]
    exact hprocess

end Housed

end SolanaMultisig
