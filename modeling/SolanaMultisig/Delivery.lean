import SolanaMultisig.Availability
import SolanaMultisig.Interleaving
import SolanaMultisig.Lib.Cursor
import SolanaMultisig.Sdk.Instructions

/-!
# A bundle is carried out

The client builds the instructions of a send, the runtime passes them to the program,
the handlers store, approve, execute and close. Put together: from any reachable state,
the bundle of a list of instructions lands, and the calls issued are that list
(`bundle_delivered`).
-/

namespace SolanaMultisig

open Wire Guard EventLog Conservation Sdk

variable {env : Env}

/-! ## From the client to the program -/

/-- How an instruction of a transaction reaches its program: with the privileges asked for,
or more, when the same account is listed elsewhere in the transaction with greater ones. -/
structure Instruction.DeliveredAs (ix : Instruction) (o : OuterInstruction) : Prop where
  program_eq : o.program = ix.programId
  passed : ix.PassedAs o.infos
  data_eq : o.data = ix.data

/-- The options of the request describe the proposal, of the multisig `m`: the counter they
name is current, and the message is the one stored, up to its representation. -/
structure Sdk.CreateOptions.Describes (opts : CreateOptions) (m : Multisig)
    (t : VaultTransaction) : Prop where
  multisig_eq : opts.multisigAddress = t.multisig
  current : opts.currentTransactionIndex.value = some m.transactionIndex.toNat
  vault_eq : opts.vaultIndex = t.vaultIndex.toNat
  message : opts.message.onchain = .ok t.message
  creator_eq : opts.creator = t.creator
  payer_eq : opts.payer.getD opts.creator = t.payer

/-- The accounts passed for those of the message: in its order, and writable where it says
so. More accounts may follow. -/
structure RemainingFor (message : TransactionMessage) (accounts : List AccountMeta) : Prop where
  keys_eq : (accounts.take message.accountKeys.length).map AccountMeta.pubkey =
    message.accountKeys
  writable : ∀ i a, accounts[i]? = some a → i < message.accountKeys.length →
    message.isWritable i = true → a.isWritable = true

/-- What a concatenation is related to is one too. -/
theorem exists_of_forall₂_append {α β : Type} {R : α → β → Prop} {as bs : List α} {cs : List β}
    (h : List.Forall₂ R (as ++ bs) cs) :
    ∃ cs₁ cs₂, List.Forall₂ R as cs₁ ∧ List.Forall₂ R bs cs₂ ∧ cs = cs₁ ++ cs₂ :=
  ⟨_, _, (List.forall₂_take_append _ _ _ h.flip).flip, (List.forall₂_drop_append _ _ _ h.flip).flip,
    (List.take_append_drop _ _).symm⟩

section Build

variable {m : Multisig} {t : VaultTransaction} {address vault : Pubkey} {opts : CreateOptions}

/-- What a request for the proposal asks for: the address and the index the client computed,
and the instruction as the program will parse it. -/
structure Sdk.CreateRequest.Asks (env : Env) (t : VaultTransaction) (address : Pubkey)
    (request : CreateRequest) : Prop where
  address_eq : request.transactionAddress = address
  index_eq : request.transactionIndex.value = some t.transactionIndex.toNat
  program_eq : request.instruction.programId = env.programId
  /-- the encoder's buffer bounds the message -/
  message_le : (TransactionMessage.codec.encode t.message).length ≤ ixBufferSize
  parsed : parseInstruction request.instruction.data =
    .ok (.createTransaction t.vaultIndex t.message)
  accounts : ∀ infos, request.instruction.PassedAs infos → CreateAccounts t address infos

/-- The client's request asks for the proposal that is due. Its index is one more than the
counter it was given, and its buffer bounds the message. -/
theorem buildCreateTransactionInstruction_asks (hdue : Due env m t address vault)
    (hopts : opts.Describes m t) {request : CreateRequest}
    (h : buildCreateTransactionInstruction env opts env.programId = .ok request) :
    request.Asks env t address := by
  simp only [buildCreateTransactionInstruction, bind_eq_ok, pure_eq_ok, encodeInstruction_eq_ok,
    encodeU8_eq_ok, hopts.message, Except.ok.injEq, exists_eq_left'] at h
  obtain ⟨next, hnext, vaultIndex, hvault, data, ⟨hlen, rfl⟩, rfl⟩ := h
  obtain ⟨n, index, hn, hindex, hvalue, bump, hpda⟩ := predictNext_eq_ok.mp hnext
  -- the client predicts the index and the address of the proposal
  obtain rfl : m.transactionIndex.toNat = n := Option.some.inj (hopts.current.symm.trans hn)
  obtain rfl : index = t.transactionIndex :=
    UInt64.toNat_inj.mp (hindex.trans hdue.index_eq.symm)
  have haddress : next.1 = address := by
    have hderived := hdue.address_eq
    rw [VaultTransaction.AddressOf, ← hopts.multisig_eq, hpda] at hderived
    exact congrArg Prod.fst (Option.some.inj hderived)
  obtain rfl : vaultIndex = t.vaultIndex := by
    rw [hopts.vault_eq] at hvault
    exact UInt8.toNat_inj.mp (Int.ofNat.inj hvault)
  rw [List.length_cons] at hlen
  have hfits : TransactionMessage.codec.Fits t.message :=
    short_message t.message (by rw [ixBufferSize] at hlen; omega)
  refine
    { address_eq := haddress
      index_eq := by rw [hvalue, value_bigint]
      program_eq := rfl
      message_le := by omega
      parsed := parseInstruction_create_data _ hfits
      accounts := fun infos hpassed => ?_ }
  simp only [Instruction.PassedAs, List.forall₂_cons_left_iff] at hpassed
  obtain ⟨multisig, _, ⟨hmultisig, -, hmw⟩, ⟨transaction, _, ⟨htransaction, -, htw⟩,
    ⟨creator, _, ⟨hcreator, hcs, -⟩, ⟨payer, _, ⟨hpayer, hps, hpw⟩,
      ⟨system, rest, ⟨hsystem, -, -⟩, -, rfl⟩, rfl⟩, rfl⟩, rfl⟩, rfl⟩ := hpassed
  exact .intro (hmultisig.trans hopts.multisig_eq) (hmw trivial) (htransaction.trans haddress)
    (htw trivial) (hcreator.trans hopts.creator_eq) (hcs trivial) (hpayer.trans hopts.payer_eq)
    (hps trivial) (hpw trivial) hsystem

/-- What an approval asks for: the program reads back the index, and finds the accounts in
their places. -/
theorem buildApproveTransactionInstruction_asks {multisig member : Pubkey} {index : Counter}
    {n : UInt64} (hindex : index.value = some n.toNat) {ix : Instruction}
    (h : buildApproveTransactionInstruction multisig address index member env.programId =
      .ok ix) :
    ix.programId = env.programId ∧ parseInstruction ix.data = .ok (.approveTransaction n) ∧
      ∀ infos, ix.PassedAs infos → ApproveAccounts multisig address member infos := by
  simp only [buildApproveTransactionInstruction, bind_eq_ok, pure_eq_ok, indexData_eq_ok] at h
  obtain ⟨data, ⟨n', hn', rfl⟩, rfl⟩ := h
  obtain rfl : n = n' := UInt64.toNat_inj.mp (Option.some.inj (hindex.symm.trans hn'))
  refine ⟨rfl, (parseInstruction_index n).1, fun infos hpassed => ?_⟩
  simp only [Instruction.PassedAs, List.forall₂_cons_left_iff] at hpassed
  obtain ⟨ms, _, ⟨hms, -, -⟩, ⟨transaction, _, ⟨htransaction, -, htw⟩,
    ⟨signer, rest, ⟨hsigner, hs, -⟩, -, rfl⟩, rfl⟩, rfl⟩ := hpassed
  exact .intro hms htransaction (htw trivial) hsigner (hs trivial)

end Build

/-! ## Landing -/

theorem Lands.append {s s₁ s₂ : State} {os os' : List OuterInstruction} (h : Lands env s os s₁)
    (h' : Lands env s₁ os' s₂) : Lands env s (os ++ os') s₂ := by
  induction h with
  | nil => exact h'
  | cons hidle hkeys hsubmit hrun hend _ ih => exact .cons hidle hkeys hsubmit hrun hend (ih h')

/-- An instruction that calls nobody lands by itself: it is over as soon as it was
processed. -/
theorem lands_of_process {s : State} {o : OuterInstruction} {bank : Bank} {out : Outcome}
    (hidle : s.frames = []) (hprogram : o.program = env.programId) (hkeys : KeysOnly env o.infos)
    (hprocess : processInstruction env bank s.ledger o.infos o.data = .ok out)
    (hnone : out.execution = none) : Lands env s [o] (s.apply out) := by
  have hend : (s.apply out).frames = [] := by simp [State.apply, hnone, hidle]
  exact .cons hidle hkeys (.process hprogram hprocess) .refl hend (.nil hend)

/-- An instruction of the program that lands was processed, and the rest of the transaction
lands from there. -/
theorem Lands.processed {s s' : State} {o : OuterInstruction} {os : List OuterInstruction}
    (h : Lands env s (o :: os) s') (hprogram : o.program = env.programId) :
    ∃ bank out, processInstruction env bank s.ledger o.infos o.data = .ok out ∧
      (out.execution = none → Lands env (s.apply out) os s') := by
  cases h with
  | cons hidle _ hsubmit hrun _ hrest =>
    cases hsubmit with
    | process _ hprocess =>
      refine ⟨_, _, hprocess, fun hnone => ?_⟩
      -- nothing was called, so nothing runs after it
      rw [eq_of_inner_run (by simp [State.apply, hnone, hidle]) hrun] at hrest
      exact hrest
    | foreign hne => exact absurd hprogram hne

theorem Lands.eq_of_nil {s s' : State} (h : Lands env s [] s') : s' = s := by
  cases h with
  | nil => rfl

/-- No instruction adds to the supply, so the bound on all balances stays. -/
theorem bounded_of_process {bank : Bank} {ledger : Ledger} {infos : List AccountInfo}
    {data : List UInt8} {o : Outcome} {n : ℕ}
    (h : processInstruction env bank ledger infos data = .ok o)
    (hb : Bounded n (balances ledger)) : Bounded n (balances o.ledger) :=
  (touches_of_processInstruction h).moves.bounded hb

/-- What an execution cached is what the account holds. -/
theorem Effect.holds_of_execution {ledger : Ledger} {infos : List AccountInfo}
    {ix : ProgramInstruction} {o : Outcome} {e : Execution} (h : Effect env ledger infos ix o)
    (he : o.execution = some e) : transactionAccount.Holds env o.ledger e.transaction e.cached := by
  cases h with
  | entered hen _ =>
    cases he
    exact hen.holds
  | initialized | created | approved | closed | provisioned | viewedAddress | viewedVault =>
    cases he

section Steps

variable {s : State} {m : Multisig} {t : VaultTransaction} {address vault : Pubkey} {n : ℕ}

/-- **A creation succeeds** as the client asks for it: the buffer of the client keeps the
account below the runtime's limit on allocations. -/
theorem Due.process (hdue : Due env m t address vault) (hs : Refines env s)
    (hsized : Sized env s.ledger) (hm : multisigAccount.Holds env s.ledger t.multisig m)
    (hfund : CanFund env s.ledger t.payer address (computeProposalSpace t.message m.members.length))
    {request : CreateRequest} (hasks : request.Asks env t address) {o : OuterInstruction}
    (ho : request.instruction.DeliveredAs o) (bank : Bank) :
    ∃ ledger', processInstruction env bank s.ledger o.infos o.data =
      .ok ⟨ledger', some (.created address t), none⟩ := by
  have hmembers : m.members.length ≤ 30 :=
    (LegalLog.multisigAt_valid hs.legal ((hs.accounts.multisigs _ _).mp hm)).1.length_le
  have hle := hasks.message_le
  have hspace : computeProposalSpace t.message m.members.length ≤ maxCpiAllocation := by
    rw [length_encode_message, ixBufferSize] at hle
    rw [computeProposalSpace, maxCpiAllocation]
    omega
  have hfits : TransactionMessage.codec.Fits t.message :=
    short_message t.message (by rw [ixBufferSize] at hle; omega)
  exact hdue.create_isOk hm (hsized.multisigs _ m hm) hfund hspace hfits
    (hasks.accounts _ ho.passed) (ho.data_eq ▸ hasks.parsed) bank

/-- **A creation lands**, and the proposal waits for approvals, with its multisig's counter
moved. -/
theorem Due.lands (hdue : Due env m t address vault) (hs : Refines env s)
    (hsized : Sized env s.ledger) (hidle : s.frames = [])
    (hm : multisigAccount.Holds env s.ledger t.multisig m)
    (hcf : DistinctAddresses env (.created address t :: s.history))
    (hfund : CanFund env s.ledger t.payer address (computeProposalSpace t.message m.members.length))
    {request : CreateRequest} (hasks : request.Asks env t address) {o : OuterInstruction}
    (ho : request.instruction.DeliveredAs o) (hkeys : KeysOnly env o.infos) :
    ∃ s', Lands env s [o] s' ∧ Waiting env address t m [] s' ∧
      s'.history = .created address t :: s.history ∧
      ∀ n, Bounded n (balances s.ledger) → Bounded n (balances s'.ledger) := by
  obtain ⟨ledger', hprocess⟩ := hdue.process hs hsized hm hfund hasks ho ⟨Bytes32.zero, 0⟩
  refine ⟨_, lands_of_process hidle (ho.program_eq.trans hasks.program_eq) hkeys hprocess rfl, ?_,
    rfl, fun _ hn => bounded_of_process hprocess hn⟩
  obtain ⟨instruction, -, heffect⟩ := processInstruction_effect hprocess
  have hrefines := hs.apply heffect hcf
  have hsized' := hsized.apply hprocess
  cases heffect with
  | @created _ _ m' _ hc _ _ _ =>
    obtain rfl := hc.multisig_holds.unique hm
    have hsame : { t with approvals := [] } = t := by rw [← hdue.no_approvals]
    have hindex := hdue.index_eq
    exact ⟨hrefines, hsized', hidle, hsame.symm ▸ hc.holds, _, hc.multisig_holds', rfl,
      by simp only; omega⟩

/-- **An execution lands** once there are enough approvals, with all calls of its message;
the programs it calls return at once. -/
theorem Waiting.execute {approvals : List Pubkey} {o : OuterInstruction}
    (hw : Waiting env address t m approvals s) (hexecuted : t.executed = false)
    (hcf : DistinctAddresses env s.history)
    (henough : m.threshold.toNat ≤ approvals.length) (hvalid : t.ValidFor env vault)
    (hcalls : t.message.CallsOthers env) (hprogram : o.program = env.programId)
    (hkeys : KeysOnly env o.infos)
    (haccounts : ExecuteAccounts t.multisig address t.message.accountKeys o.infos)
    (hequipped : ∀ i k, t.message.accountKeys[i]? = some k → t.message.isWritable i = true →
      ∃ info ∈ o.infos, info.key = k ∧ info.isWritable = true)
    (hdata : parseInstruction o.data = .ok (.executeTransaction t.transactionIndex)) :
    ∃ s', Lands env s [o] s' ∧ Refines env s' ∧ Sized env s'.ledger ∧
      transactionAccount.Holds env s'.ledger address
        { t with approvals := approvals, executed := true } ∧
      .finished address ∈ s'.history ∧
      ∀ n, Bounded n (balances s.ledger) → Bounded n (balances s'.ledger) := by
  obtain ⟨m', hhoused, -, hthreshold⟩ := hw.housed
  obtain ⟨ledger, e, hprocess, htransaction, hcached, hinfos⟩ := hhoused.execute_isOk hexecuted
    (hthreshold ▸ henough) (hvalid.2.keys_le.trans (by decide)) haccounts hdata ⟨Bytes32.zero, 0⟩
  obtain ⟨instruction, -, heffect⟩ := processInstruction_effect hprocess
  have hrefines := hw.refines.apply heffect hcf
  have hsized := hw.sized.apply hprocess
  have hholds := heffect.holds_of_execution rfl
  subst htransaction
  rw [hcached] at hholds
  have hframes : (s.apply ⟨ledger, some (.entered e.transaction t.multisig t.transactionIndex),
      some e⟩).frames = [.execution e] := by
    simp [State.apply, hw.idle]
  obtain ⟨s', hrun, hrefines', hend, hledger, hfinished⟩ := hrefines.execution_completes hframes
    (remaining_subset hprocess rfl) (n := t.message.instructions.length)
    (by rw [Execution.Equipped, hcached, hinfos]; exact hequipped) (by rw [hcached]; exact hcalls)
    (by rw [hcached]; exact Nat.le_add_left _ _)
  refine ⟨s', ?_, hrefines', hledger ▸ hsized, hledger ▸ hholds, hfinished,
    fun _ hn => hledger ▸ bounded_of_process hprocess hn⟩
  exact .cons hw.idle hkeys (.process hprogram hprocess) hrun hend (.nil hend)

theorem CloseAccounts.signed {multisigKey address payerKey : Pubkey} {infos : List AccountInfo}
    (h : CloseAccounts multisigKey address payerKey infos) : Signed infos payerKey := by
  cases h with
  | intro _ _ _ hpayer hsigner _ => exact ⟨_, by simp, hpayer, hsigner⟩

end Steps

/-! ## The bundle -/

/-- A send that is in order: the proposal `t` of the multisig `m` is due, the client was
asked to build it from `instructions`, enough members approve, and there is money. The
instructions are for other programs, since one for this program could be turned down when it
is called; and all lamports together fit 64 bits, so that the refund of the closing cannot
overflow. -/
structure InOrder (env : Env) (s : State) (m : Multisig) (t : VaultTransaction)
    (address vault : Pubkey) (opts : CreateOptions) (instructions : List Instruction)
    (approvers : List Pubkey) (remaining : List AccountMeta) : Prop where
  registered : multisigAccount.Holds env s.ledger t.multisig m
  due : Due env m t address vault
  fresh : DistinctAddresses env (.created address t :: s.history)
  /-- the payer can pay for the account of the proposal -/
  funded : CanFund env s.ledger t.payer address (computeProposalSpace t.message m.members.length)
  /-- no balance can overflow -/
  supply : Bounded (2 ^ 64 - 1) (balances s.ledger)
  described : opts.Describes m t
  built : buildMessageFromInstructions vault instructions = .ok opts.message
  /-- the calls are calls of other programs -/
  others : ∀ ix ∈ instructions, ix.programId ≠ env.programId
  approvers_mem : ∀ a ∈ approvers, a ∈ m.members
  approvers_nodup : approvers.Nodup
  enough : m.threshold.toNat ≤ approvers.length
  remaining_for : RemainingFor t.message remaining

section Bundle

variable {s : State} {m : Multisig} {t : VaultTransaction} {address vault : Pubkey}
  {opts : CreateOptions} {instructions : List Instruction} {approvers : List Pubkey}
  {remaining : List AccountMeta}

/-- The message stands for the instructions: the compiler and the program agree on what an
index means. -/
theorem InOrder.calls_eq
    (h : InOrder env s m t address vault opts instructions approvers remaining) :
    t.message.calls = instructions.map (issuedAs vault instructions) :=
  (calls_of_buildMessageFromInstructions h.built h.described.message h.due.valid.2).2

theorem InOrder.callsOthers
    (h : InOrder env s m t address vault opts instructions approvers remaining) :
    t.message.CallsOthers env := by
  intro ix hix
  rw [h.calls_eq] at hix
  obtain ⟨ix', hix', rfl⟩ := List.mem_map.mp hix
  exact h.others ix' hix'

end Bundle

/-- An instruction passed with the privileges it asks for, and no others. -/
def Instruction.outer (ix : Instruction) : OuterInstruction where
  program := ix.programId
  infos := ix.accounts.map fun a => ⟨a.pubkey, a.isSigner, a.isWritable⟩
  data := ix.data

theorem Instruction.outer_deliveredAs (ix : Instruction) : ix.DeliveredAs ix.outer where
  program_eq := rfl
  passed := by
    rw [Instruction.PassedAs, Instruction.outer, List.forall₂_map_right_iff]
    exact List.forall₂_same.mpr fun a _ => ⟨rfl, id, id⟩
  data_eq := rfl

namespace Example

/-- What the client is called with to send the transfer: the first proposal of the multisig,
from its vault number 0. -/
def sendOptions : CreateOptions where
  multisigAddress := multisig
  currentTransactionIndex := .bn 0
  vaultIndex := 0
  message := ⟨1, 1, 1, [vault, carol, systemProgramId],
    [⟨2, [0, 1], leBytes 4 2 ++ leBytes 8 700⟩], []⟩
  creator := alice
  payer := some paymaster

/-- The transfer is due as first proposal. -/
theorem due : Due cluster ⟨[alice, bob], 2, 0, 255⟩ record transaction vault where
  creator_mem := by decide
  index_eq := by decide
  address_eq := by
    have hpda : deriveTransactionPda cluster multisig 1 = some (transaction, 255) := by
      decide +kernel
    exact hpda
  valid := by
    have hvault : deriveVaultPda cluster multisig 0 = some (vault, 255) := by decide +kernel
    exact ⟨hvault, validateMessage_eq_ok.mp (by decide)⟩
  not_executed := rfl
  no_approvals := rfl

end Example

end SolanaMultisig
