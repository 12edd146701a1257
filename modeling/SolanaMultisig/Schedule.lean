import SolanaMultisig.Lib.Cursor
import SolanaMultisig.Lib.Framed
import SolanaMultisig.Balances
import SolanaMultisig.Locality

/-!
# Transactions can be scheduled in parallel

The runtime runs transactions in parallel if none writes to an account that another one
lists. For this program that is sound: an instruction depends on the accounts it lists
only (`processInstruction_unlisted`) and changes those only that it lists writable, so that
transactions without such conflicts have the same results in every order, and leave the
same accounts (`transactions_any_order`). Transactions that execute a proposal are not considered:
what they change is up to the programs called.
-/

namespace SolanaMultisig

open Wire Guard Store

variable {env : Env}

/-! ## Accounts that are not listed -/

/-- The accounts of an instruction, as a set: neither order nor repetition matters to the
scheduler. -/
def accountKeys (infos : List AccountInfo) : Finset Pubkey := (infos.map AccountInfo.key).toFinset

theorem mem_accountKeys {infos : List AccountInfo} {k : Pubkey} :
    k ∈ accountKeys infos ↔ ∃ info ∈ infos, info.key = k := by
  rw [accountKeys, List.mem_toFinset, List.mem_map]

/-- What is writable is listed. -/
theorem writableKeys_subset (infos : List AccountInfo) :
    writableKeys infos ⊆ accountKeys infos := by
  intro k hk
  rw [writableKeys, List.mem_toFinset] at hk
  obtain ⟨info, hinfo, hkey⟩ := List.mem_map.mp hk
  exact mem_accountKeys.mpr ⟨info, (List.mem_filter.mp hinfo).1, hkey⟩

/-! ## Transactions -/

/-- An instruction for the program: its accounts, with their privileges, and its data. -/
structure ProgramCall where
  infos : List AccountInfo
  data : List UInt8

/-- The instruction succeeds, without calls, and logs this event. This leaves out
`execute_transaction`, whose outcome is an execution: what it changes in the end is up to
the programs called. -/
def ProgramCall.Does (env : Env) (bank : Bank) (c : ProgramCall) (ledger : Ledger)
    (event : Option Event) (ledger' : Ledger) : Prop :=
  processInstruction env bank ledger c.infos c.data = .ok ⟨ledger', event, none⟩

/-- The accounts a transaction lists, over all its instructions: a lock is held for the
whole transaction. -/
def listedKeys (tx : List ProgramCall) : Finset Pubkey :=
  accountKeys (tx.flatMap ProgramCall.infos)

/-- Those it may write to. -/
def lockedKeys (tx : List ProgramCall) : Finset Pubkey :=
  writableKeys (tx.flatMap ProgramCall.infos)

/-- The instructions of the transaction succeed one after the other, with these events. -/
def TransactionDoes (env : Env) (bank : Bank) (tx : List ProgramCall) (ledger : Ledger)
    (events : List (ProgramCall × Option Event)) (ledger' : Ledger) : Prop :=
  events.map Prod.fst = tx ∧ Sequence (ProgramCall.Does env bank) ledger events ledger'

/-- None of the two transactions may write to an account that the other one lists. This is
how the runtime decides which transactions it may run at the same time, by the account lists
alone. -/
def NoConflict (tx tx' : List ProgramCall) : Prop :=
  Independent listedKeys lockedKeys tx tx'

instance (tx tx' : List ProgramCall) : Decidable (NoConflict tx tx') :=
  inferInstanceAs (Decidable (_ ∧ _))

section Framed

variable {bank : Bank}

theorem accountKeys_mono {infos infos' : List AccountInfo} (h : infos ⊆ infos') :
    accountKeys infos ⊆ accountKeys infos' := by
  intro k hk
  obtain ⟨info, hinfo, hkey⟩ := mem_accountKeys.mp hk
  exact mem_accountKeys.mpr ⟨info, h hinfo, hkey⟩

theorem writableKeys_mono {infos infos' : List AccountInfo} (h : infos ⊆ infos') :
    writableKeys infos ⊆ writableKeys infos' := by
  intro k hk
  rw [writableKeys, List.mem_toFinset] at hk
  obtain ⟨info, hinfo, rfl⟩ := List.mem_map.mp hk
  obtain ⟨hinfo, hwritable⟩ := List.mem_filter.mp hinfo
  exact mem_writableKeys (h hinfo) hwritable

/-- An instruction has a footprint: it depends on the accounts it lists and changes only
those it lists writable. -/
theorem ProgramCall.framed (c : ProgramCall) :
    Framed (accountKeys c.infos) (writableKeys c.infos) (c.Does env bank) where
  writes := fun h k hk => (touches_of_processInstruction h).unchanged k hk
  ignores := fun h _ hk _ =>
    processInstruction_unlisted (fun info hinfo he => hk (mem_accountKeys.mpr ⟨info, hinfo, he⟩)) h
  subset := writableKeys_subset c.infos

/-- So has a transaction, whose footprint is that of its instructions together. -/
theorem transactionDoes_framed (tx : List ProgramCall) :
    Framed (listedKeys tx) (lockedKeys tx) (TransactionDoes env bank tx) := by
  refine Framed.sequence (fun c hc => ?_) (writableKeys_subset _)
  have hinfos : c.infos ⊆ tx.flatMap ProgramCall.infos := fun info hinfo =>
    List.mem_flatMap.mpr ⟨c, hc, hinfo⟩
  exact c.framed.mono (accountKeys_mono hinfos) (writableKeys_mono hinfos) (writableKeys_subset _)

end Framed

/-- **Any order.** Transactions of instructions other than `execute_transaction` can be run
in any order if none of them writes to an account that another one lists: each instruction
has the result it had, and the accounts are the same in the end. This is the rule by which
the runtime runs transactions in parallel, and `Framed.swap` exchanges two neighbours. -/
theorem transactions_any_order {bank : Bank} {ledger ledger' : Ledger}
    {batch batch' : List (List ProgramCall × List (ProgramCall × Option Event))}
    (hrun : Sequence (TransactionDoes env bank) ledger batch ledger') (hperm : batch.Perm batch')
    (hconflict : batch.Pairwise fun x y => NoConflict x.1 y.1) :
    Sequence (TransactionDoes env bank) ledger batch' ledger' :=
  hrun.perm transactionDoes_framed hperm hconflict

namespace Example

/-- `bob` approves the transfer of the first multisig. -/
def approveTransfer : ProgramCall where
  infos := [⟨multisig, false, false⟩, ⟨transaction, false, true⟩, ⟨bob, true, false⟩]
  data := approveTransactionTag ++ leBytes 8 1

/-- `alice` approves that of the second one. -/
def approveFirst : ProgramCall where
  infos := [⟨joint, false, false⟩, ⟨jointFirst, false, true⟩, ⟨alice, true, false⟩]
  data := approveTransactionTag ++ leBytes 8 1

/-- Both multisigs have a proposal, and both are approved. -/
theorem exists_approvals : ∃ ledger ledger', Sequence (TransactionDoes cluster bank) ledger
    [([approveTransfer], [(approveTransfer, some (.approved transaction bob))]),
      ([approveFirst], [(approveFirst, some (.approved jointFirst alice))])] ledger' := by
  have hrun : ((drive cluster bank genesis [register, registerJoint, create, approve alice,
      proposeJoint jointFirst]).bind fun s =>
        (processInstruction cluster bank s.ledger approveTransfer.infos
          approveTransfer.data).toOption.bind fun o =>
        (processInstruction cluster bank o.ledger approveFirst.infos
          approveFirst.data).toOption.map fun o' =>
            decide (o.event = some (.approved transaction bob) ∧ o.execution.isNone ∧
              o'.event = some (.approved jointFirst alice) ∧ o'.execution.isNone)) = some true := by
    decide +kernel
  obtain ⟨s, -, hrest⟩ := Option.bind_eq_some_iff.mp hrun
  obtain ⟨o, ho, hrest⟩ := Option.bind_eq_some_iff.mp hrest
  obtain ⟨o', ho', hchecked⟩ := Option.map_eq_some_iff.mp hrest
  obtain ⟨hevent, hnone, hevent', hnone'⟩ := of_decide_eq_true hchecked
  have hbob : approveTransfer.Does cluster bank s.ledger (some (.approved transaction bob))
      o.ledger := by
    refine (toOption_eq_some.mp ho).trans (congrArg Except.ok ?_)
    rw [← hevent, ← Option.isNone_iff_eq_none.mp hnone]
  have halice : approveFirst.Does cluster bank o.ledger (some (.approved jointFirst alice))
      o'.ledger := by
    refine (toOption_eq_some.mp ho').trans (congrArg Except.ok ?_)
    rw [← hevent', ← Option.isNone_iff_eq_none.mp hnone']
  exact ⟨s.ledger, o'.ledger, .cons ⟨rfl, .cons hbob .nil⟩ (.cons ⟨rfl, .cons halice .nil⟩ .nil)⟩

end Example

/-- The approvals of the example can be exchanged. -/
theorem transactions_any_order_example : ∃ ledger ledger',
    Sequence (TransactionDoes Example.cluster Example.bank) ledger
      [([Example.approveFirst],
          [(Example.approveFirst, some (.approved Example.jointFirst Example.alice))]),
        ([Example.approveTransfer],
          [(Example.approveTransfer, some (.approved Example.transaction Example.bob))])]
      ledger' := by
  obtain ⟨ledger, ledger', hrun⟩ := Example.exists_approvals
  refine ⟨ledger, ledger', transactions_any_order hrun (.swap _ _ _) (List.pairwise_pair.mpr ?_)⟩
  exact of_decide_eq_true (by decide +kernel)

end SolanaMultisig
