import SolanaMultisig.Lib.Rollback
import SolanaMultisig.Effects

/-!
# The machine

A small-step semantics of the chain as far as the program can tell. A state is
the ledger, the stack of calls under way and the log of what happened. On the
stack are executions of this program, each at some instruction of its message,
and foreign programs, which may do whatever the runtime lets them do
(`ForeignStep`) and, those that re-enter, call this program again. Nothing bounds
the depth of the stack.

Outer instructions start on an empty stack. A transaction that fails is rolled
back (`Rollback`); `Reachable` states are those of runs with such failures.
-/

namespace SolanaMultisig

open Wire Guard

variable {env : Env}

/-! ## States -/

/-- A call under way: an execution of the program at some instruction of its message, or
another program with the accounts and signatures it was given. -/
inductive Frame where
  /-- `execute_transaction`, in its loop -/
  | execution (execution : Execution)
  /-- another program, with the accounts it was given -/
  | foreign (program : Pubkey) (infos : List AccountInfo)
  deriving DecidableEq

/-- The chain, seen from the program: what is stored, what is running, and what has
happened. -/
structure State where
  /-- all accounts -/
  ledger : Ledger
  /-- the calls under way, the innermost first -/
  frames : List Frame
  /-- what happened, the newest first -/
  history : List Event

/-- Is an execution under way? The runtime allows a program to re-enter only directly from
itself, so other programs may be cut off from calling back then (`Env.reenters`). -/
def State.nested (s : State) : Bool :=
  s.frames.any fun
    | .execution _ => true
    | .foreign _ _ => false

/-- The result of an instruction of this program: its record is logged, and an execution
becomes the innermost call, whose loop then runs step by step. -/
def State.apply (s : State) (o : Outcome) : State where
  ledger := o.ledger
  frames := (o.execution.map Frame.execution).toList ++ s.frames
  history := o.event.toList ++ s.history

/-! ## What other programs can do -/

/-- An account of one of the program's two types, told by owner and discriminator, whatever
the rest of its data says. -/
def Typed (env : Env) (a : Account) : Prop :=
  a.owner = env.programId ∧
    (a.data.take 8 = multisigAccount.discriminator ∨
      a.data.take 8 = transactionAccount.discriminator)

/-- An address derived from seeds of the program: it has no private key, and only the
program can sign for it. Multisigs, vaults and proposals are of this kind. -/
def IsProgramAddress (env : Env) (k : Pubkey) : Prop :=
  ∃ seeds, createProgramAddress env seeds env.programId = some k

/-- What a program that was given the accounts `infos` can do to the ledger, and
what happens to it between transactions. The runtime lets only the owner of an
account write to it or debit it, and only zeroed accounts change their owner; the
System program allocates and assigns an address only with its signature. The
instructions Anchor adds for the IDL account are covered too: they touch none of
the program's own account types. -/
structure ForeignStep (env : Env) (infos : List AccountInfo) (ledger ledger' : Ledger) :
    Prop where
  /-- the program's accounts can only be credited -/
  keeps : ∀ k, Typed env (ledger k) →
    SameContents ledger ledger' k ∧ (ledger k).lamports ≤ (ledger' k).lamports
  /-- and they cannot be forged -/
  forges : ∀ k, Typed env (ledger' k) → Typed env (ledger k)
  /-- free program addresses stay free unless they signed -/
  vacant : ∀ k, IsProgramAddress env k → ¬Signed infos k → (ledger k).Vacant →
    (ledger' k).Vacant

/-! ## Calls -/

/-- The next call of an execution, if the message has more instructions. It is compiled when
its turn comes, as in the loop of the source, from the cached proposal and not from the
account. -/
def Execution.nextCpi (e : Execution) : Option (Except ProgramError Cpi) :=
  e.cached.message.instructions[e.next]?.map fun compiled =>
    compileCpi e.cached.message e.cached.message.accountKeys e.multisig e.remaining
      (vaultSignerSeeds e.multisig.key e.cached) compiled

/-- The execution after a call: one instruction further in the same message. -/
def Execution.advance (e : Execution) : Execution := { e with next := e.next + 1 }

/-- The runtime's check of `invoke_signed`: the callee gets no account, no write
access and no signature the caller does not have, apart from the signature its
seeds give. -/
def Privileged (env : Env) (caller : List AccountInfo) (cpi : Cpi) : Prop :=
  ∀ account ∈ cpi.instruction.accounts,
    (∃ info ∈ caller, info.key = account.pubkey ∧
      (account.isWritable = true → info.isWritable = true)) ∧
    (account.isSigner = true →
      Signed caller account.pubkey ∨
        createProgramAddress env cpi.signerSeeds env.programId = some account.pubkey)

/-- The accounts as the callee receives them: with the privileges the metas name, not those
the caller has. -/
def Cpi.calleeInfos (cpi : Cpi) : List AccountInfo :=
  cpi.instruction.accounts.map fun account =>
    ⟨account.pubkey, account.isSigner, account.isWritable⟩

/-- The state in which the execution on top has issued a call. The record comes before the
callee runs, so the log has the calls in the order they were made, also when they nest. -/
def State.issue (s : State) (e : Execution) (rest : List Frame) (cpi : Cpi) : State where
  ledger := s.ledger
  frames := .execution e.advance :: rest
  history := .invoked e.transaction cpi :: s.history

/-- The state in which the callee runs on top; it may now take any number of foreign steps
before it returns. -/
def State.enter (s : State) (program : Pubkey) (infos : List AccountInfo) : State :=
  { s with frames := .foreign program infos :: s.frames }

/-! ## Steps -/

/-- No address of the program signs: transactions are signed with private keys, and the
addresses of the program have none. -/
def KeysOnly (env : Env) (infos : List AccountInfo) : Prop :=
  ∀ k, Signed infos k → ¬IsProgramAddress env k

/-- What goes on inside a call: the innermost one proceeds, by calling, working, calling
back or returning. A failing call has no step, since it fails the whole transaction. -/
inductive Inner (env : Env) : State → State → Prop
  /-- the innermost execution calls another program -/
  | call {s : State} {e : Execution} {rest : List Frame} {cpi : Cpi} :
      s.frames = .execution e :: rest → e.nextCpi = some (.ok cpi) →
      Privileged env e.infos cpi → cpi.instruction.programId ≠ env.programId →
        Inner env s ((s.issue e rest cpi).enter cpi.instruction.programId cpi.calleeInfos)
  /-- the innermost execution calls the program itself -/
  | callSelf {s : State} {e : Execution} {rest : List Frame} {cpi : Cpi} {bank : Bank}
      {o : Outcome} :
      s.frames = .execution e :: rest → e.nextCpi = some (.ok cpi) →
      Privileged env e.infos cpi → cpi.instruction.programId = env.programId →
      processInstruction env bank s.ledger cpi.calleeInfos cpi.instruction.data = .ok o →
        Inner env s ((s.issue e rest cpi).apply o)
  /-- the innermost execution has issued all calls, and Anchor writes the cached
  proposal back -/
  | finish {s : State} {e : Execution} {rest : List Frame} {ledger : Ledger} :
      s.frames = .execution e :: rest → e.nextCpi = none →
      transactionAccount.exit env s.ledger e.transaction e.cached = .ok ledger →
        Inner env s ⟨ledger, rest, .finished e.transaction :: s.history⟩
  /-- a foreign program works -/
  | foreign {s : State} {program : Pubkey} {infos : List AccountInfo} {rest : List Frame}
      {ledger : Ledger} :
      s.frames = .foreign program infos :: rest → ForeignStep env infos s.ledger ledger →
        Inner env s { s with ledger := ledger }
  /-- a foreign program calls this one -/
  | callback {s : State} {program : Pubkey} {infos callee : List AccountInfo}
      {rest : List Frame} {bank : Bank} {data : List UInt8} {o : Outcome} :
      s.frames = .foreign program infos :: rest → env.reenters program s.nested = true →
      (∀ k, Signed callee k → Signed infos k ∨ ¬IsProgramAddress env k) →
      processInstruction env bank s.ledger callee data = .ok o →
        Inner env s (s.apply o)
  /-- a foreign program returns -/
  | leave {s : State} {program : Pubkey} {infos : List AccountInfo} {rest : List Frame} :
      s.frames = .foreign program infos :: rest → Inner env s { s with frames := rest }

/-- An outer instruction, and what the program makes of it: its own instructions are
processed, those of others become a foreign call. -/
inductive Submit (env : Env) (s : State) (program : Pubkey) (infos : List AccountInfo)
    (data : List UInt8) : State → Prop
  /-- an instruction of this program -/
  | process {bank : Bank} {o : Outcome} : program = env.programId →
      processInstruction env bank s.ledger infos data = .ok o → Submit env s program infos data
        (s.apply o)
  /-- an instruction of another program -/
  | foreign : program ≠ env.programId → Submit env s program infos data (s.enter program infos)

/-- One step of the chain: an outer instruction starts, a call proceeds, or the cluster
settles something between instructions. -/
inductive Step (env : Env) : State → State → Prop
  /-- an outer instruction starts -/
  | submit {s s' : State} {program : Pubkey} {infos : List AccountInfo} {data : List UInt8} :
      s.frames = [] → KeysOnly env infos → Submit env s program infos data s' → Step env s s'
  /-- a call proceeds -/
  | inner {s s' : State} : Inner env s s' → Step env s s'
  /-- fees, rent and rewards, between instructions -/
  | settle {s : State} {ledger : Ledger} : s.frames = [] → ForeignStep env [] s.ledger ledger →
      Step env s { s with ledger := ledger }

/-- A run of successful steps. -/
abbrev Reaches (env : Env) : State → State → Prop := Relation.ReflTransGen (Step env)

/-- What goes on inside a call is a run: the inner steps of a transaction are steps of the
chain. -/
theorem inner_run_reaches {s s' : State} (hrun : Relation.ReflTransGen (Inner env) s s') :
    Reaches env s s' :=
  Relation.ReflTransGen.mono (fun _ _ => Step.inner) _ _ hrun

/-- Nothing has happened: there is no account of the program yet. Apart from that the ledger
is arbitrary, since the program may be deployed at any time. -/
structure Genesis (env : Env) (s : State) : Prop where
  frames_eq : s.frames = []
  history_eq : s.history = []
  untyped : ∀ k, ¬Typed env (s.ledger k)

/-- The states of all runs from the empty chain, failed transactions included: at any point
the state may go back to the last one in which no call was under way. -/
def Reachable (env : Env) (s : State) : Prop :=
  ∃ genesis saved, Genesis env genesis ∧
    Relation.ReflTransGen (Rollback.Step (Step env) fun s => s.frames = [])
      (Rollback.Config.start genesis) ⟨saved, s⟩

/-- Failed transactions do not count: a reachable state is reached by successful steps.
Invariants are therefore proved over `Step` alone. -/
theorem Reachable.reaches {s : State} (h : Reachable env s) :
    ∃ genesis, Genesis env genesis ∧ Reaches env genesis s := by
  obtain ⟨genesis, saved, hg, hrun⟩ := h
  exact ⟨genesis, hg, Rollback.reaches_working hrun⟩

theorem reachable_of_reaches {genesis s : State} (hg : Genesis env genesis)
    (h : Reaches env genesis s) : Reachable env s :=
  ⟨genesis, genesis, hg, Rollback.of_reaches h⟩

/-- What is reached from a reachable state is reachable, so an invariant found at the start
of a run still holds at its end. -/
theorem Reachable.trans {s s' : State} (h : Reachable env s) (hrun : Reaches env s s') :
    Reachable env s' := by
  obtain ⟨genesis, hg, hreach⟩ := h.reaches
  exact reachable_of_reaches hg (hreach.trans hrun)

/-! ## Histories only grow -/

theorem apply_history (s : State) (o : Outcome) : s.history <:+ (s.apply o).history :=
  List.suffix_append _ _

theorem Inner.history_suffix {s s' : State} (h : Inner env s s') : s.history <:+ s'.history := by
  cases h with
  | call => exact List.suffix_cons _ _
  | callSelf => exact (List.suffix_cons _ _).trans (apply_history (s.issue _ _ _) _)
  | finish => exact List.suffix_cons _ _
  | foreign => exact List.suffix_rfl
  | callback => exact apply_history _ _
  | leave => exact List.suffix_rfl

theorem Step.history_suffix {s s' : State} (h : Step env s s') : s.history <:+ s'.history := by
  cases h with
  | submit _ _ hsubmit =>
    cases hsubmit with
    | process => exact apply_history _ _
    | foreign => exact List.suffix_rfl
  | inner hinner => exact hinner.history_suffix
  | settle => exact List.suffix_rfl

theorem Reaches.history_suffix {s s' : State} (h : Reaches env s s') :
    s.history <:+ s'.history := by
  induction h with
  | refl => exact List.suffix_rfl
  | tail _ hstep ih => exact ih.trans hstep.history_suffix

/-! ## Transactions -/

/-- An outer instruction of a transaction, with its accounts as the message of the
transaction gives them privileges. -/
structure OuterInstruction where
  /-- the program called -/
  program : Pubkey
  /-- its accounts -/
  infos : List AccountInfo
  /-- its input -/
  data : List UInt8
  deriving DecidableEq

/-- The instructions run one after the other, each to its end, with nothing in between: the
transaction lands. This is what atomicity gives a bundle, and all that it gives. -/
inductive Lands (env : Env) : State → List OuterInstruction → State → Prop
  /-- nothing left to run -/
  | nil {s : State} : s.frames = [] → Lands env s [] s
  /-- one instruction and everything it calls -/
  | cons {s s₁ s₂ s₃ : State} {ix : OuterInstruction} {ixs : List OuterInstruction} :
      s.frames = [] → KeysOnly env ix.infos → Submit env s ix.program ix.infos ix.data s₁ →
      Relation.ReflTransGen (Inner env) s₁ s₂ → s₂.frames = [] → Lands env s₂ ixs s₃ →
        Lands env s (ix :: ixs) s₃

/-- A transaction that lands is a run, so everything known of reachable states applies to
the state it leaves. -/
theorem Lands.reaches {s s' : State} {ixs : List OuterInstruction} (h : Lands env s ixs s') :
    Reaches env s s' := by
  induction h with
  | nil => exact .refl
  | cons hempty hkeys hsubmit hinner _ _ ih =>
    refine Relation.ReflTransGen.trans ?_ ih
    exact Relation.ReflTransGen.head (.submit hempty hkeys hsubmit)
      (Relation.ReflTransGen.mono (fun _ _ => Step.inner) _ _ hinner)

end SolanaMultisig
