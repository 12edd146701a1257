import SolanaMultisig.Flows
import SolanaMultisig.Simulation

/-!
# What a transaction adds to the log

A transaction that consists of the four proposal instructions and of programs that
do not call back adds to the log, instruction by instruction, just what each of
them is for (`Lands.segments`): its executions are of proposals whose messages do
not call the program, and during an execution nobody else can. `LegalLog.runs`
says what the calls of an execution are, whenever it runs.
-/

namespace SolanaMultisig

open Wire EventLog Guard

variable {env : Env}

/-! ## The calls of a proposal -/

/-- The calls issued for the proposal at `k` are the first of `calls`, in order, and
all of them once its execution has returned. -/
structure Runs (h : List Event) (k : Pubkey) (calls : List Instruction) : Prop where
  /-- so far -/
  issued_isPrefix : (issued h k).map Cpi.instruction <+: calls
  /-- in the end -/
  issued_eq : .finished k ∈ h → (issued h k).map Cpi.instruction = calls

/-- Events outside the loop of `k` leave its calls as they are, so `Runs` can be followed
along a log. -/
theorem Runs.cons {h : List Event} {k : Pubkey} {calls : List Instruction} {e : Event}
    (hr : Runs h k calls) (he : e.loop? ≠ some k) : Runs (e :: h) k calls := by
  have hissued := issued_cons (h := h) he
  refine ⟨hissued ▸ hr.issued_isPrefix, fun hmem => ?_⟩
  rw [hissued]
  refine hr.issued_eq ((List.mem_cons.mp hmem).resolve_left ?_)
  rintro rfl
  exact he rfl

/-- **An execution issues the calls of the created message**, in order, and all of them when
it returns: each call is allowed only as the next one. -/
theorem LegalLog.runs {h : List Event} {k : Pubkey} {t : VaultTransaction} (hl : LegalLog env h)
    (hr : recordAt h k = some t) : Runs h k t.message.calls := by
  induction hl with
  | nil => cases hr
  | @cons h e hl hok ih =>
    cases e with
    -- a record is where the calls start from: none was issued before
    | created address r =>
      rcases recordAt_cases hr with hr | heq
      · exact (ih hr).cons (by simp [Event.loop?])
      · cases heq
        have hfresh := LegalLog.not_entered_of_fresh hl hok.1
        refine Runs.mk ?_ fun hmem => ?_
        · rw [issued_cons (by simp [Event.loop?]), LegalLog.issued_eq_nil hl hfresh]
          exact List.nil_prefix
        · have hmem' := (List.mem_cons.mp hmem).resolve_left (by simp)
          exact absurd (LegalLog.entered_of_finished hl hmem') hfresh
    | invoked address cpi =>
      have hrec : recordAt h k = some t := hr
      by_cases heq : address = k
      · subst heq
        obtain ⟨-, hrunning, t', ix, ht', hix, hfor⟩ := hok
        rw [hrec] at ht'
        obtain rfl := Option.some.inj ht'
        -- the next call of the message
        have hissued : issued (.invoked address cpi :: h) address = issued h address ++ [cpi] := by
          rw [issued, if_pos rfl]
        refine ⟨?_, fun hmem => absurd ((List.mem_cons.mp hmem).resolve_left (by simp)) hrunning⟩
        rw [hissued, List.map_append, List.map_singleton, hfor.instruction_eq]
        obtain ⟨hlt, hget⟩ := List.getElem?_eq_some_iff.mp hix
        have htake := (List.prefix_iff_eq_take.mp (ih hrec).issued_isPrefix)
        rw [List.length_map] at htake
        have hlt' : (issued h address).length < t.message.calls.length := by
          rwa [TransactionMessage.calls, List.length_map]
        have hnext : t.message.calls[(issued h address).length] = t.message.instruction ix := by
          simp only [TransactionMessage.calls, List.getElem_map, hget]
        rw [htake, ← hnext, List.take_append_getElem hlt']
        exact List.take_prefix _ _
      · exact (ih hrec).cons (by simp [Event.loop?, heq])
    | finished address =>
      have hrec : recordAt h k = some t := hr
      by_cases heq : address = k
      · subst heq
        obtain ⟨-, -, t', ht', hlen⟩ := hok
        rw [hrec] at ht'
        obtain rfl := Option.some.inj ht'
        refine ⟨(ih hrec).issued_isPrefix, fun _ => (ih hrec).issued_isPrefix.eq_of_length ?_⟩
        rw [List.length_map, TransactionMessage.calls, List.length_map]
        exact hlen
      · exact (ih hrec).cons (by simp [Event.loop?, heq])
    | initialized | approved | entered | closed | provisioned =>
      exact (ih hr).cons (by simp [Event.loop?])

/-! ## The runtime -/

/-- The message calls other programs only. A call of the program itself would be an
instruction that may log anything, and may be refused. -/
def TransactionMessage.CallsOthers (env : Env) (message : TransactionMessage) : Prop :=
  ∀ ix ∈ message.calls, ix.programId ≠ env.programId

/-- What the runtime and the programs that come with it guarantee. -/
structure RuntimeRules (env : Env) : Prop where
  /-- of a program under way only its innermost callee may be itself: a foreign
  program cannot call back into an execution -/
  no_reentry : ∀ program, env.reenters program true = false
  /-- the System, Compute Budget and Associated Token Account programs never call
  this one -/
  no_callback : ∀ program ∈ [systemProgramId, Sdk.computeBudgetProgramId, Sdk.ataProgramId],
    env.reenters program false = false
  /-- programs have different addresses -/
  programId_notMem : env.programId ∉ [Sdk.computeBudgetProgramId, Sdk.ataProgramId,
    Sdk.tokenProgramId, Sdk.token2022ProgramId, Sdk.memoProgramId]

/-- The program is none of those looked for first. -/
theorem RuntimeRules.notMem (h : RuntimeRules env) :
    env.programId ∉ [systemProgramId, Sdk.computeBudgetProgramId, Sdk.ataProgramId] := by
  have hne := env.programId_ne
  have hnotMem := h.programId_notMem
  simp only [List.mem_cons, List.not_mem_nil, or_false, not_or] at hnotMem ⊢
  exact ⟨hne, hnotMem.1, hnotMem.2.1⟩

/-- Payments, refunds and memos are calls of other programs, so a message with exact flows
satisfies the assumption above. -/
theorem ExactFlows.callsOthers {π : Type} {pays : π → Instruction → Prop} {payees : List π}
    {vault : Pubkey} {feePayer : Option String} {maxFee : ℕ} {allowMemo : Bool}
    {message : TransactionMessage}
    (h : ExactFlows pays payees vault feePayer maxFee allowMemo message.calls)
    (hrules : RuntimeRules env) (hpays : ∀ p ix, pays p ix →
      ix.programId ∈ [systemProgramId, Sdk.tokenProgramId, Sdk.token2022ProgramId]) :
    message.CallsOthers env := by
  obtain ⟨payments, refunds, memos, hperm, hpayments, ⟨amounts, -, hrefunds⟩, hmemos⟩ := h.split
  have hne := env.programId_ne
  have hnotMem := hrules.programId_notMem
  intro ix hix hself
  rw [hperm.mem_iff, List.mem_append, List.mem_append] at hix
  rcases hix with hix | hix | hix
  · obtain ⟨p, -, hp⟩ := exists_left_of_forall₂ hpayments hix
    have hprogram := hpays p ix hp
    rw [hself] at hprogram
    simp_all
  · obtain ⟨lamports, -, dst, -, htransfer⟩ := exists_left_of_forall₂ hrefunds hix
    exact hne (hself.symm.trans htransfer.program_eq)
  · have hprogram := (hmemos ix hix).2.program_eq
    rw [hself] at hprogram
    simp_all

theorem not_inner_of_empty {s s' : State} (hempty : s.frames = []) : ¬Inner env s s' := by
  intro h
  cases h <;> simp_all

/-- Nothing happens inside an instruction that is over: with an empty stack there is no
inner step. -/
theorem eq_of_inner_run {s s' : State} (hempty : s.frames = [])
    (hrun : Relation.ReflTransGen (Inner env) s s') : s' = s := by
  rcases Relation.ReflTransGen.cases_head hrun with rfl | ⟨s₁, hstep, -⟩
  · rfl
  · exact absurd hstep (not_inner_of_empty hempty)

/-- A program that does not call back, on its own: nothing is logged, and it returns or goes
on. -/
theorem history_of_foreign_run {s s' : State} {program : Pubkey} {infos : List AccountInfo}
    (hno : env.reenters program false = false) (hframes : s.frames = [.foreign program infos])
    (hrun : Relation.ReflTransGen (Inner env) s s') :
    s'.history = s.history ∧ (s'.frames = [] ∨ s'.frames = [.foreign program infos]) := by
  induction hrun with
  | refl => exact ⟨rfl, .inr hframes⟩
  | @tail s₁ s₂ _ hstep ih =>
    obtain ⟨hhistory, hempty | hone⟩ := ih
    · exact absurd hstep (not_inner_of_empty hempty)
    · cases hstep with
      | call htop | callSelf htop | finish htop =>
        rw [hone] at htop
        cases htop
      | foreign htop => exact ⟨hhistory, .inr hone⟩
      | callback htop hreenters =>
        rw [hone] at htop
        cases htop
        rw [State.nested, hone] at hreenters
        simp [hno] at hreenters
      | leave htop =>
        rw [hone] at htop
        cases htop
        exact ⟨hhistory, .inl rfl⟩

/-- The execution of `address` alone is under way, or over; since the log `h` only its own
events happened. On top of it there may be a program that it called. -/
def Executing (address : Pubkey) (h : List Event) (s : State) : Prop :=
  (∃ loop, s.history = loop ++ h ∧ ∀ e ∈ loop, e.loop? = some address) ∧
  (s.frames = [] ∨ ∃ x : Execution, x.transaction = address ∧
    (s.frames = [.execution x] ∨ ∃ program infos, s.frames = [.foreign program infos, .execution x]))

theorem Executing.log {address : Pubkey} {h : List Event} {s : State} {e : Event}
    (hx : Executing address h s) (he : e.loop? = some address) :
    ∃ loop, e :: s.history = loop ++ h ∧ ∀ e ∈ loop, e.loop? = some address := by
  obtain ⟨⟨loop, hhistory, hloop⟩, -⟩ := hx
  exact ⟨e :: loop, by rw [hhistory, List.cons_append], List.forall_mem_cons.mpr ⟨he, hloop⟩⟩

/-- One step of an execution that only calls others: it calls, its callee works or returns,
or it returns. Nobody calls back. -/
theorem Executing.inner {address : Pubkey} {h : List Event} {s s' : State} (hs : Refines env s)
    (hno : ∀ program, env.reenters program true = false)
    (hcalls : ∀ r, recordAt s.history address = some r → r.message.CallsOthers env)
    (hx : Executing address h s) (hstep : Inner env s s') : Executing address h s' := by
  obtain ⟨hlog, hempty | ⟨x, rfl, hone | ⟨program, infos, htwo⟩⟩⟩ := id hx
  · exact absurd hstep (not_inner_of_empty hempty)
  · obtain ⟨r, hok⟩ := hs.top hone
    cases hstep with
    | call htop hcpi =>
      rw [hone] at htop
      cases htop
      exact ⟨hx.log rfl, .inr ⟨x.advance, rfl, .inr ⟨_, _, rfl⟩⟩⟩
    | callSelf htop hcpi _ hself =>
      rw [hone] at htop
      cases htop
      -- the call is one of the message, which has none to the program itself
      obtain ⟨ix, hix, hfor⟩ := hok.cpi_for hcpi
      refine absurd hself (hcalls r hok.record _ ?_)
      rw [hfor.instruction_eq]
      exact List.mem_map_of_mem (List.mem_of_getElem? hix)
    | finish htop =>
      rw [hone] at htop
      cases htop
      exact ⟨hx.log rfl, .inl rfl⟩
    | foreign htop | callback htop | leave htop =>
      rw [hone] at htop
      cases htop
  · cases hstep with
    | call htop | callSelf htop | finish htop =>
      rw [htwo] at htop
      cases htop
    | foreign htop => exact ⟨hlog, .inr ⟨x, rfl, .inr ⟨program, infos, htwo⟩⟩⟩
    | callback htop hreenters =>
      rw [htwo] at htop
      cases htop
      rw [State.nested, htwo] at hreenters
      simp [hno] at hreenters
    | leave htop =>
      rw [htwo] at htop
      cases htop
      exact ⟨hlog, .inr ⟨x, rfl, .inl rfl⟩⟩

/-- The run of such an execution, by induction; the messages are those of the end of the
run, where everything is on record. -/
theorem Executing.run {address : Pubkey} {h : List Event} {s s' : State} (hs : Refines env s)
    (hno : ∀ program, env.reenters program true = false)
    (hrun : Relation.ReflTransGen (Inner env) s s') (hcf : DistinctAddresses env s'.history)
    (hcalls : ∀ r, recordAt s'.history address = some r → r.message.CallsOthers env)
    (hx : Executing address h s) : Executing address h s' := by
  induction hrun with
  | refl => exact hx
  | @tail s₁ s₂ hrun hstep ih =>
    have hsuffix := (Step.inner hstep).history_suffix
    have hcf₁ := hcf.of_suffix hsuffix
    have hs₁ := hs.reaches (inner_run_reaches hrun) hcf₁
    have hcalls₁ : ∀ r, recordAt s₁.history address = some r → r.message.CallsOthers env :=
      fun r hr => hcalls r ((hs₁.inner hstep hcf).legal.recordAt_of_suffix hsuffix hr)
    exact (ih hcf₁ hcalls₁).inner hs₁ hno hcalls₁ hstep

/-! ## Segments -/

/-- What an outer instruction adds to the log, by its kind: one event, or for an execution
its entry and its loop. -/
structure Segment (env : Env) (o : OuterInstruction) (events : List Event) : Prop where
  /-- another program: nothing -/
  foreign : o.program ≠ env.programId → events = []
  /-- `create_transaction`: the proposal it describes -/
  create : o.program = env.programId → o.data.take 8 = createTransactionTag →
    ∃ address t, events = [.created address t] ∧
      Passes o.infos [t.multisig, address, t.creator, t.payer] ∧
      parseInstruction o.data = .ok (.createTransaction t.vaultIndex t.message)
  /-- `approve_transaction`: the approval of its member -/
  approve : o.program = env.programId → o.data.take 8 = approveTransactionTag →
    ∃ multisig address member, events = [.approved address member] ∧
      Passes o.infos [multisig, address, member]
  /-- `execute_transaction`: its loop, from entering it on -/
  execute : o.program = env.programId → o.data.take 8 = executeTransactionTag →
    ∃ multisig address index loop, events = loop ++ [.entered address multisig index] ∧
      Passes o.infos [multisig, address] ∧ ∀ e ∈ loop, e.loop? = some address
  /-- `close_transaction`: the closing -/
  close : o.program = env.programId → o.data.take 8 = closeTransactionTag →
    ∃ multisig address payer, events = [.closed address payer] ∧
      Passes o.infos [multisig, address, payer]

/-- How the runtime passes an instruction of a transaction to its program: the
privileges of the accounts are up to the transaction as a whole. -/
structure Instruction.SubmittedAs (ix : Instruction) (o : OuterInstruction) : Prop where
  program_eq : o.program = ix.programId
  keys_eq : o.infos.map AccountInfo.key = ix.keys
  data_eq : o.data = ix.data

/-- An instruction of one of the four kinds, or of a program that does not call back: what
the gates let through, apart from the proposals executed. -/
def OuterInstruction.Plain (env : Env) (o : OuterInstruction) : Prop :=
  (o.program ≠ env.programId → env.reenters o.program false = false) ∧
  (o.program = env.programId →
    o.data.take 8 ∈ [createTransactionTag, approveTransactionTag, executeTransactionTag,
      closeTransactionTag])

/-- The proposal an `execute_transaction` names. -/
def OuterInstruction.Executes (env : Env) (o : OuterInstruction) (address : Pubkey) : Prop :=
  o.program = env.programId ∧ o.data.take 8 = executeTransactionTag ∧
    (o.infos.map AccountInfo.key)[1]? = some address

/-- Lists that begin the same list are equal if they are equally long. -/
theorem eq_of_prefixes {α : Type} {l₁ l₂ l : List α} (h₁ : l₁ <+: l) (h₂ : l₂ <+: l)
    (hlen : l₁.length = l₂.length) : l₁ = l₂ :=
  (List.prefix_of_prefix_length_le h₁ h₂ hlen.le).eq_of_length hlen

/-- What a list begins with stays where it is. -/
theorem getElem?_of_isPrefix {α : Type} {l₁ l₂ : List α} {i : ℕ} {a : α} (h : l₁ <+: l₂)
    (ha : l₁[i]? = some a) : l₂[i]? = some a := by
  obtain ⟨rest, rfl⟩ := h
  rw [List.getElem?_append_left (List.getElem?_eq_some_iff.mp ha).1]
  exact ha

section Kinds

variable {o : OuterInstruction} {events : List Event}

/-- An instruction is of one kind: an instruction with one tag has no other, so its segment
is given by one clause. The three lemmas below are for the other tags. -/
theorem Segment.of_create (hprogram : o.program = env.programId)
    (htag : o.data.take 8 = createTransactionTag)
    (h : ∃ address t, events = [.created address t] ∧
      Passes o.infos [t.multisig, address, t.creator, t.payer] ∧
      parseInstruction o.data = .ok (.createTransaction t.vaultIndex t.message)) :
    Segment env o events where
  foreign hne := absurd hprogram hne
  create _ _ := h
  approve _ h' := absurd (htag.symm.trans h') (by decide)
  execute _ h' := absurd (htag.symm.trans h') (by decide)
  close _ h' := absurd (htag.symm.trans h') (by decide)

theorem Segment.of_approve (hprogram : o.program = env.programId)
    (htag : o.data.take 8 = approveTransactionTag)
    (h : ∃ multisig address member, events = [.approved address member] ∧
      Passes o.infos [multisig, address, member]) : Segment env o events where
  foreign hne := absurd hprogram hne
  create _ h' := absurd (htag.symm.trans h') (by decide)
  approve _ _ := h
  execute _ h' := absurd (htag.symm.trans h') (by decide)
  close _ h' := absurd (htag.symm.trans h') (by decide)

theorem Segment.of_execute (hprogram : o.program = env.programId)
    (htag : o.data.take 8 = executeTransactionTag)
    (h : ∃ multisig address index loop, events = loop ++ [.entered address multisig index] ∧
      Passes o.infos [multisig, address] ∧ ∀ e ∈ loop, e.loop? = some address) :
    Segment env o events where
  foreign hne := absurd hprogram hne
  create _ h' := absurd (htag.symm.trans h') (by decide)
  approve _ h' := absurd (htag.symm.trans h') (by decide)
  execute _ _ := h
  close _ h' := absurd (htag.symm.trans h') (by decide)

theorem Segment.of_close (hprogram : o.program = env.programId)
    (htag : o.data.take 8 = closeTransactionTag)
    (h : ∃ multisig address payer, events = [.closed address payer] ∧
      Passes o.infos [multisig, address, payer]) : Segment env o events where
  foreign hne := absurd hprogram hne
  create _ h' := absurd (htag.symm.trans h') (by decide)
  approve _ h' := absurd (htag.symm.trans h') (by decide)
  execute _ h' := absurd (htag.symm.trans h') (by decide)
  close _ _ := h

end Kinds

/-- An instruction of the program, and what it calls, add the segment of its kind. -/
theorem segment_of_process {s s' : State} {o : OuterInstruction} {bank : Bank} {out : Outcome}
    (hs : Refines env (s.apply out)) (hno : ∀ program, env.reenters program true = false)
    (hempty : s.frames = []) (hprogram : o.program = env.programId)
    (htag : o.data.take 8 ∈ [createTransactionTag, approveTransactionTag, executeTransactionTag,
      closeTransactionTag])
    (hprocess : processInstruction env bank s.ledger o.infos o.data = .ok out)
    (hrun : Relation.ReflTransGen (Inner env) (s.apply out) s')
    (hcf : DistinctAddresses env s'.history)
    (hcalls : ∀ k r, o.Executes env k → recordAt s'.history k = some r →
      r.message.CallsOthers env) :
    ∃ events, s'.history = events ++ s.history ∧ Segment env o events := by
  -- all but executions are done in one step
  have hquiet : out.execution = none → s'.history = out.event.toList ++ s.history := by
    intro hnone
    rw [eq_of_inner_run (by simp [State.apply, hnone, hempty]) hrun]
    rfl
  simp only [List.mem_cons, List.not_mem_nil, or_false] at htag
  obtain ⟨ix, hparse, heffect⟩ := processInstruction_effect hprocess
  rcases htag with htag | htag | htag | htag
  · obtain ⟨ledger', address, m, t, rfl, -, hpasses, hread⟩ := created_of_process htag hprocess
    exact ⟨_, hquiet rfl, .of_create hprogram htag ⟨address, t, rfl, hpasses, hread⟩⟩
  · rw [parseInstruction_approve htag] at hparse
    obtain ⟨⟨index, _⟩, -, rfl⟩ := readArgs_eq_ok.mp hparse
    cases heffect with
    | @approved ledger' address member m t ha hpasses _ =>
      exact ⟨_, hquiet rfl, .of_approve hprogram htag ⟨t.multisig, address, member, rfl, hpasses⟩⟩
  · rw [parseInstruction_execute htag] at hparse
    obtain ⟨⟨index, _⟩, -, rfl⟩ := readArgs_eq_ok.mp hparse
    cases heffect with
    | @entered ledger' x m t hen hpasses =>
      have hx : Executing x.transaction
          (.entered x.transaction t.multisig t.transactionIndex :: s.history)
          (s.apply ⟨ledger', some (.entered x.transaction t.multisig t.transactionIndex),
            some x⟩) := by
        refine ⟨⟨[], rfl, fun e he => absurd he List.not_mem_nil⟩, .inr ⟨x, rfl, .inl ?_⟩⟩
        simp [State.apply, hempty]
      -- from here on the loop of this execution is all that adds to the log
      obtain ⟨⟨loop, hhistory, hloop⟩, -⟩ := hx.run hs hno hrun hcf
        (hcalls x.transaction · ⟨hprogram, htag, getElem?_of_isPrefix hpasses rfl⟩)
      refine ⟨loop ++ [.entered x.transaction t.multisig t.transactionIndex], ?_,
        .of_execute hprogram htag ⟨t.multisig, x.transaction, _, loop, rfl, hpasses, hloop⟩⟩
      rw [hhistory, List.append_assoc, List.singleton_append]
  · rw [parseInstruction_close htag] at hparse
    obtain ⟨⟨index, _⟩, -, rfl⟩ := readArgs_eq_ok.mp hparse
    cases heffect with
    | @closed ledger' address t hc hpasses _ =>
      exact ⟨_, hquiet rfl, .of_close hprogram htag ⟨t.multisig, address, t.payer, rfl, hpasses⟩⟩

/-- A `create_transaction` of a transaction that lands creates the proposal it
describes, at a fresh address. -/
theorem Lands.created {s s' : State} {os : List OuterInstruction} {o : OuterInstruction}
    (hland : Lands env s os s') (hs : Refines env s) (hcf : DistinctAddresses env s'.history)
    (ho : o ∈ os) (hprogram : o.program = env.programId)
    (htag : o.data.take 8 = createTransactionTag) :
    ∃ address t, recordAt s.history address = none ∧ recordAt s'.history address = some t ∧
      (∃ vault, t.ValidFor env vault) ∧
      Passes o.infos [t.multisig, address, t.creator, t.payer] ∧
      parseInstruction o.data = .ok (.createTransaction t.vaultIndex t.message) := by
  induction hland with
  | nil => cases ho
  | @cons s s₁ s₂ s₃ o' os hempty hkeys hsubmit hrun hend hland ih =>
    have hsuffix₂ := hland.reaches.history_suffix
    have hsuffix₁ := (inner_run_reaches hrun).history_suffix.trans hsuffix₂
    have hcf₂ := hcf.of_suffix hsuffix₂
    have hs₁ := hs.step (.submit hempty hkeys hsubmit) (hcf.of_suffix hsuffix₁)
    have hs₂ := hs₁.reaches (inner_run_reaches hrun) hcf₂
    have hs₃ := hs₂.reaches hland.reaches hcf
    rcases List.mem_cons.mp ho with rfl | ho
    · cases hsubmit with
      | foreign hne => exact absurd hprogram hne
      | process _ hprocess =>
        obtain ⟨ledger', address, m, t, rfl, hc, hpasses, hread⟩ := created_of_process htag hprocess
        have hrecord := hs₃.legal.recordAt_of_suffix hsuffix₁ (if_pos rfl)
        exact ⟨address, t, (Legal.head hs₁.legal).1, hrecord, hc.valid, hpasses, hread⟩
    · obtain ⟨address, t, hfresh, hrest⟩ := ih hs₂ hcf ho
      refine ⟨address, t, Option.eq_none_iff_forall_ne_some.mpr fun r hr => ?_, hrest⟩
      -- a record from before would still be there
      have hsuffix := (Step.submit hempty hkeys hsubmit).history_suffix.trans
        (inner_run_reaches hrun).history_suffix
      rw [hs₂.legal.recordAt_of_suffix hsuffix hr] at hfresh
      cases hfresh

/-- **A transaction that lands adds one segment for each of its instructions**, in their
order. The induction is on the transaction, and the execution of each proposal is
`Executing.run`. -/
theorem Lands.segments {s s' : State} {os : List OuterInstruction} (hland : Lands env s os s')
    (hs : Refines env s) (hrules : RuntimeRules env) (hcf : DistinctAddresses env s'.history)
    (hplain : ∀ o ∈ os, o.Plain env)
    (hcalls : ∀ o ∈ os, ∀ k r, o.Executes env k → recordAt s'.history k = some r →
      r.message.CallsOthers env) :
    ∃ segments, List.Forall₂ (Segment env) os segments ∧
      s'.history = segments.reverse.flatten ++ s.history := by
  induction hland with
  | nil => exact ⟨[], .nil, rfl⟩
  | @cons s s₁ s₂ s₃ o os hempty hkeys hsubmit hrun hend hland ih =>
    obtain ⟨hplain₀, hplain⟩ := List.forall_mem_cons.mp hplain
    obtain ⟨hcalls₀, hcalls⟩ := List.forall_mem_cons.mp hcalls
    have hsuffix := hland.reaches.history_suffix
    have hcf₂ := hcf.of_suffix hsuffix
    have hcf₁ := hcf₂.of_suffix (inner_run_reaches hrun).history_suffix
    have hs₁ := hs.step (.submit hempty hkeys hsubmit) hcf₁
    have hs₂ := hs₁.reaches (inner_run_reaches hrun) hcf₂
    have hs₃ := hs₂.reaches hland.reaches hcf
    have hfirst : ∃ events, s₂.history = events ++ s.history ∧ Segment env o events := by
      cases hsubmit with
      | process hprogram hprocess =>
        refine segment_of_process hs₁ hrules.no_reentry hempty hprogram (hplain₀.2 hprogram)
          hprocess hrun hcf₂ fun k r hk hr => hcalls₀ k r hk ?_
        exact hs₃.legal.recordAt_of_suffix hsuffix hr
      | foreign hne =>
        obtain ⟨hhistory, -⟩ := history_of_foreign_run (hplain₀.1 hne)
          (by rw [State.enter, hempty]) hrun
        refine ⟨[], hhistory, fun _ => rfl, ?_, ?_, ?_, ?_⟩ <;> exact fun h => absurd h hne
    obtain ⟨events, hevents, hsegment⟩ := hfirst
    obtain ⟨segments, hsegments, hhistory⟩ := ih hs₂ hcf hplain hcalls
    refine ⟨events :: segments, .cons hsegment hsegments, ?_⟩
    rw [hhistory, hevents]
    simp

end SolanaMultisig
