import SolanaMultisig.BuildPath
import SolanaMultisig.Reentry

/-!
# All calls or none

Between transactions no execution is half done: a proposal that was entered has
issued every instruction of its message, once and in order, and any other has issued
none (`executed_all_or_none`). And an execution that was entered does not fail by
itself: every call can be built, the runtime can only miss a writable account, and the
write-back succeeds (`execution_never_stuck`).
-/

namespace SolanaMultisig

open Wire Guard EventLog

variable {env : Env}

/-! ## Executions under way -/

/-- The execution of the proposal at `k` was entered and has not returned. -/
def Running (h : List Event) (k : Pubkey) : Prop := Entered h k ∧ .finished k ∉ h

/-- Every execution that has not returned is on the stack; so when the stack is empty, all
that were entered have returned. -/
def Stacked (s : State) : Prop :=
  ∀ k, Running s.history k → ∃ e, .execution e ∈ s.frames ∧ e.transaction = k

section Stacked

variable {s s' : State} {k : Pubkey}

theorem Running.of_cons {h : List Event} {x : Event} (hr : Running (x :: h) k) :
    Running h k ∨ ∃ multisig index, x = .entered k multisig index := by
  obtain ⟨⟨multisig, index, hmem⟩, hfinished⟩ := hr
  rcases List.mem_cons.mp hmem with rfl | hmem
  · exact .inr ⟨multisig, index, rfl⟩
  · exact .inl ⟨⟨multisig, index, hmem⟩, fun h => hfinished (List.mem_cons_of_mem _ h)⟩

/-- Logging anything else needs no new call: only an entry starts an execution. -/
theorem Stacked.cons {x : Event} {frames : List Frame} {ledger : Ledger} (hs : Stacked s)
    (hx : ∀ multisig index, x ≠ .entered k multisig index) (hr : Running (x :: s.history) k)
    (hframes : ∀ e, .execution e ∈ s.frames → e.transaction = k → .execution e ∈ frames) :
    ∃ e, .execution e ∈ (⟨ledger, frames, x :: s.history⟩ : State).frames ∧ e.transaction = k := by
  rcases hr.of_cons with hold | ⟨multisig, index, he⟩
  · obtain ⟨e, hmem, hkey⟩ := hs k hold
    exact ⟨e, hframes e hmem hkey, hkey⟩
  · exact absurd he (hx multisig index)

/-- An instruction of the program puts what it enters on the stack. -/
theorem Stacked.apply {bank : Bank} {ledger : Ledger} {infos : List AccountInfo}
    {data : List UInt8} {o : Outcome} (hs : Stacked s)
    (h : processInstruction env bank ledger infos data = .ok o) : Stacked (s.apply o) := by
  obtain ⟨_, -, heffect⟩ := processInstruction_effect h
  intro k hr
  cases heffect with
  | @entered ledger' x m t hen _ =>
    rcases hr.of_cons with hold | ⟨multisig, index, he⟩
    · obtain ⟨e, hmem, hkey⟩ := hs k hold
      exact ⟨e, List.mem_cons_of_mem _ hmem, hkey⟩
    · cases he
      exact ⟨x, List.mem_cons_self, rfl⟩
  | initialized | created | approved | closed | provisioned =>
    exact hs.cons (fun _ _ => by simp) hr fun _ hmem _ => hmem
  | viewedAddress | viewedVault => exact hs k hr

theorem Stacked.issue {e : Execution} {rest : List Frame} {cpi : Cpi} (hs : Stacked s)
    (hframes : s.frames = .execution e :: rest) : Stacked (s.issue e rest cpi) := by
  intro k hr
  rcases hr.of_cons with hold | ⟨multisig, index, he⟩
  · obtain ⟨x, hmem, hkey⟩ := hs k hold
    rw [hframes] at hmem
    rcases List.mem_cons.mp hmem with heq | hmem
    · cases heq
      exact ⟨e.advance, List.mem_cons_self, hkey⟩
    · exact ⟨x, List.mem_cons_of_mem _ hmem, hkey⟩
  · cases he

/-- Foreign programs come and go, and leave the executions below them on the stack. -/
theorem Stacked.of_frames (hs : Stacked s) (hhistory : s'.history = s.history)
    (hframes : ∀ e, .execution e ∈ s.frames → .execution e ∈ s'.frames) : Stacked s' := by
  intro k hr
  obtain ⟨e, hmem, hkey⟩ := hs k (hhistory ▸ hr)
  exact ⟨e, hframes e hmem, hkey⟩

theorem Stacked.step (hs : Stacked s) (hstep : Step env s s') : Stacked s' := by
  cases hstep with
  | settle => exact hs.of_frames rfl fun _ hmem => hmem
  | submit _ _ hsubmit =>
    cases hsubmit with
    | process _ hprocess => exact hs.apply hprocess
    | foreign _ => exact hs.of_frames rfl fun _ hmem => List.mem_cons_of_mem _ hmem
  | inner hinner =>
    cases hinner with
    | call hframes =>
      exact (hs.issue hframes).of_frames rfl fun _ hmem => List.mem_cons_of_mem _ hmem
    | callSelf hframes _ _ _ hprocess => exact (hs.issue hframes).apply hprocess
    | @finish e rest ledger hframes =>
      intro k hr
      refine hs.cons (fun _ _ => by simp) hr fun x hmem hkey => ?_
      rw [hframes] at hmem
      refine (List.mem_cons.mp hmem).resolve_left fun heq => ?_
      -- the one that returns is not running any more
      cases heq
      exact hr.2 (hkey ▸ List.mem_cons_self)
    | foreign => exact hs.of_frames rfl fun _ hmem => hmem
    | callback _ _ _ hprocess => exact hs.apply hprocess
    | leave hframes =>
      refine hs.of_frames rfl fun x hmem => ?_
      rw [hframes] at hmem
      exact (List.mem_cons.mp hmem).resolve_left (by simp)

theorem stacked_of_reachable (hs : Reachable env s) : Stacked s := by
  obtain ⟨genesis, hg, hrun⟩ := hs.reaches
  have hstart : Stacked genesis := by
    rintro k ⟨⟨multisig, index, hmem⟩, -⟩
    rw [hg.history_eq] at hmem
    exact absurd hmem List.not_mem_nil
  induction hrun with
  | refl => exact hstart
  | tail hrun hstep ih => exact (ih (reachable_of_reaches hg hrun)).step hstep

end Stacked

/-! ## Executed or not -/

/-- A creation in the log is on record. -/
theorem LegalLog.recordAt_of_mem {h : List Event} {k : Pubkey} {t : VaultTransaction}
    (hl : LegalLog env h) (hcreated : .created k t ∈ h) : recordAt h k = some t := by
  obtain ⟨later, earlier, rfl⟩ := List.append_of_mem hcreated
  exact hl.recordAt_of_created

/-- Only the execution marks a proposal, so the flag is never set without the entry in the
log. -/
theorem LegalLog.entered_of_executed {h : List Event} {k : Pubkey} {t : VaultTransaction}
    (hl : LegalLog env h) (ht : proposalAt h k = some t) (hexecuted : t.executed = true) :
    Entered h k := by
  induction hl generalizing t with
  | nil => cases ht
  | @cons h e hl hok ih =>
    have hkeep : Entered h k → Entered (e :: h) k := fun ⟨multisig, index, hmem⟩ =>
      ⟨multisig, index, List.mem_cons_of_mem _ hmem⟩
    rcases proposalAt_cases ht with ⟨ht', -⟩ | rfl | ⟨t', member, rfl, ht', rfl⟩ |
      ⟨t', multisig, index, rfl, ht', rfl⟩
    · exact hkeep (ih ht' hexecuted)
    · have hnot : t.executed = false := hok.2.2.2.1
      rw [hexecuted] at hnot
      cases hnot
    · exact hkeep (ih ht' hexecuted)
    · exact ⟨multisig, index, List.mem_cons_self⟩

/-- What is left of a proposal between transactions: everything was issued, or
nothing. -/
structure AllOrNone (env : Env) (s : State) (address : Pubkey) (t : VaultTransaction) : Prop where
  /-- entered and returned, with all calls of the message in order -/
  all : Entered s.history address →
    .finished address ∈ s.history ∧
      (issued s.history address).map Cpi.instruction = t.message.calls
  /-- never entered, without calls -/
  none : ¬Entered s.history address → issued s.history address = []
  /-- while the account lives, its flag tells which -/
  executed_iff : ∀ t', transactionAccount.Holds env s.ledger address t' →
    (t'.executed = true ↔ Entered s.history address)

/-- **All calls or none.** In every reachable state between transactions, whatever
failed on the way and whatever the calls did: each proposal ever created has issued all
instructions of the message it was created with, each once and in order, or none of
them; and the flag of the account, while it is there, tells which. -/
theorem executed_all_or_none {s : State} (hs : Reachable env s) (hidle : s.frames = [])
    (hcf : DistinctAddresses env s.history) {address : Pubkey} {t : VaultTransaction}
    (hcreated : .created address t ∈ s.history) : AllOrNone env s address t := by
  have href := refines_of_reachable hs hcf
  have hl := href.legal
  have hr := hl.recordAt_of_mem hcreated
  refine
    { all := fun hentered => ?_
      none := fun hnot => hl.issued_eq_nil hnot
      executed_iff := fun t' ht' => ?_ }
  · have hfinished : .finished address ∈ s.history := by
      by_contra hrunning
      obtain ⟨e, hmem, -⟩ := stacked_of_reachable hs address ⟨hentered, hrunning⟩
      rw [hidle] at hmem
      exact List.not_mem_nil hmem
    exact ⟨hfinished, (hl.runs hr).issued_eq hfinished⟩
  · have hlog := (href.accounts.proposals _ _).mp ht'
    exact ⟨hl.entered_of_executed hlog, fun hentered => hl.executed_of_entered hentered hlog⟩

/-- The proposal of the example was executed as a whole. -/
theorem executed_all_or_none_example : ∃ s, Reachable Example.cluster s ∧ s.frames = [] ∧
    AllOrNone Example.cluster s Example.transaction Example.record := by
  obtain ⟨s, hs, hframes, hhistory⟩ := Example.exists_driven
  have hreach := reachable_of_reaches Example.genesis_genesis
    (drive_reaches Example.commands_keysOnly hs)
  have hcreated : .created Example.transaction Example.record ∈ s.history := by
    rw [hhistory]
    simp [Example.history]
  exact ⟨s, hreach, hframes,
    executed_all_or_none hreach hframes (hhistory ▸ Example.distinctAddresses) hcreated⟩

/-! ## Executions do not get stuck -/

/-- What holds when an execution starts, and does not depend on how far it is, holds of
all executions under way. -/
theorem Reachable.executions {P : Execution → Prop} {s : State} (hs : Reachable env s)
    (hstart : ∀ {bank : Bank} {ledger : Ledger} {infos : List AccountInfo} {data : List UInt8}
      {o : Outcome} {e : Execution}, processInstruction env bank ledger infos data = .ok o →
        o.execution = some e → P e)
    (hadvance : ∀ {e : Execution}, P e → P e.advance) {e : Execution}
    (he : .execution e ∈ s.frames) : P e := by
  obtain ⟨genesis, hg, hrun⟩ := hs.reaches
  have happly : ∀ {s : State} {bank : Bank} {ledger : Ledger} {infos : List AccountInfo}
      {data : List UInt8} {o : Outcome}, (∀ e, .execution e ∈ s.frames → P e) →
      processInstruction env bank ledger infos data = .ok o →
      ∀ e, .execution e ∈ (s.apply o).frames → P e := by
    intro s bank ledger infos data o ih hprocess e he
    rcases List.mem_append.mp he with hnew | hold
    · obtain ⟨x, hx, heq⟩ := Option.map_eq_some_iff.mp (Option.mem_toList.mp hnew)
      cases heq
      exact hstart hprocess hx
    · exact ih e hold
  have hissue : ∀ {s : State} {x : Execution} {rest : List Frame} {cpi : Cpi},
      (∀ e, .execution e ∈ s.frames → P e) → s.frames = .execution x :: rest →
      ∀ e, .execution e ∈ (s.issue x rest cpi).frames → P e := by
    intro s x rest cpi ih hframes e he
    rw [hframes] at ih
    rcases List.mem_cons.mp he with heq | he
    · cases heq
      exact hadvance (ih x List.mem_cons_self)
    · exact ih e (List.mem_cons_of_mem _ he)
  suffices hall : ∀ e, .execution e ∈ s.frames → P e from hall e he
  clear he
  induction hrun with
  | refl =>
    rw [hg.frames_eq]
    exact fun e he => absurd he List.not_mem_nil
  | @tail s₁ s₂ hrun hstep ih =>
    replace ih := ih (reachable_of_reaches hg hrun)
    cases hstep with
    | settle => exact ih
    | submit _ _ hsubmit =>
      cases hsubmit with
      | process _ hprocess => exact happly ih hprocess
      | foreign _ => exact fun e he => ih e ((List.mem_cons.mp he).resolve_left (by simp))
    | inner hinner =>
      cases hinner with
      | call hframes =>
        exact fun e he => hissue ih hframes e ((List.mem_cons.mp he).resolve_left (by simp))
      | callSelf hframes _ _ _ hprocess => exact happly (hissue ih hframes) hprocess
      | finish hframes | leave hframes =>
        rw [hframes] at ih
        exact fun e he => ih e (List.mem_cons_of_mem _ he)
      | foreign => exact ih
      | callback _ _ _ hprocess => exact happly ih hprocess

theorem Execution.start_accounts {multisig : AccountInfo} {transaction : Pubkey}
    {cached : VaultTransaction} {infos remaining : List AccountInfo} {e : Execution}
    (h : Execution.start multisig transaction cached infos remaining = .ok e) :
    e.infos = infos ∧ e.remaining = remaining := by
  unfold Execution.start at h
  split at h
  · cases h
  · cases h
    exact ⟨rfl, rfl⟩

/-- The remaining accounts are accounts of the instruction, with the privileges they have
there. -/
theorem remaining_subset {bank : Bank} {ledger : Ledger} {infos : List AccountInfo}
    {data : List UInt8} {o : Outcome} {e : Execution}
    (h : processInstruction env bank ledger infos data = .ok o) (he : o.execution = some e) :
    e.remaining ⊆ e.infos := by
  simp only [processInstruction, bind_eq_ok] at h
  obtain ⟨instruction, -, h⟩ := h
  have heffect := ProgramInstruction.process_effect h
  cases instruction with
  | executeTransaction =>
    obtain ⟨multisig, transaction, executor, remaining, rfl, m, -, t, -, -, -, -, record, -,
      written, -, execution, hstart, rfl⟩ := ExecuteTransaction.process_eq_ok.mp h
    cases he
    obtain ⟨hinfos, hremaining⟩ := Execution.start_accounts hstart
    rw [hinfos, hremaining]
    exact fun info hinfo => by simp [hinfo]
  | initializeMultisig | createTransaction | approveTransaction | closeTransaction |
      provisionNonce | deriveAddress | deriveVaultAddress =>
    cases heffect
    cases he

/-- The accounts a call writes to are writable for the executor: what the runtime asks of
the executor's account list, beside the keys, which were matched. -/
def Cpi.Covered (infos : List AccountInfo) (cpi : Cpi) : Prop :=
  ∀ account ∈ cpi.instruction.accounts, account.isWritable = true →
    ∃ info ∈ infos, info.key = account.pubkey ∧ info.isWritable = true

/-- The accounts the message declares writable are writable for the executor. -/
def Execution.Equipped (e : Execution) : Prop :=
  ∀ i k, e.cached.message.accountKeys[i]? = some k → e.cached.message.isWritable i = true →
    ∃ info ∈ e.infos, info.key = k ∧ info.isWritable = true

section Progress

variable {s : State} {e : Execution} {rest : List Frame}

/-- The message of an execution under way is valid for the vault it signs for: it was
validated when the proposal was created, and the copy differs in approvals and flag only. -/
theorem Refines.valid (hs : Refines env s) (hframes : s.frames = .execution e :: rest) :
    ∃ vault, ValidMessage e.cached.message vault ∧
      createProgramAddress env (vaultSignerSeeds e.multisig.key e.cached) env.programId =
        some vault := by
  obtain ⟨r, he⟩ := hs.top hframes
  obtain ⟨-, -, -, -, -, ⟨vault, hvault, hvalid⟩, -⟩ := hs.legal.created_split he.record
  refine ⟨vault, he.same.message_eq ▸ hvalid, ?_⟩
  rw [he.same.vaultSignerSeeds_eq, he.multisig_eq]
  exact createProgramAddress_of_find hvault

/-- **The next call can be built**, since the message is valid and the accounts were matched
when the execution started. -/
theorem Refines.nextCpi_isOk (hs : Refines env s) (hframes : s.frames = .execution e :: rest)
    {compiled : CompiledInstruction}
    (hix : e.cached.message.instructions[e.next]? = some compiled) :
    ∃ cpi, e.nextCpi = some (.ok cpi) ∧
      cpi.instruction = e.cached.message.instruction compiled ∧
      cpi.signerSeeds = vaultSignerSeeds e.multisig.key e.cached := by
  obtain ⟨vault, hvalid, -⟩ := hs.valid hframes
  have hmatch := (resolveAccounts_eq_ok.mp e.resolved).2.2
  obtain ⟨cpi, hcpi⟩ := compileCpi_of_valid e.multisig (vaultSignerSeeds e.multisig.key e.cached)
    hvalid (List.mem_of_getElem? hix) hmatch
  obtain ⟨hinstruction, hseeds, -⟩ := compileCpi_eq_ok hmatch hcpi
  refine ⟨cpi, ?_, hinstruction, hseeds⟩
  rw [Execution.nextCpi, hix, Option.map_some, hcpi]

/-- **The runtime asks for no more than writable accounts**: the keys were matched
before, and nobody but the vault has to sign. -/
theorem Refines.privileged_iff (hs : Refines env s) (hframes : s.frames = .execution e :: rest)
    (hsupplied : e.remaining ⊆ e.infos) {compiled : CompiledInstruction} {cpi : Cpi}
    (hix : compiled ∈ e.cached.message.instructions)
    (hinstruction : cpi.instruction = e.cached.message.instruction compiled)
    (hseeds : cpi.signerSeeds = vaultSignerSeeds e.multisig.key e.cached) :
    Privileged env e.infos cpi ↔ cpi.Covered e.infos := by
  obtain ⟨vault, hvalid, hvault⟩ := hs.valid hframes
  constructor
  · intro h account haccount hwritable
    obtain ⟨info, hinfo, hkey, himp⟩ := (h account haccount).1
    exact ⟨info, hinfo, hkey, himp hwritable⟩
  · intro h account haccount
    have hmem := haccount
    rw [hinstruction] at hmem
    obtain ⟨i, hi, rfl⟩ := List.mem_map.mp hmem
    have hlt := (hvalid.valid compiled hix).account_lt i hi
    refine ⟨?_, fun hsigner => .inr ?_⟩
    · by_cases hwritable : (e.cached.message.accountMeta i).isWritable = true
      · obtain ⟨info, hinfo, hkey, hw⟩ := h _ haccount hwritable
        exact ⟨info, hinfo, hkey, fun _ => hw⟩
      · obtain ⟨info, hinfo, hkey⟩ := key_of_resolved (resolveAccounts_eq_ok.mp e.resolved).2.2
          (TransactionMessage.getElem?_of_lt hlt)
        exact ⟨info, hsupplied (List.mem_of_getElem? hinfo), hkey, fun hw => absurd hw hwritable⟩
    · have hkey : e.cached.message.key i = vault := (hvalid.isSigner_iff hlt).mp hsigner
      rw [hseeds, hvault]
      exact congrArg some hkey.symm

/-- An execution with all accounts has them for each call: a call writes only to keys the
message declares writable. -/
theorem Execution.Equipped.covered (h : e.Equipped) {vault : Pubkey}
    {compiled : CompiledInstruction} {cpi : Cpi} (hvalid : ValidMessage e.cached.message vault)
    (hix : compiled ∈ e.cached.message.instructions)
    (hinstruction : cpi.instruction = e.cached.message.instruction compiled) :
    cpi.Covered e.infos := by
  intro account haccount hwritable
  rw [hinstruction] at haccount
  obtain ⟨i, hi, rfl⟩ := List.mem_map.mp haccount
  exact h i.toNat _
    (TransactionMessage.getElem?_of_lt ((hvalid.valid compiled hix).account_lt i hi)) hwritable

/-- Nothing is left to do but to return, and the write-back cannot fail
(`Refines.exit_isOk`). -/
theorem Refines.returns (hs : Refines env s) (hframes : s.frames = .execution e :: rest)
    (hnext : e.nextCpi = none) :
    Inner env s ⟨s.ledger, rest, .finished e.transaction :: s.history⟩ := by
  obtain ⟨ledger, hexit⟩ := hs.exit_isOk hframes
  obtain rfl := hs.exit_eq hframes hexit
  exact .finish hframes hnext hexit

/-- **An execution with all its accounts runs to its end**, if the programs it calls
return. The induction is on the number of calls left. -/
theorem Refines.execution_completes {n : ℕ} (hs : Refines env s)
    (hframes : s.frames = .execution e :: rest) (hsupplied : e.remaining ⊆ e.infos)
    (hequipped : e.Equipped) (hcalls : e.cached.message.CallsOthers env)
    (hn : e.cached.message.instructions.length ≤ e.next + n) :
    ∃ s', Relation.ReflTransGen (Inner env) s s' ∧ Refines env s' ∧ s'.frames = rest ∧
      s'.ledger = s.ledger ∧ .finished e.transaction ∈ s'.history := by
  induction n generalizing s e with
  | zero =>
    have hnext : e.nextCpi = none := by
      rw [Execution.nextCpi, List.getElem?_eq_none (by omega), Option.map_none]
    have hreturn := hs.returns hframes hnext
    obtain ⟨ledger, hexit⟩ := hs.exit_isOk hframes
    exact ⟨_, .single hreturn, hs.exit_eq hframes hexit ▸ hs.finish hframes hnext hexit, rfl, rfl,
      List.mem_cons_self⟩
  | succ n ih =>
    cases hix : e.cached.message.instructions[e.next]? with
    | none =>
      have hle := List.getElem?_eq_none_iff.mp hix
      exact ih hs hframes hsupplied hequipped hcalls (by omega)
    | some compiled =>
      have hmem := List.mem_of_getElem? hix
      obtain ⟨cpi, hcpi, hinstruction, hseeds⟩ := hs.nextCpi_isOk hframes hix
      obtain ⟨vault, hvalid, -⟩ := hs.valid hframes
      have hprivileged := (hs.privileged_iff hframes hsupplied hmem hinstruction hseeds).mpr
        (hequipped.covered hvalid hmem hinstruction)
      have hother : cpi.instruction.programId ≠ env.programId := by
        rw [hinstruction]
        exact hcalls _ (List.mem_map_of_mem hmem)
      obtain ⟨s', hrun, hrest⟩ := ih (e := e.advance) (s := s.issue e rest cpi)
        (hs.issue hframes hcpi) rfl hsupplied hequipped hcalls
        (by simp only [Execution.advance]; omega)
      -- the callee returns at once
      exact ⟨s', .head (.call hframes hcpi hprivileged hother) (.head (.leave rfl) hrun), hrest⟩

end Progress

end SolanaMultisig
