import SolanaMultisig.Refinement

/-!
# Every run refines the log

The steps of the machine one by one: a call of an execution is the next one its
message stands for, the write-back at the end changes nothing, and foreign
programs are harmless. `refines_of_reachable` puts them together.
-/

namespace SolanaMultisig

open Wire EventLog

variable {env : Env}

/-! ## The loop of calls -/

theorem VaultTransaction.SameProposal.message_eq {t r : VaultTransaction}
    (h : t.SameProposal r) : t.message = r.message := by
  rw [h]

theorem VaultTransaction.SameProposal.vaultSignerSeeds_eq {t r : VaultTransaction}
    (h : t.SameProposal r) (multisig : Pubkey) :
    vaultSignerSeeds multisig t = vaultSignerSeeds multisig r := by
  rw [h]
  rfl

/-- The next call is the one the stored message stands for. It is compiled from the cached
copy, which differs from the record in approvals and flag only. -/
theorem ExecutionOk.cpi_for {h : List Event} {e : Execution} {r : VaultTransaction} {cpi : Cpi}
    (he : ExecutionOk h e r) (hcpi : e.nextCpi = some (.ok cpi)) :
    ∃ ix, r.message.instructions[(issued h e.transaction).length]? = some ix ∧ cpi.For r ix := by
  obtain ⟨ix, hix, hcompile⟩ := Option.map_eq_some_iff.mp hcpi
  have hmatch := (resolveAccounts_eq_ok.mp e.resolved).2.2
  obtain ⟨hinstruction, hseeds, hinfos⟩ := compileCpi_eq_ok hmatch hcompile
  rw [he.same.message_eq] at hix hinstruction
  refine ⟨ix, by rw [he.next_eq, hix], hinstruction, ?_, hinfos⟩
  rw [hseeds, he.same.vaultSignerSeeds_eq, he.multisig_eq]

/-- The next call is allowed by the log: it is the one after those that were issued. -/
theorem ExecutionOk.allowed_invoked {h : List Event} {e : Execution} {r : VaultTransaction}
    {cpi : Cpi} (he : ExecutionOk h e r) (hcpi : e.nextCpi = some (.ok cpi)) :
    Allowed env h (.invoked e.transaction cpi) := by
  obtain ⟨ix, hix, hfor⟩ := he.cpi_for hcpi
  exact ⟨he.entered, he.running, r, ix, he.record, hix, hfor⟩

/-- Issuing a call moves the execution to the next instruction, on the stack and in the log.
-/
theorem ExecutionOk.advance {h : List Event} {e : Execution} {r : VaultTransaction} {cpi : Cpi}
    (he : ExecutionOk h e r) : ExecutionOk (.invoked e.transaction cpi :: h) e.advance r where
  record := he.record
  same := he.same
  multisig_eq := he.multisig_eq
  entered := by
    obtain ⟨multisig, index, hmem⟩ := he.entered
    exact ⟨multisig, index, List.mem_cons_of_mem _ hmem⟩
  running := by
    intro hmem
    rcases List.mem_cons.mp hmem with heq | hmem
    · cases heq
    · exact he.running hmem
  next_eq := by
    have hissued : issued (.invoked e.transaction cpi :: h) e.transaction =
        issued h e.transaction ++ [cpi] := by rw [issued, if_pos rfl]
    rw [Execution.advance, hissued, List.length_append, he.next_eq]
    rfl
  current := he.current

theorem transactions_cons (e : Execution) (rest : List Frame) :
    (Frame.execution e :: rest).filterMap Frame.transaction? =
      e.transaction :: rest.filterMap Frame.transaction? :=
  rfl

/-- The frames below are not concerned by what the execution on top does, since no two of
them run the same proposal. -/
theorem Refines.below {s : State} {e : Execution} {rest : List Frame} (hs : Refines env s)
    (hframes : s.frames = .execution e :: rest) {f : Frame} (hf : f ∈ rest) {k : Pubkey}
    (hk : f.transaction? = some k) : k ≠ e.transaction := by
  have hdistinct := hs.distinct
  rw [hframes, transactions_cons] at hdistinct
  rintro rfl
  exact (List.nodup_cons.mp hdistinct).1 (List.mem_filterMap.mpr ⟨f, hf, hk⟩)

theorem Refines.top {s : State} {e : Execution} {rest : List Frame} (hs : Refines env s)
    (hframes : s.frames = .execution e :: rest) : ∃ r, ExecutionOk s.history e r :=
  hs.frames (.execution e) (by rw [hframes]; exact List.mem_cons_self)

/-- Logging a call and moving on keeps machine and log together. -/
theorem Refines.issue {s : State} {e : Execution} {rest : List Frame} {cpi : Cpi}
    (hs : Refines env s) (hframes : s.frames = .execution e :: rest)
    (hcpi : e.nextCpi = some (.ok cpi)) : Refines env (s.issue e rest cpi) := by
  obtain ⟨r, he⟩ := hs.top hframes
  have hl : LegalLog env (.invoked e.transaction cpi :: s.history) :=
    .cons hs.legal (he.allowed_invoked hcpi)
  refine ⟨hl, ?_, ?_, ?_⟩
  · exact ⟨hs.accounts.multisigs, hs.accounts.proposals, hs.accounts.closed⟩
  · intro f hf
    rcases List.mem_cons.mp hf with rfl | hf
    · exact ⟨r, he.advance⟩
    · have hmem : f ∈ s.frames := by rw [hframes]; exact List.mem_cons_of_mem _ hf
      refine (hs.frames f hmem).cons hl fun k hk heq => ?_
      exact hs.below hframes hf hk (Option.some.inj heq).symm
  · have hdistinct := hs.distinct
    rw [hframes] at hdistinct
    exact hdistinct

/-- A call is signed for the vault of its proposal, and for nobody else: the message has one
signer slot, and the seeds are that vault's. -/
theorem ExecutionOk.vault_of_signed {h : List Event} {e : Execution} {r : VaultTransaction}
    {cpi : Cpi} {k : Pubkey} (hl : LegalLog env h) (he : ExecutionOk h e r)
    (hcpi : e.nextCpi = some (.ok cpi)) (hsigned : Signed cpi.calleeInfos k) :
    deriveVaultPda env r.multisig r.vaultIndex = some (k, r.vaultBump) := by
  obtain ⟨ix, hix, hfor⟩ := he.cpi_for hcpi
  obtain ⟨-, -, -, -, -, ⟨vault, hvault, hvalid⟩, -⟩ := hl.created_split he.record
  obtain ⟨info, hinfo, hkey, hsigner⟩ := hsigned
  rw [Cpi.calleeInfos, hfor.instruction_eq, TransactionMessage.instruction, List.map_map] at hinfo
  obtain ⟨i, hi, rfl⟩ := List.mem_map.mp hinfo
  have hlt := (hvalid.valid ix (List.mem_of_getElem? hix)).account_lt i hi
  have hk : r.message.key i = vault := (hvalid.isSigner_iff hlt).mp hsigner
  rw [hvault, ← hkey]
  exact congrArg (fun v => some (v, r.vaultBump)) hk.symm

/-- Calls are signed for no address of the program but vaults. -/
theorem frameOk_callee {h : List Event} {e : Execution} {r : VaultTransaction} {cpi : Cpi}
    (hl : LegalLog env h) (he : ExecutionOk h e r) (hcpi : e.nextCpi = some (.ok cpi)) :
    FrameOk env (.invoked e.transaction cpi :: h)
      (.foreign cpi.instruction.programId cpi.calleeInfos) :=
  fun _ hsigned _ => ⟨e.transaction, r, he.record, he.vault_of_signed hl hcpi hsigned⟩

/-- Calling another program keeps machine and log together: it starts with the vault's
signature at most. -/
theorem Refines.call {s : State} {e : Execution} {rest : List Frame} {cpi : Cpi}
    (hs : Refines env s) (hframes : s.frames = .execution e :: rest)
    (hcpi : e.nextCpi = some (.ok cpi)) :
    Refines env ((s.issue e rest cpi).enter cpi.instruction.programId cpi.calleeInfos) := by
  have hi := hs.issue hframes hcpi
  obtain ⟨r, he⟩ := hs.top hframes
  refine ⟨hi.legal, hi.accounts, ?_, hi.distinct⟩
  intro f hf
  rcases List.mem_cons.mp hf with rfl | hf
  · exact frameOk_callee hs.legal he hcpi
  · exact hi.frames f hf

/-- **The write-back at the end of an execution changes nothing**: the cached proposal is
still what the account holds, or the account is gone. Without the mark before the calls, an
approval given during one of them would be overwritten here. -/
theorem Refines.exit_eq {s : State} {e : Execution} {rest : List Frame} {ledger : Ledger}
    (hs : Refines env s) (hframes : s.frames = .execution e :: rest)
    (hexit : transactionAccount.exit env s.ledger e.transaction e.cached = .ok ledger) :
    ledger = s.ledger := by
  obtain ⟨r, he⟩ := hs.top hframes
  have hsame : transactionAccount.exit env s.ledger e.transaction e.cached = .ok s.ledger := by
    cases hp : proposalAt s.history e.transaction with
    | none => exact AccountType.exit_vacant (hs.accounts.closed _ r he.record hp)
    | some t =>
      obtain rfl := he.current t hp
      exact AccountType.exit_of_holds ((hs.accounts.proposals _ _).mpr hp)
  rw [hsame] at hexit
  exact (Except.ok.inj hexit).symm

/-- The return of an execution keeps machine and log together. -/
theorem Refines.finish {s : State} {e : Execution} {rest : List Frame} {ledger : Ledger}
    (hs : Refines env s) (hframes : s.frames = .execution e :: rest) (hnext : e.nextCpi = none)
    (hexit : transactionAccount.exit env s.ledger e.transaction e.cached = .ok ledger) :
    Refines env ⟨ledger, rest, .finished e.transaction :: s.history⟩ := by
  obtain rfl := hs.exit_eq hframes hexit
  obtain ⟨r, he⟩ := hs.top hframes
  have hle : e.cached.message.instructions.length ≤ e.next :=
    List.getElem?_eq_none_iff.mp (Option.map_eq_none_iff.mp hnext)
  have hl : LegalLog env (.finished e.transaction :: s.history) := by
    refine .cons hs.legal ⟨he.entered, he.running, r, he.record, ?_⟩
    rw [he.same.message_eq, ← he.next_eq] at hle
    exact le_antisymm (hs.legal.issued_length_le he.record) hle
  refine ⟨hl, ?_, ?_, ?_⟩
  · exact ⟨hs.accounts.multisigs, hs.accounts.proposals, hs.accounts.closed⟩
  · intro f hf
    have hmem : f ∈ s.frames := by rw [hframes]; exact List.mem_cons_of_mem _ hf
    refine (hs.frames f hmem).cons hl fun k hk heq => ?_
    exact hs.below hframes hf hk (Option.some.inj heq).symm
  · have hdistinct := hs.distinct
    rw [hframes, transactions_cons] at hdistinct
    exact (List.nodup_cons.mp hdistinct).2

/-! ## All steps -/

/-- Whatever goes on inside a call keeps machine and log together, one case for each
constructor. -/
theorem Refines.inner {s s' : State} (hs : Refines env s) (hstep : Inner env s s')
    (hcf : DistinctAddresses env s'.history) : Refines env s' := by
  cases hstep with
  | call hframes hcpi _ _ => exact hs.call hframes hcpi
  | callSelf hframes hcpi _ _ hprocess =>
    obtain ⟨_, -, heffect⟩ := processInstruction_effect hprocess
    exact (hs.issue hframes hcpi).apply heffect hcf
  | finish hframes hnext hexit => exact hs.finish hframes hnext hexit
  | @foreign program infos rest ledger hframes hforeign =>
    have hf := hs.frames (.foreign program infos) (by rw [hframes]; exact List.mem_cons_self)
    exact ⟨hs.legal, hs.accounts.foreign hs.legal hforeign fun k t => hf.not_signed hs.legal hcf,
      hs.frames, hs.distinct⟩
  | callback _ _ _ hprocess =>
    obtain ⟨_, -, heffect⟩ := processInstruction_effect hprocess
    exact hs.apply heffect hcf
  | leave hframes =>
    have hdistinct := hs.distinct
    rw [hframes, List.filterMap_cons_none rfl] at hdistinct
    refine ⟨hs.legal, hs.accounts, fun f hf => hs.frames f ?_, hdistinct⟩
    rw [hframes]
    exact List.mem_cons_of_mem _ hf

/-- **Every step keeps machine and log together**, those of other programs and of the
cluster between transactions included. -/
theorem Refines.step {s s' : State} (hs : Refines env s) (hstep : Step env s s')
    (hcf : DistinctAddresses env s'.history) : Refines env s' := by
  cases hstep with
  | inner hinner => exact hs.inner hinner hcf
  | settle _ hforeign =>
    refine ⟨hs.legal, hs.accounts.foreign hs.legal hforeign ?_, hs.frames, hs.distinct⟩
    rintro k t - ⟨info, hinfo, -⟩
    exact List.not_mem_nil hinfo
  | submit _ hkeys hsubmit =>
    cases hsubmit with
    | process _ hprocess =>
      obtain ⟨_, -, heffect⟩ := processInstruction_effect hprocess
      exact hs.apply heffect hcf
    | foreign _ =>
      refine ⟨hs.legal, hs.accounts, ?_, hs.distinct⟩
      intro f hf
      rcases List.mem_cons.mp hf with rfl | hf
      · exact fun k hsigned hpda => absurd hpda (hkeys k hsigned)
      · exact hs.frames f hf

/-- An empty log describes the empty chain. -/
theorem refines_of_genesis {s : State} (hg : Genesis env s) : Refines env s where
  legal := by
    rw [hg.history_eq]
    exact .nil
  accounts := by
    rw [hg.history_eq]
    exact
      { multisigs := fun k m => iff_none (fun h => hg.untyped k h.typed_multisig) rfl m
        proposals := fun k t => iff_none (fun h => hg.untyped k h.typed_transaction) rfl t
        closed := fun k t hr => by cases hr }
  frames := by
    rw [hg.frames_eq]
    exact fun f hf => absurd hf List.not_mem_nil
  distinct := by
    rw [hg.frames_eq]
    exact List.nodup_nil

theorem Refines.reaches {s s' : State} (hs : Refines env s) (hrun : Reaches env s s')
    (hcf : DistinctAddresses env s'.history) : Refines env s' := by
  induction hrun with
  | refl => exact hs
  | tail _ hstep ih => exact (ih (hcf.of_suffix hstep.history_suffix)).step hstep hcf

/-- **The refinement**: in every state of every run in which no addresses collide, machine
and log agree. Statements about runs are proved on the log and carried over by it. -/
theorem refines_of_reachable {s : State} (hs : Reachable env s)
    (hcf : DistinctAddresses env s.history) : Refines env s := by
  obtain ⟨genesis, hg, hrun⟩ := hs.reaches
  exact (refines_of_genesis hg).reaches hrun hcf

end SolanaMultisig
