import SolanaMultisig.BundleRun

/-!
# Approvals by private keys

A member that is a vault approves through calls of the program. A member with a private
key approves by signing, and an execution does not hand its signature on: in a
transaction that calls no other programs than those that never call back, whatever it
executes, such a member approves what an outer instruction approves for it, and nothing
else (`Lands.approved_by_key`).
-/

namespace SolanaMultisig

open Wire Guard Sdk

variable {env : Env} {s s' : State} {address k : Pubkey}

/-! ## Inside an execution -/

/-- Whatever is under way was called by an execution: the state inside an outer
`execute_transaction`. -/
def Rooted (s : State) : Prop := ∀ f ∈ s.frames.getLast?, ∃ x, f = .execution x

/-- After the first step of an outer instruction of the program the stack is empty or holds
its execution. -/
theorem rooted_apply (hempty : s.frames = []) (o : Outcome) : Rooted (s.apply o) := by
  intro f hf
  rw [State.apply, hempty, List.append_nil] at hf
  obtain ⟨x, -, rfl⟩ := Option.map_eq_some_iff.mp (Option.mem_toList.mp (List.mem_of_getLast? hf))
  exact ⟨x, rfl⟩

theorem Rooted.nested {f : Frame} {rest : List Frame} (h : Rooted s)
    (hframes : s.frames = f :: rest) : s.nested = true := by
  obtain ⟨last, hlast⟩ : ∃ last, s.frames.getLast? = some last := by
    rw [hframes]
    exact ⟨_, List.getLast?_cons⟩
  obtain ⟨x, rfl⟩ := h last hlast
  exact List.any_eq_true.mpr ⟨.execution x, List.mem_of_getLast? hlast, rfl⟩

theorem Rooted.of_rest {f : Frame} {rest : List Frame} (h : Rooted s)
    (hframes : s.frames = f :: rest) (hs' : s'.frames = rest) : Rooted s' := by
  intro g hg
  rw [hs'] at hg
  refine h g ?_
  rw [hframes]
  cases rest with
  | nil => cases hg
  | cons g' rest => rwa [List.getLast?_cons_cons]

/-- What is called on top of an execution is rooted as well, since the bottom of the stack
is the same. -/
theorem Rooted.push {x x' : Execution} {rest : List Frame} (h : Rooted s) (new : List Frame)
    (hframes : s.frames = .execution x :: rest) (hs' : s'.frames = new ++ .execution x' :: rest) :
    Rooted s' := by
  intro f hf
  rw [hs', List.getLast?_append] at hf
  cases rest with
  | nil =>
    obtain rfl := Option.some.inj hf
    exact ⟨x', rfl⟩
  | cons g rest =>
    rw [List.getLast?_cons_cons] at hf
    refine h f ?_
    rw [hframes, List.getLast?_cons_cons]
    rwa [List.getLast?_eq_some_getLast (by simp), Option.some_or,
      ← List.getLast?_eq_some_getLast] at hf

/-- An approval that an instruction logs is signed by its member, so a member without a
signature in the account list approves nothing. -/
theorem signed_of_approved {bank : Bank} {ledger : Ledger} {infos : List AccountInfo}
    {data : List UInt8} {o : Outcome} (h : processInstruction env bank ledger infos data = .ok o)
    (hevent : o.event = some (.approved address k)) : Signed infos k := by
  obtain ⟨_, -, heffect⟩ := processInstruction_effect h
  cases heffect with
  | approved _ _ hsigned =>
    cases hevent
    exact hsigned
  | initialized | created | entered | closed | provisioned | viewedAddress | viewedVault =>
    cases hevent

/-- **Inside an execution no private key approves anything.** Calls carry the signatures of
vaults only, and programs that never call back cannot pass another one. -/
theorem Rooted.step (h : Rooted s) (hs : Refines env s)
    (hno : ∀ program, env.reenters program true = false) (hk : ¬IsProgramAddress env k)
    (hstep : Inner env s s') :
    Rooted s' ∧ (.approved address k ∈ s'.history → .approved address k ∈ s.history) := by
  cases hstep with
  | @call e rest cpi hframes =>
    refine ⟨h.push [.foreign _ _] hframes rfl, fun happroved => ?_⟩
    exact (List.mem_cons.mp happroved).resolve_left (by simp)
  | @callSelf e rest cpi bank o hframes hcpi _ _ hprocess =>
    refine ⟨h.push (o.execution.map Frame.execution).toList hframes rfl, fun happroved => ?_⟩
    obtain ⟨r, he⟩ := hs.top hframes
    rcases List.mem_append.mp happroved with hnew | hold
    · -- only the vault signs the call
      have hsigned := signed_of_approved hprocess (Option.mem_toList.mp hnew)
      have hvault := he.vault_of_signed hs.legal hcpi hsigned
      exact absurd ⟨_, createProgramAddress_of_find hvault⟩ hk
    · exact (List.mem_cons.mp hold).resolve_left (by simp)
  | finish hframes =>
    refine ⟨h.of_rest hframes rfl, fun happroved => ?_⟩
    exact (List.mem_cons.mp happroved).resolve_left (by simp)
  | foreign hframes => exact ⟨h, id⟩
  | callback hframes hreenters =>
    rw [h.nested hframes, hno] at hreenters
    cases hreenters
  | leave hframes => exact ⟨h.of_rest hframes rfl, id⟩

/-- So through the whole execution, to any depth. -/
theorem Rooted.run (h : Rooted s) (hs : Refines env s)
    (hno : ∀ program, env.reenters program true = false) (hk : ¬IsProgramAddress env k)
    (hrun : Relation.ReflTransGen (Inner env) s s') (hcf : DistinctAddresses env s'.history) :
    Rooted s' ∧ (.approved address k ∈ s'.history → .approved address k ∈ s.history) := by
  induction hrun with
  | refl => exact ⟨h, id⟩
  | @tail s₁ s₂ hrun hstep ih =>
    have hcf₁ := hcf.of_suffix hstep.history_suffix
    obtain ⟨h₁, hmem₁⟩ := ih hcf₁
    obtain ⟨h₂, hmem₂⟩ := h₁.step (hs.reaches (inner_run_reaches hrun) hcf₁) hno hk hstep
    exact ⟨h₂, fun happroved => hmem₁ (hmem₂ happroved)⟩

/-! ## In a transaction -/

/-- An outer `approve_transaction` for the member `k`, as its account list says. -/
structure OuterInstruction.Approves (env : Env) (o : OuterInstruction) (address k : Pubkey) :
    Prop where
  program_eq : o.program = env.programId
  tag_eq : o.data.take 8 = approveTransactionTag
  passes : ∃ multisig, Passes o.infos [multisig, address, k]

/-- What an outer instruction of the program approves is what it says: the tag is that of an
approval, and the first accounts are multisig, proposal and member. -/
theorem approves_of_process {o : OuterInstruction} {bank : Bank} {ledger : Ledger} {out : Outcome}
    (hprogram : o.program = env.programId)
    (htag : o.data.take 8 ∈ [createTransactionTag, approveTransactionTag, executeTransactionTag,
      closeTransactionTag])
    (hprocess : processInstruction env bank ledger o.infos o.data = .ok out)
    (hevent : out.event = some (.approved address k)) : o.Approves env address k := by
  obtain ⟨ix, hparse, heffect⟩ := processInstruction_effect hprocess
  cases heffect with
  | approved _ hpasses _ =>
    cases hevent
    refine ⟨hprogram, ?_, _, hpasses⟩
    simp only [List.mem_cons, List.not_mem_nil, or_false] at htag
    rcases htag with htag | htag | htag | htag
    · rw [parseInstruction_create htag] at hparse
      obtain ⟨_, -, h⟩ := readArgs_eq_ok.mp hparse
      cases h
    · exact htag
    · rw [parseInstruction_execute htag] at hparse
      obtain ⟨_, -, h⟩ := readArgs_eq_ok.mp hparse
      cases h
    · rw [parseInstruction_close htag] at hparse
      obtain ⟨_, -, h⟩ := readArgs_eq_ok.mp hparse
      cases h
  | initialized | created | entered | closed | provisioned | viewedAddress | viewedVault =>
    cases hevent

/-- **A private key approves by outer instructions only.** The transaction is followed
instruction by instruction; what one of them calls is the previous section. -/
theorem Lands.approved_by_key {os : List OuterInstruction} (hland : Lands env s os s')
    (hs : Refines env s) (hrules : RuntimeRules env) (hcf : DistinctAddresses env s'.history)
    (hplain : ∀ o ∈ os, o.Plain env) (hk : ¬IsProgramAddress env k)
    (happroved : .approved address k ∈ s'.history) :
    .approved address k ∈ s.history ∨ ∃ o ∈ os, o.Approves env address k := by
  induction hland with
  | nil => exact .inl happroved
  | @cons s s₁ s₂ s₃ o os hempty hkeys hsubmit hrun hend hland ih =>
    obtain ⟨hplain₀, hplain⟩ := List.forall_mem_cons.mp hplain
    have hcf₂ := hcf.of_suffix hland.reaches.history_suffix
    have hcf₁ := hcf₂.of_suffix (inner_run_reaches hrun).history_suffix
    have hs₁ := hs.step (.submit hempty hkeys hsubmit) hcf₁
    rcases ih (hs₁.reaches (inner_run_reaches hrun) hcf₂) hcf hplain happroved with
      happroved | ⟨o', ho', happroves⟩
    · cases hsubmit with
      | process hprogram hprocess =>
        obtain ⟨-, hmem⟩ := (rooted_apply hempty _).run hs₁ hrules.no_reentry hk hrun hcf₂
        rcases List.mem_append.mp (hmem happroved) with hnew | hold
        · exact .inr ⟨o, List.mem_cons_self, approves_of_process hprogram (hplain₀.2 hprogram)
            hprocess (Option.mem_toList.mp hnew)⟩
        · exact .inl hold
      | foreign hne =>
        obtain ⟨hhistory, -⟩ := history_of_foreign_run (hplain₀.1 hne)
          (by rw [State.enter, hempty]) hrun
        exact .inl (hhistory ▸ happroved)
    · exact .inr ⟨o', List.mem_cons_of_mem _ ho', happroves⟩

/-- In a bundle without foreign instructions these are its approvals, as the decoder lists
them. -/
theorem Sdk.ParsedBundle.Parses.approved_by_key {tx : Transaction} {outer : List ParsedOuter}
    {b : ParsedBundle} {os : List OuterInstruction} (h : b.Parses env.programId tx outer)
    (hforeign : b.foreign = []) (hos : List.Forall₂ Instruction.SubmittedAs tx.instructions os)
    (hland : Lands env s os s') (hs : Refines env s) (hrules : RuntimeRules env)
    (hcf : DistinctAddresses env s'.history) (hk : ¬IsProgramAddress env k)
    (happroved : .approved address k ∈ s'.history) :
    .approved address k ∈ s.history ∨
      ∃ a ∈ b.approves, ∃ multisig, [multisig, address, k] <+: a.keys := by
  have hsubmitted := h.submitted hforeign hos
  refine (hland.approved_by_key hs hrules hcf (fun o ho => ?_) hk happroved).imp_right ?_
  · obtain ⟨p, -, hp, ix, hof, hix⟩ := exists_left_of_forall₂ hsubmitted ho
    exact plain_of_parsed hrules hof hix hp
  · rintro ⟨o, ho, hprogram, htag, multisig, hpasses⟩
    obtain ⟨p, hp, hknown, ix, hof, hix⟩ := exists_left_of_forall₂ hsubmitted ho
    obtain ⟨hkind, hkeys⟩ := hof.own ⟨hix.program_eq ▸ hprogram, hrules.notMem⟩ hknown
    rw [← hix.data_eq, htag] at hkind
    obtain ⟨a, rfl⟩ := ParsedOuter.eq_approve hkind
    rw [Passes, hix.keys_eq, ← Option.some.inj hkeys] at hpasses
    exact ⟨a, h.mem_approves.mpr hp, multisig, hpasses⟩

end SolanaMultisig
