import SolanaMultisig.Interpreter
import SolanaMultisig.Landing
import SolanaMultisig.Sdk.Bundle

/-!
# A parsed bundle that lands

Parsing says what each instruction of a bundle is, `Lands.segments` what each adds
to the log. Together: the log of a bundle without foreign instructions, read
through its parsed instructions (`ParsedBundle.Parses.lands`).
-/

namespace SolanaMultisig

open Wire Guard Sdk

variable {env : Env}

/-! ## Reading events -/

/-- The proposal and the member of an approval; the other events have none. -/
def Event.approval? : Event → Option (Pubkey × Pubkey)
  | .approved address member => some (address, member)
  | _ => none

theorem Event.approval?_of_loop? {e : Event} {k : Pubkey} (h : e.loop? = some k) :
    e.approval? = none := by
  cases e <;> simp_all [Event.loop?, Event.approval?]

theorem mem_approvals {h : List Event} {address member : Pubkey} :
    (address, member) ∈ h.filterMap Event.approval? ↔ .approved address member ∈ h := by
  have heq : ∀ e : Event, e.approval? = some (address, member) ↔ e = .approved address member := by
    intro e
    cases e <;> simp [Event.approval?]
  simp [List.mem_filterMap, heq]

/-! ## What a parsed instruction adds -/

/-- What an instruction adds to the log, by the kind it was taken for: the accounts it names
first are those of the event. -/
def Sdk.ParsedOuter.Adds : ParsedOuter → List Event → Prop
  | .create c, events => ∃ address t, events = [.created address t] ∧
      [t.multisig, address] <+: c.keys
  | .approve a, events => ∃ multisig address member, events = [.approved address member] ∧
      [multisig, address, member] <+: a.keys
  | .execute e, events => ∃ multisig address index loop,
      events = loop ++ [.entered address multisig index] ∧
      [multisig, address] <+: e.keys ∧ ∀ x ∈ loop, x.loop? = some address
  | .close c, events => ∃ multisig address payer, events = [.closed address payer] ∧
      [multisig, address] <+: c.keys
  | .foreign _, _ => False
  | _, events => events = []

/-- The instruction was taken for what it is, and adds what such an instruction adds.
Foreign instructions are excluded: of those the decoder knows nothing. -/
theorem adds_of_segment {ix : Instruction} {o : OuterInstruction} {p : ParsedOuter}
    {events : List Event} (hrules : RuntimeRules env) (hof : p.Of env.programId ix)
    (ho : ix.SubmittedAs o) (hsegment : Segment env o events) (hp : ∀ f, p ≠ .foreign f) :
    p.Adds events := by
  have hbudget : env.programId ≠ computeBudgetProgramId := fun h =>
    hrules.programId_notMem (by simp [h])
  have hata : env.programId ≠ ataProgramId := fun h => hrules.programId_notMem (by simp [h])
  cases p with
  | nonceAdvance index =>
    refine hsegment.foreign ?_
    rw [ho.program_eq, show ix.programId = systemProgramId from hof]
    exact env.programId_ne.symm
  | computeBudget cb =>
    refine hsegment.foreign ?_
    rw [ho.program_eq, show ix.programId = computeBudgetProgramId from hof]
    exact hbudget.symm
  | ataCreate ata =>
    refine hsegment.foreign ?_
    rw [ho.program_eq, hof.1]
    exact hata.symm
  | create c =>
    obtain ⟨hown, htag, -, hkeys⟩ := hof
    obtain ⟨address, t, hevents, hpasses, -⟩ :=
      hsegment.create (ho.program_eq.trans hown.program_eq) (ho.data_eq ▸ htag)
    rw [Passes, ho.keys_eq, ← hkeys] at hpasses
    exact ⟨address, t, hevents, (List.prefix_append _ [t.creator, t.payer]).trans hpasses⟩
  | approve a =>
    obtain ⟨hown, htag, hkeys, -⟩ := hof
    obtain ⟨multisig, address, member, hevents, hpasses⟩ :=
      hsegment.approve (ho.program_eq.trans hown.program_eq) (ho.data_eq ▸ htag)
    rw [Passes, ho.keys_eq, ← hkeys] at hpasses
    exact ⟨multisig, address, member, hevents, hpasses⟩
  | execute e =>
    obtain ⟨hown, htag, hkeys⟩ := hof
    obtain ⟨multisig, address, index, loop, hevents, hpasses, hloop⟩ :=
      hsegment.execute (ho.program_eq.trans hown.program_eq) (ho.data_eq ▸ htag)
    rw [Passes, ho.keys_eq, ← hkeys] at hpasses
    exact ⟨multisig, address, index, loop, hevents, hpasses, hloop⟩
  | close c =>
    obtain ⟨hown, htag, hkeys⟩ := hof
    obtain ⟨multisig, address, payer, hevents, hpasses⟩ :=
      hsegment.close (ho.program_eq.trans hown.program_eq) (ho.data_eq ▸ htag)
    rw [Passes, ho.keys_eq, ← hkeys] at hpasses
    exact ⟨multisig, address, payer, hevents,
      (List.prefix_append _ [payer]).trans hpasses⟩
  | foreign f => exact absurd rfl (hp f)

/-- No instruction of a bundle without foreign ones calls back unexpectedly: the builtin
programs the decoder admits do not call the program. -/
theorem plain_of_parsed {ix : Instruction} {o : OuterInstruction} {p : ParsedOuter}
    (hrules : RuntimeRules env) (hof : p.Of env.programId ix) (ho : ix.SubmittedAs o)
    (hp : ∀ f, p ≠ .foreign f) : o.Plain env := by
  unfold OuterInstruction.Plain
  rw [ho.program_eq, ho.data_eq]
  cases p with
  | nonceAdvance | computeBudget =>
    have hprogram : ix.programId = _ := hof
    refine ⟨fun _ => hrules.no_callback _ (by simp [hprogram]), fun h => ?_⟩
    first
    | exact absurd (h.symm.trans hprogram) env.programId_ne
    | exact absurd (by simp [← h, hprogram]) hrules.programId_notMem
  | ataCreate =>
    refine ⟨fun _ => hrules.no_callback _ (by simp [hof.1]), fun h => ?_⟩
    exact absurd (by simp [← h, hof.1]) hrules.programId_notMem
  | create | approve | execute | close =>
    exact ⟨fun hne => absurd hof.1.program_eq hne, fun _ => by simp [hof.2.1]⟩
  | foreign f => exact absurd rfl (hp f)

/-- What an instruction adds is about the proposal it names as its second account. -/
theorem Sdk.ParsedOuter.Adds.proposal {p : ParsedOuter} {events : List Event} (h : p.Adds events)
    {e : Event} (he : e ∈ events) :
    ∃ multisig address keys, p.keys? = some keys ∧ [multisig, address] <+: keys ∧
      e.proposal? = some address := by
  cases p with
  | create c =>
    obtain ⟨address, t, rfl, hkeys⟩ := h
    obtain rfl := List.mem_singleton.mp he
    exact ⟨t.multisig, address, c.keys, rfl, hkeys, rfl⟩
  | approve a =>
    obtain ⟨multisig, address, member, rfl, hkeys⟩ := h
    obtain rfl := List.mem_singleton.mp he
    exact ⟨multisig, address, a.keys, rfl, (List.prefix_append _ [member]).trans hkeys, rfl⟩
  | execute x =>
    obtain ⟨multisig, address, index, loop, rfl, hkeys, hloop⟩ := h
    refine ⟨multisig, address, x.keys, rfl, hkeys, ?_⟩
    rcases List.mem_append.mp he with he | he
    · exact Event.proposal?_of_loop? (hloop e he)
    · obtain rfl := List.mem_singleton.mp he
      rfl
  | close c =>
    obtain ⟨multisig, address, payer, rfl, hkeys⟩ := h
    obtain rfl := List.mem_singleton.mp he
    exact ⟨multisig, address, c.keys, rfl, hkeys, rfl⟩
  | foreign f => exact h.elim
  | nonceAdvance | computeBudget | ataCreate =>
    rw [show events = [] from h] at he
    cases he

/-- If all instructions name the same proposal, all they add is about it, executions
included. -/
theorem proposal_of_adds {outer : List ParsedOuter} {segments : List (List Event)}
    {multisig transaction : Pubkey} (h : List.Forall₂ ParsedOuter.Adds outer segments)
    (hnamed : ∀ p ∈ outer, ∀ keys, p.keys? = some keys → [multisig, transaction] <+: keys) :
    ∀ e ∈ segments.reverse.flatten, e.proposal? = some transaction := by
  intro e he
  obtain ⟨events, hevents, he⟩ := List.mem_flatten.mp he
  obtain ⟨p, hp, hadd⟩ := exists_left_of_forall₂ h (List.mem_reverse.mp hevents)
  obtain ⟨multisig', address, keys, hkeys, hnames, haddress⟩ := hadd.proposal he
  have heq := eq_of_prefixes hnames (hnamed p hp keys hkeys) rfl
  simp only [List.cons.injEq, and_true] at heq
  rw [haddress, heq.2]

/-- Approvals are added by the approvals of the bundle, in order: executions add none, since
what they call is not the program. -/
theorem approvals_of_adds {outer : List ParsedOuter} {segments : List (List Event)}
    (h : List.Forall₂ ParsedOuter.Adds outer segments) :
    List.Forall₂ (fun a q => ∃ multisig, [multisig, q.1, q.2] <+: ParsedMultisigIx.keys a)
      (outer.filterMap ParsedOuter.approve?) (segments.flatten.filterMap Event.approval?) := by
  induction h with
  | nil => exact .nil
  | @cons p events outer segments hp _ ih =>
    rw [List.flatten_cons, List.filterMap_append]
    cases p with
    | create c =>
      obtain ⟨address, t, rfl, -⟩ := hp
      exact ih
    | approve a =>
      obtain ⟨multisig, address, member, rfl, hkeys⟩ := hp
      exact .cons ⟨multisig, hkeys⟩ ih
    | execute x =>
      obtain ⟨multisig, address, index, loop, rfl, -, hloop⟩ := hp
      -- the loop of an execution approves nothing of its own
      have hnone : loop.filterMap Event.approval? = [] :=
        List.filterMap_eq_nil_iff.mpr fun e he => Event.approval?_of_loop? (hloop e he)
      rw [List.filterMap_append, hnone]
      exact ih
    | close c =>
      obtain ⟨multisig, address, payer, rfl, -⟩ := hp
      exact ih
    | foreign f => exact hp.elim
    | nonceAdvance | computeBudget | ataCreate =>
      rw [show events = [] from hp]
      exact ih

/-! ## The bundle as a whole -/

section Lands

variable {tx : Transaction} {outer : List ParsedOuter} {b : ParsedBundle}
  {os : List OuterInstruction} {s s' : State}

/-- Each submitted instruction was taken for something, which is not foreign. -/
theorem Sdk.ParsedBundle.Parses.submitted (h : b.Parses env.programId tx outer)
    (hforeign : b.foreign = []) (hos : List.Forall₂ Instruction.SubmittedAs tx.instructions os) :
    List.Forall₂ (fun p o => (∀ f, p ≠ .foreign f) ∧
      ∃ ix, p.Of env.programId ix ∧ ix.SubmittedAs o) outer os :=
  (List.forall₂_and_left _ _).mpr
    ⟨fun _ hp f hf => h.foreign_notMem hforeign f (hf ▸ hp), forall₂_join h.kinds hos⟩

/-- **What a bundle adds to the log**, if it has no foreign instructions and the
proposals it executes do not call the program. -/
theorem Sdk.ParsedBundle.Parses.lands (h : b.Parses env.programId tx outer)
    (hforeign : b.foreign = []) (hos : List.Forall₂ Instruction.SubmittedAs tx.instructions os)
    (hland : Lands env s os s') (hs : Refines env s) (hrules : RuntimeRules env)
    (hcf : DistinctAddresses env s'.history)
    (hcalls : ∀ e ∈ b.executes, ∀ k r, e.keys[1]? = some k → recordAt s'.history k = some r →
      r.message.CallsOthers env) :
    ∃ segments, List.Forall₂ ParsedOuter.Adds outer segments ∧
      s'.history = segments.reverse.flatten ++ s.history := by
  have hsubmitted := h.submitted hforeign hos
  have hplain : ∀ o ∈ os, o.Plain env := by
    intro o ho
    obtain ⟨p, -, hp, ix, hof, hix⟩ := exists_left_of_forall₂ hsubmitted ho
    exact plain_of_parsed hrules hof hix hp
  have hexecutes : ∀ o ∈ os, ∀ k r, o.Executes env k → recordAt s'.history k = some r →
      r.message.CallsOthers env := by
    rintro o ho k r ⟨hprogram, htag, hk⟩ hr
    -- it was parsed as an execution, with the same accounts
    obtain ⟨p, hp, hknown, ix, hof, hix⟩ := exists_left_of_forall₂ hsubmitted ho
    obtain ⟨hkind, hkeys⟩ := hof.own ⟨hix.program_eq ▸ hprogram, hrules.notMem⟩ hknown
    rw [← hix.data_eq, htag] at hkind
    obtain ⟨e, rfl⟩ := ParsedOuter.eq_execute hkind
    refine hcalls e (h.mem_executes.mpr hp) k r ?_ hr
    rw [show e.keys = ix.keys from Option.some.inj hkeys, ← hix.keys_eq, hk]
  obtain ⟨segments, hsegments, hhistory⟩ := hland.segments hs hrules hcf hplain hexecutes
  refine ⟨segments, (forall₂_join hsubmitted.flip hsegments).imp ?_, hhistory⟩
  rintro p events ⟨o, ⟨hknown, ix, hof, hix⟩, hsegment⟩
  exact adds_of_segment hrules hof hix hsegment hknown

end Lands

/-- Nothing calls back in the example cluster. -/
theorem Example.runtimeRules : RuntimeRules Example.cluster where
  no_reentry _ := rfl
  no_callback _ _ := rfl
  programId_notMem := by decide

end SolanaMultisig
