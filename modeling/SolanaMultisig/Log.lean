import SolanaMultisig.Lib.EventLog
import SolanaMultisig.Machine

/-!
# The log: what the program is for

The abstract model. A state is just the log of what happened; the multisigs and
proposals are read off it (`multisigAt`, `proposalAt`), and `Allowed` says when an
event may happen: a registration once, creations one after the other, approvals
by members once each, executions with enough approvals and only once, calls in
the order of the message, closing by the payer. No ledger, no bytes, no stack.
-/

namespace SolanaMultisig

open Wire EventLog

variable {env : Env}

/-! ## Reading the log -/

/-- The multisig at an address: the configuration it was registered with, and the counter
the last creation left. -/
def multisigAt : List Event → Pubkey → Option Multisig
  | [], _ => none
  | .initialized address m :: h, k => if address = k then some m else multisigAt h k
  | .created _ t :: h, k =>
      if t.multisig = k then
        (multisigAt h k).map fun m => { m with transactionIndex := t.transactionIndex }
      else multisigAt h k
  | _ :: h, k => multisigAt h k

/-- The live proposal at an address: none before it is created and after it is closed, and
with the approvals and the flag that were recorded in between. -/
def proposalAt : List Event → Pubkey → Option VaultTransaction
  | [], _ => none
  | .created address t :: h, k => if address = k then some t else proposalAt h k
  | .approved address member :: h, k =>
      if address = k then
        (proposalAt h k).map fun t => { t with approvals := t.approvals ++ [member] }
      else proposalAt h k
  | .entered address _ _ :: h, k =>
      if address = k then (proposalAt h k).map fun t => { t with executed := true }
      else proposalAt h k
  | .closed address _ :: h, k => if address = k then none else proposalAt h k
  | _ :: h, k => proposalAt h k

/-- The proposal as it was created at an address, also after it was closed. No address is
used twice, so the first creation found is the only one. -/
def recordAt : List Event → Pubkey → Option VaultTransaction
  | [], _ => none
  | .created address t :: h, k => if address = k then some t else recordAt h k
  | _ :: h, k => recordAt h k

/-- The calls issued for a proposal, in order. The log has the newest event first, so each
call is added behind those found further down. -/
def issued : List Event → Pubkey → List Cpi
  | [], _ => []
  | .invoked address cpi :: h, k => if address = k then issued h k ++ [cpi] else issued h k
  | _ :: h, k => issued h k

/-- Was the loop of calls entered for the proposal? The event is logged before the first
call, so this is true for as long as the proposal runs and ever after. -/
def Entered (h : List Event) (k : Pubkey) : Prop :=
  ∃ multisig index, Event.entered k multisig index ∈ h

/-- Everything hashed for the addresses in the log: the strings of which statements assume
that the hash keeps them apart. -/
def derivations (env : Env) : List Event → List Derivation
  | [] => []
  | .initialized _ m :: h =>
      .members m.members :: .multisig (hashMembers env m.members) m.threshold m.bump ::
        derivations env h
  | .created _ t :: h =>
      .transaction t.multisig t.transactionIndex t.bump ::
        .vault t.multisig t.vaultIndex t.vaultBump :: derivations env h
  | .provisioned multisig _ _ :: h => .nonce multisig :: derivations env h
  | _ :: h => derivations env h

/-! ## What an event changes -/

/-- The proposal an event is about. -/
def Event.proposal? : Event → Option Pubkey
  | .created address _ => some address
  | .approved address _ => some address
  | .entered address _ _ => some address
  | .invoked address _ => some address
  | .finished address => some address
  | .closed address _ => some address
  | .initialized _ _ => none
  | .provisioned _ _ _ => none

section Cases

variable {h later earlier : List Event} {e : Event} {k : Pubkey}

/-- Events about others leave a proposal as it is. -/
theorem proposalAt_cons (hk : e.proposal? ≠ some k) :
    proposalAt (e :: h) k = proposalAt h k := by
  cases e with
  | created address | approved address | entered address | closed address =>
    rw [proposalAt, if_neg]
    rintro rfl
    exact hk rfl
  | initialized | invoked | finished | provisioned => rfl

theorem proposalAt_append (hk : ∀ e ∈ later, e.proposal? ≠ some k) :
    proposalAt (later ++ earlier) k = proposalAt earlier k := by
  induction later with
  | nil => rfl
  | cons e later ih =>
    obtain ⟨he, hlater⟩ := List.forall_mem_cons.mp hk
    exact (proposalAt_cons he).trans (ih hlater)

/-- Where a live proposal comes from: it was there, it was created, approved or executed.
Facts about live proposals go by induction on the log with these four cases. -/
theorem proposalAt_cases {t' : VaultTransaction} (ht' : proposalAt (e :: h) k = some t') :
    (proposalAt h k = some t' ∧ ∀ t, e ≠ .created k t) ∨ e = .created k t' ∨
      (∃ t member, e = .approved k member ∧ proposalAt h k = some t ∧
        t' = { t with approvals := t.approvals ++ [member] }) ∨
      ∃ t multisig index, e = .entered k multisig index ∧ proposalAt h k = some t ∧
        t' = { t with executed := true } := by
  by_cases hk : e.proposal? = some k
  · cases e with
    | created address r =>
      obtain rfl := Option.some.inj hk
      rw [proposalAt, if_pos rfl] at ht'
      exact .inr (.inl (congrArg _ (Option.some.inj ht')))
    | approved address member =>
      obtain rfl := Option.some.inj hk
      rw [proposalAt, if_pos rfl] at ht'
      obtain ⟨t, ht, rfl⟩ := Option.map_eq_some_iff.mp ht'
      exact .inr (.inr (.inl ⟨t, member, rfl, ht, rfl⟩))
    | entered address multisig index =>
      obtain rfl := Option.some.inj hk
      rw [proposalAt, if_pos rfl] at ht'
      obtain ⟨t, ht, rfl⟩ := Option.map_eq_some_iff.mp ht'
      exact .inr (.inr (.inr ⟨t, multisig, index, rfl, ht, rfl⟩))
    | closed address payer =>
      obtain rfl := Option.some.inj hk
      rw [proposalAt, if_pos rfl] at ht'
      cases ht'
    | invoked | finished => exact .inl ⟨ht', nofun⟩
    | initialized | provisioned => cases hk
  · refine .inl ⟨(proposalAt_cons hk).symm.trans ht', ?_⟩
    rintro t rfl
    exact hk rfl

theorem recordAt_of_ne (he : ∀ t, e ≠ .created k t) : recordAt (e :: h) k = recordAt h k := by
  cases e with
  | created address r =>
    rw [recordAt, if_neg]
    rintro rfl
    exact he r rfl
  | initialized | approved | entered | invoked | finished | closed | provisioned => rfl

/-- Where a record comes from: it was there, or the newest event created it. -/
theorem recordAt_cases {t : VaultTransaction} (ht : recordAt (e :: h) k = some t) :
    recordAt h k = some t ∨ e = .created k t := by
  cases e with
  | created address r =>
    rw [recordAt] at ht
    split at ht
    · rename_i heq
      rw [heq, Option.some.inj ht]
      exact .inr rfl
    · exact .inl ht
  | initialized | approved | entered | invoked | finished | closed | provisioned => exact .inl ht

/-- Where a multisig comes from: it was there, it was registered, or a creation moved its
counter. -/
theorem multisigAt_cases {m' : Multisig} (hm' : multisigAt (e :: h) k = some m') :
    multisigAt h k = some m' ∨ e = .initialized k m' ∨
      ∃ address t m, e = .created address t ∧ t.multisig = k ∧ multisigAt h k = some m ∧
        m' = { m with transactionIndex := t.transactionIndex } := by
  cases e with
  | initialized address m =>
    rw [multisigAt] at hm'
    split at hm'
    · rename_i heq
      rw [heq, Option.some.inj hm']
      exact .inr (.inl rfl)
    · exact .inl hm'
  | created address t =>
    rw [multisigAt] at hm'
    split at hm'
    · rename_i heq
      obtain ⟨m, hm, rfl⟩ := Option.map_eq_some_iff.mp hm'
      exact .inr (.inr ⟨address, t, m, rfl, heq, hm, rfl⟩)
    · exact .inl hm'
  | approved | entered | invoked | finished | closed | provisioned => exact .inl hm'

end Cases

/-! ## What is allowed -/

/-- The call is the one the message stands for, signed for the proposal's vault. Nothing in
it is left to whoever executes the proposal. -/
structure Cpi.For (cpi : Cpi) (t : VaultTransaction) (ix : CompiledInstruction) : Prop where
  /-- program, accounts with their privileges, and data -/
  instruction_eq : cpi.instruction = t.message.instruction ix
  /-- the signature of the vault -/
  seeds_eq : cpi.signerSeeds = vaultSignerSeeds t.multisig t
  /-- every account is passed under its own key -/
  infos_eq : cpi.accountInfos.map AccountInfo.key =
    cpi.instruction.accounts.map AccountMeta.pubkey ++ [cpi.instruction.programId]

/-- When an event may follow a log. Each case reads only what the log says, so the rules
could be stated to a user who knows no accounts and no bytes. -/
def Allowed (env : Env) (h : List Event) : Event → Prop
  | .initialized address m =>
      multisigAt h address = none ∧ m.Valid ∧ m.transactionIndex = 0 ∧ m.AddressOf env address
  | .created address t =>
      recordAt h address = none ∧ t.AddressOf env address ∧ (∃ vault, t.ValidFor env vault) ∧
        t.executed = false ∧ t.approvals = [] ∧
        ∃ m, multisigAt h t.multisig = some m ∧ t.creator ∈ m.members ∧
          t.transactionIndex.toNat = m.transactionIndex.toNat + 1
  | .approved address member =>
      ∃ t m, proposalAt h address = some t ∧ t.executed = false ∧
        multisigAt h t.multisig = some m ∧ member ∈ m.members ∧ member ∉ t.approvals
  | .entered address multisig index =>
      ∃ t m, proposalAt h address = some t ∧ t.executed = false ∧
        multisigAt h t.multisig = some m ∧ m.threshold.toNat ≤ t.approvals.length ∧
        multisig = t.multisig ∧ index = t.transactionIndex
  | .invoked address cpi =>
      Entered h address ∧ .finished address ∉ h ∧
        ∃ t ix, recordAt h address = some t ∧
          t.message.instructions[(issued h address).length]? = some ix ∧ cpi.For t ix
  | .finished address =>
      Entered h address ∧ .finished address ∉ h ∧
        ∃ t, recordAt h address = some t ∧
          (issued h address).length = t.message.instructions.length
  | .closed address payer => ∃ t, proposalAt h address = some t ∧ payer = t.payer
  | .provisioned multisig _ seeds =>
      ∃ m, multisigAt h multisig = some m ∧ seeds = provisionNonceSeeds env m

/-- A log the program can produce: every event was allowed by the events before it. -/
abbrev LegalLog (env : Env) (h : List Event) : Prop := Legal (Allowed env) h

/-! ## Proposals and their records -/

/-- Approvals and the executed flag are all that may differ: the relation between a stored
proposal and the record of its creation. -/
def VaultTransaction.SameProposal (t r : VaultTransaction) : Prop :=
  t = { r with approvals := t.approvals, executed := t.executed }

theorem VaultTransaction.SameProposal.refl (t : VaultTransaction) : t.SameProposal t := rfl

/-- Approvals change neither what a proposal is valid for nor its address. -/
theorem VaultTransaction.SameProposal.validFor {t r : VaultTransaction} {vault : Pubkey}
    (h : t.SameProposal r) (hr : r.ValidFor env vault) : t.ValidFor env vault := by
  rw [h]
  exact hr

theorem VaultTransaction.SameProposal.multisig_eq {t r : VaultTransaction}
    (h : t.SameProposal r) : t.multisig = r.multisig := by
  rw [h]

theorem VaultTransaction.SameProposal.addressOf {t r : VaultTransaction} {address : Pubkey}
    (h : t.SameProposal r) (hr : r.AddressOf env address) : t.AddressOf env address := by
  rw [h]
  exact hr

theorem VaultTransaction.SameProposal.stored_eq {t r : VaultTransaction} (h : t.SameProposal r) :
    t.vaultIndex = r.vaultIndex ∧ t.message = r.message := by
  rw [h]
  exact ⟨rfl, rfl⟩

/-- A live proposal is the created one up to approvals and the executed flag, whatever
happened to it in between. -/
theorem recordAt_of_proposalAt {h : List Event} {k : Pubkey} {t : VaultTransaction}
    (ht : proposalAt h k = some t) : ∃ r, recordAt h k = some r ∧ t.SameProposal r := by
  induction h generalizing t with
  | nil => cases ht
  | cons e h ih =>
    rcases proposalAt_cases ht with ⟨ht', hne⟩ | rfl | ⟨t', member, rfl, ht', rfl⟩ |
      ⟨t', multisig, index, rfl, ht', rfl⟩
    · obtain ⟨r, hr, hs⟩ := ih ht'
      exact ⟨r, (recordAt_of_ne hne).trans hr, hs⟩
    · exact ⟨t, by rw [recordAt, if_pos rfl], .refl t⟩
    · obtain ⟨r, hr, hs⟩ := ih ht'
      exact ⟨r, hr, by rw [hs]; rfl⟩
    · obtain ⟨r, hr, hs⟩ := ih ht'
      exact ⟨r, hr, by rw [hs]; rfl⟩

theorem recordAt_mem {h : List Event} {k : Pubkey} {t : VaultTransaction}
    (ht : recordAt h k = some t) : Event.created k t ∈ h := by
  induction h with
  | nil => cases ht
  | cons e h ih =>
    rcases recordAt_cases ht with ht | rfl
    · exact List.mem_cons_of_mem _ (ih ht)
    · exact List.mem_cons_self

/-! ## Facts about legal logs -/

section Legal

variable {h later earlier : List Event} {k : Pubkey} {t : VaultTransaction}

/-- A record was created under the rules: every event of a legal log splits it where the
event was allowed. -/
theorem LegalLog.allowed_of_mem {e : Event} (hl : LegalLog env h) (he : e ∈ h) :
    ∃ later earlier, h = later ++ e :: earlier ∧ Allowed env earlier e := by
  obtain ⟨later, earlier, rfl⟩ := List.append_of_mem he
  exact ⟨later, earlier, rfl, hl.ok_of_split⟩

/-- The creation of a proposal, found in the log: the events before it, under which it was
allowed, and those after it. -/
theorem LegalLog.created_split (hl : LegalLog env h) (hr : recordAt h k = some t) :
    ∃ later earlier, h = later ++ .created k t :: earlier ∧
      Allowed env earlier (.created k t) :=
  hl.allowed_of_mem (recordAt_mem hr)

/-- A record stays: no address is used twice for a proposal. -/
theorem LegalLog.recordAt_append (hl : LegalLog env (later ++ earlier))
    (hr : recordAt earlier k = some t) : recordAt (later ++ earlier) k = some t := by
  induction later with
  | nil => exact hr
  | cons e later ih =>
    have hrec := ih hl.tail
    refine (recordAt_of_ne ?_).trans hrec
    rintro r rfl
    have hfresh : recordAt (later ++ earlier) k = none := hl.head.1
    rw [hrec] at hfresh
    cases hfresh

/-- So it is in every later log: what was created stays on record. -/
theorem LegalLog.recordAt_of_suffix (hl : LegalLog env h) (hsuffix : earlier <:+ h)
    (hr : recordAt earlier k = some t) : recordAt h k = some t := by
  obtain ⟨later, rfl⟩ := hsuffix
  exact hl.recordAt_append hr

theorem LegalLog.recordAt_cons {e : Event} (hl : LegalLog env (e :: h))
    (hr : recordAt h k = some t) : recordAt (e :: h) k = some t :=
  recordAt_append (List.singleton_append ▸ hl) hr

/-- Only the creation of a proposal makes it appear. -/
theorem LegalLog.recordAt_of_created (hl : LegalLog env (later ++ .created k t :: earlier)) :
    recordAt (later ++ .created k t :: earlier) k = some t :=
  hl.recordAt_append (by simp [recordAt])

/-- Two creations at one address are the same, so a statement about the record at an address
is about one proposal. -/
theorem LegalLog.created_unique {t' : VaultTransaction} (hl : LegalLog env h)
    (ht : Event.created k t ∈ h) (ht' : Event.created k t' ∈ h) : t = t' := by
  obtain ⟨later, earlier, rfl⟩ := List.append_of_mem ht
  obtain ⟨later', earlier', he⟩ := List.append_of_mem ht'
  have hr := hl.recordAt_of_created
  rw [he] at hl hr
  have hr' := hl.recordAt_of_created
  rw [hr] at hr'
  exact (Option.some.inj hr')

/-- A record that was not there before was created since. -/
theorem LegalLog.created_mem (hl : LegalLog env earlier) (hfresh : recordAt earlier k = none)
    (hr : recordAt (later ++ earlier) k = some t) : Event.created k t ∈ later := by
  refine (List.mem_append.mp (recordAt_mem hr)).resolve_right fun hold => ?_
  obtain ⟨later', earlier', rfl⟩ := List.append_of_mem hold
  rw [LegalLog.recordAt_of_created hl] at hfresh
  cases hfresh

/-- A closed proposal does not come back: its address has a record, and none is created at
an address that has one. -/
theorem LegalLog.proposalAt_none_append (hl : LegalLog env (later ++ earlier))
    (hr : recordAt earlier k = some t) (hp : proposalAt earlier k = none) :
    proposalAt (later ++ earlier) k = none := by
  induction later with
  | nil => exact hp
  | cons e later ih =>
    have hnone := ih hl.tail
    have hrec := LegalLog.recordAt_append hl.tail hr
    cases hp' : proposalAt (e :: later ++ earlier) k with
    | none => rfl
    | some t' =>
      rcases proposalAt_cases hp' with ⟨ht', -⟩ | rfl | ⟨t'', member, rfl, ht'', -⟩ |
        ⟨t'', multisig, index, rfl, ht'', -⟩
      · cases hnone.symm.trans ht'
      · -- the address is taken
        have hfresh : recordAt (later ++ earlier) k = none := hl.head.1
        cases hfresh.symm.trans hrec
      · cases hnone.symm.trans ht''
      · cases hnone.symm.trans ht''

/-- Multisigs stay: members, threshold and bump are fixed, the counter only
grows. -/
def Multisig.Evolves (m m' : Multisig) : Prop :=
  m' = { m with transactionIndex := m'.transactionIndex } ∧
    m.transactionIndex.toNat ≤ m'.transactionIndex.toNat

theorem Multisig.Evolves.refl (m : Multisig) : m.Evolves m := ⟨rfl, le_rfl⟩

theorem Multisig.Evolves.trans {m₁ m₂ m₃ : Multisig} (h : m₁.Evolves m₂) (h' : m₂.Evolves m₃) :
    m₁.Evolves m₃ := by
  obtain ⟨heq, hle⟩ := h
  obtain ⟨heq', hle'⟩ := h'
  exact ⟨by rw [heq', heq], hle.trans hle'⟩

/-- Both addresses have an account, or the later one has it only: nothing that was there is
lost, and what is there has moved by the relation. -/
def OptionEvolves {α : Type} (r : α → α → Prop) (a b : Option α) : Prop :=
  ∀ x, a = some x → ∃ y, b = some y ∧ r x y

/-- One event registers a multisig, moves the counter of one, or leaves them alone. -/
theorem LegalLog.multisigAt_step {e : Event} (hok : Allowed env h e) :
    OptionEvolves Multisig.Evolves (multisigAt h k) (multisigAt (e :: h) k) := by
  intro m hm
  cases e with
  | initialized address m' =>
    have hfresh : multisigAt h address = none := hok.1
    refine ⟨m, ?_, .refl m⟩
    rw [multisigAt, if_neg, hm]
    rintro rfl
    rw [hm] at hfresh
    cases hfresh
  | created address r =>
    obtain ⟨-, -, -, -, -, m', hm', -, hindex⟩ := hok
    by_cases hk : r.multisig = k
    · subst hk
      rw [hm] at hm'
      obtain rfl := Option.some.inj hm'
      refine ⟨_, by rw [multisigAt, if_pos rfl, hm]; rfl, rfl, ?_⟩
      exact (Nat.le_succ _).trans hindex.symm.le
    · exact ⟨m, by rw [multisigAt, if_neg hk, hm], .refl m⟩
  | approved | entered | invoked | finished | closed | provisioned => exact ⟨m, hm, .refl m⟩

/-- Over any number of events a multisig stays, keeps its configuration and never counts
back. -/
theorem LegalLog.multisigAt_append {m : Multisig} (hl : LegalLog env (later ++ earlier))
    (hm : multisigAt earlier k = some m) :
    ∃ m', multisigAt (later ++ earlier) k = some m' ∧ m.Evolves m' := by
  refine Legal.related (fun h => multisigAt h k) (OptionEvolves Multisig.Evolves) ?_ ?_ ?_ hl m hm
  · exact fun _ x hx => ⟨x, hx, .refl x⟩
  · intro a b c hab hbc x hx
    obtain ⟨y, hy, hxy⟩ := hab x hx
    obtain ⟨z, hz, hyz⟩ := hbc y hy
    exact ⟨z, hz, hxy.trans hyz⟩
  · exact fun h e _ hok => LegalLog.multisigAt_step hok

/-- Every multisig in the log is well-formed and sits at its address. -/
theorem LegalLog.multisigAt_valid {m : Multisig} (hl : LegalLog env h)
    (hm : multisigAt h k = some m) : m.Valid ∧ m.AddressOf env k := by
  induction hl generalizing m with
  | nil => cases hm
  | @cons h e hl hok ih =>
    rcases multisigAt_cases hm with hm' | rfl | ⟨address, t, m', rfl, -, hm', rfl⟩
    · exact ih hm'
    · exact ⟨hok.2.1, hok.2.2.2⟩
    · obtain ⟨hv, ha⟩ := ih hm'
      exact ⟨⟨hv.sorted, hv.threshold_pos, hv.threshold_le, hv.length_le⟩, ha⟩

/-- The counter of a multisig is an upper bound of the indexes in use: it is set by each
creation to the index of the new proposal, one above the last. -/
theorem LegalLog.index_le (hl : LegalLog env h) (hr : recordAt h k = some t) :
    ∃ m, multisigAt h t.multisig = some m ∧
      t.transactionIndex.toNat ≤ m.transactionIndex.toNat := by
  obtain ⟨later, earlier, rfl, -, -, -, -, -, m, hm, -, hindex⟩ := hl.created_split hr
  have hcreated : multisigAt (.created k t :: earlier) t.multisig =
      some { m with transactionIndex := t.transactionIndex } := by
    rw [multisigAt, if_pos rfl, hm]
    rfl
  obtain ⟨m', hm', -, hle⟩ := hl.multisigAt_append hcreated
  exact ⟨m', hm', hle⟩

/-- What was entered had been created. -/
theorem LegalLog.recordAt_of_entered (hl : LegalLog env h) (he : Entered h k) :
    ∃ r, recordAt h k = some r := by
  obtain ⟨multisig, index, hmem⟩ := he
  obtain ⟨later, earlier, rfl, t, m, ht, -⟩ := hl.allowed_of_mem hmem
  obtain ⟨r, hr, -⟩ := recordAt_of_proposalAt ht
  have hr' : recordAt (.entered k multisig index :: earlier) k = some r := hr
  exact ⟨r, hl.recordAt_append hr'⟩

theorem LegalLog.not_entered_of_fresh (hl : LegalLog env h) (hr : recordAt h k = none) :
    ¬Entered h k := by
  intro he
  obtain ⟨r, hr'⟩ := hl.recordAt_of_entered he
  rw [hr] at hr'
  cases hr'

/-- What returned had been entered. -/
theorem LegalLog.entered_of_finished (hl : LegalLog env h) (hf : .finished k ∈ h) :
    Entered h k := by
  obtain ⟨later, earlier, rfl, ⟨multisig, index, hmem⟩, -⟩ := hl.allowed_of_mem hf
  exact ⟨multisig, index, by simp [hmem]⟩

/-- An entered proposal is marked executed for as long as it lives, since the mark is set
with the entry and no event takes it back. -/
theorem LegalLog.executed_of_entered (hl : LegalLog env h) (he : Entered h k)
    (ht : proposalAt h k = some t) : t.executed = true := by
  induction hl generalizing t with
  | nil => cases ht
  | @cons h e hl hok ih =>
    obtain ⟨multisig, index, hmem⟩ := he
    rcases List.mem_cons.mp hmem with heq | hmem
    · subst heq
      rw [proposalAt, if_pos rfl] at ht
      obtain ⟨t', -, rfl⟩ := Option.map_eq_some_iff.mp ht
      rfl
    · have he : Entered h k := ⟨multisig, index, hmem⟩
      rcases proposalAt_cases ht with ⟨ht', -⟩ | rfl | ⟨t', member, rfl, ht', rfl⟩ |
        ⟨t', multisig', index', rfl, -, rfl⟩
      · exact ih he ht'
      · -- it cannot have been entered before it was created
        exact absurd he (LegalLog.not_entered_of_fresh hl hok.1)
      · have hexecuted := ih he ht'
        exact hexecuted
      · rfl

/-- A proposal is entered at most once: the event is refused when it is in the
log already. -/
theorem LegalLog.not_entered (hl : LegalLog env h) {multisig : Pubkey} {index : UInt64}
    (hok : Allowed env h (.entered k multisig index)) : ¬Entered h k := by
  intro he
  obtain ⟨t, m, ht, hexecuted, -⟩ := hok
  rw [hl.executed_of_entered he ht] at hexecuted
  cases hexecuted

/-- Calls are only issued in the loop. -/
theorem LegalLog.issued_eq_nil (hl : LegalLog env h) (he : ¬Entered h k) : issued h k = [] := by
  induction hl with
  | nil => rfl
  | @cons h e hl hok ih =>
    have he' : ¬Entered h k := by
      rintro ⟨multisig, index, hmem⟩
      exact he ⟨multisig, index, List.mem_cons_of_mem _ hmem⟩
    cases e with
    | invoked address cpi =>
      rw [issued, if_neg]
      · exact ih he'
      · rintro rfl
        exact he' hok.1
    | initialized | created | approved | entered | finished | closed | provisioned => exact ih he'

/-- No more calls are issued than the message has instructions: the event of a call names
the instruction it is for, and they go in order. -/
theorem LegalLog.issued_length_le (hl : LegalLog env h) (hr : recordAt h k = some t) :
    (issued h k).length ≤ t.message.instructions.length := by
  induction hl with
  | nil => cases hr
  | @cons h e hl hok ih =>
    cases e with
    | invoked address cpi =>
      rw [issued]
      split
      · rename_i heq
        subst heq
        obtain ⟨-, -, t', ix, hr', hix, -⟩ := hok
        rw [show recordAt h address = some t from hr] at hr'
        obtain rfl := Option.some.inj hr'
        rw [List.length_append]
        exact (List.getElem?_eq_some_iff.mp hix).1
      · exact ih hr
    | created address r =>
      rcases recordAt_cases hr with hr | heq
      · exact ih hr
      · cases heq
        change (issued h k).length ≤ t.message.instructions.length
        rw [LegalLog.issued_eq_nil hl (LegalLog.not_entered_of_fresh hl hok.1)]
        exact Nat.zero_le _
    | initialized | approved | entered | finished | closed | provisioned => exact ih hr

/-! ### The life of a proposal -/

/-- Approvals are added at the end and the executed flag is set; nothing else changes. This
is what a proposal can become while it lives. -/
structure VaultTransaction.Extends (t t' : VaultTransaction) : Prop where
  /-- all other fields are the same -/
  same : t'.SameProposal t
  /-- approvals grow -/
  approvals_grow : t.approvals <+: t'.approvals
  /-- executed stays executed -/
  executed_mono : t.executed = true → t'.executed = true

theorem VaultTransaction.Extends.refl (t : VaultTransaction) : t.Extends t :=
  ⟨rfl, List.prefix_rfl, fun h => h⟩

theorem VaultTransaction.Extends.trans {t₁ t₂ t₃ : VaultTransaction} (h : t₁.Extends t₂)
    (h' : t₂.Extends t₃) : t₁.Extends t₃ where
  same := by
    have h₂ := h.same
    have h₃ := h'.same
    unfold VaultTransaction.SameProposal at *
    rw [h₃, h₂]
  approvals_grow := h.approvals_grow.trans h'.approvals_grow
  executed_mono := fun hx => h'.executed_mono (h.executed_mono hx)

/-- What an event can do to a live proposal: extend the one that was there, or create one
where none has ever been. -/
theorem LegalLog.proposalAt_step {e : Event} {t' : VaultTransaction} (hok : Allowed env h e)
    (ht' : proposalAt (e :: h) k = some t') :
    (∃ t, proposalAt h k = some t ∧ t.Extends t') ∨ recordAt h k = none := by
  rcases proposalAt_cases ht' with ⟨ht, -⟩ | rfl | ⟨t, member, rfl, ht, rfl⟩ |
    ⟨t, multisig, index, rfl, ht, rfl⟩
  · exact .inl ⟨t', ht, .refl t'⟩
  · exact .inr hok.1
  · exact .inl ⟨t, ht, rfl, List.prefix_append _ _, fun hx => hx⟩
  · exact .inl ⟨t, ht, rfl, List.prefix_rfl, fun _ => rfl⟩

/-- A proposal that is live now and was live then has only been extended: the step lemma,
carried along the events in between. -/
theorem LegalLog.proposalAt_extends {t' : VaultTransaction}
    (hl : LegalLog env (later ++ earlier)) (ht : proposalAt earlier k = some t)
    (ht' : proposalAt (later ++ earlier) k = some t') : t.Extends t' := by
  induction later generalizing t' with
  | nil =>
    rw [List.nil_append, ht] at ht'
    obtain rfl := Option.some.inj ht'
    exact .refl t
  | cons e later ih =>
    rcases LegalLog.proposalAt_step hl.head ht' with ⟨t'', ht'', hstep⟩ | hfresh
    · exact (ih hl.tail ht'').trans hstep
    · -- an address with a record is not created at again
      obtain ⟨r, hr, -⟩ := recordAt_of_proposalAt ht
      have hrec := LegalLog.recordAt_append hl.tail hr
      cases hfresh.symm.trans hrec

/-- The approvals of a proposal are distinct members of its multisig. Members never change,
so those who approved earlier are members still. -/
theorem LegalLog.approvals_valid (hl : LegalLog env h) (ht : proposalAt h k = some t) :
    t.approvals.Nodup ∧ ∃ m, multisigAt h t.multisig = some m ∧ t.approvals ⊆ m.members := by
  induction hl generalizing t with
  | nil => cases ht
  | @cons h e hl hok ih =>
    -- members do not change, so it is enough to look at the log before
    have hkeep : ∀ t' : VaultTransaction, t'.multisig = t.multisig →
        (∃ m, multisigAt h t'.multisig = some m ∧ t.approvals ⊆ m.members) →
        ∃ m, multisigAt (e :: h) t.multisig = some m ∧ t.approvals ⊆ m.members := by
      rintro t' hmultisig ⟨m, hm, hsub⟩
      obtain ⟨m', hm', hev, -⟩ := LegalLog.multisigAt_step hok m hm
      exact ⟨m', hmultisig ▸ hm', by rw [hev]; exact hsub⟩
    rcases proposalAt_cases ht with ⟨ht', -⟩ | rfl | ⟨t', member, rfl, ht', rfl⟩ |
      ⟨t', multisig, index, rfl, ht', rfl⟩
    · -- about something else
      obtain ⟨hnodup, hsub⟩ := ih ht'
      exact ⟨hnodup, hkeep _ rfl hsub⟩
    · -- created, without approvals
      obtain ⟨-, -, -, -, happrovals, m, hm, -, -⟩ := hok
      refine ⟨by rw [happrovals]; exact List.nodup_nil, hkeep _ rfl ⟨m, hm, ?_⟩⟩
      rw [happrovals]
      exact List.nil_subset _
    · -- approved, by a member who had not
      obtain ⟨hnodup, m, hm, hsub⟩ := ih ht'
      obtain ⟨t'', m', ht'', -, hm', hmem, hnew⟩ := hok
      rw [ht'] at ht''
      obtain rfl := Option.some.inj ht''
      rw [hm] at hm'
      obtain rfl := Option.some.inj hm'
      refine ⟨List.nodup_append.mpr ⟨hnodup, List.nodup_singleton _, ?_⟩,
        hkeep t' rfl ⟨m, hm, ?_⟩⟩
      · intro a ha b hb hab
        rw [List.mem_singleton.mp hb] at hab
        exact hnew (hab ▸ ha)
      · exact List.append_subset.mpr ⟨hsub, by simpa using hmem⟩
    · obtain ⟨hnodup, hsub⟩ := ih ht'
      exact ⟨hnodup, hkeep t' rfl hsub⟩

/-- Every approval of a proposal was recorded after the proposal was created. -/
theorem LegalLog.approved_mem {r : VaultTransaction}
    (hl : LegalLog env (later ++ .created k r :: earlier))
    (ht : proposalAt (later ++ .created k r :: earlier) k = some t) {member : Pubkey}
    (hmem : member ∈ t.approvals) : Event.approved k member ∈ later := by
  induction later generalizing t with
  | nil =>
    rw [List.nil_append, proposalAt, if_pos rfl] at ht
    obtain rfl := Option.some.inj ht
    have hnone : r.approvals = [] := hl.head.2.2.2.2.1
    rw [hnone] at hmem
    exact absurd hmem List.not_mem_nil
  | cons e later ih =>
    have hrec := LegalLog.recordAt_of_created hl.tail
    rcases proposalAt_cases ht with ⟨ht', -⟩ | rfl | ⟨t', member', rfl, ht', rfl⟩ |
      ⟨t', multisig, index, rfl, ht', rfl⟩
    · exact List.mem_cons_of_mem _ (ih hl.tail ht' hmem)
    · -- it was created before and cannot be created again
      have hfresh : recordAt (later ++ .created k r :: earlier) k = none := hl.head.1
      cases hfresh.symm.trans hrec
    · -- an older approval, or this one
      rcases List.mem_append.mp hmem with hold | hnew
      · exact List.mem_cons_of_mem _ (ih hl.tail ht' hold)
      · rw [List.mem_singleton.mp hnew]
        exact List.mem_cons_self
    · exact List.mem_cons_of_mem _ (ih hl.tail ht' hmem)

end Legal

end SolanaMultisig
