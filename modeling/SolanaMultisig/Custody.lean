import SolanaMultisig.Provenance
import SolanaMultisig.Rent

/-!
# What is in a vault

A vault is a plain account of the System program, so whoever gets its signature can
take what is in it. The runtime debits no such account without its signature
(`Lawful`); the program hands the signature out in calls only, and the calls are
those a quorum approved. So a vault that lost anything was spent from by a quorum
(`vault_spent_by_quorum`).
-/

namespace SolanaMultisig

open Wire EventLog Blame Conservation

variable {env : Env}

/-! ## The rule of the runtime -/

/-- The accounts in the hands of the foreign program on top, if one is; with their
signatures it may do what the runtime allows. -/
def State.hands (s : State) : List AccountInfo :=
  match s.frames with
  | .foreign _ infos :: _ => infos
  | _ => []

/-- A step in which other programs, and the cluster between transactions, take no lamports
out of a plain program address that did not sign: the runtime lets only the owner debit an
account, and the System program asks for a signature. -/
structure Lawful (env : Env) (s s' : State) : Prop where
  /-- it is a step -/
  step : Step env s s'
  /-- the System program asks for a signature before it debits -/
  spares : s'.frames = s.frames → s'.history = s.history → ∀ k, IsProgramAddress env k →
    ¬Signed s.hands k → (s.ledger k).Vacant → (s.ledger k).lamports ≤ (s'.ledger k).lamports

theorem lawful_run_reaches {s s' : State} (h : Relation.ReflTransGen (Lawful env) s s') :
    Reaches env s s' :=
  Relation.ReflTransGen.mono (fun _ _ hstep => hstep.step) _ _ h

/-! ## Free addresses -/

/-- The account at `k` is a plain one, and nobody has its signature. A vault is free from
the beginning, also before its multisig exists. -/
structure Free (k : Pubkey) (s : State) : Prop where
  /-- nobody can assign it -/
  unsigned : Unsigned k s
  /-- it was not given away -/
  vacant : (s.ledger k).Vacant

/-- The event makes an account at `k`; after that it would not be a plain one any more. -/
def Event.Makes (env : Env) (k : Pubkey) : Event → Prop
  | .initialized address _ => address = k
  | .created address _ => address = k
  | .provisioned multisig _ _ => (Derivation.nonce multisig).digest env = k
  | _ => False

section Free

variable {k : Pubkey} {s s' : State}

/-- What is made at an address is what the address was derived for: a multisig, a proposal
or a nonce, unless the hash collides. -/
theorem LegalLog.derivation_of_makes {h : List Event} {d : Derivation} {e : Event}
    (hl : LegalLog env h) (hcf : CollisionFree env (d :: derivations env h))
    (hk : k = d.digest env) (he : e ∈ h) (hmakes : e.Makes env k) :
    (∃ m : Multisig, d = .multisig (hashMembers env m.members) m.threshold m.bump) ∨
      (∃ t : VaultTransaction, d = .transaction t.multisig t.transactionIndex t.bump ∧
        .created k t ∈ h) ∨
      ∃ multisig, d = .nonce multisig := by
  have hsame : ∀ d' ∈ derivations env h, k = d'.digest env → d = d' := fun d' hd' hdigest =>
    CollisionFree.eq hcf List.mem_cons_self (List.mem_cons_of_mem _ hd') (hk.symm.trans hdigest)
  obtain ⟨later, earlier, rfl, hok⟩ := hl.allowed_of_mem he
  cases e with
  | initialized address m =>
    obtain ⟨-, -, -, haddress⟩ := hok
    have hdigest := multisigAddress_eq haddress
    exact .inl ⟨m, hsame _ (derivations_subset (List.mem_cons_of_mem _ List.mem_cons_self))
      (hmakes.symm.trans hdigest)⟩
  | created address t =>
    obtain ⟨-, haddress, -⟩ := hok
    have hdigest := transactionAddress_eq haddress
    refine .inr (.inl ⟨t, hsame _ (derivations_subset List.mem_cons_self)
      (hmakes.symm.trans hdigest), ?_⟩)
    rw [← show address = k from hmakes]
    exact he
  | provisioned multisig authority seeds =>
    exact .inr (.inr ⟨multisig, hsame _ (derivations_subset List.mem_cons_self) hmakes.symm⟩)
  | approved | entered | invoked | finished | closed => exact hmakes.elim

/-- Instructions that make nothing at `k` leave it free: they write to accounts of the
program only, and transfers do not assign. -/
theorem vacant_of_process {bank : Bank} {ledger : Ledger} {infos : List AccountInfo}
    {data : List UInt8} {o : Outcome}
    (hprocess : processInstruction env bank ledger infos data = .ok o)
    (hmakes : ∀ e ∈ o.event.toList, ¬e.Makes env k) (hvacant : (ledger k).Vacant) :
    (o.ledger k).Vacant := by
  obtain ⟨_, -, heffect⟩ := processInstruction_effect hprocess
  cases heffect with
  | initialized hi =>
    refine (hi.others k fun he => ?_).vacant hvacant
    exact hmakes _ List.mem_cons_self he.symm
  | created hc =>
    refine (hc.others k (fun he => ?_) fun he => ?_).vacant hvacant
    · exact hmakes _ List.mem_cons_self he.symm
    · exact (he ▸ hc.multisig_holds).not_vacant hvacant
  | approved hap =>
    refine (SameContents.of_eq (hap.others k fun he => ?_)).vacant hvacant
    exact (he ▸ hap.pending.holds).not_vacant hvacant
  | entered hen =>
    refine (SameContents.of_eq (hen.others k fun he => ?_)).vacant hvacant
    exact (he ▸ hen.pending.holds).not_vacant hvacant
  | closed hc =>
    refine (hc.closed.others k fun he => ?_).vacant hvacant
    exact (he ▸ hc.holds).not_vacant hvacant
  | provisioned hp =>
    refine (hp.others k fun he => ?_).vacant hvacant
    exact hmakes _ List.mem_cons_self (he.trans hp.nonce_eq).symm
  | viewedAddress | viewedVault => exact hvacant

/-- Anchor's write-back is for the program's accounts and leaves a free one alone. -/
theorem vacant_of_exit {α : Type} {T : AccountType α} {ledger ledger' : Ledger} {key : Pubkey}
    {a : α} (hexit : T.exit env ledger key a = .ok ledger') (hvacant : (ledger k).Vacant) :
    (ledger' k).Vacant := by
  by_cases hkey : (ledger key).Vacant
  · rw [AccountType.exit_vacant hkey] at hexit
    cases hexit
    exact hvacant
  · have hne : k ≠ key := fun he => hkey (he ▸ hvacant)
    exact (SameContents.of_eq
      ((AccountType.written_of_exit hkey hexit).others k hne)).vacant hvacant

/-- **A free address stays free** until a call is signed for it, or something is made there.
One case for each kind of step. -/
theorem Free.step (hk : IsProgramAddress env k) (hstep : Step env s s')
    (hmakes : ∀ e ∈ s'.history, ¬e.Makes env k) (hs : Free k s) :
    Free k s' ∨ Logged (Event.SignsFor env k) s.history s'.history := by
  rcases hs.unsigned.step hk hstep with hunsigned | hlogged
  case inr => exact .inr hlogged
  have happly : ∀ {s₀ : State} {bank : Bank} {infos : List AccountInfo} {data : List UInt8}
      {o : Outcome}, processInstruction env bank s.ledger infos data = .ok o →
        s' = s₀.apply o → Free k s' := by
    rintro s₀ bank infos data o hprocess rfl
    exact ⟨hunsigned, vacant_of_process hprocess
      (fun e he => hmakes e (List.mem_append_left _ he)) hs.vacant⟩
  left
  cases hstep with
  | settle _ hforeign =>
    exact ⟨hunsigned, hforeign.vacant k hk (fun ⟨_, hinfo, _⟩ => List.not_mem_nil hinfo) hs.vacant⟩
  | submit _ _ hsubmit =>
    cases hsubmit with
    | process _ hprocess => exact happly hprocess rfl
    | foreign _ => exact ⟨hunsigned, hs.vacant⟩
  | inner hinner =>
    cases hinner with
    | call => exact ⟨hunsigned, hs.vacant⟩
    | callSelf _ _ _ _ hprocess => exact happly hprocess rfl
    | finish _ _ hexit => exact ⟨hunsigned, vacant_of_exit hexit hs.vacant⟩
    | foreign hframes hforeign =>
      have hno := hs.unsigned (.foreign _ _) (by rw [hframes]; exact List.mem_cons_self)
      exact ⟨hunsigned, hforeign.vacant k hk hno hs.vacant⟩
    | callback _ _ _ hprocess => exact happly hprocess rfl
    | leave => exact ⟨hunsigned, hs.vacant⟩

theorem accountable_free (hk : IsProgramAddress env k) :
    Accountable (Step env) State.history (fun h => ∀ e ∈ h, ¬e.Makes env k) (Free k)
      (Event.SignsFor env k) where
  grows := fun _ _ hstep => hstep.history_suffix
  good_of_suffix := fun _ _ hs hmakes e he => hmakes e (hs.subset he)
  kept := fun _ _ hstep hmakes hs => hs.step hk hstep hmakes

end Free

/-! ## Safekeeping -/

/-- A free account with at least `balance`; that anybody may add to it is why it says at
least. -/
structure Kept (k : Pubkey) (balance : ℕ) (s : State) : Prop extends Free k s where
  le : balance ≤ (s.ledger k).lamports

/-- Where the derivations of the log are distinct, no operation takes the address of vault
`v` for something else. -/
def DistinctVault (env : Env) (multisig : Pubkey) (v bump : UInt8) (h : List Event) : Prop :=
  CollisionFree env (.vault multisig v bump :: derivations env h)

instance (multisig : Pubkey) (v bump : UInt8) (h : List Event) :
    Decidable (DistinctVault env multisig v bump h) :=
  inferInstanceAs (Decidable (CollisionFree env (.vault multisig v bump :: derivations env h)))

section Vault

variable {multisig vault : Pubkey} {v bump : UInt8} {h : List Event} {s s' : State} {n : ℕ}

theorem DistinctVault.distinctAddresses (hcf : DistinctVault env multisig v bump h) :
    DistinctAddresses env h :=
  CollisionFree.mono hcf (List.subset_cons_self _ _)

/-- What has the vault's digest in the log is the vault: no multisig, proposal or nonce is
at its address. -/
theorem DistinctVault.eq_vault (hcf : DistinctVault env multisig v bump h)
    (hvault : deriveVaultPda env multisig v = some (vault, bump)) {d : Derivation}
    (hd : d ∈ derivations env h) (he : vault = d.digest env) : d = .vault multisig v bump := by
  have hkey := vaultAddress_eq hvault
  exact CollisionFree.eq hcf (List.mem_cons_of_mem _ hd) List.mem_cons_self (he.symm.trans hkey)

theorem isProgramAddress_vault (hvault : deriveVaultPda env multisig v = some (vault, bump)) :
    IsProgramAddress env vault :=
  ⟨_, createProgramAddress_of_find hvault⟩

/-- Neither a multisig nor a proposal nor a nonce is made at a vault. -/
theorem DistinctVault.not_makes (hcf : DistinctVault env multisig v bump h)
    (hvault : deriveVaultPda env multisig v = some (vault, bump)) (hl : LegalLog env h) :
    ∀ e ∈ h, ¬e.Makes env vault := by
  intro e he hmakes
  have hkey := vaultAddress_eq hvault
  rcases hl.derivation_of_makes hcf hkey he hmakes with
    ⟨m, hd⟩ | ⟨t, hd, -⟩ | ⟨owner, hd⟩ <;> cases hd

/-- An instruction that the vault did not sign leaves it what it has: the program debits
payers only, and payers sign. -/
theorem lamports_le_of_unsigned {bank : Bank} {ledger : Ledger} {infos : List AccountInfo}
    {data : List UInt8} {o : Outcome} {k : Pubkey}
    (hprocess : processInstruction env bank ledger infos data = .ok o) (hk : ¬Signed infos k)
    (hvacant : (ledger k).Vacant) : (ledger k).lamports ≤ (o.ledger k).lamports := by
  refine (touches_of_processInstruction hprocess).moves.le_of_not_spender ?_
  rintro (⟨-, hsigned⟩ | ⟨payer, hclosed⟩)
  · exact hk hsigned
  · obtain ⟨t, ht, -⟩ := closed_of_processInstruction hprocess hclosed
    exact ht.not_vacant hvacant

/-- **Only a call that is signed for an address can take something from it.** The program's
own instructions debit signers, and foreign programs are lawful. -/
theorem Free.lamports_le {k : Pubkey} (hk : IsProgramAddress env k) (hstep : Lawful env s s')
    (hs : Free k s) : (s.ledger k).lamports ≤ (s'.ledger k).lamports ∨
      Logged (Event.SignsFor env k) s.history s'.history := by
  obtain ⟨hstep, hspares⟩ := hstep
  cases hstep with
  | settle hidle =>
    refine .inl (hspares rfl rfl k hk ?_ hs.vacant)
    rw [State.hands, hidle]
    exact fun ⟨_, hinfo, _⟩ => List.not_mem_nil hinfo
  | submit _ hkeys hsubmit =>
    cases hsubmit with
    | process _ hprocess =>
      exact .inl (lamports_le_of_unsigned hprocess (fun hsigned => hkeys k hsigned hk) hs.vacant)
    | foreign _ => exact .inl le_rfl
  | inner hinner =>
    cases hinner with
    | call | leave => exact .inl le_rfl
    | @callSelf e rest cpi bank o hframes _ hprivileged _ hprocess =>
      exact (hs.unsigned.callee hframes hprivileged).imp
        (fun hsigned => lamports_le_of_unsigned hprocess hsigned hs.vacant)
        fun hlogged => hlogged.of_suffix_right (apply_history (s.issue e rest cpi) o)
    | finish _ _ hexit => exact .inl (AccountType.lamports_exit hexit k).ge
    | foreign hframes =>
      refine .inl (hspares rfl rfl k hk ?_ hs.vacant)
      rw [State.hands, hframes]
      exact hs.unsigned (.foreign _ _) (by rw [hframes]; exact List.mem_cons_self)
    | callback hframes _ hsigners hprocess =>
      exact .inl (lamports_le_of_unsigned hprocess (hs.unsigned.callback hframes hk hsigners)
        hs.vacant)

/-- So a vault is kept until a call is signed for it, and the call is in the log. -/
theorem Kept.step (hvault : deriveVaultPda env multisig v = some (vault, bump))
    (hstep : Lawful env s s') (hmakes : ∀ e ∈ s'.history, ¬e.Makes env vault)
    (hs : Kept vault n s) :
    Kept vault n s' ∨ Logged (Event.SignsFor env vault) s.history s'.history := by
  have hpda := isProgramAddress_vault hvault
  rcases hs.toFree.step hpda hstep.step hmakes with hfree | hlogged
  · exact (hs.toFree.lamports_le hpda hstep).imp_left fun hle => ⟨hfree, hs.le.trans hle⟩
  · exact .inr hlogged

theorem accountable_kept (hvault : deriveVaultPda env multisig v = some (vault, bump)) (n : ℕ) :
    Accountable (Lawful env) State.history (fun h => ∀ e ∈ h, ¬e.Makes env vault) (Kept vault n)
      (Event.SignsFor env vault) where
  grows := fun _ _ hstep => hstep.step.history_suffix
  good_of_suffix := fun _ _ hs hmakes e he => hmakes e (hs.subset he)
  kept := fun _ _ hstep hmakes hs => hs.step hvault hstep hmakes

end Vault

/-! ## Spending -/

/-- Since the log `h`, a call was issued for a proposal to spend from vault `v` of
`multisig`; whoever is suspected of approving anything, if too few members are, then
one of the others approved this proposal. -/
def SpentByQuorum (env : Env) (multisig : Pubkey) (v : UInt8) (h : List Event) (s : State) :
    Prop :=
  ∃ (later earlier : List Event) (address : Pubkey) (cpi : Cpi) (t : VaultTransaction)
    (m : Multisig), s.history = later ++ .invoked address cpi :: earlier ∧ h <:+ earlier ∧
      recordAt earlier address = some t ∧ t.multisig = multisig ∧ t.vaultIndex = v ∧
      multisigAccount.Holds env s.ledger multisig m ∧
      ∀ suspects : Finset Pubkey, (m.members.filter (· ∈ suspects)).length < m.threshold.toNat →
        ∃ k ∈ m.members, k ∉ suspects ∧ .approved address k ∈ earlier

/-- Too few suspects are no quorum: among enough distinct members one is not suspected. -/
theorem exists_unsuspected {members signers : List Pubkey} {threshold : ℕ}
    {suspects : Finset Pubkey} (hnodup : signers.Nodup) (hsub : signers ⊆ members)
    (henough : threshold ≤ signers.length)
    (hfew : (members.filter (· ∈ suspects)).length < threshold) :
    ∃ k ∈ signers, k ∉ suspects := by
  by_contra hnone
  have hsubset : signers ⊆ members.filter (· ∈ suspects) := by
    intro k hk
    refine List.mem_filter.mpr ⟨hsub hk, decide_eq_true ?_⟩
    by_contra hfree
    exact hnone ⟨k, hk, hfree⟩
  have hle := (hnodup.subperm hsubset).length_le
  omega

/-- Behind a call signed for a vault is a quorum of its multisig: the seeds that sign for
the address are the vault's own, since the hash tells derivations apart. -/
theorem LegalLog.quorum_of_signs {later earlier : List Event} {address multisig vault : Pubkey}
    {v bump : UInt8} {cpi : Cpi} (hl : LegalLog env (later ++ .invoked address cpi :: earlier))
    (hcf : DistinctVault env multisig v bump (later ++ .invoked address cpi :: earlier))
    (hvault : deriveVaultPda env multisig v = some (vault, bump))
    (hseeds : createProgramAddress env cpi.signerSeeds env.programId = some vault) :
    ∃ (t : VaultTransaction) (m : Multisig) (signers : List Pubkey),
      recordAt earlier address = some t ∧ t.multisig = multisig ∧ t.vaultIndex = v ∧
      multisigAt (later ++ .invoked address cpi :: earlier) multisig = some m ∧
      signers.Nodup ∧ m.threshold.toNat ≤ signers.length ∧
      ∀ a ∈ signers, a ∈ m.members ∧ .approved address a ∈ earlier := by
  have hl' : LegalLog env earlier := (hl.of_append).tail
  obtain ⟨t, m, vault', signers, hr, hvault', hsign, hm, hnodup, henough, hsigners⟩ :=
    hl'.quorum_of_invoked hl.ok_of_split
  obtain rfl := Option.some.inj (hsign.symm.trans hseeds)
  rw [List.append_cons] at hl hcf ⊢
  -- the address tells whose vault it is
  have hmem : Derivation.vault t.multisig t.vaultIndex t.vaultBump ∈
      derivations env ((later ++ [.invoked address cpi]) ++ earlier) :=
    derivations_subset (vault_mem_derivations (recordAt_mem hr))
  obtain ⟨hmultisig, hindex, -⟩ := Derivation.vault.inj
    (hcf.eq_vault hvault hmem (vaultAddress_eq hvault'))
  subst hmultisig
  -- the multisig still has the members it had
  obtain ⟨m', hm', hev, -⟩ := LegalLog.multisigAt_append hl hm
  refine ⟨t, m', signers, hr, rfl, hindex, hm', hnodup, ?_, fun a ha => ?_⟩
  · rw [hev]
    exact henough
  · rw [hev]
    exact hsigners a ha

/-- **A vault is spent from by its quorum only.** From any reachable state between
transactions, whatever programs run in whatever transactions, successful or not: the
vault is still a plain account and has at least what it had, or a call was issued
since for a proposal of this multisig and this vault, and for every set of members too
small to be a quorum, somebody outside of it had approved that proposal. -/
theorem vault_spent_by_quorum {s s' : State} {multisig vault : Pubkey} {v bump : UInt8}
    (hs : Reachable env s) (hidle : s.frames = [])
    (hvault : deriveVaultPda env multisig v = some (vault, bump))
    (hvacant : (s.ledger vault).Vacant) (hrun : Relation.ReflTransGen (Lawful env) s s')
    (hcf : DistinctVault env multisig v bump s'.history) :
    ((s'.ledger vault).Vacant ∧ (s.ledger vault).lamports ≤ (s'.ledger vault).lamports) ∨
      SpentByQuorum env multisig v s.history s' := by
  have hkept : Kept vault (s.ledger vault).lamports s :=
    ⟨⟨unsigned_of_idle hidle, hvacant⟩, le_rfl⟩
  have href := refines_of_reachable (hs.trans (lawful_run_reaches hrun)) hcf.distinctAddresses
  rcases (accountable_kept hvault _).run hrun (hcf.not_makes hvault href.legal) hkept with
    hkept' | hlogged
  · exact .inl ⟨hkept'.vacant, hkept'.le⟩
  · right
    obtain ⟨later, e, earlier, hlog, hsuffix, hseeds⟩ := hlogged
    cases e with
    | invoked address cpi =>
      have hl := href.legal
      rw [hlog] at hl hcf
      obtain ⟨t, m, signers, hr, hmultisig, hindex, hm, hnodup, henough, hsigners⟩ :=
        hl.quorum_of_signs hcf hvault hseeds
      rw [← hlog] at hm
      refine ⟨later, earlier, address, cpi, t, m, hlog, hsuffix, hr, hmultisig, hindex,
        (href.accounts.multisigs _ _).mpr hm, fun suspects hfew => ?_⟩
      obtain ⟨k, hk, hfree⟩ :=
        exists_unsuspected hnodup (fun a ha => (hsigners a ha).1) henough hfew
      exact ⟨k, (hsigners k hk).1, hfree, (hsigners k hk).2⟩
    | initialized | created | approved | entered | finished | closed | provisioned =>
      exact hseeds.elim

/-! ## In the example -/

/-- What the interpreter does is lawful: it lets foreign programs do nothing. -/
theorem exec_lawful {bank : Bank} {s s' : State} {c : Command} (hkeys : c.KeysOnly env)
    (h : s.exec env bank c = some s') : Lawful env s s' := by
  refine ⟨exec_step hkeys h, fun _ hhistory k _ _ _ => ?_⟩
  -- what changes an account is logged
  cases c with
  | submit infos data =>
    obtain ⟨-, o, ho, rfl⟩ := exec_submit h
    obtain ⟨_, -, heffect⟩ := processInstruction_effect ho
    cases heffect with
    | viewedAddress | viewedVault => exact le_rfl
    | initialized | created | approved | entered | closed | provisioned =>
      exact absurd hhistory (List.cons_ne_self _ _)
  | call =>
    have hlogged : ∀ {address cpi}, ¬(.invoked address cpi :: s.history) <:+ s'.history := by
      intro address cpi hsuffix
      have hle := hsuffix.length_le
      rw [hhistory, List.length_cons] at hle
      omega
    rw [State.exec] at h
    split at h
    · split at h
      · rw [State.perform] at h
        split at h
        · split at h
          · obtain ⟨o, -, rfl⟩ := applyResult_eq_some h
            exact absurd (apply_history (s.issue _ _ _) o) hlogged
          · cases h
            exact absurd (List.suffix_refl _) hlogged
        · cases h
      · cases h
    · cases h
  | finish =>
    rw [State.exec] at h
    split at h
    · split at h
      · cases h
        exact absurd hhistory (List.cons_ne_self _ _)
      · cases h
    · cases h
  | leave =>
    rw [State.exec] at h
    split at h
    · cases h
      exact le_rfl
    · cases h

theorem drive_lawful {bank : Bank} {cs : List Command} {s s' : State}
    (hkeys : ∀ c ∈ cs, c.KeysOnly env) (h : drive env bank s cs = some s') :
    Relation.ReflTransGen (Lawful env) s s' := by
  induction cs generalizing s with
  | nil =>
    cases h
    exact .refl
  | cons c cs ih =>
    obtain ⟨s₁, hexec, hdrive⟩ := Option.bind_eq_some_iff.mp h
    obtain ⟨hc, hcs⟩ := List.forall_mem_cons.mp hkeys
    exact .head (exec_lawful hc hexec) (ih hcs hdrive)

/-- The System program transfers lamports from an account that signed; this is lawful for
every other account. -/
theorem lawful_transfer {s : State} {infos : List AccountInfo} {rest : List Frame}
    {src dst : Pubkey} {n : ℕ} {ledger : Ledger}
    (hframes : s.frames = .foreign systemProgramId infos :: rest) (hsigned : Signed infos src)
    (h : systemTransfer s.ledger src dst n = .ok ledger) :
    Lawful env s { s with ledger := ledger } := by
  have hsame := systemTransfer_sameContents h
  have htouches : Touches {src, dst} (fun k => k = src ∧ (s.ledger k).Vacant) s.ledger ledger :=
    systemTransfer_touches h (by simp) (by simp) fun hvacant => ⟨rfl, hvacant⟩
  refine ⟨.inner (.foreign hframes ?_), fun _ _ k _ hk _ => ?_⟩
  · exact
      { keeps := fun k htyped => ⟨hsame k, htouches.moves.le_of_not_spender
          fun hspender => htyped.not_vacant hspender.2⟩
        forges := fun k htyped => htyped.of_sameContents (hsame k)
        vacant := fun k _ _ hvacant => (hsame k).vacant hvacant }
  · refine htouches.moves.le_of_not_spender fun hspender => hk ?_
    rw [State.hands, hframes, hspender.1]
    exact hsigned

namespace Example

theorem deriveVaultPda_vault : deriveVaultPda cluster multisig 0 = some (vault, 255) := by
  decide +kernel

/-- The vault of the example pays `carol`, after both members approved. -/
theorem exists_spent : ∃ s', Relation.ReflTransGen (Lawful cluster) genesis s' ∧
    DistinctVault cluster multisig 0 255 s'.history ∧
    (s'.ledger vault).lamports < (genesis.ledger vault).lamports := by
  have hrun : ((drive cluster bank genesis [register, create, approve alice, approve bob, execute,
      .call]).map fun s =>
        decide (s.frames.head? = some (.foreign systemProgramId cpi.calleeInfos)) &&
        decide (s.ledger vault = genesis.ledger vault) &&
        decide ((s.ledger carol).lamports = 0) &&
        decide (DistinctVault cluster multisig 0 255 s.history)) = some true := by
    decide +kernel
  obtain ⟨s, hs, hchecked⟩ := Option.map_eq_some_iff.mp hrun
  simp only [Bool.and_eq_true, decide_eq_true_eq] at hchecked
  obtain ⟨⟨⟨hhead, hvault⟩, hcarol⟩, hcf⟩ := hchecked
  obtain ⟨rest, hframes⟩ := List.head?_eq_some_iff.mp hhead
  have hbalance : s.ledger vault = ⟨5000000, systemProgramId, []⟩ := hvault.trans (by decide)
  have hne : vault ≠ carol := by decide
  have htransfer : systemTransfer s.ledger vault carol 700 =
      .ok (transferred s.ledger vault carol 700) := by
    refine systemTransfer_eq_ok.mpr ⟨?_, ?_, ?_, rfl⟩
    · simp [Account.Vacant, hbalance]
    · simp [hbalance]
    · rw [lamports_transferred _ hne, hcarol]
      decide
  have hkeys : ∀ c ∈ [register, create, approve alice, approve bob, execute, .call],
      c.KeysOnly cluster := fun c hc =>
    commands_keysOnly c (List.mem_append_left [Command.leave, Command.finish, close] hc)
  refine ⟨_, (drive_lawful hkeys hs).tail (lawful_transfer hframes (by decide) htransfer), hcf, ?_⟩
  simp only [transferred, Function.update_of_ne hne, Function.update_self, hbalance, ← hvault]
  decide

end Example

/-- It was a quorum that spent: `alice` and `bob`. -/
theorem vault_spent_by_quorum_example : ∃ s',
    (s'.ledger Example.vault).lamports < (Example.genesis.ledger Example.vault).lamports ∧
    SpentByQuorum Example.cluster Example.multisig 0 Example.genesis.history s' := by
  obtain ⟨s', hrun, hcf, hlt⟩ := Example.exists_spent
  refine ⟨s', hlt, (vault_spent_by_quorum (reachable_of_reaches Example.genesis_genesis .refl) rfl
    Example.deriveVaultPda_vault (by decide) hrun hcf).resolve_left ?_⟩
  rintro ⟨-, hle⟩
  omega

end SolanaMultisig
