import SolanaMultisig.Lib.Blame
import SolanaMultisig.Authorization
import SolanaMultisig.Reentry

/-!
# Where signatures come from

An address derived by the program has no private key. When one signs an instruction of the
program, as a member, a creator or a payer, its signature was handed down from a call that
an execution issued for it, and behind that call stands the quorum of its multisig. The
members of this quorum may be vaults again; in the end there are signers that are no address
of the program (`signatures_backed`). Who signs for those is not the program's business: a
private key, or another program that derives the address.
-/

namespace SolanaMultisig

open Wire EventLog Blame

variable {env : Env}

/-! ## Signatures on the stack -/

/-- The accounts a call was given, with the signatures it may pass on. -/
def Frame.infos : Frame → List AccountInfo
  | .execution e => e.infos
  | .foreign _ infos => infos

/-- No call under way has the signature of `k`. For an address of the program this is true
whenever the stack is empty. -/
def Unsigned (k : Pubkey) (s : State) : Prop := ∀ f ∈ s.frames, ¬Signed f.infos k

/-- The event is a call whose seeds sign for `k`: the one way for a program address to sign.
-/
def Event.SignsFor (env : Env) (k : Pubkey) : Event → Prop
  | .invoked _ cpi => createProgramAddress env cpi.signerSeeds env.programId = some k
  | _ => False

section Stack

variable {k : Pubkey} {s s' : State}

theorem unsigned_of_idle (h : s.frames = []) : Unsigned k s := by
  rw [Unsigned, h]
  exact fun f hf => absurd hf List.not_mem_nil

/-- An execution has the accounts of its instruction. -/
theorem execution_infos {bank : Bank} {ledger : Ledger} {infos : List AccountInfo}
    {data : List UInt8} {o : Outcome} {e : Execution}
    (h : processInstruction env bank ledger infos data = .ok o) (he : o.execution = some e) :
    e.infos = infos := by
  simp only [processInstruction, Guard.bind_eq_ok] at h
  obtain ⟨instruction, -, h⟩ := h
  have heffect := ProgramInstruction.process_effect h
  cases instruction with
  | executeTransaction =>
    obtain ⟨multisig, transaction, executor, remaining, rfl, m, -, t, -, -, -, -, record, -,
      written, -, execution, hstart, rfl⟩ := ExecuteTransaction.process_eq_ok.mp h
    cases he
    exact (Execution.start_eq_ok hstart).2.2.2.1
  | initializeMultisig | createTransaction | approveTransaction | closeTransaction |
      provisionNonce | deriveAddress | deriveVaultAddress =>
    cases heffect
    cases he

/-- An instruction that `k` did not sign gives nobody its signature: an execution has only
the accounts it was submitted with. -/
theorem Unsigned.apply {bank : Bank} {infos : List AccountInfo} {data : List UInt8} {o : Outcome}
    {ledger : Ledger} (hs : Unsigned k s) (hk : ¬Signed infos k)
    (h : processInstruction env bank ledger infos data = .ok o) : Unsigned k (s.apply o) := by
  intro f hf
  rcases List.mem_append.mp hf with hnew | hold
  · obtain ⟨e, he, rfl⟩ := Option.map_eq_some_iff.mp (Option.mem_toList.mp hnew)
    rw [Frame.infos, execution_infos h he]
    exact hk
  · exact hs f hold

/-- A call passes on the signatures of its caller and adds that of its seeds. -/
theorem Privileged.signed {caller : List AccountInfo} {cpi : Cpi} (h : Privileged env caller cpi)
    (hk : Signed cpi.calleeInfos k) :
    Signed caller k ∨ createProgramAddress env cpi.signerSeeds env.programId = some k := by
  obtain ⟨info, hinfo, rfl, hsigner⟩ := hk
  obtain ⟨account, haccount, rfl⟩ := List.mem_map.mp hinfo
  exact (h account haccount).2 hsigner

theorem Unsigned.issue {e : Execution} {rest : List Frame} {cpi : Cpi} (hs : Unsigned k s)
    (hframes : s.frames = .execution e :: rest) : Unsigned k (s.issue e rest cpi) := by
  rw [Unsigned, hframes] at hs
  intro f hf
  rcases List.mem_cons.mp hf with rfl | hf
  · exact hs (.execution e) List.mem_cons_self
  · exact hs f (List.mem_cons_of_mem _ hf)

/-- Issuing a call with seeds for `k` is logged. -/
theorem logged_issue {e : Execution} (rest : List Frame) {cpi : Cpi}
    (h : createProgramAddress env cpi.signerSeeds env.programId = some k) :
    Logged (Event.SignsFor env k) s.history (s.issue e rest cpi).history :=
  ⟨[], .invoked e.transaction cpi, s.history, rfl, List.suffix_rfl, h⟩

/-- The callee has the signature from the seeds of its call, or not at all; in the first
case the call is in the log. -/
theorem Unsigned.callee {e : Execution} {rest : List Frame} {cpi : Cpi} (hs : Unsigned k s)
    (hframes : s.frames = .execution e :: rest) (hprivileged : Privileged env e.infos cpi) :
    ¬Signed cpi.calleeInfos k ∨
      Logged (Event.SignsFor env k) s.history (s.issue e rest cpi).history := by
  by_cases hsigned : Signed cpi.calleeInfos k
  · rcases hprivileged.signed hsigned with hcaller | hseeds
    · exact absurd hcaller (hs (.execution e) (by simp [hframes]))
    · exact .inr (logged_issue rest hseeds)
  · exact .inl hsigned

/-- Who calls back cannot sign for it either. -/
theorem Unsigned.callback {program : Pubkey} {infos callee : List AccountInfo} {rest : List Frame}
    (hs : Unsigned k s) (hframes : s.frames = .foreign program infos :: rest)
    (hk : IsProgramAddress env k)
    (hsigners : ∀ k, Signed callee k → Signed infos k ∨ ¬IsProgramAddress env k) :
    ¬Signed callee k := by
  intro hsigned
  rcases hsigners k hsigned with hcaller | hkey
  · exact hs (.foreign program infos) (by simp [hframes]) hcaller
  · exact hkey hk

/-- **A program address that has not signed gets its signature from a call alone.** -/
theorem Unsigned.step (hk : IsProgramAddress env k) (hstep : Step env s s')
    (hs : Unsigned k s) : Unsigned k s' ∨ Logged (Event.SignsFor env k) s.history s'.history := by
  cases hstep with
  | settle => exact .inl hs
  | submit hempty hkeys hsubmit =>
    cases hsubmit with
    | process _ hprocess => exact .inl (hs.apply (fun hsigned => hkeys k hsigned hk) hprocess)
    | foreign _ =>
      refine .inl fun f hf => ?_
      rcases List.mem_cons.mp hf with rfl | hf
      · exact fun hsigned => hkeys k hsigned hk
      · exact hs f hf
  | inner hinner =>
    cases hinner with
    | @call e rest cpi hframes hcpi hprivileged _ =>
      refine (hs.callee hframes hprivileged).imp_left fun hsigned f hf => ?_
      rcases List.mem_cons.mp hf with rfl | hf
      · exact hsigned
      · exact hs.issue hframes f hf
    | @callSelf e rest cpi bank o hframes hcpi hprivileged _ hprocess =>
      exact (hs.callee hframes hprivileged).imp
        (fun hsigned => (hs.issue hframes).apply hsigned hprocess)
        fun hlogged => hlogged.of_suffix_right (apply_history (s.issue e rest cpi) o)
    | finish hframes =>
      rw [Unsigned, hframes] at hs
      exact .inl fun f hf => hs f (List.mem_cons_of_mem _ hf)
    | foreign => exact .inl hs
    | @callback program infos callee rest bank data o hframes _ hsigners hprocess =>
      exact .inl (hs.apply (hs.callback hframes hk hsigners) hprocess)
    | leave hframes =>
      rw [Unsigned, hframes] at hs
      exact .inl fun f hf => hs f (List.mem_cons_of_mem _ hf)

/-- The same for runs, as an instance of the general notion: as long as no call signs for
`k`, no call under way has its signature. -/
theorem accountable_unsigned (hk : IsProgramAddress env k) :
    Accountable (Step env) State.history (fun _ => True) (Unsigned k) (Event.SignsFor env k) where
  grows := fun _ _ hstep => hstep.history_suffix
  good_of_suffix := fun _ _ _ _ => trivial
  kept := fun _ _ hstep _ hs => hs.step hk hstep

end Stack

/-! ## Signatures in the log -/

/-- The event stands for an instruction that `k` signed. Registering asks for no signature
but the payer's, and executing for that of anybody, so neither is listed. -/
def Event.SignedBy (k : Pubkey) : Event → Prop
  | .created _ t => k = t.creator ∨ k = t.payer
  | .approved _ member => k = member
  | .closed _ payer => k = payer
  | _ => False

/-- Program addresses sign only after a call for them was issued. -/
def Consents (env : Env) (h : List Event) (e : Event) : Prop :=
  ∀ k, e.SignedBy k → IsProgramAddress env k → Logged (Event.SignsFor env k) [] h

/-- Who signed an event signed the instruction. -/
theorem Event.SignedBy.signed {bank : Bank} {ledger : Ledger} {infos : List AccountInfo}
    {data : List UInt8} {o : Outcome} {e : Event} {k : Pubkey}
    (h : processInstruction env bank ledger infos data = .ok o) (he : o.event = some e)
    (hk : e.SignedBy k) : Signed infos k := by
  obtain ⟨_, -, heffect⟩ := processInstruction_effect h
  cases heffect with
  | created _ _ hcreator hpayer =>
    cases he
    rcases hk with rfl | rfl
    · exact hcreator
    · exact hpayer
  | approved _ _ hmember =>
    cases he
    obtain rfl := hk
    exact hmember
  | closed _ _ hpayer =>
    cases he
    obtain rfl := hk
    exact hpayer
  | initialized | entered | provisioned =>
    cases he
    exact hk.elim
  | viewedAddress | viewedVault => cases he

section Log

variable {s s' : State}

/-- An instruction logs what its signers consented to. -/
theorem consents_apply {bank : Bank} {ledger : Ledger} {infos : List AccountInfo}
    {data : List UInt8} {o : Outcome} (hl : Legal (Consents env) s.history)
    (h : processInstruction env bank ledger infos data = .ok o)
    (hsigners : ∀ k, Signed infos k → IsProgramAddress env k →
      Logged (Event.SignsFor env k) [] s.history) : Legal (Consents env) (s.apply o).history := by
  rw [State.apply]
  cases he : o.event with
  | none => exact hl
  | some e => exact .cons hl fun k hk hpda => hsigners k (hk.signed h he) hpda

/-- In a run from the beginning, whoever has a signature of a program address got it
from a call. -/
theorem logged_of_signed {genesis : State} (hg : Genesis env genesis)
    (hrun : Reaches env genesis s) {f : Frame} (hf : f ∈ s.frames) {k : Pubkey}
    (hsigned : Signed f.infos k) (hk : IsProgramAddress env k) :
    Logged (Event.SignsFor env k) [] s.history := by
  rcases (accountable_unsigned hk).run hrun trivial (unsigned_of_idle hg.frames_eq) with
    hunsigned | hlogged
  · exact absurd hsigned (hunsigned f hf)
  · exact hlogged.of_suffix_left (List.nil_suffix)

/-- **No program address signs without a call.** Read at each event of the log, this is the
step of the induction below: the signature points to something earlier. -/
theorem consents_of_reaches {genesis : State} (hg : Genesis env genesis)
    (hrun : Reaches env genesis s) : Legal (Consents env) s.history := by
  induction hrun with
  | refl =>
    rw [hg.history_eq]
    exact .nil
  | @tail s₁ s₂ hrun hstep ih =>
    have hframe : ∀ {f : Frame}, f ∈ s₁.frames → ∀ {k : Pubkey}, Signed f.infos k →
        IsProgramAddress env k → Logged (Event.SignsFor env k) [] s₁.history :=
      fun hf _ hsigned hk => logged_of_signed hg hrun hf hsigned hk
    cases hstep with
    | settle => exact ih
    | submit _ hkeys hsubmit =>
      cases hsubmit with
      | process _ hprocess =>
        exact consents_apply ih hprocess fun k hsigned hk => absurd hk (hkeys k hsigned)
      | foreign _ => exact ih
    | inner hinner =>
      cases hinner with
      | call => exact .cons ih fun _ hk => hk.elim
      | @callSelf e rest cpi bank o hframes hcpi hprivileged _ hprocess =>
        have hissue : Legal (Consents env) (s₁.issue e rest cpi).history :=
          .cons ih fun _ hk => hk.elim
        refine consents_apply hissue hprocess fun k hsigned hk => ?_
        rcases hprivileged.signed hsigned with hcaller | hseeds
        · exact (hframe (f := .execution e) (by simp [hframes]) hcaller hk).of_suffix_right
            (List.suffix_cons _ _)
        · exact (logged_issue rest hseeds).of_suffix_left List.nil_suffix
      | finish => exact .cons ih fun _ hk => hk.elim
      | foreign | leave => exact ih
      | @callback program infos callee rest bank data o hframes _ hsigners hprocess =>
        refine consents_apply ih hprocess fun k hsigned hk => ?_
        rcases hsigners k hsigned with hcaller | hkey
        · exact hframe (f := .foreign program infos) (by simp [hframes]) hcaller hk
        · exact absurd hk hkey

end Log

/-! ## Back to addresses of others -/

/-- The signature of `k` is backed by the log: `k` is no address of the program, or it is a
vault and a call was issued for it, whose proposal a quorum of the multisig approved; and
the signature of each of them was backed when it was given. Being an inductive predicate, it
has no endless regress: following the approvals back, one always arrives at signers that the
program does not derive. -/
inductive Backed (env : Env) : List Event → Pubkey → Prop
  /-- an address that the program does not derive signs for itself -/
  | outside {h : List Event} {k : Pubkey} : ¬IsProgramAddress env k → Backed env h k
  /-- a quorum stands behind the vault -/
  | vault {h later before : List Event} {k address : Pubkey} {cpi : Cpi} {t : VaultTransaction}
      {m : Multisig} {signers : List Pubkey} {earlier : Pubkey → List Event} :
      h = later ++ .invoked address cpi :: before →
      createProgramAddress env cpi.signerSeeds env.programId = some k →
      recordAt before address = some t →
      deriveVaultPda env t.multisig t.vaultIndex = some (k, t.vaultBump) →
      multisigAt before t.multisig = some m →
      signers.Nodup → m.threshold.toNat ≤ signers.length → signers ⊆ m.members →
      (∀ a ∈ signers, .approved address a :: earlier a <:+ before) →
      (∀ a ∈ signers, Backed env (earlier a) a) → Backed env h k

/-- The signature a call is issued with is that of the vault of its proposal, and a quorum
of its members approved before. The multisig may have counted further proposals since, but
its members and threshold are those of then. -/
theorem LegalLog.quorum_of_invoked {h : List Event} {address : Pubkey} {cpi : Cpi}
    (hl : LegalLog env h) (hok : Allowed env h (.invoked address cpi)) :
    ∃ (t : VaultTransaction) (m : Multisig) (vault : Pubkey) (signers : List Pubkey),
      recordAt h address = some t ∧
      deriveVaultPda env t.multisig t.vaultIndex = some (vault, t.vaultBump) ∧
      createProgramAddress env cpi.signerSeeds env.programId = some vault ∧
      multisigAt h t.multisig = some m ∧ signers.Nodup ∧ m.threshold.toNat ≤ signers.length ∧
      ∀ a ∈ signers, a ∈ m.members ∧ .approved address a ∈ h := by
  obtain ⟨t, m, after, between, before, rfl, hm, ⟨signers, hnodup, henough, hsigners⟩, ix, -,
    hfor⟩ := hl.invoked_split hok
  have hl' : LegalLog env (between ++ .created address t :: before) := (hl.of_append).tail
  obtain ⟨vault, hvault, -⟩ := (show Allowed env before (.created address t) from
    hl'.ok_of_split).2.2.1
  have hrecord : recordAt (.entered address t.multisig t.transactionIndex ::
      (between ++ .created address t :: before)) address = some t := hl'.recordAt_of_created
  -- the multisig has its members for good
  obtain ⟨m', hm', hev, -⟩ := LegalLog.multisigAt_append hl
    (show multisigAt (.entered address t.multisig t.transactionIndex ::
      (between ++ .created address t :: before)) t.multisig = some m from hm)
  refine ⟨t, m', vault, signers, hl.recordAt_append hrecord, hvault, ?_, hm', hnodup, ?_, ?_⟩
  · rw [hfor.seeds_eq]
    exact createProgramAddress_of_find hvault
  · rw [hev]
    exact henough
  · intro a ha
    obtain ⟨hmem, happroved⟩ := hsigners a ha
    rw [hev]
    exact ⟨hmem, by simp [happroved]⟩

/-- The induction on the length of the log. A signature that needs backing points to an
earlier call, whose quorum approved earlier still, so that the induction hypothesis applies
to the log before each of these approvals. -/
theorem LegalLog.backed (n : ℕ) : ∀ {h : List Event} {e : Event} {k : Pubkey}, h.length ≤ n →
    LegalLog env h → Legal (Consents env) (e :: h) → e.SignedBy k → Backed env h k := by
  induction n with
  | zero =>
    intro h e k hlength _ hc hk
    obtain rfl := List.length_eq_zero_iff.mp (Nat.le_zero.mp hlength)
    refine .outside fun hpda => ?_
    obtain ⟨later, x, earlier, he, -⟩ := hc.head k hk hpda
    exact absurd he (by simp)
  | succ n ih =>
    intro h e k hlength hl hc hk
    by_cases hpda : IsProgramAddress env k
    · obtain ⟨later, x, before, rfl, -, hseeds⟩ := hc.head k hk hpda
      cases x with
      | invoked address cpi =>
        have hbefore : LegalLog env before := (hl.of_append).tail
        obtain ⟨t, m, vault, signers, hr, hvault, hsign, hm, hnodup, henough, hsigners⟩ :=
          hbefore.quorum_of_invoked hl.ok_of_split
        obtain rfl := Option.some.inj (hsign.symm.trans hseeds)
        -- each approval is an earlier event
        have hsplit : ∀ a ∈ signers, ∃ earlier, .approved address a :: earlier <:+ before := by
          intro a ha
          obtain ⟨l, r, hlr⟩ := List.append_of_mem (hsigners a ha).2
          exact ⟨r, l, hlr.symm⟩
        choose! earlier hearlier using hsplit
        refine .vault rfl hsign hr hvault hm hnodup henough (fun a ha => (hsigners a ha).1)
          hearlier fun a ha => ?_
        obtain ⟨l, hla⟩ := hearlier a ha
        have hlegal := hbefore
        have hconsents := hc.tail.of_append.tail
        rw [← hla] at hlegal hconsents
        refine ih ?_ (hlegal.of_append).tail hconsents.of_append (rfl : a = a)
        have hlen := congrArg List.length hla
        simp only [List.length_append, List.length_cons] at hlen hlength
        omega
      | initialized | created | approved | entered | finished | closed | provisioned =>
        exact hseeds.elim
    · exact .outside hpda

/-- **No address of the program signs out of nothing.** In every reachable state, who signed
an event of the log — the creator or payer of a proposal, a member who approved, the payer
who closed — is no address of the program, or was a vault for which a call had been issued;
then a quorum of its multisig had approved that call's proposal, and each of them again was
no address of the program or a vault with a quorum behind it, and so on. An address of
another program may be such a signer; it has no private key either, but its program answers
for it. -/
theorem signatures_backed {s : State} (hs : Reachable env s)
    (hcf : DistinctAddresses env s.history) {later earlier : List Event} {e : Event} {k : Pubkey}
    (hlog : s.history = later ++ e :: earlier) (hk : e.SignedBy k) : Backed env earlier k := by
  obtain ⟨genesis, hg, hrun⟩ := hs.reaches
  have hl := (refines_of_reachable hs hcf).legal
  have hc := consents_of_reaches hg hrun
  rw [hlog] at hl hc
  exact LegalLog.backed earlier.length le_rfl (hl.of_append).tail hc.of_append hk

/-- The vault of the first multisig of the example approves a proposal of the second
one; `alice` and `bob` stand behind it. -/
theorem signatures_backed_example : ∃ s later earlier, Reachable Example.cluster s ∧
    s.history = later ++ .approved Example.jointFirst Example.vault :: earlier ∧
    IsProgramAddress Example.cluster Example.vault ∧
    Backed Example.cluster earlier Example.vault := by
  obtain ⟨s, s₁, s₂, e, hs, henter, hrun, hdistinct, -, -, hmem⟩ := Example.exists_nested
  obtain ⟨later, earlier, hlog⟩ := List.append_of_mem hmem
  have hs₂ : Reachable Example.cluster s₂ :=
    hs.trans (.head henter.step (inner_run_reaches hrun))
  exact ⟨s₂, later, earlier, hs₂, hlog,
    ⟨vaultSeeds Example.multisig 0 ++ [[255]], by decide +kernel⟩,
    signatures_backed hs₂ hdistinct hlog rfl⟩

end SolanaMultisig
