import SolanaMultisig.Log

/-!
# The machine refines the log

`Refines env s` ties a state of the machine to its log: the log is legal, the
accounts on the ledger are the ones the log describes, closed addresses are
vacant, and every execution on the stack holds a copy of its proposal that is
still current unless the proposal was closed. One lemma for each kind of step
shows that the tie is kept (`Refines.step`), and `refines_of_reaches` that it
holds in every run in which no two addresses collide.
-/

namespace SolanaMultisig

open Wire EventLog

variable {env : Env}

/-! ## Collisions -/

theorem derivations_subset {later earlier : List Event} :
    derivations env earlier ⊆ derivations env (later ++ earlier) := by
  induction later with
  | nil => exact List.Subset.refl _
  | cons e later ih =>
    cases e with
    | initialized | created | provisioned =>
      intro d hd
      simp only [List.cons_append, derivations, List.mem_cons]
      simp [ih hd]
    | approved | entered | invoked | finished | closed => exact ih

theorem transaction_mem_derivations {h : List Event} {k : Pubkey} {t : VaultTransaction}
    (ht : Event.created k t ∈ h) :
    Derivation.transaction t.multisig t.transactionIndex t.bump ∈ derivations env h := by
  obtain ⟨later, earlier, rfl⟩ := List.append_of_mem ht
  exact derivations_subset List.mem_cons_self

theorem vault_mem_derivations {h : List Event} {k : Pubkey} {t : VaultTransaction}
    (ht : Event.created k t ∈ h) :
    Derivation.vault t.multisig t.vaultIndex t.vaultBump ∈ derivations env h := by
  obtain ⟨later, earlier, rfl⟩ := List.append_of_mem ht
  exact derivations_subset (List.mem_cons_of_mem _ List.mem_cons_self)

/-- The addresses of the log are distinct, as far as the hash decides: no two of its
derivations collide. It is the one assumption of the refinement. -/
def DistinctAddresses (env : Env) (h : List Event) : Prop := CollisionFree env (derivations env h)

instance (h : List Event) : Decidable (DistinctAddresses env h) :=
  inferInstanceAs (Decidable (CollisionFree env (derivations env h)))

/-- What holds of a log holds of the logs before it, so the assumption is made once, about
the end of a run. -/
theorem DistinctAddresses.of_suffix {h h' : List Event} (hcf : DistinctAddresses env h')
    (hs : h <:+ h') : DistinctAddresses env h := by
  obtain ⟨later, rfl⟩ := hs
  exact CollisionFree.mono hcf derivations_subset

/-- The address of a proposal is derived from nothing else in the log: whatever derivation
has this digest is the proposal's own. -/
theorem DistinctAddresses.eq_transaction {h h' : List Event} {k : Pubkey} {t : VaultTransaction}
    {d : Derivation} (hcf : DistinctAddresses env h') (hs : h <:+ h') (hl : LegalLog env h)
    (hr : recordAt h k = some t) (hd : d ∈ derivations env h') (hk : k = d.digest env) :
    d = .transaction t.multisig t.transactionIndex t.bump := by
  obtain ⟨later, rfl⟩ := hs
  obtain ⟨later', earlier', rfl, -, haddress, -⟩ := hl.created_split hr
  have hmem : Derivation.transaction t.multisig t.transactionIndex t.bump ∈
      derivations env (later ++ (later' ++ .created k t :: earlier')) :=
    derivations_subset (transaction_mem_derivations (k := k) (by simp))
  exact CollisionFree.eq hcf hd hmem (hk.symm.trans (transactionAddress_eq haddress))

/-- The address of a proposal is a program address. -/
theorem LegalLog.isProgramAddress {h : List Event} {k : Pubkey} {t : VaultTransaction}
    (hl : LegalLog env h) (hr : recordAt h k = some t) : IsProgramAddress env k := by
  obtain ⟨-, -, -, -, haddress, -⟩ := hl.created_split hr
  exact ⟨_, createProgramAddress_of_find haddress⟩

/-! ## The stack -/

/-- What the log says about an execution on the stack: which proposal it runs, how far it
is, and that its cached copy is still current. The last is what the early write of the flag
is for. -/
structure ExecutionOk (h : List Event) (e : Execution) (r : VaultTransaction) : Prop where
  /-- it runs the proposal created at its address -/
  record : recordAt h e.transaction = some r
  /-- the cached copy is that proposal -/
  same : e.cached.SameProposal r
  /-- and belongs to the multisig passed -/
  multisig_eq : e.multisig.key = r.multisig
  /-- the loop was entered -/
  entered : Entered h e.transaction
  /-- and is not over -/
  running : .finished e.transaction ∉ h
  /-- the calls so far are in the log -/
  next_eq : (issued h e.transaction).length = e.next
  /-- the copy is current as long as the proposal lives -/
  current : ∀ t, proposalAt h e.transaction = some t → t = e.cached

/-- The log on a frame: an execution is as above, and a foreign program got no signature of
the program's but those of vaults, which own no account the program reads. -/
def FrameOk (env : Env) (h : List Event) : Frame → Prop
  | .execution e => ∃ r, ExecutionOk h e r
  | .foreign _ infos => ∀ k, Signed infos k → IsProgramAddress env k →
      ∃ address r, recordAt h address = some r ∧
        deriveVaultPda env r.multisig r.vaultIndex = some (k, r.vaultBump)

/-- The proposal an execution runs. -/
def Frame.transaction? : Frame → Option Pubkey
  | .execution e => some e.transaction
  | .foreign _ _ => none

/-- The execution an event is a step of: only calls and the return move an execution, all
other events leave it alone. -/
def Event.loop? : Event → Option Pubkey
  | .invoked address _ => some address
  | .finished address => some address
  | _ => none

theorem Event.proposal?_of_loop? {e : Event} {k : Pubkey} (h : e.loop? = some k) :
    e.proposal? = some k := by
  cases e <;> simp_all [Event.loop?, Event.proposal?]

theorem issued_cons {h : List Event} {e : Event} {k : Pubkey} (hk : e.loop? ≠ some k) :
    issued (e :: h) k = issued h k := by
  cases e with
  | invoked address cpi =>
    rw [issued, if_neg]
    rintro rfl
    exact hk rfl
  | initialized | created | approved | entered | finished | closed | provisioned => rfl

/-- Nothing but its own calls and its return changes what the log says about an execution:
no other event touches a proposal that is marked executed, except its closing. -/
theorem ExecutionOk.cons {h : List Event} {x : Execution} {r : VaultTransaction} {e : Event}
    (hx : ExecutionOk h x r) (hl : LegalLog env (e :: h)) (hk : e.loop? ≠ some x.transaction) :
    ExecutionOk (e :: h) x r where
  record := hl.recordAt_cons hx.record
  same := hx.same
  multisig_eq := hx.multisig_eq
  entered := by
    obtain ⟨multisig, index, hmem⟩ := hx.entered
    exact ⟨multisig, index, List.mem_cons_of_mem _ hmem⟩
  running := by
    intro hmem
    rcases List.mem_cons.mp hmem with rfl | hmem
    · exact hk rfl
    · exact hx.running hmem
  next_eq := by rw [issued_cons hk, hx.next_eq]
  current := by
    intro t ht
    rcases proposalAt_cases ht with ⟨ht, -⟩ | rfl | ⟨t', member, rfl, -, -⟩ |
      ⟨t', multisig, index, rfl, -⟩
    · exact hx.current t ht
    · have hfresh := hl.head.1
      rw [hx.record] at hfresh
      cases hfresh
    · -- executed proposals take no approvals
      obtain ⟨t'', m, ht'', hexecuted, -⟩ := hl.head
      have hyes := LegalLog.executed_of_entered hl.tail hx.entered ht''
      rw [hexecuted] at hyes
      cases hyes
    · exact absurd hx.entered (LegalLog.not_entered hl.tail hl.head)

/-- A frame stays as it is when an event is logged that is no step of its execution. -/
theorem FrameOk.cons {h : List Event} {f : Frame} {e : Event} (hf : FrameOk env h f)
    (hl : LegalLog env (e :: h)) (hk : ∀ k, f.transaction? = some k → e.loop? ≠ some k) :
    FrameOk env (e :: h) f := by
  cases f with
  | execution x =>
    obtain ⟨r, hx⟩ := hf
    exact ⟨r, hx.cons hl (hk _ rfl)⟩
  | foreign program infos =>
    intro k hsigned hpda
    obtain ⟨address, r, hr, hvault⟩ := hf k hsigned hpda
    exact ⟨address, r, hl.recordAt_cons hr, hvault⟩

/-! ## The invariant -/

/-- The accounts on the ledger are those of the log: both ways for multisigs and live
proposals, and vacant where a proposal was closed. -/
structure Matches (env : Env) (ledger : Ledger) (h : List Event) : Prop where
  /-- the multisigs -/
  multisigs : ∀ k m, multisigAccount.Holds env ledger k m ↔ multisigAt h k = some m
  /-- the live proposals -/
  proposals : ∀ k t, transactionAccount.Holds env ledger k t ↔ proposalAt h k = some t
  /-- closed proposals leave nothing behind -/
  closed : ∀ k t, recordAt h k = some t → proposalAt h k = none → (ledger k).Vacant

/-- The machine's state and its log agree. The four parts are proved together, since each
kind of step needs several of them to keep one. -/
structure Refines (env : Env) (s : State) : Prop where
  /-- the log could have happened -/
  legal : LegalLog env s.history
  /-- the ledger is what the log describes -/
  accounts : Matches env s.ledger s.history
  /-- so is the stack -/
  frames : ∀ f ∈ s.frames, FrameOk env s.history f
  /-- no proposal is being executed twice -/
  distinct : (s.frames.filterMap Frame.transaction?).Nodup

/-- An address with an account of one type has none of the other, as the discriminators
differ. -/
theorem Matches.proposalAt_none {ledger : Ledger} {h : List Event} (ha : Matches env ledger h)
    {k : Pubkey} {m : Multisig} (hm : multisigAt h k = some m) : proposalAt h k = none := by
  cases hp : proposalAt h k with
  | none => rfl
  | some t =>
    have hheld := (ha.multisigs k m).mpr hm
    exact absurd ((ha.proposals k t).mpr hp) (hheld.not_of_ne discriminator_ne)

theorem Matches.multisigAt_none_of_vacant {ledger : Ledger} {h : List Event}
    (ha : Matches env ledger h) {k : Pubkey} (hv : (ledger k).Vacant) : multisigAt h k = none := by
  cases hm : multisigAt h k with
  | none => rfl
  | some m => exact absurd hv ((ha.multisigs k m).mpr hm).not_vacant

theorem Matches.proposalAt_none_of_vacant {ledger : Ledger} {h : List Event}
    (ha : Matches env ledger h) {k : Pubkey} (hv : (ledger k).Vacant) : proposalAt h k = none := by
  cases hp : proposalAt h k with
  | none => rfl
  | some t => exact absurd hv ((ha.proposals k t).mpr hp).not_vacant

/-- What is read from the ledger is what the log has: the form in which proofs use the
agreement. -/
theorem AccountType.Holds.multisigAt {ledger : Ledger} {h : List Event}
    (ha : Matches env ledger h) {k : Pubkey} {m : Multisig}
    (hm : multisigAccount.Holds env ledger k m) : SolanaMultisig.multisigAt h k = some m :=
  (ha.multisigs k m).mp hm

/-! ## Ledger and log move together -/

theorem AccountType.Holds.of_eq {α : Type} {T : AccountType α} {ledger ledger' : Ledger}
    {k : Pubkey} (he : ledger' k = ledger k) (a : α) :
    T.Holds env ledger' k a ↔ T.Holds env ledger k a := by
  rw [AccountType.Holds, AccountType.Holds, he]

theorem SameContents.vacant {ledger ledger' : Ledger} {k : Pubkey}
    (hs : SameContents ledger ledger' k) (hv : (ledger k).Vacant) : (ledger' k).Vacant :=
  ⟨hs.1.trans hv.1, hs.2.trans hv.2⟩

/-- An account that now holds `a` holds nothing else of its type. -/
theorem AccountType.Holds.iff_some {α : Type} {T : AccountType α} {ledger : Ledger} {k : Pubkey}
    {a : α} (ha : T.Holds env ledger k a) (b : α) : T.Holds env ledger k b ↔ some a = some b := by
  constructor
  · exact fun hb => congrArg some (ha.unique hb)
  · intro hb
    obtain rfl := Option.some.inj hb
    exact ha

/-- An address without an account of a type, on both sides. -/
theorem iff_none {p : Prop} {α : Type} {o : Option α} (hp : ¬p) (ho : o = none) (a : α) :
    p ↔ o = some a :=
  ⟨fun h => absurd h hp, fun h => by rw [ho] at h; cases h⟩

section Accounts

variable {ledger ledger' : Ledger} {h : List Event} {address : Pubkey} {m : Multisig}
  {t : VaultTransaction}

/-- A registration adds a multisig on both sides. Its address must be no proposal's, which
is where the hash comes in. -/
theorem Matches.register (ha : Matches env ledger h)
    (hi : Initializes env ledger ledger' address m)
    (hnew : ∀ k t, recordAt h k = some t → k ≠ address) :
    Matches env ledger' (.initialized address m :: h) where
  multisigs := by
    intro k m'
    rw [multisigAt]
    split
    · rename_i heq
      subst heq
      exact hi.holds.iff_some m'
    · rename_i hne
      rw [AccountType.holds_congr (hi.others k (Ne.symm hne)), ha.multisigs]
  proposals := by
    intro k t
    by_cases hk : k = address
    · subst hk
      exact iff_none (hi.holds.not_of_ne discriminator_ne) (ha.proposalAt_none_of_vacant hi.vacant) t
    · rw [AccountType.holds_congr (hi.others k hk), ha.proposals]
      rfl
  closed := by
    intro k t hr hp
    have hk := hnew k t hr
    exact (hi.others k hk).vacant (ha.closed k t hr hp)

/-- A creation adds a proposal and moves one counter, on both sides. -/
theorem Matches.create (ha : Matches env ledger h) (hc : Creates env ledger ledger' address m t) :
    Matches env ledger' (.created address t :: h) := by
  have hm := hc.multisig_holds.multisigAt ha
  have hne : t.multisig ≠ address := by
    intro he
    exact hc.multisig_holds.not_vacant (he ▸ hc.vacant)
  refine ⟨?_, ?_, ?_⟩
  · -- multisigs
    intro k m'
    rw [multisigAt]
    split
    · rename_i heq
      subst heq
      rw [hm]
      exact hc.multisig_holds'.iff_some m'
    · rename_i hkm
      by_cases hk : k = address
      · subst hk
        exact iff_none (hc.holds.not_of_ne discriminator_ne.symm)
          (ha.multisigAt_none_of_vacant hc.vacant) m'
      · rw [AccountType.holds_congr (hc.others k hk (Ne.symm hkm)), ha.multisigs]
  · -- live proposals
    intro k t'
    rw [proposalAt]
    split
    · rename_i heq
      subst heq
      exact hc.holds.iff_some t'
    · rename_i hk
      by_cases hkm : k = t.multisig
      · subst hkm
        exact iff_none (hc.multisig_holds'.not_of_ne discriminator_ne) (ha.proposalAt_none hm) t'
      · rw [AccountType.holds_congr (hc.others k (Ne.symm hk) hkm), ha.proposals]
  · -- closed proposals
    intro k t' hr hp
    rw [proposalAt] at hp
    rw [recordAt] at hr
    split at hp
    · cases hp
    · rename_i hk
      rw [if_neg hk] at hr
      have hv := ha.closed k t' hr hp
      -- a vacant address is not the multisig's
      have hkm : k ≠ t.multisig := by
        rintro rfl
        exact hc.multisig_holds.not_vacant hv
      exact (hc.others k (Ne.symm hk) hkm).vacant hv

/-- A live proposal was rewritten in place, in the account and in the log; approvals and
entries are both of this kind. -/
theorem Matches.rewritten {e : Event} {t' : VaultTransaction} (ha : Matches env ledger h)
    (ht : transactionAccount.Holds env ledger address t)
    (ht' : transactionAccount.Holds env ledger' address t')
    (hothers : ∀ k, k ≠ address → ledger' k = ledger k)
    (hm : multisigAt (e :: h) = multisigAt h) (hr : recordAt (e :: h) = recordAt h)
    (hp : ∀ k, proposalAt (e :: h) k = if address = k then some t' else proposalAt h k) :
    Matches env ledger' (e :: h) where
  multisigs := by
    intro k m'
    rw [hm]
    by_cases hk : k = address
    · subst hk
      refine iff_none (ht'.not_of_ne discriminator_ne.symm) ?_ m'
      cases hm' : multisigAt h k with
      | none => rfl
      | some m =>
        have hheld := (ha.multisigs k m).mpr hm'
        exact absurd ht (hheld.not_of_ne discriminator_ne)
    · rw [AccountType.Holds.of_eq (hothers k hk), ha.multisigs]
  proposals := by
    intro k t''
    rw [hp]
    split
    · rename_i heq
      subst heq
      exact ht'.iff_some t''
    · rename_i hk
      rw [AccountType.Holds.of_eq (hothers k (Ne.symm hk)), ha.proposals]
  closed := by
    intro k t'' hrec hnone
    rw [hr] at hrec
    rw [hp] at hnone
    split at hnone
    · cases hnone
    · rename_i hk
      rw [hothers k (Ne.symm hk)]
      exact ha.closed k t'' hrec hnone

theorem Matches.approve {member : Pubkey} (ha : Matches env ledger h)
    (hap : Approves env ledger ledger' address member m t) :
    Matches env ledger' (.approved address member :: h) := by
  refine ha.rewritten hap.pending.holds hap.holds hap.others rfl rfl fun k => ?_
  rw [proposalAt]
  split
  · rename_i heq
    subst heq
    rw [(ha.proposals address t).mp hap.pending.holds]
    rfl
  · rfl

theorem Matches.enter {x : Execution} {multisig : Pubkey} {index : UInt64}
    (ha : Matches env ledger h) (hen : Enters env ledger ledger' x m t) :
    Matches env ledger' (.entered x.transaction multisig index :: h) := by
  refine ha.rewritten hen.pending.holds hen.holds hen.others rfl rfl fun k => ?_
  rw [proposalAt]
  split
  · rename_i heq
    subst heq
    rw [(ha.proposals x.transaction t).mp hen.pending.holds, hen.cached_eq]
    rfl
  · rfl

/-- A closing removes the proposal on both sides and leaves the address vacant. -/
theorem Matches.close (ha : Matches env ledger h) (hc : Closes env ledger ledger' address t) :
    Matches env ledger' (.closed address t.payer :: h) := by
  have hvacant : (ledger' address).Vacant := by
    rw [hc.closed.absent]
    exact ⟨rfl, rfl⟩
  refine ⟨?_, ?_, ?_⟩
  · -- multisigs
    intro k m'
    by_cases hk : k = address
    · subst hk
      refine iff_none (fun hh => hh.not_vacant hvacant) ?_ m'
      cases hm' : multisigAt h k with
      | none => exact hm'
      | some m =>
        have hheld := (ha.multisigs k m).mpr hm'
        exact absurd hc.holds (hheld.not_of_ne discriminator_ne)
    · rw [AccountType.holds_congr (hc.closed.others k hk), ha.multisigs]
      rfl
  · -- live proposals
    intro k t'
    rw [proposalAt]
    split
    · rename_i heq
      subst heq
      exact iff_none (fun hh => hh.not_vacant hvacant) rfl t'
    · rename_i hk
      rw [AccountType.holds_congr (hc.closed.others k (Ne.symm hk)), ha.proposals]
  · -- closed proposals
    intro k t' hr hp
    by_cases hk : k = address
    · subst hk
      exact hvacant
    · rw [proposalAt, if_neg (Ne.symm hk)] at hp
      exact (hc.closed.others k hk).vacant (ha.closed k t' hr hp)

/-- A nonce account belongs to the System program, so nothing changes that the log
describes. -/
theorem Matches.provision {nonce multisig : Pubkey} {seeds : List (List UInt8)}
    (ha : Matches env ledger h) (hp : Provisions env ledger ledger' multisig nonce m)
    (hnew : ∀ k t, recordAt h k = some t → k ≠ nonce) :
    Matches env ledger' (.provisioned multisig nonce seeds :: h) := by
  have hforeign : (ledger' nonce).owner ≠ env.programId := by
    rw [hp.owner_eq]
    exact env.programId_ne.symm
  refine ⟨?_, ?_, ?_⟩
  · -- multisigs
    intro k m'
    by_cases hk : k = nonce
    · subst hk
      exact iff_none (fun hh => hforeign hh.1) (ha.multisigAt_none_of_vacant hp.vacant) m'
    · rw [AccountType.holds_congr (hp.others k hk), ha.multisigs]
      rfl
  · -- live proposals
    intro k t'
    by_cases hk : k = nonce
    · subst hk
      exact iff_none (fun hh => hforeign hh.1) (ha.proposalAt_none_of_vacant hp.vacant) t'
    · rw [AccountType.holds_congr (hp.others k hk), ha.proposals]
      rfl
  · -- closed proposals
    intro k t' hr hn
    exact (hp.others k (hnew k t' hr)).vacant (ha.closed k t' hr hn)

end Accounts

/-! ## What happens is allowed -/

section Allowed

variable {ledger ledger' : Ledger} {h : List Event} {address : Pubkey} {m : Multisig}
  {t : VaultTransaction}

/-- A registration is allowed: its address was vacant, so the log has no multisig there. -/
theorem Matches.allowed_initialized (ha : Matches env ledger h)
    (hi : Initializes env ledger ledger' address m) :
    Allowed env h (.initialized address m) :=
  ⟨ha.multisigAt_none_of_vacant hi.vacant, hi.valid, hi.index_eq, hi.address_eq⟩

/-- A creation is allowed: no record has its address, because the record would have another
index and the hash tells the two derivations apart. -/
theorem Matches.allowed_created (ha : Matches env ledger h) (hl : LegalLog env h)
    (hc : Creates env ledger ledger' address m t)
    (hcf : DistinctAddresses env (.created address t :: h)) :
    Allowed env h (.created address t) := by
  have hm := hc.multisig_holds.multisigAt ha
  refine ⟨?_, hc.address_eq, hc.valid, hc.not_executed, hc.no_approvals, m, hm, hc.creator_mem,
    hc.index_eq⟩
  -- an older proposal at this address would have this multisig and this index
  cases hr : recordAt h address with
  | none => rfl
  | some r =>
    have hsame := hcf.eq_transaction (List.suffix_cons _ _) hl hr
      (transaction_mem_derivations (k := address) List.mem_cons_self)
      (transactionAddress_eq hc.address_eq)
    obtain ⟨hmultisig, hindex, -⟩ := Derivation.transaction.inj hsame
    obtain ⟨m', hm', hle⟩ := hl.index_le hr
    rw [← hmultisig, hm] at hm'
    obtain rfl := Option.some.inj hm'
    rw [← hindex, hc.index_eq] at hle
    omega

/-- An approval is allowed: what the instruction checked on the account is what the log
says. -/
theorem Matches.allowed_approved {member : Pubkey} (ha : Matches env ledger h)
    (hap : Approves env ledger ledger' address member m t) :
    Allowed env h (.approved address member) :=
  ⟨t, m, (ha.proposals _ _).mp hap.pending.holds, hap.pending.not_executed,
    hap.pending.multisig_holds.multisigAt ha, hap.member_mem, hap.not_approved⟩

theorem Matches.allowed_entered {x : Execution} (ha : Matches env ledger h)
    (hen : Enters env ledger ledger' x m t) :
    Allowed env h (.entered x.transaction t.multisig t.transactionIndex) :=
  ⟨t, m, (ha.proposals _ _).mp hen.pending.holds, hen.pending.not_executed,
    hen.pending.multisig_holds.multisigAt ha, hen.enough, rfl, rfl⟩

theorem Matches.allowed_closed (ha : Matches env ledger h)
    (hc : Closes env ledger ledger' address t) : Allowed env h (.closed address t.payer) :=
  ⟨t, (ha.proposals _ _).mp hc.holds, rfl⟩

theorem Matches.allowed_provisioned {nonce multisig : Pubkey} (ha : Matches env ledger h)
    (hp : Provisions env ledger ledger' multisig nonce m) :
    Allowed env h (.provisioned multisig nonce (provisionNonceSeeds env m)) :=
  ⟨m, hp.multisig_holds.multisigAt ha, rfl⟩

end Allowed

/-! ## One instruction -/

/-- The execution an instruction enters: it is at its first call, and its copy is the
account just written. -/
theorem ExecutionOk.start {ledger ledger' : Ledger} {h : List Event} {x : Execution} {m : Multisig}
    {t : VaultTransaction} (ha : Matches env ledger h)
    (hl : LegalLog env (.entered x.transaction t.multisig t.transactionIndex :: h))
    (hen : Enters env ledger ledger' x m t) :
    ∃ r, ExecutionOk (.entered x.transaction t.multisig t.transactionIndex :: h) x r := by
  have ht := (ha.proposals _ _).mp hen.pending.holds
  obtain ⟨r, hr, hs⟩ := recordAt_of_proposalAt ht
  have hfresh : ¬Entered h x.transaction := LegalLog.not_entered hl.tail hl.head
  have hmultisig : t.multisig = r.multisig := by rw [hs]
  refine ⟨r, hr, ?_, hen.multisig_eq.trans hmultisig, ⟨_, _, List.mem_cons_self⟩, ?_, ?_, ?_⟩
  · rw [VaultTransaction.SameProposal, hen.cached_eq, hs]
  · intro hmem
    rcases List.mem_cons.mp hmem with heq | hmem
    · cases heq
    · obtain ⟨later, earlier, rfl, he, -⟩ := LegalLog.allowed_of_mem hl.tail hmem
      obtain ⟨multisig, index, he⟩ := he
      exact hfresh ⟨multisig, index, by simp [he]⟩
  · rw [issued_cons (by simp [Event.loop?]), hen.next_eq, LegalLog.issued_eq_nil hl.tail hfresh]
    rfl
  · intro t' ht'
    rw [proposalAt, if_pos rfl, ht] at ht'
    rw [hen.cached_eq]
    exact (Option.some.inj ht').symm

theorem Refines.frames_cons {s : State} {e : Event} (hs : Refines env s)
    (hl : LegalLog env (e :: s.history)) (he : e.loop? = none) :
    ∀ f ∈ s.frames, FrameOk env (e :: s.history) f := by
  intro f hf
  exact (hs.frames f hf).cons hl fun k _ => by rw [he]; exact nofun

/-- **An instruction keeps machine and log together.** One case for each effect: the event
is allowed, the accounts match again, and the frames below are as they were. -/
theorem Refines.apply {s : State} {infos : List AccountInfo} {ix : ProgramInstruction}
    {o : Outcome} (hs : Refines env s) (heffect : Effect env s.ledger infos ix o)
    (hcf : DistinctAddresses env (s.apply o).history) : Refines env (s.apply o) := by
  have ha := hs.accounts
  -- an address derived for something else is no proposal's
  have hnew : ∀ {d : Derivation} {k' : Pubkey}, d ∈ derivations env (s.apply o).history →
      k' = d.digest env → (∀ owner index bump, d ≠ .transaction owner index bump) →
      ∀ k t, recordAt s.history k = some t → k ≠ k' := by
    intro d k' hd hk' hkind k t hr hk
    exact hkind _ _ _ (hcf.eq_transaction (apply_history s o) hs.legal hr hd (hk.trans hk'))
  cases heffect with
  | @initialized ledger' address m _ hi _ =>
    have hl : LegalLog env (.initialized address m :: s.history) :=
      .cons hs.legal (ha.allowed_initialized hi)
    refine ⟨hl, ha.register hi ?_, hs.frames_cons hl rfl, hs.distinct⟩
    refine hnew (d := .multisig (hashMembers env m.members) m.threshold m.bump) ?_
      (multisigAddress_eq hi.address_eq) (fun _ _ _ => nofun)
    exact List.mem_cons_of_mem _ List.mem_cons_self
  | @created ledger' address m t hc _ _ _ =>
    have hl : LegalLog env (.created address t :: s.history) :=
      .cons hs.legal (ha.allowed_created hs.legal hc hcf)
    exact ⟨hl, ha.create hc, hs.frames_cons hl rfl, hs.distinct⟩
  | @approved ledger' address member m t hap _ _ =>
    have hl : LegalLog env (.approved address member :: s.history) :=
      .cons hs.legal (ha.allowed_approved hap)
    exact ⟨hl, ha.approve hap, hs.frames_cons hl rfl, hs.distinct⟩
  | @entered ledger' x m t hen _ =>
    have hl : LegalLog env (.entered x.transaction t.multisig t.transactionIndex :: s.history) :=
      .cons hs.legal (ha.allowed_entered hen)
    refine ⟨hl, ha.enter hen, ?_, ?_⟩
    · -- the execution that starts, and those below
      intro f hf
      rcases List.mem_cons.mp hf with rfl | hf
      · exact ExecutionOk.start ha hl hen
      · exact hs.frames_cons hl rfl f hf
    · refine List.nodup_cons.mpr ⟨?_, hs.distinct⟩
      -- every execution on the stack has been entered, this one had not
      intro hmem
      obtain ⟨f, hf, hft⟩ := List.mem_filterMap.mp hmem
      have hfok := hs.frames f hf
      cases f with
      | foreign => cases hft
      | execution y =>
        obtain ⟨r, hy⟩ := hfok
        have hyx : y.transaction = x.transaction := Option.some.inj hft
        exact LegalLog.not_entered hs.legal hl.head (hyx ▸ hy.entered)
  | @closed ledger' address t hc _ _ =>
    have hl : LegalLog env (.closed address t.payer :: s.history) :=
      .cons hs.legal (ha.allowed_closed hc)
    exact ⟨hl, ha.close hc, hs.frames_cons hl rfl, hs.distinct⟩
  | @provisioned ledger' multisig nonce m hp =>
    have hl : LegalLog env
        (.provisioned multisig nonce (provisionNonceSeeds env m) :: s.history) :=
      .cons hs.legal (ha.allowed_provisioned hp)
    refine ⟨hl, ha.provision hp ?_, hs.frames_cons hl rfl, hs.distinct⟩
    exact hnew (d := .nonce multisig) List.mem_cons_self hp.nonce_eq (fun _ _ _ => nofun)
  | viewedAddress | viewedVault => exact ⟨hs.legal, ha, hs.frames, hs.distinct⟩

/-! ## Foreign programs -/

theorem AccountType.Holds.typed_multisig {ledger : Ledger} {k : Pubkey} {m : Multisig}
    (h : multisigAccount.Holds env ledger k m) : Typed env (ledger k) :=
  ⟨h.1, .inl h.take_data⟩

/-- An account that holds a proposal is one of the program's, which foreign programs cannot
touch. -/
theorem AccountType.Holds.typed_transaction {ledger : Ledger} {k : Pubkey} {t : VaultTransaction}
    (h : transactionAccount.Holds env ledger k t) : Typed env (ledger k) :=
  ⟨h.1, .inr h.take_data⟩

/-- Foreign programs neither change, remove nor forge what an account holds: the runtime's
rules, for the accounts of the program. -/
theorem ForeignStep.holds_iff {α : Type} {T : AccountType α} {infos : List AccountInfo}
    {ledger ledger' : Ledger} (hf : ForeignStep env infos ledger ledger')
    (htyped : ∀ {l : Ledger} {k : Pubkey} {a : α}, T.Holds env l k a → Typed env (l k))
    (k : Pubkey) (a : α) : T.Holds env ledger' k a ↔ T.Holds env ledger k a := by
  constructor
  · intro h
    have hbefore := hf.forges k (htyped h)
    exact h.of_sameContents (hf.keeps k hbefore).1.symm
  · intro h
    exact h.of_sameContents (hf.keeps k (htyped h)).1

/-- A foreign program leaves the agreement alone. The address of a closed proposal stays
vacant, since nobody can sign for it. -/
theorem Matches.foreign {infos : List AccountInfo} {ledger ledger' : Ledger} {h : List Event}
    (ha : Matches env ledger h) (hl : LegalLog env h)
    (hf : ForeignStep env infos ledger ledger')
    (hunsigned : ∀ k t, recordAt h k = some t → ¬Signed infos k) : Matches env ledger' h where
  multisigs k m := by
    rw [hf.holds_iff AccountType.Holds.typed_multisig, ha.multisigs]
  proposals k t := by
    rw [hf.holds_iff AccountType.Holds.typed_transaction, ha.proposals]
  closed k t hr hp :=
    hf.vacant k (hl.isProgramAddress hr) (hunsigned k t hr) (ha.closed k t hr hp)

/-- A foreign program never holds the signature of a proposal's address: it has signatures
of vaults at most, and no vault has the address of a proposal. -/
theorem FrameOk.not_signed {h : List Event} {program : Pubkey} {infos : List AccountInfo}
    (hf : FrameOk env h (.foreign program infos)) (hl : LegalLog env h)
    (hcf : DistinctAddresses env h) {k : Pubkey} {t : VaultTransaction}
    (hr : recordAt h k = some t) : ¬Signed infos k := by
  intro hsigned
  obtain ⟨address, r, hr', hvault⟩ := hf k hsigned (hl.isProgramAddress hr)
  have hkind := hcf.eq_transaction List.suffix_rfl hl hr (vault_mem_derivations (recordAt_mem hr'))
    (vaultAddress_eq hvault)
  cases hkind

end SolanaMultisig
