import SolanaMultisig.Interpreter

/-!
# No call without a quorum

What the log says about the calls of an execution, carried over to all runs of
the machine: every call signed for a vault was approved by a quorum of the
multisig's members after the proposal was created, and is the instruction that
was proposed (`invoke_signed_authorized`); and the loop of calls is entered at
most once for each proposal (`execute_entered_once`), whatever the calls do.
-/

namespace SolanaMultisig

open Wire EventLog

variable {env : Env}

/-! ## The history of a call -/

/-- Before a call, its proposal was created, then approved, then entered. The log is cut at
these three points, and what was allowed there is read off. -/
theorem LegalLog.invoked_split {h : List Event} {k : Pubkey} {cpi : Cpi} (hl : LegalLog env h)
    (hok : Allowed env h (.invoked k cpi)) :
    ∃ t m after between before,
      h = after ++ .entered k t.multisig t.transactionIndex :: (between ++ .created k t :: before) ∧
        multisigAt (between ++ .created k t :: before) t.multisig = some m ∧
        (∃ approvals : List Pubkey, approvals.Nodup ∧ m.threshold.toNat ≤ approvals.length ∧
          ∀ a ∈ approvals, a ∈ m.members ∧ Event.approved k a ∈ between) ∧
        ∃ ix, t.message.instructions[(issued h k).length]? = some ix ∧ cpi.For t ix := by
  obtain ⟨⟨multisig, index, hentered⟩, -, r, ix, hr, hix, hfor⟩ := hok
  obtain ⟨after, older, rfl, t, m, ht, -, hm, henough, rfl, rfl⟩ := hl.allowed_of_mem hentered
  have hl' : LegalLog env older := (hl.of_append).tail
  obtain ⟨r', hr', hsame⟩ := recordAt_of_proposalAt ht
  obtain ⟨between, before, rfl, -⟩ := LegalLog.created_split hl' hr'
  -- the record at the call is the one created
  have hkeep := hl.recordAt_append (show recordAt
    (.entered k t.multisig t.transactionIndex :: (between ++ .created k r' :: before)) k = some r'
    from hr')
  rw [hr] at hkeep
  obtain rfl := Option.some.inj hkeep
  obtain ⟨hnodup, m', hm', hsub⟩ := LegalLog.approvals_valid hl' ht
  rw [hm] at hm'
  obtain rfl := Option.some.inj hm'
  have hmultisig : t.multisig = r.multisig := by rw [hsame]
  have hindex : t.transactionIndex = r.transactionIndex := by rw [hsame]
  refine ⟨r, m, after, between, before, by rw [hmultisig, hindex], hmultisig ▸ hm,
    ⟨t.approvals, hnodup, henough, fun a ha => ⟨hsub ha, LegalLog.approved_mem hl' ht ha⟩⟩, ix, ?_,
    hfor⟩
  exact hix

/-- Vault seeds with a bump determine the vault: the multisig has 32 bytes, index and bump
one each, so nothing can shift between the seeds. -/
theorem vaultSeeds_inj {multisig multisig' : Pubkey} {vaultIndex vaultIndex' bump bump' : UInt8}
    (h : vaultSeeds multisig vaultIndex ++ [[bump]] = vaultSeeds multisig' vaultIndex' ++ [[bump']]) :
    multisig = multisig' ∧ vaultIndex = vaultIndex' ∧ bump = bump' := by
  simp only [vaultSeeds, List.cons_append, List.nil_append, List.cons.injEq, and_true,
    true_and] at h
  exact ⟨Bytes32.ext h.1, h.2⟩

/-- **Every call signed for a vault is one the members agreed to.** In every run,
a call issued with the seeds of vault `v` of `multisig` belongs to a proposal of
that multisig and vault; between the creation of the proposal and the execution,
pairwise distinct members in the number of the threshold each signed an approval
of it; and the call's program, accounts and data are those of the instruction of
the created message whose turn it is. -/
theorem invoke_signed_authorized {s : State} (hs : Reachable env s)
    (hcf : DistinctAddresses env s.history) {later earlier : List Event} {address : Pubkey}
    {cpi : Cpi} (hissued : s.history = later ++ .invoked address cpi :: earlier)
    {multisig : Pubkey} {v bump : UInt8}
    (hseeds : cpi.signerSeeds = vaultSeeds multisig v ++ [[bump]]) :
    ∃ (t : VaultTransaction) (m : Multisig) (after between before : List Event),
      earlier = after ++ .entered address multisig t.transactionIndex ::
        (between ++ .created address t :: before) ∧
      t.multisig = multisig ∧ t.vaultIndex = v ∧ t.vaultBump = bump ∧
      multisigAccount.Holds env s.ledger multisig m ∧
      (∃ signers : List Pubkey, signers.Nodup ∧ m.threshold.toNat ≤ signers.length ∧
        ∀ k ∈ signers, k ∈ m.members ∧ Event.approved address k ∈ between) ∧
      ∃ compiled, t.message.instructions[(issued earlier address).length]? = some compiled ∧
        cpi.instruction.programId = t.message.key compiled.programIdIndex ∧
        cpi.instruction.accounts.map AccountMeta.pubkey =
          compiled.accountIndexes.map t.message.key ∧
        cpi.instruction.data = compiled.data := by
  have href := refines_of_reachable hs hcf
  have hl := href.legal
  rw [hissued] at hl
  obtain ⟨t, m, after, between, before, hearlier, hm, ⟨approvals, hnodup, henough, happrovals⟩, ix,
    hix, hfor⟩ := LegalLog.invoked_split (hl.of_append).tail hl.ok_of_split
  rw [hfor.seeds_eq, vaultSignerSeeds] at hseeds
  obtain ⟨rfl, rfl, rfl⟩ := vaultSeeds_inj hseeds
  -- the multisig on the ledger has the members and the threshold of that time
  have hwhole : s.history = (later ++ .invoked address cpi :: (after ++
      [.entered address t.multisig t.transactionIndex])) ++
        (between ++ .created address t :: before) := by
    rw [hissued, hearlier]
    simp
  have hl' := href.legal
  rw [hwhole] at hl'
  obtain ⟨m', hm', hev, -⟩ := LegalLog.multisigAt_append hl' hm
  rw [← hwhole] at hm'
  have hmembers : m'.members = m.members := by rw [hev]
  have hthreshold : m'.threshold = m.threshold := by rw [hev]
  refine ⟨t, m', after, between, before, hearlier, rfl, rfl, rfl,
    (href.accounts.multisigs _ _).mpr hm',
    ⟨approvals, hnodup, by rw [hthreshold]; exact henough, fun k hk => ?_⟩, ix, hix, ?_, ?_, ?_⟩
  · rw [hmembers]
    exact happrovals k hk
  · rw [hfor.instruction_eq]
    rfl
  · rw [hfor.instruction_eq, TransactionMessage.instruction, List.map_map]
    rfl
  · rw [hfor.instruction_eq]
    rfl

/-- The call of the example run was authorized: by `alice` and `bob`, and it is the transfer
they were shown. -/
theorem invoke_signed_authorized_example :
    ∃ s, Reachable Example.cluster s ∧
      ∃ (t : VaultTransaction) (m : Multisig) (after between before : List Event),
        Example.history.drop 3 = after ++
          .entered Example.transaction Example.multisig t.transactionIndex ::
            (between ++ .created Example.transaction t :: before) ∧
        t.multisig = Example.multisig ∧ t.vaultIndex = 0 ∧ t.vaultBump = 255 ∧
        multisigAccount.Holds Example.cluster s.ledger Example.multisig m ∧
        (∃ signers : List Pubkey, signers.Nodup ∧ m.threshold.toNat ≤ signers.length ∧
          ∀ k ∈ signers, k ∈ m.members ∧ Event.approved Example.transaction k ∈ between) ∧
        ∃ compiled, t.message.instructions[0]? = some compiled ∧
          Example.cpi.instruction.programId = t.message.key compiled.programIdIndex ∧
          Example.cpi.instruction.accounts.map AccountMeta.pubkey =
            compiled.accountIndexes.map t.message.key ∧
          Example.cpi.instruction.data = compiled.data := by
  obtain ⟨s, hs, hhistory⟩ := Example.exists_reachable
  have hissued : s.history =
      Example.history.take 2 ++ .invoked Example.transaction Example.cpi ::
        Example.history.drop 3 := hhistory
  exact ⟨s, hs, invoke_signed_authorized hs (hhistory ▸ Example.distinctAddresses) hissued rfl⟩

/-! ## Executions do not repeat -/

/-- The loop of calls was entered for proposal `index` of `multisig`, counted by what the
proposal is called and not by its address. -/
def Event.isEntered (multisig : Pubkey) (index : UInt64) : Event → Bool
  | .entered _ multisig' index' => decide (multisig' = multisig ∧ index' = index)
  | _ => false

/-- The address of an entered proposal is the one of its multisig and index, so two entries
of the same proposal are at the same address. -/
theorem LegalLog.entered_address {h : List Event} {k multisig : Pubkey} {index : UInt64}
    (hl : LegalLog env h) (hok : Allowed env h (.entered k multisig index)) :
    ∃ bump, deriveTransactionPda env multisig index = some (k, bump) := by
  obtain ⟨t, m, ht, -, -, -, rfl, rfl⟩ := hok
  obtain ⟨r, hr, hsame⟩ := recordAt_of_proposalAt ht
  obtain ⟨-, -, -, -, haddress, -⟩ := hl.created_split hr
  refine ⟨r.bump, ?_⟩
  rw [hsame]
  exact haddress

/-- **The loop of calls is entered at most once** for each proposal, in every run: however
deep its calls re-enter the program, and whatever is closed or created in between. The mark
is written before the first call, and an address whose proposal was closed is never used
again. -/
theorem execute_entered_once {s : State} (hs : Reachable env s)
    (hcf : DistinctAddresses env s.history) (multisig : Pubkey) (index : UInt64) :
    s.history.countP (Event.isEntered multisig index) ≤ 1 := by
  refine Legal.countP_le_one ?_ (refines_of_reachable hs hcf).legal
  intro h e hl hok he x hx
  cases e with
  | entered k multisig' index' =>
    obtain ⟨rfl, rfl⟩ := of_decide_eq_true he
    obtain ⟨bump, hk⟩ := LegalLog.entered_address hl hok
    cases x with
    | entered k' multisig'' index'' =>
      refine decide_eq_false ?_
      rintro ⟨rfl, rfl⟩
      obtain ⟨later, earlier, rfl, hok'⟩ := LegalLog.allowed_of_mem hl hx
      obtain ⟨bump', hk'⟩ := LegalLog.entered_address (hl.of_append).tail hok'
      rw [hk] at hk'
      cases hk'
      exact LegalLog.not_entered hl hok ⟨_, _, hx⟩
    | initialized | created | approved | invoked | finished | closed | provisioned => rfl
  | initialized | created | approved | invoked | finished | closed | provisioned => cases he

/-- In the example run the loop was entered once. -/
theorem execute_entered_once_example :
    ∃ s, Reachable Example.cluster s ∧ s.history = Example.history ∧
      s.history.countP (Event.isEntered Example.multisig 1) ≤ 1 := by
  obtain ⟨s, hs, hhistory⟩ := Example.exists_reachable
  exact ⟨s, hs, hhistory,
    execute_entered_once hs (hhistory ▸ Example.distinctAddresses) Example.multisig 1⟩

end SolanaMultisig
