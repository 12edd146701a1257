import SolanaMultisig.Custody
import SolanaMultisig.Delivery

/-!
# The next proposal

The client predicts the address of the next proposal and builds the request to create it;
until the request lands, others can do what they like. They may send lamports to the
address, but they cannot take it (`slot_free`): the request lands unless another proposal
of the same multisig came first (`next_proposal_unblocked`).
-/

namespace SolanaMultisig

open Wire Guard EventLog Blame Sdk

variable {env : Env}

/-! ## Records and indexes -/

section Log

variable {h : List Event} {t : VaultTransaction} {m : Multisig} {address : Pubkey}

/-- The index behind the counter is not in use: a proposal there would have moved the
counter. -/
theorem LegalLog.recordAt_none_of_next (hl : LegalLog env h)
    (hcf : DistinctAddresses env (.created address t :: h)) (haddress : t.AddressOf env address)
    (hm : multisigAt h t.multisig = some m)
    (hindex : t.transactionIndex.toNat = m.transactionIndex.toNat + 1) :
    recordAt h address = none := by
  cases hr : recordAt h address with
  | none => rfl
  | some r =>
    obtain ⟨_, _, -, -, hraddress, -⟩ := hl.created_split hr
    have hrkey := transactionAddress_eq hraddress
    have hkey := transactionAddress_eq haddress
    have hmem : .transaction r.multisig r.transactionIndex r.bump ∈ derivations env h :=
      transaction_mem_derivations (recordAt_mem hr)
    obtain ⟨hmultisig, hsame, -⟩ := Derivation.transaction.inj (CollisionFree.eq hcf
      (List.mem_cons_of_mem _ (List.mem_cons_of_mem _ hmem)) List.mem_cons_self
      (hrkey.symm.trans hkey))
    obtain ⟨m', hm', hle⟩ := hl.index_le hr
    rw [hmultisig, hm] at hm'
    obtain rfl := Option.some.inj hm'
    rw [hsame] at hle
    omega

/-- Every index up to the counter is: the counter is only moved by creations, one at a time.
-/
theorem LegalLog.exists_recordAt_of_le (hl : LegalLog env h) (haddress : t.AddressOf env address)
    (hm : multisigAt h t.multisig = some m) (hpos : 0 < t.transactionIndex.toNat)
    (hle : t.transactionIndex.toNat ≤ m.transactionIndex.toNat) :
    ∃ r, recordAt h address = some r := by
  have hcount := hl.index_eq_count hm
  have hmem : t.transactionIndex.toNat ∈ createdIndexes h t.multisig := by
    rw [hl.createdIndexes_eq_range, length_createdIndexes, List.mem_range'_1]
    omega
  rw [createdIndexes, List.mem_reverse, List.mem_filterMap] at hmem
  obtain ⟨e, he, hindex⟩ := hmem
  cases e with
  | created k r =>
    rw [Event.createdIndex] at hindex
    split at hindex
    · rename_i hmultisig
      have hr := hl.recordAt_of_mem he
      obtain ⟨_, _, -, -, hraddress, -⟩ := hl.created_split hr
      rw [VaultTransaction.AddressOf, hmultisig, UInt64.toNat_inj.mp (Option.some.inj hindex),
        haddress] at hraddress
      obtain rfl := congrArg Prod.fst (Option.some.inj hraddress)
      exact ⟨r, hr⟩
    · cases hindex
  | initialized | approved | entered | invoked | finished | closed | provisioned => cases hindex

/-- Before it is created, nothing is made at the address of a proposal: no multisig and no
nonce has its address, unless the hash collides. -/
theorem LegalLog.not_makes (hl : LegalLog env h)
    (hcf : DistinctAddresses env (.created address t :: h)) (haddress : t.AddressOf env address)
    (hfresh : recordAt h address = none) : ∀ e ∈ h, ¬e.Makes env address := by
  intro e he hmakes
  have hcf' : CollisionFree env (.transaction t.multisig t.transactionIndex t.bump ::
      derivations env h) := CollisionFree.mono hcf
    (List.cons_subset_cons _ (List.subset_cons_self _ _))
  have hkey := transactionAddress_eq haddress
  rcases hl.derivation_of_makes hcf' hkey he hmakes with
    ⟨m, hd⟩ | ⟨r, -, hcreated⟩ | ⟨multisig, hd⟩
  · cases hd
  · rw [hl.recordAt_of_mem hcreated] at hfresh
    cases hfresh
  · cases hd

/-- No call is signed for the address of a proposal: calls are signed for vaults. -/
theorem LegalLog.not_signsFor (hl : LegalLog env h)
    (hcf : DistinctAddresses env (.created address t :: h)) (haddress : t.AddressOf env address)
    {h₀ : List Event} : ¬Logged (Event.SignsFor env address) h₀ h := by
  rintro ⟨later, e, earlier, rfl, -, hseeds⟩
  cases e with
  | invoked k cpi =>
    obtain ⟨r, _, vault, _, hr, hvault, hsign, -⟩ :=
      LegalLog.quorum_of_invoked (hl.of_append).tail hl.ok_of_split
    obtain rfl := Option.some.inj (hsign.symm.trans hseeds)
    have hmem : .vault r.multisig r.vaultIndex r.vaultBump ∈
        derivations env (later ++ .invoked k cpi :: earlier) :=
      derivations_subset (vault_mem_derivations (recordAt_mem hr))
    have hvaultKey := vaultAddress_eq hvault
    have hkey := transactionAddress_eq haddress
    cases CollisionFree.eq hcf (List.mem_cons_of_mem _ (List.mem_cons_of_mem _ hmem))
      List.mem_cons_self (hvaultKey.symm.trans hkey)
  | initialized | created | approved | entered | finished | closed | provisioned =>
    exact hseeds.elim

end Log

/-! ## The address -/

section Slot

variable {s s' : State} {t : VaultTransaction} {m : Multisig} {address vault : Pubkey}

/-- **Nobody takes the address of a proposal.** An address that is free stays free until the
proposal is created there: nobody can sign for it, so nobody can allocate or assign it. -/
theorem slot_free (hs : Reachable env s) (hidle : s.frames = [])
    (hvacant : (s.ledger address).Vacant) (hrun : Reaches env s s')
    (hcf : DistinctAddresses env (.created address t :: s'.history))
    (haddress : t.AddressOf env address) (hfresh : recordAt s'.history address = none) :
    (s'.ledger address).Vacant := by
  have hl := (refines_of_reachable (hs.trans hrun) (hcf.of_suffix (List.suffix_cons _ _))).legal
  have hpda : IsProgramAddress env address := ⟨_, createProgramAddress_of_find haddress⟩
  rcases (accountable_free hpda).run hrun (hl.not_makes hcf haddress hfresh)
    ⟨unsigned_of_idle hidle, hvacant⟩ with hfree | hlogged
  · exact hfree.vacant
  · exact absurd hlogged (hl.not_signsFor hcf haddress)

theorem CreateAccounts.passes {infos : List AccountInfo} (h : CreateAccounts t address infos) :
    Passes infos [t.multisig, address, t.creator, t.payer] ∧ Signed infos t.payer := by
  cases h with
  | @intro multisig transaction creator payer system rest hmultisig _ haddress _ hcreator _ hpayer
      hsigner =>
    refine ⟨⟨system.key :: rest.map AccountInfo.key, ?_⟩, payer, by simp, hpayer, hsigner⟩
    simp [hmultisig, haddress, hcreator, hpayer]

/-- A request that succeeds makes a proposal of this multisig, at this address; there is no
other outcome. -/
theorem Sdk.CreateRequest.Asks.creates {request : CreateRequest} (hasks : request.Asks env t address)
    {o : OuterInstruction} (ho : request.instruction.DeliveredAs o) {bank : Bank} {ledger : Ledger}
    {out : Outcome} (h : processInstruction env bank ledger o.infos o.data = .ok out) :
    ∃ r m₁, out.event = some (.created address r) ∧ out.execution = none ∧
      r.multisig = t.multisig ∧ Creates env ledger out.ledger address m₁ r := by
  obtain ⟨instruction, hparse, heffect⟩ := processInstruction_effect h
  rw [ho.data_eq, hasks.parsed] at hparse
  have hpasses := (hasks.accounts _ ho.passed).passes.1
  have hinstruction := Except.ok.inj hparse
  cases heffect with
  | @created ledger' k m₁ r hc hpassed _ _ =>
    have hkeys := (List.prefix_of_prefix_length_le hpassed hpasses (by simp)).eq_of_length rfl
    simp only [List.cons.injEq] at hkeys
    obtain ⟨hmultisig, rfl, -⟩ := hkeys
    exact ⟨r, m₁, rfl, rfl, hmultisig, hc⟩
  | initialized | approved | entered | closed | provisioned | viewedAddress | viewedVault =>
    cases hinstruction

/-- As long as the next proposal was not created, the multisig is as it was: its counter has
nothing else to count. -/
theorem Refines.multisig_unchanged {m₁ : Multisig} (hs' : Refines env s') (hs : Refines env s)
    (hm : multisigAccount.Holds env s.ledger t.multisig m) (hsuffix : s.history <:+ s'.history)
    (hdue : Due env m t address vault) (hm₁ : multisigAccount.Holds env s'.ledger t.multisig m₁)
    (hfresh : recordAt s'.history address = none) :
    multisigAccount.Holds env s'.ledger t.multisig m := by
  have hlog := (hs.accounts.multisigs _ _).mp hm
  have hlog₁ := (hs'.accounts.multisigs _ _).mp hm₁
  obtain ⟨m₂, hm₂, hsame, hle⟩ : ∃ m₂, multisigAt s'.history t.multisig = some m₂ ∧
      m.Evolves m₂ := by
    obtain ⟨new, hnew⟩ := hsuffix
    have hl := hs'.legal
    rw [← hnew] at hl ⊢
    exact hl.multisigAt_append hlog
  obtain rfl := Option.some.inj (hlog₁.symm.trans hm₂)
  have hindex := hdue.index_eq
  have hlt : m₁.transactionIndex.toNat < t.transactionIndex.toNat := by
    by_contra hge
    obtain ⟨r, hr⟩ := hs'.legal.exists_recordAt_of_le hdue.address_eq hlog₁ (by omega)
      (not_lt.mp hge)
    rw [hfresh] at hr
    cases hr
  have hcounter : m₁.transactionIndex = m.transactionIndex :=
    UInt64.toNat_inj.mp (by omega)
  obtain rfl : m₁ = m := by
    rw [hcounter] at hsame
    exact hsame
  exact hm₁

/-- **Only another proposal comes first.** The client reads a multisig and builds the
request to create its next proposal, a valid one (`Due`) whose address is free, and others
do what they like until it is sent. The payer can pay for the account when it is sent. If
the multisig is still as it was read, the request lands, whatever was sent to the address;
and if it lands, then the multisig was as it was read, and the proposal is the one asked
for. -/
theorem next_proposal_unblocked {opts : CreateOptions} {request : CreateRequest} {o : OuterInstruction}
    (hs : Reachable env s) (hidle : s.frames = [])
    (hm : multisigAccount.Holds env s.ledger t.multisig m) (hdue : Due env m t address vault)
    (hvacant : (s.ledger address).Vacant) (hopts : opts.Describes m t)
    (hbuild : buildCreateTransactionInstruction env opts env.programId = .ok request)
    (ho : request.instruction.DeliveredAs o) (hkeys : KeysOnly env o.infos)
    (hrun : Reaches env s s') (hidle' : s'.frames = [])
    (hcf : DistinctAddresses env (.created address t :: s'.history))
    (hpayer : (s'.ledger t.payer).Vacant)
    (hfunds : max (env.minimumBalance (computeProposalSpace t.message m.members.length)) 1 ≤
      (s'.ledger t.payer).lamports) :
    (multisigAccount.Holds env s'.ledger t.multisig m →
      ∃ s'', Lands env s' [o] s'' ∧ DistinctAddresses env s''.history) ∧
    ∀ s'', Lands env s' [o] s'' → DistinctAddresses env s''.history →
      multisigAccount.Holds env s'.ledger t.multisig m ∧
        transactionAccount.Holds env s''.ledger address t := by
  have hcf' := hcf.of_suffix (List.suffix_cons _ _)
  have hreach := hs.trans hrun
  have href := refines_of_reachable hreach hcf'
  have hasks := buildCreateTransactionInstruction_asks hdue hopts hbuild
  have hne : t.payer ≠ address := fun he =>
    hkeys t.payer (hasks.accounts _ ho.passed).passes.2
      (he ▸ ⟨_, createProgramAddress_of_find hdue.address_eq⟩)
  have hfund : multisigAccount.Holds env s'.ledger t.multisig m →
      CanFund env s'.ledger t.payer address (computeProposalSpace t.message m.members.length) := by
    intro hm'
    have hfresh := href.legal.recordAt_none_of_next hcf hdue.address_eq
      ((href.accounts.multisigs _ _).mp hm') hdue.index_eq
    exact ⟨slot_free hs hidle hvacant hrun hcf hdue.address_eq hfresh, hpayer, hne, hfunds⟩
  have hsized := sized_of_reachable hreach hcf'
  refine ⟨fun hm' => ?_, fun s'' hland hcf'' => ?_⟩
  · obtain ⟨s'', hland, -, hhistory, -⟩ :=
      hdue.lands href hsized hidle' hm' hcf (hfund hm') hasks ho hkeys
    exact ⟨s'', hland, hhistory ▸ hcf⟩
  · obtain ⟨bank, out, hprocess, hrest⟩ := hland.processed (ho.program_eq.trans hasks.program_eq)
    obtain ⟨r, m₁, hevent, hnone, hmultisig, hc⟩ := hasks.creates ho hprocess
    obtain rfl := (hrest hnone).eq_of_nil
    -- the address was not in use, so the counter has not moved
    have hl := (refines_of_reachable (hreach.trans hland.reaches) hcf'').legal
    have hhistory : (s'.apply out).history = .created address r :: s'.history := by
      simp [State.apply, hevent]
    rw [hhistory] at hl
    have hfresh : recordAt s'.history address = none := hl.head.1
    have hm' := href.multisig_unchanged (refines_of_reachable hs
      (hcf'.of_suffix hrun.history_suffix)) hm hrun.history_suffix hdue
      (hmultisig ▸ hc.multisig_holds) hfresh
    obtain ⟨ledger', hprocess'⟩ := hdue.process href hsized hm' (hfund hm') hasks ho bank
    obtain rfl := Except.ok.inj (hprocess.symm.trans hprocess')
    cases hevent
    exact ⟨hm', hc.holds⟩

end Slot

namespace Example

/-- The multisig before its first proposal, as the client reads it. -/
def registered : Multisig := ⟨[alice, bob], 2, 0, 255⟩

/-- The request to create the transfer. -/
theorem exists_request : ∃ request,
    buildCreateTransactionInstruction cluster sendOptions programId = .ok request ∧
      KeysOnly cluster request.instruction.outer.infos := by
  have hrun : (buildCreateTransactionInstruction cluster sendOptions programId).toOption.map
      (fun request => decide (∀ info ∈ request.instruction.outer.infos, info.isSigner = true →
        info.key ∉ Bytes32.zero :: digests.map Prod.snd)) = some true := by
    decide +kernel
  obtain ⟨request, hrequest, hkeys⟩ := Option.map_eq_some_iff.mp hrun
  exact ⟨request, toOption_eq_some.mp hrequest, keysOnly (of_decide_eq_true hkeys)⟩

end Example

/-- Another multisig is registered before the transfer of the example is proposed. -/
theorem next_proposal_unblocked_example : ∃ s s' s'' o, Reachable Example.cluster s ∧
    Reaches Example.cluster s s' ∧ s.history.length < s'.history.length ∧
    Lands Example.cluster s' [o] s'' ∧
    transactionAccount.Holds Example.cluster s''.ledger Example.transaction Example.record := by
  have hrun : ((drive Example.cluster Example.bank Example.genesis [Example.register]).bind fun s =>
      (drive Example.cluster Example.bank s [Example.registerJoint]).map fun s' =>
        decide (s.frames.isEmpty ∧ s'.frames.isEmpty ∧ s.history.length < s'.history.length ∧
          multisigAt s.history Example.multisig = some Example.registered ∧
          multisigAt s'.history Example.multisig = some Example.registered ∧
          (s.ledger Example.transaction).Vacant ∧ DistinctAddresses Example.cluster
            (.created Example.transaction Example.record :: s'.history) ∧
          (s'.ledger Example.paymaster).Vacant ∧ max (Example.cluster.minimumBalance
            (computeProposalSpace Example.message 2)) 1 ≤ (s'.ledger Example.paymaster).lamports)) =
      some true := by
    decide +kernel
  obtain ⟨s, hs, hrest⟩ := Option.bind_eq_some_iff.mp hrun
  obtain ⟨s', hs', hchecked⟩ := Option.map_eq_some_iff.mp hrest
  obtain ⟨hidle, hidle', hlonger, hm, hm', hvacant, hcf, hpayer, hfunds⟩ :=
    of_decide_eq_true hchecked
  have hreach := reachable_of_reaches Example.genesis_genesis (drive_reaches (fun c hc =>
    Example.commands_keysOnly c (List.mem_of_mem_take (i := 1) hc)) hs)
  have hlater := drive_reaches (fun c hc =>
    Example.preparation_keysOnly c (List.mem_of_mem_drop (i := 1)
      (List.mem_of_mem_take (i := 1) hc))) hs'
  have hcf' := hcf.of_suffix (List.suffix_cons _ _)
  have href := refines_of_reachable hreach (hcf'.of_suffix hlater.history_suffix)
  have href' := refines_of_reachable (hreach.trans hlater) hcf'
  obtain ⟨request, hbuild, hkeys⟩ := Example.exists_request
  have hdescribes : Example.sendOptions.Describes Example.registered Example.record := by
    constructor <;> decide +kernel
  obtain ⟨hlands, hproposal⟩ := next_proposal_unblocked hreach (List.isEmpty_iff.mp hidle)
    ((href.accounts.multisigs _ _).mpr hm) Example.due hvacant hdescribes hbuild
    request.instruction.outer_deliveredAs hkeys hlater (List.isEmpty_iff.mp hidle') hcf hpayer
    hfunds
  obtain ⟨s'', hland, hcf''⟩ := hlands ((href'.accounts.multisigs _ _).mpr hm')
  exact ⟨s, s', s'', _, hreach, hlater, hlonger, hland, (hproposal s'' hland hcf'').2⟩

end SolanaMultisig
