import SolanaMultisig.Interpreter

/-!
# What an address commits to

Anybody may register a multisig, with arguments and accounts of their choosing.
Still every multisig account is well-formed and sits at the address of exactly
its members and threshold, for ever (`registration_of_reachable`), so that an
address can be paid into before anything is registered there.
-/

namespace SolanaMultisig

open Wire EventLog

variable {env : Env}

/-- The seeds recomputed from the stored fields sign for the account's own address: the
stored bump is the one the address was found with. -/
theorem Multisig.AddressOf.signs {m : Multisig} {address : Pubkey} (h : m.AddressOf env address) :
    createProgramAddress env (provisionNonceSeeds env m) env.programId = some address :=
  createProgramAddress_of_find h

/-- What a registered address was derived from is in the log, so that the assumption on the
hash covers it. -/
theorem LegalLog.derivations_of_multisigAt {h : List Event} {k : Pubkey} {m : Multisig}
    (hm : multisigAt h k = some m) :
    Derivation.members m.members ∈ derivations env h ∧
      Derivation.multisig (hashMembers env m.members) m.threshold m.bump ∈ derivations env h := by
  induction h generalizing m with
  | nil => cases hm
  | cons e h ih =>
    have hkeep : derivations env h ⊆ derivations env (e :: h) := @derivations_subset env [e] h
    rcases multisigAt_cases hm with hm' | rfl | ⟨address, t, m', rfl, -, hm', rfl⟩
    · obtain ⟨h₁, h₂⟩ := ih hm'
      exact ⟨hkeep h₁, hkeep h₂⟩
    · exact ⟨List.mem_cons_self, List.mem_cons_of_mem _ List.mem_cons_self⟩
    · obtain ⟨h₁, h₂⟩ := ih hm'
      exact ⟨hkeep h₁, hkeep h₂⟩

/-- What is hashed to derive an address from a member list: the list, and the seeds with its
digest. Both must be free of collisions for the address to commit to the members. -/
def addressDerivations (env : Env) (members : List Pubkey) (threshold bump : UInt8) :
    List Derivation :=
  [.members (sortMembers members),
    .multisig (hashMembers env (sortMembers members)) threshold bump]

/-- Two configurations at one address are the same, unless the hash collides: first the
address gives digest, threshold and bump, then the digest gives the members. -/
theorem Multisig.AddressOf.unique {m : Multisig} {address : Pubkey} {members : List Pubkey}
    {threshold bump : UInt8} {ds : List Derivation} (h : m.AddressOf env address)
    (hd : deriveMultisigPda env members threshold = some (address, bump))
    (hcf : CollisionFree env (addressDerivations env members threshold bump ++ ds))
    (hm : Derivation.members m.members ∈ ds)
    (ha : Derivation.multisig (hashMembers env m.members) m.threshold m.bump ∈ ds) :
    m.members = sortMembers members ∧ m.threshold = threshold ∧ m.bump = bump := by
  have haddress : Derivation.multisig (hashMembers env m.members) m.threshold m.bump =
      .multisig (hashMembers env (sortMembers members)) threshold bump :=
    hcf.eq (by simp [ha]) (by simp [addressDerivations])
      ((multisigAddress_eq h).symm.trans (multisigAddress_eq hd))
  obtain ⟨hhash, hthreshold, hbump⟩ := Derivation.multisig.inj haddress
  have hmembers : Derivation.members m.members = .members (sortMembers members) :=
    hcf.eq (by simp [hm]) (by simp [addressDerivations]) hhash
  exact ⟨Derivation.members.inj hmembers, hthreshold, hbump⟩

/-- What can be relied on about the multisig `m` at `address`, from the state `s`
on. -/
structure Registration (env : Env) (s : State) (address : Pubkey) (m : Multisig) : Prop where
  /-- members are strictly increasing, at most 30, and can reach the threshold -/
  valid : m.Valid
  /-- the address is derived from the members' hash and the threshold, with the
  stored bump -/
  address_eq : findProgramAddress env (multisigSeeds (hashMembers env m.members) m.threshold)
    env.programId = some (address, m.bump)
  /-- members, threshold and bump never change -/
  constant : ∀ s', Reaches env s s' → DistinctAddresses env s'.history →
    ∃ m', multisigAccount.Holds env s'.ledger address m' ∧ m'.members = m.members ∧
      m'.threshold = m.threshold ∧ m'.bump = m.bump
  /-- whoever derived this address from a list and a threshold finds them there -/
  committed : ∀ members threshold bump,
    deriveMultisigPda env members threshold = some (address, bump) →
    CollisionFree env
      (addressDerivations env members threshold bump ++ derivations env s.history) →
      m.members = sortMembers members ∧ m.threshold = threshold ∧ m.bump = bump
  /-- the seeds `provision_nonce` recomputes sign for this address -/
  signs : createProgramAddress env (provisionNonceSeeds env m) env.programId = some address

/-- **An address holds what it was derived from**: every multisig account of every reachable
state, whoever registered it and with whatever arguments. The instruction is open to all,
and `actual_hash == member_hash` is the check that makes this harmless. -/
theorem registration_of_reachable {s : State} (hs : Reachable env s)
    (hcf : DistinctAddresses env s.history) {address : Pubkey} {m : Multisig}
    (hm : multisigAccount.Holds env s.ledger address m) : Registration env s address m := by
  have href := refines_of_reachable hs hcf
  have hlog := (href.accounts.multisigs _ _).mp hm
  obtain ⟨hvalid, haddress⟩ := href.legal.multisigAt_valid hlog
  refine
    { valid := hvalid
      address_eq := haddress
      constant := ?_
      committed := ?_
      signs := haddress.signs }
  · intro s' hrun hcf'
    have href' := href.reaches hrun hcf'
    obtain ⟨later, hlater⟩ := hrun.history_suffix
    have hl' := href'.legal
    rw [← hlater] at hl'
    obtain ⟨m', hm', hev, -⟩ := hl'.multisigAt_append hlog
    rw [hlater] at hm'
    exact ⟨m', (href'.accounts.multisigs _ _).mpr hm', by rw [hev], by rw [hev], by rw [hev]⟩
  · intro members threshold bump hd hcf'
    obtain ⟨h₁, h₂⟩ := LegalLog.derivations_of_multisigAt hlog
    exact haddress.unique hd hcf' h₁ h₂

/-- The multisig of the example run. -/
theorem registration_of_reachable_example :
    ∃ s, Reachable Example.cluster s ∧
      Registration Example.cluster s Example.multisig
        ⟨[Example.alice, Example.bob], 2, 1, 255⟩ := by
  obtain ⟨s, hs, hhistory⟩ := Example.exists_reachable
  have hcf : DistinctAddresses Example.cluster s.history := hhistory ▸ Example.distinctAddresses
  have hlog : multisigAt s.history Example.multisig =
      some ⟨[Example.alice, Example.bob], 2, 1, 255⟩ := by
    rw [hhistory]
    decide +kernel
  have hholds := ((refines_of_reachable hs hcf).accounts.multisigs _ _).mpr hlog
  exact ⟨s, hs, registration_of_reachable hs hcf hholds⟩

end SolanaMultisig
