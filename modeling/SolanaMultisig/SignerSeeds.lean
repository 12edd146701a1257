import SolanaMultisig.Interpreter

/-!
# What the seeds of an execution sign for

The hash behind a derived address receives the seeds without separators. The
program uses three families of seeds, each with a bump byte at the end. No two
tuples of them run together to the same bytes (`SeedTuple.eq_of_flatten`), so the
seeds of `execute_transaction` sign for one vault and for nothing else.
-/

namespace SolanaMultisig

open Wire Guard

variable {env : Env}

/-- A tuple of seeds as the program uses it, with its bump. The three families begin with
three different texts, none of which has the length of another. -/
inductive SeedTuple where
  /-- `["multisig", member_hash, [threshold]]` -/
  | multisig (memberHash : Bytes32) (threshold bump : UInt8)
  /-- `["vault", multisig, [vault_index]]` -/
  | vault (multisig : Pubkey) (vaultIndex bump : UInt8)
  /-- `["transaction", multisig, transaction_index.to_le_bytes()]` -/
  | transaction (multisig : Pubkey) (transactionIndex : UInt64) (bump : UInt8)
  deriving DecidableEq

namespace SeedTuple

/-- The seeds, the bump last, as `invoke_signed` gets them. -/
def seeds : SeedTuple → List (List UInt8)
  | .multisig memberHash threshold bump => multisigSeeds memberHash threshold ++ [[bump]]
  | .vault owner vaultIndex bump => vaultSeeds owner vaultIndex ++ [[bump]]
  | .transaction owner transactionIndex bump => transactionSeeds owner transactionIndex ++ [[bump]]

/-- What is hashed for them: each tuple is one of the derivations of the program. -/
def derivation : SeedTuple → Derivation
  | .multisig memberHash threshold bump => .multisig memberHash threshold bump
  | .vault owner vaultIndex bump => .vault owner vaultIndex bump
  | .transaction owner transactionIndex bump => .transaction owner transactionIndex bump

/-- The seeds derive `k`, that is, they sign for it. -/
def SignsFor (env : Env) (a : SeedTuple) (k : Pubkey) : Prop :=
  createProgramAddress env a.seeds env.programId = some k

@[simp] theorem preimage_derivation (programId : Pubkey) (a : SeedTuple) :
    a.derivation.preimage programId = addressPreimage a.seeds programId := by
  cases a <;> rfl

/-- Different tuples are different derivations. -/
theorem derivation_injective : Function.Injective derivation := by
  intro a b h
  cases a <;> cases b <;> cases h <;> rfl

/-- **Seeds do not run together**: the bytes without separators tell the kind of the tuple
and each of its entries. The length tells the kind, and the widths within one kind are
fixed. -/
theorem eq_of_flatten {a b : SeedTuple} (h : a.seeds.flatten = b.seeds.flatten) : a = b := by
  -- the program and the marker behind the seeds are the same for both
  refine derivation_injective (preimage_injective systemProgramId ?_)
  rw [preimage_derivation, preimage_derivation, addressPreimage, addressPreimage, h]

/-- The address signed for is the digest of the tuple's derivation. -/
theorem SignsFor.digest_eq {a : SeedTuple} {k : Pubkey} (h : a.SignsFor env k) :
    k = a.derivation.digest env := by
  rw [Derivation.digest, preimage_derivation]
  exact createProgramAddress_eq_some h

/-- Two tuples that sign for one address are the same, unless the hash collides on these
two. -/
theorem SignsFor.unique {a b : SeedTuple} {k : Pubkey} (ha : a.SignsFor env k)
    (hb : b.SignsFor env k) (hcf : CollisionFree env [a.derivation, b.derivation]) : a = b :=
  derivation_injective
    (hcf.eq (by simp) (by simp) (ha.digest_eq.symm.trans hb.digest_eq))

/-! ## The addresses the program derives -/

/-- The address found for a multisig is one its tuple signs for; the same holds of the other
two families below. -/
theorem signsFor_of_deriveMultisigPda {members : List Pubkey} {threshold : UInt8}
    {p : Pubkey × UInt8} (h : deriveMultisigPda env members threshold = some p) :
    (multisig (hashMembers env (sortMembers members)) threshold p.2).SignsFor env p.1 :=
  createProgramAddress_of_find h

theorem signsFor_of_deriveVaultPda {owner : Pubkey} {vaultIndex : UInt8} {p : Pubkey × UInt8}
    (h : deriveVaultPda env owner vaultIndex = some p) :
    (vault owner vaultIndex p.2).SignsFor env p.1 :=
  createProgramAddress_of_find h

theorem signsFor_of_deriveTransactionPda {owner : Pubkey} {transactionIndex : UInt64}
    {p : Pubkey × UInt8} (h : deriveTransactionPda env owner transactionIndex = some p) :
    (transaction owner transactionIndex p.2).SignsFor env p.1 :=
  createProgramAddress_of_find h

/-- `provision_nonce` signs as the multisig, the base of the nonce address: its seeds are
those of the first family. -/
theorem seeds_provisionNonce (m : Multisig) :
    provisionNonceSeeds env m =
      (multisig (hashMembers env m.members) m.threshold m.bump).seeds :=
  rfl

end SeedTuple

/-! ## The calls of an execution -/

/-- The vault whose seeds an execution signs with: index and bump as stored with the
proposal. -/
def Execution.vaultTuple (e : Execution) : SeedTuple :=
  .vault e.multisig.key e.cached.vaultIndex e.cached.vaultBump

/-- Every call of an execution carries these seeds. -/
theorem Execution.signerSeeds_of_nextCpi {e : Execution} {cpi : Cpi}
    (h : e.nextCpi = some (.ok cpi)) : cpi.signerSeeds = e.vaultTuple.seeds := by
  obtain ⟨compiled, -, hcompile⟩ := Option.map_eq_some_iff.mp h
  obtain ⟨-, -, hmatch⟩ := resolveAccounts_eq_ok.mp e.resolved
  exact (compileCpi_eq_ok hmatch hcompile).2.1

/-- **The seeds of an execution are those of its vault alone.** Equal bytes mean
equal tuples, over the three families; and whatever address a call of an
execution signs for, no other tuple derives it: it is no multisig, no proposal
and no other vault, unless the hash collides on the two. -/
theorem signer_seeds_unambiguous :
    (∀ a b : SeedTuple, a.seeds.flatten = b.seeds.flatten → a = b) ∧
      ∀ (env : Env) (e : Execution) (cpi : Cpi) (k : Pubkey),
        e.nextCpi = some (.ok cpi) →
        createProgramAddress env cpi.signerSeeds env.programId = some k →
        (∀ b : SeedTuple, b.SignsFor env k →
          CollisionFree env [e.vaultTuple.derivation, b.derivation] → b = e.vaultTuple) ∧
        (∀ members threshold bump,
          CollisionFree env [e.vaultTuple.derivation,
            .multisig (hashMembers env (sortMembers members)) threshold bump] →
          deriveMultisigPda env members threshold ≠ some (k, bump)) ∧
        (∀ owner transactionIndex bump,
          CollisionFree env [e.vaultTuple.derivation, .transaction owner transactionIndex bump] →
          deriveTransactionPda env owner transactionIndex ≠ some (k, bump)) ∧
        ∀ owner vaultIndex bump,
          CollisionFree env [e.vaultTuple.derivation, .vault owner vaultIndex bump] →
          deriveVaultPda env owner vaultIndex = some (k, bump) →
          owner = e.multisig.key ∧ vaultIndex = e.cached.vaultIndex ∧
            bump = e.cached.vaultBump := by
  refine ⟨fun a b => SeedTuple.eq_of_flatten, ?_⟩
  intro env e cpi k hcpi hk
  rw [e.signerSeeds_of_nextCpi hcpi] at hk
  have hunique : ∀ b : SeedTuple, b.SignsFor env k →
      CollisionFree env [e.vaultTuple.derivation, b.derivation] → b = e.vaultTuple :=
    fun b hb hcf => (SeedTuple.SignsFor.unique hk hb hcf).symm
  refine ⟨hunique, ?_, ?_, ?_⟩
  · intro members threshold bump hcf hderive
    cases hunique _ (SeedTuple.signsFor_of_deriveMultisigPda hderive) hcf
  · intro owner transactionIndex bump hcf hderive
    cases hunique _ (SeedTuple.signsFor_of_deriveTransactionPda hderive) hcf
  · intro owner vaultIndex bump hcf hderive
    have heq := hunique _ (SeedTuple.signsFor_of_deriveVaultPda hderive) hcf
    exact SeedTuple.vault.inj heq

/-- The execution of the example run, before its call. -/
def Example.execution : Execution where
  multisig := ⟨Example.multisig, false, false⟩
  transaction := Example.transaction
  cached := { Example.record with executed := true }
  infos := []
  remaining := Example.remaining
  next := 0
  resolved := by decide +kernel

/-- Its call signs for the vault, and neither for the multisig nor for the proposal. -/
theorem signer_seeds_unambiguous_example :
    Example.execution.vaultTuple = .vault Example.multisig 0 255 ∧
      deriveMultisigPda Example.cluster [Example.alice, Example.bob] 2 ≠
        some (Example.vault, 255) ∧
      deriveTransactionPda Example.cluster Example.multisig 1 ≠ some (Example.vault, 255) ∧
      Example.multisig = Example.execution.multisig.key ∧
        Example.execution.cached.vaultIndex = 0 := by
  have hcpi : Example.execution.nextCpi = some (.ok Example.cpi) := by
    decide +kernel
  have hsigns : createProgramAddress Example.cluster Example.cpi.signerSeeds
      Example.cluster.programId = some Example.vault := by
    decide +kernel
  obtain ⟨-, hmultisig, htransaction, hvault⟩ :=
    signer_seeds_unambiguous.2 Example.cluster Example.execution Example.cpi Example.vault hcpi
      hsigns
  have hown := hvault Example.multisig 0 255 (by decide +kernel) (by decide +kernel)
  exact ⟨signer_seeds_unambiguous.1 _ _ rfl, hmultisig _ _ _ (by decide +kernel),
    htransaction _ _ _ (by decide +kernel), hown.1, hown.2.1.symm⟩

end SolanaMultisig
