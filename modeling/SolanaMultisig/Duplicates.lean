import SolanaMultisig.Program

/-!
# The duplicate scans

`initialize_multisig` and `create_transaction` look for repeated keys with one
method: sort a copy, compare neighbours. The handlers are written with its
verdict (`Scan.adjacentDistinct`); here the loop of the source is shown to end in
this verdict for every list, and each handler to fail on the scan exactly when
it comes to it with a key repeated (`duplicate_scan_exact`).
-/

namespace SolanaMultisig

open Wire Guard

variable {env : Env}

/-- What `initialize_multisig` has checked when it comes to the scan. A list that fails one
of these is refused with another error. -/
structure CountsChecked (members : List Pubkey) (threshold memberCount : UInt8) : Prop where
  /-- the announced number of members -/
  count_eq : members.length = memberCount.toNat
  /-- a threshold above zero -/
  threshold_pos : 0 < threshold
  /-- that the members, as a `u8`, can reach -/
  threshold_le : threshold ≤ UInt8.ofNat members.length
  /-- not too many of them -/
  length_le : members.length ≤ maxMembers

/-- What `create_transaction` has checked of the message when it comes to the
scan. -/
structure HeaderChecked (message : TransactionMessage) (vault : Pubkey) : Prop where
  /-- some keys -/
  keys_ne : message.accountKeys ≠ []
  /-- not too many -/
  keys_le : message.accountKeys.length ≤ maxTxAccountKeys
  /-- some instructions -/
  instructions_ne : message.instructions ≠ []
  /-- not too many -/
  instructions_le : message.instructions.length ≤ maxTxInstructions
  /-- the signers are keys -/
  numSigners_le : message.numSigners.toNat ≤ message.accountKeys.length
  /-- the writable ones among the signers -/
  numWritableSigners_le : message.numWritableSigners ≤ message.numSigners
  /-- and among the rest -/
  numWritableNonSigners_le :
    message.numWritableNonSigners.toNat ≤ message.accountKeys.length - message.numSigners.toNat
  /-- one signer -/
  numSigners_eq : message.numSigners = 1
  /-- the vault -/
  vault_first : message.accountKeys[0]? = some vault
  /-- writable -/
  one_le_numWritableSigners : 1 ≤ message.numWritableSigners

/-- The error of the scan in `create_transaction`, told from the other message errors by its
line. -/
def duplicateEntry : ProgramError :=
  messageError "InvalidMessage: duplicate entry in account_keys"

/-- `initialize_multisig` fails on the scan when it comes to it with a member
repeated. -/
theorem initializeMultisig_eq_duplicate_iff {members : List Pubkey} {memberHash : Bytes32}
    {threshold memberCount bump : UInt8} :
    initializeMultisig env members memberHash threshold memberCount bump =
        .error (.custom .duplicateMembers) ↔
      CountsChecked members threshold memberCount ∧ Scan.Repeats members := by
  rw [eq_error_iff, Scan.repeats_iff, ← Classical.not_imp]
  refine not_congr ?_
  -- no other check fails with this error
  simp only [initializeMultisig, avoids_bind, avoids_require, require_eq_ok, avoids_pure,
    ProgramError.custom.injEq, reduceCtorEq, false_imp_iff, true_and, and_true, forall_const,
    imp_true_iff]
  rw [sortMembers, Scan.adjacentDistinct_sorted_iff]
  constructor
  · exact fun h hc => h hc.count_eq ⟨hc.threshold_pos, hc.threshold_le⟩ hc.length_le
  · exact fun h hcount hthreshold hmax => h ⟨hcount, hthreshold.1, hthreshold.2, hmax⟩

/-- The checks of single instructions have errors of their own, so the error of the scan
tells what failed. -/
theorem avoids_duplicateEntry_bounds (ixs : List CompiledInstruction) :
    Avoids duplicateEntry (forEach validateBounds ixs) :=
  avoids_forEach fun ix => by simp [validateBounds, messageError, duplicateEntry]

theorem avoids_duplicateEntry_indexes (n : ℕ) (ixs : List CompiledInstruction) :
    Avoids duplicateEntry (forEach (validateIndexes n) ixs) := by
  have hindex : ∀ idxs : List UInt8, Avoids duplicateEntry
      (forEach (fun idx => require (idx.toNat < n)
        (messageError "InvalidMessage: account index out of bounds")) idxs) :=
    fun idxs => avoids_forEach fun idx => by simp [messageError, duplicateEntry]
  refine avoids_forEach fun ix => ?_
  simp [validateIndexes, hindex]
  simp [messageError, duplicateEntry]

/-- `create_transaction` fails on the scan when it comes to it with a key
repeated. -/
theorem validateMessage_eq_duplicate_iff {message : TransactionMessage} {vault : Pubkey} :
    validateMessage message vault = .error duplicateEntry ↔
      HeaderChecked message vault ∧ Scan.Repeats message.accountKeys := by
  rw [eq_error_iff, Scan.repeats_iff, ← Classical.not_imp]
  refine not_congr ?_
  simp only [validateMessage, avoids_bind, avoids_require, require_eq_ok,
    avoids_duplicateEntry_bounds, avoids_duplicateEntry_indexes]
  simp only [duplicateEntry, messageError, ProgramError.logged.injEq, String.reduceEq, and_false,
    false_imp_iff, true_and, and_true, forall_const, imp_true_iff,
    Scan.adjacentDistinct_sorted_iff]
  constructor
  · exact fun h hc => h hc.keys_ne hc.keys_le hc.instructions_ne hc.instructions_le
      hc.numSigners_le hc.numWritableSigners_le hc.numWritableNonSigners_le hc.numSigners_eq
      hc.vault_first hc.one_le_numWritableSigners
  · exact fun h h₁ h₂ h₃ h₄ h₅ h₆ h₇ h₈ h₉ h₁₀ => h ⟨h₁, h₂, h₃, h₄, h₅, h₆, h₇, h₈, h₉, h₁₀⟩

/-- **The sorted scan is the pairwise scan.** For every list of keys the loop over
the sorted copy ends without a read out of bounds, with the verdict the handlers
use; it rejects exactly when two positions of the original list hold the same
key, as the quadratic scan does; and what comes to it, as the members of
`initialize_multisig` or the keys of a message, is refused with the error of the
scan exactly then. -/
theorem duplicate_scan_exact (keys : List Pubkey) :
    Scan.adjacentScan (Scan.sorted keys) = some (Scan.adjacentDistinct (Scan.sorted keys)) ∧
      Scan.adjacentScan (Scan.sorted keys) = some (Scan.pairwiseDistinct keys) ∧
      (Scan.adjacentScan (Scan.sorted keys) = some false ↔ Scan.Repeats keys) ∧
      (∀ (env : Env) (memberHash : Bytes32) (threshold memberCount bump : UInt8),
        initializeMultisig env keys memberHash threshold memberCount bump =
            .error (.custom .duplicateMembers) ↔
          CountsChecked keys threshold memberCount ∧ Scan.Repeats keys) ∧
      ∀ (message : TransactionMessage) (vault : Pubkey),
        validateMessage { message with accountKeys := keys } vault = .error duplicateEntry ↔
          HeaderChecked { message with accountKeys := keys } vault ∧ Scan.Repeats keys := by
  refine ⟨Scan.adjacentScan_eq _, Scan.adjacentScan_sorted keys, ?_, ?_, ?_⟩
  · rw [Scan.adjacentScan_eq, Option.some.injEq]
    exact Scan.adjacentDistinct_sorted_eq_false_iff
  · intro env memberHash threshold memberCount bump
    exact initializeMultisig_eq_duplicate_iff
  · intro message vault
    exact validateMessage_eq_duplicate_iff

end SolanaMultisig
