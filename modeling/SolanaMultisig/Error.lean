import Mathlib.Logic.Basic

/-!
# Errors

The error codes the program declares, and the errors it can meet below itself: Anchor's
account checks, and the runtime with its System program. The texts of the codes are left
out, since no instruction depends on them; the lines that are logged before a code are part
of the error.
-/

namespace SolanaMultisig

/-- The program's own error codes, in the order of `#[error_code]`, which is what numbers
them. -/
inductive ErrorCode where
  | invalidThreshold
  | tooManyMembers
  | duplicateMembers
  | invalidPDA
  | unauthorizedMember
  | invalidTransaction
  | invalidTransactionIndex
  | alreadyApproved
  | alreadyExecuted
  | insufficientApprovals
  | cpiExecutionFailed
  | invalidMessage
  | transactionIndexOverflow
  | insufficientRemainingAccounts
  | accountMismatch
  | notExecuted
  | unauthorizedCloser
  | invalidMemberCount
  deriving DecidableEq, Repr

/-- The checks of the Anchor framework that can fail here: dispatch, the constraints the
account structs use, loading and writing back. -/
inductive AnchorError where
  | instructionFallbackNotFound
  | instructionDidNotDeserialize
  | constraintMut
  | constraintSeeds
  | constraintAddress
  | constraintClose
  | accountDiscriminatorNotFound
  | accountDiscriminatorMismatch
  | accountDidNotDeserialize
  | accountDidNotSerialize
  | accountNotEnoughKeys
  | accountOwnedByWrongProgram
  | invalidProgramId
  | accountNotSigner
  | accountNotInitialized
  | accountSysvarMismatch
  | tryingToInitPayerAsProgramAccount
  deriving DecidableEq, Repr

/-- The failures of the runtime and of its System program that can occur here, among them a
panic of the program itself (`programFailedToComplete`). -/
inductive RuntimeError where
  | privilegeEscalation
  | accountAlreadyInUse
  | resultWithNegativeLamports
  | invalidArgument
  | invalidRealloc
  | externalAccountLamportSpend
  | externalAccountDataModified
  | arithmeticOverflow
  | addressWithSeedMismatch
  | invalidSeeds
  | programFailedToComplete
  deriving DecidableEq, Repr

/-- How an instruction fails. A failed instruction leaves no trace on the chain, so the
error is all that remains of it. -/
inductive ProgramError where
  /-- `require!` with one of the program's codes -/
  | custom (code : ErrorCode)
  /-- `require_msg!`: a code, and the line it logs first -/
  | logged (code : ErrorCode) (log : String)
  /-- a check of the framework -/
  | anchor (error : AnchorError)
  /-- a failure below the program -/
  | runtime (error : RuntimeError)
  deriving DecidableEq, Repr

end SolanaMultisig
