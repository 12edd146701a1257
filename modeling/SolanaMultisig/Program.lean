import SolanaMultisig.Message

/-!
# The instructions

Each instruction of the program has two parts, as in the source: the handler
body, a function of the deserialized accounts and the arguments, and the
account struct around it (`Accounts` derive), which loads and checks the
accounts before and writes them back after. `processInstruction` picks the
instruction by its discriminator. `execute_transaction` ends in a loop of calls;
what it has done up to the loop is an `Execution`, which the machine then steps
through.
-/

namespace SolanaMultisig

open Wire Guard

variable {env : Env}

/-! ## Handler bodies -/

/-- `initialize_multisig`: register the members found in `remaining_accounts`. No member has
to sign: the digest in the address binds the sorted list, so nobody can register another
list there. -/
def initializeMultisig (env : Env) (members : List Pubkey) (memberHash : Bytes32)
    (threshold memberCount bump : UInt8) : Except ProgramError Multisig := do
  require (members.length = memberCount.toNat) (.custom .invalidMemberCount)
  -- the length is cast to `u8` here; only the next check bounds it
  require (0 < threshold ∧ threshold ≤ UInt8.ofNat members.length) (.custom .invalidThreshold)
  require (members.length ≤ maxMembers) (.custom .tooManyMembers)
  let sortedMembers := sortMembers members
  require (Scan.adjacentDistinct sortedMembers = true) (.custom .duplicateMembers)
  require (hashMembers env sortedMembers = memberHash) (.custom .invalidPDA)
  pure { members := sortedMembers, threshold, transactionIndex := 0, bump }

/-- `u64::checked_add(1)`, which is `None` at the last value. The account struct and the
handler both compute the next index, the first aborting and the second with an error code.
-/
def checkedSucc (n : UInt64) : Option UInt64 :=
  if n.toNat + 1 < 2 ^ 64 then some (UInt64.ofNat (n.toNat + 1)) else none

theorem checkedSucc_eq_some {n m : UInt64} (h : checkedSucc n = some m) :
    m.toNat = n.toNat + 1 := by
  unfold checkedSucc at h
  split at h
  · rename_i hlt
    cases h
    exact UInt64.toNat_ofNat_of_lt' hlt
  · cases h

/-- `create_transaction`: claim the next index and fill in the proposal. The index is
claimed when the proposal is created and not when it is executed, so several proposals can
be open at a time. -/
def createTransaction (env : Env) (multisigKey : Pubkey) (multisig : Multisig)
    (creator payer : Pubkey) (bump vaultIndex : UInt8) (message : TransactionMessage) :
    Except ProgramError (Multisig × VaultTransaction) := do
  require (creator ∈ multisig.members) (.custom .unauthorizedMember)
  let vault ← orElse (deriveVaultPda env multisigKey vaultIndex) (.runtime .programFailedToComplete)
  validateMessage message vault.1
  let newIndex ← orElse (checkedSucc multisig.transactionIndex) (.custom .transactionIndexOverflow)
  pure ({ multisig with transactionIndex := newIndex },
    { multisig := multisigKey, transactionIndex := newIndex, creator, payer, bump, vaultIndex,
      vaultBump := vault.2, executed := false, approvals := [], message })

/-- `approve_transaction`: add the member's approval, which a member can give once and only
before the execution. -/
def approveTransaction (multisigKey : Pubkey) (multisig : Multisig)
    (transaction : VaultTransaction) (member : Pubkey) (transactionIndex : UInt64) :
    Except ProgramError VaultTransaction := do
  require (transaction.multisig = multisigKey) (.custom .invalidTransaction)
  require (transaction.transactionIndex = transactionIndex) (.custom .invalidTransactionIndex)
  require (transaction.executed = false) (.custom .alreadyExecuted)
  require (member ∈ multisig.members) (.custom .unauthorizedMember)
  require (member ∉ transaction.approvals) (.custom .alreadyApproved)
  pure { transaction with approvals := transaction.approvals ++ [member] }

/-- `execute_transaction`, up to and including the mark that guards against re-entrancy. The
threshold counts the stored approvals; the executor needs none and may be anybody. -/
def executeTransaction (multisigKey : Pubkey) (multisig : Multisig)
    (transaction : VaultTransaction) (transactionIndex : UInt64) :
    Except ProgramError VaultTransaction := do
  require (transaction.multisig = multisigKey) (.custom .invalidTransaction)
  require (transaction.transactionIndex = transactionIndex) (.custom .invalidTransactionIndex)
  require (transaction.executed = false) (.custom .alreadyExecuted)
  require (multisig.threshold.toNat ≤ transaction.approvals.length) (.custom .insufficientApprovals)
  pure { transaction with executed := true }

/-- `close_transaction`: the checks of the body; the refund and the comparison with the
stored payer are the account struct's. Whether the proposal was executed is not asked. -/
def closeTransaction (multisigKey : Pubkey) (transaction : VaultTransaction)
    (transactionIndex : UInt64) : Except ProgramError Unit := do
  require (transaction.multisig = multisigKey) (.custom .invalidTransaction)
  require (transaction.transactionIndex = transactionIndex) (.custom .invalidTransactionIndex)

/-- `provision_nonce`: the seeds the multisig signs with, recomputed from the stored fields.
The stored members are sorted already, so hashing them again gives the digest of the
address. -/
def provisionNonceSeeds (env : Env) (multisig : Multisig) : List (List UInt8) :=
  multisigSeeds (hashMembers env multisig.members) multisig.threshold ++ [[multisig.bump]]

/-- The seeds an execution signs with: those of the proposal's vault, with the bump that was
stored when the proposal was created. -/
def vaultSignerSeeds (multisigKey : Pubkey) (transaction : VaultTransaction) : List (List UInt8) :=
  vaultSeeds multisigKey transaction.vaultIndex ++ [[transaction.vaultBump]]

/-- `derive_address`: the address a configuration has, for callers without the SDK. The
model returns what the source logs and sets as return data. -/
def deriveAddress (env : Env) (members : List Pubkey) (threshold : UInt8) :
    Except ProgramError Pubkey := do
  let multisigPda ← orElse (deriveMultisigPda env members threshold)
    (.runtime .programFailedToComplete)
  pure multisigPda.1

/-- `derive_vault_address`: the vault of a configuration, by deriving the multisig first. As
above the result is returned here. -/
def deriveVaultAddress (env : Env) (members : List Pubkey) (threshold vaultIndex : UInt8) :
    Except ProgramError Pubkey := do
  let multisigPda ← orElse (deriveMultisigPda env members threshold)
    (.runtime .programFailedToComplete)
  let vaultPda ← orElse (deriveVaultPda env multisigPda.1 vaultIndex)
    (.runtime .programFailedToComplete)
  pure vaultPda.1

/-! ## What an instruction leaves behind -/

/-- The record of a successful operation. Events carry what the accounts do not keep, above
all who approved and which calls an execution issued; statements about histories are about
the log of them. -/
inductive Event where
  /-- a multisig was registered -/
  | initialized (address : Pubkey) (multisig : Multisig)
  /-- a proposal was created -/
  | created (address : Pubkey) (transaction : VaultTransaction)
  /-- a member signed an approval -/
  | approved (address member : Pubkey)
  /-- an execution reached its loop of calls -/
  | entered (address multisig : Pubkey) (transactionIndex : UInt64)
  /-- an execution issued a call -/
  | invoked (address : Pubkey) (cpi : Cpi)
  /-- an execution returned -/
  | finished (address : Pubkey)
  /-- the payer closed a proposal -/
  | closed (address payer : Pubkey)
  /-- a durable nonce was provisioned, signing with these seeds -/
  | provisioned (multisig nonce : Pubkey) (signerSeeds : List (List UInt8))
  deriving DecidableEq

/-- An execution in its loop of calls. The accounts were matched when it started, so an
`Execution` cannot hold others: the field `resolved` carries the proof along. -/
structure Execution where
  /-- the multisig account -/
  multisig : AccountInfo
  /-- the address of the proposal -/
  transaction : Pubkey
  /-- the proposal as Anchor cached it, marked executed -/
  cached : VaultTransaction
  /-- all accounts of the instruction -/
  infos : List AccountInfo
  /-- those after the declared ones -/
  remaining : List AccountInfo
  /-- the next instruction of the message -/
  next : ℕ
  /-- every static key has its account -/
  resolved : resolveAccounts cached.message remaining = .ok cached.message.accountKeys
  deriving DecidableEq

/-- The result of an instruction: the new ledger, the record, and the loop still to be run.
Only `execute_transaction` leaves a loop, and the views leave no record. -/
structure Outcome where
  /-- the accounts afterwards -/
  ledger : Ledger
  /-- what happened -/
  event : Option Event
  /-- the execution entered -/
  execution : Option Execution

/-! ## Account structs -/

/-- `Program<'info, System>`: the account passed for the System program is that program. -/
def systemProgram (info : AccountInfo) : Except ProgramError Unit :=
  require (info.key = systemProgramId) (.anchor .invalidProgramId)

/-- `InitializeMultisig`: create the account at the address of the claimed digest and
threshold, sized for the claimed number of members. The handler then has to confirm both
claims. -/
def InitializeMultisig.process (env : Env) (ledger : Ledger) (infos : List AccountInfo)
    (memberHash : Bytes32) (threshold memberCount : UInt8) : Except ProgramError Outcome :=
  match infos with
  | multisig :: payer :: system :: remaining => do
    signer payer
    systemProgram system
    let bump ← seedsConstraint env multisig.key (multisigSeeds memberHash threshold)
    let allocated ← initAccount env ledger multisig payer (computeMultisigSpace memberCount.toNat)
    mutable multisig
    mutable payer
    let record ← initializeMultisig env (remaining.map AccountInfo.key) memberHash threshold
      memberCount bump
    let written ← multisigAccount.exit env allocated multisig.key record
    pure ⟨written, some (.initialized multisig.key record), none⟩
  | _ => .error (.anchor .accountNotEnoughKeys)

/-- `CreateTransaction`: the proposal is created at the address of the next index, paid by
`payer`, who may be somebody else than `creator`. Both accounts are written back at the end.
-/
def CreateTransaction.process (env : Env) (ledger : Ledger) (infos : List AccountInfo)
    (vaultIndex : UInt8) (message : TransactionMessage) : Except ProgramError Outcome :=
  match infos with
  | multisig :: transaction :: creator :: payer :: system :: _ => do
    let loaded ← multisigAccount.load env ledger multisig.key
    signer creator
    signer payer
    systemProgram system
    -- `multisig.transaction_index + 1` aborts on overflow
    let nextIndex ← orElse (checkedSucc loaded.transactionIndex) (.runtime .programFailedToComplete)
    let bump ← seedsConstraint env transaction.key (transactionSeeds multisig.key nextIndex)
    let allocated ← initAccount env ledger transaction payer
      (computeProposalSpace message loaded.members.length)
    mutable transaction
    mutable multisig
    mutable payer
    let records ← createTransaction env multisig.key loaded creator.key payer.key bump vaultIndex
      message
    let written ← multisigAccount.exit env allocated multisig.key records.1
    let written ← transactionAccount.exit env written transaction.key records.2
    pure ⟨written, some (.created transaction.key records.2), none⟩
  | _ => .error (.anchor .accountNotEnoughKeys)

/-- `ApproveTransaction`. The multisig is only read: approving one proposal touches nothing
that another proposal depends on. -/
def ApproveTransaction.process (env : Env) (ledger : Ledger) (infos : List AccountInfo)
    (transactionIndex : UInt64) : Except ProgramError Outcome :=
  match infos with
  | multisig :: transaction :: member :: _ => do
    let loadedMultisig ← multisigAccount.load env ledger multisig.key
    let loaded ← transactionAccount.load env ledger transaction.key
    signer member
    let _ ← seedsConstraint env transaction.key (transactionSeeds multisig.key transactionIndex)
    mutable transaction
    let record ← approveTransaction multisig.key loadedMultisig loaded member.key transactionIndex
    let written ← transactionAccount.exit env ledger transaction.key record
    pure ⟨written, some (.approved transaction.key member.key), none⟩
  | _ => .error (.anchor .accountNotEnoughKeys)

/-- Enter the loop: the accounts are matched before the first call, so a mismatch fails the
execution before anything was called. -/
def Execution.start (multisig : AccountInfo) (transaction : Pubkey) (cached : VaultTransaction)
    (infos remaining : List AccountInfo) : Except ProgramError Execution :=
  match h : resolveAccounts cached.message remaining with
  | .error e => .error e
  | .ok combined =>
    .ok
      { multisig, transaction, cached, infos, remaining, next := 0
        resolved := by rw [h, (resolveAccounts_eq_ok.mp h).2.1] }

/-- `ExecuteTransaction`, up to the loop of calls. The executed flag is written to the
account before the loop, so a call that comes back to this proposal finds it executed. -/
def ExecuteTransaction.process (env : Env) (ledger : Ledger) (infos : List AccountInfo)
    (transactionIndex : UInt64) : Except ProgramError Outcome :=
  match infos with
  | multisig :: transaction :: executor :: remaining => do
    let loadedMultisig ← multisigAccount.load env ledger multisig.key
    let loaded ← transactionAccount.load env ledger transaction.key
    signer executor
    let _ ← seedsConstraint env transaction.key (transactionSeeds multisig.key transactionIndex)
    mutable transaction
    let record ← executeTransaction multisig.key loadedMultisig loaded transactionIndex
    -- the explicit `exit` before the calls
    let written ← transactionAccount.exit env ledger transaction.key record
    let execution ← Execution.start multisig transaction.key record infos remaining
    pure ⟨written, some (.entered transaction.key multisig.key transactionIndex), some execution⟩
  | _ => .error (.anchor .accountNotEnoughKeys)

/-- `CloseTransaction`: only the stored payer can close, at any time, and gets the whole
balance of the account. -/
def CloseTransaction.process (env : Env) (ledger : Ledger) (infos : List AccountInfo)
    (transactionIndex : UInt64) : Except ProgramError Outcome :=
  match infos with
  | multisig :: transaction :: payer :: _ => do
    let _ ← multisigAccount.load env ledger multisig.key
    let loaded ← transactionAccount.load env ledger transaction.key
    signer payer
    let _ ← seedsConstraint env transaction.key (transactionSeeds multisig.key transactionIndex)
    mutable transaction
    require (loaded.payer = payer.key) (.custom .unauthorizedCloser)
    require (transaction.key ≠ payer.key) (.anchor .constraintClose)
    mutable payer
    closeTransaction multisig.key loaded transactionIndex
    let closed ← closeAccount ledger transaction.key payer.key
    pure ⟨closed, some (.closed transaction.key payer.key), none⟩
  | _ => .error (.anchor .accountNotEnoughKeys)

/-- What the cluster contributes to a durable nonce: the two values that an initialized
nonce account stores beside its authority. -/
structure Bank where
  /-- the latest blockhash -/
  blockhash : Bytes32
  /-- the fee per signature -/
  lamportsPerSignature : UInt64

/-- `NONCE_ACCOUNT_LENGTH`, the 80 bytes of the System program's versioned nonce state. -/
def nonceAccountLength : ℕ := 80

/-- The contents of an initialized nonce account: version, state, authority, the durable
nonce derived from the blockhash, and the fee. -/
def nonceState (env : Env) (bank : Bank) (authority : Pubkey) : List UInt8 :=
  leBytes 4 1 ++ leBytes 4 1 ++ authority.bytes ++
    (env.sha256 (ascii "DURABLE_NONCE" ++ bank.blockhash.bytes)).bytes ++
    leBytes 8 bank.lamportsPerSignature.toNat

/-- The sysvar with the recent blockhashes. -/
def recentBlockhashesId : Pubkey :=
  ⟨[6, 167, 213, 23, 25, 44, 86, 142, 224, 138, 132, 95, 115, 210, 151, 136, 207, 3, 92, 49, 69,
    178, 26, 179, 68, 216, 6, 46, 169, 64, 0, 0], rfl⟩

/-- The sysvar with the rent table. -/
def rentId : Pubkey :=
  ⟨[6, 167, 213, 23, 25, 44, 92, 81, 33, 140, 201, 76, 61, 74, 241, 127, 88, 218, 238, 8, 155,
    161, 253, 68, 227, 219, 217, 138, 0, 0, 0, 0], rfl⟩

/-- `create_nonce_account_with_seed`: the System program creates the account at the address
derived from the base, which signs through `signerSeeds`, and initializes it with the payer
as authority. An account that has lamports already cannot be created any more. -/
def createNonceAccountWithSeed (env : Env) (bank : Bank) (ledger : Ledger)
    (payer nonce base : AccountInfo) (signerSeeds : List (List UInt8)) :
    Except ProgramError Ledger := do
  let signing ← orElse (createProgramAddress env signerSeeds env.programId) (.runtime .invalidSeeds)
  require (base.key = signing ∨ base.isSigner = true) (.runtime .privilegeEscalation)
  require (payer.isSigner = true ∧ payer.isWritable = true ∧ nonce.isWritable = true)
    (.runtime .privilegeEscalation)
  require (nonce.key = createWithSeed env base.key nonceSeed systemProgramId)
    (.runtime .addressWithSeedMismatch)
  let created ← systemCreateAccount ledger payer.key nonce.key
    (env.minimumBalance nonceAccountLength) nonceAccountLength systemProgramId
  pure (Function.update created nonce.key
    { created nonce.key with data := nonceState env bank payer.key })

/-- `ProvisionNonce`: anybody may pay for the nonce of a multisig and becomes its authority.
The program signs for the multisig, and for nothing else here. -/
def ProvisionNonce.process (env : Env) (bank : Bank) (ledger : Ledger)
    (infos : List AccountInfo) : Except ProgramError Outcome :=
  match infos with
  | multisig :: nonceAccount :: payer :: recentBlockhashes :: rent :: system :: _ => do
    let loaded ← multisigAccount.load env ledger multisig.key
    signer payer
    require (rent.key = rentId) (.anchor .accountSysvarMismatch)
    systemProgram system
    mutable nonceAccount
    mutable payer
    require (recentBlockhashes.key = recentBlockhashesId) (.anchor .constraintAddress)
    let seeds := provisionNonceSeeds env loaded
    let created ← createNonceAccountWithSeed env bank ledger payer nonceAccount multisig seeds
    pure ⟨created, some (.provisioned multisig.key nonceAccount.key seeds), none⟩
  | _ => .error (.anchor .accountNotEnoughKeys)

/-- `DeriveAddress`: a view, which only needs a signer. It changes no account and leaves no
record, but fails when no address can be derived. -/
def DeriveAddress.process (ledger : Ledger) (infos : List AccountInfo)
    (derived : Except ProgramError Pubkey) : Except ProgramError Outcome :=
  match infos with
  | caller :: _ => do
    signer caller
    let _ ← derived
    pure ⟨ledger, none, none⟩
  | [] => .error (.anchor .accountNotEnoughKeys)

/-! ## Dispatch -/

/-- The arguments of an instruction, decoded: one constructor for each function of the
program module. -/
inductive ProgramInstruction where
  | initializeMultisig (memberHash : Bytes32) (threshold memberCount : UInt8)
  | createTransaction (vaultIndex : UInt8) (message : TransactionMessage)
  | approveTransaction (transactionIndex : UInt64)
  | executeTransaction (transactionIndex : UInt64)
  | closeTransaction (transactionIndex : UInt64)
  | provisionNonce
  | deriveAddress (members : List Pubkey) (threshold : UInt8)
  | deriveVaultAddress (members : List Pubkey) (threshold vaultIndex : UInt8)
  deriving DecidableEq

/-- Discriminator of `initialize_multisig`: as for the others below, the first eight bytes
of `sha256("global:<name>")`, which Anchor generates. -/
def initializeMultisigTag : List UInt8 := [220, 130, 117, 21, 27, 227, 78, 213]

/-- Discriminator of `create_transaction`. -/
def createTransactionTag : List UInt8 := [227, 193, 53, 239, 55, 126, 112, 105]

/-- Discriminator of `approve_transaction`. -/
def approveTransactionTag : List UInt8 := [224, 39, 88, 181, 36, 59, 155, 122]

/-- Discriminator of `execute_transaction`. -/
def executeTransactionTag : List UInt8 := [231, 173, 49, 91, 235, 24, 68, 19]

/-- Discriminator of `close_transaction`. -/
def closeTransactionTag : List UInt8 := [97, 46, 152, 170, 42, 215, 192, 218]

/-- Discriminator of `provision_nonce`. -/
def provisionNonceTag : List UInt8 := [253, 126, 44, 250, 91, 181, 192, 62]

/-- Discriminator of `derive_address`. -/
def deriveAddressTag : List UInt8 := [71, 80, 81, 36, 12, 97, 208, 191]

/-- Discriminator of `derive_vault_address`. -/
def deriveVaultAddressTag : List UInt8 := [121, 14, 203, 102, 197, 57, 17, 238]

/-- Read the arguments with `c`; what follows them is ignored, as Borsh's `deserialize`
leaves the rest of the slice alone. -/
def readArgs {α : Type} (c : Codec α) (args : List UInt8) (f : α → ProgramInstruction) :
    Except ProgramError ProgramInstruction := do
  let decoded ← orElse (c.decode args) (.anchor .instructionDidNotDeserialize)
  pure (f decoded.1)

/-- Which instruction the data selects, with its arguments. The tags are pairwise different,
so the order of the comparisons does not matter. -/
def parseInstruction (data : List UInt8) : Except ProgramError ProgramInstruction :=
  let tag := data.take 8
  let args := data.drop 8
  if tag = deriveAddressTag then
    readArgs (Codec.bytes32.vec.pair Codec.byte) args fun p => .deriveAddress p.1 p.2
  else if tag = deriveVaultAddressTag then
    readArgs (Codec.bytes32.vec.pair (Codec.byte.pair Codec.byte)) args
      fun p => .deriveVaultAddress p.1 p.2.1 p.2.2
  else if tag = initializeMultisigTag then
    readArgs (Codec.bytes32.pair (Codec.byte.pair Codec.byte)) args
      fun p => .initializeMultisig p.1 p.2.1 p.2.2
  else if tag = createTransactionTag then
    readArgs (Codec.byte.pair TransactionMessage.codec) args fun p => .createTransaction p.1 p.2
  else if tag = approveTransactionTag then
    readArgs Codec.u64 args fun index => .approveTransaction index
  else if tag = executeTransactionTag then
    readArgs Codec.u64 args fun index => .executeTransaction index
  else if tag = closeTransactionTag then
    readArgs Codec.u64 args fun index => .closeTransaction index
  else if tag = provisionNonceTag then .ok .provisionNonce
  else .error (.anchor .instructionFallbackNotFound)

section Tags

variable {data : List UInt8}

theorem parseInstruction_register (htag : data.take 8 = initializeMultisigTag) :
    parseInstruction data =
      readArgs (Codec.bytes32.pair (Codec.byte.pair Codec.byte)) (data.drop 8)
        fun p => .initializeMultisig p.1 p.2.1 p.2.2 := by
  unfold parseInstruction
  rw [htag]
  rfl

theorem parseInstruction_create (htag : data.take 8 = createTransactionTag) :
    parseInstruction data =
      readArgs (Codec.byte.pair TransactionMessage.codec) (data.drop 8)
        fun p => .createTransaction p.1 p.2 := by
  unfold parseInstruction
  rw [htag]
  rfl

theorem parseInstruction_approve (htag : data.take 8 = approveTransactionTag) :
    parseInstruction data =
      readArgs Codec.u64 (data.drop 8) fun index => .approveTransaction index := by
  unfold parseInstruction
  rw [htag]
  rfl

theorem parseInstruction_execute (htag : data.take 8 = executeTransactionTag) :
    parseInstruction data =
      readArgs Codec.u64 (data.drop 8) fun index => .executeTransaction index := by
  unfold parseInstruction
  rw [htag]
  rfl

theorem parseInstruction_close (htag : data.take 8 = closeTransactionTag) :
    parseInstruction data =
      readArgs Codec.u64 (data.drop 8) fun index => .closeTransaction index := by
  unfold parseInstruction
  rw [htag]
  rfl

theorem readArgs_eq_ok {α : Type} {c : Codec α} {args : List UInt8} {f : α → ProgramInstruction}
    {ix : ProgramInstruction} :
    readArgs c args f = .ok ix ↔ ∃ p, c.decode args = some p ∧ f p.1 = ix := by
  simp only [readArgs, bind_eq_ok, orElse_eq_ok, pure_eq_ok]

end Tags

/-- Run one instruction: its account struct with its arguments. Later modules prove a
property for each case here and join the cases. -/
def ProgramInstruction.process (env : Env) (bank : Bank) (ledger : Ledger)
    (infos : List AccountInfo) : ProgramInstruction → Except ProgramError Outcome
  | .initializeMultisig memberHash threshold memberCount =>
      InitializeMultisig.process env ledger infos memberHash threshold memberCount
  | .createTransaction vaultIndex message =>
      CreateTransaction.process env ledger infos vaultIndex message
  | .approveTransaction transactionIndex =>
      ApproveTransaction.process env ledger infos transactionIndex
  | .executeTransaction transactionIndex =>
      ExecuteTransaction.process env ledger infos transactionIndex
  | .closeTransaction transactionIndex =>
      CloseTransaction.process env ledger infos transactionIndex
  | .provisionNonce => ProvisionNonce.process env bank ledger infos
  | .deriveAddress members threshold =>
      DeriveAddress.process ledger infos (SolanaMultisig.deriveAddress env members threshold)
  | .deriveVaultAddress members threshold vaultIndex =>
      DeriveAddress.process ledger infos
        (SolanaMultisig.deriveVaultAddress env members threshold vaultIndex)

/-- The program's entry point: decode the data, then run what it selects. Data too short for
a discriminator selects nothing and fails. -/
def processInstruction (env : Env) (bank : Bank) (ledger : Ledger) (infos : List AccountInfo)
    (data : List UInt8) : Except ProgramError Outcome := do
  let instruction ← parseInstruction data
  instruction.process env bank ledger infos

end SolanaMultisig
