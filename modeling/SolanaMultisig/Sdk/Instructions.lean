import SolanaMultisig.ClientAddresses
import SolanaMultisig.NonceRace

/-!
# The instructions a client builds

The builders of the client for the instructions of the program, and the methods that
send them one by one. What they write the program reads back: the same index, the
same vault and message (`parseInstruction_index`, `parseInstruction_create_data`), and
the proposal addresses are the ones it derives.
-/

namespace SolanaMultisig.Sdk

open Wire Guard

variable {env : Env}

/-! ## Data -/

/-- `new BN(index.toString())` as a `u64` of Borsh: the text of the counter is read as a
number again, and one of more than 64 bits throws. -/
def encodeIndex (index : Counter) : Except String (List UInt8) := do
  let n ← orElse index.value "Invalid character"
  require (n < 2 ^ 64) "byte array longer than desired length"
  pure (leBytes 8 n)

/-- The data of an instruction whose only argument is an index: approving, executing and
closing differ in the discriminator alone. -/
def indexData (discriminator : List UInt8) (index : Counter) : Except String (List UInt8) := do
  let args ← encodeIndex index
  encodeInstruction discriminator args

/-! ## Builders -/

/-- What `buildCreateTransactionInstruction` is called with. The counter is the one read
from the account, and the instruction is for the proposal after it. -/
structure CreateOptions where
  multisigAddress : Pubkey
  currentTransactionIndex : Counter
  vaultIndex : ℤ
  message : BuiltMessage
  creator : Pubkey
  payer : Option Pubkey

/-- Build the `create_transaction` instruction. The address of the proposal is predicted
from the counter, and the creator pays the rent when no payer is given. -/
def buildCreateTransactionInstruction (env : Env) (opts : CreateOptions) (programId : Pubkey) :
    Except String CreateRequest := do
  let next ← predictNextTransactionPda env opts.multisigAddress opts.currentTransactionIndex
    programId
  let vaultIndex ← encodeU8 opts.vaultIndex
  let onchainMessage ← opts.message.onchain
  let data ← encodeInstruction createTransactionTag
    (vaultIndex :: TransactionMessage.codec.encode onchainMessage)
  let accounts : List AccountMeta :=
    [⟨opts.multisigAddress, false, true⟩, ⟨next.1, false, true⟩, ⟨opts.creator, true, false⟩,
      ⟨opts.payer.getD opts.creator, true, true⟩, ⟨systemProgramId, false, false⟩]
  pure ⟨⟨programId, accounts, data⟩, next.1, next.2⟩

/-- Build the `approve_transaction` instruction. The member signs and pays nothing. -/
def buildApproveTransactionInstruction (multisigAddress transactionAddress : Pubkey)
    (transactionIndex : Counter) (member programId : Pubkey) : Except String Instruction := do
  let data ← indexData approveTransactionTag transactionIndex
  pure ⟨programId,
    [⟨multisigAddress, false, false⟩, ⟨transactionAddress, false, true⟩, ⟨member, true, false⟩],
    data⟩

/-- Build the `execute_transaction` instruction. The accounts that the message is about come
behind the fixed ones, as the caller lists them. -/
def buildExecuteTransactionInstruction (multisigAddress transactionAddress : Pubkey)
    (transactionIndex : Counter) (executor : Pubkey) (remainingAccounts : List AccountMeta)
    (programId : Pubkey) : Except String Instruction := do
  let data ← indexData executeTransactionTag transactionIndex
  pure ⟨programId,
    [⟨multisigAddress, false, false⟩, ⟨transactionAddress, false, true⟩, ⟨executor, true, false⟩] ++
      remainingAccounts, data⟩

/-- Build the `provision_nonce` instruction, with the nonce address it is for. Anybody may
pay for it. -/
def buildProvisionNonceInstruction (env : Env) (multisigAddress payer programId : Pubkey) :
    Instruction × Pubkey :=
  let nonceAccount := deriveNonceAccount env multisigAddress
  (⟨programId,
    [⟨multisigAddress, false, false⟩, ⟨nonceAccount, false, true⟩, ⟨payer, true, true⟩,
      ⟨recentBlockhashesId, false, false⟩, ⟨rentId, false, false⟩,
      ⟨systemProgramId, false, false⟩], provisionNonceTag⟩, nonceAccount)

/-! ## Sending -/

/-- The priority fee instruction, if a fee is configured. A fee of zero or less adds
nothing. -/
def priorityInstructions (priorityFeeMicroLamports : ℤ) : List Instruction :=
  if priorityFeeMicroLamports ≤ 0 then []
  else [⟨computeBudgetProgramId, [], 3 :: leBytes 8 priorityFeeMicroLamports.toNat⟩]

/-- Approve a proposal: the instructions that are sent, without the connection that sends
them. -/
def approveTransaction (env : Env) (fee : ℤ) (multisigAddress : Pubkey)
    (transactionIndex : Counter) (member programId : Pubkey) :
    Except String (List Instruction) := do
  let transactionAddress ← proposalAddress env multisigAddress transactionIndex programId
  let ix ← buildApproveTransactionInstruction multisigAddress transactionAddress transactionIndex
    member programId
  pure (priorityInstructions fee ++ [ix])

/-- Execute an approved proposal: what is sent, with no accounts for the message when none
are given. -/
def executeTransaction (env : Env) (fee : ℤ) (multisigAddress : Pubkey)
    (transactionIndex : Counter) (executor : Pubkey) (remainingAccounts : Option (List AccountMeta))
    (programId : Pubkey) : Except String (List Instruction) := do
  let transactionAddress ← proposalAddress env multisigAddress transactionIndex programId
  let ix ← buildExecuteTransactionInstruction multisigAddress transactionAddress transactionIndex
    executor (remainingAccounts.getD []) programId
  pure (priorityInstructions fee ++ [ix])

/-- **The one-shot setup.** What is sent to initialize a multisig and to provision its
nonce, in one transaction, and the addresses of the two. -/
def setupMultisigAndNonce (env : Env) (members : List Pubkey) (threshold : ℤ)
    (payer programId : Pubkey) : Except String (List Instruction × Pubkey × Pubkey) := do
  validateConfig members threshold
  let sortedMembers := sortMembers members
  let init ← buildInitializeMultisigInstruction env sortedMembers threshold payer programId
  let provision := buildProvisionNonceInstruction env init.multisigAddress payer programId
  pure ([init.instruction, provision.1], init.multisigAddress, provision.2)

theorem encodeInstruction_eq_ok {discriminator args data : List UInt8} :
    encodeInstruction discriminator args = .ok data ↔
      args.length ≤ ixBufferSize ∧ discriminator ++ args = data := by
  simp only [encodeInstruction, bind_eq_ok, require_eq_ok, pure_eq_ok, exists_and_left,
    exists_const]

/-- An index of 64 bits always fits the buffer, and no other one is written. -/
theorem indexData_eq_ok {discriminator data : List UInt8} {index : Counter} :
    indexData discriminator index = .ok data ↔
      ∃ n : UInt64, index.value = some n.toNat ∧ discriminator ++ leBytes 8 n.toNat = data := by
  simp only [indexData, encodeIndex, bind_eq_ok, orElse_eq_ok, require_eq_ok, pure_eq_ok,
    encodeInstruction_eq_ok]
  constructor
  · rintro ⟨_, ⟨n, hn, -, hlt, rfl⟩, -, rfl⟩
    exact ⟨UInt64.ofNat n, by rw [hn, UInt64.toNat_ofNat_of_lt' hlt],
      by rw [UInt64.toNat_ofNat_of_lt' hlt]⟩
  · rintro ⟨n, hn, rfl⟩
    exact ⟨_, ⟨_, hn, (), n.toNat_lt, rfl⟩, by simp [ixBufferSize], rfl⟩

/-- The index and the address of the proposal that is created: the counter of the account
plus one, and what the program derives for that. -/
theorem predictNext_eq_ok {multisigAddress : Pubkey} {current : Counter} {p : Pubkey × Counter} :
    predictNextTransactionPda env multisigAddress current env.programId = .ok p ↔
      ∃ n : ℕ, ∃ next : UInt64, current.value = some n ∧ next.toNat = n + 1 ∧
        p.2 = .bigint next.toNat ∧
        ∃ bump, SolanaMultisig.deriveTransactionPda env multisigAddress next =
          some (p.1, bump) := by
  constructor
  · intro h
    simp only [predictNextTransactionPda, bind_eq_ok, orElse_eq_ok, pure_eq_ok] at h
    obtain ⟨n, hn, address, haddress, rfl⟩ := h
    have hlt : n + 1 < 2 ^ 64 := by
      simp only [proposalAddress, bind_eq_ok, orElse_eq_ok, require_eq_ok] at haddress
      obtain ⟨_, hvalue, -, hlt, -⟩ := haddress
      rw [show (Counter.bigint n).plusBigInt 1 = .bigint (n + 1) from rfl, value_bigint] at hvalue
      rwa [Option.some.inj hvalue]
    have hnext : (UInt64.ofNat (n + 1)).toNat = n + 1 := UInt64.toNat_ofNat_of_lt' hlt
    refine ⟨n, UInt64.ofNat (n + 1), hn, hnext, by rw [hnext]; rfl, ?_⟩
    exact (proposalAddress_eq_ok (by rw [hnext]; exact value_bigint (n + 1))).mp haddress
  · rintro ⟨n, next, hn, hnext, hindex, bump, hpda⟩
    rw [predictNextTransactionPda_eq_ok hn hnext hpda, ← hindex]

end SolanaMultisig.Sdk

namespace SolanaMultisig

open Wire Guard

/-! ## What the program reads -/

/-- An index is read as it was written, with nothing left over. -/
theorem readArgs_index (f : UInt64 → ProgramInstruction) (n : UInt64) :
    readArgs Codec.u64 (leBytes 8 n.toNat) f = .ok (f n) := by
  refine readArgs_eq_ok.mpr ⟨(n, []), ?_, rfl⟩
  exact (Codec.decode_eq_some_iff _).mpr ⟨trivial, (List.append_nil _).symm⟩

/-- **The program reads the index the client wrote**, for each of the three instructions
that have only that argument. -/
theorem parseInstruction_index (n : UInt64) :
    parseInstruction (approveTransactionTag ++ leBytes 8 n.toNat) =
        .ok (.approveTransaction n) ∧
      parseInstruction (executeTransactionTag ++ leBytes 8 n.toNat) =
        .ok (.executeTransaction n) ∧
      parseInstruction (closeTransactionTag ++ leBytes 8 n.toNat) = .ok (.closeTransaction n) := by
  have hdrop : ∀ tag : List UInt8, tag.length = 8 →
      (tag ++ leBytes 8 n.toNat).drop 8 = leBytes 8 n.toNat := fun tag htag => List.drop_left' htag
  refine ⟨?_, ?_, ?_⟩
  · rw [parseInstruction_approve (List.take_left' rfl), hdrop _ rfl, readArgs_index]
  · rw [parseInstruction_execute (List.take_left' rfl), hdrop _ rfl, readArgs_index]
  · rw [parseInstruction_close (List.take_left' rfl), hdrop _ rfl, readArgs_index]

/-- **The program reads the vault and the message the client wrote**, if the counts of the
message fit its encoding. -/
theorem parseInstruction_create_data (vaultIndex : UInt8) {message : TransactionMessage}
    (hfits : TransactionMessage.codec.Fits message) :
    parseInstruction (createTransactionTag ++
        (vaultIndex :: TransactionMessage.codec.encode message)) =
      .ok (.createTransaction vaultIndex message) := by
  have hdrop : (createTransactionTag ++
      (vaultIndex :: TransactionMessage.codec.encode message)).drop 8 =
        vaultIndex :: TransactionMessage.codec.encode message := List.drop_left' rfl
  rw [parseInstruction_create (List.take_left' rfl), hdrop, readArgs_eq_ok]
  refine ⟨((vaultIndex, message), []), ?_, rfl⟩
  exact (Codec.decode_eq_some_iff _).mpr ⟨⟨trivial, hfits⟩, (List.append_nil _).symm⟩

end SolanaMultisig
