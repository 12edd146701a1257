import SolanaMultisig.Program
import SolanaMultisig.Sdk.Build

/-!
# The client

What the client computes before it sends anything: multisig addresses, the check of
a configuration, the `initialize_multisig` and `create_transaction` instructions and
the address of the next proposal. Its sort and its hash are those of the program
(`sortMembers_eq`, `hashMembers_eq`), its checks bound the threshold but not the
number of members (`validateConfig_eq_ok`).
-/

namespace SolanaMultisig.Sdk

open Wire Guard

variable {env : Env}

/-! ## Addresses -/

/-- The byte-difference loop of the comparator. It ends at the first difference, and equal
keys compare as zero. -/
def compareBytes : List UInt8 → List UInt8 → ℤ
  | a :: as, b :: bs => if a ≠ b then (a.toNat : ℤ) - b.toNat else compareBytes as bs
  | _, _ => 0

/-- Sort members deterministically (lexicographically by public key bytes). The sort is
stable, and equal keys cannot be told apart anyway. -/
def sortMembers (members : List Pubkey) : List Pubkey :=
  members.mergeSort fun a b => decide (compareBytes a.bytes b.bytes ≤ 0)

/-- Hash members using SHA-256, fed one after the other. The digest is that of the bytes in
a row. -/
def hashMembers (env : Env) (members : List Pubkey) : Bytes32 :=
  env.sha256 (members.foldl (fun fed member => fed ++ member.bytes) [])

/-- `Buffer.from([value])[0]`: the value modulo 256. A threshold of one byte is unchanged by
it, and no check stops a larger one here. -/
def byteOf (value : ℤ) : UInt8 := UInt8.ofNat (value % 256).toNat

/-- `PublicKey.findProgramAddressSync`, with the bump, which the multisig account stores. -/
def findProgramAddressWithBump (env : Env) (seeds : List (List UInt8)) (programId : Pubkey) :
    Except String (Pubkey × UInt8) :=
  orElse (findProgramAddress env seeds programId) "Unable to find a viable program address nonce"

/-- Derive the multisig PDA address from the sorted members and the threshold, so that any
order of the members gives the same one. -/
def deriveMultisigAddress (env : Env) (members : List Pubkey) (threshold : ℤ)
    (programId : Pubkey) : Except String (Pubkey × UInt8) :=
  let sortedMembers := sortMembers members
  let memberHash := hashMembers env sortedMembers
  findProgramAddressWithBump env [ascii "multisig", memberHash.bytes, [byteOf threshold]] programId

/-- Validate multisig configuration. Keys are compared by their texts, and the number of
members has no upper bound. -/
def validateConfig (members : List Pubkey) (threshold : ℤ) : Except String Unit := do
  require (0 < threshold) "Threshold must be greater than 0"
  require (threshold ≤ members.length)
    ("Threshold (" ++ toString threshold ++ ") cannot exceed number of members (" ++
      toString members.length ++ ")")
  require (members ≠ []) "Members array cannot be empty"
  require (members.map toBase58).Nodup "Duplicate members detected"

/-- Derive the deterministic multisig address of a configuration that passes the checks. -/
def deriveAddress (env : Env) (members : List Pubkey) (threshold : ℤ) (programId : Pubkey) :
    Except String Pubkey := do
  validateConfig members threshold
  let derived ← deriveMultisigAddress env members threshold programId
  pure derived.1

/-! ## Instruction data -/

/-- The scratch buffer for the arguments of an instruction, in bytes. The client makes it
larger than the 1000 bytes of Anchor, so that the message of a proposal fits. -/
def ixBufferSize : ℕ := 2000

/-- The patched encoder: the discriminator, then the arguments, which have to fit the
buffer. The 34 bytes of `initialize_multisig` always do. -/
def encodeInstruction (discriminator args : List UInt8) : Except String (List UInt8) := do
  require (args.length ≤ ixBufferSize) "encoding overruns Buffer"
  pure (discriminator ++ args)

/-! ## `initialize_multisig` -/

/-- An `initialize_multisig` instruction, ready to be sent, with the address it initializes.
-/
structure InitializeRequest where
  instruction : Instruction
  multisigAddress : Pubkey
  bump : UInt8

/-- The instruction data: discriminator, member hash, threshold and member count. The two
numbers are written as bytes, and one that does not fit throws. -/
def initializeMultisigData (memberHash : Bytes32) (threshold memberCount : ℤ) :
    Except String (List UInt8) := do
  let threshold ← encodeU8 threshold
  let memberCount ← encodeU8 memberCount
  pure (initializeMultisigTag ++ memberHash.bytes ++ [threshold, memberCount])

/-- **Build the `initialize_multisig` instruction.** The members are listed sorted behind
the fixed accounts, in the order their hash was computed in. -/
def buildInitializeMultisigInstruction (env : Env) (members : List Pubkey) (threshold : ℤ)
    (payer programId : Pubkey) : Except String InitializeRequest := do
  validateConfig members threshold
  let sortedMembers := sortMembers members
  let derived ← deriveMultisigAddress env sortedMembers threshold programId
  let memberHash := hashMembers env sortedMembers
  let data ← initializeMultisigData memberHash threshold sortedMembers.length
  let accounts : List AccountMeta :=
    ⟨derived.1, false, true⟩ :: ⟨payer, true, true⟩ :: ⟨systemProgramId, false, false⟩ ::
      sortedMembers.map fun pubkey => ⟨pubkey, false, false⟩
  pure ⟨⟨programId, accounts, data⟩, derived.1, derived.2⟩

/-! ## The next proposal -/

/-- A proposal counter as JavaScript holds it: a big integer, the `BN` object that
decoding an account gives, or a string. -/
inductive Counter where
  | bigint (n : ℕ)
  | bn (n : ℕ)
  | string (s : String)
  deriving DecidableEq

/-- `value.toString()`, which normalizes all three. -/
def Counter.text : Counter → String
  | .bigint n => toString n
  | .bn n => toString n
  | .string s => s

/-- `value + BigInt(k)`: big integers are added, anything else is turned into a string and
concatenated. So one more than five, as a `BN`, is fifty-one. -/
def Counter.plusBigInt : Counter → ℕ → Counter
  | .bigint n, k => .bigint (n + k)
  | value, k => .string (value.text ++ toString k)

/-- The number a counter stands for, read from its text: decimal digits only, which is what
the first two constructors have. -/
def Counter.value (c : Counter) : Option ℕ := decimal c.text

/-- The seeds `["transaction", multisig, index]`, with the index read by `new BN(text)` and
written as eight little-endian bytes. -/
def proposalAddress (env : Env) (multisigAddress : Pubkey) (index : Counter)
    (programId : Pubkey) : Except String Pubkey := do
  let n ← orElse index.value "Invalid character"
  require (n < 2 ^ 64) "byte array longer than desired length"
  findProgramAddressSync env [ascii "transaction", multisigAddress.bytes, leBytes 8 n] programId

/-- The proposal that will be created next: normalize the counter, then add. The result is a
big integer whatever the counter was. -/
def predictNextTransactionPda (env : Env) (multisigAddress : Pubkey) (current : Counter)
    (programId : Pubkey) : Except String (Pubkey × Counter) := do
  let currentBig ← orElse current.value ("Cannot convert " ++ current.text ++ " to a BigInt")
  let transactionIndex := (Counter.bigint currentBig).plusBigInt 1
  let transactionAddress ← proposalAddress env multisigAddress transactionIndex programId
  pure (transactionAddress, transactionIndex)

/-- The data of a multisig account, its counter as it was decoded. -/
structure MultisigConfig where
  members : List Pubkey
  threshold : ℕ
  transactionIndex : Counter
  bump : ℕ

/-- Fetching a multisig account; the counter of a decoded account is a `BN`. An account that
cannot be fetched or decoded gives nothing. -/
def getMultisig (fetch : Pubkey → Except String Multisig) (address : Pubkey) :
    Option MultisigConfig :=
  match fetch address with
  | .ok account =>
      some ⟨account.members, account.threshold.toNat, .bn account.transactionIndex.toNat,
        account.bump.toNat⟩
  | .error _ => none

/-- A `create_transaction` instruction, as it is sent, with the proposal it is thought to
create. -/
structure CreateRequest where
  instruction : Instruction
  transactionAddress : Pubkey
  transactionIndex : Counter

/-- The index and the address `createTransactionFromMessage` computes first. It adds to the
counter as it was decoded. -/
def nextFromAccount (env : Env) (fetch : Pubkey → Except String Multisig)
    (multisigAddress programId : Pubkey) : Except String (Pubkey × Counter) := do
  let multisig ← orElse (getMultisig fetch multisigAddress) "Multisig not found"
  -- no `.toString()` here: the counter is a `BN`
  let transactionIndex := multisig.transactionIndex.plusBigInt 1
  let transactionAddress ← proposalAddress env multisigAddress transactionIndex programId
  pure (transactionAddress, transactionIndex)

/-- Create a transaction proposal from a pre-built message, up to the point where the
instruction is sent. The creator pays the rent when no payer is given. -/
def createTransactionFromMessage (env : Env) (fetch : Pubkey → Except String Multisig)
    (multisigAddress : Pubkey) (vaultIndex : ℤ) (message : BuiltMessage) (creator : Pubkey)
    (payer : Option Pubkey) (programId : Pubkey) : Except String CreateRequest := do
  let next ← nextFromAccount env fetch multisigAddress programId
  let rentPayer := payer.getD creator
  let vaultIndex ← encodeU8 vaultIndex
  let onchainMessage ← message.onchain
  let accounts : List AccountMeta :=
    [⟨multisigAddress, false, true⟩, ⟨next.1, false, true⟩, ⟨creator, true, false⟩,
      ⟨rentPayer, true, true⟩, ⟨systemProgramId, false, false⟩]
  let data ← encodeInstruction createTransactionTag
    (vaultIndex :: TransactionMessage.codec.encode onchainMessage)
  pure ⟨⟨programId, accounts, data⟩, next.1, next.2⟩

/-! ## Agreement with the program -/

theorem compareBytes_le_iff {as bs : List UInt8} (h : as.length = bs.length) :
    compareBytes as bs ≤ 0 ↔ as.map UInt8.toNat ≤ bs.map UInt8.toNat := by
  induction as generalizing bs with
  | nil =>
    obtain rfl := List.length_eq_zero_iff.mp h.symm
    simp [compareBytes]
  | cons a as ih =>
    cases bs with
    | nil => cases h
    | cons b bs =>
      have ih' := ih (Nat.succ.inj h)
      rw [compareBytes, List.map_cons, List.map_cons, ← not_lt (a := b.toNat :: _),
        List.cons_lt_cons_iff]
      by_cases hab : a = b
      · simp [hab, ih']
      · have hne : b.toNat ≠ a.toNat := fun he => hab (UInt8.toNat_inj.mp he.symm)
        rw [if_pos hab]
        simp only [hne, false_and, or_false, not_lt]
        omega

/-- The comparator is the order of the program's sort, as keys have the same length. -/
theorem compare_le_iff (a b : Pubkey) : compareBytes a.bytes b.bytes ≤ 0 ↔ a ≤ b := by
  rw [compareBytes_le_iff (by simp), Bytes32.le_iff]
  rfl

theorem pairwise_sortMembers (members : List Pubkey) :
    (sortMembers members).Pairwise (· ≤ ·) := by
  have h : (sortMembers members).Pairwise fun a b : Pubkey =>
      decide (compareBytes a.bytes b.bytes ≤ 0) = true :=
    List.pairwise_mergeSort (fun a b c => by simpa [compare_le_iff] using le_trans)
      (fun a b => by simpa [compare_le_iff] using le_total a b) members
  exact h.imp fun hle => (compare_le_iff _ _).mp (of_decide_eq_true hle)

/-- **Both sides sort alike**, though with different algorithms: a sorted rearrangement is
unique. -/
theorem sortMembers_eq (members : List Pubkey) :
    sortMembers members = SolanaMultisig.sortMembers members := by
  have hperm : (sortMembers members).Perm (Scan.sorted members) :=
    (List.mergeSort_perm members _).trans (Scan.sorted_perm members).symm
  exact hperm.eq_of_pairwise (fun a b _ _ hab hba => le_antisymm hab hba)
    (pairwise_sortMembers members) (Scan.sortedLE_sorted members).pairwise

/-- And hash alike: feeding the digest one member after the other is hashing their bytes in
a row. -/
theorem hashMembers_eq (env : Env) (members : List Pubkey) :
    hashMembers env members = SolanaMultisig.hashMembers env members := by
  have hfold : ∀ fed : List UInt8, members.foldl (fun fed member => fed ++ member.bytes) fed =
      fed ++ members.flatMap Bytes32.bytes := by
    induction members with
    | nil => simp
    | cons member members ih => simp [ih]
  rw [hashMembers, hfold, List.nil_append]
  rfl

/-- A number of one byte is that byte, as it is not changed by the modulus. -/
@[simp] theorem byteOf_toNat (b : UInt8) : byteOf b.toNat = b := by
  have hb := b.toNat_lt
  rw [byteOf, show ((b.toNat : ℤ) % 256).toNat = b.toNat by omega, UInt8.ofNat_toNat]

/-- **Both sides derive alike**, for thresholds of one byte. So the client waits at the
address that the program initializes. -/
theorem deriveMultisigAddress_eq_ok {members : List Pubkey} {threshold : UInt8}
    {p : Pubkey × UInt8} :
    deriveMultisigAddress env members threshold.toNat env.programId = .ok p ↔
      deriveMultisigPda env members threshold = some p := by
  rw [deriveMultisigAddress, findProgramAddressWithBump, orElse_eq_ok, sortMembers_eq,
    hashMembers_eq, byteOf_toNat]
  rfl

/-- **The checks of a configuration, as one condition.** An empty list is excluded by the
threshold already. -/
theorem validateConfig_eq_ok {members : List Pubkey} {threshold : ℤ} :
    validateConfig members threshold = .ok () ↔
      0 < threshold ∧ threshold ≤ members.length ∧ members.Nodup := by
  simp only [validateConfig, bind_eq_ok, require_eq_ok]
  rw [List.nodup_map_iff toBase58_injective]
  constructor
  · rintro ⟨-, h₁, -, h₂, -, -, h₃⟩
    exact ⟨h₁, h₂, h₃⟩
  · rintro ⟨h₁, h₂, h₃⟩
    refine ⟨(), h₁, (), h₂, (), ?_, h₃⟩
    rintro rfl
    simp only [List.length_nil] at h₂
    omega

/-- Sorting before deriving changes nothing, as deriving sorts again. -/
theorem deriveMultisigAddress_sortMembers (members : List Pubkey) (threshold : ℤ)
    (programId : Pubkey) :
    deriveMultisigAddress env (SolanaMultisig.sortMembers members) threshold programId =
      deriveMultisigAddress env members threshold programId := by
  have hsorted : Scan.sorted (Scan.sorted members) = Scan.sorted members :=
    Scan.sorted_eq_self (Scan.sortedLE_sorted members)
  simp only [deriveMultisigAddress, sortMembers_eq, SolanaMultisig.sortMembers, hsorted]

/-- What the client asks `initialize_multisig` for, written with bytes and with the
program's own sort and hash. -/
def InitializeRequest.of (env : Env) (members : List Pubkey) (threshold memberCount : UInt8)
    (payer multisigAddress : Pubkey) (bump : UInt8) : InitializeRequest where
  instruction :=
    ⟨env.programId,
      ⟨multisigAddress, false, true⟩ :: ⟨payer, true, true⟩ :: ⟨systemProgramId, false, false⟩ ::
        (SolanaMultisig.sortMembers members).map fun pubkey => ⟨pubkey, false, false⟩,
      initializeMultisigTag ++
        (SolanaMultisig.hashMembers env (SolanaMultisig.sortMembers members)).bytes ++
        [threshold, memberCount]⟩
  multisigAddress := multisigAddress
  bump := bump

/-- **What the client builds**, for a valid configuration whose numbers fit a byte. Nothing
else is built, and nothing else stops it. -/
theorem buildInitializeMultisigInstruction_eq_ok {members : List Pubkey} {threshold : ℤ}
    {payer : Pubkey} {request : InitializeRequest} :
    buildInitializeMultisigInstruction env members threshold payer env.programId = .ok request ↔
      validateConfig members threshold = .ok () ∧
      ∃ p, deriveMultisigAddress env members threshold env.programId = .ok p ∧
      ∃ t n : UInt8, (t.toNat : ℤ) = threshold ∧ (n.toNat : ℤ) = members.length ∧
        InitializeRequest.of env members t n payer p.1 p.2 = request := by
  simp only [buildInitializeMultisigInstruction, initializeMultisigData, bind_eq_ok, pure_eq_ok,
    encodeU8_eq_ok, deriveMultisigAddress_sortMembers, sortMembers_eq, hashMembers_eq,
    InitializeRequest.of]
  have hlen : (SolanaMultisig.sortMembers members).length = members.length :=
    Scan.length_sorted members
  constructor
  · rintro ⟨_, hvalid, p, hp, data, ⟨t, ht, n, hn, rfl⟩, rfl⟩
    exact ⟨hvalid, p, hp, t, n, ht, by rw [hn, hlen], rfl⟩
  · rintro ⟨hvalid, p, hp, t, n, ht, hn, rfl⟩
    exact ⟨(), hvalid, p, hp, _, ⟨t, ht, n, by rw [hn, hlen], rfl⟩, rfl⟩

/-! ## Adding one -/

/-- Writing a digit behind a number makes it ten times as large, plus the digit. -/
theorem decimal_append_digit (n : ℕ) {k : ℕ} (hk : k < 10) :
    decimal (toString n ++ toString k) = some (10 * n + k) := by
  have hn : (toString n).toList = Nat.toDigits 10 n := Nat.toList_repr
  have hk' : (toString k).toList = [k.digitChar] := by
    rw [show (toString k).toList = Nat.toDigits 10 k from Nat.toList_repr,
      Nat.toDigits_of_lt_base hk]
  have hdigits : (Nat.toDigits 10 n ++ [k.digitChar]).all Char.isDigit = true := by
    rw [← Nat.toDigits_of_lt_base (b := 10) hk]
    simp only [List.all_append, Bool.and_eq_true, List.all_eq_true]
    exact ⟨fun c hc => Nat.isDigit_of_mem_toDigits (by decide) (by decide) hc,
      fun c hc => Nat.isDigit_of_mem_toDigits (by decide) (by decide) hc⟩
  rw [decimal, String.toList_append, hn, hk', if_pos ⟨by simp, hdigits⟩,
    Nat.ofDigitChars_append, Nat.ofDigitChars_ten_toDigits,
    Nat.ofDigitChars_cons_digitChar_of_lt_ten hk, Nat.ofDigitChars_nil]

@[simp] theorem value_bigint (n : ℕ) : (Counter.bigint n).value = some n := decimal_toString n

@[simp] theorem value_bn (n : ℕ) : (Counter.bn n).value = some n := decimal_toString n

/-- A `BN` plus a big integer is neither: one more becomes a digit more. -/
theorem value_bn_plusBigInt (n : ℕ) : ((Counter.bn n).plusBigInt 1).value = some (10 * n + 1) :=
  decimal_append_digit n (by decide)

/-- The address computed for an index is the one the program derives, with some bump. -/
theorem proposalAddress_eq_ok {multisigAddress address : Pubkey} {index : Counter} {n : UInt64}
    (hn : index.value = some n.toNat) :
    proposalAddress env multisigAddress index env.programId = .ok address ↔
      ∃ bump, deriveTransactionPda env multisigAddress n = some (address, bump) := by
  have hlt : n.toNat < 2 ^ 64 := n.toNat_lt
  simp only [proposalAddress, hn, findProgramAddressSync, bind_eq_ok, orElse_eq_ok,
    require_eq_ok, pure_eq_ok]
  constructor
  · rintro ⟨_, he, -, -, ⟨address, bump⟩, hfind, rfl⟩
    obtain rfl := Option.some.inj he
    exact ⟨bump, hfind⟩
  · rintro ⟨bump, hfind⟩
    exact ⟨_, rfl, (), hlt, (address, bump), hfind, rfl⟩

end SolanaMultisig.Sdk
