import SolanaMultisig.Address

/-!
# Messages: from validation to calls

`create_transaction` validates a message once; `execute_transaction` later
resolves its indexes against the accounts of the outer transaction and builds
one call per instruction. A valid message (`ValidMessage`) resolves without
error into calls that depend on the message alone (`compileCpi_of_valid`): the
accounts of the executor choose nothing.
-/

namespace SolanaMultisig

open Wire Guard

variable {env : Env}

/-! ## Validation at creation -/

/-- A failed check of the message, with the line it logs (`require_msg!`): the code is
`InvalidMessage` for all of them, only the line tells them apart. -/
def messageError (log : String) : ProgramError := .logged .invalidMessage log

/-- The length limits of one instruction, checked before anything is written so that the
error names the limit and not the encoder. -/
def validateBounds (ix : CompiledInstruction) : Except ProgramError Unit := do
  require (ix.accountIndexes.length ≤ maxInstructionAccounts)
    (messageError "InvalidMessage: instruction account_indexes exceeds MAX_INSTRUCTION_ACCOUNTS")
  require (ix.data.length ≤ maxInstructionDataLen)
    (messageError "InvalidMessage: instruction data exceeds MAX_INSTRUCTION_DATA_LEN")

/-- The indexes of one instruction, against the number of accounts. The program may not be
the vault at index 0, and every index must name a static key. -/
def validateIndexes (combinedCount : ℕ) (ix : CompiledInstruction) : Except ProgramError Unit := do
  require (1 ≤ ix.programIdIndex.toNat)
    (messageError "InvalidMessage: program_id_index points to vault (index 0)")
  require (ix.programIdIndex.toNat < combinedCount)
    (messageError "InvalidMessage: program_id_index out of bounds")
  forEach (fun idx => require (idx.toNat < combinedCount)
    (messageError "InvalidMessage: account index out of bounds")) ix.accountIndexes

/-- The message checks of `create_transaction`, in order. They run once: what passes is
stored, and the execution relies on it (`ValidMessage`). -/
def validateMessage (message : TransactionMessage) (expectedVaultPda : Pubkey) :
    Except ProgramError Unit := do
  require (message.accountKeys ≠ [])
    (messageError "InvalidMessage: account_keys must not be empty")
  require (message.accountKeys.length ≤ maxTxAccountKeys)
    (messageError "InvalidMessage: account_keys exceeds MAX_TX_ACCOUNT_KEYS")
  require (message.instructions ≠ [])
    (messageError "InvalidMessage: instructions must not be empty")
  require (message.instructions.length ≤ maxTxInstructions)
    (messageError "InvalidMessage: instructions exceeds MAX_TX_INSTRUCTIONS")
  -- the header
  require (message.numSigners.toNat ≤ message.accountKeys.length)
    (messageError "InvalidMessage: num_signers > account_keys.len")
  require (message.numWritableSigners ≤ message.numSigners)
    (messageError "InvalidMessage: num_writable_signers > num_signers")
  require (message.numWritableNonSigners.toNat ≤
      message.accountKeys.length - message.numSigners.toNat)
    (messageError "InvalidMessage: num_writable_non_signers > non-signer slots")
  -- at execution a signer slot would borrow any signature of the outer transaction
  require (message.numSigners = 1)
    (messageError "InvalidMessage: num_signers must be exactly 1 (only the vault PDA may sign)")
  require (message.accountKeys[0]? = some expectedVaultPda)
    (messageError "InvalidMessage: account_keys[0] must equal the vault PDA at vault_index")
  require (1 ≤ message.numWritableSigners)
    (messageError
      "InvalidMessage: num_writable_signers must be >= 1 (vault must be a writable signer)")
  require (Scan.adjacentDistinct (Scan.sorted message.accountKeys) = true)
    (messageError "InvalidMessage: duplicate entry in account_keys")
  -- the instructions, first by size and then by index
  forEach validateBounds message.instructions
  require (message.addressTableLookups = [])
    (messageError
      "InvalidMessage: address_table_lookups must be empty (use static account_keys instead)")
  require (message.accountKeys.length ≤ maxCombinedAccounts)
    (messageError "InvalidMessage: account count > 256 (Solana u8 index cap)")
  forEach (validateIndexes message.accountKeys.length) message.instructions

/-- An instruction whose indexes and lengths are within bounds: what the two loops over the
instructions establish for each of them. -/
structure ValidInstruction (combinedCount : ℕ) (ix : CompiledInstruction) : Prop where
  /-- not too many accounts -/
  accounts_le : ix.accountIndexes.length ≤ maxInstructionAccounts
  /-- not too much data -/
  data_le : ix.data.length ≤ maxInstructionDataLen
  /-- the program is not the vault -/
  one_le_program : 1 ≤ ix.programIdIndex.toNat
  /-- the program is listed -/
  program_lt : ix.programIdIndex.toNat < combinedCount
  /-- the accounts are listed -/
  account_lt : ∀ idx ∈ ix.accountIndexes, idx.toNat < combinedCount

/-- What the checks establish: the vault is the only signer, writable and first; keys are
distinct; every index is in range. With one signer no key but the vault's can sign in a
call, so a message cannot borrow the signature of whoever executes it. -/
structure ValidMessage (message : TransactionMessage) (vault : Pubkey) : Prop where
  /-- not too many keys -/
  keys_le : message.accountKeys.length ≤ maxTxAccountKeys
  /-- something to do -/
  instructions_ne : message.instructions ≠ []
  /-- not too much of it -/
  instructions_le : message.instructions.length ≤ maxTxInstructions
  /-- one signer -/
  numSigners_eq : message.numSigners = 1
  /-- which is writable -/
  numWritableSigners_eq : message.numWritableSigners = 1
  /-- the writable block fits behind it -/
  nonSigners_le : message.numWritableNonSigners.toNat ≤ message.accountKeys.length - 1
  /-- the signer is the vault -/
  vault_first : message.accountKeys[0]? = some vault
  /-- no key is listed twice -/
  nodup : message.accountKeys.Nodup
  /-- no lookup tables -/
  lookups_eq : message.addressTableLookups = []
  /-- the instructions are in range -/
  valid : ∀ ix ∈ message.instructions, ValidInstruction message.accountKeys.length ix

theorem validateBounds_eq_ok {ix : CompiledInstruction} :
    validateBounds ix = .ok () ↔
      ix.accountIndexes.length ≤ maxInstructionAccounts ∧
        ix.data.length ≤ maxInstructionDataLen := by
  simp [validateBounds]

theorem validateIndexes_eq_ok {n : ℕ} {ix : CompiledInstruction} :
    validateIndexes n ix = .ok () ↔
      1 ≤ ix.programIdIndex.toNat ∧ ix.programIdIndex.toNat < n ∧
        ∀ idx ∈ ix.accountIndexes, idx.toNat < n := by
  simp [validateIndexes]

/-- Between `1` and `1` there is one `u8`. -/
theorem eq_one_of_le {a b : UInt8} (hb : b = 1) (hle : a ≤ b) (hge : 1 ≤ a) : a = 1 := by
  subst hb
  exact UInt8.le_antisymm hle hge

/-- **The message checks, as one condition.** They pass exactly on the valid messages;
proofs about stored proposals start from the fields of `ValidMessage`. -/
theorem validateMessage_eq_ok {message : TransactionMessage} {vault : Pubkey} :
    validateMessage message vault = .ok () ↔ ValidMessage message vault := by
  simp only [validateMessage, bind_eq_ok, require_eq_ok, forEach_eq_ok, validateBounds_eq_ok,
    validateIndexes_eq_ok, exists_and_left, exists_const, Scan.adjacentDistinct_sorted_iff]
  constructor
  · rintro ⟨-, hkeys, hne, hixs, -, hws, hwns, hns, hvault, hw, hnodup, hbounds, hlookups, -,
      hindexes⟩
    exact
      { keys_le := hkeys
        instructions_ne := hne
        instructions_le := hixs
        numSigners_eq := hns
        numWritableSigners_eq := eq_one_of_le hns hws hw
        nonSigners_le := by simpa [hns] using hwns
        vault_first := hvault
        nodup := hnodup
        lookups_eq := hlookups
        valid := fun ix hix =>
          ⟨(hbounds ix hix).1, (hbounds ix hix).2, (hindexes ix hix).1, (hindexes ix hix).2.1,
            (hindexes ix hix).2.2⟩ }
  · intro h
    have hpos : 0 < message.accountKeys.length := by
      have hfirst := h.vault_first
      by_contra hzero
      rw [List.getElem?_eq_none (by omega)] at hfirst
      cases hfirst
    refine ⟨List.ne_nil_of_length_pos hpos, h.keys_le, h.instructions_ne, h.instructions_le, ?_,
      ?_, ?_, h.numSigners_eq, h.vault_first, ?_, h.nodup,
      fun ix hix => ⟨(h.valid ix hix).accounts_le, (h.valid ix hix).data_le⟩, h.lookups_eq,
      h.keys_le.trans (by decide),
      fun ix hix => ⟨(h.valid ix hix).one_le_program, (h.valid ix hix).program_lt,
        (h.valid ix hix).account_lt⟩⟩
    · rw [h.numSigners_eq]
      exact hpos
    · rw [h.numWritableSigners_eq, h.numSigners_eq]
      exact UInt8.le_refl 1
    · rw [h.numSigners_eq]
      exact h.nonSigners_le
    · rw [h.numWritableSigners_eq]
      exact UInt8.le_refl 1

/-! ## Resolution at execution -/

/-- The static section: `remaining[i]` must be `account_keys[i]`. Accounts beyond the static
keys are passed over. -/
def matchKeys : List Pubkey → List AccountInfo → Except ProgramError (List Pubkey)
  | [], _ => .ok []
  | _ :: _, [] => .error (.custom .insufficientRemainingAccounts)
  | expectedKey :: keys, info :: remaining => do
    require (info.key = expectedKey) (.custom .accountMismatch)
    let combined ← matchKeys keys remaining
    pure (expectedKey :: combined)

/-- The account list of an execution: the static keys, matched one by one against the
remaining accounts. The executor may load them however it likes, but not choose others. -/
def resolveAccounts (message : TransactionMessage) (remaining : List AccountInfo) :
    Except ProgramError (List Pubkey) := do
  require (message.accountKeys.length ≤ maxCombinedAccounts) (.custom .invalidMessage)
  require (message.accountKeys.length ≤ remaining.length) (.custom .insufficientRemainingAccounts)
  matchKeys message.accountKeys remaining

theorem matchKeys_eq_ok {keys combined : List Pubkey} {remaining : List AccountInfo} :
    matchKeys keys remaining = .ok combined ↔
      combined = keys ∧ (remaining.take keys.length).map AccountInfo.key = keys := by
  induction keys generalizing remaining combined with
  | nil => simp [matchKeys, eq_comm]
  | cons k keys ih =>
    cases remaining with
    | nil => simp [matchKeys]
    | cons info remaining =>
      simp only [matchKeys, bind_eq_ok, require_eq_ok, pure_eq_ok, ih, List.length_cons,
        List.take_succ_cons, List.map_cons, List.cons.injEq]
      constructor
      · rintro ⟨-, hk, _, ⟨rfl, hmap⟩, rfl⟩
        exact ⟨rfl, hk, hmap⟩
      · rintro ⟨rfl, hk, hmap⟩
        exact ⟨(), hk, keys, ⟨rfl, hmap⟩, rfl⟩

/-- Resolution succeeds when the keys match, and gives back the keys: whatever the executor
passed, the combined list is the one the members approved. -/
theorem resolveAccounts_eq_ok {message : TransactionMessage} {remaining : List AccountInfo}
    {combined : List Pubkey} :
    resolveAccounts message remaining = .ok combined ↔
      message.accountKeys.length ≤ maxCombinedAccounts ∧ combined = message.accountKeys ∧
        (remaining.take message.accountKeys.length).map AccountInfo.key = message.accountKeys := by
  simp only [resolveAccounts, bind_eq_ok, require_eq_ok, matchKeys_eq_ok, exists_and_left,
    exists_const]
  constructor
  · rintro ⟨hcap, -, hrest⟩
    exact ⟨hcap, hrest⟩
  · rintro ⟨hcap, hcombined, hmap⟩
    refine ⟨hcap, ?_, hcombined, hmap⟩
    have hlen := congrArg List.length hmap
    rw [List.length_map, List.length_take] at hlen
    omega

/-- A matched account has the listed key. -/
theorem key_of_resolved {keys : List Pubkey} {remaining : List AccountInfo}
    (h : (remaining.take keys.length).map AccountInfo.key = keys) {i : ℕ} {k : Pubkey}
    (hk : keys[i]? = some k) : ∃ info, remaining[i]? = some info ∧ info.key = k := by
  have hi : i < keys.length := (List.getElem?_eq_some_iff.mp hk).1
  rw [← h, List.getElem?_map, List.getElem?_take_of_lt hi] at hk
  obtain ⟨info, hinfo, hkey⟩ := Option.map_eq_some_iff.mp hk
  exact ⟨info, hinfo, hkey⟩

/-! ## Building the calls -/

/-- A call with the accounts handed over and the seeds it is signed with, as `invoke_signed`
takes them. -/
structure Cpi where
  /-- the instruction -/
  instruction : Instruction
  /-- the accounts passed along, the program last -/
  accountInfos : List AccountInfo
  /-- the caller's seeds -/
  signerSeeds : List (List UInt8)
  deriving DecidableEq

/-- Any of the first `num_signers` slots signs; in a valid message that is the vault alone.
-/
def TransactionMessage.isSigner (message : TransactionMessage) (i : ℕ) : Bool :=
  decide (i < message.numSigners.toNat)

/-- Writable signers come first, then writable non-signers; everything else is read-only.
The four branches are those of the source, also where validation leaves some of them empty.
-/
def TransactionMessage.isWritable (message : TransactionMessage) (i : ℕ) : Bool :=
  if i < message.numWritableSigners.toNat then true
  else if i < message.numSigners.toNat then false
  else if i < message.numSigners.toNat + message.numWritableNonSigners.toNat then true
  else false

/-- One account of a call: its meta and the account passed for it. For the multisig that is
the instruction's own handle, for any other key the remaining account in the same position.
-/
def cpiAccount (message : TransactionMessage) (combined : List Pubkey) (multisig : AccountInfo)
    (remaining : List AccountInfo) (rawIndex : UInt8) :
    Except ProgramError (AccountMeta × AccountInfo) := do
  let i := rawIndex.toNat
  let pubkey ← orElse combined[i]? (.custom .invalidMessage)
  let info ← orElse (if pubkey = multisig.key then some multisig else remaining[i]?)
    (.runtime .programFailedToComplete)
  pure (⟨pubkey, message.isSigner i, message.isWritable i⟩, info)

/-- One call of an execution: look up the program and the accounts by index, attach the
flags of the header, and hand over the accounts with the program last. -/
def compileCpi (message : TransactionMessage) (combined : List Pubkey) (multisig : AccountInfo)
    (remaining : List AccountInfo) (signerSeeds : List (List UInt8))
    (compiled : CompiledInstruction) : Except ProgramError Cpi := do
  let programId ← orElse combined[compiled.programIdIndex.toNat]?
    (messageError "InvalidMessage: program_id_index out of bounds at execute")
  let accounts ← collect (cpiAccount message combined multisig remaining) compiled.accountIndexes
  let program ← orElse
    (if programId = multisig.key then some multisig
      else remaining[compiled.programIdIndex.toNat]?)
    (.runtime .programFailedToComplete)
  pure
    { instruction := ⟨programId, accounts.map Prod.fst, compiled.data⟩
      accountInfos := accounts.map Prod.snd ++ [program]
      signerSeeds := signerSeeds }

/-! ## What a call is, from the message alone -/

/-- The key at an index. The default is never reached in a valid message; it makes the
function total, so that statements about calls need no side condition. -/
def TransactionMessage.key (message : TransactionMessage) (i : UInt8) : Pubkey :=
  message.accountKeys.getD i.toNat Bytes32.zero

/-- The meta an index stands for. -/
def TransactionMessage.accountMeta (message : TransactionMessage) (i : UInt8) : AccountMeta :=
  ⟨message.key i, message.isSigner i.toNat, message.isWritable i.toNat⟩

/-- The instruction a compiled instruction stands for: a function of the message alone, to
which every call an execution builds is compared. -/
def TransactionMessage.instruction (message : TransactionMessage) (ix : CompiledInstruction) :
    Instruction :=
  ⟨message.key ix.programIdIndex, ix.accountIndexes.map message.accountMeta, ix.data⟩

theorem TransactionMessage.key_of_getElem? {message : TransactionMessage} {i : UInt8} {k : Pubkey}
    (h : message.accountKeys[i.toNat]? = some k) : message.key i = k := by
  rw [key, List.getD_eq_getElem?_getD, h, Option.getD_some]

theorem TransactionMessage.getElem?_of_lt {message : TransactionMessage} {i : UInt8}
    (h : i.toNat < message.accountKeys.length) :
    message.accountKeys[i.toNat]? = some (message.key i) := by
  rw [key, List.getD_eq_getElem?_getD, List.getElem?_eq_getElem h, Option.getD_some]

/-- Each account of a call is the one listed, passed under its own key: both ways of finding
the handle give one with the key looked up. -/
theorem cpiAccount_eq_ok {message : TransactionMessage} {multisig : AccountInfo}
    {remaining : List AccountInfo} {i : UInt8} {p : AccountMeta × AccountInfo}
    (hmatch : (remaining.take message.accountKeys.length).map AccountInfo.key =
      message.accountKeys)
    (h : cpiAccount message message.accountKeys multisig remaining i = .ok p) :
    p.1 = message.accountMeta i ∧ p.2.key = p.1.pubkey := by
  simp only [cpiAccount, bind_eq_ok, orElse_eq_ok, pure_eq_ok] at h
  obtain ⟨pubkey, hkey, info, hinfo, rfl⟩ := h
  refine ⟨?_, ?_⟩
  · rw [TransactionMessage.accountMeta, TransactionMessage.key_of_getElem? hkey]
  · split at hinfo
    · rename_i heq
      cases hinfo
      exact heq.symm
    · obtain ⟨info', hinfo', hk⟩ := key_of_resolved hmatch hkey
      rw [hinfo] at hinfo'
      cases hinfo'
      exact hk

/-- All accounts of a call are the ones listed, each passed under its own key. -/
theorem cpiAccounts_eq_ok {message : TransactionMessage} {multisig : AccountInfo}
    {remaining : List AccountInfo} {indexes : List UInt8}
    {accounts : List (AccountMeta × AccountInfo)}
    (hmatch : (remaining.take message.accountKeys.length).map AccountInfo.key =
      message.accountKeys)
    (h : List.Forall₂
      (fun i p => cpiAccount message message.accountKeys multisig remaining i = .ok p)
      indexes accounts) :
    accounts.map Prod.fst = indexes.map message.accountMeta ∧
      accounts.map (fun p => p.2.key) = accounts.map (fun p => p.1.pubkey) := by
  induction h with
  | nil => exact ⟨rfl, rfl⟩
  | cons hp _ ih =>
    obtain ⟨hmeta, hkey⟩ := cpiAccount_eq_ok hmatch hp
    simp only [List.map_cons, hmeta, hkey, ih, and_self]

/-- A listed account can be passed. -/
theorem cpiAccount_isOk {message : TransactionMessage} (multisig : AccountInfo)
    {remaining : List AccountInfo} {i : UInt8}
    (hmatch : (remaining.take message.accountKeys.length).map AccountInfo.key =
      message.accountKeys) (hi : i.toNat < message.accountKeys.length) :
    ∃ p, cpiAccount message message.accountKeys multisig remaining i = .ok p := by
  have hkey := TransactionMessage.getElem?_of_lt hi
  obtain ⟨info, hinfo, -⟩ := key_of_resolved hmatch hkey
  simp only [cpiAccount, bind_eq_ok, orElse_eq_ok, pure_eq_ok]
  by_cases hm : message.key i = multisig.key
  · exact ⟨_, _, hkey, multisig, by rw [if_pos hm], rfl⟩
  · exact ⟨_, _, hkey, info, by rw [if_neg hm, hinfo], rfl⟩

/-- Whatever the executor passes, a call that is built is the one the message stands for,
with every account under its own key. The match of the keys at entry is all that is needed.
-/
theorem compileCpi_eq_ok {message : TransactionMessage} {multisig : AccountInfo}
    {remaining : List AccountInfo} {seeds : List (List UInt8)} {ix : CompiledInstruction}
    {cpi : Cpi}
    (hmatch : (remaining.take message.accountKeys.length).map AccountInfo.key =
      message.accountKeys)
    (h : compileCpi message message.accountKeys multisig remaining seeds ix = .ok cpi) :
    cpi.instruction = message.instruction ix ∧ cpi.signerSeeds = seeds ∧
      cpi.accountInfos.map AccountInfo.key =
        cpi.instruction.accounts.map AccountMeta.pubkey ++ [cpi.instruction.programId] := by
  simp only [compileCpi, bind_eq_ok, orElse_eq_ok, pure_eq_ok, collect_eq_ok] at h
  obtain ⟨programId, hprogram, accounts, haccounts, program, hinfo, rfl⟩ := h
  obtain ⟨hmetas, hkeys⟩ := cpiAccounts_eq_ok hmatch haccounts
  have hprogramKey : program.key = programId := by
    split at hinfo
    · rename_i heq
      cases hinfo
      exact heq.symm
    · obtain ⟨info', hinfo', hk⟩ := key_of_resolved hmatch hprogram
      rw [hinfo] at hinfo'
      cases hinfo'
      exact hk
  refine ⟨?_, rfl, ?_⟩
  · rw [TransactionMessage.instruction, hmetas, TransactionMessage.key_of_getElem? hprogram]
  · simp only [List.map_append, List.map_map, List.map_cons, List.map_nil, hprogramKey]
    exact congrArg (· ++ [programId]) hkeys

/-- **No check of the execution can fail on a valid message**, once the accounts are
matched: every lookup by index was bounded when the proposal was created. -/
theorem compileCpi_of_valid {message : TransactionMessage} {vault : Pubkey}
    {remaining : List AccountInfo} {ix : CompiledInstruction} (multisig : AccountInfo)
    (seeds : List (List UInt8)) (hvalid : ValidMessage message vault)
    (hix : ix ∈ message.instructions)
    (hmatch : (remaining.take message.accountKeys.length).map AccountInfo.key =
      message.accountKeys) :
    ∃ cpi, compileCpi message message.accountKeys multisig remaining seeds ix = .ok cpi := by
  have hin := hvalid.valid ix hix
  have hprogram := TransactionMessage.getElem?_of_lt hin.program_lt
  obtain ⟨info, hinfo, -⟩ := key_of_resolved hmatch hprogram
  obtain ⟨accounts, haccounts⟩ :=
    collect_isOk fun i hi => cpiAccount_isOk multisig hmatch (hin.account_lt i hi)
  simp only [compileCpi, bind_eq_ok, orElse_eq_ok, pure_eq_ok]
  by_cases hm : message.key ix.programIdIndex = multisig.key
  · exact ⟨_, _, hprogram, accounts, haccounts, multisig, by rw [if_pos hm], rfl⟩
  · exact ⟨_, _, hprogram, accounts, haccounts, info, by rw [if_neg hm, hinfo], rfl⟩

/-- In a valid message only the vault signs: there is one signer slot, the first, and no key
occurs twice. -/
theorem ValidMessage.isSigner_iff {message : TransactionMessage} {vault : Pubkey}
    (h : ValidMessage message vault) {i : UInt8} (hi : i.toNat < message.accountKeys.length) :
    message.isSigner i.toNat = true ↔ message.key i = vault := by
  have hkey := TransactionMessage.getElem?_of_lt hi
  have hsigner : message.isSigner i.toNat = true ↔ i.toNat = 0 := by
    simp [TransactionMessage.isSigner, h.numSigners_eq]
  rw [hsigner]
  constructor
  · intro h0
    rw [h0, h.vault_first] at hkey
    exact (Option.some.inj hkey).symm
  · intro hv
    rw [hv, ← h.vault_first] at hkey
    exact (List.getElem?_inj hi h.nodup).mp hkey

/-- In a valid message the vault and the block behind it are writable. -/
theorem ValidMessage.isWritable_iff {message : TransactionMessage} {vault : Pubkey}
    (h : ValidMessage message vault) (i : ℕ) :
    message.isWritable i = true ↔ i ≤ message.numWritableNonSigners.toNat := by
  rw [TransactionMessage.isWritable, h.numSigners_eq, h.numWritableSigners_eq]
  simp only [UInt8.toNat_one]
  split
  · simp; omega
  · simp; omega

end SolanaMultisig
