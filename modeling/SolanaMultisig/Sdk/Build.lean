import Mathlib.Data.List.Dedup
import SolanaMultisig.Lib.OrderedMap
import SolanaMultisig.Flows
import SolanaMultisig.Sdk.Web3

/-!
# Building a message

The client compiles a list of instructions into the message of a proposal: each
account once, with the strongest privileges it is given anywhere, in four blocks,
and the instructions by positions. Compiling and executing are inverse: what a
valid message stands for is the list it was built from
(`calls_of_buildMessageFromInstructions`).
-/

namespace SolanaMultisig.Sdk

open Wire Guard

/-! ## What is built -/

/-- A compiled instruction: the program by number, accounts and data as bytes. Its index is
cut to a byte only when it is serialized. -/
structure BuiltInstruction where
  programIdIndex : ℕ
  accountIndexes : List UInt8
  data : List UInt8
  deriving DecidableEq

/-- A message as the client holds it, with numbers for the counts. Borsh writes each of them
as one byte. -/
structure BuiltMessage where
  numSigners : ℕ
  numWritableSigners : ℕ
  numWritableNonSigners : ℕ
  accountKeys : List Pubkey
  instructions : List BuiltInstruction
  addressTableLookups : List MessageAddressTableLookup
  deriving DecidableEq

/-- A number as one byte of Borsh. Writing any other number throws, so a count that does not
fit is never sent as another one. -/
def encodeU8 (value : ℤ) : Except String UInt8 :=
  if 0 ≤ value ∧ value < 256 then .ok (UInt8.ofNat value.toNat)
  else .error ("The value of \"value\" is out of range. It must be >= 0 and <= 255. Received " ++
    toString value)

theorem encodeU8_eq_ok {value : ℤ} {b : UInt8} : encodeU8 value = .ok b ↔ (b.toNat : ℤ) = value := by
  unfold encodeU8
  constructor
  · intro h
    split at h
    · rename_i hrange
      cases h
      have hlt : value.toNat < 256 := by omega
      rw [UInt8.toNat_ofNat_of_lt' hlt]
      omega
    · cases h
  · rintro rfl
    have hb := b.toNat_lt
    rw [if_pos (by omega), Int.toNat_natCast, UInt8.ofNat_toNat]

/-- An instruction as it is serialized. Only its program index can fail to fit, as the rest
are bytes already. -/
def BuiltInstruction.onchain (ix : BuiltInstruction) : Except String CompiledInstruction := do
  let programIdIndex ← encodeU8 ix.programIdIndex
  pure ⟨programIdIndex, ix.accountIndexes, ix.data⟩

/-- The message as it is serialized, field by field in the order of the program's type. -/
def BuiltMessage.onchain (message : BuiltMessage) : Except String TransactionMessage := do
  let numSigners ← encodeU8 message.numSigners
  let numWritableSigners ← encodeU8 message.numWritableSigners
  let numWritableNonSigners ← encodeU8 message.numWritableNonSigners
  let instructions ← collect BuiltInstruction.onchain message.instructions
  pure ⟨numSigners, numWritableSigners, numWritableNonSigners, message.accountKeys, instructions,
    message.addressTableLookups⟩

/-! ## Building -/

/-- An account with the strongest privileges observed: it signs if it does anywhere in the
list, and so for writing. -/
structure Entry where
  pubkey : Pubkey
  isSigner : Bool
  isWritable : Bool
  deriving DecidableEq

/-- The key of the map: the account's text, as `Map` compares strings and not objects. -/
def Entry.text (e : Entry) : String := toBase58 e.pubkey

/-- Another appearance of the account. Privileges are only added. -/
def Entry.merge (cur seen : Entry) : Entry where
  pubkey := cur.pubkey
  isSigner := cur.isSigner || seen.isSigner
  isWritable := cur.isWritable || seen.isWritable

/-- Everything observed, in order: the vault, forced to be a writable signer, then program
and accounts of each instruction. A program is observed without privileges. -/
def observations (vaultPda : Pubkey) (instructions : List Instruction) : List Entry :=
  ⟨vaultPda, true, true⟩ :: instructions.flatMap fun ix =>
    ⟨ix.programId, false, false⟩ :: ix.accounts.map fun k => ⟨k.pubkey, k.isSigner, k.isWritable⟩

/-- The unique accounts, in the order in which they first came up, each with what all its
appearances ask for. -/
def entries (vaultPda : Pubkey) (instructions : List Instruction) : List Entry :=
  OrderedMap.collect Entry.text Entry.merge [] (observations vaultPda instructions)

/-- Make sure the vault is first, by moving it to the front if it stands anywhere else. In a
list built from observations it always is. -/
def vaultFirst (vaultPda : Pubkey) (writableSigners : List Entry) : List Entry :=
  match writableSigners.findIdx? fun e => decide (e.pubkey = vaultPda) with
  | some (i + 1) => writableSigners[i + 1]?.toList ++ writableSigners.eraseIdx (i + 1)
  | _ => writableSigners

/-- The position of an account. The error names the account that is missing. -/
def accountIndex (accountKeys : List Pubkey) (pubkey : Pubkey) : Except String ℕ :=
  orElse (accountKeys.findIdx? fun k => decide (k = pubkey))
    ("Account " ++ toBase58 pubkey ++ " not found in account_keys")

/-- Program and accounts by position; positions are cut to a byte for the accounts, so
beyond 256 accounts they would name the wrong ones. -/
def compileInstruction (accountKeys : List Pubkey) (ix : Instruction) :
    Except String BuiltInstruction := do
  let programIdIndex ← accountIndex accountKeys ix.programId
  let accountIndexes ← collect (fun k => accountIndex accountKeys k.pubkey) ix.accounts
  pure ⟨programIdIndex, accountIndexes.map UInt8.ofNat, ix.data⟩

/-- **Build a message from raw instructions**, the vault at index 0. The accounts are sorted
into four blocks, by signing and writing, and the header counts give the sizes of three. -/
def buildMessageFromInstructions (vaultPda : Pubkey) (instructions : List Instruction) :
    Except String BuiltMessage := do
  let all := entries vaultPda instructions
  -- four blocks, the order of which the header counts describe
  let writableSigners := vaultFirst vaultPda (all.filter fun e => e.isSigner && e.isWritable)
  let readonlySigners := all.filter fun e => e.isSigner && !e.isWritable
  let writableNonSigners := all.filter fun e => !e.isSigner && e.isWritable
  let readonlyNonSigners := all.filter fun e => !e.isSigner && !e.isWritable
  let ordered := writableSigners ++ readonlySigners ++ writableNonSigners ++ readonlyNonSigners
  let accountKeys := ordered.map Entry.pubkey
  let compiled ← collect (compileInstruction accountKeys) instructions
  pure
    { numSigners := writableSigners.length + readonlySigners.length
      numWritableSigners := writableSigners.length
      numWritableNonSigners := writableNonSigners.length
      accountKeys
      instructions := compiled
      addressTableLookups := [] }

/-! ## The accounts -/

/-- Is the account marked writable by some instruction of the list? An account has one set
of privileges in the whole message. -/
def markedWritable (instructions : List Instruction) (k : Pubkey) : Bool :=
  instructions.any fun ix => ix.accounts.any fun a => decide (a.pubkey = k) && a.isWritable

/-- Is it marked as a signer by some instruction of the list? -/
def markedSigner (instructions : List Instruction) (k : Pubkey) : Bool :=
  instructions.any fun ix => ix.accounts.any fun a => decide (a.pubkey = k) && a.isSigner

theorem Entry.text_merge (b a : Entry) : (b.merge a).text = b.text := rfl

theorem map_text (l : List Entry) : l.map Entry.text = (l.map Entry.pubkey).map toBase58 := by
  rw [List.map_map]
  rfl

section Entries

variable {vaultPda : Pubkey} {instructions : List Instruction}

theorem nodup_texts : ((entries vaultPda instructions).map Entry.text).Nodup :=
  OrderedMap.nodup_keys_collect Entry.text_merge List.nodup_nil

/-- Each account is listed once. The map is keyed by texts, and different keys have
different texts. -/
theorem nodup_entries : ((entries vaultPda instructions).map Entry.pubkey).Nodup := by
  have h := @nodup_texts vaultPda instructions
  rw [map_text] at h
  exact h.of_map _

/-- The accounts are the vault and those of the instructions, programs included. Nothing
else is added to a message. -/
theorem mem_entries {k : Pubkey} :
    k ∈ (entries vaultPda instructions).map Entry.pubkey ↔
      k = vaultPda ∨ ∃ ix ∈ instructions, k = ix.programId ∨ k ∈ ix.keys := by
  have h : toBase58 k ∈ (entries vaultPda instructions).map Entry.text ↔
      toBase58 k ∈ List.map Entry.text [] ∨
        toBase58 k ∈ (observations vaultPda instructions).map Entry.text :=
    OrderedMap.mem_keys_collect Entry.text_merge
  rw [List.map_nil, map_text, map_text] at h
  simp only [List.not_mem_nil, false_or, List.mem_map_of_injective toBase58_injective] at h
  rw [h, observations]
  simp [List.map_flatMap, Instruction.keys, eq_comm]

/-- The vault comes first, as it is observed first. -/
theorem entries_eq_cons :
    ∃ v rest, entries vaultPda instructions = v :: rest ∧ v.pubkey = vaultPda := by
  have h : ∃ v rest, entries vaultPda instructions = v :: rest ∧
      Entry.text v = Entry.text ⟨vaultPda, true, true⟩ :=
    OrderedMap.collect_eq_cons Entry.text_merge
  obtain ⟨v, rest, he, hv⟩ := h
  exact ⟨v, rest, he, toBase58_injective hv⟩

/-- An entry has a privilege when some appearance of the account has it. Signing and writing
are the two cases. -/
theorem entry_flag {p : Entry → Bool} (hp : ∀ b a, p (Entry.merge b a) = (p b || p a)) {e : Entry}
    (he : e ∈ entries vaultPda instructions) :
    p e = (observations vaultPda instructions).any fun o =>
      decide (o.pubkey = e.pubkey) && p o := by
  rw [← OrderedMap.flag_of_mem (p := p) nodup_texts he, entries,
    OrderedMap.flag_collect Entry.text_merge hp]
  simp [OrderedMap.flag, Entry.text, toBase58_injective.eq_iff]

theorem isWritable_entry {e : Entry} (he : e ∈ entries vaultPda instructions) :
    e.isWritable = (decide (e.pubkey = vaultPda) || markedWritable instructions e.pubkey) := by
  rw [entry_flag (p := Entry.isWritable) (fun _ _ => rfl) he]
  simp [observations, markedWritable, List.any_flatMap, List.any_map, Function.comp_def, eq_comm]

theorem isSigner_entry {e : Entry} (he : e ∈ entries vaultPda instructions) :
    e.isSigner = (decide (e.pubkey = vaultPda) || markedSigner instructions e.pubkey) := by
  rw [entry_flag (p := Entry.isSigner) (fun _ _ => rfl) he]
  simp [observations, markedSigner, List.any_flatMap, List.any_map, Function.comp_def, eq_comm]

/-! ## The blocks of a message with one signer -/

theorem vaultFirst_cons {v : Entry} (hv : v.pubkey = vaultPda) (es : List Entry) :
    vaultFirst vaultPda (v :: es) = v :: es := by
  simp [vaultFirst, List.findIdx?_cons, hv]

/-- The vault, then the writable accounts, then the others: the four blocks when only the
vault signs, of which one is then empty. -/
def blocks (v : Entry) (rest : List Entry) : List Entry :=
  v :: (rest.filter (fun e => e.isWritable) ++ rest.filter (fun e => !e.isWritable))

theorem blocks_perm (v : Entry) (rest : List Entry) : (blocks v rest).Perm (v :: rest) :=
  (List.filter_append_perm _ rest).cons v

section Blocks

variable {v : Entry} {rest : List Entry} (he : entries vaultPda instructions = v :: rest)
  (hv : v.pubkey = vaultPda)
include he hv

theorem vault_flags : v.isSigner = true ∧ v.isWritable = true := by
  have hmem : v ∈ entries vaultPda instructions := he ▸ List.mem_cons_self
  rw [isSigner_entry hmem, isWritable_entry hmem]
  simp [hv]

/-- With one signer, the vault, the others are no signers. It is read off the header, which
is what a check of the program looks at. -/
theorem nonSigners_of_one {message : BuiltMessage}
    (h : buildMessageFromInstructions vaultPda instructions = .ok message)
    (hone : message.numSigners = 1) : ∀ e ∈ rest, e.isSigner = false := by
  simp only [buildMessageFromInstructions, bind_eq_ok, pure_eq_ok] at h
  obtain ⟨compiled, -, rfl⟩ := h
  obtain ⟨hs, hw⟩ := vault_flags he hv
  simp only [he, List.filter_cons, hs, hw, Bool.and_self, Bool.not_true, Bool.and_false,
    Bool.false_eq_true, if_true, if_false, vaultFirst_cons hv, List.length_cons] at hone
  have hwritable : rest.filter (fun e => e.isSigner && e.isWritable) = [] :=
    List.eq_nil_of_length_eq_zero (by omega)
  have hreadonly : rest.filter (fun e => e.isSigner && !e.isWritable) = [] :=
    List.eq_nil_of_length_eq_zero (by omega)
  rw [List.filter_eq_nil_iff] at hwritable hreadonly
  intro e hmem
  have hw' := hwritable e hmem
  have hr' := hreadonly e hmem
  cases hes : e.isSigner
  · rfl
  · cases hew : e.isWritable <;> simp [hes, hew] at hw' hr'

/-- **What is built when only the vault signs.** The blocks are listed in order, and all
that can still fail is compiling. -/
theorem build_of_nonSigners (hrest : ∀ e ∈ rest, e.isSigner = false) :
    buildMessageFromInstructions vaultPda instructions =
      (collect (compileInstruction ((blocks v rest).map Entry.pubkey)) instructions).map
        fun compiled =>
          { numSigners := 1
            numWritableSigners := 1
            numWritableNonSigners := (rest.filter (fun e => e.isWritable)).length
            accountKeys := (blocks v rest).map Entry.pubkey
            instructions := compiled
            addressTableLookups := [] } := by
  obtain ⟨hs, hw⟩ := vault_flags he hv
  have hsigners : ∀ w : Entry → Bool, rest.filter (fun e => e.isSigner && w e) = [] := by
    intro w
    rw [List.filter_eq_nil_iff]
    intro e hmem
    simp [hrest e hmem]
  have hothers : ∀ w : Entry → Bool, rest.filter (fun e => !e.isSigner && w e) = rest.filter w := by
    intro w
    refine List.filter_congr fun e hmem => ?_
    simp [hrest e hmem]
  rw [buildMessageFromInstructions, he]
  simp only [List.filter_cons, hs, hw, hsigners, hothers, Bool.and_self, Bool.not_true,
    Bool.and_false, Bool.false_and, Bool.false_eq_true, if_true, if_false, vaultFirst_cons hv,
    List.length_cons, List.length_nil, List.append_nil, List.cons_append, List.nil_append, blocks]
  cases collect _ instructions <;> rfl

/-- The writable accounts are those up to the end of the writable block. So the position
tells the program what the client knew from the entry. -/
theorem isWritable_iff_position {i : ℕ} {e : Entry} (h : (blocks v rest)[i]? = some e) :
    e.isWritable = true ↔ i ≤ (rest.filter (fun e => e.isWritable)).length := by
  cases i with
  | zero =>
    obtain rfl := Option.some.inj h
    simp [(vault_flags he hv).2]
  | succ i =>
    rw [blocks, List.getElem?_cons_succ] at h
    rcases Nat.lt_or_ge i (rest.filter (fun e => e.isWritable)).length with hlt | hge
    · rw [List.getElem?_append_left hlt] at h
      have hw := (List.mem_filter.mp (List.mem_of_getElem? h)).2
      exact ⟨fun _ => hlt, fun _ => hw⟩
    · rw [List.getElem?_append_right hge] at h
      have hw := (List.mem_filter.mp (List.mem_of_getElem? h)).2
      simp only [Bool.not_eq_true'] at hw
      simp only [hw, Bool.false_eq_true, false_iff]
      omega

end Blocks

end Entries

/-! ## Compiling and serializing -/

theorem getElem?_of_accountIndex {accountKeys : List Pubkey} {k : Pubkey} {i : ℕ}
    (h : accountIndex accountKeys k = .ok i) : accountKeys[i]? = some k := by
  rw [accountIndex, orElse_eq_ok, List.findIdx?_eq_some_iff_getElem] at h
  obtain ⟨hlt, hk, -⟩ := h
  rw [List.getElem?_eq_getElem hlt, of_decide_eq_true hk]

theorem accountIndex_isOk {accountKeys : List Pubkey} {k : Pubkey} (h : k ∈ accountKeys) :
    ∃ i, accountIndex accountKeys k = .ok i := by
  obtain ⟨i, hi⟩ : ∃ i, accountKeys.findIdx? (fun k' => decide (k' = k)) = some i := by
    rw [← Option.isSome_iff_exists, List.findIdx?_isSome]
    exact List.any_eq_true.mpr ⟨k, h, decide_eq_true rfl⟩
  exact ⟨i, by rw [accountIndex, hi]; rfl⟩

/-- Instructions whose accounts are all listed can be compiled. -/
theorem compileInstruction_isOk {accountKeys : List Pubkey} {ix : Instruction}
    (hprogram : ix.programId ∈ accountKeys) (haccounts : ∀ k ∈ ix.keys, k ∈ accountKeys) :
    ∃ c, compileInstruction accountKeys ix = .ok c := by
  obtain ⟨i, hi⟩ := accountIndex_isOk hprogram
  obtain ⟨is, his⟩ : ∃ is, collect (fun k : AccountMeta => accountIndex accountKeys k.pubkey)
      ix.accounts = .ok is :=
    collect_isOk fun a ha => accountIndex_isOk (haccounts _ (List.mem_map_of_mem ha))
  exact ⟨⟨i, is.map UInt8.ofNat, ix.data⟩, by simp [compileInstruction, hi, his]⟩

theorem onchain_eq_ok {built : BuiltMessage} {message : TransactionMessage} :
    built.onchain = .ok message ↔
      (message.numSigners.toNat : ℤ) = built.numSigners ∧
      (message.numWritableSigners.toNat : ℤ) = built.numWritableSigners ∧
      (message.numWritableNonSigners.toNat : ℤ) = built.numWritableNonSigners ∧
      message.accountKeys = built.accountKeys ∧
      List.Forall₂ (fun ix c => BuiltInstruction.onchain ix = .ok c) built.instructions
        message.instructions ∧
      message.addressTableLookups = built.addressTableLookups := by
  obtain ⟨ns, nws, nwn, keys, ixs, lookups⟩ := message
  simp only [BuiltMessage.onchain, bind_eq_ok, encodeU8_eq_ok, collect_eq_ok, pure_eq_ok]
  constructor
  · rintro ⟨_, h₁, _, h₂, _, h₃, _, h₄, he⟩
    cases he
    exact ⟨h₁, h₂, h₃, rfl, h₄, rfl⟩
  · rintro ⟨h₁, h₂, h₃, rfl, h₄, rfl⟩
    exact ⟨_, h₁, _, h₂, _, h₃, _, h₄, rfl⟩

/-! ## What a built message lists -/

/-- **Listing.** A compiled instruction lists program and accounts of an instruction by
their positions in a message, and has the same data. -/
structure Lists (message : TransactionMessage) (ix : Instruction)
    (cix : CompiledInstruction) : Prop where
  program_eq : message.accountKeys[cix.programIdIndex.toNat]? = some ix.programId
  accounts : List.Forall₂ (fun i k => message.accountKeys[UInt8.toNat i]? = some k)
    cix.accountIndexes ix.keys
  data_eq : cix.data = ix.data

/-- What compiling gives serializes, if positions fit a byte, and lists the instruction: the
cut to a byte then changes no position. -/
theorem onchain_of_compile {message : TransactionMessage} {ix : Instruction} {b : BuiltInstruction}
    (hlen : message.accountKeys.length ≤ 256)
    (hcompile : compileInstruction message.accountKeys ix = .ok b) :
    ∃ c, b.onchain = .ok c ∧ Lists message ix c := by
  simp only [compileInstruction, bind_eq_ok, pure_eq_ok, collect_eq_ok] at hcompile
  obtain ⟨p, hp, is, his, rfl⟩ := hcompile
  have hbyte : ∀ {i : ℕ} {k : Pubkey}, accountIndex message.accountKeys k = .ok i →
      (UInt8.ofNat i).toNat = i := fun hi =>
    UInt8.toNat_ofNat_of_lt'
      ((List.getElem?_eq_some_iff.mp (getElem?_of_accountIndex hi)).1.trans_le hlen)
  refine ⟨⟨UInt8.ofNat p, is.map UInt8.ofNat, ix.data⟩, ?_, ?_, ?_, rfl⟩
  · simp only [BuiltInstruction.onchain, bind_eq_ok, encodeU8_eq_ok, pure_eq_ok]
    exact ⟨_, by rw [hbyte hp], rfl⟩
  · rw [hbyte hp]
    exact getElem?_of_accountIndex hp
  · rw [Instruction.keys, List.forall₂_map_left_iff, List.forall₂_map_right_iff]
    refine his.flip.imp fun i a hi => ?_
    rw [hbyte hi]
    exact getElem?_of_accountIndex hi

/-- An instruction listed behind the vault is within the limits of the program, if the
instruction itself is and calls something other than the vault. -/
theorem Lists.valid {message : TransactionMessage} {ix : Instruction} {c : CompiledInstruction}
    {vaultPda : Pubkey} (h : Lists message ix c) (hfirst : message.accountKeys[0]? = some vaultPda)
    (hne : ix.programId ≠ vaultPda) (haccounts : ix.accounts.length ≤ maxInstructionAccounts)
    (hdata : ix.data.length ≤ maxInstructionDataLen) :
    ValidInstruction message.accountKeys.length c where
  accounts_le := by
    rw [h.accounts.length_eq, Instruction.keys, List.length_map]
    exact haccounts
  data_le := h.data_eq ▸ hdata
  one_le_program := by
    refine Nat.one_le_iff_ne_zero.mpr fun hzero => hne ?_
    have hprogram := h.program_eq
    rw [hzero] at hprogram
    exact Option.some.inj (hprogram.symm.trans hfirst)
  program_lt := (List.getElem?_eq_some_iff.mp h.program_eq).1
  account_lt := by
    intro idx hidx
    obtain ⟨k, -, hk⟩ := exists_right_of_forall₂ h.accounts hidx
    exact (List.getElem?_eq_some_iff.mp hk).1

section Issued

variable {vaultPda : Pubkey} {instructions : List Instruction} {v : Entry} {rest : List Entry}
  {message : TransactionMessage} {built : BuiltMessage}

/-- The message when only the vault signs: one signer, which is writable, and the writable
accounts behind it. -/
def blockMessage (v : Entry) (rest : List Entry) (instructions : List CompiledInstruction) :
    TransactionMessage where
  numSigners := 1
  numWritableSigners := 1
  numWritableNonSigners := UInt8.ofNat (rest.filter (fun e => e.isWritable)).length
  accountKeys := (blocks v rest).map Entry.pubkey
  instructions := instructions
  addressTableLookups := []

/-- It lists every account observed, in another order. -/
theorem keys_blockMessage (he : entries vaultPda instructions = v :: rest)
    (ixs : List CompiledInstruction) :
    (blockMessage v rest ixs).accountKeys.Perm
      ((entries vaultPda instructions).map Entry.pubkey) :=
  he ▸ (blocks_perm v rest).map Entry.pubkey

theorem writable_lt_keys (v : Entry) (rest : List Entry) (ixs : List CompiledInstruction) :
    (rest.filter (fun e => e.isWritable)).length < (blockMessage v rest ixs).accountKeys.length := by
  simp [blockMessage, blocks]

/-- The count of the header fits a byte when positions do, so it is not cut. -/
theorem toNat_numWritableNonSigners {ixs : List CompiledInstruction}
    (hlen : (blockMessage v rest ixs).accountKeys.length ≤ 256) :
    (blockMessage v rest ixs).numWritableNonSigners.toNat =
      (rest.filter (fun e => e.isWritable)).length :=
  UInt8.toNat_ofNat_of_lt' ((writable_lt_keys v rest ixs).trans_le hlen)

/-- Every program and account is listed, so that all instructions compile. -/
theorem exists_compiled (he : entries vaultPda instructions = v :: rest) :
    ∃ compiled, collect (compileInstruction ((blocks v rest).map Entry.pubkey)) instructions =
      .ok compiled := by
  have hperm := keys_blockMessage he []
  refine collect_isOk fun ix hix => compileInstruction_isOk ?_ fun k hk => ?_
  · exact hperm.mem_iff.mpr (mem_entries.mpr (.inr ⟨ix, hix, .inl rfl⟩))
  · exact hperm.mem_iff.mpr (mem_entries.mpr (.inr ⟨ix, hix, .inr hk⟩))

/-- **What is built when only the vault signs serializes**, if there are at most 256
accounts, and lists the instructions in their order. -/
theorem exists_blockMessage (he : entries vaultPda instructions = v :: rest)
    (hv : v.pubkey = vaultPda) (hrest : ∀ e ∈ rest, e.isSigner = false)
    (hlen : (entries vaultPda instructions).length ≤ 256) :
    ∃ built ixs, buildMessageFromInstructions vaultPda instructions = .ok built ∧
      built.onchain = .ok (blockMessage v rest ixs) ∧
      List.Forall₂ (Lists (blockMessage v rest ixs)) instructions ixs := by
  have hkeys : ∀ ixs, (blockMessage v rest ixs).accountKeys.length ≤ 256 := by
    intro ixs
    rw [(keys_blockMessage he ixs).length_eq, List.length_map]
    exact hlen
  obtain ⟨compiled, hcompiled⟩ := exists_compiled he
  have hbuild := build_of_nonSigners he hv hrest
  rw [hcompiled] at hbuild
  rw [collect_eq_ok] at hcompiled
  obtain ⟨ixs, hixs⟩ : ∃ ixs, collect BuiltInstruction.onchain compiled = .ok ixs := by
    refine collect_isOk fun b hb => ?_
    obtain ⟨ix, -, hcompile⟩ := exists_left_of_forall₂ hcompiled hb
    exact (onchain_of_compile (hkeys []) hcompile).imp fun _ h => h.1
  rw [collect_eq_ok] at hixs
  refine ⟨_, ixs, hbuild, onchain_eq_ok.mpr ⟨rfl, rfl, ?_, rfl, hixs, rfl⟩, ?_⟩
  · rw [toNat_numWritableNonSigners (hkeys ixs)]
  · refine (forall₂_join hcompiled.flip hixs).imp ?_
    rintro ix c ⟨b, hcompile, honchain⟩
    obtain ⟨c', honchain', hlists⟩ := onchain_of_compile (hkeys ixs) hcompile
    obtain rfl := Except.ok.inj (honchain.symm.trans honchain')
    exact hlists

/-- There is nothing else that such a list can become: whatever was built and serialized is
the message of the blocks. -/
theorem eq_blockMessage (he : entries vaultPda instructions = v :: rest)
    (hv : v.pubkey = vaultPda) (hrest : ∀ e ∈ rest, e.isSigner = false)
    (hlen : (entries vaultPda instructions).length ≤ 256)
    (hbuild : buildMessageFromInstructions vaultPda instructions = .ok built)
    (honchain : built.onchain = .ok message) :
    ∃ ixs, message = blockMessage v rest ixs ∧
      List.Forall₂ (Lists (blockMessage v rest ixs)) instructions ixs := by
  obtain ⟨built', ixs, hbuild', honchain', hlists⟩ := exists_blockMessage he hv hrest hlen
  obtain rfl := Except.ok.inj (hbuild.symm.trans hbuild')
  exact ⟨ixs, Except.ok.inj (honchain.symm.trans honchain'), hlists⟩

/-! ## Executing -/

/-- The instruction as an execution issues it for the vault: the vault is the only signer,
and an account is writable if it is the vault or is marked somewhere in the list. That may
be in another instruction than this one. -/
def issuedAs (vault : Pubkey) (instructions : List Instruction) (ix : Instruction) : Instruction where
  programId := ix.programId
  accounts := ix.accounts.map fun a =>
    ⟨a.pubkey, decide (a.pubkey = vault),
      decide (a.pubkey = vault) || markedWritable instructions a.pubkey⟩
  data := ix.data

/-- An account of the message has the privileges its key has in the list, whatever position
it was given. -/
theorem accountMeta_blockMessage {ixs : List CompiledInstruction}
    (he : entries vaultPda instructions = v :: rest) (hv : v.pubkey = vaultPda)
    (hvalid : ValidMessage (blockMessage v rest ixs) vaultPda) {k : Pubkey} {i : UInt8}
    (hk : (blockMessage v rest ixs).accountKeys[i.toNat]? = some k) :
    (blockMessage v rest ixs).accountMeta i =
      ⟨k, decide (k = vaultPda), decide (k = vaultPda) || markedWritable instructions k⟩ := by
  have hlt := (List.getElem?_eq_some_iff.mp hk).1
  have hkey := TransactionMessage.key_of_getElem? hk
  have hcount := toNat_numWritableNonSigners (hvalid.keys_le.trans (by decide))
  obtain ⟨e, hentry, rfl⟩ : ∃ e, (blocks v rest)[i.toNat]? = some e ∧ e.pubkey = k := by
    rw [blockMessage, List.getElem?_map] at hk
    exact Option.map_eq_some_iff.mp hk
  have hmem : e ∈ entries vaultPda instructions :=
    he ▸ (blocks_perm v rest).mem_iff.mp (List.mem_of_getElem? hentry)
  have hsigner : (blockMessage v rest ixs).isSigner i.toNat = decide (e.pubkey = vaultPda) := by
    have h := hvalid.isSigner_iff hlt
    rw [hkey] at h
    exact Bool.eq_iff_iff.mpr (h.trans decide_eq_true_iff.symm)
  have hwritable : (blockMessage v rest ixs).isWritable i.toNat = e.isWritable := by
    refine Bool.eq_iff_iff.mpr ?_
    rw [hvalid.isWritable_iff, hcount, isWritable_iff_position he hv hentry]
  rw [TransactionMessage.accountMeta, hkey, hsigner, hwritable, isWritable_entry hmem]

/-- A listed instruction is issued with these privileges. Program, accounts and data are the
ones it was compiled from. -/
theorem Lists.instruction_eq {ixs : List CompiledInstruction} {ix : Instruction}
    {c : CompiledInstruction} (he : entries vaultPda instructions = v :: rest)
    (hv : v.pubkey = vaultPda) (hvalid : ValidMessage (blockMessage v rest ixs) vaultPda)
    (h : Lists (blockMessage v rest ixs) ix c) :
    (blockMessage v rest ixs).instruction c = issuedAs vaultPda instructions ix := by
  have haccounts : c.accountIndexes.map (blockMessage v rest ixs).accountMeta =
      ix.keys.map fun k =>
        ⟨k, decide (k = vaultPda), decide (k = vaultPda) || markedWritable instructions k⟩ := by
    rw [← List.forall₂_eq_eq_eq, List.forall₂_map_left_iff, List.forall₂_map_right_iff]
    exact h.accounts.imp fun i k hk => accountMeta_blockMessage he hv hvalid hk
  rw [TransactionMessage.instruction, TransactionMessage.key_of_getElem? h.program_eq, haccounts,
    h.data_eq, Instruction.keys, List.map_map]
  rfl

/-- **Executing undoes compiling.** If what was built is a valid message, it stands for the
instructions it was built from, with the privileges of the vault, and its signer is the
vault it was built for. -/
theorem calls_of_buildMessageFromInstructions {vault : Pubkey}
    (hbuild : buildMessageFromInstructions vaultPda instructions = .ok built)
    (honchain : built.onchain = .ok message) (hvalid : ValidMessage message vault) :
    vault = vaultPda ∧ message.calls = instructions.map (issuedAs vaultPda instructions) := by
  obtain ⟨v, rest, he, hv⟩ := @entries_eq_cons vaultPda instructions
  obtain ⟨hsigners, -, -, hkeys, -⟩ := onchain_eq_ok.mp honchain
  have hone : built.numSigners = 1 := by
    rw [hvalid.numSigners_eq] at hsigners
    exact_mod_cast hsigners.symm
  have hrest := nonSigners_of_one he hv hbuild hone
  have hlen : (entries vaultPda instructions).length ≤ 256 := by
    have hbuilt := hbuild
    rw [build_of_nonSigners he hv hrest] at hbuilt
    obtain ⟨compiled, -, rfl⟩ := map_eq_ok.mp hbuilt
    have hperm := keys_blockMessage he message.instructions
    rw [← List.length_map (f := Entry.pubkey), ← hperm.length_eq]
    exact (congrArg List.length hkeys).ge.trans (hvalid.keys_le.trans (by decide))
  obtain ⟨ixs, rfl, hlists⟩ := eq_blockMessage he hv hrest hlen hbuild honchain
  have hvault : vaultPda = vault := hv.symm.trans (Option.some.inj hvalid.vault_first)
  subst hvault
  refine ⟨rfl, ?_⟩
  rw [TransactionMessage.calls, eq_comm, ← List.forall₂_eq_eq_eq, List.forall₂_map_left_iff,
    List.forall₂_map_right_iff]
  exact hlists.imp fun ix c h => (h.instruction_eq he hv hvalid).symm

/-! ## Within the limits -/

/-- A list of instructions within the limits of a message, in which only the vault signs and
is no program. The limits are those of the program, counted on the list itself. -/
structure Proposable (vaultPda : Pubkey) (instructions : List Instruction) : Prop where
  instructions_ne : instructions ≠ []
  instructions_le : instructions.length ≤ maxTxInstructions
  /-- accounts and programs, the vault included, each counted once -/
  accounts_le : (vaultPda :: instructions.flatMap fun ix => ix.programId :: ix.keys).dedup.length ≤
    maxTxAccountKeys
  accounts_le_each : ∀ ix ∈ instructions, ix.accounts.length ≤ maxInstructionAccounts
  data_le_each : ∀ ix ∈ instructions, ix.data.length ≤ maxInstructionDataLen
  signer_eq : ∀ ix ∈ instructions, ∀ a ∈ ix.accounts, a.isSigner = true → a.pubkey = vaultPda
  program_ne : ∀ ix ∈ instructions, ix.programId ≠ vaultPda

/-- The accounts are counted once each, so the limit on them can be read off the list. -/
theorem length_entries : (entries vaultPda instructions).length =
    (vaultPda :: instructions.flatMap fun ix => ix.programId :: ix.keys).dedup.length := by
  rw [← List.length_map (f := Entry.pubkey)]
  refine ((List.perm_ext_iff_of_nodup nodup_entries (List.nodup_dedup _)).mpr fun k => ?_).length_eq
  rw [mem_entries]
  simp [eq_comm]

/-- When nothing but the vault is marked as a signer, the other accounts are none. -/
theorem nonSigners_of_signers
    (hsigner : ∀ ix ∈ instructions, ∀ a ∈ ix.accounts, a.isSigner = true → a.pubkey = vaultPda)
    (he : entries vaultPda instructions = v :: rest) (hv : v.pubkey = vaultPda) :
    ∀ e ∈ rest, e.isSigner = false := by
  intro e hmem
  have hnodup := @nodup_entries vaultPda instructions
  rw [he, List.map_cons, List.nodup_cons] at hnodup
  have hne : e.pubkey ≠ vaultPda := fun hbad =>
    hnodup.1 (hv.trans hbad.symm ▸ List.mem_map_of_mem hmem)
  rw [isSigner_entry (he ▸ List.mem_cons_of_mem _ hmem), decide_eq_false hne, Bool.false_or,
    markedSigner, List.any_eq_false]
  intro ix hix hany
  obtain ⟨a, ha, hflags⟩ := List.any_eq_true.mp hany
  simp only [Bool.and_eq_true, decide_eq_true_eq] at hflags
  exact hne (hflags.1 ▸ hsigner ix hix a ha hflags.2)

/-- **What is built within the limits passes every check of the message**, and building and
serializing it succeed. -/
theorem validateMessage_of_proposable (h : Proposable vaultPda instructions) :
    ∃ built message, buildMessageFromInstructions vaultPda instructions = .ok built ∧
      built.onchain = .ok message ∧ validateMessage message vaultPda = .ok () := by
  obtain ⟨v, rest, he, hv⟩ := @entries_eq_cons vaultPda instructions
  have hentries : (entries vaultPda instructions).length ≤ maxTxAccountKeys :=
    length_entries.trans_le h.accounts_le
  obtain ⟨built, ixs, hbuild, honchain, hlists⟩ := exists_blockMessage he hv
    (nonSigners_of_signers h.signer_eq he hv) (hentries.trans (by decide))
  refine ⟨built, _, hbuild, honchain, validateMessage_eq_ok.mpr ?_⟩
  have hperm := keys_blockMessage he ixs
  have hlen : (blockMessage v rest ixs).accountKeys.length ≤ maxTxAccountKeys := by
    rw [hperm.length_eq, List.length_map]
    exact hentries
  have hfirst : (blockMessage v rest ixs).accountKeys[0]? = some vaultPda := congrArg some hv
  exact
    { keys_le := hlen
      instructions_ne := by
        change ixs ≠ []
        rw [← List.length_pos_iff, ← hlists.length_eq]
        exact List.length_pos_iff.mpr h.instructions_ne
      instructions_le := hlists.length_eq ▸ h.instructions_le
      numSigners_eq := rfl
      numWritableSigners_eq := rfl
      nonSigners_le := by
        rw [toNat_numWritableNonSigners (hlen.trans (by decide))]
        exact Nat.le_pred_of_lt (writable_lt_keys v rest ixs)
      vault_first := hfirst
      nodup := hperm.nodup_iff.mpr nodup_entries
      lookups_eq := rfl
      valid := by
        intro c hc
        obtain ⟨ix, hix, hlisted⟩ := exists_left_of_forall₂ hlists hc
        exact hlisted.valid hfirst (h.program_ne ix hix) (h.accounts_le_each ix hix)
          (h.data_le_each ix hix) }

/-! ## Whatever accounts coincide -/

/-- Not more accounts than are mentioned, a bound that does not depend on which coincide. -/
theorem length_entries_le : (entries vaultPda instructions).length ≤
    1 + (instructions.map fun ix => 1 + ix.accounts.length).sum := by
  rw [length_entries]
  refine (List.dedup_sublist _).length_le.trans ?_
  simp [List.length_flatMap, Instruction.keys, Nat.add_comm]

/-- Such a list can be built and serialized, within the limits of the program or not. -/
theorem exists_message
    (hsigner : ∀ ix ∈ instructions, ∀ a ∈ ix.accounts, a.isSigner = true → a.pubkey = vaultPda)
    (hlen : (entries vaultPda instructions).length ≤ 256) :
    ∃ built message, buildMessageFromInstructions vaultPda instructions = .ok built ∧
      built.onchain = .ok message := by
  obtain ⟨v, rest, he, hv⟩ := @entries_eq_cons vaultPda instructions
  obtain ⟨built, ixs, hbuild, honchain, -⟩ :=
    exists_blockMessage he hv (nonSigners_of_signers hsigner he hv) hlen
  exact ⟨built, _, hbuild, honchain⟩

/-- A message made from instructions in which only the vault signs: what a decoder needs to
know of it in order to find each instruction again. -/
structure BuiltFrom (message : TransactionMessage) (vaultPda : Pubkey)
    (instructions : List Instruction) : Prop where
  keys_le : message.accountKeys.length ≤ 256
  vault_first : message.accountKeys[0]? = some vaultPda
  lookups_eq : message.addressTableLookups = []
  lists : List.Forall₂ (Lists message) instructions message.instructions

/-- **Whatever accounts coincide**, the message lists the instructions it was built from
behind the vault, if there are at most 256 accounts. A payee may be the vault, a token
account of it or a program. -/
theorem builtFrom_of_build
    (hsigner : ∀ ix ∈ instructions, ∀ a ∈ ix.accounts, a.isSigner = true → a.pubkey = vaultPda)
    (hlen : (entries vaultPda instructions).length ≤ 256)
    (hbuild : buildMessageFromInstructions vaultPda instructions = .ok built)
    (honchain : built.onchain = .ok message) : BuiltFrom message vaultPda instructions := by
  obtain ⟨v, rest, he, hv⟩ := @entries_eq_cons vaultPda instructions
  obtain ⟨ixs, rfl, hlists⟩ :=
    eq_blockMessage he hv (nonSigners_of_signers hsigner he hv) hlen hbuild honchain
  have hkeys : (blockMessage v rest ixs).accountKeys.length ≤ 256 := by
    rw [(keys_blockMessage he ixs).length_eq, List.length_map]
    exact hlen
  exact ⟨hkeys, congrArg some hv, rfl, hlists⟩

end Issued

end SolanaMultisig.Sdk
