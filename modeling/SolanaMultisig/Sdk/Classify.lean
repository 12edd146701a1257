import SolanaMultisig.Flows
import SolanaMultisig.Sdk.Reader

/-!
# Classifying the instructions of a message

What the decoder shows of a message: the recipients, the refund to the fee payer,
the memos, and the number of instructions it could not classify, which makes every
gate refuse. `classifyInnerMessage_explains` says that a classification without
unknowns explains each instruction of the message: nothing that moves funds is
mislabelled or left out.
-/

namespace SolanaMultisig.Sdk

open Wire Guard

variable {env : Env}

/-! ## Results -/

/-- What is moved: lamports, or a token of which the mint is shown. -/
inductive Asset where
  | native
  | spl
  deriving DecidableEq

/-- **A transfer out of the vault, as it is shown.** The amounts are texts of base units,
and the fields for tokens are unset for lamports. -/
structure DecodedSolanaVaultRecipient where
  /-- recipient owner when `ataVerified`, else the raw destination account -/
  address : String
  /-- raw destination token account (SPL transfers only) -/
  ata : Option String
  /-- did `ata` match the derived account? Unset when not attempted -/
  ataVerified : Option Bool
  /-- amount in base units -/
  amount : String
  /-- lamports or a token -/
  asset : Asset
  /-- token mint, from the signed bytes -/
  mint : Option String
  /-- token decimals, from the signed bytes -/
  decimals : Option UInt8
  /-- token program that executes the transfer -/
  tokenProgram : Option String
  deriving DecidableEq

/-- The classification of a whole message. The refund is a sum, while payments are listed
one by one. -/
structure InnerClassification where
  /-- transfers to anybody but the fee payer -/
  recipients : List DecodedSolanaVaultRecipient
  /-- lamports sent to the fee payer -/
  feeLamports : ℕ
  /-- what could not be classified -/
  unknownInnerInstructionCount : ℕ
  /-- texts of memos -/
  memos : List String

/-- What one instruction is. An unknown one is counted and makes every gate refuse. -/
inductive Classified where
  | recipient (r : DecodedSolanaVaultRecipient)
  | fee (amount : ℕ)
  | memo (text : String)
  | unknown

/-! ## One instruction -/

/-- `readU64LE`: eight bytes from an offset, or an error past the end of the buffer. -/
def readU64LE (buf : List UInt8) (offset : ℕ) : Except String ℕ := do
  require (offset + 8 ≤ buf.length) "u64 read past end of buffer"
  pure (leNat ((buf.drop offset).take 8))

/-- Does the text contain a control character other than tab, line feed and carriage return?
Such a text could be displayed as something else than it is. -/
def hasControl (text : String) : Bool :=
  text.toList.any fun c =>
    let n := c.toNat
    n ≤ 8 || n == 11 || n == 12 || (14 ≤ n && n ≤ 31) || n == 127

/-- Strict UTF-8 decode (no replacement characters, no control characters). A memo that does
not decode is an unknown instruction. -/
def decodeUtf8Strict (data : List UInt8) : Option String :=
  (String.fromUTF8? ⟨data.toArray⟩).filter fun text => !hasControl text

/-- The key at an index of the static keys. Keys of lookup tables cannot be resolved, and an
index beyond the static ones is an error. -/
def InnerMessage.resolve (inner : InnerMessage) (index : UInt8) : Except String Pubkey :=
  orElse inner.accountKeys[index.toNat]?
    ("inner account index " ++ toString index.toNat ++ " out of bounds (" ++
      toString inner.accountKeys.length ++ " static keys)")

/-- The key of the `i`-th account of an instruction that has so many. The caller has checked
the number of its accounts. -/
def InnerMessage.account (inner : InnerMessage) (cix : CompiledInstruction) (i : ℕ) :
    Except String Pubkey :=
  inner.resolve (cix.accountIndexes.getD i 0)

/-- **The body of the loop**: what an instruction is, or the error its indexes cause. A
transfer counts only if the vault, the first account of the message, is the source. -/
def classifyInstruction (inner : InnerMessage) (feePayer : Option String) (allowMemo : Bool)
    (cix : CompiledInstruction) : Except String Classified := do
  let prog ← inner.resolve cix.programIdIndex
  let d := cix.data
  -- `SystemProgram::Transfer`
  if prog = systemProgramId ∧ d.length = 12 ∧ leNat (d.take 4) = 2 ∧
      2 ≤ cix.accountIndexes.length then
    let source ← inner.account cix 0
    let dest ← inner.account cix 1
    let amount ← readU64LE d 4
    if inner.accountKeys[0]? ≠ some source then pure .unknown
    else if given feePayer = some (toBase58 dest) then pure (.fee amount)
    else
      pure (.recipient
        { address := toBase58 dest, ata := none, ataVerified := none, amount := toString amount,
          asset := .native, mint := none, decimals := none, tokenProgram := none })
  -- `TransferChecked`; a legacy `Transfer` has no mint on the wire
  else if (prog = tokenProgramId ∨ prog = token2022ProgramId) ∧ d.length = 10 ∧
      d[0]? = some 12 ∧ 4 ≤ cix.accountIndexes.length then
    let authority ← inner.account cix 3
    if inner.accountKeys[0]? ≠ some authority then pure .unknown
    else do
      let dest ← inner.account cix 2
      let amount ← readU64LE d 1
      let mint ← inner.account cix 1
      pure (.recipient
        { address := toBase58 dest, ata := some (toBase58 dest), ataVerified := none,
          amount := toString amount, asset := .spl, mint := some (toBase58 mint),
          decimals := d[9]?, tokenProgram := some (toBase58 prog) })
  -- a memo, which no account signs
  else if allowMemo = true ∧ prog = memoProgramId ∧ cix.accountIndexes = [] then
    match decodeUtf8Strict d with
    | some text => pure (.memo text)
    | none => pure .unknown
  else pure .unknown

/-! ## The message -/

/-- Count one instruction. Refunds are added up, and everything else is appended or counted.
-/
def InnerClassification.add (c : InnerClassification) : Classified → InnerClassification
  | .recipient r => { c with recipients := c.recipients ++ [r] }
  | .fee amount => { c with feeLamports := c.feeLamports + amount }
  | .memo text => { c with memos := c.memos ++ [text] }
  | .unknown => { c with unknownInnerInstructionCount := c.unknownInnerInstructionCount + 1 }

/-- An instruction whose indexes are out of bounds is unknown, too: the error is caught
inside of the loop, and the others are still classified. -/
def classifyOrUnknown (inner : InnerMessage) (feePayer : Option String) (allowMemo : Bool)
    (cix : CompiledInstruction) : Classified :=
  match classifyInstruction inner feePayer allowMemo cix with
  | .ok c => c
  | .error _ => .unknown

/-- Classify every inner instruction of a vault transaction message. Lookup tables cannot be
resolved offline, and each of them counts as unknown. -/
def classifyInnerMessage (inner : InnerMessage) (feePayer : Option String) (allowMemo : Bool) :
    Except String InnerClassification := do
  require (inner.accountKeys ≠ []) "vault transaction message has no account keys"
  pure ((inner.instructions.map (classifyOrUnknown inner feePayer allowMemo)).foldl
    InnerClassification.add ⟨[], 0, inner.addressTableLookupCount, []⟩)

/-- What `resolveAtaOwner` makes of one recipient, given the two accounts derived for the
owner. Only token transfers are touched, and a failed derivation is noted as such. -/
def resolveRecipient (owner : Pubkey) (candidates : List Pubkey)
    (r : DecodedSolanaVaultRecipient) : DecodedSolanaVaultRecipient :=
  match r.asset, given r.ata with
  | .spl, some ata =>
      if ata ∈ candidates.map toBase58 then
        { r with address := toBase58 owner, ataVerified := some true }
      else { r with address := ata, ataVerified := some false }
  | _, _ => r

/-- Resolve SPL recipients' token accounts to their owner, under both token programs. An
owner or a mint that is no key throws. -/
def resolveAtaOwner (env : Env) (recipients : List DecodedSolanaVaultRecipient)
    (ownerBase58 mintBase58 : String) : Except String (List DecodedSolanaVaultRecipient) := do
  let owner ← publicKey ownerBase58
  let mint ← publicKey mintBase58
  let token ← deriveAssociatedTokenAddress env owner mint tokenProgramId
  let token2022 ← deriveAssociatedTokenAddress env owner mint token2022ProgramId
  pure (recipients.map (resolveRecipient owner [token, token2022]))

/-- The optional resolution, when owner and mint are both given; else the recipients stay as
they were decoded. -/
def resolveGiven (env : Env) (recipients : List DecodedSolanaVaultRecipient)
    (owner mint : Option String) : Except String (List DecodedSolanaVaultRecipient) :=
  match given owner, given mint with
  | some o, some m => resolveAtaOwner env recipients o m
  | _, _ => pure recipients

/-! ## What a classification says -/

/-- **What is shown.** `r` shows the transfer `ix` out of the vault. `claimed` are the owner
and the mint the recipients were resolved for, if they were. -/
inductive Shows (env : Env) (vault : Pubkey) (claimed : Option (String × String))
    (ix : Instruction) : DecodedSolanaVaultRecipient → Prop
  /-- lamports, to the address shown -/
  | native {dst : Pubkey} {amount : ℕ} : IsSystemTransfer ix vault dst amount →
      Shows env vault claimed ix
        ⟨toBase58 dst, none, none, toString amount, .native, none, none, none⟩
  /-- tokens, into the account shown or into an account of the owner shown -/
  | spl {mint dst : Pubkey} {amount : ℕ} {address : String} {verified : Option Bool}
      {decimals : Option UInt8} : IsTransferChecked ix mint dst vault amount →
      (address = toBase58 dst ∧ verified ≠ some true ∨
        ∃ owner m, claimed = some (toBase58 owner, toBase58 m) ∧ address = toBase58 owner ∧
          IsAssociatedTokenAccount env owner m dst) →
      Shows env vault claimed ix
        ⟨address, some (toBase58 dst), verified, toString amount, .spl, some (toBase58 mint),
          decimals, some (toBase58 ix.programId)⟩

/-- `c` says what `ix` does. An unknown says nothing, and a gate that accepts has none. -/
def Classified.Explains (env : Env) (vault : Pubkey) (feePayer : Option String)
    (allowMemo : Bool) (ix : Instruction) : Classified → Prop
  | .recipient r => Shows env vault none ix r
  | .fee amount => ∃ dst, feePayer = some (toBase58 dst) ∧ IsSystemTransfer ix vault dst amount
  | .memo _ => allowMemo = true ∧ IsMemo ix
  | .unknown => True

section Explains

variable {message : TransactionMessage} {vaultIndex : UInt8} {cix : CompiledInstruction}
  {k vault : Pubkey} {i : ℕ}

theorem resolve_eq_ok {index : UInt8}
    (h : (InnerMessage.of vaultIndex message).resolve index = .ok k) : message.key index = k :=
  TransactionMessage.key_of_getElem? (orElse_eq_ok.mp h)

/-- An account found by the decoder is the one the instruction gets on chain. -/
theorem account_eq_ok (h : (InnerMessage.of vaultIndex message).account cix i = .ok k)
    (hi : i < cix.accountIndexes.length) : (message.instruction cix).keys[i]? = some k := by
  rw [message.keys_instruction, List.getElem?_map, List.getElem?_eq_getElem hi, Option.map_some]
  rw [InnerMessage.account, List.getD_eq_getElem?_getD, List.getElem?_eq_getElem hi,
    Option.getD_some] at h
  rw [resolve_eq_ok h]

theorem readU64LE_eq_ok {buf : List UInt8} {offset n : ℕ} (h : readU64LE buf offset = .ok n) :
    n = leNat ((buf.drop offset).take 8) := by
  simp only [readU64LE, bind_eq_ok, require_eq_ok, pure_eq_ok] at h
  obtain ⟨-, -, rfl⟩ := h
  rfl

theorem pair_isPrefix {α : Type} {l : List α} {a b : α} (ha : l[0]? = some a)
    (hb : l[1]? = some b) : [a, b] <+: l := by
  obtain ⟨x, l, rfl⟩ := List.exists_cons_of_ne_nil (l := l) (by rintro rfl; cases ha)
  obtain ⟨y, l, rfl⟩ := List.exists_cons_of_ne_nil (l := l) (by rintro rfl; cases hb)
  obtain rfl := Option.some.inj ha
  obtain rfl := Option.some.inj hb
  exact ⟨l, rfl⟩

theorem quad_isPrefix {α : Type} {l : List α} {b c d : α} (hb : l[1]? = some b)
    (hc : l[2]? = some c) (hd : l[3]? = some d) : ∃ a, [a, b, c, d] <+: l := by
  obtain ⟨x, l, rfl⟩ := List.exists_cons_of_ne_nil (l := l) (by rintro rfl; cases hb)
  obtain ⟨y, l, rfl⟩ := List.exists_cons_of_ne_nil (l := l) (by rintro rfl; cases hb)
  obtain rfl := Option.some.inj hb
  obtain ⟨l', hl'⟩ := pair_isPrefix (l := l) hc hd
  exact ⟨x, l', by rw [← hl']; rfl⟩

/-- What passes the test for a System transfer is one: the program reads the same bytes and
the same accounts. -/
theorem isSystemTransfer_of_read {source dest : Pubkey} {amount : ℕ}
    (hguard : (message.instruction cix).programId = systemProgramId ∧ cix.data.length = 12 ∧
      leNat (cix.data.take 4) = 2 ∧ 2 ≤ cix.accountIndexes.length)
    (hsource : (InnerMessage.of vaultIndex message).account cix 0 = .ok source)
    (hdest : (InnerMessage.of vaultIndex message).account cix 1 = .ok dest)
    (hamount : readU64LE cix.data 4 = .ok amount) :
    IsSystemTransfer (message.instruction cix) source dest amount := by
  obtain ⟨hprogram, hlen, htag, hcount⟩ := hguard
  obtain rfl := readU64LE_eq_ok hamount
  obtain ⟨hdata, hlt⟩ := systemTransfer_data hlen htag
  exact
    { program_eq := hprogram
      data_eq := hdata
      lamports_lt := hlt
      accounts := pair_isPrefix (account_eq_ok hsource (by omega)) (account_eq_ok hdest (by omega)) }

/-- What passes the test for a `TransferChecked` is one, under either token program. -/
theorem isTransferChecked_of_read {mint dest authority : Pubkey} {amount : ℕ}
    (hguard : ((message.instruction cix).programId = tokenProgramId ∨
      (message.instruction cix).programId = token2022ProgramId) ∧ cix.data.length = 10 ∧
      cix.data[0]? = some 12 ∧ 4 ≤ cix.accountIndexes.length)
    (hmint : (InnerMessage.of vaultIndex message).account cix 1 = .ok mint)
    (hdest : (InnerMessage.of vaultIndex message).account cix 2 = .ok dest)
    (hauthority : (InnerMessage.of vaultIndex message).account cix 3 = .ok authority)
    (hamount : readU64LE cix.data 1 = .ok amount) :
    IsTransferChecked (message.instruction cix) mint dest authority amount := by
  obtain ⟨htoken, hlen, htag, hcount⟩ := hguard
  obtain rfl := readU64LE_eq_ok hamount
  obtain ⟨hdata, hlt⟩ := transferChecked_data hlen htag
  exact
    { program_eq := htoken
      data_eq := hdata
      amount_lt := hlt
      accounts := quad_isPrefix (account_eq_ok hmint (by omega)) (account_eq_ok hdest (by omega))
        (account_eq_ok hauthority (by omega)) }

/-- **An instruction is what it is classified as.** The cases are those of the source: a
System transfer, a `TransferChecked`, a memo, and whatever is left. -/
theorem classifyInstruction_explains {feePayer : Option String} {allowMemo : Bool}
    {c : Classified} (hvault : message.accountKeys[0]? = some vault)
    (h : classifyInstruction (InnerMessage.of vaultIndex message) feePayer allowMemo cix =
      .ok c) :
    c.Explains env vault feePayer allowMemo (message.instruction cix) := by
  have hfirst : (InnerMessage.of vaultIndex message).accountKeys[0]? = some vault := hvault
  simp only [classifyInstruction, hfirst, bind_eq_ok] at h
  obtain ⟨prog, hprog, h⟩ := h
  obtain rfl : (message.instruction cix).programId = prog := resolve_eq_ok hprog
  split at h
  · -- a System transfer
    rename_i hguard
    simp only [bind_eq_ok] at h
    obtain ⟨source, hsource, dest, hdest, amount, hamount, h⟩ := h
    split at h
    · cases h
      trivial
    · rename_i hne
      obtain rfl : vault = source := by simpa using hne
      have htransfer := isSystemTransfer_of_read hguard hsource hdest hamount
      split at h
      · rename_i hfee
        cases h
        exact ⟨dest, (given_eq_some hfee).1, htransfer⟩
      · cases h
        exact .native htransfer
  · split at h
    · -- a TransferChecked
      rename_i hguard
      simp only [bind_eq_ok] at h
      obtain ⟨authority, hauthority, h⟩ := h
      split at h
      · cases h
        trivial
      · rename_i hne
        obtain rfl : vault = authority := by simpa using hne
        simp only [bind_eq_ok] at h
        obtain ⟨dest, hdest, amount, hamount, mint, hmint, h⟩ := h
        cases h
        exact .spl (isTransferChecked_of_read hguard hmint hdest hauthority hamount)
          (.inl ⟨rfl, by simp⟩)
    · split at h
      · -- a memo
        rename_i hguard
        obtain ⟨hallow, hmemo, hnone⟩ := hguard
        split at h
        · cases h
          refine ⟨hallow, hmemo, ?_⟩
          simp [TransactionMessage.instruction, hnone]
        · cases h
          trivial
      · cases h
        trivial

/-- A refund is classified as one, unless nothing is known about it. So a transfer to the
fee payer never counts as a payment. -/
theorem classifyOrUnknown_refund {payer : Pubkey} {lamports : ℕ} {allowMemo : Bool}
    (hvault : message.accountKeys[0]? = some vault)
    (hcall : IsSystemTransfer (message.instruction cix) vault payer lamports)
    (hknown : classifyOrUnknown (.of vaultIndex message) (some (toBase58 payer)) allowMemo cix ≠
      .unknown) :
    classifyOrUnknown (.of vaultIndex message) (some (toBase58 payer)) allowMemo cix =
      .fee lamports := by
  unfold classifyOrUnknown at hknown ⊢
  split at hknown
  · rename_i c hc
    have hfirst : (InnerMessage.of vaultIndex message).accountKeys[0]? = some vault := hvault
    have hdata : cix.data = leBytes 4 2 ++ leBytes 8 lamports := hcall.data_eq
    -- the data of a transfer pass the guard, and are read back
    have htag : leNat (cix.data.take 4) = 2 := by
      rw [hdata]
      simp [leNat_leBytes]
    have hamount : leNat ((cix.data.drop 4).take 8) = lamports := by
      have hlt : lamports < 256 ^ 8 := hcall.lamports_lt
      rw [hdata, List.drop_left' (length_leBytes 4 2), List.take_of_length_le (by simp),
        leNat_leBytes hlt]
    have hcount : 2 ≤ cix.accountIndexes.length := by
      have hlen := hcall.accounts.length_le
      rwa [message.keys_instruction, List.length_map] at hlen
    simp only [classifyInstruction, hfirst, bind_eq_ok] at hc
    obtain ⟨prog, hprog, hc⟩ := hc
    obtain rfl : prog = systemProgramId := (resolve_eq_ok hprog).symm.trans hcall.program_eq
    rw [if_pos ⟨rfl, by simp [hdata], htag, hcount⟩] at hc
    simp only [bind_eq_ok] at hc
    obtain ⟨source, hsource, dest, hdest, amount, hread, hc⟩ := hc
    obtain ⟨rest, hkeys⟩ := hcall.accounts
    have hsource' := account_eq_ok hsource (by omega)
    have hdest' := account_eq_ok hdest (by omega)
    rw [← hkeys] at hsource' hdest'
    obtain rfl := Option.some.inj hsource'
    obtain rfl := Option.some.inj hdest'
    rw [if_neg (by simp), if_pos (given_toBase58 payer), readU64LE_eq_ok hread, hamount] at hc
    exact (Except.ok.inj hc).symm
  · exact absurd rfl hknown

end Explains

/-! ## The whole message -/

/-- The recipient, if it is one. -/
def Classified.recipient? : Classified → Option DecodedSolanaVaultRecipient
  | .recipient r => some r
  | _ => none

/-- The refund, if it is one. -/
def Classified.fee? : Classified → Option ℕ
  | .fee amount => some amount
  | _ => none

/-- Counting one instruction after the other: payments in order, refunds as a sum, and no
unknown exactly when none was met. -/
theorem foldl_add (c : InnerClassification) (cs : List Classified) :
    (cs.foldl InnerClassification.add c).recipients =
        c.recipients ++ cs.filterMap Classified.recipient? ∧
      (cs.foldl InnerClassification.add c).feeLamports =
        c.feeLamports + (cs.filterMap Classified.fee?).sum ∧
      ((cs.foldl InnerClassification.add c).unknownInnerInstructionCount = 0 ↔
        c.unknownInnerInstructionCount = 0 ∧ .unknown ∉ cs) := by
  induction cs generalizing c with
  | nil => simp
  | cons x cs ih =>
    obtain ⟨hr, hf, hu⟩ := ih (c.add x)
    rw [List.foldl_cons, hr, hf, hu, List.filterMap_cons, List.filterMap_cons]
    cases x with
    | recipient r => simp [InnerClassification.add, Classified.recipient?, Classified.fee?]
    | fee amount =>
      simp [InnerClassification.add, Classified.recipient?, Classified.fee?, Nat.add_assoc]
    | memo text => simp [InnerClassification.add, Classified.recipient?, Classified.fee?]
    | unknown => simp [InnerClassification.add, Classified.recipient?, Classified.fee?]

/-- The instructions sorted by what explains them. Without unknowns the three kinds together
are all of them, in some order. -/
theorem split_of_explains {vault : Pubkey} {feePayer : Option String} {allowMemo : Bool}
    {calls : List Instruction} {cs : List Classified}
    (h : List.Forall₂ (fun ix c => Classified.Explains env vault feePayer allowMemo ix c) calls cs)
    (hknown : .unknown ∉ cs) :
    ∃ payments refunds memos, calls.Perm (payments ++ (refunds ++ memos)) ∧
      List.Forall₂ (Shows env vault none) payments (cs.filterMap Classified.recipient?) ∧
      List.Forall₂ (fun lamports ix => ∃ dst, feePayer = some (toBase58 dst) ∧
        IsSystemTransfer ix vault dst lamports) (cs.filterMap Classified.fee?) refunds ∧
      ∀ ix ∈ memos, allowMemo = true ∧ IsMemo ix := by
  induction h with
  | nil => exact ⟨[], [], [], .refl _, .nil, .nil, fun ix hix => absurd hix List.not_mem_nil⟩
  | @cons ix c calls cs hc _ ih =>
    obtain ⟨hc', hknown'⟩ : Classified.unknown ≠ c ∧ Classified.unknown ∉ cs := by
      simpa using hknown
    obtain ⟨payments, refunds, memos, hperm, hpay, hrefund, hmemo⟩ := ih hknown'
    cases c with
    | recipient r =>
      exact ⟨ix :: payments, refunds, memos, hperm.cons ix, .cons hc hpay, hrefund, hmemo⟩
    | fee amount =>
      refine ⟨payments, ix :: refunds, memos, ?_, hpay, .cons hc hrefund, hmemo⟩
      exact (hperm.cons ix).trans List.perm_middle.symm
    | memo text =>
      refine ⟨payments, refunds, ix :: memos, ?_, hpay, hrefund,
        List.forall_mem_cons.mpr ⟨hc, hmemo⟩⟩
      refine (hperm.cons ix).trans ?_
      rw [← List.append_assoc, ← List.append_assoc]
      exact List.perm_middle.symm
    | unknown => exact absurd rfl hc'

/-- **A classification without unknowns accounts for every instruction** of the message,
which then names no lookup table. -/
theorem classifyInnerMessage_explains (env : Env) {message : TransactionMessage} {vaultIndex : UInt8}
    {feePayer : Option String} {allowMemo : Bool} {c : InnerClassification} {vault : Pubkey}
    (hvault : message.accountKeys[0]? = some vault)
    (h : classifyInnerMessage (.of vaultIndex message) feePayer allowMemo = .ok c)
    (hknown : c.unknownInnerInstructionCount = 0) :
    ∃ payments refunds memos, ∃ amounts : List ℕ,
      message.calls.Perm (payments ++ (refunds ++ memos)) ∧
      List.Forall₂ (Shows env vault none) payments c.recipients ∧
      amounts.sum = c.feeLamports ∧
      List.Forall₂ (fun lamports ix => ∃ dst, feePayer = some (toBase58 dst) ∧
        IsSystemTransfer ix vault dst lamports) amounts refunds ∧
      ∀ ix ∈ memos, allowMemo = true ∧ IsMemo ix := by
  simp only [classifyInnerMessage, bind_eq_ok, require_eq_ok, pure_eq_ok] at h
  obtain ⟨-, -, rfl⟩ := h
  obtain ⟨hrecipients, hfee, hcount⟩ := foldl_add
    ⟨[], 0, (InnerMessage.of vaultIndex message).addressTableLookupCount, []⟩
    ((InnerMessage.of vaultIndex message).instructions.map
      (classifyOrUnknown (.of vaultIndex message) feePayer allowMemo))
  obtain ⟨-, hunknown⟩ := hcount.mp hknown
  -- instructions with indexes out of bounds are unknown, which explains nothing
  have hexplains : List.Forall₂
      (fun ix c => Classified.Explains env vault feePayer allowMemo ix c)
      message.calls
      (message.instructions.map (classifyOrUnknown (.of vaultIndex message) feePayer allowMemo)) := by
    rw [TransactionMessage.calls, List.forall₂_map_left_iff, List.forall₂_map_right_iff, List.forall₂_same]
    intro cix _
    unfold classifyOrUnknown
    split
    · rename_i c hc
      exact classifyInstruction_explains hvault hc
    · trivial
  obtain ⟨payments, refunds, memos, hperm, hpay, hrefund, hmemo⟩ :=
    split_of_explains hexplains hunknown
  refine ⟨payments, refunds, memos, _, hperm, ?_, ?_, hrefund, hmemo⟩
  · rw [hrecipients]
    exact hpay
  · rw [hfee, Nat.zero_add]
    rfl

/-- Refunds are counted: one that moves something shows in the sum. -/
theorem feeLamports_pos {message : TransactionMessage} {vaultIndex : UInt8} {allowMemo : Bool}
    {c : InnerClassification} {vault payer : Pubkey} {call : Instruction} {lamports : ℕ}
    (hvault : message.accountKeys[0]? = some vault)
    (h : classifyInnerMessage (.of vaultIndex message) (some (toBase58 payer)) allowMemo = .ok c)
    (hknown : c.unknownInnerInstructionCount = 0) (hcall : call ∈ message.calls)
    (hrefund : IsSystemTransfer call vault payer lamports) (hpos : 0 < lamports) :
    0 < c.feeLamports := by
  simp only [classifyInnerMessage, bind_eq_ok, require_eq_ok, pure_eq_ok] at h
  obtain ⟨-, -, rfl⟩ := h
  obtain ⟨-, hfee, hcount⟩ := foldl_add
    ⟨[], 0, (InnerMessage.of vaultIndex message).addressTableLookupCount, []⟩
    ((InnerMessage.of vaultIndex message).instructions.map
      (classifyOrUnknown (.of vaultIndex message) (some (toBase58 payer)) allowMemo))
  obtain ⟨-, hunknown⟩ := hcount.mp hknown
  obtain ⟨cix, hcix, rfl⟩ := List.mem_map.mp hcall
  have hclass := classifyOrUnknown_refund hvault hrefund
    fun hnone => hunknown (hnone ▸ List.mem_map_of_mem hcix)
  rw [hfee, Nat.zero_add]
  refine List.sum_pos_iff_exists_pos_nat.mpr
    ⟨lamports, List.mem_filterMap.mpr ⟨.fee lamports, ?_, rfl⟩, hpos⟩
  exact hclass ▸ List.mem_map_of_mem hcix

/-! ## Resolving token accounts -/

/-- Whom the recipients are resolved for, if the caller names both an owner and a mint. -/
def claimedOwner (owner mint : Option String) : Option (String × String) :=
  match given owner, given mint with
  | some o, some m => some (o, m)
  | _, _ => none

/-- Resolving shows the same transfer under its owner, if it has the right accounts. The
amount and the mint are left as they were. -/
theorem shows_resolveRecipient {vault owner mint token token2022 : Pubkey} {ix : Instruction}
    {r : DecodedSolanaVaultRecipient} (h : Shows env vault none ix r)
    (htoken : deriveAssociatedTokenAddress env owner mint tokenProgramId = .ok token)
    (htoken2022 : deriveAssociatedTokenAddress env owner mint token2022ProgramId = .ok token2022) :
    Shows env vault (some (toBase58 owner, toBase58 mint)) ix
      (resolveRecipient owner [token, token2022] r) := by
  cases h with
  | native htransfer => exact .native htransfer
  | @spl m dst amount address verified decimals htransfer _ =>
    simp only [resolveRecipient, given_toBase58]
    split
    · rename_i hmem
      have hdst : dst = token ∨ dst = token2022 := by simpa using hmem
      refine .spl htransfer (.inr ⟨owner, mint, rfl, rfl, ?_⟩)
      rcases hdst with rfl | rfl
      · exact .inl htoken
      · exact .inr htoken2022
    · exact .spl htransfer (.inl ⟨rfl, by simp⟩)

theorem shows_resolveAtaOwner {vault : Pubkey} {payments : List Instruction}
    {rs rs' : List DecodedSolanaVaultRecipient} {o m : String}
    (h : List.Forall₂ (Shows env vault none) payments rs)
    (hresolve : resolveAtaOwner env rs o m = .ok rs') :
    List.Forall₂ (Shows env vault (some (o, m))) payments rs' := by
  simp only [resolveAtaOwner, bind_eq_ok, publicKey_eq_ok, pure_eq_ok] at hresolve
  obtain ⟨owner, rfl, mint, rfl, token, htoken, token2022, htoken2022, rfl⟩ := hresolve
  rw [List.forall₂_map_right_iff]
  exact h.imp fun ix r hshows => shows_resolveRecipient hshows htoken htoken2022

theorem shows_resolveGiven {vault : Pubkey} {payments : List Instruction}
    {rs rs' : List DecodedSolanaVaultRecipient} {owner mint : Option String}
    (h : List.Forall₂ (Shows env vault none) payments rs)
    (hresolve : resolveGiven env rs owner mint = .ok rs') :
    List.Forall₂ (Shows env vault (claimedOwner owner mint)) payments rs' := by
  unfold resolveGiven at hresolve
  unfold claimedOwner
  split at hresolve
  · exact shows_resolveAtaOwner h hresolve
  · rw [pure_eq_ok] at hresolve
    subst hresolve
    exact h

end SolanaMultisig.Sdk
