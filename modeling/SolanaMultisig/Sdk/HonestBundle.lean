import SolanaMultisig.Space
import SolanaMultisig.BuildPath
import SolanaMultisig.ConsumerPath
import SolanaMultisig.Sdk.HonestSend

/-!
# Honest bundles are accepted

The steps a wallet bundles around the message of a send (`HonestBundle`). Each is
parsed as what it is, each rule of the consumer gate holds, and the gate accepts the
bundle without mismatches and shows the send (`honest_bundle_accepted`).
-/

namespace SolanaMultisig.Sdk

open Wire Guard Report

variable {env : Env} {web3 : Web3}

/-! ## The bundle -/

/-- Solana's cap on the size of a transaction, which bounds the data of each instruction in
it. -/
def maxTransactionSize : ℕ := 1232

/-- What an outer instruction of the bundle is for. The steps are in the vocabulary of the
wallet, before there are any bytes. -/
inductive ConsumerStep where
  | nonceAdvance
  | unitLimit (units : UInt32)
  | unitPrice (microLamports : UInt64)
  | ataCreate
  | create (creator : Pubkey)
  | approve (member : Pubkey)
  | execute
  | close
  deriving DecidableEq

namespace ConsumerStep

/-- The limit, if it sets one. -/
def unitLimit? : ConsumerStep → Option UInt32
  | .unitLimit units => some units
  | _ => none

/-- The price, if it sets one. -/
def unitPrice? : ConsumerStep → Option UInt64
  | .unitPrice microLamports => some microLamports
  | _ => none

/-- The creator, if it is the creation. -/
def creator? : ConsumerStep → Option Pubkey
  | .create creator => some creator
  | _ => none

/-- The approver, if it is an approval. -/
def approver? : ConsumerStep → Option Pubkey
  | .approve member => some member
  | _ => none

/-- The instruction `ix` takes this step, whatever privileges its accounts have got from
other instructions, and whatever accounts follow the ones named. -/
def Is (programId : Pubkey) (send : ConsumerSend) (message : TransactionMessage)
    (ix : Instruction) : ConsumerStep → Prop
  | .nonceAdvance => ix.programId = systemProgramId ∧ ix.data = leBytes 4 4
  | .unitLimit units => ix.programId = computeBudgetProgramId ∧ ix.data = 2 :: leBytes 4 units.toNat
  | .unitPrice price => ix.programId = computeBudgetProgramId ∧ ix.data = 3 :: leBytes 8 price.toNat
  | .ataCreate => ix.programId = ataProgramId ∧ ix.data ∈ [[], [0], [1]] ∧
      ∃ t, send.token = some t ∧ [send.paymaster, t.destination, send.recipient, t.mint,
        systemProgramId, t.tokenProgram] <+: ix.keys
  | .create creator => ix.programId = programId ∧
      (∃ payer, [send.multisig, send.transaction, creator, payer] <+: ix.keys) ∧
      ix.data = createTransactionTag ++
        (send.vaultIndex :: TransactionMessage.codec.encode message)
  | .approve member => ix.programId = programId ∧ approveTransactionTag <+: ix.data ∧
      [send.multisig, send.transaction, member] <+: ix.keys
  | .execute => ix.programId = programId ∧ executeTransactionTag <+: ix.data ∧
      [send.multisig, send.transaction] <+: ix.keys
  | .close => ix.programId = programId ∧ closeTransactionTag <+: ix.data ∧
      [send.multisig, send.transaction] <+: ix.keys

end ConsumerStep

/-- **The steps of an honest bundle**, in any order behind the nonceAdvance: one creation,
the approval of the signer, and everything else at most once or by distinct members. -/
structure HonestSteps (params : ConsumerSolanaBundleParams) (send : ConsumerSend)
    (steps : List ConsumerStep) : Prop where
  nonce_first : .nonceAdvance ∉ steps.tail
  unitLimits_le : (steps.filterMap ConsumerStep.unitLimit?).length ≤ 1
  unitPrices_le : (steps.filterMap ConsumerStep.unitPrice?).length ≤ 1
  limit_le : ∀ units, .unitLimit units ∈ steps → ∀ limit, params.maxComputeUnitLimit = some limit →
    ∃ cap, limit.bigInt = .ok cap ∧ (units.toNat : ℤ) ≤ cap
  price_le : ∀ price, .unitPrice price ∈ steps → ∀ limit,
    params.maxComputeUnitPriceMicroLamports = some limit →
      ∃ cap, toBigIntOrNull (some limit) = some cap ∧ price.toNat ≤ cap
  ataCreates_le : steps.count .ataCreate ≤ 1
  create : ∃ creator ∈ send.members, steps.filterMap ConsumerStep.creator? = [creator]
  approvers_nodup : (steps.filterMap ConsumerStep.approver?).Nodup
  approver_mem : ∀ member, .approve member ∈ steps → member ∈ send.members
  signer_approves : .approve send.signer ∈ steps
  executes_le : steps.count .execute ≤ 1
  closes_le : steps.count .close ≤ 1

/-- A transaction that takes such steps, paid by the paymaster, around the message of a
send. -/
structure HonestBundle (params : ConsumerSolanaBundleParams) (send : ConsumerSend)
    (message : TransactionMessage) (tx : Transaction) : Prop where
  feePayer_eq : tx.feePayer = some send.paymaster
  steps : ∃ steps, HonestSteps params send steps ∧
    List.Forall₂ (fun ix step => ConsumerStep.Is params.programId send message ix step)
      tx.instructions steps
  size_le : ∀ ix ∈ tx.instructions, ix.data.length ≤ maxTransactionSize

/-- A step that was parsed as what it is, with the accounts of the send. -/
inductive ConsumerStep.Parsed (send : ConsumerSend) (message : TransactionMessage) :
    ConsumerStep → ParsedOuter → Prop
  | nonceAdvance (index : ℕ) : Parsed send message .nonceAdvance (.nonceAdvance index)
  | unitLimit (index : ℕ) (units : UInt32) : Parsed send message (.unitLimit units)
      (.computeBudget ⟨index, 2, some units.toNat⟩)
  | unitPrice (index : ℕ) (price : UInt64) : Parsed send message (.unitPrice price)
      (.computeBudget ⟨index, 3, some price.toNat⟩)
  | ataCreate (index : ℕ) {t : TokenSend} : send.token = some t → Parsed send message .ataCreate
      (.ataCreate ⟨index, some (toBase58 send.paymaster), some (toBase58 t.destination),
        some (toBase58 send.recipient), some (toBase58 t.mint), some (toBase58 t.tokenProgram), true⟩)
  | create {c : ParsedCreate} {creator payer : Pubkey} :
      [send.multisig, send.transaction, creator, payer] <+: c.keys →
      c.inner = .of send.vaultIndex message → Parsed send message (.create creator) (.create c)
  | approve {a : ParsedMultisigIx} {member : Pubkey} :
      [send.multisig, send.transaction, member] <+: a.keys →
      Parsed send message (.approve member) (.approve a)
  | execute {e : ParsedMultisigIx} : [send.multisig, send.transaction] <+: e.keys →
      Parsed send message .execute (.execute e)
  | close {c : ParsedMultisigIx} : [send.multisig, send.transaction] <+: c.keys →
      Parsed send message .close (.close c)

/-! ## Parsing -/

section Parsing

variable {params : ConsumerSolanaBundleParams} {send : ConsumerSend} {message : TransactionMessage}
  {programId : Pubkey} {ix : Instruction}

/-- The data of an instruction of the program start with its discriminator, which is all
that tells the kinds apart. -/
theorem take_of_isPrefix {tag data : List UInt8} (hlen : tag.length = 8) (h : tag <+: data) :
    data.take 8 = tag := by
  rw [← hlen]
  exact (List.prefix_iff_eq_take.mp h).symm

/-- The message is read back from the data that the client wrote. -/
theorem parseCreateTransactionData_encode {vaultIndex : UInt8}
    (hfits : TransactionMessage.codec.Fits message) :
    parseCreateTransactionData
        (createTransactionTag ++ (vaultIndex :: TransactionMessage.codec.encode message)) =
      .ok (.of vaultIndex message) := by
  refine parseCreateTransactionData_eq_ok.mpr ⟨vaultIndex, message, [], ?_, ?_, rfl⟩
  · rw [List.length_append]
    exact Nat.le_add_right 8 _
  · refine (Codec.decode_eq_some_iff _).mpr ⟨⟨trivial, hfits⟩, ?_⟩
    rw [List.append_nil]
    rfl

/-- A ComputeBudget instruction is shown with what it sets, or with nothing. -/
theorem parseOuter_computeBudget {value : Option ℕ} (hid : ix.programId = computeBudgetProgramId)
    (hvalue : computeBudgetValue ix.data = .ok value) (index : ℕ) :
    parseOuter programId ix index =
      .ok (.computeBudget ⟨index, computeBudgetTag ix.data, value⟩) := by
  have hsystem : computeBudgetProgramId ≠ systemProgramId := by decide
  rw [parseOuter, hid, if_neg hsystem, if_pos rfl, hvalue]
  rfl

theorem computeBudgetValue_unitLimit (units : UInt32) :
    computeBudgetValue (2 :: leBytes 4 units.toNat) = .ok (some units.toNat) := by
  have hlt : units.toNat < 256 ^ 4 := units.toNat_lt
  simp [computeBudgetValue, computeBudgetTag, leNat_leBytes hlt, pure, Except.pure]

theorem computeBudgetValue_unitPrice (microLamports : UInt64) :
    computeBudgetValue (3 :: leBytes 8 microLamports.toNat) = .ok (some microLamports.toNat) := by
  have hread : readU64LE (3 :: leBytes 8 microLamports.toNat) 1 = .ok microLamports.toNat := by
    have hread := readU64LE_append microLamports [3] []
    rwa [List.append_nil, List.singleton_append] at hread
  rw [computeBudgetValue, if_neg (by simp [computeBudgetTag]), if_pos (by simp [computeBudgetTag]),
    hread]
  rfl

theorem parseOuter_ataCreate (hid : ix.programId = ataProgramId) (index : ℕ) :
    parseOuter programId ix index = .ok (.ataCreate (parseAtaCreate index ix)) := by
  have hsystem : ataProgramId ≠ systemProgramId := by decide
  have hbudget : ataProgramId ≠ computeBudgetProgramId := by decide
  rw [parseOuter, hid, if_neg hsystem, if_neg hbudget, if_pos rfl]
  rfl

/-- **Each step is parsed as what it is.** One case for each kind of step, and none of them
can fail. -/
theorem ConsumerStep.Is.parse {step : ConsumerStep}
    (hprogram : programId ∉ [systemProgramId, computeBudgetProgramId, ataProgramId])
    (h : step.Is programId send message ix) (hsize : ix.data.length ≤ maxTransactionSize)
    (index : ℕ) : ∃ o, parseOuter programId ix index = .ok o ∧ step.Parsed send message o := by
  cases step with
  | nonceAdvance =>
    obtain ⟨hid, hdata⟩ := h
    refine ⟨.nonceAdvance index, ?_, .nonceAdvance index⟩
    rw [parseOuter, if_pos hid, if_pos (by simp [hdata, leNat_leBytes])]
    rfl
  | unitLimit units =>
    obtain ⟨hid, hdata⟩ := h
    refine ⟨_, ?_, .unitLimit index units⟩
    rw [parseOuter_computeBudget hid (hdata ▸ computeBudgetValue_unitLimit units), hdata]
    rfl
  | unitPrice price =>
    obtain ⟨hid, hdata⟩ := h
    refine ⟨_, ?_, .unitPrice index price⟩
    rw [parseOuter_computeBudget hid (hdata ▸ computeBudgetValue_unitPrice price), hdata]
    rfl
  | ataCreate =>
    obtain ⟨hid, hdata, t, ht, hkeys⟩ := h
    refine ⟨_, ?_, .ataCreate index ht⟩
    have hok : ix.data = [] ∨ ix.data = [0] ∨ ix.data = [1] := by simpa using hdata
    rw [parseOuter_ataCreate hid, parseAtaCreate,
      getElem?_of_isPrefix hkeys (i := 0) rfl, getElem?_of_isPrefix hkeys (i := 1) rfl,
      getElem?_of_isPrefix hkeys (i := 2) rfl, getElem?_of_isPrefix hkeys (i := 3) rfl,
      getElem?_of_isPrefix hkeys (i := 5) rfl, decide_eq_true hok]
    rfl
  | create creator =>
    obtain ⟨hid, ⟨payer, hkeys⟩, hdata⟩ := h
    -- a message that fits a packet has lengths that fit their fields
    have hlen : (TransactionMessage.codec.encode message).length ≤ maxTransactionSize := by
      rw [hdata, List.length_append, List.length_cons] at hsize
      omega
    have hfits := short_message message (hlen.trans_lt (by decide))
    have htag : ix.data.take 8 = createTransactionDiscriminator := by
      rw [hdata]
      exact List.take_left' rfl
    refine ⟨.create ⟨⟨index, ix.keys, ix.data⟩, .of send.vaultIndex message⟩, ?_,
      .create hkeys rfl⟩
    rw [parseOuter_own ⟨hid, hprogram⟩, parseMultisigIx, if_pos htag, hdata,
      parseCreateTransactionData_encode hfits]
    rfl
  | approve member =>
    obtain ⟨hid, htag, hkeys⟩ := h
    refine ⟨.approve ⟨index, ix.keys, ix.data⟩, ?_, .approve hkeys⟩
    rw [parseOuter_own ⟨hid, hprogram⟩, parseMultisigIx, take_of_isPrefix rfl htag]
    rfl
  | execute =>
    obtain ⟨hid, htag, hkeys⟩ := h
    refine ⟨.execute ⟨index, ix.keys, ix.data⟩, ?_, .execute hkeys⟩
    rw [parseOuter_own ⟨hid, hprogram⟩, parseMultisigIx, take_of_isPrefix rfl htag]
    rfl
  | close =>
    obtain ⟨hid, htag, hkeys⟩ := h
    refine ⟨.close ⟨index, ix.keys, ix.data⟩, ?_, .close hkeys⟩
    rw [parseOuter_own ⟨hid, hprogram⟩, parseMultisigIx, take_of_isPrefix rfl htag]
    rfl

/-- All steps are parsed, one after the other, each with its position. -/
theorem parse_steps {steps : List ConsumerStep} {ixs : List Instruction}
    (hprogram : programId ∉ [systemProgramId, computeBudgetProgramId, ataProgramId])
    (h : List.Forall₂ (fun ix step => ConsumerStep.Is programId send message ix step) ixs steps)
    (hsize : ∀ ix ∈ ixs, ix.data.length ≤ maxTransactionSize) (start : ℕ) :
    ∃ outer, List.Forall₂ (fun p o => parseOuter programId p.1 p.2 = .ok o) (ixs.zipIdx start)
        outer ∧
      List.Forall₂ (ConsumerStep.Parsed send message) steps outer := by
  induction h generalizing start with
  | nil => exact ⟨[], .nil, .nil⟩
  | @cons ix step ixs steps hix _ ih =>
    obtain ⟨hsize₀, hsize'⟩ := List.forall_mem_cons.mp hsize
    obtain ⟨o, ho, hparsed⟩ := hix.parse hprogram hsize₀ start
    obtain ⟨outer, houter, hrest⟩ := ih hsize' (start + 1)
    exact ⟨o :: outer, .cons ho houter, .cons hparsed hrest⟩

end Parsing

/-! ## The sorted bundle -/

section Sorted

variable {params : ConsumerSolanaBundleParams} {send : ConsumerSend} {message : TransactionMessage}
  {steps : List ConsumerStep} {outer : List ParsedOuter}
  (hparsed : List.Forall₂ (ConsumerStep.Parsed send message) steps outer)
include hparsed

/-- The one creation of the sorted bundle, of the message. -/
theorem creates_of_parsed {creator : Pubkey}
    (hcreator : steps.filterMap ConsumerStep.creator? = [creator]) :
    ∃ c payer, outer.filterMap ParsedOuter.create? = [c] ∧
      [send.multisig, send.transaction, creator, payer] <+: c.keys ∧
      c.inner = .of send.vaultIndex message := by
  have hrel : List.Forall₂ (fun creator (c : ParsedCreate) =>
      (∃ payer, [send.multisig, send.transaction, creator, payer] <+: c.keys) ∧
        c.inner = .of send.vaultIndex message)
      (steps.filterMap ConsumerStep.creator?) (outer.filterMap ParsedOuter.create?) := by
    refine List.rel_filterMap (fun step o h => ?_) hparsed
    cases h with
    | create hkeys hinner => exact .some ⟨⟨_, hkeys⟩, hinner⟩
    | _ => exact .none
  rw [hcreator, List.forall₂_cons_left_iff] at hrel
  obtain ⟨c, rest, ⟨⟨payer, hkeys⟩, hinner⟩, hrest, heq⟩ := hrel
  cases hrest
  exact ⟨c, payer, heq, hkeys, hinner⟩

/-- The approvals of the proposal, in the order of the steps. -/
theorem approves_of_parsed :
    List.Forall₂ (fun approver a => [send.multisig, send.transaction, approver] <+:
        ParsedMultisigIx.keys a)
      (steps.filterMap ConsumerStep.approver?) (outer.filterMap ParsedOuter.approve?) := by
  refine List.rel_filterMap (fun step o h => ?_) hparsed
  cases h with
  | approve hkeys => exact .some hkeys
  | _ => exact .none

/-- What a selection finds is what was parsed of one kind of step. It is stated for any
kind, and the lists of the bundle are its instances. -/
theorem selected_of_parsed {β : Type} {sel : ParsedOuter → Option β} {step₀ : ConsumerStep}
    {p : β → Prop} (hsel : ∀ step o, step.Parsed send message o →
      Option.Rel (fun _ b => p b) (Option.guard (· == step₀) step) (sel o)) :
    (outer.filterMap sel).length = steps.count step₀ ∧ ∀ b ∈ outer.filterMap sel, p b := by
  have hrel : List.Forall₂ (fun _ b => p b) (steps.filterMap (Option.guard (· == step₀)))
      (outer.filterMap sel) := List.rel_filterMap hsel hparsed
  refine ⟨?_, fun b hb => ?_⟩
  · rw [← hrel.length_eq, List.filterMap_eq_filter, List.count, List.countP_eq_length_filter]
  · obtain ⟨-, -, hp⟩ := exists_left_of_forall₂ hrel hb
    exact hp

theorem executes_of_parsed :
    (outer.filterMap ParsedOuter.execute?).length = steps.count .execute ∧
      ∀ e ∈ outer.filterMap ParsedOuter.execute?,
        [send.multisig, send.transaction] <+: e.keys := by
  refine selected_of_parsed hparsed fun step o h => ?_
  cases h with
  | execute hkeys => exact .some hkeys
  | _ => exact .none

theorem closes_of_parsed :
    (outer.filterMap ParsedOuter.close?).length = steps.count .close ∧
      ∀ c ∈ outer.filterMap ParsedOuter.close?, [send.multisig, send.transaction] <+: c.keys := by
  refine selected_of_parsed hparsed fun step o h => ?_
  cases h with
  | close hkeys => exact .some hkeys
  | _ => exact .none

/-- Account creations are by the paymaster, for the recipient, with all their accounts in
place. -/
theorem ataCreates_of_parsed :
    (outer.filterMap ParsedOuter.ataCreate?).length = steps.count .ataCreate ∧
      ∀ ata ∈ outer.filterMap ParsedOuter.ataCreate?, ∃ index t, send.token = some t ∧
        ata = ⟨index, some (toBase58 send.paymaster), some (toBase58 t.destination),
          some (toBase58 send.recipient), some (toBase58 t.mint), some (toBase58 t.tokenProgram),
          true⟩ := by
  refine selected_of_parsed hparsed fun step o h => ?_
  cases h with
  | ataCreate index ht => exact .some ⟨index, _, ht, rfl⟩
  | _ => exact .none

theorem foreign_of_parsed : outer.filterMap ParsedOuter.foreign? = [] := by
  rw [List.filterMap_eq_nil_iff]
  intro o ho
  obtain ⟨step, -, h⟩ := exists_left_of_forall₂ hparsed ho
  cases h <;> rfl

/-- Only the first step can be a nonceAdvance, so its position is zero. -/
theorem nonceAdvances_of_parsed {programId : Pubkey} {ixs : List Instruction}
    (hnonce : .nonceAdvance ∉ steps.tail)
    (houter : List.Forall₂ (fun p o => parseOuter programId p.1 p.2 = .ok o) ixs.zipIdx outer) :
    outer.filterMap ParsedOuter.nonceAdvance? = [] ∨
      outer.filterMap ParsedOuter.nonceAdvance? = [0] := by
  cases hparsed with
  | nil => exact .inl rfl
  | @cons step o steps outer hstep hrest =>
    have htail : outer.filterMap ParsedOuter.nonceAdvance? = [] := by
      rw [List.filterMap_eq_nil_iff]
      intro o' ho'
      obtain ⟨step', hmem, h⟩ := exists_left_of_forall₂ hrest ho'
      cases h with
      | nonceAdvance index => exact absurd hmem hnonce
      | _ => rfl
    cases hstep with
    | nonceAdvance index =>
      obtain ⟨p, rest, hp, -, hzip⟩ := List.forall₂_cons_right_iff.mp houter
      have hzero : p.2 = 0 := by
        cases ixs with
        | nil => cases hzip
        | cons ix ixs =>
          cases hzip
          rfl
      rw [hzero] at hp
      have hindex := parseOuter_nonceAdvance hp
      refine .inr ?_
      rw [List.filterMap_cons, htail, hindex]
      rfl
    | _ => exact .inl htail

end Sorted

/-! ## The rules on the bundle -/

section Rules

variable {params : ConsumerSolanaBundleParams} {send : ConsumerSend} {message : TransactionMessage}
  {steps : List ConsumerStep} {outer : List ParsedOuter}

/-- The first setter of the limit passes if it is within its cap and what follows passes. -/
theorem clean_unitLimit {price : Option ℕ} {index units : ℕ} {rest : List ParsedComputeBudget}
    {seen : Option ℕ × Option ℕ} (hunits : (checkUnitLimit params units).Clean ())
    (hrest : (checkComputeBudget params (some units) price rest).Clean seen) :
    (checkComputeBudget params none price (⟨index, 2, some units⟩ :: rest)).Clean seen :=
  clean_bind.mpr ⟨⟨⟩, clean_check.mpr rfl, clean_bind.mpr ⟨⟨⟩, hunits, hrest⟩⟩

/-- So does the first setter of the price, independently of the limit. -/
theorem clean_unitPrice {limit : Option ℕ} {index value : ℕ} {rest : List ParsedComputeBudget}
    {seen : Option ℕ × Option ℕ} (hvalue : (checkUnitPrice params value).Clean ())
    (hrest : (checkComputeBudget params limit (some value) rest).Clean seen) :
    (checkComputeBudget params limit none (⟨index, 3, some value⟩ :: rest)).Clean seen := by
  simp only [checkComputeBudget]
  rw [if_neg (by decide)]
  exact clean_bind.mpr ⟨⟨⟩, clean_check.mpr trivial, clean_bind.mpr ⟨⟨⟩, hvalue, hrest⟩⟩

/-- Setters that were not seen before and are within their caps pass. The induction carries
what was seen so far. -/
theorem clean_checkComputeBudget {limit price : Option ℕ}
    (hparsed : List.Forall₂ (ConsumerStep.Parsed send message) steps outer)
    (hlimits : limit.toList.length + (steps.filterMap ConsumerStep.unitLimit?).length ≤ 1)
    (hprices : price.toList.length + (steps.filterMap ConsumerStep.unitPrice?).length ≤ 1)
    (hlimit : ∀ units, .unitLimit units ∈ steps → (checkUnitLimit params units.toNat).Clean ())
    (hprice : ∀ value, .unitPrice value ∈ steps → (checkUnitPrice params value.toNat).Clean ()) :
    ∃ seen, (checkComputeBudget params limit price
      (outer.filterMap ParsedOuter.computeBudget?)).Clean seen := by
  induction hparsed generalizing limit price with
  | nil => exact ⟨_, clean_pure.mpr rfl⟩
  | @cons step o steps outer hstep _ ih =>
    have hlimit' := fun units h => hlimit units (List.mem_cons_of_mem step h)
    have hprice' := fun value h => hprice value (List.mem_cons_of_mem step h)
    cases hstep with
    | unitLimit index units =>
      simp only [List.filterMap_cons, ConsumerStep.unitLimit?, List.length_cons] at hlimits
      cases limit with
      | none =>
        obtain ⟨seen, hrest⟩ := @ih (some units.toNat) price
          ((Nat.add_comm _ _).trans_le (by simpa using hlimits)) hprices hlimit' hprice'
        exact ⟨seen, clean_unitLimit (hlimit units List.mem_cons_self) hrest⟩
      | some seen => exact absurd hlimits (by simp)
    | unitPrice index value =>
      simp only [List.filterMap_cons, ConsumerStep.unitPrice?, List.length_cons] at hprices
      cases price with
      | none =>
        obtain ⟨seen, hrest⟩ := @ih limit (some value.toNat) hlimits
          ((Nat.add_comm _ _).trans_le (by simpa using hprices)) hlimit' hprice'
        exact ⟨seen, clean_unitPrice (hprice value List.mem_cons_self) hrest⟩
      | some seen => exact absurd hprices (by simp)
    | _ => exact ih hlimits hprices hlimit' hprice'

/-- The token account of the recipient may be created by the paymaster: the gate derives the
same address. -/
theorem clean_checkAtaCreate {t : TokenSend} (hsend : send.Valid env)
    (hparams : send.Displayed env params) (ht : send.token = some t) (index : ℕ) :
    (checkAtaCreate params env (some (toBase58 send.paymaster)) [send.shown]
      ⟨index, some (toBase58 send.paymaster), some (toBase58 t.destination),
        some (toBase58 send.recipient), some (toBase58 t.mint), some (toBase58 t.tokenProgram),
        true⟩).Clean () := by
  have hmint := hparams.tokenMint_eq
  rw [ht, Option.map_some] at hmint
  have htoken := (given_eq_some hmint).1.symm
  have hshown : send.shown = shownTransferChecked send.recipient (some true) t.tokenProgram t.mint
      t.destination send.amount t.decimals := by
    rw [ConsumerSend.shown, ht]
  have hfind : [send.shown].find? (fun r => decide (r.asset = .spl ∧
      r.ata = some (toBase58 t.destination))) = some send.shown := by
    rw [hshown]
    simp [shownTransferChecked]
  have hderived : (do
      let ownerKey ← publicKey (toBase58 send.recipient)
      let mintKey ← publicKey (toBase58 t.mint)
      let programKey ← publicKey (toBase58 t.tokenProgram)
      deriveAssociatedTokenAddress env ownerKey mintKey programKey) = .ok t.destination := by
    simp only [bind_eq_ok, publicKey_eq_ok]
    exact ⟨_, rfl, _, rfl, _, rfl, (hsend.token t ht).destination_eq⟩
  simp only [checkAtaCreate, hfind, given_toBase58, clean_bind, clean_check]
  refine ⟨⟨⟩, trivial, ⟨⟩, ⟨by simp, trivial⟩, ?_⟩
  rw [if_pos ⟨hparams.recipient_eq.symm, htoken, by rw [hshown]; rfl⟩]
  simp only [checkAtaAddress, hderived]
  exact clean_check.mpr trivial

/-- The caps on ComputeBudget hold of the whole bundle. -/
theorem HonestSteps.clean_checkComputeBudget (hsteps : HonestSteps params send steps)
    (hparsed : List.Forall₂ (ConsumerStep.Parsed send message) steps outer) :
    ∃ units, (checkComputeBudget params none none
      (outer.filterMap ParsedOuter.computeBudget?)).Clean units := by
  refine Sdk.clean_checkComputeBudget hparsed (by simpa using hsteps.unitLimits_le)
    (by simpa using hsteps.unitPrices_le) (fun units hmem => ?_) (fun value hmem => ?_)
  · refine clean_forSome.mpr fun limit hlimit => ?_
    obtain ⟨cap, hcap, hle⟩ := hsteps.limit_le units hmem limit hlimit
    exact clean_bind.mpr ⟨cap, clean_lift.mpr hcap, clean_check.mpr hle⟩
  · refine clean_forSome.mpr fun limit hlimit => ?_
    obtain ⟨cap, hcap, hle⟩ := hsteps.price_le value hmem limit hlimit
    rw [hcap]
    exact clean_check.mpr hle

/-- The proposal's instructions are by members, for the proposal, and the signer approves.
-/
theorem HonestSteps.clean_checkMultisigIxs {b : ParsedBundle} {creator : Pubkey}
    (hsteps : HonestSteps params send steps)
    (hparsed : List.Forall₂ (ConsumerStep.Parsed send message) steps outer)
    (hcreator : creator ∈ send.members) (happroves : b.approves = outer.filterMap ParsedOuter.approve?)
    (hexecutes : b.executes = outer.filterMap ParsedOuter.execute?)
    (hcloses : b.closes = outer.filterMap ParsedOuter.close?) :
    (checkMultisigIxs (send.members.map toBase58) (toBase58 send.multisig)
      (toBase58 send.transaction) (toBase58 send.signer) b (toBase58 creator)).Clean () := by
  obtain ⟨hexecutesLen, hexecutesKeys⟩ := executes_of_parsed hparsed
  obtain ⟨hclosesLen, hclosesKeys⟩ := closes_of_parsed hparsed
  have hmem : ∀ member, member ∈ steps.filterMap ConsumerStep.approver? ↔
      .approve member ∈ steps := fun member =>
    mem_filterMap_mk fun step _ => by cases step <;> simp [ConsumerStep.approver?]
  refine Sdk.clean_checkMultisigIxs hcreator (happroves ▸ approves_of_parsed hparsed)
    (fun member h => hsteps.approver_mem member ((hmem member).mp h)) hsteps.approvers_nodup
    ((hmem send.signer).mpr hsteps.signer_approves) ?_ (hexecutes ▸ hexecutesKeys) ?_
    (hcloses ▸ hclosesKeys)
  · rw [hexecutes, hexecutesLen]
    exact hsteps.executes_le
  · rw [hcloses, hclosesLen]
    exact hsteps.closes_le

end Rules

/-! ## The gate -/

/-- What the parser makes of a transaction whose instructions are parsed: the lists of what
was found. -/
theorem parseBundle_of_parsed {programId : Pubkey} {serializedTxBase64 : String}
    {tx : Transaction} {outer : List ParsedOuter} (hbytes : web3.base64 serializedTxBase64 ≠ [])
    (htx : web3.transactionFrom (web3.base64 serializedTxBase64) = .ok tx)
    (houter : List.Forall₂ (fun p o => parseOuter programId p.1 p.2 = .ok o)
      tx.instructions.zipIdx outer) :
    parseBundle web3 serializedTxBase64 programId = .ok
      { feePayer := tx.feePayer.map toBase58
        nonceAdvanceIndexes := outer.filterMap ParsedOuter.nonceAdvance?
        computeBudget := outer.filterMap ParsedOuter.computeBudget?
        ataCreates := outer.filterMap ParsedOuter.ataCreate?
        creates := outer.filterMap ParsedOuter.create?
        approves := outer.filterMap ParsedOuter.approve?
        executes := outer.filterMap ParsedOuter.execute?
        closes := outer.filterMap ParsedOuter.close?
        foreign := outer.filterMap ParsedOuter.foreign? } := by
  simp only [parseBundle, parseTransaction, bind_eq_ok, require_eq_ok, pure_eq_ok]
  exact ⟨(), hbytes, tx, htx, outer, collect_eq_ok.mpr houter, foldl_push _ outer⟩

theorem verifyConsumer_of_clean {serializedTxBase64 : String}
    {params : ConsumerSolanaBundleParams} {decoded : ConsumerSolanaBundleDecoded}
    (h : (consumerReport env (parseBundle web3 serializedTxBase64 params.programId) params).Clean
      decoded) :
    verifyConsumerSolanaBundle env web3 serializedTxBase64 params = ⟨true, [], some decoded⟩ := by
  obtain ⟨hproblems, hresult⟩ := h
  simp only [verifyConsumerSolanaBundle, hproblems, hresult, List.isEmpty_nil]

/-- A bundle around the message of a send passes every rule, and the report shows the send.
The rules are gone through in the order of the gate. -/
theorem HonestBundle.exists_clean {send : ConsumerSend} {params : ConsumerSolanaBundleParams}
    {instructions : List Instruction} {message : TransactionMessage} {tx : Transaction}
    {serializedTxBase64 : String} (hsend : send.Valid env) (hparams : send.Displayed env params)
    (hinner : instructions.Perm send.inner) (hbuilt : BuiltFrom message send.vault instructions)
    (hbundle : HonestBundle params send message tx) (hbytes : web3.base64 serializedTxBase64 ≠ [])
    (htx : web3.transactionFrom (web3.base64 serializedTxBase64) = .ok tx) :
    ∃ decoded, (consumerReport env (parseBundle web3 serializedTxBase64 params.programId)
        params).Clean decoded ∧
      decoded.recipients = [send.shown] ∧ decoded.feeLamports = toString send.fee := by
  obtain ⟨steps, hsteps, hixs⟩ := hbundle.steps
  obtain ⟨outer, houter, hparsed⟩ :=
    parse_steps hparams.programId_notMem hixs hbundle.size_le 0
  obtain ⟨creator, hcreator, hcreators⟩ := hsteps.create
  obtain ⟨c, payer, hcreates, hkeys, hc⟩ := creates_of_parsed hparsed hcreators
  obtain ⟨units, hunits⟩ := hsteps.clean_checkComputeBudget hparsed
  obtain ⟨classified, hfee, hinnerClean⟩ := send.clean_checkInner hsend hparams hbuilt hinner
  obtain ⟨hatasLen, hatas⟩ := ataCreates_of_parsed hparsed
  have hmembers : collect publicKey params.members = .ok send.members := by
    rw [collect_eq_ok, hparams.members_eq, List.forall₂_map_left_iff, List.forall₂_same]
    exact fun k _ => publicKey_eq_ok.mpr rfl
  have hlen : 4 ≤ c.keys.length := hkeys.length_le
  have hthree : [send.multisig, send.transaction, creator] <+: c.keys :=
    (List.prefix_append _ [payer]).trans hkeys
  have hparse := parseBundle_of_parsed hbytes htx houter
  rw [hbundle.feePayer_eq, Option.map_some] at hparse
  simp only [consumerReport, clean_bind, clean_lift, clean_check, clean_each, clean_pure,
    require_eq_ok, publicKey_eq_ok, oneCreate_eq_ok, firstThree_eq_ok]
  refine ⟨_, ⟨send.multisig, hparams.multisig_eq, send.members, hmembers, send.signer,
    hparams.signer_eq, (), List.mem_map_of_mem hsend.signer_mem, (),
    hsend.members_nodup.map toBase58_injective, send.vault, hparams.vault_eq, _, hparse,
    (), clean_checkFeePayer hsend.paymaster_notMem hparams.feePayer_eq,
    (), clean_checkOuter (foreign_of_parsed hparsed)
      (nonceAdvances_of_parsed hparsed hsteps.nonce_first houter),
    units, hunits, c, hcreates, (), hlen, (send.multisig, send.transaction, creator), hthree,
    ⟨⟩, rfl, (), hsteps.clean_checkMultisigIxs hparsed hcreator rfl rfl rfl,
    (classified, [send.shown]), hc ▸ hinnerClean, ⟨⟩, hatasLen ▸ hsteps.ataCreates_le, ⟨⟩,
    ?_, rfl⟩, rfl, congrArg toString hfee⟩
  intro ata hata
  obtain ⟨index, t, ht, rfl⟩ := hatas ata hata
  exact clean_checkAtaCreate hsend hparams ht index

/-- **Every honest bundle is accepted.** Whatever accounts of a send coincide, the
message of its instructions, in whatever order, can be built; and when a wallet bundles
steps around this message and the transaction comes back from web3.js as it was
serialized, the gate finds no mismatch and shows the recipient, the amount and the
refund of the send. -/
theorem honest_bundle_accepted (env : Env) {send : ConsumerSend}
    {params : ConsumerSolanaBundleParams} {instructions : List Instruction}
    (hsend : send.Valid env) (hparams : send.Displayed env params)
    (hinner : instructions.Perm send.inner) :
    ∃ built message, buildMessageFromInstructions send.vault instructions = .ok built ∧
      built.onchain = .ok message ∧
      ∀ (web3 : Web3) (serializedTxBase64 : String) (tx : Transaction),
        HonestBundle params send message tx → web3.base64 serializedTxBase64 ≠ [] →
        web3.transactionFrom (web3.base64 serializedTxBase64) = .ok tx →
          ∃ decoded, verifyConsumerSolanaBundle env web3 serializedTxBase64 params =
              ⟨true, [], some decoded⟩ ∧
            decoded.recipients = [send.shown] ∧ decoded.feeLamports = toString send.fee := by
  obtain ⟨built, message, hbuild, honchain⟩ := send.exists_message hinner
  refine ⟨built, message, hbuild, honchain, fun web3 serializedTxBase64 tx hbundle hbytes htx => ?_⟩
  have hbuilt := send.builtFrom hinner hbuild honchain
  obtain ⟨decoded, hclean, hshown⟩ := hbundle.exists_clean hsend hparams hinner hbuilt hbytes htx
  exact ⟨decoded, verifyConsumer_of_clean hclean, hshown⟩

/-! ## The bundle of the example cluster -/

namespace Example

open SolanaMultisig.Example

/-- 700 lamports from `alice` and `bob` to `carol`, without a refund or a memo. -/
def send : ConsumerSend where
  multisig := multisig
  members := [alice, bob]
  vaultIndex := 0
  vault := vault
  signer := alice
  paymaster := paymaster
  transaction := transaction
  recipient := carol
  amount := 700
  token := none
  reimbursement := none
  memo := none

/-- The steps of the bundle. -/
def steps : List ConsumerStep := [.create alice, .approve alice, .approve bob, .execute, .close]

theorem send_valid : send.Valid cluster where
  members_nodup := by decide +kernel
  signer_mem := by decide +kernel
  paymaster_notMem := by decide +kernel
  recipient_ne := by decide +kernel
  memo_text := nofun
  token := nofun

theorem send_displayed : send.Displayed cluster params where
  multisig_eq := rfl
  members_eq := rfl
  signer_eq := rfl
  vaultIndex_is := by decide +kernel
  vault_eq := by decide +kernel
  recipient_eq := rfl
  amount_eq := by decide +kernel
  tokenMint_eq := rfl
  tokenDecimals_is := nofun
  fee_le := ⟨0, by decide +kernel⟩
  feePayer_eq := by
    intro payer h
    exact (Option.some.inj ((given_toBase58 paymaster).symm.trans h)).symm
  programId_notMem := by decide +kernel

theorem steps_honest : HonestSteps params send steps where
  nonce_first := by decide
  unitLimits_le := by decide
  unitPrices_le := by decide
  limit_le := nofun
  price_le := nofun
  ataCreates_le := by decide
  create := ⟨alice, List.mem_cons_self, rfl⟩
  approvers_nodup := by decide +kernel
  approver_mem := by
    intro member h
    simpa [steps, send] using h
  signer_approves := by decide +kernel
  executes_le := by decide
  closes_le := by decide

theorem bundle_honest : HonestBundle params send message bundle.transaction where
  feePayer_eq := rfl
  steps := by
    refine ⟨steps, steps_honest, .cons ⟨?_, ⟨paymaster, ?_⟩, ?_⟩ (.cons ⟨?_, ?_, ?_⟩
      (.cons ⟨?_, ?_, ?_⟩ (.cons ⟨?_, ?_, ?_⟩ (.cons ⟨?_, ?_, ?_⟩ .nil))))⟩ <;>
      decide +kernel
  size_le := by decide +kernel

end Example

/-- The bundle of the example is honest, and the gate shows what it pays. -/
theorem honest_bundle_accepted_example : ∃ decoded,
    verifyConsumerSolanaBundle Example.cluster Example.bundle.web3 Example.bundle.base64
      Example.params = ⟨true, [], some decoded⟩ ∧
    decoded.recipients = [shownTransfer Example.carol 700] ∧ decoded.feeLamports = "0" := by
  obtain ⟨built, message, hbuild, honchain, haccepts⟩ := honest_bundle_accepted Example.cluster
    Example.send_valid Example.send_displayed (.refl [Example.transfer])
  -- the message is the one of the example
  obtain ⟨built', hbuild', honchain'⟩ := Example.build_transfer
  obtain rfl := Except.ok.inj (hbuild.symm.trans hbuild')
  obtain rfl := Except.ok.inj (honchain.symm.trans honchain')
  have hbytes : Example.bundle.web3.base64 Example.bundle.base64 ≠ [] := by
    simp [LegacyMessage.web3, Example.bundle.serialize_ne_nil]
  exact haccepts _ _ _ Example.bundle_honest hbytes Example.bundle.transactionFrom_base64

end SolanaMultisig.Sdk
