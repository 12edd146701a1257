import SolanaMultisig.Sdk.HonestBundle
import SolanaMultisig.Sdk.Payout
import SolanaMultisig.Sdk.Proposal

/-!
# Bundles of payouts

The steps a wallet bundles around the message of a payout (`PayoutStep`), with the data
the client writes. The enterprise gate accepts the bundle that creates the proposal, and
shows the payout (`honest_payout_accepted`).
-/

namespace SolanaMultisig.Sdk

open Wire Guard Report

variable {env : Env} {web3 : Web3}

/-! ## The steps -/

/-- What an outer instruction of the bundle is for. -/
inductive PayoutStep where
  | nonceAdvance
  | unitLimit (units : UInt32)
  | unitPrice (microLamports : UInt64)
  | ataCreate
  | create (creator : Pubkey)
  | approve (member : Pubkey)
  | execute
  | close

namespace PayoutStep

/-- The limit, if it sets one. -/
def unitLimit? : PayoutStep → Option UInt32
  | .unitLimit units => some units
  | _ => none

/-- The price, if it sets one. -/
def unitPrice? : PayoutStep → Option UInt64
  | .unitPrice microLamports => some microLamports
  | _ => none

/-- The creator, if it is a creation. -/
def creator? : PayoutStep → Option Pubkey
  | .create creator => some creator
  | _ => none

/-- The approver, if it is an approval. -/
def approver? : PayoutStep → Option Pubkey
  | .approve member => some member
  | _ => none

/-- The instruction `ix` takes this step towards the proposal with this index and
message. -/
def Is (programId : Pubkey) (payout : Payout) (index : UInt64) (message : TransactionMessage)
    (ix : Instruction) : PayoutStep → Prop
  | .nonceAdvance => ix.programId = systemProgramId ∧ ix.data = leBytes 4 4
  | .unitLimit units => ix.programId = computeBudgetProgramId ∧ ix.data = 2 :: leBytes 4 units.toNat
  | .unitPrice price => ix.programId = computeBudgetProgramId ∧ ix.data = 3 :: leBytes 8 price.toNat
  | .ataCreate => ix.programId = ataProgramId ∧ ix.keys[0]? = some payout.paymaster
  | .create creator => ix.programId = programId ∧
      [payout.multisig, payout.transaction, creator] <+: ix.keys ∧
      ix.data = createTransactionTag ++
        (payout.vaultIndex :: TransactionMessage.codec.encode message)
  | .approve member => ix.programId = programId ∧
      [payout.multisig, payout.transaction, member] <+: ix.keys ∧
      ix.data = approveTransactionTag ++ leBytes 8 index.toNat
  | .execute => ix.programId = programId ∧ [payout.multisig, payout.transaction] <+: ix.keys ∧
      ix.data = executeTransactionTag ++ leBytes 8 index.toNat
  | .close => ix.programId = programId ∧ [payout.multisig, payout.transaction] <+: ix.keys ∧
      ix.data = closeTransactionTag ++ leBytes 8 index.toNat

/-- A step that was parsed as what it is. -/
inductive Parsed (payout : Payout) (index : UInt64) (message : TransactionMessage) :
    PayoutStep → ParsedOuter → Prop
  | nonceAdvance (i : ℕ) : Parsed payout index message .nonceAdvance (.nonceAdvance i)
  | unitLimit (i : ℕ) (units : UInt32) : Parsed payout index message (.unitLimit units)
      (.computeBudget ⟨i, 2, some units.toNat⟩)
  | unitPrice (i : ℕ) (price : UInt64) : Parsed payout index message (.unitPrice price)
      (.computeBudget ⟨i, 3, some price.toNat⟩)
  | ataCreate {ata : ParsedAtaCreate} : ata.funder = some (toBase58 payout.paymaster) →
      Parsed payout index message .ataCreate (.ataCreate ata)
  | create {c : ParsedCreate} {creator : Pubkey} :
      [payout.multisig, payout.transaction, creator] <+: c.keys →
      c.inner = .of payout.vaultIndex message →
      Parsed payout index message (.create creator) (.create c)
  | approve {a : ParsedMultisigIx} {member : Pubkey} :
      [payout.multisig, payout.transaction, member] <+: a.keys →
      a.data = approveTransactionTag ++ leBytes 8 index.toNat →
      Parsed payout index message (.approve member) (.approve a)
  | execute {e : ParsedMultisigIx} : [payout.multisig, payout.transaction] <+: e.keys →
      Parsed payout index message .execute (.execute e)
  | close {c : ParsedMultisigIx} : Parsed payout index message .close (.close c)

end PayoutStep

section Parsing

variable {payout : Payout} {index : UInt64} {message : TransactionMessage} {programId : Pubkey}
  {ix : Instruction}

/-- **Each step is parsed as what it is.** One case for each kind of step, and none of them
can fail. -/
theorem PayoutStep.Is.parse {step : PayoutStep}
    (hprogram : programId ∉ [systemProgramId, computeBudgetProgramId, ataProgramId])
    (h : step.Is programId payout index message ix) (hsize : ix.data.length ≤ maxTransactionSize)
    (i : ℕ) : ∃ o, parseOuter programId ix i = .ok o ∧ step.Parsed payout index message o := by
  have hown : ∀ {tag data : List UInt8}, tag.length = 8 → (tag ++ data).take 8 = tag :=
    fun htag => List.take_left' htag
  cases step with
  | nonceAdvance =>
    obtain ⟨hid, hdata⟩ := h
    refine ⟨.nonceAdvance i, ?_, .nonceAdvance i⟩
    rw [parseOuter, if_pos hid, if_pos (by simp [hdata, leNat_leBytes])]
    rfl
  | unitLimit units =>
    obtain ⟨hid, hdata⟩ := h
    refine ⟨_, ?_, .unitLimit i units⟩
    rw [parseOuter_computeBudget hid (hdata ▸ computeBudgetValue_unitLimit units), hdata]
    rfl
  | unitPrice price =>
    obtain ⟨hid, hdata⟩ := h
    refine ⟨_, ?_, .unitPrice i price⟩
    rw [parseOuter_computeBudget hid (hdata ▸ computeBudgetValue_unitPrice price), hdata]
    rfl
  | ataCreate =>
    obtain ⟨hid, hfunder⟩ := h
    refine ⟨_, parseOuter_ataCreate hid i, .ataCreate ?_⟩
    rw [parseAtaCreate, hfunder, Option.map_some]
  | create creator =>
    obtain ⟨hid, hkeys, hdata⟩ := h
    -- a message that fits a packet has lengths that fit their fields
    have hlen : (TransactionMessage.codec.encode message).length ≤ maxTransactionSize := by
      rw [hdata, List.length_append, List.length_cons] at hsize
      omega
    have hfits := short_message message (hlen.trans_lt (by decide))
    have htag : ix.data.take 8 = createTransactionDiscriminator := by rw [hdata, hown rfl]; rfl
    refine ⟨.create ⟨⟨i, ix.keys, ix.data⟩, .of payout.vaultIndex message⟩, ?_, .create hkeys rfl⟩
    rw [parseOuter_own ⟨hid, hprogram⟩, parseMultisigIx, if_pos htag, hdata,
      parseCreateTransactionData_encode hfits]
    rfl
  | approve member =>
    obtain ⟨hid, hkeys, hdata⟩ := h
    refine ⟨.approve ⟨i, ix.keys, ix.data⟩, ?_, .approve hkeys hdata⟩
    rw [parseOuter_own ⟨hid, hprogram⟩, parseMultisigIx, hdata, hown rfl]
    rfl
  | execute =>
    obtain ⟨hid, hkeys, hdata⟩ := h
    refine ⟨.execute ⟨i, ix.keys, ix.data⟩, ?_, .execute hkeys⟩
    rw [parseOuter_own ⟨hid, hprogram⟩, parseMultisigIx, hdata, hown rfl]
    rfl
  | close =>
    obtain ⟨hid, hkeys, hdata⟩ := h
    refine ⟨.close ⟨i, ix.keys, ix.data⟩, ?_, .close⟩
    rw [parseOuter_own ⟨hid, hprogram⟩, parseMultisigIx, hdata, hown rfl]
    rfl

/-- All steps are parsed, one after the other, each with its position. -/
theorem parse_payoutSteps {steps : List PayoutStep} {ixs : List Instruction}
    (hprogram : programId ∉ [systemProgramId, computeBudgetProgramId, ataProgramId])
    (h : List.Forall₂ (fun ix step => PayoutStep.Is programId payout index message ix step) ixs
      steps)
    (hsize : ∀ ix ∈ ixs, ix.data.length ≤ maxTransactionSize) (start : ℕ) :
    ∃ outer, List.Forall₂ (fun p o => parseOuter programId p.1 p.2 = .ok o) (ixs.zipIdx start)
        outer ∧
      List.Forall₂ (PayoutStep.Parsed payout index message) steps outer := by
  induction h generalizing start with
  | nil => exact ⟨[], .nil, .nil⟩
  | @cons ix step ixs steps hix _ ih =>
    obtain ⟨hsize₀, hsize'⟩ := List.forall_mem_cons.mp hsize
    obtain ⟨o, ho, hparsed⟩ := hix.parse hprogram hsize₀ start
    obtain ⟨outer, houter, hrest⟩ := ih hsize' (start + 1)
    exact ⟨o :: outer, .cons ho houter, .cons hparsed hrest⟩

end Parsing

/-! ## The sorted bundle -/

section Sorted

variable {payout : Payout} {index : UInt64} {message : TransactionMessage} {steps : List PayoutStep}
  {outer : List ParsedOuter}
  (hparsed : List.Forall₂ (PayoutStep.Parsed payout index message) steps outer)
include hparsed

/-- The creations of the sorted bundle, of the message. -/
theorem creates_of_payout :
    List.Forall₂ (fun creator (c : ParsedCreate) =>
        [payout.multisig, payout.transaction, creator] <+: c.keys ∧
          c.inner = .of payout.vaultIndex message)
      (steps.filterMap PayoutStep.creator?) (outer.filterMap ParsedOuter.create?) := by
  refine List.rel_filterMap (fun step o h => ?_) hparsed
  cases h with
  | create hkeys hinner => exact .some ⟨hkeys, hinner⟩
  | _ => exact .none

/-- The approvals of the proposal, in the order of the steps, with the index they carry. -/
theorem approves_of_payout :
    List.Forall₂ (fun approver (a : ParsedMultisigIx) =>
        [payout.multisig, payout.transaction, approver] <+: a.keys ∧
          a.data = approveTransactionTag ++ leBytes 8 index.toNat)
      (steps.filterMap PayoutStep.approver?) (outer.filterMap ParsedOuter.approve?) := by
  refine List.rel_filterMap (fun step o h => ?_) hparsed
  cases h with
  | approve hkeys hdata => exact .some ⟨hkeys, hdata⟩
  | _ => exact .none

/-- What is executed is the proposal, however often. -/
theorem executes_of_payout : ∀ e ∈ outer.filterMap ParsedOuter.execute?,
    [payout.multisig, payout.transaction] <+: e.keys := by
  intro e he
  obtain ⟨o, ho, hexecute⟩ := List.mem_filterMap.mp he
  obtain ⟨step, -, h⟩ := exists_left_of_forall₂ hparsed ho
  cases h with
  | execute hkeys =>
    cases hexecute
    exact hkeys
  | _ => cases hexecute

/-- The paymaster pays for accounts, which is all the enterprise gate asks of them. -/
theorem ataCreates_of_payout : ∀ ata ∈ outer.filterMap ParsedOuter.ataCreate?,
    ata.funder = some (toBase58 payout.paymaster) := by
  intro ata hata
  obtain ⟨o, ho, hcreate⟩ := List.mem_filterMap.mp hata
  obtain ⟨step, -, h⟩ := exists_left_of_forall₂ hparsed ho
  cases h with
  | ataCreate hfunder =>
    cases hcreate
    exact hfunder
  | _ => cases hcreate

theorem foreign_of_payout : outer.filterMap ParsedOuter.foreign? = [] := by
  rw [List.filterMap_eq_nil_iff]
  intro o ho
  obtain ⟨step, -, h⟩ := exists_left_of_forall₂ hparsed ho
  cases h <;> rfl

end Sorted

/-- The ComputeBudget setters of the steps are within the caps, and there is at most one of
each kind. Without caps there are none. -/
structure BudgetWithin (caps : Option ComputeBudgetCaps) (steps : List PayoutStep) : Prop where
  limits_le : (steps.filterMap PayoutStep.unitLimit?).length ≤ 1
  prices_le : (steps.filterMap PayoutStep.unitPrice?).length ≤ 1
  limit_le : ∀ units, .unitLimit units ∈ steps → ∃ c, caps = some c ∧
    ∀ limit, c.maxUnitLimit = some limit →
      ∃ cap, limit.bigInt = .ok cap ∧ (units.toNat : ℤ) ≤ cap
  price_le : ∀ price, .unitPrice price ∈ steps → ∃ c, caps = some c ∧
    ∀ limit, c.maxUnitPriceMicroLamports = some limit →
      ∃ cap, toBigIntOrNull (some limit) = some cap ∧ price.toNat ≤ cap

section Budget

variable {payout : Payout} {index : UInt64} {message : TransactionMessage} {steps : List PayoutStep}
  {outer : List ParsedOuter} {caps : Option ComputeBudgetCaps}

/-- A first setter of the limit, within its cap, is admitted. -/
theorem admit_unitLimit {seen : List ℤ} {i units : ℕ} (hseen : 2 ∉ seen)
    (h : ∃ c, caps = some c ∧ ∀ limit, c.maxUnitLimit = some limit →
      ∃ cap, limit.bigInt = .ok cap ∧ (units : ℤ) ≤ cap) :
    admitComputeBudget caps seen ⟨i, 2, some units⟩ = .ok true := by
  obtain ⟨c, rfl, hcap⟩ := h
  simp only [admitComputeBudget, if_neg hseen, if_true]
  cases hlimit : c.maxUnitLimit with
  | none => rfl
  | some limit =>
    obtain ⟨cap, hbig, hle⟩ := hcap limit hlimit
    exact map_eq_ok.mpr ⟨cap, hbig, decide_eq_true hle⟩

/-- A first setter of the price, within its cap, is admitted. -/
theorem admit_unitPrice {seen : List ℤ} {i price : ℕ} (hseen : 3 ∉ seen)
    (h : ∃ c, caps = some c ∧ ∀ limit, c.maxUnitPriceMicroLamports = some limit →
      ∃ cap, toBigIntOrNull (some limit) = some cap ∧ price ≤ cap) :
    admitComputeBudget caps seen ⟨i, 3, some price⟩ = .ok true := by
  obtain ⟨c, rfl, hcap⟩ := h
  have hne : (3 : ℤ) ≠ 2 := by decide
  simp only [admitComputeBudget, if_neg hseen, if_neg hne, if_true]
  cases hlimit : c.maxUnitPriceMicroLamports with
  | none => rfl
  | some limit =>
    obtain ⟨cap, hbig, hle⟩ := hcap limit hlimit
    simp [hbig, hle]

/-- **Setters within the caps are admitted.** The induction keeps the tags seen apart
from those to come. -/
theorem flagComputeBudget_of_payout
    (hparsed : List.Forall₂ (PayoutStep.Parsed payout index message) steps outer)
    (seen : List ℤ)
    (hlimits : seen.count 2 + (steps.filterMap PayoutStep.unitLimit?).length ≤ 1)
    (hprices : seen.count 3 + (steps.filterMap PayoutStep.unitPrice?).length ≤ 1)
    (hlimit : ∀ units, .unitLimit units ∈ steps → ∃ c, caps = some c ∧
      ∀ limit, c.maxUnitLimit = some limit →
        ∃ cap, limit.bigInt = .ok cap ∧ (units.toNat : ℤ) ≤ cap)
    (hprice : ∀ price, .unitPrice price ∈ steps → ∃ c, caps = some c ∧
      ∀ limit, c.maxUnitPriceMicroLamports = some limit →
        ∃ cap, toBigIntOrNull (some limit) = some cap ∧ price.toNat ≤ cap) :
    flagComputeBudget caps seen (outer.filterMap ParsedOuter.computeBudget?) = .ok [] := by
  induction hparsed generalizing seen with
  | nil => rfl
  | @cons step o steps outer h _ ih =>
    have hlimit' := fun units hmem => hlimit units (List.mem_cons_of_mem step hmem)
    have hprice' := fun price hmem => hprice price (List.mem_cons_of_mem step hmem)
    cases h with
    | unitLimit i units =>
      rw [List.filterMap_cons_some (by rfl), List.length_cons] at hlimits
      rw [List.filterMap_cons_none (by rfl)] at hprices
      have hseen : 2 ∉ seen := List.count_eq_zero.mp (by omega)
      have hrest := ih (2 :: seen) (by simp; omega) (by simpa using hprices) hlimit' hprice'
      rw [List.filterMap_cons_some (by rfl)]
      simp only [flagComputeBudget, bind_eq_ok, pure_eq_ok]
      exact ⟨true, admit_unitLimit hseen (hlimit units List.mem_cons_self), [], hrest, rfl⟩
    | unitPrice i price =>
      rw [List.filterMap_cons_none (by rfl)] at hlimits
      rw [List.filterMap_cons_some (by rfl), List.length_cons] at hprices
      have hseen : 3 ∉ seen := List.count_eq_zero.mp (by omega)
      have hrest := ih (3 :: seen) (by simpa using hlimits) (by simp; omega) hlimit' hprice'
      rw [List.filterMap_cons_some (by rfl)]
      simp only [flagComputeBudget, bind_eq_ok, pure_eq_ok]
      exact ⟨true, admit_unitPrice hseen (hprice price List.mem_cons_self), [], hrest, rfl⟩
    | nonceAdvance | ataCreate | create | approve | execute | close =>
      exact ih seen hlimits hprices hlimit' hprice'

end Budget

/-! ## The bundle -/

/-- A transaction that takes these steps, paid by the paymaster. Every instruction of it is
one of the steps, so that there is nothing in it that the decoder would flag but setters of
the compute budget beyond their caps. -/
structure PayoutBundle (programId : Pubkey) (payout : Payout) (index : UInt64)
    (message : TransactionMessage) (steps : List PayoutStep) (tx : Transaction) : Prop where
  feePayer_eq : tx.feePayer = some payout.paymaster
  takes : List.Forall₂ (fun ix step => PayoutStep.Is programId payout index message ix step)
    tx.instructions steps
  size_le : ∀ ix ∈ tx.instructions, ix.data.length ≤ maxTransactionSize

/-- The bundle, sorted: nothing is flagged. -/
structure ParsedBundle.Of (b : ParsedBundle) (payout : Payout) (index : UInt64)
    (message : TransactionMessage) (steps : List PayoutStep) (caps : Option ComputeBudgetCaps) :
    Prop where
  feePayer_eq : b.feePayer = some (toBase58 payout.paymaster)
  unknown : unknownPrograms b caps = .ok []
  creates : List.Forall₂ (fun creator (c : ParsedCreate) =>
    [payout.multisig, payout.transaction, creator] <+: c.keys ∧
      c.inner = .of payout.vaultIndex message) (steps.filterMap PayoutStep.creator?) b.creates
  approves : List.Forall₂ (fun approver (a : ParsedMultisigIx) =>
    [payout.multisig, payout.transaction, approver] <+: a.keys ∧
      a.data = approveTransactionTag ++ leBytes 8 index.toNat)
    (steps.filterMap PayoutStep.approver?) b.approves
  executes : ∀ e ∈ b.executes, [payout.multisig, payout.transaction] <+: e.keys

section Bundle

variable {payout : Payout} {index : UInt64} {message : TransactionMessage} {steps : List PayoutStep}
  {tx : Transaction} {programId : Pubkey} {caps : Option ComputeBudgetCaps} {b : ParsedBundle}

/-- **Nothing in the bundle is flagged**, and its lists hold the steps in order. -/
theorem PayoutBundle.parse {serializedTxBase64 : String}
    (h : PayoutBundle programId payout index message steps tx) (hbudget : BudgetWithin caps steps)
    (hprogram : programId ∉ [systemProgramId, computeBudgetProgramId, ataProgramId])
    (hbytes : web3.base64 serializedTxBase64 ≠ [])
    (htx : web3.transactionFrom (web3.base64 serializedTxBase64) = .ok tx) :
    ∃ b, parseBundle web3 serializedTxBase64 programId = .ok b ∧
      b.Of payout index message steps caps := by
  obtain ⟨outer, houter, hparsed⟩ := parse_payoutSteps hprogram h.takes h.size_le 0
  refine ⟨_, parseBundle_of_parsed hbytes htx houter,
    { feePayer_eq := congrArg (Option.map toBase58) h.feePayer_eq
      unknown := ?_
      creates := creates_of_payout hparsed
      approves := approves_of_payout hparsed
      executes := executes_of_payout hparsed }⟩
  have hflag := flagComputeBudget_of_payout hparsed [] (by simpa using hbudget.limits_le)
    (by simpa using hbudget.prices_le) hbudget.limit_le hbudget.price_le
  have hatas : (outer.filterMap ParsedOuter.ataCreate?).filterMap
      (flagAtaCreate (tx.feePayer.map toBase58)) = [] := by
    rw [List.filterMap_eq_nil_iff]
    intro ata hata
    have hfunder := ataCreates_of_payout hparsed ata hata
    simp [flagAtaCreate, hfunder, h.feePayer_eq]
  simp only [unknownPrograms, bind_eq_ok, pure_eq_ok]
  refine ⟨[], hflag, ?_⟩
  simp [hatas, foreign_of_payout hparsed]

/-- The accounts of the message fit into the packet, and so their positions fit a byte. -/
theorem PayoutBundle.keys_le {creator : Pubkey}
    (h : PayoutBundle programId payout index message steps tx)
    (hcreator : steps.filterMap PayoutStep.creator? = [creator]) :
    message.accountKeys.length ≤ 256 := by
  have hmem : creator ∈ steps.filterMap PayoutStep.creator? := hcreator ▸ List.mem_cons_self
  obtain ⟨step, hstep, heq⟩ := List.mem_filterMap.mp hmem
  obtain ⟨ix, hix, his⟩ := exists_left_of_forall₂ h.takes hstep
  cases step with
  | create =>
    obtain ⟨-, -, hdata⟩ := his
    have hsize := h.size_le ix hix
    rw [hdata, List.length_append, List.length_cons, length_encode_message, maxTransactionSize]
      at hsize
    omega
  | _ => cases heq

/-- The three accounts of each approval of the payout, as the decoder collects them: the
multisig, the proposal and the member. -/
def Payout.approveKeys (payout : Payout) (members : List Pubkey) :
    List (Pubkey × Pubkey × Pubkey) :=
  members.map fun member => (payout.multisig, payout.transaction, member)

theorem ParsedBundle.Of.collect_approves (h : b.Of payout index message steps caps)
    (error : String) :
    collect (fun a => firstThree a.keys error) b.approves =
      .ok (payout.approveKeys (steps.filterMap PayoutStep.approver?)) := by
  rw [Payout.approveKeys, collect_eq_ok, List.forall₂_map_right_iff]
  exact h.approves.flip.imp fun a member ha => firstThree_eq_ok.mpr ha.1

end Bundle

/-! ## The gate -/

/-- What the device expects of the proposal is the payout. Of proposal, vault and index it
may expect nothing. -/
structure Payout.Expected (payout : Payout) (expected : ExpectedProposal) : Prop where
  announced : payout.Announced expected.toFundFlowExpectation
  vaultIndex_is : ∀ n, expected.expectedVaultIndex = some n → n.Is payout.vaultIndex.toNat
  vaultPda_eq : ∀ pda, given expected.expectedVaultPda = some pda → pda = toBase58 payout.vault
  transactionPda_eq : ∀ pda, given expected.expectedTransactionPda = some pda →
    pda = toBase58 payout.transaction

/-- The options of the decoder leave recipients unresolved, and admit the memos. Resolving
replaces the account of every recipient that is owned by the one owner expected, which says
nothing for a payout to many. -/
structure Payout.Decodes (payout : Payout) (owner mint : Option String) (allowMemo : Option Bool) :
    Prop where
  unresolved : given owner = none ∨ given mint = none
  memos : payout.memos ≠ [] → allowMemo = some true

section Gate

variable {payout : Payout} {message : TransactionMessage} {instructions : List Instruction}
  {built : BuiltMessage}

theorem Payout.Decodes.resolveGiven_eq {owner mint : Option String} {allowMemo : Option Bool}
    (h : payout.Decodes owner mint allowMemo) (rs : List DecodedSolanaVaultRecipient) :
    resolveGiven env rs owner mint = .ok rs := by
  unfold resolveGiven
  split
  · rename_i howner hmint
    rcases h.unresolved with hnone | hnone
    · rw [hnone] at howner
      cases howner
    · rw [hnone] at hmint
      cases hmint
  · rfl

/-- The message has the accounts that are mentioned, each once. -/
theorem length_accountKeys (hinner : instructions.Perm payout.inner)
    (hbuild : buildMessageFromInstructions payout.vault instructions = .ok built)
    (honchain : built.onchain = .ok message) :
    (entries payout.vault instructions).length = message.accountKeys.length := by
  obtain ⟨v, rest, he, hv⟩ := @entries_eq_cons payout.vault instructions
  obtain ⟨-, -, -, hkeys, -⟩ := onchain_eq_ok.mp honchain
  have hrest := nonSigners_of_signers (payout.signer_eq hinner) he hv
  rw [build_of_nonSigners he hv hrest] at hbuild
  obtain ⟨compiled, -, rfl⟩ := map_eq_ok.mp hbuild
  rw [hkeys, ← List.length_map (f := Entry.pubkey)]
  exact (keys_blockMessage he message.instructions).length_eq.symm

/-- The message of a payout lists its instructions, if the accounts can be indexed. -/
theorem Payout.builtFrom (hinner : instructions.Perm payout.inner)
    (hbuild : buildMessageFromInstructions payout.vault instructions = .ok built)
    (honchain : built.onchain = .ok message) (hkeys : message.accountKeys.length ≤ 256) :
    BuiltFrom message payout.vault instructions :=
  builtFrom_of_build (payout.signer_eq hinner)
    ((length_accountKeys hinner hbuild honchain).trans_le hkeys) hbuild honchain

/-- The bundle creates one proposal, of the message of the payout. -/
theorem ParsedBundle.Of.create_eq {b : ParsedBundle} {index : UInt64} {steps : List PayoutStep}
    {caps : Option ComputeBudgetCaps} {creator : Pubkey}
    (h : b.Of payout index message steps caps)
    (hcreator : steps.filterMap PayoutStep.creator? = [creator]) :
    ∃ c, b.creates = [c] ∧ [payout.multisig, payout.transaction, creator] <+: c.keys ∧
      c.inner = .of payout.vaultIndex message := by
  have hcreates := h.creates
  rw [hcreator] at hcreates
  obtain ⟨c, rest, ⟨hkeys, hinner⟩, hrest, heq⟩ := List.forall₂_cons_left_iff.mp hcreates
  rw [List.forall₂_nil_left_iff.mp hrest] at heq
  exact ⟨c, heq, hkeys, hinner⟩

/-- What the bundle is reported as: the accounts of the proposal, its payments in the order
of the message, the refunds together, and approvals and executions of this proposal alone.
-/
structure DecodedCreate.Shows (d : DecodedCreate) (payout : Payout) : Prop where
  vaultIndex_eq : d.vaultIndex = payout.vaultIndex
  multisigPda_eq : d.multisigPda = toBase58 payout.multisig
  transactionPda_eq : d.transactionPda = toBase58 payout.transaction
  sender_eq : d.sender = toBase58 payout.vault
  recipients_perm : d.recipients.Perm (payout.payments.map payout.shown)
  feeLamports_eq : d.feeLamports = toString payout.fee
  feePayer_eq : d.feePayer = some (toBase58 payout.paymaster)
  approveTargets_eq : ∀ target ∈ d.approveTargets, target = toBase58 payout.transaction
  executeTargets_eq : ∀ target ∈ d.executeTargets, target = toBase58 payout.transaction
  known : d.unknownInnerInstructionCount = 0
  unknownOuterPrograms_eq : d.unknownOuterPrograms = []

/-- What the decoder reports on a bundle that creates the proposal of the payout, given the
approvers, what is executed, and what the instructions of the message were classified as. -/
def Payout.decodedCreate (payout : Payout) (creator : Pubkey) (members : List Pubkey)
    (executes : List ParsedMultisigIx) (classified : InnerClassification) : DecodedCreate where
  vaultIndex := payout.vaultIndex
  multisigPda := toBase58 payout.multisig
  transactionPda := toBase58 payout.transaction
  creator := toBase58 creator
  sender := toBase58 payout.vault
  recipients := classified.recipients
  feeLamports := toString classified.feeLamports
  feePayer := some (toBase58 payout.paymaster)
  approvers := (payout.approveKeys members).map fun a => toBase58 a.2.2
  approveTargets := (payout.approveKeys members).map fun a => toBase58 a.2.1
  executeTargets := executes.filterMap fun e => e.keys[1]?.map toBase58
  unknownInnerInstructionCount := classified.unknownInnerInstructionCount
  unknownOuterPrograms := []
  memos := classified.memos

/-- Where the payout was classified as itself, the report shows it: the approvals and
executions in the bundle are all of its proposal. -/
theorem Payout.decodedCreate_shows {creator : Pubkey} {members : List Pubkey}
    {executes : List ParsedMultisigIx} {classified : InnerClassification}
    (hexecutes : ∀ e ∈ executes, [payout.multisig, payout.transaction] <+: e.keys)
    (hrecipients : classified.recipients.Perm (payout.payments.map payout.shown))
    (hfee : classified.feeLamports = payout.fee)
    (hknown : classified.unknownInnerInstructionCount = 0) :
    (payout.decodedCreate creator members executes classified).Shows payout where
  vaultIndex_eq := rfl
  multisigPda_eq := rfl
  transactionPda_eq := rfl
  sender_eq := rfl
  recipients_perm := hrecipients
  feeLamports_eq := congrArg toString hfee
  feePayer_eq := rfl
  approveTargets_eq := by
    intro target htarget
    simp only [decodedCreate, approveKeys, List.map_map, List.mem_map] at htarget
    obtain ⟨member, -, rfl⟩ := htarget
    rfl
  executeTargets_eq := by
    intro target htarget
    obtain ⟨e, he, hkey⟩ := List.mem_filterMap.mp htarget
    obtain ⟨rest, hrest⟩ := hexecutes e he
    rw [← hrest] at hkey
    exact (Option.some.inj hkey).symm
  known := hknown
  unknownOuterPrograms_eq := rfl

/-- **The bundle decodes to the payout.** Nothing in it is flagged, so the report is that on
its one creation, whose message is classified as the payout. -/
theorem ParsedBundle.Of.exists_decoded {b : ParsedBundle} {index : UInt64}
    {steps : List PayoutStep} {opts : DecodeVaultSolanaOptions} {creator : Pubkey}
    (h : b.Of payout index message steps opts.allowComputeBudget) (hvalid : payout.Valid env)
    (hopts : payout.Decodes opts.expectedRecipientOwner opts.expectedMint opts.allowMemo)
    (hcreator : steps.filterMap PayoutStep.creator? = [creator])
    (hinner : instructions.Perm payout.inner)
    (hbuilt : BuiltFrom message payout.vault instructions) :
    ∃ d, decodeBundle env b opts = .ok (.create d) ∧ d.Shows payout := by
  obtain ⟨c, hcreates, hkeys, hc⟩ := h.create_eq hcreator
  obtain ⟨classified, hclassify, hrecipients, hfee, hknown⟩ :=
    payout.classifyInnerMessage_eq payout.vaultIndex hvalid
      (fun hmemos => beq_iff_eq.mpr (hopts.memos hmemos)) hbuilt hinner
  rw [← hc] at hclassify
  have hsender : c.inner.accountKeys.head? = some payout.vault := by
    rw [hc, List.head?_eq_getElem?]
    exact hbuilt.vault_first
  have hindex : c.inner.vaultIndex = payout.vaultIndex := congrArg InnerMessage.vaultIndex hc
  have hdecode : decodeCreate env b opts []
      (payout.approveKeys (steps.filterMap PayoutStep.approver?)) c =
      .ok (payout.decodedCreate creator (steps.filterMap PayoutStep.approver?) b.executes
        classified) := by
    simp only [decodeCreate, h.feePayer_eq, hindex, bind_eq_ok, pure_eq_ok, firstThree_eq_ok,
      orElse_eq_ok]
    exact ⟨(payout.multisig, payout.transaction, creator), hkeys, _, hsender, _, hclassify, _,
      hopts.resolveGiven_eq _, rfl⟩
  refine ⟨payout.decodedCreate creator (steps.filterMap PayoutStep.approver?) b.executes classified,
    ?_, payout.decodedCreate_shows h.executes hrecipients hfee hknown⟩
  simp only [decodeBundle, bind_eq_ok, require_eq_ok]
  refine ⟨[], h.unknown, (), by simp [hcreates], _, h.collect_approves _, ?_⟩
  rw [hcreates]
  exact map_eq_ok.mpr ⟨_, hdecode, rfl⟩

/-- **What shows the payout compares without mismatches.** Each check of the comparison is
met by one field of what is shown and one of what the device expects; the flows are compared
by `Payout.clean_compareFundFlows`. -/
theorem DecodedCreate.Shows.clean {d : DecodedCreate} {expected : ExpectedSolanaVaultPayload}
    (h : d.Shows payout) (hvalid : payout.Valid env)
    (hexpected : payout.Expected expected.toExpectedProposal)
    (hmultisig : ∀ m, given expected.expectedMultisigPda = some m → m = toBase58 payout.multisig) :
    (compareDecodedToExpected env (.create d) expected).Clean () := by
  have hflows := payout.clean_compareFundFlows hvalid hexpected.announced h.recipients_perm
  rw [← h.feeLamports_eq, ← h.feePayer_eq, ← h.known] at hflows
  simp only [compareDecodedToExpected, compareOuter, compareCreate, clean_bind, clean_check,
    clean_forSome, clean_each]
  refine ⟨⟨⟩, ⟨⟨⟩, h.unknownOuterPrograms_eq, fun m hm => ?_⟩, ⟨⟩, fun n hn => ?_, ⟨⟩,
    fun pda hpda => ?_, ⟨⟩, fun t ht => ?_, ⟨⟩, fun t ht => ?_, ⟨⟩, fun pda hpda => ?_, hflows⟩
  · rw [h.multisigPda_eq, hmultisig m hm]
  · rw [h.vaultIndex_eq]
    exact hexpected.vaultIndex_is n hn
  · rw [h.sender_eq, hexpected.vaultPda_eq pda hpda]
  · rw [h.approveTargets_eq t ht, h.transactionPda_eq]
  · rw [h.executeTargets_eq t ht, h.transactionPda_eq]
  · rw [h.transactionPda_eq, hexpected.transactionPda_eq pda hpda]

/-- **Every honest payout is accepted.** A wallet pays any number of payees, out of one
vault, in SOL or in one token, with refunds to the paymaster and memos, and bundles the
message of these instructions, in whatever order, with the creation of its proposal. When
the payees are announced to the device, in whatever order, the bundle decodes to kind
create, shows each payment and the refunds together, and compares without mismatches. It
takes that no token account credited is the associated one of another account credited
(`Payout.Valid.separate`), for then an entry could announce two payments and be matched with
the wrong one; that memos have no control characters; and that the options of the decoder
admit the memos and leave recipients unresolved (`Payout.Decodes`). -/
theorem honest_payout_accepted {expected : ExpectedSolanaVaultPayload}
    {opts : DecodeVaultSolanaOptions} {programId creator : Pubkey} {index : UInt64}
    {steps : List PayoutStep} {serializedTxBase64 : String} {tx : Transaction}
    (hvalid : payout.Valid env) (hexpected : payout.Expected expected.toExpectedProposal)
    (hmultisig : ∀ m, given expected.expectedMultisigPda = some m → m = toBase58 payout.multisig)
    (hopts : payout.Decodes opts.expectedRecipientOwner opts.expectedMint opts.allowMemo)
    (hbudget : BudgetWithin opts.allowComputeBudget steps)
    (hprogram : programId ∉ [systemProgramId, computeBudgetProgramId, ataProgramId])
    (hinner : instructions.Perm payout.inner)
    (hbuild : buildMessageFromInstructions payout.vault instructions = .ok built)
    (honchain : built.onchain = .ok message)
    (hbundle : PayoutBundle programId payout index message steps tx)
    (hcreator : steps.filterMap PayoutStep.creator? = [creator])
    (hbytes : web3.base64 serializedTxBase64 ≠ [])
    (htx : web3.transactionFrom (web3.base64 serializedTxBase64) = .ok tx) :
    ∃ d, decodeVaultSolanaTransaction env web3 serializedTxBase64 programId opts = .create d ∧
      (compareDecodedToExpected env (.create d) expected).ok = true ∧
      d.recipients.Perm (payout.payments.map payout.shown) ∧
      d.feeLamports = toString payout.fee := by
  obtain ⟨b, hparse, hb⟩ := hbundle.parse hbudget hprogram hbytes htx
  have hbuilt := payout.builtFrom hinner hbuild honchain (hbundle.keys_le hcreator)
  obtain ⟨d, hdecode, hshows⟩ := hb.exists_decoded hvalid hopts hcreator hinner hbuilt
  refine ⟨d, ?_, ok_iff.mpr ⟨(), hshows.clean hvalid hexpected hmultisig⟩, hshows.recipients_perm,
    hshows.feeLamports_eq⟩
  rw [decodeVaultSolanaTransaction, hparse]
  exact congrArg DecodedVaultSolanaTx.ofResult hdecode

end Gate

/-! ## The payroll of the example cluster -/

namespace Example

open SolanaMultisig.Example

/-- The payroll as a payout. Its message lists the instructions in another order. -/
def payout : Payout where
  multisig := multisig
  vaultIndex := 0
  vault := vault
  paymaster := paymaster
  transaction := transaction
  payments := [⟨carol, carol, 700⟩, ⟨bob, bob, 300⟩]
  token := none
  refunds := [10]
  memos := ["june"]

theorem payroll_perm : payroll.Perm payout.inner := by
  decide +kernel

theorem payout_valid : payout.Valid cluster where
  credits := by simp [payout, Payout.Credits]
  recipient_ne := by decide +kernel
  memo_text := by decide +kernel
  program_eq := by simp [payout]
  separate := by simp [payout]

/-- `alice` proposes the payroll. -/
def proposePayroll : Command :=
  .submit [⟨multisig, false, true⟩, ⟨transaction, false, true⟩, ⟨alice, true, false⟩,
    ⟨paymaster, true, true⟩, ⟨systemProgramId, false, false⟩]
    (createTransactionTag ++ [0] ++ TransactionMessage.codec.encode payrollMessage)

/-- The paymaster executes it. -/
def executePayroll : Command :=
  .submit [⟨multisig, false, false⟩, ⟨transaction, false, true⟩, ⟨paymaster, true, true⟩,
    ⟨vault, false, true⟩, ⟨paymaster, true, true⟩, ⟨bob, false, true⟩, ⟨carol, false, true⟩,
    ⟨memoProgramId, false, false⟩, ⟨systemProgramId, false, false⟩]
    (executeTransactionTag ++ leBytes 8 1)

/-- The keys of the bundle. `bob`, who is paid, is a writable signer. -/
def payrollKeys : List Pubkey :=
  [paymaster, bob, alice, multisig, transaction, vault, carol, memoProgramId, systemProgramId,
    programId]

/-- These commands in one transaction. -/
def payrollBundle (commands : List Command) : LegacyMessage where
  numRequiredSignatures := 3
  numReadonlySigned := 1
  numReadonlyUnsigned := 3
  accountKeys := payrollKeys
  recentBlockhash := key 8
  instructions := (commands.filterMap (Command.outer? cluster)).map (compileOuter payrollKeys)

/-- The payroll from creation to closing. -/
def payrollSend : LegacyMessage :=
  payrollBundle [proposePayroll, approve alice, approve bob, executePayroll, close]

/-- The steps of the bundle. -/
def payrollSteps : List PayoutStep :=
  [.create alice, .approve alice, .approve bob, .execute, .close]

theorem payroll_bundle :
    PayoutBundle programId payout 1 payrollMessage payrollSteps payrollSend.transaction where
  feePayer_eq := rfl
  takes := by
    refine .cons ⟨?_, ?_, ?_⟩ (.cons ⟨?_, ?_, ?_⟩ (.cons ⟨?_, ?_, ?_⟩ (.cons ⟨?_, ?_, ?_⟩
      (.cons ⟨?_, ?_, ?_⟩ .nil)))) <;> decide +kernel
  size_le := by decide +kernel

/-- What the device displays: `bob` before `carol`, and at most 10 lamports of refunds. -/
def payrollExpected : ExpectedSolanaVaultPayload :=
  { expected with
    recipients := [⟨toBase58 bob, "300"⟩, ⟨toBase58 carol, "700"⟩]
    maxFeeLamports := some (.string "10") }

theorem payroll_announced : payout.Announced payrollExpected.toFundFlowExpectation where
  recipients := ⟨[⟨bob, bob, 300⟩, ⟨carol, carol, 700⟩], .swap _ _ _,
    .cons ⟨.inl rfl, by decide +kernel⟩ (.cons ⟨.inl rfl, by decide +kernel⟩ .nil)⟩
  tokenMint_eq := rfl
  tokenDecimals_is := by simp [payout]
  fee_le := ⟨10, by decide +kernel⟩
  feePayer_eq := by simp [payrollExpected, expected, given]

/-- Memos are admitted. -/
def payrollOptions : DecodeVaultSolanaOptions := ⟨none, none, none, some true⟩

theorem payroll_decodes : payout.Decodes none none (some true) := ⟨.inl rfl, fun _ => rfl⟩

end Example

/-- The payroll of the example: two payees announced the other way round, a refund and a
memo. -/
theorem honest_payout_accepted_example : ∃ d,
    decodeVaultSolanaTransaction Example.cluster Example.payrollSend.web3
      Example.payrollSend.base64 Example.programId Example.payrollOptions = .create d ∧
    (compareDecodedToExpected Example.cluster (.create d) Example.payrollExpected).ok = true ∧
    d.recipients.Perm [shownTransfer Example.carol 700, shownTransfer Example.bob 300] ∧
    d.feeLamports = "10" := by
  obtain ⟨built, hbuild, honchain⟩ := Example.build_payroll
  have hbytes : Example.payrollSend.web3.base64 Example.payrollSend.base64 ≠ [] := by
    simp [LegacyMessage.web3, Example.payrollSend.serialize_ne_nil]
  have hexpected : Example.payout.Expected Example.payrollExpected.toExpectedProposal :=
    { announced := Example.payroll_announced
      vaultIndex_is := by simp [Example.payrollExpected, Example.expected]
      vaultPda_eq := by simp [Example.payrollExpected, Example.expected, given]
      transactionPda_eq := by simp [Example.payrollExpected, Example.expected, given] }
  refine honest_payout_accepted Example.payout_valid hexpected (fun m hm => ?_)
    Example.payroll_decodes
    { limits_le := by decide
      prices_le := by decide
      limit_le := by simp [Example.payrollSteps]
      price_le := by simp [Example.payrollSteps] }
    (by decide +kernel) Example.payroll_perm hbuild honchain Example.payroll_bundle rfl
    hbytes Example.payrollSend.transactionFrom_base64
  exact (Option.some.inj ((given_toBase58 Example.multisig).symm.trans hm)).symm

end SolanaMultisig.Sdk
