import SolanaMultisig.Sdk.HonestSend
import SolanaMultisig.Sdk.RecipientMatch

/-!
# Payouts

What an enterprise wallet asks of the vault: any number of payments, in SOL or in one
token, refunds to the paymaster and memos. In whatever order the instructions stand,
and in whatever order the payees are announced, the message built for a payout is
classified as the payout, and its flows compare without mismatches
(`Payout.clean_compareFundFlows`).
-/

namespace SolanaMultisig.Sdk

open Wire Guard Report

variable {env : Env}

/-! ## The payout -/

/-- A payment: who is paid, the account credited (the payee itself, for SOL) and the amount.
-/
structure Payment where
  recipient : Pubkey
  destination : Pubkey
  amount : UInt64

/-- What is paid out, if it is not SOL. One token and one source serve the whole payout. -/
structure PayoutToken where
  tokenProgram : Pubkey
  mint : Pubkey
  /-- the token account of the vault -/
  source : Pubkey
  decimals : UInt8

/-- **A payout, as the wallet composes it.** There may be any number of payments, refunds
and memos, and some payees may be the same. -/
structure Payout where
  multisig : Pubkey
  vaultIndex : UInt8
  vault : Pubkey
  paymaster : Pubkey
  /-- the proposal -/
  transaction : Pubkey
  payments : List Payment
  token : Option PayoutToken
  /-- lamports the vault pays back to the paymaster -/
  refunds : List UInt64
  memos : List String

namespace Payout

variable (payout : Payout)

/-- The instruction of a payment, in lamports or with `TransferChecked`. -/
def pay (p : Payment) : Instruction :=
  match payout.token with
  | none => transferInstruction payout.vault p.destination p.amount
  | some t => transferCheckedInstruction t.tokenProgram t.source t.mint p.destination payout.vault
      p.amount t.decimals

/-- How it is shown: under the account credited, as recipients are left unresolved. -/
def shown (p : Payment) : DecodedSolanaVaultRecipient :=
  match payout.token with
  | none => shownTransfer p.destination p.amount
  | some t => shownTransferChecked p.destination none t.tokenProgram t.mint p.destination p.amount
      t.decimals

/-- The instructions for the vault, in some order: payments, refunds and memos. -/
def inner : List Instruction :=
  payout.payments.map payout.pay ++
    (payout.refunds.map (transferInstruction payout.vault payout.paymaster) ++
      payout.memos.map memoInstruction)

/-- What these instructions are, in the same order. -/
def classified : List Classified :=
  payout.payments.map (fun p => .recipient (payout.shown p)) ++
    (payout.refunds.map (fun lamports => .fee lamports.toNat) ++ payout.memos.map .memo)

/-- The refunds together, as the gate shows and bounds only their sum. -/
def fee : ℕ := (payout.refunds.map UInt64.toNat).sum

/-- The account credited is the payee's: itself for SOL, and for a token the associated one.
-/
def Credits (env : Env) (p : Payment) : Prop :=
  match payout.token with
  | none => p.destination = p.recipient
  | some t => deriveAssociatedTokenAddress env p.recipient t.mint t.tokenProgram =
      .ok p.destination

/-- **The payout keeps to the rules.** Accounts may coincide, but none that is credited is
the associated account of another one, as an entry could then announce either. -/
structure Valid (env : Env) : Prop where
  credits : ∀ p ∈ payout.payments, payout.Credits env p
  /-- SOL for the paymaster would be a refund -/
  recipient_ne : payout.token = none → ∀ p ∈ payout.payments, p.recipient ≠ payout.paymaster
  memo_text : ∀ text ∈ payout.memos, hasControl text = false
  program_eq : ∀ t, payout.token = some t →
    t.tokenProgram = tokenProgramId ∨ t.tokenProgram = token2022ProgramId
  /-- no account credited belongs to another account credited -/
  separate : ∀ t, payout.token = some t → ∀ p ∈ payout.payments, ∀ p' ∈ payout.payments,
    deriveAssociatedTokenAddress env p.destination t.mint t.tokenProgram ≠ .ok p'.destination

/-- The entry announces the payment: the payee or, for tokens, the account, and the amount.
-/
def Announces (exp : ExpectedRecipient) (p : Payment) : Prop :=
  (exp.address = toBase58 p.recipient ∨ exp.address = toBase58 p.destination) ∧
    decimal exp.amount = some p.amount.toNat

/-- The device was told of these payments, in some order, with a cap on the refunds that is
high enough. -/
structure Announced (expected : FundFlowExpectation) : Prop where
  recipients : ∃ payments, payments.Perm payout.payments ∧
    List.Forall₂ Announces expected.recipients payments
  tokenMint_eq : given expected.tokenMint = payout.token.map fun t => toBase58 t.mint
  tokenDecimals_is : ∀ t, payout.token = some t → ∀ n, expected.tokenDecimals = some n →
    n.Is t.decimals.toNat
  fee_le : ∃ maxFee, expected.maxFee = some maxFee ∧ payout.fee ≤ maxFee
  feePayer_eq : ∀ payer, given expected.expectedFeePayer = some payer →
    payer = toBase58 payout.paymaster

end Payout

/-- No SOL goes to the paymaster but refunds, so no payment is classified as one. -/
theorem Payout.Valid.destination_ne {payout : Payout} (h : payout.Valid env)
    (htoken : payout.token = none) {p : Payment} (hp : p ∈ payout.payments) :
    p.destination ≠ payout.paymaster := by
  have hcredits := h.credits p hp
  rw [Credits, htoken] at hcredits
  exact hcredits.symm ▸ h.recipient_ne htoken p hp

/-! ## Its message -/

section Message

variable {payout : Payout} {message : TransactionMessage} {instructions : List Instruction}

/-- There are three kinds of instructions in a payout, so a fact about them has three cases,
whatever the order. -/
theorem Payout.forall_inner {p : Instruction → Prop}
    (htransfer : ∀ k lamports, p (transferInstruction payout.vault k lamports))
    (hchecked : ∀ (t : PayoutToken) k amount, p (transferCheckedInstruction t.tokenProgram t.source
      t.mint k payout.vault amount t.decimals))
    (hmemo : ∀ text, p (memoInstruction text)) (hinner : instructions.Perm payout.inner) :
    ∀ ix ∈ instructions, p ix := by
  intro ix hix
  have hmem := hinner.mem_iff.mp hix
  simp only [inner, List.mem_append, List.mem_map] at hmem
  rcases hmem with ⟨payment, -, rfl⟩ | ⟨lamports, -, rfl⟩ | ⟨text, -, rfl⟩
  · unfold pay
    split
    · exact htransfer _ _
    · exact hchecked _ _ _
  · exact htransfer _ _
  · exact hmemo _

/-- Only the vault is marked as a signer, as an execution can sign for no other account. -/
theorem Payout.signer_eq (hinner : instructions.Perm payout.inner) :
    ∀ ix ∈ instructions, ∀ a ∈ ix.accounts, a.isSigner = true → a.pubkey = payout.vault :=
  forall_inner (by simp [transferInstruction]) (by simp [transferCheckedInstruction])
    (by simp [memoInstruction]) hinner

/-- Each instruction is classified as what it is, wherever the message lists it. -/
theorem Payout.classify_inner {allowMemo : Bool} (vaultIndex : UInt8) (hvalid : payout.Valid env)
    (hmemos : payout.memos ≠ [] → allowMemo = true)
    (hvault : message.accountKeys[0]? = some payout.vault) :
    List.Forall₂ (fun ix c => ∀ cix, Lists message ix cix → classifyOrUnknown
        (.of vaultIndex message) (some (toBase58 payout.paymaster)) allowMemo cix = c)
      payout.inner payout.classified := by
  refine List.rel_append ?_ (List.rel_append ?_ ?_)
  · -- payments, none of SOL to the paymaster
    rw [List.forall₂_map_left_iff, List.forall₂_map_right_iff, List.forall₂_same]
    intro p hp cix hlists
    unfold pay at hlists
    unfold shown
    split at hlists
    · rename_i htoken
      have hpaymaster : toBase58 payout.paymaster ≠ toBase58 p.destination := fun h =>
        hvalid.destination_ne htoken hp (toBase58_injective h).symm
      rw [classify_transfer hvault hlists, given_toBase58,
        if_neg fun h => hpaymaster (Option.some.inj h)]
    · rename_i t htoken
      rw [classify_transferChecked hvault (hvalid.program_eq t htoken) hlists]
  · rw [List.forall₂_map_left_iff, List.forall₂_map_right_iff, List.forall₂_same]
    intro lamports _ cix hlists
    rw [classify_transfer hvault hlists, if_pos (given_toBase58 _)]
  · rw [List.forall₂_map_left_iff, List.forall₂_map_right_iff, List.forall₂_same]
    intro text htext cix hlists
    rw [hmemos (List.ne_nil_of_mem htext)]
    exact classify_memo (hvalid.memo_text text htext) hlists

/-- In whatever order they stand in the message, the kinds are those of the payout. -/
theorem Payout.classified_perm {allowMemo : Bool} (vaultIndex : UInt8) (hvalid : payout.Valid env)
    (hmemos : payout.memos ≠ [] → allowMemo = true)
    (hbuilt : BuiltFrom message payout.vault instructions)
    (hinner : instructions.Perm payout.inner) :
    (message.instructions.map (classifyOrUnknown (.of vaultIndex message)
      (some (toBase58 payout.paymaster)) allowMemo)).Perm payout.classified := by
  obtain ⟨compiled, hlists, hperm⟩ := List.perm_comp_forall₂ hinner.symm hbuilt.lists
  have hjoin := forall₂_join
    (payout.classify_inner vaultIndex hvalid hmemos hbuilt.vault_first) hlists
  have heq : payout.classified = compiled.map (classifyOrUnknown (.of vaultIndex message)
      (some (toBase58 payout.paymaster)) allowMemo) := by
    rw [← List.forall₂_eq_eq_eq, List.forall₂_map_right_iff]
    refine hjoin.imp ?_
    rintro c cix ⟨ix, hc, hix⟩
    exact (hc cix hix).symm
  rw [heq]
  exact hperm.symm.map _

theorem Payout.recipients_classified :
    payout.classified.filterMap Classified.recipient? = payout.payments.map payout.shown := by
  simp [classified, List.filterMap_append, List.filterMap_map, Function.comp_def,
    Classified.recipient?]

theorem Payout.fees_classified :
    (payout.classified.filterMap Classified.fee?).sum = payout.fee := by
  simp [classified, fee, List.filterMap_append, List.filterMap_map, Function.comp_def,
    Classified.fee?]

/-- **The message is classified as the payout**: its payments, its refunds and no unknowns.
The payments come in the order of the message. -/
theorem Payout.classifyInnerMessage_eq {allowMemo : Bool} (vaultIndex : UInt8)
    (hvalid : payout.Valid env) (hmemos : payout.memos ≠ [] → allowMemo = true)
    (hbuilt : BuiltFrom message payout.vault instructions)
    (hinner : instructions.Perm payout.inner) :
    ∃ c, classifyInnerMessage (.of vaultIndex message) (some (toBase58 payout.paymaster))
        allowMemo = .ok c ∧ c.recipients.Perm (payout.payments.map payout.shown) ∧
      c.feeLamports = payout.fee ∧ c.unknownInnerInstructionCount = 0 := by
  have hperm := payout.classified_perm vaultIndex hvalid hmemos hbuilt hinner
  have hne : (InnerMessage.of vaultIndex message).accountKeys ≠ [] := by
    intro hnil
    have hfirst : (InnerMessage.of vaultIndex message).accountKeys[0]? = some payout.vault :=
      hbuilt.vault_first
    rw [hnil] at hfirst
    cases hfirst
  refine ⟨_, bind_eq_ok.mpr ⟨(), require_eq_ok.mpr hne, rfl⟩, ?_⟩
  obtain ⟨hrecipients, hfee, hcount⟩ := foldl_add
    ⟨[], 0, (InnerMessage.of vaultIndex message).addressTableLookupCount, []⟩
    (message.instructions.map (classifyOrUnknown (.of vaultIndex message)
      (some (toBase58 payout.paymaster)) allowMemo))
  refine ⟨(List.Perm.of_eq hrecipients).trans ?_, hfee.trans ?_, hcount.mpr ⟨?_, ?_⟩⟩
  · rw [List.nil_append, ← payout.recipients_classified]
    exact hperm.filterMap _
  · rw [Nat.zero_add, (hperm.filterMap _).sum_nat, payout.fees_classified]
  · simp [InnerMessage.of, hbuilt.lookups_eq]
  · rw [hperm.mem_iff]
    simp [classified]

end Message

/-! ## Its flows -/

section Flows

variable {payout : Payout} {expected : FundFlowExpectation} {exp : ExpectedRecipient} {p : Payment}

theorem Payout.amount_shown : (payout.shown p).amount = toString p.amount.toNat := by
  unfold shown
  split <;> rfl

/-- SOL is to the address shown and to no other. -/
theorem matches_transfer {k dst : Pubkey} {lamports : UInt64} :
    recipientMatchesAddress env (shownTransfer dst lamports) (toBase58 k) = true ↔ dst = k := by
  simp [recipientMatchesAddress, shownTransfer, toBase58_injective.eq_iff]

/-- Tokens are to the account shown, and to its owner: the address from which the account is
derived. -/
theorem matches_transferChecked {k tokenProgram mint dst : Pubkey} {amount : UInt64}
    {decimals : UInt8} :
    recipientMatchesAddress env
        (shownTransferChecked dst none tokenProgram mint dst amount decimals) (toBase58 k) = true ↔
      dst = k ∨ deriveAssociatedTokenAddress env k mint tokenProgram = .ok dst := by
  have hpublic : ∀ k', publicKey (toBase58 k') = .ok k' := fun k' => publicKey_eq_ok.mpr rfl
  simp only [recipientMatchesAddress, shownTransferChecked, Option.some.injEq, or_self,
    toBase58_injective.eq_iff, given_toBase58, hpublic]
  by_cases hk : dst = k
  · simp [hk]
  · simp only [hk, if_false, false_or]
    cases hata : deriveAssociatedTokenAddress env k mint tokenProgram with
    | ok k' => simp [Bind.bind, Except.bind, hata]
    | error e => simp [Bind.bind, Except.bind, hata]

/-- A recipient is named by what announces it, and by nothing that announces another
account. Here it takes that the accounts are separate. -/
theorem Payout.matches_iff (hvalid : payout.Valid env) {p' : Payment}
    (hp : p ∈ payout.payments) (hp' : p' ∈ payout.payments) (h : Announces exp p) :
    recipientMatchesAddress env (payout.shown p') exp.address = true ↔
      p'.destination = p.destination := by
  have hcredits := hvalid.credits p hp
  unfold shown
  unfold Credits at hcredits
  cases htoken : payout.token with
  | none =>
    simp only [htoken] at hcredits ⊢
    rcases h.1 with hname | hname <;> rw [hname, matches_transfer]
    rw [hcredits]
  | some t =>
    simp only [htoken] at hcredits ⊢
    have hseparate := hvalid.separate t htoken
    rcases h.1 with hname | hname <;> rw [hname, matches_transferChecked]
    · rw [hcredits, Except.ok.injEq]
      constructor
      · rintro (hdirect | howner)
        · exact absurd (hdirect ▸ hcredits) (hseparate p' hp' p hp)
        · exact howner.symm
      · exact fun h => .inr h.symm
    · exact or_iff_left (hseparate p hp p' hp')

/-- A recipient fits what announces it, and what announces the same account and amount. So
payees that fit a common recipient fit the same recipients. -/
theorem Payout.fits_iff (hvalid : payout.Valid env) {p' : Payment} (hp : p ∈ payout.payments)
    (hp' : p' ∈ payout.payments) (h : Announces exp p) :
    recipientFits env exp (payout.shown p') = true ↔
      p'.destination = p.destination ∧ p'.amount = p.amount := by
  have hamount : toBigIntOrNull (some (.string exp.amount)) = some p.amount.toNat := h.2
  have hshown : toBigIntOrNull (some (.string (payout.shown p').amount)) =
      some p'.amount.toNat := by
    rw [payout.amount_shown]
    exact decimal_toString _
  rw [recipientFits_iff, Names, payout.matches_iff hvalid hp hp' h, hamount, hshown]
  refine and_congr_right fun _ => ?_
  rw [← UInt64.toNat_inj]
  constructor
  · rintro ⟨amount, ha, ha'⟩
    exact Option.some.inj (ha'.trans ha.symm)
  · exact fun he => ⟨_, rfl, congrArg some he⟩

/-- **The payees are matched**, in whatever order they are announced: where choices do not
matter, first fit finds the matching. -/
theorem Payout.Announced.complete (hvalid : payout.Valid env) (h : payout.Announced expected)
    {rs : List DecodedSolanaVaultRecipient} (hrs : rs.Perm (payout.payments.map payout.shown)) :
    Matching.Complete (recipientFits env) expected.recipients rs := by
  obtain ⟨payments, hperm, hannounces⟩ := h.recipients
  have hmem : ∀ p ∈ payments, p ∈ payout.payments := fun p hp => hperm.mem_iff.mp hp
  have hpaired : Matching.Paired (recipientFits env) expected.recipients rs := by
    refine ⟨payments.map payout.shown, (hperm.map _).trans hrs.symm, ?_⟩
    rw [List.forall₂_map_right_iff]
    have hboth := (List.forall₂_and_left _ _).mpr ⟨hmem, hannounces.flip⟩
    exact hboth.flip.imp fun exp p ⟨hp, hname⟩ =>
      (payout.fits_iff hvalid hp hp hname).mpr ⟨rfl, rfl⟩
  refine hpaired.complete ?_
  -- who fits a common recipient announces the same account and amount
  intro exp hexp exp' hexp' r hr r' hr' hfit hfit' hfit''
  obtain ⟨p, hp, hname⟩ := exists_right_of_forall₂ hannounces hexp
  obtain ⟨p', hp', hname'⟩ := exists_right_of_forall₂ hannounces hexp'
  obtain ⟨q, hq, rfl⟩ := List.mem_map.mp (hrs.mem_iff.mp hr)
  obtain ⟨q', hq', rfl⟩ := List.mem_map.mp (hrs.mem_iff.mp hr')
  rw [payout.fits_iff hvalid (hmem p hp) hq hname] at hfit
  rw [payout.fits_iff hvalid (hmem p' hp') hq hname'] at hfit'
  rw [payout.fits_iff hvalid (hmem p' hp') hq' hname'] at hfit''
  rw [payout.fits_iff hvalid (hmem p hp) hq' hname, hfit''.1, hfit''.2, ← hfit'.1, ← hfit'.2]
  exact hfit

/-- Each is of the asset announced, with the decimals announced if there are any. -/
theorem Payout.Announced.clean_checkAsset (h : payout.Announced expected) (p : Payment) :
    (checkAsset expected (payout.shown p)).Clean () := by
  have hmint := h.tokenMint_eq
  unfold checkAsset shown
  cases htoken : payout.token with
  | none =>
    rw [htoken, Option.map_none] at hmint
    change (forSome _ (given expected.tokenMint)).Clean ()
    rw [hmint]
    exact clean_pure.mpr rfl
  | some t =>
    rw [htoken, Option.map_some] at hmint
    simp only [shownTransferChecked, given_toBase58, clean_bind, checkMint_clean, clean_forSome]
    refine ⟨(), hmint, fun n hn => clean_check.mpr ?_⟩
    exact decide_eq_true (h.tokenDecimals_is t htoken n hn)

/-- **The flows of a payout compare without mismatches**, with the payments shown in any
order. -/
theorem Payout.clean_compareFundFlows (hvalid : payout.Valid env) (h : payout.Announced expected)
    {rs : List DecodedSolanaVaultRecipient} (hrs : rs.Perm (payout.payments.map payout.shown)) :
    (compareFundFlows env ⟨rs, toString payout.fee, some (toBase58 payout.paymaster), 0⟩
      expected).Clean () := by
  obtain ⟨hfound, hused⟩ := h.complete hvalid hrs
  simp only [compareFundFlows, toBigIntOrNull, decimal_toString, Option.getD_some, clean_bind,
    clean_check, clean_note, clean_forSome, clean_each, checkFee_clean, List.map_eq_nil_iff]
  refine ⟨⟨⟩, trivial, ⟨⟩, h.fee_le, ⟨⟩, fun payer hpayer => .inr ?_, ⟨⟩, hfound, ⟨⟩, hused,
    fun r hr => ?_⟩
  · rw [h.feePayer_eq payer hpayer]
  · obtain ⟨p, -, rfl⟩ := List.mem_map.mp (hrs.mem_iff.mp hr)
    exact h.clean_checkAsset p

end Flows

end SolanaMultisig.Sdk
