import SolanaMultisig.Lib.Matching
import SolanaMultisig.Lib.Report
import SolanaMultisig.Sdk.Classify

/-!
# Comparing fund flows

What the device was told (`FundFlowExpectation`) against what was decoded
(`FundFlowView`). A comparison without mismatches, of the classification of a
message, means that the calls of this message are exactly the flows expected
(`exactFlows_of_flowsMatch`).
-/

namespace SolanaMultisig.Sdk

open Wire Guard Report

variable {env : Env}

/-- A payee as announced: an address, and an amount as a text. -/
structure ExpectedRecipient where
  /-- owner, or token account -/
  address : String
  /-- base units, in decimal -/
  amount : String
  deriving DecidableEq

/-- What the device is being asked to approve, as far as funds are concerned. All payees are
paid in one asset. -/
structure FundFlowExpectation where
  /-- who is paid what -/
  recipients : List ExpectedRecipient
  /-- the token mint being sent; unset for SOL -/
  tokenMint : Option String
  /-- when set, the decimals on the wire must equal it -/
  tokenDecimals : Option Number
  /-- most lamports the vault may refund to the fee payer; 0 when unset -/
  maxFeeLamports : Option Amount
  /-- when set, who any refund must go to -/
  expectedFeePayer : Option String

/-- What was decoded, from a bundle or from a proposal on chain. The comparison is the same
for both. -/
structure FundFlowView where
  /-- the transfers -/
  recipients : List DecodedSolanaVaultRecipient
  /-- the refund to the fee payer, in decimal -/
  feeLamports : String
  /-- who that is -/
  feePayer : Option String
  /-- what could not be classified -/
  unknownInnerInstructionCount : ℕ

/-- Does `expectedAddress` name this decoded recipient (owner, raw destination, or owner of
the token account)? The last is derived here, under the token program on the wire. -/
def recipientMatchesAddress (env : Env) (r : DecodedSolanaVaultRecipient)
    (expectedAddress : String) : Bool :=
  if r.address = expectedAddress ∨ r.ata = some expectedAddress then true
  else
    match r.asset, given r.ata, given r.mint, given r.tokenProgram with
    | .spl, some ata, some mint, some tokenProgram =>
        let derived : Except String Pubkey := do
          let ownerKey ← publicKey expectedAddress
          let mintKey ← publicKey mint
          let programKey ← publicKey tokenProgram
          deriveAssociatedTokenAddress env ownerKey mintKey programKey
        match derived with
        | .ok k => decide (toBase58 k = ata)
        | .error _ => false
    | _, _, _, _ => false

/-- Is this the recipient announced, with the same amount? An amount that is no number fits
nothing. -/
def recipientFits (env : Env) (expected : ExpectedRecipient) (r : DecodedSolanaVaultRecipient) :
    Bool :=
  recipientMatchesAddress env r expected.address &&
    match toBigIntOrNull (some (.string expected.amount)),
      toBigIntOrNull (some (.string r.amount)) with
    | some a, some b => decide (b = a)
    | _, _ => false

/-- The cap on refunds: 0 when unset, none when it is not a number. So without a cap no
refund is accepted. -/
def FundFlowExpectation.maxFee (expected : FundFlowExpectation) : Option ℕ :=
  match expected.maxFeeLamports with
  | none => some 0
  | some (.number n) => toBigIntOrNull (some (.number n))
  | some amount => toBigIntOrNull (some (.string amount.text))

/-- The text of a value that may be missing, as a template string has it. -/
def orUndefined (s : Option String) : String := s.getD "undefined"

/-- The mint on the wire is the one expected. With no mint expected, a token transfer is a
mismatch. -/
def checkMint (expected : FundFlowExpectation) (mint : String) : Report String Unit :=
  match given expected.tokenMint with
  | none =>
      note ["decoded SPL token transfer of mint " ++ mint ++
        " but the expected payload is a native SOL transfer"]
  | some tokenMint =>
      check (mint = tokenMint)
        ("decoded token mint " ++ mint ++ " does not match expected mint " ++ tokenMint)

/-- Asset, mint and decimals of one recipient. -/
def checkAsset (expected : FundFlowExpectation) (r : DecodedSolanaVaultRecipient) :
    Report String Unit :=
  match r.asset, given r.mint with
  | .spl, none =>
      note ["SPL transfer to " ++ r.address ++
        " carries no mint on the wire (legacy Transfer) and cannot be verified"]
  | .spl, some mint => do
      checkMint expected mint
      forSome (fun n =>
        check (r.decimals.any (fun d => decide (n.Is d.toNat)) = true)
          ("decoded token decimals " ++ orUndefined (r.decimals.map fun d => toString d.toNat) ++
            " do not match expected decimals " ++ n.text)) expected.tokenDecimals
  | .native, _ =>
      forSome (fun tokenMint =>
        note ["decoded native SOL transfer to " ++ r.address ++
          " but the expected payload is a token transfer of mint " ++ tokenMint])
        (given expected.tokenMint)

/-- The refund to the fee payer is within the cap. A cap that cannot be read is a mismatch.
-/
def checkFee (expected : FundFlowExpectation) (decodedFee : ℕ) : Report String Unit :=
  match expected.maxFee with
  | none =>
      note ["invalid maxFeeLamports: " ++
        orUndefined (expected.maxFeeLamports.map Amount.text)]
  | some maxFee =>
      check (decodedFee ≤ maxFee)
        ("vault->fee-payer outflow of " ++ toString decodedFee ++
          " lamports exceeds the allowed maximum of " ++ toString maxFee)

/-- **Every flow of funds must be accounted for**: no unknown instruction, the refund within
its cap, and recipients and payees matched one to one. -/
def compareFundFlows (env : Env) (view : FundFlowView) (expected : FundFlowExpectation) :
    Report String Unit := do
  check (view.unknownInnerInstructionCount = 0)
    (toString view.unknownInnerInstructionCount ++
      " unrecognized inner instruction(s) in the transaction message")
  let decodedFee := (toBigIntOrNull (some (.string view.feeLamports))).getD 0
  checkFee expected decodedFee
  forSome (fun payer =>
    -- without a refund the fee payer is not compared
    check (decodedFee = 0 ∨ view.feePayer = some payer)
      ("fee paid to " ++ view.feePayer.getD "unknown" ++ ", expected fee payer " ++ payer))
    (given expected.expectedFeePayer)
  -- multiset match: every expected recipient must be found exactly once
  let pool := Matching.firstFit (recipientFits env) expected.recipients
    (view.recipients.map fun r => (r, false))
  note (pool.1.map fun exp => "expected recipient " ++ exp.address ++ " with amount " ++ exp.amount ++
    " not found in decoded transaction")
  note ((Matching.unused pool.2).map fun r => "decoded recipient " ++ r.address ++
    " with amount " ++ r.amount ++ " is not present in the expected payload")
  each (checkAsset expected) view.recipients

/-! ## What a comparison without mismatches means -/

/-- The asset of a recipient is the one expected: the token of that mint, or lamports where
no mint is. -/
def AssetOk (expected : FundFlowExpectation) (r : DecodedSolanaVaultRecipient) : Prop :=
  match r.asset with
  | .spl => ∃ mint, r.mint = some mint ∧ given expected.tokenMint = some mint
  | .native => given expected.tokenMint = none

theorem checkMint_clean {expected : FundFlowExpectation} {mint : String} {u : Unit} :
    (checkMint expected mint).Clean u ↔ given expected.tokenMint = some mint := by
  unfold checkMint
  split
  · rename_i hnone
    simp [hnone]
  · rename_i tokenMint hsome
    simp [hsome, eq_comm]

theorem assetOk_of_clean {expected : FundFlowExpectation} {r : DecodedSolanaVaultRecipient}
    (h : (checkAsset expected r).Clean ()) : AssetOk expected r := by
  unfold checkAsset at h
  unfold AssetOk
  split at h
  · simp at h
  · rename_i mint hasset hmint
    rw [hasset]
    obtain ⟨_, hclean, -⟩ := clean_bind.mp h
    exact ⟨mint, (given_eq_some hmint).1, checkMint_clean.mp hclean⟩
  · rename_i hasset
    rw [hasset]
    exact Option.eq_none_iff_forall_ne_some.mpr (by simpa using h)

theorem checkFee_clean {expected : FundFlowExpectation} {fee : ℕ} {u : Unit} :
    (checkFee expected fee).Clean u ↔ ∃ maxFee, expected.maxFee = some maxFee ∧ fee ≤ maxFee := by
  unfold checkFee
  split
  · rename_i hnone
    simp [hnone]
  · rename_i maxFee hsome
    simp [hsome]

/-- What a clean comparison establishes, without the order in which it was made. -/
structure FlowsMatch (env : Env) (view : FundFlowView) (expected : FundFlowExpectation) : Prop where
  /-- everything was classified -/
  known : view.unknownInnerInstructionCount = 0
  /-- the refund is within the cap -/
  fee_le : ∃ maxFee, expected.maxFee = some maxFee ∧
    (toBigIntOrNull (some (.string view.feeLamports))).getD 0 ≤ maxFee
  /-- recipients and payees are paired off -/
  paired : ∃ rs, rs.Perm view.recipients ∧
    List.Forall₂ (fun exp r => recipientFits env exp r = true) expected.recipients rs
  /-- and of the right asset -/
  assets : ∀ r ∈ view.recipients, AssetOk expected r

theorem flowsMatch_of_clean {view : FundFlowView} {expected : FundFlowExpectation}
    (h : (compareFundFlows env view expected).Clean ()) : FlowsMatch env view expected := by
  simp only [compareFundFlows, clean_bind, clean_check, clean_note, clean_each, checkFee_clean,
    List.map_eq_nil_iff] at h
  obtain ⟨-, hknown, -, hfee, -, -, -, hfound, -, hused, hassets⟩ := h
  obtain ⟨rs, hperm, hfits⟩ := Matching.perm_of_firstFit (Prod.ext hfound rfl) hused
  rw [Matching.unused_fresh] at hperm
  exact ⟨hknown, hfee, ⟨rs, hperm, hfits⟩, fun r hr => assetOk_of_clean (hassets r hr)⟩

/-! ## From what is shown to what is run -/

/-- A payee, as the comparison reads it: the address may be the owner or the token account.
-/
def PaysRecipient (env : Env) (vault : Pubkey) (tokenMint : Option String)
    (exp : ExpectedRecipient) (ix : Instruction) : Prop :=
  ∃ amount, decimal exp.amount = some amount ∧
    PaysAddress env vault (given tokenMint) exp.address amount ix

/-- A token transfer shown under an address goes to this address: it is the account itself,
or the owner of which the account is derived. -/
theorem matchesAddress_spl {vault mint dst : Pubkey} {claimed : Option (String × String)}
    {ix : Instruction} {amount : ℕ} {address expectedAddress amountText : String}
    {verified : Option Bool} {decimals : Option UInt8}
    (hix : IsTransferChecked ix mint dst vault amount)
    (haddress : address = toBase58 dst ∧ verified ≠ some true ∨
      ∃ owner m, claimed = some (toBase58 owner, toBase58 m) ∧ address = toBase58 owner ∧
        IsAssociatedTokenAccount env owner m dst)
    (hclaimed : ∀ o m, claimed = some (o, m) → m = toBase58 mint)
    (hmatch : recipientMatchesAddress env
      ⟨address, some (toBase58 dst), verified, amountText, .spl, some (toBase58 mint), decimals,
        some (toBase58 ix.programId)⟩ expectedAddress = true) :
    toBase58 dst = expectedAddress ∨ ∃ owner, toBase58 owner = expectedAddress ∧
      IsAssociatedTokenAccount env owner mint dst := by
  unfold recipientMatchesAddress at hmatch
  split at hmatch
  · rename_i hdirect
    rcases hdirect with rfl | hata
    · rcases haddress with ⟨hdst, -⟩ | ⟨owner, m, hc, howner, hata⟩
      · exact .inl hdst.symm
      · obtain rfl := toBase58_injective (hclaimed _ _ hc)
        exact .inr ⟨owner, howner.symm, hata⟩
    · exact .inl (Option.some.inj hata)
  · simp only [given_toBase58] at hmatch
    split at hmatch
    · rename_i k hk
      simp only [bind_eq_ok, publicKey_eq_ok] at hk
      obtain ⟨owner, howner, m, hm, program, hprogram, hderive⟩ := hk
      obtain rfl := toBase58_injective hm
      obtain rfl := toBase58_injective hprogram
      obtain rfl := toBase58_injective (of_decide_eq_true hmatch)
      refine .inr ⟨owner, howner.symm, ?_⟩
      rcases hix.program_eq with htoken | htoken
      · exact .inl (htoken ▸ hderive)
      · exact .inr (htoken ▸ hderive)
    · cases hmatch

/-- A recipient that fits has the amount announced, as numbers and not only as texts. -/
theorem amount_of_fits {exp : ExpectedRecipient} {r : DecodedSolanaVaultRecipient} {amount : ℕ}
    (h : recipientFits env exp r = true) (hr : r.amount = toString amount) :
    recipientMatchesAddress env r exp.address = true ∧ decimal exp.amount = some amount := by
  obtain ⟨hmatch, hamount⟩ := Bool.and_eq_true_iff.mp h
  refine ⟨hmatch, ?_⟩
  rw [hr] at hamount
  simp only [toBigIntOrNull, decimal_toString] at hamount
  split at hamount
  · rename_i a b ha hb
    obtain rfl := Option.some.inj hb
    obtain rfl := of_decide_eq_true hamount
    exact ha
  · cases hamount

/-- A recipient that fits a payee is a payment to it, in the asset expected. -/
theorem paysRecipient_of_fits {vault : Pubkey} {claimed : Option (String × String)}
    {ix : Instruction} {r : DecodedSolanaVaultRecipient} {expected : FundFlowExpectation}
    {exp : ExpectedRecipient} (hshows : Shows env vault claimed ix r)
    (hclaimed : ∀ o m, claimed = some (o, m) → given expected.tokenMint = some m)
    (hasset : AssetOk expected r) (hfits : recipientFits env exp r = true) :
    PaysRecipient env vault expected.tokenMint exp ix := by
  cases hshows with
  | @native dst amount htransfer =>
    obtain ⟨hmatch, hamount⟩ := amount_of_fits hfits rfl
    have htoken : given expected.tokenMint = none := hasset
    refine ⟨amount, hamount, ?_⟩
    rw [htoken]
    refine ⟨dst, ?_, htransfer⟩
    simpa [recipientMatchesAddress] using hmatch
  | @spl mint dst amount address verified decimals htransfer haddress =>
    obtain ⟨hmatch, hamount⟩ := amount_of_fits hfits rfl
    obtain ⟨text, htext, htoken⟩ : ∃ text, some (toBase58 mint) = some text ∧
        given expected.tokenMint = some text := hasset
    obtain rfl := Option.some.inj htext
    refine ⟨amount, hamount, ?_⟩
    rw [htoken]
    have hmint : ∀ o m, claimed = some (o, m) → m = toBase58 mint := by
      intro o m hc
      have hm := hclaimed o m hc
      rw [htoken] at hm
      exact (Option.some.inj hm).symm
    exact ⟨mint, dst, rfl, htransfer, matchesAddress_spl htransfer haddress hmint hmatch⟩

/-- Rearranging what is shown rearranges what is run, as the two lists are paired. -/
theorem exists_perm_of_forall₂ {α β : Type} {p : α → β → Prop} {as : List α} {bs bs' : List β}
    (h : List.Forall₂ p as bs) (hperm : bs'.Perm bs) :
    ∃ as', as'.Perm as ∧ List.Forall₂ p as' bs' := by
  obtain ⟨as', hf, hp⟩ := List.perm_comp_forall₂ hperm h.flip
  exact ⟨as', hp, hf.flip⟩

/-- What fits one by one pays one by one. What counts as a payment is up to the gate. -/
theorem forall₂_pays {vault : Pubkey} {claimed : Option (String × String)}
    {pays : ExpectedRecipient → Instruction → Prop} {exps : List ExpectedRecipient}
    {payments : List Instruction} {rs : List DecodedSolanaVaultRecipient}
    (hshows : List.Forall₂ (Shows env vault claimed) payments rs)
    (hpays : ∀ exp ∈ exps, ∀ ix, ∀ r ∈ rs, Shows env vault claimed ix r →
      recipientFits env exp r = true → pays exp ix)
    (hfits : List.Forall₂ (fun exp r => recipientFits env exp r = true) exps rs) :
    List.Forall₂ pays exps payments := by
  induction hfits generalizing payments with
  | nil =>
    cases hshows
    exact .nil
  | cons hfit _ ih =>
    cases hshows with
    | cons hix hshows =>
      refine .cons (hpays _ List.mem_cons_self _ _ List.mem_cons_self hix hfit) (ih hshows ?_)
      exact fun exp hexp ix r hr =>
        hpays exp (List.mem_cons_of_mem _ hexp) ix r (List.mem_cons_of_mem _ hr)

/-- **A classification that compares without mismatches is exactly the flows expected**: of
the calls the message stands for, none is left out. What a payment is depends on what else
was checked of the recipients (`hpays`). -/
theorem exactFlows_of_flowsMatch {message : TransactionMessage} {vaultIndex : UInt8}
    {feePayer : Option String} {allowMemo : Bool} {c : InnerClassification} {vault : Pubkey}
    {view : FundFlowView} {expected : FundFlowExpectation} {claimed : Option (String × String)}
    {pays : ExpectedRecipient → Instruction → Prop} (hvault : message.accountKeys[0]? = some vault)
    (hclassify : classifyInnerMessage (.of vaultIndex message) feePayer allowMemo = .ok c)
    (hunknown : view.unknownInnerInstructionCount = c.unknownInnerInstructionCount)
    (hfee : view.feeLamports = toString c.feeLamports)
    (hresolve : ∀ payments, List.Forall₂ (Shows env vault none) payments c.recipients →
      List.Forall₂ (Shows env vault claimed) payments view.recipients)
    (hpays : ∀ exp ∈ expected.recipients, ∀ ix, ∀ r ∈ view.recipients,
      Shows env vault claimed ix r → recipientFits env exp r = true → pays exp ix)
    (hmatch : FlowsMatch env view expected) :
    ∃ maxFee, expected.maxFee = some maxFee ∧
      ExactFlows pays expected.recipients vault feePayer maxFee allowMemo message.calls := by
  obtain ⟨maxFee, hmax, hle⟩ := hmatch.fee_le
  have hknown : c.unknownInnerInstructionCount = 0 := hunknown ▸ hmatch.known
  obtain ⟨payments, refunds, memos, amounts, hperm, hshows, hsum, hrefunds, hmemos⟩ :=
    classifyInnerMessage_explains env hvault hclassify hknown
  obtain ⟨rs, hrs, hfits⟩ := hmatch.paired
  -- in the order in which the payees were found
  obtain ⟨payments', hpayments, hshows'⟩ :=
    exists_perm_of_forall₂ (hresolve payments hshows) hrs
  have hpaid : List.Forall₂ pays expected.recipients payments' :=
    forall₂_pays hshows' (fun exp hexp ix r hr => hpays exp hexp ix r (hrs.mem_iff.mp hr)) hfits
  refine ⟨maxFee, hmax, ⟨payments', refunds, memos, ?_, hpaid, ⟨amounts, ?_, hrefunds⟩, hmemos⟩⟩
  · exact hperm.trans (hpayments.symm.append_right _)
  · rw [hsum]
    rw [hfee, toBigIntOrNull, decimal_toString] at hle
    exact hle

end SolanaMultisig.Sdk
