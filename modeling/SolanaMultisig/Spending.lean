import SolanaMultisig.Devices
import SolanaMultisig.Lib.Signing
import SolanaMultisig.Provenance

/-!
# What a vault spends

A call that is signed for a vault moves lamports or tokens out of it
(`Instruction.moves`); what the calls in a log moved is what the vault spent (`spent`).
A proposal that a request shows spends at most what the request allows, however far its
execution got (`Sdk.DeviceRequest.Shows.moved_le`).
-/

namespace SolanaMultisig

open Wire Guard Sdk

variable {env : Env} {web3 : Web3} {vault : Pubkey}

/-! ## Amounts -/

/-- What a call moves on behalf of `src`: its lamports (`none`), or the tokens of a mint it
is the authority of. The two kinds of instruction read here are the ones a device displays
as payments. -/
def Instruction.moves (ix : Instruction) (src : Pubkey) : Option Pubkey → ℕ
  | none =>
      if ix.programId = systemProgramId ∧ ix.data.take 4 = leBytes 4 2 ∧
          ix.keys[0]? = some src then
        leNat (ix.data.drop 4)
      else 0
  | some mint =>
      if ix.programId ∈ [tokenProgramId, token2022ProgramId] ∧ ix.data.head? = some 12 ∧
          ix.keys[1]? = some mint ∧ ix.keys[3]? = some src then
        leNat ((ix.data.drop 1).take 8)
      else 0

/-- What payees are paid of an asset: everything, if the request is in this asset, and
nothing otherwise. -/
def Sdk.FundFlowExpectation.pays (expected : FundFlowExpectation) (asset : Option Pubkey) : ℕ :=
  if given expected.tokenMint = asset.map toBase58 then
    (expected.recipients.map fun exp => (decimal exp.amount).getD 0).sum
  else 0

/-- What a refund may cost: lamports only, and at most the cap the request names. -/
def Sdk.FundFlowExpectation.refunds (expected : FundFlowExpectation) : Option Pubkey → ℕ
  | none => expected.maxFee.getD 0
  | some _ => 0

/-- What a request allows to be spent: the payments displayed and the largest refund. -/
def Sdk.DeviceRequest.allowance (r : DeviceRequest) (asset : Option Pubkey) : ℕ :=
  r.flows.pays asset + r.flows.refunds asset

section Moves

variable {ix : Instruction} {src dst mint : Pubkey} {amount : ℕ} {asset : Option Pubkey}

theorem IsSystemTransfer.moves_eq (h : IsSystemTransfer ix src dst amount) :
    ix.moves src asset = if asset = none then amount else 0 := by
  cases asset with
  | none =>
    have hkeys : ix.keys[0]? = some src := getElem?_of_isPrefix h.accounts rfl
    have hlen : (leBytes 4 2).length = 4 := length_leBytes 4 2
    have htag : ix.data.take 4 = leBytes 4 2 := by rw [h.data_eq, List.take_left' hlen]
    rw [Instruction.moves, if_pos ⟨h.program_eq, htag, hkeys⟩, if_pos rfl, h.data_eq,
      List.drop_left' hlen, leNat_leBytes h.lamports_lt]
  | some mint =>
    rw [Instruction.moves, if_neg, if_neg (by simp)]
    rintro ⟨hprogram, -⟩
    rw [h.program_eq] at hprogram
    exact absurd hprogram (by decide)

theorem IsTransferChecked.moves_eq (h : IsTransferChecked ix mint dst src amount) :
    ix.moves src asset = if asset = some mint then amount else 0 := by
  obtain ⟨source, haccounts⟩ := h.accounts
  obtain ⟨decimals, hdata⟩ := h.data_eq
  cases asset with
  | none =>
    rw [Instruction.moves, if_neg, if_neg (by simp)]
    rintro ⟨hprogram, -⟩
    rcases h.program_eq with htoken | htoken <;>
      exact absurd (htoken.symm.trans hprogram) (by decide)
  | some m =>
    have hmint : ix.keys[1]? = some mint := getElem?_of_isPrefix haccounts rfl
    have hsrc : ix.keys[3]? = some src := getElem?_of_isPrefix haccounts rfl
    have hprogram : ix.programId ∈ [tokenProgramId, token2022ProgramId] := by
      simpa using h.program_eq
    have htag : ix.data.head? = some 12 := by rw [hdata, List.head?_cons]
    by_cases hm : m = mint
    · subst hm
      rw [Instruction.moves, if_pos ⟨hprogram, htag, hmint, hsrc⟩, if_pos rfl, hdata,
        List.drop_one, List.tail_cons, List.take_left' (length_leBytes 8 amount),
        leNat_leBytes h.amount_lt]
    · rw [Instruction.moves, if_neg, if_neg (fun he => hm (Option.some.inj he))]
      rintro ⟨-, -, hkey, -⟩
      exact hm (Option.some.inj (hkey.symm.trans hmint))

theorem IsMemo.moves_eq (h : IsMemo ix) : ix.moves src asset = 0 := by
  have hkeys : ix.keys = [] := by rw [Instruction.keys, h.accounts_eq, List.map_nil]
  cases asset <;> simp [Instruction.moves, hkeys]

/-- A payment moves the amount displayed, of the asset displayed. -/
theorem PaysRecipient.moves_eq {tokenMint : Option String} {exp : ExpectedRecipient}
    (h : PaysRecipient env vault tokenMint exp ix) :
    ix.moves vault asset =
      if given tokenMint = asset.map toBase58 then (decimal exp.amount).getD 0 else 0 := by
  obtain ⟨amount, hamount, hpays⟩ := h
  rw [hamount, Option.getD_some]
  unfold PaysAddress at hpays
  cases hmint : given tokenMint with
  | none =>
    rw [hmint] at hpays
    obtain ⟨dst, -, htransfer⟩ := hpays
    rw [htransfer.moves_eq]
    cases asset <;> simp
  | some text =>
    rw [hmint] at hpays
    obtain ⟨mint, dst, rfl, htransfer, -⟩ := hpays
    rw [htransfer.moves_eq]
    cases asset with
    | none => simp
    | some m => simp [toBase58_injective.eq_iff, eq_comm]

/-- **Exact flows move what they pay, and refunds within the cap.** The calls are matched
with the payments one by one, so the sums can be compared. -/
theorem ExactFlows.moves_le {tokenMint feePayer : Option String}
    {recipients : List ExpectedRecipient} {maxFee : ℕ} {allowMemo : Bool}
    {calls : List Instruction}
    (h : ExactFlows (PaysRecipient env vault tokenMint) recipients vault feePayer maxFee allowMemo
      calls) :
    (calls.map fun ix => ix.moves vault asset).sum ≤
      (if given tokenMint = asset.map toBase58 then
        (recipients.map fun exp => (decimal exp.amount).getD 0).sum else 0) +
      if asset = none then maxFee else 0 := by
  obtain ⟨payments, refunds, memos, hperm, hpayments, ⟨amounts, hamounts, hrefunds⟩, hmemos⟩ :=
    h.split
  have hpaid : (payments.map fun ix => ix.moves vault asset).sum =
      if given tokenMint = asset.map toBase58 then
        (recipients.map fun exp => (decimal exp.amount).getD 0).sum else 0 := by
    clear hperm h
    induction hpayments with
    | nil => simp
    | cons hpays _ ih =>
      rw [List.map_cons, List.sum_cons, ih, PaysRecipient.moves_eq hpays]
      split <;> simp
  have hrefunded : (refunds.map fun ix => ix.moves vault asset).sum =
      if asset = none then amounts.sum else 0 := by
    clear hperm hamounts h
    induction hrefunds with
    | nil => simp
    | cons hrefund _ ih =>
      obtain ⟨dst, -, htransfer⟩ := hrefund
      rw [List.map_cons, List.sum_cons, ih, htransfer.moves_eq]
      split <;> simp
  have hmemo : (memos.map fun ix => ix.moves vault asset).sum = 0 := by
    refine List.sum_eq_zero fun n hn => ?_
    obtain ⟨ix, hix, rfl⟩ := List.mem_map.mp hn
    exact (hmemos ix hix).2.moves_eq
  rw [(hperm.map _).sum_eq, List.map_append, List.map_append, List.sum_append, List.sum_append,
    hpaid, hrefunded, hmemo, Nat.add_zero]
  refine Nat.add_le_add_left ?_ _
  split
  · exact hamounts
  · exact le_rfl

end Moves

/-! ## Spending -/

/-- A call that is signed for `k`, with its proposal. Whether a call concerns a vault is
decided by its seeds, as the runtime does. -/
def Event.callFor? (env : Env) (k : Pubkey) : Event → Option (Pubkey × Cpi)
  | .invoked address cpi =>
      if createProgramAddress env cpi.signerSeeds env.programId = some k then some (address, cpi)
      else none
  | _ => none

/-- What the calls signed for a vault moved, summed over the log. A call that failed is not
in the log, since its transaction was rolled back. -/
def spent (env : Env) (vault : Pubkey) (asset : Option Pubkey) (h : List Event) : ℕ :=
  ((h.filterMap (Event.callFor? env vault)).map fun c => c.2.instruction.moves vault asset).sum

theorem mem_callsFor {k address : Pubkey} {cpi : Cpi} {h : List Event} :
    (address, cpi) ∈ h.filterMap (Event.callFor? env k) ↔ .invoked address cpi ∈ h ∧
      createProgramAddress env cpi.signerSeeds env.programId = some k := by
  rw [List.mem_filterMap]
  constructor
  · rintro ⟨e, he, hcall⟩
    cases e with
    | invoked address' cpi' =>
      rw [Event.callFor?] at hcall
      split at hcall
      · rename_i hsigns
        cases hcall
        exact ⟨he, hsigns⟩
      · cases hcall
    | initialized | created | approved | entered | finished | closed | provisioned => cases hcall
  · rintro ⟨he, hsigns⟩
    exact ⟨_, he, by rw [Event.callFor?, if_pos hsigns]⟩

theorem mem_issued {address : Pubkey} {cpi : Cpi} {h : List Event}
    (hinvoked : .invoked address cpi ∈ h) : cpi ∈ issued h address := by
  induction h with
  | nil => cases hinvoked
  | cons e h ih =>
    cases e with
    | invoked address' cpi' =>
      rw [issued]
      rcases List.mem_cons.mp hinvoked with he | hinvoked
      · cases he
        simp
      · split
        · exact List.mem_append_left _ (ih hinvoked)
        · exact ih hinvoked
    | initialized | created | approved | entered | finished | closed | provisioned =>
      exact ih ((List.mem_cons.mp hinvoked).resolve_left (by simp))

/-- The proposals with calls signed for the vault: the index set of the sum below. -/
def spenders (env : Env) (vault : Pubkey) (h : List Event) : Finset Pubkey :=
  ((h.filterMap (Event.callFor? env vault)).map Prod.fst).toFinset

theorem mem_spenders {address : Pubkey} {h : List Event} : address ∈ spenders env vault h ↔
    ∃ cpi, .invoked address cpi ∈ h ∧
      createProgramAddress env cpi.signerSeeds env.programId = some vault := by
  rw [spenders, List.mem_toFinset, List.mem_map]
  constructor
  · rintro ⟨⟨_, cpi⟩, hc, rfl⟩
    exact ⟨cpi, mem_callsFor.mp hc⟩
  · rintro ⟨cpi, hcpi⟩
    exact ⟨(address, cpi), mem_callsFor.mpr hcpi, rfl⟩

/-- What the calls of one proposal moved so far. -/
def moved (vault : Pubkey) (asset : Option Pubkey) (h : List Event) (address : Pubkey) : ℕ :=
  ((issued h address).map fun cpi => cpi.instruction.moves vault asset).sum

/-- Of the calls of one proposal those that are signed for the vault move no more than all
of them. -/
theorem callsFor_le_moved (asset : Option Pubkey) (h : List Event) (address : Pubkey) :
    (((h.filterMap (Event.callFor? env vault)).filter fun c => c.1 = address).map
      fun c => c.2.instruction.moves vault asset).sum ≤ moved vault asset h address := by
  unfold moved
  induction h with
  | nil => simp [issued]
  | cons e h ih =>
    cases e with
    | invoked address' cpi =>
      rw [List.filterMap_cons, issued, Event.callFor?]
      by_cases hsigns : createProgramAddress env cpi.signerSeeds env.programId = some vault <;>
        by_cases haddress : address' = address <;>
          simp [hsigns, haddress] <;> omega
    | initialized | created | approved | entered | finished | closed | provisioned => exact ih

/-- A vault spends through its proposals: the sum over calls, sorted by proposal. -/
theorem spent_le_moved (asset : Option Pubkey) (h : List Event) :
    spent env vault asset h ≤ ∑ address ∈ spenders env vault h, moved vault asset h address := by
  rw [spent, Signing.sum_eq_sum_fibers Prod.fst _ (spenders env vault h) fun c hc =>
    List.mem_toFinset.mpr (List.mem_map_of_mem hc)]
  exact Finset.sum_le_sum fun address _ => callsFor_le_moved asset h address

/-- **A proposal spends no more than is shown**, however far its execution got: what was
issued is a part of the message, and the message pays what was shown. -/
theorem Sdk.DeviceRequest.Shows.moved_le {r : DeviceRequest} {address : Pubkey}
    {t : VaultTransaction} {h : List Event} {bump : UInt8} (hshows : r.Shows env web3 address t)
    (hl : LegalLog env h) (hr : recordAt h address = some t)
    (hvault : SolanaMultisig.deriveVaultPda env t.multisig t.vaultIndex = some (vault, bump))
    (asset : Option Pubkey) : moved vault asset h address ≤ r.allowance asset := by
  obtain ⟨vault', maxFee, hvault', -, hmax, hflows⟩ := hshows.flows
  obtain rfl : vault' = vault := congrArg Prod.fst (Option.some.inj (hvault'.symm.trans hvault))
  obtain ⟨rest, hrest⟩ := (hl.runs hr).issued_isPrefix
  calc moved vault' asset h address
      ≤ (t.message.calls.map fun ix => ix.moves vault' asset).sum := by
        rw [moved, ← hrest, List.map_append, List.sum_append, List.map_map]
        exact Nat.le_add_right _ _
    _ ≤ r.allowance asset := by
        refine hflows.moves_le.trans (Nat.add_le_add_left ?_ _)
        cases asset with
        | none => simp [FundFlowExpectation.refunds, hmax]
        | some mint => simp

end SolanaMultisig
