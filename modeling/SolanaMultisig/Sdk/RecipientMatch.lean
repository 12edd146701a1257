import SolanaMultisig.Interpreter
import SolanaMultisig.Sdk.FundFlows

/-!
# When recipients are matched

One payee can be named by its wallet, by its token account, or by the owner of this
account, so several decoded recipients may fit it. The comparison lets each payee
take the first that fits. This is a multiset match, independent of the order of both
lists, exactly when payees that fit a common recipient fit the same recipients
(`recipient_matching_iff`).
-/

namespace SolanaMultisig.Sdk

open Guard Report

variable {env : Env}

/-- The problem is about recipients: a payee was not found, or nobody announced a recipient.
The two are told by how their texts begin. -/
def IsRecipientMismatch (problem : String) : Prop :=
  "expected recipient ".toList <+: problem.toList ∨ "decoded recipient ".toList <+: problem.toList

/-- The comparison reports no recipient mismatch. It may report others, of which the
matching knows nothing. -/
def NoRecipientMismatch (env : Env) (view : FundFlowView) (expected : FundFlowExpectation) : Prop :=
  (compareFundFlows env view expected).Without IsRecipientMismatch

/-- The payee is named by the recipient, and the amounts are the same number. -/
def Names (env : Env) (exp : ExpectedRecipient) (r : DecodedSolanaVaultRecipient) : Prop :=
  recipientMatchesAddress env r exp.address = true ∧
    ∃ amount, toBigIntOrNull (some (.string exp.amount)) = some amount ∧
      toBigIntOrNull (some (.string r.amount)) = some amount

/-- A bijection of the payees with the recipients that name them: the multiset match that
the comment in the source speaks of. -/
def RecipientPairing (env : Env) (exps : List ExpectedRecipient)
    (rs : List DecodedSolanaVaultRecipient) : Prop :=
  ∃ rs', rs'.Perm rs ∧ List.Forall₂ (Names env) exps rs'

/-- Payees named by a common recipient are named by the same recipients. Then it does not
matter which one a payee takes. -/
def SameRecipients (env : Env) (exps : List ExpectedRecipient)
    (rs : List DecodedSolanaVaultRecipient) : Prop :=
  ∀ exp ∈ exps, ∀ exp' ∈ exps, ∀ r ∈ rs, ∀ r' ∈ rs,
    Names env exp r → Names env exp' r → Names env exp' r' → Names env exp r'

/-- The test of the comparison is this relation. -/
theorem recipientFits_iff {exp : ExpectedRecipient} {r : DecodedSolanaVaultRecipient} :
    recipientFits env exp r = true ↔ Names env exp r := by
  rw [recipientFits, Names, Bool.and_eq_true]
  refine and_congr_right fun _ => ?_
  split
  · rename_i a b ha hb
    rw [ha, hb, decide_eq_true_eq]
    constructor
    · rintro rfl
      exact ⟨b, rfl, rfl⟩
    · rintro ⟨n, hn, hn'⟩
      exact Option.some.inj (hn'.trans hn.symm)
  · rename_i hnone
    constructor
    · intro h
      cases h
    · rintro ⟨n, hn, hn'⟩
      exact absurd hn' (hnone n n hn)

theorem recipientPairing_iff {exps : List ExpectedRecipient}
    {rs : List DecodedSolanaVaultRecipient} :
    RecipientPairing env exps rs ↔ Matching.Paired (recipientFits env) exps rs := by
  simp only [RecipientPairing, Matching.Paired, recipientFits_iff]

theorem sameRecipients_iff {exps : List ExpectedRecipient}
    {rs : List DecodedSolanaVaultRecipient} :
    SameRecipients env exps rs ↔ Matching.Rectangular (recipientFits env) exps rs := by
  simp only [SameRecipients, Matching.Rectangular, recipientFits_iff]

/-! ## Which problems are about recipients -/

/-- A text that starts with a number is about something else. -/
theorem not_isRecipientMismatch_number (n : ℕ) (text : String) :
    ¬IsRecipientMismatch (toString n ++ text) := by
  obtain ⟨c, cs, hcs⟩ := List.exists_cons_of_ne_nil (Nat.toDigits_ne_nil (n := n) (b := 10))
  have hdigit : c.isDigit = true :=
    Nat.isDigit_of_mem_toDigits (by decide) (by decide) (hcs ▸ List.mem_cons_self)
  have hne : ∀ d : Char, d.isDigit = false → d ≠ c := by
    rintro d hd rfl
    rw [hd] at hdigit
    cases hdigit
  have he := hne 'e' (by decide)
  have hd := hne 'd' (by decide)
  simp [IsRecipientMismatch, hcs, he, hd]

theorem avoids_checkFee (expected : FundFlowExpectation) (fee : ℕ) :
    (checkFee expected fee).Avoids IsRecipientMismatch := by
  unfold checkFee
  split
  · exact avoids_note (by simp [IsRecipientMismatch])
  · exact avoids_check (by simp [IsRecipientMismatch])

theorem avoids_checkMint (expected : FundFlowExpectation) (mint : String) :
    (checkMint expected mint).Avoids IsRecipientMismatch := by
  unfold checkMint
  split
  · exact avoids_note (by simp [IsRecipientMismatch])
  · exact avoids_check (by simp [IsRecipientMismatch])

theorem avoids_checkAsset (expected : FundFlowExpectation) (r : DecodedSolanaVaultRecipient) :
    (checkAsset expected r).Avoids IsRecipientMismatch := by
  unfold checkAsset
  split
  · exact avoids_note (by simp [IsRecipientMismatch])
  · refine (avoids_checkMint expected _).bind (avoids_forSome fun n => ?_)
    exact avoids_check (by simp [IsRecipientMismatch])
  · exact avoids_forSome fun n => avoids_note (by simp [IsRecipientMismatch])

/-- The two kinds of problems the matching notes are both about recipients, whatever the
addresses and amounts are. -/
theorem isRecipientMismatch_notFound (exp : ExpectedRecipient) :
    IsRecipientMismatch ("expected recipient " ++ exp.address ++ " with amount " ++ exp.amount ++
      " not found in decoded transaction") := by
  simp [IsRecipientMismatch]

theorem isRecipientMismatch_notPresent (r : DecodedSolanaVaultRecipient) :
    IsRecipientMismatch ("decoded recipient " ++ r.address ++ " with amount " ++ r.amount ++
      " is not present in the expected payload") := by
  simp [IsRecipientMismatch]

/-- **No recipient mismatch means that first fit leaves nothing over.** -/
theorem noRecipientMismatch_iff {view : FundFlowView} {expected : FundFlowExpectation} :
    NoRecipientMismatch env view expected ↔
      Matching.Complete (recipientFits env) expected.recipients view.recipients := by
  have hassets : (each (checkAsset expected) view.recipients).Without IsRecipientMismatch :=
    (avoids_each fun r _ => avoids_checkAsset expected r).2
  rw [NoRecipientMismatch, compareFundFlows,
    (avoids_check (not_isRecipientMismatch_number _ _)).without_bind,
    (avoids_checkFee _ _).without_bind,
    (avoids_forSome fun payer => avoids_check (by simp [IsRecipientMismatch])).without_bind,
    without_bind ⟨⟨⟩, rfl⟩, without_bind ⟨⟨⟩, rfl⟩, without_note, without_note, List.forall_mem_map,
    List.forall_mem_map]
  constructor
  · rintro ⟨hfound, hpresent, -⟩
    refine ⟨List.eq_nil_iff_forall_not_mem.mpr fun exp hexp => ?_,
      List.eq_nil_iff_forall_not_mem.mpr fun r hr => ?_⟩
    · exact hfound exp hexp (isRecipientMismatch_notFound exp)
    · exact hpresent r hr (isRecipientMismatch_notPresent r)
  · rintro ⟨hfound, hpresent⟩
    refine ⟨?_, ?_, hassets⟩
    · rw [hfound]
      exact List.forall_mem_nil _
    · rw [hpresent]
      exact List.forall_mem_nil _

/-- **When the comparison is a multiset match.** For every list of decoded and every
list of expected recipients: in each order of the two lists the comparison reports no
recipient mismatch exactly when payees and recipients can be paired off, if and only
if they cannot, or payees named by a common recipient are named by the same
recipients. -/
theorem recipient_matching_iff (view : FundFlowView) (expected : FundFlowExpectation) :
    (∀ (view' : FundFlowView) (expected' : FundFlowExpectation),
      view'.recipients.Perm view.recipients → expected'.recipients.Perm expected.recipients →
        (NoRecipientMismatch env view' expected' ↔
          RecipientPairing env expected.recipients view.recipients)) ↔
      (RecipientPairing env expected.recipients view.recipients →
        SameRecipients env expected.recipients view.recipients) := by
  simp only [noRecipientMismatch_iff, recipientPairing_iff, sameRecipients_iff]
  rw [← Matching.firstFit_complete_iff]
  constructor
  · intro h exps rs hexps hrs
    exact h { view with recipients := rs } { expected with recipients := exps } hrs hexps
  · intro h view' expected' hrs hexps
    exact h _ _ hexps hrs

end SolanaMultisig.Sdk

namespace SolanaMultisig

open Wire Sdk

/-! ## Two payees, one of them an account of the other -/

namespace Example

/-- Five base units into the token account `ata`, shown as `address`. -/
def tokenTransfer (address ata : Pubkey) (verified : Option Bool) : DecodedSolanaVaultRecipient :=
  ⟨toBase58 address, some (toBase58 ata), verified, "5", .spl, some (toBase58 bob), some 0,
    some (toBase58 tokenProgramId)⟩

/-- Decoded are a transfer into an account of `carol` and one into the account whose address
is `carol`'s. -/
def overlappingView : FundFlowView :=
  ⟨[tokenTransfer carol joint (some true), tokenTransfer carol carol none], "0", none, 0⟩

/-- Expected are five units for `carol` and five for her account, in this order or the
other. -/
def overlappingExpectation (order : List ExpectedRecipient → List ExpectedRecipient) :
    FundFlowExpectation :=
  ⟨order [⟨toBase58 carol, "5"⟩, ⟨toBase58 joint, "5"⟩], some (toBase58 bob), none, none, none⟩

end Example

/-- The payees can be paired off with the recipients, and the comparison finds this
in one order of the payees and not in the other. -/
theorem recipient_matching_misses :
    RecipientPairing Example.cluster (Example.overlappingExpectation id).recipients
        Example.overlappingView.recipients ∧
      ¬NoRecipientMismatch Example.cluster Example.overlappingView
        (Example.overlappingExpectation id) ∧
      NoRecipientMismatch Example.cluster Example.overlappingView
        (Example.overlappingExpectation List.reverse) := by
  refine ⟨⟨Example.overlappingView.recipients.reverse, List.reverse_perm _, ?_⟩, ?_, ?_⟩
  · refine .cons (recipientFits_iff.mp ?_) (.cons (recipientFits_iff.mp ?_) .nil)
    · decide +kernel
    · decide +kernel
  · rw [noRecipientMismatch_iff]
    decide +kernel
  · rw [noRecipientMismatch_iff]
    decide +kernel

end SolanaMultisig
