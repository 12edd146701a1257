import SolanaMultisig.Custody
import SolanaMultisig.Interleaving
import SolanaMultisig.Lib.Signing
import SolanaMultisig.Spending

/-!
# Vaults guarded by devices

Some keys are on devices that sign what their gates accept and nothing else. A signed
transaction can be submitted by anybody, at any time, more than once or never, and other
keys, other programs and other multisigs do whatever they can. If the members without
such a device are no quorum, a vault pays what a device of a member displayed
(`vault_pays_as_displayed`), and in all it spends no more than the devices displayed
(`vault_spending_bounded`).
-/

namespace SolanaMultisig

open Wire EventLog Sdk Signing

variable {env : Env} {web3 : Web3} {keys : Finset Pubkey}

/-! ## The network -/

/-- What a device signed, and with which key. It may be submitted any number of times. -/
structure Sdk.Signature where
  signer : Pubkey
  request : DeviceRequest

/-- What happens between transactions and when one lands, if the keys signed nothing
but `signed`. -/
inductive Delivers (env : Env) (web3 : Web3) (keys : Finset Pubkey) (signed : List Signature) :
    State → State → Prop
  /-- fees, rent and rewards -/
  | settle {s : State} {ledger : Ledger} : s.frames = [] → ForeignStep env [] s.ledger ledger →
      Delivers env web3 keys signed s { s with ledger := ledger }
  /-- a signature is for a whole transaction: where a key approves something, it has
  signed the transaction -/
  | lands {s s' : State} {os : List OuterInstruction} : Lands env s os s' →
      (∀ k ∈ keys, ∀ address, .approved address k ∈ s'.history → .approved address k ∉ s.history →
        ∃ sig ∈ signed, sig.signer = k ∧ sig.request.SubmittedAs web3 os) →
        Delivers env web3 keys signed s s'

/-- Devices sign what they accept, and transactions land: the instance of the general system
in which signatures are collected and used later. -/
abbrev Network (env : Env) (web3 : Web3) (keys : Finset Pubkey) :
    Config State Signature → Config State Signature → Prop :=
  Signing.Step (fun s sig => sig.request.Accepted env web3 s) (Delivers env web3 keys)

/-- The keys were made for the devices: they have not been used. They are private keys, so
that none of them is an address of the program, and nobody but its device signs with one. -/
structure NewKeys (env : Env) (keys : Finset Pubkey) (c : Config State Signature) : Prop where
  reachable : Reachable env c.system
  idle : c.system.frames = []
  signed_eq : c.signed = []
  /-- nothing was approved with them -/
  unused : ∀ k ∈ keys, ∀ address, .approved address k ∉ c.system.history
  /-- and as they have private keys, none is an address the program derives -/
  private_key : ∀ k ∈ keys, ¬IsProgramAddress env k

theorem Delivers.reaches {signed : List Signature} {s s' : State}
    (h : Delivers env web3 keys signed s s') : Reaches env s s' := by
  cases h with
  | settle hidle hforeign => exact .single (.settle hidle hforeign)
  | lands hland _ => exact hland.reaches

theorem Delivers.idle {signed : List Signature} {s s' : State}
    (h : Delivers env web3 keys signed s s') : s'.frames = [] := by
  cases h with
  | settle hidle _ => exact hidle
  | lands hland _ => exact hland.idle

/-! ## Approvals are displayed -/

/-- A reachable state between transactions: where devices read the chain. -/
def AtRest (env : Env) (s : State) : Prop := Reachable env s ∧ s.frames = []

/-- The device accepted the request some time ago, in an earlier state of the same run. -/
def Sdk.Signature.Stands (env : Env) (web3 : Web3) (sig : Signature) (s : State) : Prop :=
  ∃ s₀, Reachable env s₀ ∧ Reaches env s₀ s ∧ sig.request.Accepted env web3 s₀

/-- One of the keys approved the proposal, whether it is still there or not. -/
def ApprovedIn (keys : Finset Pubkey) (s : State) (p : Pubkey × Pubkey) : Prop :=
  p.2 ∈ keys ∧ .approved p.1 p.2 ∈ s.history

/-- The signature is with the key, for the proposal: the request shows what the proposal, as
it was created, will pay. -/
def Sdk.Signature.Covers (env : Env) (web3 : Web3) (sig : Signature) (s : State)
    (p : Pubkey × Pubkey) : Prop :=
  sig.signer = p.2 ∧ ∃ t, recordAt s.history p.1 = some t ∧ sig.request.Shows env web3 p.1 t

/-- **What a device approves, it has displayed.** When a transaction lands with an approval
by such a key, the device accepted this transaction at some earlier state; what the gate
checked then is still true of the proposal. -/
theorem covering (hrules : RuntimeRules env) (hkeys : ∀ k ∈ keys, ¬IsProgramAddress env k) :
    Covering (fun s (sig : Signature) => sig.request.Accepted env web3 s)
      (Delivers env web3 keys) (AtRest env) (fun s => DistinctAddresses env s.history)
      (Signature.Stands env web3) (ApprovedIn keys) (Signature.Covers env web3) where
  holds_of_accepts := fun s _ hrest haccepts => ⟨s, hrest.1, .refl, haccepts⟩
  inv_step := fun _ _ _ hdelivers hrest =>
    ⟨hrest.1.trans hdelivers.reaches, hdelivers.idle⟩
  good_of_step := fun _ _ _ hdelivers hcf => hcf.of_suffix hdelivers.reaches.history_suffix
  holds_step := fun _ _ _ _ hdelivers ⟨s₀, hs₀, hrun, haccepts⟩ =>
    ⟨s₀, hs₀, hrun.trans hdelivers.reaches, haccepts⟩
  covers_step := by
    rintro signed s s' sig p hdelivers hrest hcf ⟨hsigner, t, hr, hshows⟩
    have hl' := (refines_of_reachable (hrest.1.trans hdelivers.reaches) hcf).legal
    exact ⟨hsigner, t, hl'.recordAt_of_suffix hdelivers.reaches.history_suffix hr, hshows⟩
  found_step := by
    rintro signed s s' ⟨address, k⟩ hdelivers hrest hcf hstands ⟨hk, happroved⟩
    by_cases hnew : .approved address k ∈ s.history
    · exact .inl ⟨hk, hnew⟩
    right
    cases hdelivers with
    | settle => exact absurd happroved hnew
    | lands hland hsigned =>
      obtain ⟨sig, hsig, hsigner, hos⟩ := hsigned k hk address happroved hnew
      obtain ⟨s₀, hs₀, hrun, haccepts⟩ := hstands sig hsig
      have hcf₁ := hcf.of_suffix hland.reaches.history_suffix
      have hcf₀ := hcf₁.of_suffix hrun.history_suffix
      exact ⟨sig, hsig, hsigner, haccepts.shows (refines_of_reachable hs₀ hcf₀) hrun hos
        (refines_of_reachable hrest.1 hcf₁) hland hrules hcf (hkeys k hk) happroved hnew⟩

/-! ## Guarded vaults -/

/-- Of a quorum, all but the members without a device have one. With fewer of these than the
threshold, at least one approval is a device's. -/
theorem le_card_guarded {members signers : List Pubkey} {threshold : ℕ} (hnodup : signers.Nodup)
    (hsub : signers ⊆ members) (henough : threshold ≤ signers.length) :
    threshold - (members.filter (· ∉ keys)).length ≤ (signers.toFinset.filter (· ∈ keys)).card := by
  have hothers : (signers.filter (· ∉ keys)).length ≤ (members.filter (· ∉ keys)).length := by
    refine ((hnodup.filter _).subperm fun k hk => ?_).length_le
    obtain ⟨hmem, hkeys⟩ := List.mem_filter.mp hk
    exact List.mem_filter.mpr ⟨hsub hmem, hkeys⟩
  have hcard : (signers.filter (· ∈ keys)).length ≤ (signers.toFinset.filter (· ∈ keys)).card := by
    rw [← List.toFinset_card_of_nodup (hnodup.filter _), List.toFinset_filter]
    exact Finset.card_le_card fun k hk => by simpa using hk
  have hsplit := signers.length_eq_length_filter_add (fun k => decide (k ∈ keys))
  simp only [decide_not] at hothers ⊢
  omega

/-- The request may be about this vault of this multisig: it displays no other. Requests
that leave one open count for every vault they may be about. -/
def Sdk.DeviceRequest.MayConcern (env : Env) (r : DeviceRequest) (multisig vault : Pubkey) : Prop :=
  (∀ m ∈ r.multisigPda, m = toBase58 multisig) ∧ ∀ pda ∈ r.vaultPda env, pda = toBase58 vault

instance (r : DeviceRequest) (multisig vault : Pubkey) :
    Decidable (r.MayConcern env multisig vault) :=
  inferInstanceAs (Decidable ((∀ m ∈ r.multisigPda, m = toBase58 multisig) ∧
    ∀ pda ∈ r.vaultPda env, pda = toBase58 vault))

section Run

variable {start n : Config State Signature} {multisig vault address : Pubkey} {v bump : UInt8}
  {m : Multisig} {cpi : Cpi}

/-- In every run from new keys each of their approvals is covered by a signature. -/
theorem sound_of_run (hstart : NewKeys env keys start)
    (hrun : Relation.ReflTransGen (Network env web3 keys) start n) (hrules : RuntimeRules env)
    (hcf : DistinctAddresses env n.system.history) :
    Sound (AtRest env) (Signature.Stands env web3) (ApprovedIn keys) (Signature.Covers env web3)
      n := by
  refine (covering hrules hstart.private_key).run hrun hcf ⟨⟨hstart.reachable, hstart.idle⟩, ?_, ?_⟩
  · rw [hstart.signed_eq]
    exact fun _ hsig => absurd hsig List.not_mem_nil
  · rintro ⟨address, k⟩ ⟨hk, happroved⟩
    exact absurd happroved (hstart.unused k hk address)

/-- The call signed for the vault stems from a proposal that enough devices approved. -/
structure Guarded (env : Env) (keys : Finset Pubkey) (multisig : Pubkey) (v : UInt8) (m : Multisig)
    (h : List Event) (address : Pubkey) (t : VaultTransaction) : Prop where
  recorded : recordAt h address = some t
  multisig_eq : t.multisig = multisig
  vaultIndex_eq : t.vaultIndex = v
  /-- who approved it with a device -/
  le_card : m.threshold.toNat - (m.members.filter (· ∉ keys)).length ≤
    (m.members.toFinset.filter fun k => k ∈ keys ∧ .approved address k ∈ h).card

theorem Guarded.vault_eq {h : List Event} {t : VaultTransaction}
    (ht : Guarded env keys multisig v m h address t)
    (hvault : deriveVaultPda env multisig v = some (vault, bump)) :
    deriveVaultPda env t.multisig t.vaultIndex = some (vault, bump) := by
  rw [ht.multisig_eq, ht.vaultIndex_eq]
  exact hvault

/-- Behind a call signed for the vault is a proposal that a quorum approved, and of the
quorum those without a device are subtracted. -/
theorem guarded_of_signs (keys : Finset Pubkey) (hs : Refines env n.system)
    (hvault : deriveVaultPda env multisig v = some (vault, bump))
    (hcf : DistinctVault env multisig v bump n.system.history)
    (hm : multisigAccount.Holds env n.system.ledger multisig m)
    (hinvoked : .invoked address cpi ∈ n.system.history)
    (hsigns : createProgramAddress env cpi.signerSeeds env.programId = some vault) :
    ∃ t, Guarded env keys multisig v m n.system.history address t := by
  obtain ⟨later, earlier, hlog⟩ := List.append_of_mem hinvoked
  have hl := hs.legal
  have hm' := (hs.accounts.multisigs _ _).mp hm
  rw [hlog] at hl hcf hm'
  obtain ⟨t, m₁, signers, hr, hmultisig, hindex, hm₁, hnodup, henough, hsigners⟩ :=
    hl.quorum_of_signs hcf hvault hsigns
  obtain rfl : m₁ = m := Option.some.inj (hm₁.symm.trans hm')
  refine ⟨t, ?_, hmultisig, hindex, ?_⟩
  · rw [hlog]
    rw [List.append_cons] at hl ⊢
    exact hl.recordAt_append hr
  · refine (le_card_guarded hnodup (fun a ha => (hsigners a ha).1) henough).trans
      (Finset.card_le_card fun k hk => ?_)
    obtain ⟨hk, hkeys⟩ := Finset.mem_filter.mp hk
    obtain ⟨hmember, happroved⟩ := hsigners k (List.mem_toFinset.mp hk)
    refine Finset.mem_filter.mpr ⟨List.mem_toFinset.mpr hmember, hkeys, ?_⟩
    rw [hlog]
    exact List.mem_append_right _ (List.mem_cons_of_mem _ happroved)

/-- A request shows one proposal, so two approvals by one key need two signatures. -/
theorem Sdk.DeviceRequest.Shows.unique {r : DeviceRequest} {address' : Pubkey}
    {t t' : VaultTransaction} (h : r.Shows env web3 address t) (h' : r.Shows env web3 address' t') :
    address = address' := by
  obtain ⟨tx, htx, honly⟩ := h.approvesOnly
  obtain ⟨tx', htx', honly'⟩ := h'.approvesOnly
  obtain rfl := Except.ok.inj (htx.symm.trans htx')
  exact honly.unique honly'

/-- A request that shows a proposal of the vault may be about the vault: what it displays is
the proposal's own. -/
theorem Sdk.DeviceRequest.Shows.mayConcern {r : DeviceRequest} {t : VaultTransaction}
    (h : r.Shows env web3 address t)
    (hvault : SolanaMultisig.deriveVaultPda env t.multisig t.vaultIndex = some (vault, bump)) :
    r.MayConcern env t.multisig vault := by
  obtain ⟨vault', maxFee, hvault', hpda, -⟩ := h.flows
  obtain rfl : vault' = vault := congrArg Prod.fst (Option.some.inj (hvault'.symm.trans hvault))
  exact ⟨h.multisig_eq, hpda⟩

/-- What stands behind a call: the proposal `t`, and the signature `sig` of a member's
device that displayed its payments, and no multisig or vault but its own. -/
structure Displayed (env : Env) (web3 : Web3) (keys : Finset Pubkey) (m : Multisig)
    (n : Config State Signature) (address : Pubkey) (cpi : Cpi) (t : VaultTransaction)
    (sig : Signature) : Prop where
  recorded : recordAt n.system.history address = some t
  /-- it is one of the proposal's calls -/
  call_mem : cpi.instruction ∈ t.message.calls
  signed : sig ∈ n.signed
  guarded : sig.signer ∈ keys
  member : sig.signer ∈ m.members
  approved : .approved address sig.signer ∈ n.system.history
  shows : sig.request.Shows env web3 address t

/-- **A guarded vault pays what was displayed.** In every run in which keys made for devices
sign what the gates accept, and whatever else happens: if the members without a device are
no quorum, then every call signed for the vault is a call of a proposal that a member
approved on a device. The device had displayed exactly the payments of this proposal, and no
other multisig or vault than those of the proposal (a request for a creation or an approval
may leave them open, and then it displays neither); and the transaction it signed approves
nothing else. -/
theorem vault_pays_as_displayed (hstart : NewKeys env keys start)
    (hrun : Relation.ReflTransGen (Network env web3 keys) start n) (hrules : RuntimeRules env)
    (hvault : deriveVaultPda env multisig v = some (vault, bump))
    (hcf : DistinctVault env multisig v bump n.system.history)
    (hm : multisigAccount.Holds env n.system.ledger multisig m)
    (hfew : (m.members.filter (· ∉ keys)).length < m.threshold.toNat)
    (hinvoked : .invoked address cpi ∈ n.system.history)
    (hsigns : createProgramAddress env cpi.signerSeeds env.programId = some vault) :
    ∃ t sig, t.multisig = multisig ∧ t.vaultIndex = v ∧
      Displayed env web3 keys m n address cpi t sig := by
  have hsound := sound_of_run hstart hrun hrules hcf.distinctAddresses
  have hs := refines_of_reachable hsound.inv.1 hcf.distinctAddresses
  obtain ⟨t, hguarded⟩ := guarded_of_signs keys hs hvault hcf hm hinvoked hsigns
  -- some device approved it
  obtain ⟨k, hk⟩ := Finset.card_pos.mp ((Nat.sub_pos_of_lt hfew).trans_le hguarded.le_card)
  obtain ⟨hmember, hkeys, happroved⟩ := Finset.mem_filter.mp hk
  obtain ⟨sig, hsig, rfl, t', hr, hshows⟩ := hsound.covered (address, k) ⟨hkeys, happroved⟩
  obtain rfl : t' = t := Option.some.inj (hr.symm.trans hguarded.recorded)
  refine ⟨t', sig, hguarded.multisig_eq, hguarded.vaultIndex_eq, hr, ?_, hsig, hkeys,
    List.mem_toFinset.mp hmember, happroved, hshows⟩
  exact (hs.legal.runs hr).issued_isPrefix.subset (List.mem_map_of_mem (mem_issued hinvoked))

/-- **A guarded vault spends no more than was displayed.** In the same runs, take any
asset, SOL or the tokens of a mint. Each payment needs the signatures of as many devices
as a quorum lacks of other members; so often can all that the vault spent be found among
what the devices displayed for it, refunds included, each signature counted once, however
often its transaction was submitted. -/
theorem vault_spending_bounded (hstart : NewKeys env keys start)
    (hrun : Relation.ReflTransGen (Network env web3 keys) start n) (hrules : RuntimeRules env)
    (hvault : deriveVaultPda env multisig v = some (vault, bump))
    (hcf : DistinctVault env multisig v bump n.system.history)
    (hm : multisigAccount.Holds env n.system.ledger multisig m) (asset : Option Pubkey) :
    (m.threshold.toNat - (m.members.filter (· ∉ keys)).length) *
        spent env vault asset n.system.history ≤
      ((n.signed.filter fun sig => sig.request.MayConcern env multisig vault).map
        fun sig => sig.request.allowance asset).sum := by
  have hsound := sound_of_run hstart hrun hrules hcf.distinctAddresses
  have hs := refines_of_reachable hsound.inv.1 hcf.distinctAddresses
  have hguarded : ∀ address ∈ spenders env vault n.system.history,
      ∃ t, Guarded env keys multisig v m n.system.history address t := by
    intro address haddress
    obtain ⟨cpi, hinvoked, hsigns⟩ := mem_spenders.mp haddress
    exact guarded_of_signs keys hs hvault hcf hm hinvoked hsigns
  refine (Nat.mul_le_mul_left _ (spent_le_moved asset _)).trans (mul_sum_le_allowances
    (fun sig address k => sig.signer = k ∧ ∃ t, Guarded env keys multisig v m n.system.history
      address t ∧ sig.request.Shows env web3 address t) ?_ ?_
    (fun address => m.members.toFinset.filter fun k =>
      k ∈ keys ∧ .approved address k ∈ n.system.history) ?_ ?_)
  · -- a transaction approves one proposal
    rintro sig address address' k k' ⟨hk, t, -, hshows⟩ ⟨hk', t', -, hshows'⟩
    exact ⟨hshows.unique hshows', hk.symm.trans hk'⟩
  · rintro sig address k ⟨-, t, ht, hshows⟩
    exact hshows.moved_le hs.legal ht.recorded (ht.vault_eq hvault) asset
  · intro address haddress
    obtain ⟨t, ht⟩ := hguarded address haddress
    exact ht.le_card
  · intro address haddress k hk
    obtain ⟨t, ht⟩ := hguarded address haddress
    obtain ⟨-, hkeys, happroved⟩ := Finset.mem_filter.mp hk
    obtain ⟨sig, hsig, hsigner, t', hr, hshows⟩ := hsound.covered (address, k) ⟨hkeys, happroved⟩
    obtain rfl : t' = t := Option.some.inj (hr.symm.trans ht.recorded)
    have hconcern := hshows.mayConcern (ht.vault_eq hvault)
    rw [ht.multisig_eq] at hconcern
    exact ⟨sig, List.mem_filter.mpr ⟨hsig, decide_eq_true hconcern⟩, hsigner, t', ht, hshows⟩

end Run

/-! ## A guarded vault of the example

The key of `alice` is on a device; `bob` is no quorum. -/

namespace Example

/-- `alice` signs the bundle. -/
def signature : Signature := ⟨alice, .consumer bundle.base64 params⟩

/-- The multisig in the end. -/
def guardedMultisig : Multisig := ⟨[alice, bob], 2, 1, 255⟩

/-- The device accepts the bundle, and it lands: the whole life of the proposal, with
`alice` signing on a device and `bob` without one. -/
theorem exists_guarded : ∃ start n : Config State Signature, NewKeys cluster {alice} start ∧
    Relation.ReflTransGen (Network cluster bundle.web3 {alice}) start n ∧
    multisigAccount.Holds cluster n.system.ledger multisig guardedMultisig ∧
    n.signed = [signature] ∧ n.system.history = history := by
  obtain ⟨s', hs', hend, hhistory⟩ := exists_driven
  obtain ⟨s, hs, hidle, hlog⟩ : ∃ s, drive cluster bank genesis [register] = some s ∧
      s.frames = [] ∧ s.history = history.drop 7 := exists_drive (by decide +kernel)
  obtain ⟨s₁, hexec, hrest⟩ := Option.bind_eq_some_iff.mp hs'
  obtain ⟨s₂, hexec', hs₂⟩ := Option.bind_eq_some_iff.mp hs
  cases hs₂
  obtain rfl := Option.some.inj (hexec.symm.trans hexec')
  have hkeys := commands_keysOnly
  obtain ⟨s₂, hrun, -, hland⟩ :=
    lands_of_drive (fun c hc => hkeys c (List.mem_cons_of_mem _ hc)) hrest hend
  obtain rfl := eq_of_inner_run hidle hrun
  have hreach : Reachable cluster s₂ := reachable_of_reaches genesis_genesis
    (.single (exec_step (hkeys register List.mem_cons_self) hexec))
  have haccepted : signature.request.Accepted cluster bundle.web3 s₂ := ⟨bundle_accepted, rfl⟩
  have hs := refines_of_reachable (hreach.trans hland.reaches) (hhistory ▸ distinctAddresses)
  refine ⟨⟨s₂, []⟩, ⟨s', [signature]⟩, ⟨hreach, hidle, rfl, ?_, ?_⟩,
    .tail (.single (.sign haccepted)) (.deliver (.lands hland ?_)),
    (hs.accounts.multisigs _ _).mpr ?_, rfl, hhistory⟩
  · intro k _ address happroved
    rw [hlog] at happroved
    simp [history] at happroved
  · intro k hk
    rw [Finset.mem_singleton.mp hk]
    exact not_isProgramAddress (by decide)
  · intro k hk _ _ _
    exact ⟨signature, List.mem_cons_self, (Finset.mem_singleton.mp hk).symm, bundle.transaction,
      bundle.transactionFrom_base64, bundle_submittedAs⟩
  · rw [hhistory]
    decide +kernel

theorem distinctVault : DistinctVault cluster multisig 0 255 history := by
  decide +kernel

end Example

/-- The payment to `carol` was displayed to `alice`. -/
theorem vault_pays_as_displayed_example : ∃ (n : Config State Signature) (t : VaultTransaction)
    (sig : Signature), n.system.history = Example.history ∧ t.multisig = Example.multisig ∧
      Displayed Example.cluster Example.bundle.web3 {Example.alice} Example.guardedMultisig n
        Example.transaction Example.cpi t sig := by
  obtain ⟨start, n, hstart, hrun, hm, -, hhistory⟩ := Example.exists_guarded
  have hinvoked : .invoked Example.transaction Example.cpi ∈ n.system.history := by
    rw [hhistory]
    simp [Example.history]
  obtain ⟨t, sig, hmultisig, -, hdisplayed⟩ :=
    vault_pays_as_displayed hstart hrun Example.runtimeRules Example.deriveVaultPda_vault
      (hhistory ▸ Example.distinctVault) hm (by decide) hinvoked (by decide +kernel)
  exact ⟨n, t, sig, hhistory, hmultisig, hdisplayed⟩

/-- The device of `alice` displayed 700 lamports, and the vault spent 700. -/
theorem vault_spending_bounded_example : ∃ n : Config State Signature,
    n.signed = [Example.signature] ∧ Example.signature.request.allowance none = 700 ∧
    spent Example.cluster Example.vault none n.system.history = 700 ∧
    (2 - 1) * spent Example.cluster Example.vault none n.system.history ≤
      ((n.signed.filter fun sig => sig.request.MayConcern Example.cluster Example.multisig
        Example.vault).map fun sig => sig.request.allowance none).sum := by
  obtain ⟨start, n, hstart, hrun, hm, hsigned, hhistory⟩ := Example.exists_guarded
  refine ⟨n, hsigned, by decide +kernel, ?_, ?_⟩
  · rw [hhistory]
    decide +kernel
  · exact vault_spending_bounded hstart hrun Example.runtimeRules Example.deriveVaultPda_vault
      (hhistory ▸ Example.distinctVault) hm none

end SolanaMultisig
