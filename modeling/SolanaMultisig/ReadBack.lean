import SolanaMultisig.CreatePath
import SolanaMultisig.Sdk.Proposal

/-!
# What was displayed is what is read back

The message of a proposal is decoded twice: out of the bundle that creates it, and
out of the account it is stored in. Whatever happened to the proposal in between,
both decoders report the same (`stored_reads_back`).
-/

namespace SolanaMultisig

open Wire Guard Sdk

variable {env : Env} {web3 : Web3}

/-- The options for the account that correspond to those for the bundle, with its
fee payer. -/
def Sdk.DecodeVaultSolanaOptions.stored (opts : DecodeVaultSolanaOptions) (feePayer : String) :
    DecodeProposalOptions where
  feePayer := some (some feePayer)
  allowMemo := opts.allowMemo
  expectedRecipientOwner := opts.expectedRecipientOwner
  expectedMint := opts.expectedMint
  commitment := none

/-- What was reported on the bundle, for the proposal now stored at `address`: sender,
recipients, fee, memos and the number of unknown instructions are those of the message, the
rest is the state of the proposal. -/
def Sdk.DecodedCreate.stored (d : DecodedCreate) (feePayer : String) (address : Pubkey)
    (t : VaultTransaction) : DecodedProposal where
  transactionPda := toBase58 address
  multisigPda := toBase58 t.multisig
  transactionIndex := toString t.transactionIndex.toNat
  creator := toBase58 t.creator
  payer := toBase58 t.payer
  vaultIndex := d.vaultIndex
  vaultPda := d.sender
  executed := t.executed
  approvals := t.approvals.map toBase58
  sender := d.sender
  recipients := d.recipients
  feeLamports := d.feeLamports
  feePayer := feePayer
  unknownInnerInstructionCount := d.unknownInnerInstructionCount
  memos := d.memos

/-- A proposal with the message of the bundle, at its own address, is reported on as the
bundle was: both decoders classify the same message with the same options. -/
theorem reportProposal_stored {b : ParsedBundle} {c : ParsedCreate} {unknown : List String}
    {approves : List (Pubkey × Pubkey × Pubkey)} {opts : DecodeVaultSolanaOptions}
    {d : DecodedCreate} {feePayer : String} {t : VaultTransaction} {address vault : Pubkey}
    (hd : decodeCreate env b opts unknown approves c = .ok d) (hpayer : b.feePayer = some feePayer)
    (hinner : c.inner = .of t.vaultIndex t.message) (haddress : t.AddressOf env address)
    (hvault : t.ValidFor env vault) :
    reportProposal env (.of t) address env.programId (opts.stored feePayer) =
      .ok (d.stored feePayer address t) := by
  simp only [decodeCreate, bind_eq_ok, pure_eq_ok, orElse_eq_ok] at hd
  obtain ⟨keys, -, sender, hsender, classified, hclassified, recipients, hrecipients, rfl⟩ := hd
  obtain ⟨hderive, hvalid⟩ := hvault
  have hsender' : t.message.accountKeys.head? = some sender := by rw [← hsender, hinner]; rfl
  have hfirst := hvalid.vault_first
  obtain rfl : sender = vault := by
    rw [← List.head?_eq_getElem?, hsender'] at hfirst
    exact Option.some.inj hfirst
  have hcanonical : Sdk.deriveTransactionPda env t.multisig t.transactionIndex.toNat env.programId =
      .ok address := deriveTransactionPda_eq_ok.mpr ⟨_, haddress⟩
  have hvaultPda : Sdk.deriveVaultPda env t.multisig (.ofNat t.vaultIndex.toNat) env.programId =
      .ok sender := (deriveVaultPda_eq_ok ⟨rfl, rfl⟩).mpr ⟨_, hderive⟩
  rw [hinner, hpayer] at hclassified
  simp only [reportProposal, bind_eq_ok, require_eq_ok, orElse_eq_ok, pure_eq_ok]
  refine ⟨address, hcanonical, (), rfl, classified, hclassified, recipients, hrecipients, sender,
    hvaultPda, sender, hsender', ?_⟩
  rw [hinner]
  rfl

/-- What the device was shown is in the account: decoding it, with anything behind
the stored value, reports the bundle's message and the state of the proposal. -/
structure ReadsBack (env : Env) (opts : DecodeVaultSolanaOptions) (d : DecodedCreate)
    (feePayer : String) (ledger : Ledger) (address : Pubkey) (t : VaultTransaction) : Prop where
  /-- the account as it is -/
  account : decodeVaultTransactionAccount env (ledger address).data address env.programId
    (opts.stored feePayer) = .proposal (d.stored feePayer address t)
  /-- and with any other bytes behind the value -/
  spare : ∀ spare, decodeVaultTransactionAccount env (transactionAccount.bytes t ++ spare) address
    env.programId (opts.stored feePayer) = .proposal (d.stored feePayer address t)

/-- **What was displayed is what is read back.** A bundle decodes to kind create with
a fee payer, and its `create_transaction` succeeds in a reachable state. Whenever the
proposal is live from there on, its account decodes to what was reported on the
bundle, with the fields, the executed flag and the approvals that are stored. -/
theorem stored_reads_back {serializedTxBase64 feePayer : String} {opts : DecodeVaultSolanaOptions}
    {d : DecodedCreate} {tx : Transaction} {ix : Instruction} {o : OuterInstruction} {s : State}
    {bank : Bank} {out : Outcome}
    (hdecode : decodeVaultSolanaTransaction env web3 serializedTxBase64 env.programId opts =
      .create d) (hpayer : d.feePayer = some feePayer)
    (htx : web3.transactionFrom (web3.base64 serializedTxBase64) = .ok tx)
    (hix : ix ∈ tx.instructions) (hprogram : ix.programId = env.programId)
    (htag : ix.data.take 8 = createTransactionTag) (ho : ix.SubmittedAs o)
    (hs : Reachable env s) (hempty : s.frames = []) (hkeys : KeysOnly env o.infos)
    (hprocess : processInstruction env bank s.ledger o.infos o.data = .ok out) :
    ∃ address t, out.event = some (.created address t) ∧
      ∀ s' t', Reaches env (s.apply out) s' → DistinctAddresses env s'.history →
        transactionAccount.Holds env s'.ledger address t' →
          t'.SameProposal t ∧ ReadsBack env opts d feePayer s'.ledger address t' := by
  obtain ⟨b, c, unknown, approves, hparse, hunknown, hone, -, hd⟩ := decode_create hdecode
  obtain ⟨hinner, -⟩ := mem_creates_of_parseBundle hparse htx hone hix hprogram htag
  have hfee : b.feePayer = some feePayer :=
    (decodeCreate_eq_ok hone hunknown hd).feePayer_eq.symm.trans hpayer
  obtain ⟨ledger', address, m, t, rfl, hcreates, -, hread⟩ :=
    created_of_process (ho.data_eq ▸ htag) hprocess
  rw [ho.data_eq] at hread
  refine ⟨address, t, rfl, fun s' t' hrun hcf ht' => ?_⟩
  -- approvals and the executed flag are all that has changed
  obtain ⟨href, hrecord⟩ := recordAt_of_process hs hempty hkeys hprocess hrun hcf
  obtain ⟨r, hr, hsame⟩ := recordAt_of_proposalAt ((href.accounts.proposals _ _).mp ht')
  obtain rfl := Option.some.inj (hrecord.symm.trans hr)
  have hinner' : c.inner = .of t'.vaultIndex t'.message := by
    rw [hsame.stored_eq.1, hsame.stored_eq.2]
    exact inner_of_create hinner htag hread
  obtain ⟨vault, hvault⟩ := hcreates.valid
  have hreport := reportProposal_stored hd hfee hinner' (hsame.addressOf hcreates.address_eq)
    (hsame.validFor hvault)
  obtain ⟨-, hfits, rest, hdata⟩ := ht'
  exact ⟨hsame,
    { account := decodeVaultTransactionAccount_eq_proposal.mpr ⟨t', rest, hfits, hdata, hreport⟩
      spare := fun spare =>
        decodeVaultTransactionAccount_eq_proposal.mpr ⟨t', spare, hfits, rfl, hreport⟩ }⟩

/-- The bundle of the example, read back after the first approval. -/
theorem stored_reads_back_example :
    ∃ s' d, Reachable Example.cluster s' ∧ s'.history = Example.history.drop 5 ∧
      decodeVaultSolanaTransaction Example.cluster Example.bundle.web3 Example.bundle.base64
        Example.programId Example.options = .create d ∧
      ReadsBack Example.cluster Example.options d (toBase58 Example.paymaster) s'.ledger
        Example.transaction { Example.record with approvals := [Example.alice] } := by
  obtain ⟨d, hdecode, -⟩ := Example.exists_decoded
  have hpayer : d.feePayer = some (toBase58 Example.paymaster) := by
    obtain ⟨tx, outer, b, c, htx, hparses, hc⟩ := decode_eq_create hdecode
    obtain rfl := Except.ok.inj (Example.bundle.transactionFrom_base64.symm.trans htx)
    rw [hc.feePayer_eq, hparses.feePayer_eq]
    rfl
  obtain ⟨s', hs', -, hhistory⟩ := Example.exists_drive_pending
  obtain ⟨s, ix, o, out, hs, hempty, hix, hprogram, htag, ho, hkeys, hprocess, hrest⟩ :=
    Example.exists_creation hs'
  have hrun : Reaches Example.cluster (s.apply out) s' := drive_reaches
    (fun c hc => Example.commands_keysOnly c (List.mem_of_mem_drop (i := 2)
      (List.mem_of_mem_take (i := 1) hc))) hrest
  have hs'' : Reachable Example.cluster s' :=
    hs.trans (.head (.submit hempty hkeys (.process rfl hprocess)) hrun)
  have hcf : DistinctAddresses Example.cluster s'.history :=
    hhistory ▸ Example.distinctAddresses_pending
  obtain ⟨address, t, hevent, hreads⟩ := stored_reads_back hdecode hpayer
    Example.bundle.transactionFrom_base64 hix hprogram htag ho hs hempty hkeys hprocess
  have hmem : Event.created address t ∈ Example.history.drop 5 :=
    hhistory ▸ hrun.history_suffix.subset (by simp [State.apply, hevent])
  obtain ⟨rfl, rfl⟩ : address = Example.transaction ∧ t = Example.record := by
    simpa [Example.history] using hmem
  have hlive : transactionAccount.Holds Example.cluster s'.ledger Example.transaction
      { Example.record with approvals := [Example.alice] } :=
    ((refines_of_reachable hs'' hcf).accounts.proposals _ _).mpr (hhistory ▸ rfl)
  exact ⟨s', d, hs'', hhistory, hdecode, (hreads s' _ hrun hcf hlive).2⟩

end SolanaMultisig
