import SolanaMultisig.Interpreter
import SolanaMultisig.Sdk.Decode
import SolanaMultisig.Sdk.Legacy

/-!
# What signing a creation lets happen

A bundle that decodes to kind create and compares without mismatches: if its
`create_transaction` succeeds, every execution of the proposal issues exactly the
calls the device displayed (`create_runs_exactly`).
-/

namespace SolanaMultisig

open Wire Sdk

variable {env : Env} {web3 : Web3}

/-- The gate and the program read the same message out of an instruction, though one reads
it with the SDK's reader and the other with Borsh. -/
theorem inner_of_create {data : List UInt8} {inner : InnerMessage} {vaultIndex : UInt8}
    {message : TransactionMessage} (hinner : parseCreateTransactionData data = .ok inner)
    (htag : data.take 8 = createTransactionTag)
    (hparse : parseInstruction data = .ok (.createTransaction vaultIndex message)) :
    inner = InnerMessage.of vaultIndex message := by
  obtain ⟨v, m, rest, -, hdec, rfl⟩ := parseCreateTransactionData_eq_ok.mp hinner
  rw [parseInstruction_create htag] at hparse
  obtain ⟨p, hp, hix⟩ := readArgs_eq_ok.mp hparse
  rw [hdec] at hp
  obtain rfl := Option.some.inj hp
  cases hix
  rfl

/-- A proposal that was created in a reachable state is on record from then on, so its
message can be looked up whenever it is executed. -/
theorem recordAt_of_process {o : OuterInstruction} {s s' : State} {bank : Bank} {ledger : Ledger}
    {address : Pubkey} {t : VaultTransaction} (hs : Reachable env s) (hempty : s.frames = [])
    (hkeys : KeysOnly env o.infos)
    (hprocess : processInstruction env bank s.ledger o.infos o.data =
      .ok ⟨ledger, some (.created address t), none⟩)
    (hrun : Reaches env (s.apply ⟨ledger, some (.created address t), none⟩) s')
    (hcf : DistinctAddresses env s'.history) :
    Refines env s' ∧ recordAt s'.history address = some t := by
  have hsubmit : Submit env s env.programId o.infos o.data
      (s.apply ⟨ledger, some (.created address t), none⟩) := .process rfl hprocess
  have href := refines_of_reachable (hs.trans (.head (.submit hempty hkeys hsubmit) hrun)) hcf
  exact ⟨href, href.legal.recordAt_of_suffix hrun.history_suffix (if_pos rfl)⟩

/-- **What is displayed is what runs.** A bundle decodes to kind create and
compares without mismatches. If its `create_transaction` succeeds in a reachable
state, then from there on the calls issued for the created proposal are those of
its message, in order, and these are exactly one transfer out of its vault for each
expected recipient, refunds to the bundle's fee payer within the cap, and memos if
they are allowed. -/
theorem create_runs_exactly {serializedTxBase64 : String} {opts : DecodeVaultSolanaOptions}
    {d : DecodedCreate} {expected : ExpectedSolanaVaultPayload} {tx : Transaction}
    {ix : Instruction} {o : OuterInstruction} {s : State} {bank : Bank} {out : Outcome}
    (hdecode : decodeVaultSolanaTransaction env web3 serializedTxBase64 env.programId opts =
      .create d)
    (hcompare : (compareDecodedToExpected env (.create d) expected).ok = true)
    (hmint : ∀ m, opts.expectedMint = some m → expected.tokenMint = some m)
    (htx : web3.transactionFrom (web3.base64 serializedTxBase64) = .ok tx)
    (hix : ix ∈ tx.instructions) (hprogram : ix.programId = env.programId)
    (htag : ix.data.take 8 = createTransactionTag) (ho : ix.SubmittedAs o)
    (hs : Reachable env s) (hempty : s.frames = []) (hkeys : KeysOnly env o.infos)
    (hprocess : processInstruction env bank s.ledger o.infos o.data = .ok out) :
    ∃ address t vault maxFee, out.event = some (.created address t) ∧
      deriveVaultPda env t.multisig t.vaultIndex = some (vault, t.vaultBump) ∧
      expected.maxFee = some maxFee ∧
      ExactFlows (PaysRecipient env vault expected.tokenMint) expected.recipients vault
        (tx.feePayer.map toBase58) maxFee (opts.allowMemo == some true) t.message.calls ∧
      ∀ s', Reaches env (s.apply out) s' → DistinctAddresses env s'.history →
        Runs s'.history address t.message.calls := by
  obtain ⟨tx', outer, b, c, htx', hparses, hc⟩ := decode_eq_create hdecode
  rw [htx] at htx'
  obtain rfl := Except.ok.inj htx'
  -- the gate and the program read the same message
  obtain ⟨hinner, -⟩ :=
    hparses.create_eq hc.creates_eq (hc.foreign_eq hcompare).1 hix hprogram htag
  obtain ⟨ledger', address, m, t, rfl, hcreates, -, hread⟩ :=
    created_of_process (ho.data_eq ▸ htag) hprocess
  rw [ho.data_eq] at hread
  obtain ⟨vault, hvault, hvalid⟩ := hcreates.valid
  obtain ⟨maxFee, hmax, hflows⟩ := hc.exactFlows hcompare hmint (inner_of_create hinner htag hread)
    hvalid.vault_first
  refine ⟨address, t, vault, maxFee, rfl, hvault, hmax, hparses.feePayer_eq ▸ hflows, ?_⟩
  intro s' hrun hcf
  -- from the creation on, the log issues its calls
  obtain ⟨href, hrecord⟩ := recordAt_of_process hs hempty hkeys hprocess hrun hcf
  exact LegalLog.runs href.legal hrecord

/-! ## A bundle of the example cluster -/

namespace Example

/-- The keys of the bundle. -/
def bundleKeys : List Pubkey :=
  [paymaster, alice, bob, multisig, transaction, vault, carol, systemProgramId, programId]

/-- The proposal of the example from creation to closing, in one transaction, signed by the
paymaster and both members. -/
def bundle : LegacyMessage where
  numRequiredSignatures := 3
  numReadonlySigned := 2
  numReadonlyUnsigned := 2
  accountKeys := bundleKeys
  recentBlockhash := key 8
  instructions := (commands.tail.filterMap (Command.outer? cluster)).map (compileOuter bundleKeys)

theorem bundle_submittedAs : List.Forall₂ Instruction.SubmittedAs bundle.transaction.instructions
    (commands.tail.filterMap (Command.outer? cluster)) :=
  LegacyMessage.submittedAs rfl (by decide) (by decide +kernel)

/-- What the device displays. -/
def expected : ExpectedSolanaVaultPayload where
  recipients := [⟨toBase58 carol, "700"⟩]
  tokenMint := none
  tokenDecimals := none
  maxFeeLamports := none
  expectedFeePayer := none
  expectedTransactionPda := none
  expectedVaultIndex := none
  expectedVaultPda := none
  expectedMultisigPda := some (toBase58 multisig)
  approveOnlyVerifiedOnChain := false

/-- No options. -/
def options : DecodeVaultSolanaOptions := ⟨none, none, none, none⟩

/-- What decoding the transaction and comparing the report says of its text: the text parses
back to the transaction, so the report can be computed on that. -/
theorem exists_decoded_of {m : LegacyMessage} {expected : ExpectedSolanaVaultPayload}
    (hok : ((DecodedVaultSolanaTx.ofResult (parseTransaction programId m.transaction >>= fun b =>
      decodeBundle cluster b options)).create?.map fun d =>
        (compareDecodedToExpected cluster (.create d) expected).ok) = some true) :
    ∃ d, decodeVaultSolanaTransaction cluster m.web3 m.base64 programId options = .create d ∧
      (compareDecodedToExpected cluster (.create d) expected).ok = true := by
  obtain ⟨d, hd, hcompare⟩ := Option.map_eq_some_iff.mp hok
  exact ⟨d, (m.decode_eq cluster programId options).trans (DecodedVaultSolanaTx.eq_create hd),
    hcompare⟩

/-- The bundle decodes to kind create and is as displayed. -/
theorem exists_decoded : ∃ d,
    decodeVaultSolanaTransaction cluster bundle.web3 bundle.base64 programId options =
      .create d ∧ (compareDecodedToExpected cluster (.create d) expected).ok = true :=
  exists_decoded_of (by decide +kernel)

/-- A run that registers the multisig and creates the proposal executes the
`create_transaction` of the bundle. -/
theorem exists_creation {cs : List Command} {s' : State}
    (h : drive cluster bank genesis (register :: create :: cs) = some s') :
    ∃ s ix o out, Reachable cluster s ∧ s.frames = [] ∧ ix ∈ bundle.transaction.instructions ∧
      ix.programId = programId ∧ ix.data.take 8 = createTransactionTag ∧ ix.SubmittedAs o ∧
      KeysOnly cluster o.infos ∧
      processInstruction cluster bank s.ledger o.infos o.data = .ok out ∧
      drive cluster bank (s.apply out) cs = some s' := by
  obtain ⟨hempty, o₁, ho₁, hrest⟩ := drive_submit h
  obtain ⟨hempty', o₂, ho₂, hrest'⟩ := drive_submit hrest
  have hreach : Reachable cluster (genesis.apply o₁) :=
    reachable_of_reaches genesis_genesis
      (.single (.submit hempty (commands_keysOnly register (by simp [commands]))
        (.process rfl ho₁)))
  obtain ⟨ix, hix, ho⟩ := Guard.exists_left_of_forall₂ bundle_submittedAs
    (List.mem_cons_self (l := (commands.tail.filterMap (Command.outer? cluster)).tail))
  exact ⟨_, ix, _, o₂, hreach, hempty', hix, ho.program_eq.symm, by rw [← ho.data_eq]; rfl, ho,
    commands_keysOnly create (by simp [commands]), ho₂, hrest'⟩

/-- The run that registers the multisig and creates the proposal. -/
theorem exists_created : ∃ s, drive cluster bank genesis [register, create] = some s :=
  Option.isSome_iff_exists.mp (by decide +kernel)

end Example

/-- The bundle of the example, created after the registration. -/
theorem create_runs_exactly_example :
    ∃ (s : State) (out : Outcome) (address : Pubkey) (t : VaultTransaction) (vault : Pubkey)
      (maxFee : ℕ), Reachable Example.cluster s ∧ out.event = some (.created address t) ∧
      deriveVaultPda Example.cluster t.multisig t.vaultIndex = some (vault, t.vaultBump) ∧
      Example.expected.maxFee = some maxFee ∧
      ExactFlows (PaysRecipient Example.cluster vault none) [⟨toBase58 Example.carol, "700"⟩] vault
        (some (toBase58 Example.paymaster)) maxFee false t.message.calls ∧
      ∀ s', Reaches Example.cluster (s.apply out) s' → DistinctAddresses Example.cluster s'.history →
        Runs s'.history address t.message.calls := by
  obtain ⟨d, hdecode, hcompare⟩ := Example.exists_decoded
  obtain ⟨s', hs'⟩ := Example.exists_created
  obtain ⟨s, ix, o, out, hs, hempty, hix, hprogram, htag, ho, hkeys, hprocess, -⟩ :=
    Example.exists_creation hs'
  obtain ⟨address, t, vault, maxFee, h⟩ := create_runs_exactly hdecode hcompare nofun
    Example.bundle.transactionFrom_base64 hix hprogram htag ho hs hempty hkeys hprocess
  exact ⟨s, out, address, t, vault, maxFee, hs, h⟩

end SolanaMultisig
