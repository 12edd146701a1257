import SolanaMultisig.Delivery
import SolanaMultisig.NonceRace
import SolanaMultisig.Rent

/-!
# Who controls the nonce

Anybody may provision the nonce of a multisig, and who provisions it first controls it
until he acts himself (`first_provision_wins`). The one-shot setup registers and
provisions in one transaction, so that nobody comes in between
(`setup_secures_nonce`).
-/

namespace SolanaMultisig

open Wire Guard Sdk

variable {env : Env}

/-! ## Provisioning -/

/-- The accounts of a provisioning, in the order of the account struct, with the two sysvars
that the System program asks for. -/
inductive ProvisionAccounts (env : Env) (multisigKey payerKey : Pubkey) : List AccountInfo → Prop
  | intro {multisig nonce payer recentBlockhashes rent system : AccountInfo}
      {rest : List AccountInfo} :
      multisig.key = multisigKey → nonce.key = deriveNonceAccount env multisigKey →
      nonce.isWritable = true → payer.key = payerKey → payer.isSigner = true →
      payer.isWritable = true → recentBlockhashes.key = recentBlockhashesId → rent.key = rentId →
      system.key = systemProgramId →
        ProvisionAccounts env multisigKey payerKey
          (multisig :: nonce :: payer :: recentBlockhashes :: rent :: system :: rest)

/-- `authority` controls the nonce of the multisig at `address`: the account is initialized,
has lamports, and names it. -/
def Controls (env : Env) (ledger : Ledger) (address authority : Pubkey) : Prop :=
  ∃ d : NonceData, (ledger (deriveNonceAccount env address)).HoldsNonce d ∧
    d.authority = authority ∧ 0 < (ledger (deriveNonceAccount env address)).lamports

section Provision

variable {bank : Bank} {ledger ledger' : Ledger} {infos : List AccountInfo} {o : Outcome}
  {address payer : Pubkey} {m : Multisig}

/-- An account with room for data is paid for by another one. -/
theorem systemCreateAccount_balance {src dst owner : Pubkey} {lamports space : ℕ}
    (hspace : 0 < space)
    (h : systemCreateAccount ledger src dst lamports space owner = .ok ledger') :
    (ledger dst).lamports = 0 ∧ (ledger' dst).lamports = lamports := by
  simp only [systemCreateAccount, systemTransfer_eq_ok, bind_eq_ok, require_eq_ok] at h
  obtain ⟨-, hzero, allocated, hallocate, hvacant, -, -, rfl⟩ := h
  obtain ⟨-, -, rfl⟩ := systemAllocate_eq_ok.mp hallocate
  refine ⟨hzero, ?_⟩
  have hne : src ≠ dst := by
    rintro rfl
    simp [systemAssign, Account.Vacant, hspace.ne'] at hvacant
  rw [lamports_transferred _ hne]
  simp [systemAssign, hzero]

/-- What provisioning leaves at the nonce address: the payer is the authority, and the
balance is the rent of 80 bytes. There were no lamports before. -/
theorem provisioned_account {base nonce payerInfo : AccountInfo}
    (h : ProvisionNonce.process env bank ledger (base :: nonce :: payerInfo :: infos) = .ok o) :
    (ledger (deriveNonceAccount env base.key)).lamports = 0 ∧
      (∃ d : NonceData, (o.ledger (deriveNonceAccount env base.key)).HoldsNonce d ∧
        d.authority = payerInfo.key) ∧
      (o.ledger (deriveNonceAccount env base.key)).lamports =
        env.minimumBalance nonceAccountLength := by
  obtain ⟨_, _, _, recentBlockhashes, rent, system, rest, hinfos, m, -, -, -, -, -, -, -, created,
    hcreated, rfl⟩ := ProvisionNonce.process_eq_ok.mp h
  simp only [List.cons.injEq] at hinfos
  obtain ⟨rfl, rfl, rfl, -⟩ := hinfos
  simp only [createNonceAccountWithSeed, bind_eq_ok, orElse_eq_ok, require_eq_ok, pure_eq_ok]
    at hcreated
  obtain ⟨signing, -, -, -, -, -, -, hnonce, created', hcreate, rfl⟩ := hcreated
  have howner := (systemCreateAccount_allocated hcreate).owner_eq
  obtain ⟨hzero, hbalance⟩ := systemCreateAccount_balance (by decide) hcreate
  rw [deriveNonceAccount, ← hnonce]
  refine ⟨hzero, ⟨⟨payerInfo.key, env.sha256 (ascii "DURABLE_NONCE" ++ bank.blockhash.bytes),
    bank.lamportsPerSignature⟩, ⟨?_, ?_⟩, rfl⟩, ?_⟩
  · simpa using howner
  · simp [nonceState, NonceData.encode]
  · simpa using hbalance

/-- It is logged, and calls nobody. -/
theorem ProvisionNonce.outcome_eq (h : ProvisionNonce.process env bank ledger infos = .ok o) :
    (∃ multisig nonce seeds, o.event = some (.provisioned multisig nonce seeds)) ∧
      o.execution = none := by
  obtain ⟨_, _, _, _, _, _, _, -, _, -, -, -, -, -, -, -, _, -, rfl⟩ :=
    ProvisionNonce.process_eq_ok.mp h
  exact ⟨⟨_, _, _, rfl⟩, rfl⟩

/-- Only where there are no lamports. -/
theorem lamports_of_provision {base : AccountInfo}
    (h : ProvisionNonce.process env bank ledger (base :: infos) = .ok o) :
    (ledger (deriveNonceAccount env base.key)).lamports = 0 := by
  obtain ⟨_, nonce, payerInfo, _, _, _, _, hinfos, -⟩ := ProvisionNonce.process_eq_ok.mp h
  obtain ⟨rfl, rfl⟩ := List.cons.inj hinfos
  exact (provisioned_account h).1

/-- **Who provisions a nonce controls it.** The rent of a nonce account must not be zero, or
the client would not see the account. -/
theorem controls_of_provision (haccounts : ProvisionAccounts env address payer infos)
    (hrent : 0 < env.minimumBalance nonceAccountLength)
    (h : ProvisionNonce.process env bank ledger infos = .ok o) :
    Controls env o.ledger address payer := by
  cases haccounts with
  | intro hmultisig _ _ hpayer =>
    obtain ⟨-, ⟨d, hd, hauthority⟩, hbalance⟩ := provisioned_account h
    rw [hmultisig] at hd hbalance
    exact ⟨d, hd, hauthority.trans hpayer, hbalance ▸ hrent⟩

/-- **Anybody can provision**, as long as nothing is at the nonce address: the multisig
signs through its stored fields, whoever asks. -/
theorem provision_isOk (haccounts : ProvisionAccounts env address payer infos)
    (hm : multisigAccount.Holds env ledger address m) (haddress : m.AddressOf env address)
    (hfund : CanFund env ledger payer (deriveNonceAccount env address) nonceAccountLength)
    (hempty : (ledger (deriveNonceAccount env address)).lamports = 0) (bank : Bank) :
    ∃ created, ProvisionNonce.process env bank ledger infos =
      .ok ⟨created, some (.provisioned address (deriveNonceAccount env address)
        (provisionNonceSeeds env m)), none⟩ := by
  cases haccounts with
  | @intro multisig nonce payerInfo recentBlockhashes rent system rest hmultisig hnonce hnw hpayer
      hsigner hpw hrecent hrentId hsystem =>
    rw [← hnonce] at hfund hempty
    rw [← hpayer] at hfund
    obtain ⟨created, hcreate⟩ := systemCreateAccount_isOk hfund hempty
      (by decide : nonceAccountLength ≤ maxCpiAllocation)
    obtain ⟨ledger', hmade⟩ : ∃ ledger', createNonceAccountWithSeed env bank ledger payerInfo nonce
        multisig (provisionNonceSeeds env m) = .ok ledger' := by
      simp only [createNonceAccountWithSeed, bind_eq_ok, orElse_eq_ok, require_eq_ok, pure_eq_ok]
      exact ⟨_, address, haddress.signs, (), .inl hmultisig, (), ⟨hsigner, hpw, hnw⟩, (),
        hmultisig.symm ▸ hnonce, created, hcreate, rfl⟩
    refine ⟨ledger', ProvisionNonce.process_eq_ok.mpr ⟨multisig, nonce, payerInfo,
      recentBlockhashes, rent, system, rest, rfl, m, hmultisig.symm ▸ hm, hsigner, hrentId, hsystem,
      hnw, hpw, hrecent, ledger', hmade, ?_⟩⟩
    rw [hmultisig, hnonce]

end Provision

/-! ## Until the authority acts -/

/-- Only the authority can do this: the System program asks for its signature. -/
def NonceAction.Authorized : NonceAction → Prop
  | .write _ | .withdraw _ | .close => True
  | .credit _ | .provision _ _ | .other => False

/-- The runs in which the authority does nothing. -/
abbrev IdleRun (env : Env) (multisig : Pubkey) : Ledger → Ledger → Prop :=
  Relation.ReflTransGen fun l l' => ∃ action : NonceAction,
    ¬action.Authorized ∧ NonceStep env multisig action l l'

section Idle

variable {l l' : Ledger} {address authority : Pubkey}

/-- Nobody else changes who controls the nonce: it is not provisioned again, since there are
lamports at its address. -/
theorem Controls.step {action : NonceAction} (h : Controls env l address authority)
    (hidle : ¬action.Authorized) (hstep : NonceStep env address action l l') :
    Controls env l' address authority := by
  obtain ⟨d, hd, hauthority, hpos⟩ := h
  cases hstep with
  | credit he =>
    exact ⟨d, by rw [he]; exact hd, hauthority, by rw [he]; exact Nat.add_pos_left hpos _⟩
  | provision hbase hprocess =>
    rw [← hbase, lamports_of_provision hprocess] at hpos
    cases hpos
  | write | withdraw | close => exact absurd trivial hidle
  | other he => exact ⟨d, by rw [he]; exact hd, hauthority, by rw [he]; exact hpos⟩

/-- Sending lamports to the nonce address is open to everybody. -/
theorem idleRun_credited (address : Pubkey) (l : Ledger) (lamports : ℕ) :
    IdleRun env address l (credited env address l lamports) :=
  .single ⟨.credit lamports, id, credited_step address l lamports⟩

theorem Controls.run (h : Controls env l address authority) (hrun : IdleRun env address l l') :
    Controls env l' address authority := by
  induction hrun with
  | refl => exact h
  | tail _ hstep ih =>
    obtain ⟨action, hidle, hstep⟩ := hstep
    exact ih.step hidle hstep

/-- What the race check says is who controls the nonce: `ok` to the authority, and to
everybody else the name of the authority. -/
theorem Controls.checkNonceRace {fromAccountData : List UInt8 → Except String NonceAccount}
    (hf : ReadsNonce fromAccountData) (h : Controls env l address authority) :
    (∃ value, Sdk.checkNonceRace env fromAccountData l address authority =
        .ok (.ok (deriveNonceAccount env address) value)) ∧
      ∀ expected, expected ≠ authority →
        Sdk.checkNonceRace env fromAccountData l address expected =
          .ok (.raced (deriveNonceAccount env address) authority) := by
  obtain ⟨d, hd, rfl, hpos⟩ := h
  refine ⟨⟨toBase58 d.durableNonce, ?_⟩, fun expected hne => ?_⟩
  · rw [checkNonceRace_of_holdsNonce hf hd hpos.ne', if_pos rfl]
  · rw [checkNonceRace_of_holdsNonce hf hd hpos.ne', if_neg hne.symm]

end Idle

/-! ## The client's instructions -/

/-- What the instruction to provision asks for: the address is the one the program will
derive. -/
theorem buildProvisionNonceInstruction_asks {address payer : Pubkey} {o : OuterInstruction}
    (ho : (buildProvisionNonceInstruction env address payer env.programId).1.DeliveredAs o) :
    o.program = env.programId ∧ ProvisionAccounts env address payer o.infos ∧
      ∀ bank ledger, processInstruction env bank ledger o.infos o.data =
        ProvisionNonce.process env bank ledger o.infos := by
  have hparse : parseInstruction o.data = .ok .provisionNonce := by
    rw [ho.data_eq]
    rfl
  have hpassed := ho.passed
  simp only [buildProvisionNonceInstruction, Instruction.PassedAs, List.forall₂_cons_left_iff]
    at hpassed
  obtain ⟨multisig, _, ⟨hmultisig, -, -⟩, ⟨nonce, _, ⟨hnonce, -, hnw⟩,
    ⟨signer, _, ⟨hpayer, hs, hpw⟩, ⟨recent, _, ⟨hrecent, -, -⟩, ⟨rent, _, ⟨hrent, -, -⟩,
      ⟨system, rest, ⟨hsystem, -, -⟩, -, hsix⟩, hfive⟩, hfour⟩, hthree⟩, htwo⟩, hone⟩ := hpassed
  subst hsix hfive hfour hthree htwo
  refine ⟨ho.program_eq, ?_, fun bank ledger => ?_⟩
  · rw [hone]
    exact .intro hmultisig hnonce (hnw trivial) hpayer (hs trivial) (hpw trivial) hrecent hrent
      hsystem
  · rw [processInstruction, hparse]
    rfl

/-- The accounts of a registration. -/
inductive RegisterAccounts (members : List Pubkey) (address payerKey : Pubkey) :
    List AccountInfo → Prop
  | intro {multisig payer system : AccountInfo} {remaining : List AccountInfo} :
      multisig.key = address → multisig.isWritable = true → payer.key = payerKey →
      payer.isSigner = true → payer.isWritable = true → system.key = systemProgramId →
      remaining.map AccountInfo.key = sortMembers members →
        RegisterAccounts members address payerKey (multisig :: payer :: system :: remaining)

/-- What the instruction to register asks for: members sorted, and the digest of the sorted
list. -/
theorem initializeRequest_asks {members : List Pubkey} {t n : UInt8} {payer address : Pubkey}
    {bump : UInt8} {o : OuterInstruction}
    (ho : (InitializeRequest.of env members t n payer address bump).instruction.DeliveredAs o) :
    o.program = env.programId ∧ RegisterAccounts members address payer o.infos ∧
      ∀ bank ledger, processInstruction env bank ledger o.infos o.data =
        InitializeMultisig.process env ledger o.infos (hashMembers env (sortMembers members)) t
          n := by
  have hparse : parseInstruction o.data =
      .ok (.initializeMultisig (hashMembers env (sortMembers members)) t n) :=
    ho.data_eq ▸ parseInstruction_initialize _ t n
  have hpassed := ho.passed
  simp only [InitializeRequest.of, Instruction.PassedAs, List.forall₂_cons_left_iff] at hpassed
  obtain ⟨multisig, _, ⟨hmultisig, -, hmw⟩, ⟨signer, _, ⟨hpayer, hs, hpw⟩,
    ⟨system, remaining, ⟨hsystem, -, -⟩, hmembers, hthree⟩, htwo⟩, hone⟩ := hpassed
  subst hthree htwo
  have hremaining : remaining.map AccountInfo.key = sortMembers members := by
    rw [List.forall₂_map_left_iff] at hmembers
    rw [eq_comm, ← List.forall₂_eq_eq_eq, List.forall₂_map_right_iff]
    exact hmembers.imp fun _ _ hkey => hkey.1.symm
  refine ⟨ho.program_eq, ?_, fun bank ledger => ?_⟩
  · rw [hone]
    exact .intro hmultisig (hmw trivial) hpayer (hs trivial) (hpw trivial) hsystem hremaining
  · rw [processInstruction, hparse]
    rfl

/-! ## Registering -/

/-- The multisig is registered for these members, and the payer has paid for it; no third
account was touched. -/
structure Registered (env : Env) (ledger ledger' : Ledger) (members : List Pubkey)
    (threshold : UInt8) (address payer : Pubkey) (m : Multisig) : Prop where
  initializes : Initializes env ledger ledger' address m
  members_perm : m.members.Perm members
  threshold_eq : m.threshold = threshold
  funded : Funded env ledger ledger' address payer
  space_eq : (ledger' address).data.length = computeMultisigSpace members.length
  touches : Touches {payer, address} (fun _ => True) ledger ledger'

/-- What a registration does, whenever it succeeds with these accounts. -/
theorem RegisterAccounts.registered {members : List Pubkey} {t n : UInt8} {memberHash : Bytes32}
    {payer address : Pubkey} {ledger : Ledger} {infos : List AccountInfo} {o : Outcome}
    (haccounts : RegisterAccounts members address payer infos)
    (h : InitializeMultisig.process env ledger infos memberHash t n = .ok o) :
    ∃ m, o.event = some (.initialized address m) ∧ o.execution = none ∧
      Registered env ledger o.ledger members t address payer m := by
  have heffect := InitializeMultisig.process_effect h
  obtain ⟨multisig, payerInfo, system, remaining, hinfos, -, -, bump, -, allocated, hinit, -, -,
    record, hbody, written, hexit, rfl⟩ := InitializeMultisig.process_eq_ok.mp h
  cases haccounts with
  | intro hmultisig _ hpayer _ _ _ hremaining =>
    simp only [List.cons.injEq] at hinfos
    obtain ⟨rfl, rfl, rfl, rfl⟩ := hinfos
    obtain ⟨-, hmembers, hthreshold, -, -, -, hcount⟩ := initializeMultisig_eq_ok hbody
    subst hmultisig hpayer
    rw [hremaining] at hmembers hcount
    have hlength : (sortMembers members).length = members.length := Scan.length_sorted members
    refine ⟨record, rfl, rfl, ?_⟩
    cases heffect with
    | initialized hinitializes _ =>
      refine
        { initializes := hinitializes
          members_perm := ?_
          threshold_eq := hthreshold
          funded := (initAccount_funded hinit).of_exit hexit
          space_eq := ?_
          touches := ?_ }
      · rw [hmembers]
        exact (Scan.sorted_perm _).trans (Scan.sorted_perm members)
      · rw [AccountType.length_exit hexit, (initAccount_allocated hinit).data_eq,
          List.length_replicate, ← hcount, hlength]
      · exact (initAccount_touches hinit (by simp) (by simp) fun _ => trivial).trans
          (AccountType.exit_touches hexit (by simp))

/-- It succeeds for who can pay, if the configuration is one the program accepts. -/
theorem RegisterAccounts.isOk {members : List Pubkey} {t bump : UInt8} {payer address : Pubkey}
    {ledger : Ledger} {infos : List AccountInfo}
    (haccounts : RegisterAccounts members address payer infos)
    (h : Registrable env members t bump address)
    (hfund : CanFund env ledger payer address (computeMultisigSpace members.length)) :
    ∃ out, InitializeMultisig.process env ledger infos (hashMembers env (sortMembers members)) t
      (UInt8.ofNat members.length) = .ok out ∧ out.execution = none := by
  cases haccounts with
  | intro hmultisig hmw hpayer hsigner hpw hsystem hremaining =>
    subst hmultisig hpayer
    have hperm := (List.Perm.of_eq hremaining).trans (Scan.sorted_perm members)
    obtain ⟨ledger', hprocess, -⟩ := h.process hperm hfund hsigner hpw hmw hsystem
    exact ⟨_, hprocess, rfl⟩

/-! ## The race -/

/-- **Who provisions first wins.** The nonce of a registered multisig can be provisioned by
anybody who can pay for it, as long as nothing is at its address. In every state that
others lead to from there, the race check answers `ok` to who provisioned it and `raced`
to everybody else, and nobody else provisions it. -/
theorem first_provision_wins {s : State} {address payer : Pubkey} {m : Multisig}
    {o : OuterInstruction} {fromAccountData : List UInt8 → Except String NonceAccount}
    (hs : Reachable env s) (hcf : DistinctAddresses env s.history) (hidle : s.frames = [])
    (hm : multisigAccount.Holds env s.ledger address m)
    (ho : (buildProvisionNonceInstruction env address payer env.programId).1.DeliveredAs o)
    (hkeys : KeysOnly env o.infos) (hf : ReadsNonce fromAccountData)
    (hrent : 0 < env.minimumBalance nonceAccountLength) :
    (CanFund env s.ledger payer (deriveNonceAccount env address) nonceAccountLength →
      (s.ledger (deriveNonceAccount env address)).lamports = 0 → ∃ s', Lands env s [o] s') ∧
    ∀ s', Lands env s [o] s' → ∀ l, IdleRun env address s'.ledger l →
      (∃ value, checkNonceRace env fromAccountData l address payer =
        .ok (.ok (deriveNonceAccount env address) value)) ∧
      (∀ expected, expected ≠ payer → checkNonceRace env fromAccountData l address expected =
        .ok (.raced (deriveNonceAccount env address) payer)) ∧
      ∀ bank base infos out, base.key = address →
        ProvisionNonce.process env bank l (base :: infos) ≠ .ok out := by
  obtain ⟨hprogram, haccounts, hprocesses⟩ := buildProvisionNonceInstruction_asks ho
  refine ⟨fun hfund hempty => ?_, fun s' hland l hrun => ?_⟩
  · have hrefines := refines_of_reachable hs hcf
    have haddress :=
      (LegalLog.multisigAt_valid hrefines.legal ((hrefines.accounts.multisigs _ _).mp hm)).2
    obtain ⟨created, hprocess⟩ :=
      provision_isOk haccounts hm haddress hfund hempty ⟨Bytes32.zero, 0⟩
    exact ⟨_, lands_of_process hidle hprogram hkeys ((hprocesses _ _).trans hprocess) rfl⟩
  · obtain ⟨bank, out, hprocess, hrest⟩ := hland.processed hprogram
    rw [hprocesses] at hprocess
    obtain rfl := (hrest (ProvisionNonce.outcome_eq hprocess).2).eq_of_nil
    have hcontrols := (controls_of_provision haccounts hrent hprocess).run hrun
    obtain ⟨hok, hraced⟩ := hcontrols.checkNonceRace hf
    refine ⟨hok, hraced, fun bank base infos out hbase hagain => ?_⟩
    obtain ⟨d, -, -, hpos⟩ := hcontrols
    rw [← hbase, lamports_of_provision hagain] at hpos
    cases hpos

namespace Example

/-- The keys of the example sign for themselves there, too. -/
theorem keysOnly_nonceCluster {infos : List AccountInfo}
    (h : ∀ info ∈ infos, info.isSigner = true →
      info.key ∉ nonce :: Bytes32.zero :: digests.map Prod.snd) : KeysOnly nonceCluster infos := by
  rintro k ⟨info, hinfo, rfl, hsigner⟩ ⟨seeds, hseeds⟩
  refine h info hinfo hsigner ?_
  rw [createProgramAddress_eq_some hseeds]
  simp only [nonceCluster]
  split
  · exact List.mem_cons_self
  · exact List.mem_cons_of_mem _ (sha256_mem _)

theorem genesis_nonceCluster : Genesis nonceCluster genesis :=
  ⟨rfl, rfl, genesis_genesis.untyped⟩

/-- The paymaster provisions. -/
def provisioning : OuterInstruction :=
  (buildProvisionNonceInstruction nonceCluster multisig paymaster programId).1.outer

/-- The multisig is registered, but has no nonce yet. -/
theorem exists_registered : ∃ s, Reachable nonceCluster s ∧ s.frames = [] ∧
    s.history = [.initialized multisig ⟨[alice, bob], 2, 0, 255⟩] ∧
    s.ledger nonce = Account.absent ∧ (s.ledger paymaster).Vacant ∧
    1447680 ≤ (s.ledger paymaster).lamports := by
  have hrun : (drive nonceCluster bank genesis [register]).map (fun s =>
      decide (s.frames.isEmpty ∧ s.history = [.initialized multisig ⟨[alice, bob], 2, 0, 255⟩] ∧
        s.ledger nonce = Account.absent ∧ (s.ledger paymaster).Vacant ∧
        1447680 ≤ (s.ledger paymaster).lamports)) = some true := by
    decide +kernel
  obtain ⟨s, hs, hchecked⟩ := Option.map_eq_some_iff.mp hrun
  obtain ⟨hframes, hrest⟩ := of_decide_eq_true hchecked
  refine ⟨s, reachable_of_reaches genesis_nonceCluster (drive_reaches ?_ hs),
    List.isEmpty_iff.mp hframes, hrest⟩
  simp only [List.forall_mem_cons, List.not_mem_nil, IsEmpty.forall_iff, implies_true, and_true]
  exact keysOnly_nonceCluster (by decide)

end Example

/-- The paymaster provisions the nonce of the example multisig, somebody sends a lamport to
it, and `alice` is told who controls it. -/
theorem first_provision_wins_example : ∃ s s', Reachable Example.nonceCluster s ∧
    Lands Example.nonceCluster s [Example.provisioning] s' ∧
    checkNonceRace Example.nonceCluster Example.fromAccountData
      (credited Example.nonceCluster Example.multisig s'.ledger 1) Example.multisig Example.alice =
        .ok (.raced Example.nonce Example.paymaster) := by
  obtain ⟨s, hs, hidle, hhistory, habsent, hvacant, hfunds⟩ := Example.exists_registered
  have hcf : DistinctAddresses Example.nonceCluster s.history := by
    rw [hhistory]
    decide +kernel
  have hm : multisigAccount.Holds Example.nonceCluster s.ledger Example.multisig
      ⟨[Example.alice, Example.bob], 2, 0, 255⟩ :=
    ((refines_of_reachable hs hcf).accounts.multisigs _ _).mpr (by rw [hhistory]; rfl)
  have hnonce : deriveNonceAccount Example.nonceCluster Example.multisig = Example.nonce := by
    decide +kernel
  have hkeys : KeysOnly Example.nonceCluster Example.provisioning.infos :=
    Example.keysOnly_nonceCluster (by decide +kernel)
  obtain ⟨hlands, hwins⟩ := first_provision_wins hs hcf hidle hm (Instruction.outer_deliveredAs _)
    hkeys Example.readsNonce (by decide)
  rw [hnonce] at hlands hwins
  have hempty : (s.ledger Example.nonce).lamports = 0 := by
    rw [habsent]
    rfl
  obtain ⟨s', hland⟩ := hlands
    { vacant := by rw [habsent]; exact ⟨rfl, rfl⟩
      payer_vacant := hvacant
      payer_ne := by decide
      lamports_le := le_trans (by decide) hfunds } hempty
  exact ⟨s, s', hs, hland,
    (hwins s' hland _ (idleRun_credited _ _ 1)).2.1 Example.alice (by decide)⟩

/-! ## The one-shot setup -/

/-- Sorting keeps a configuration valid, so the client may sort before or after it checks.
-/
theorem validateConfig_sortMembers {members : List Pubkey} {threshold : ℤ} :
    validateConfig (SolanaMultisig.sortMembers members) threshold = .ok () ↔
      validateConfig members threshold = .ok () := by
  have hperm : (SolanaMultisig.sortMembers members).Perm members := Scan.sorted_perm members
  rw [validateConfig_eq_ok, validateConfig_eq_ok, hperm.length_eq, hperm.nodup_iff]

/-- What the setup consists of: the two instructions of the standalone methods, in one
transaction. -/
theorem setupMultisigAndNonce_eq_ok {members : List Pubkey} {threshold : ℤ}
    {payer address nonce : Pubkey} {ixs : List Instruction} :
    setupMultisigAndNonce env members threshold payer env.programId =
        .ok (ixs, address, nonce) ↔
      ∃ t n bump, (t.toNat : ℤ) = threshold ∧ n.toNat = members.length ∧
        validateConfig members threshold = .ok () ∧
        deriveMultisigPda env members t = some (address, bump) ∧
        ixs = [(InitializeRequest.of env members t n payer address bump).instruction,
          (buildProvisionNonceInstruction env address payer env.programId).1] ∧
        nonce = deriveNonceAccount env address := by
  have hsorted : SolanaMultisig.sortMembers (SolanaMultisig.sortMembers members) =
      SolanaMultisig.sortMembers members :=
    Scan.sorted_eq_self (Scan.sortedLE_sorted members)
  have hlength : (SolanaMultisig.sortMembers members).length = members.length :=
    Scan.length_sorted members
  simp only [setupMultisigAndNonce, bind_eq_ok, pure_eq_ok, Prod.mk.injEq, sortMembers_eq,
    buildInitializeMultisigInstruction_eq_ok, deriveMultisigAddress_sortMembers, hlength,
    validateConfig_sortMembers]
  constructor
  · rintro ⟨_, hvalid, request, ⟨-, p, hp, t, n, ht, hn, rfl⟩, rfl, rfl, rfl⟩
    rw [← ht, deriveMultisigAddress_eq_ok] at hp
    refine ⟨t, n, p.2, ht, Int.ofNat.inj hn, hvalid, hp, ?_, rfl⟩
    simp only [InitializeRequest.of, hsorted]
  · rintro ⟨t, n, bump, ht, hn, hvalid, hderive, rfl, rfl⟩
    refine ⟨(), hvalid, _, ⟨hvalid, (address, bump), ?_, t, n, ht, by rw [hn], rfl⟩, ?_, rfl, rfl⟩
    · rw [← ht, deriveMultisigAddress_eq_ok]
      exact hderive
    · simp only [InitializeRequest.of, hsorted]

/-- The payer can register at `address` and provision the nonce: both are free, nobody has
sent lamports to the nonce address, and there is enough for both rents. -/
structure CanSetUp (env : Env) (ledger : Ledger) (payer address : Pubkey) (space : ℕ) : Prop where
  vacant : (ledger address).Vacant
  nonce_vacant : (ledger (deriveNonceAccount env address)).Vacant
  /-- nobody has sent lamports ahead -/
  nonce_empty : (ledger (deriveNonceAccount env address)).lamports = 0
  payer_vacant : (ledger payer).Vacant
  payer_ne : payer ≠ address
  payer_ne_nonce : payer ≠ deriveNonceAccount env address
  nonce_ne : deriveNonceAccount env address ≠ address
  lamports_le : max (env.minimumBalance space) 1 + max (env.minimumBalance nonceAccountLength) 1 ≤
    (ledger payer).lamports

theorem CanSetUp.canFund {ledger : Ledger} {payer address : Pubkey} {space : ℕ}
    (h : CanSetUp env ledger payer address space) : CanFund env ledger payer address space :=
  ⟨h.vacant, h.payer_vacant, h.payer_ne, (Nat.le_add_right _ _).trans h.lamports_le⟩

/-- After the registration there is enough left for the nonce, which is still free: the
registration touches the payer and the multisig only. -/
theorem CanSetUp.canFund_nonce {ledger ledger' : Ledger} {payer address : Pubkey}
    {members : List Pubkey} {threshold : UInt8} {m : Multisig}
    (h : CanSetUp env ledger payer address (computeMultisigSpace members.length))
    (hr : Registered env ledger ledger' members threshold address payer m) :
    CanFund env ledger' payer (deriveNonceAccount env address) nonceAccountLength ∧
      (ledger' (deriveNonceAccount env address)).lamports = 0 := by
  have hnonce :
      ledger' (deriveNonceAccount env address) = ledger (deriveNonceAccount env address) :=
    hr.touches.unchanged _ (by simp [h.payer_ne_nonce.symm, h.nonce_ne])
  obtain ⟨howner, hdata⟩ := hr.initializes.others payer h.payer_ne
  rw [hnonce]
  refine ⟨⟨hnonce ▸ h.nonce_vacant, ⟨howner.trans h.payer_vacant.1, hdata.trans h.payer_vacant.2⟩,
    h.payer_ne_nonce, ?_⟩, h.nonce_empty⟩
  have hbalance := hr.funded.balance_eq
  have hpayer := hr.funded.payer_eq
  have hle := h.lamports_le
  rw [hr.space_eq, initBalance] at hbalance
  split at hbalance <;> omega

/-- **The one-shot setup leaves nobody room.** It registers the multisig and provisions
the nonce in one transaction. Whenever it lands, the multisig is there with these members
and this threshold, and the race check answers `ok` to the payer, and `raced` to everybody
else, in every state that others lead to. It lands if both addresses are free, nobody has
sent lamports to the nonce address, and the payer can pay for both. -/
theorem setup_secures_nonce {s : State} {members : List Pubkey} {threshold : ℤ}
    {payer address nonce : Pubkey} {ixs : List Instruction} {os : List OuterInstruction}
    {fromAccountData : List UInt8 → Except String NonceAccount}
    (hs : Reachable env s) (hidle : s.frames = [])
    (hsetup : setupMultisigAndNonce env members threshold payer env.programId =
      .ok (ixs, address, nonce))
    (hos : List.Forall₂ Instruction.DeliveredAs ixs os) (hkeys : ∀ o ∈ os, KeysOnly env o.infos)
    (hf : ReadsNonce fromAccountData) (hrent : 0 < env.minimumBalance nonceAccountLength) :
    (∀ s', Lands env s os s' → DistinctAddresses env s'.history →
      (∃ m, multisigAccount.Holds env s'.ledger address m ∧ m.members.Perm members ∧
        (m.threshold.toNat : ℤ) = threshold ∧ m.transactionIndex = 0) ∧
      ∀ l, IdleRun env address s'.ledger l →
        (∃ value, checkNonceRace env fromAccountData l address payer = .ok (.ok nonce value)) ∧
        ∀ expected, expected ≠ payer →
          checkNonceRace env fromAccountData l address expected = .ok (.raced nonce payer)) ∧
    (members.length ≤ maxMembers →
      CanSetUp env s.ledger payer address (computeMultisigSpace members.length) →
        ∃ s', Lands env s os s') := by
  obtain ⟨t, n, bump, ht, hn, hvalid, hderive, rfl, rfl⟩ := setupMultisigAndNonce_eq_ok.mp hsetup
  obtain ⟨register, _, hregister, hrest, rfl⟩ := List.forall₂_cons_left_iff.mp hos
  obtain ⟨provision, _, hprovision, hnil, rfl⟩ := List.forall₂_cons_left_iff.mp hrest
  obtain rfl := List.forall₂_nil_left_iff.mp hnil
  obtain ⟨hprogram, haccounts, hprocesses⟩ := initializeRequest_asks hregister
  obtain ⟨hprogram', haccounts', hprocesses'⟩ := buildProvisionNonceInstruction_asks hprovision
  refine ⟨fun s' hland hcf => ?_, fun hlength hfunds => ?_⟩
  · have href := refines_of_reachable (hs.trans hland.reaches) hcf
    obtain ⟨bank, out, hprocess, hrest⟩ := hland.processed hprogram
    rw [hprocesses] at hprocess
    obtain ⟨m, hevent, hnone, hr⟩ := haccounts.registered hprocess
    obtain ⟨bank', out', hprocess', hrest'⟩ := (hrest hnone).processed hprogram'
    rw [hprocesses'] at hprocess'
    obtain ⟨⟨_, _, _, hevent'⟩, hnone'⟩ := ProvisionNonce.outcome_eq hprocess'
    obtain rfl := (hrest' hnone').eq_of_nil
    refine ⟨⟨m, ?_, hr.members_perm, hr.threshold_eq ▸ ht, hr.initializes.index_eq⟩,
      fun l hrun => ((controls_of_provision haccounts' hrent hprocess').run hrun).checkNonceRace hf⟩
    refine (href.accounts.multisigs address m).mpr ?_
    simp [State.apply, hevent, hevent', multisigAt]
  · obtain ⟨hpos, hle, hnodup⟩ := validateConfig_eq_ok.mp hvalid
    have hregistrable : Registrable env members t bump address :=
      { derived := hderive
        nodup := hnodup
        threshold_pos := by omega
        threshold_le := by omega
        length_le := hlength }
    obtain ⟨out, hprocess, hnone⟩ := haccounts.isOk hregistrable hfunds.canFund
    rw [← hn, UInt8.ofNat_toNat] at hprocess
    obtain ⟨m, -, -, hr⟩ := haccounts.registered hprocess
    obtain ⟨hfund, hempty⟩ := hfunds.canFund_nonce hr
    obtain ⟨created, hprocess'⟩ := provision_isOk haccounts' hr.initializes.holds
      hr.initializes.address_eq hfund hempty ⟨Bytes32.zero, 0⟩
    have hland := lands_of_process hidle hprogram (hkeys _ (by simp))
      ((hprocesses ⟨Bytes32.zero, 0⟩ _).trans hprocess) hnone
    have hidle' : (s.apply out).frames = [] := by simp [State.apply, hnone, hidle]
    exact ⟨_, hland.append (lands_of_process hidle' hprogram' (hkeys _ (by simp))
      ((hprocesses' _ _).trans hprocess') rfl)⟩

namespace Example

/-- The instructions of the setup of `alice` and `bob`, paid by the paymaster. -/
def setupInstructions : List Instruction :=
  [(InitializeRequest.of nonceCluster [alice, bob] 2 2 paymaster multisig 255).instruction,
    (buildProvisionNonceInstruction nonceCluster multisig paymaster programId).1]

/-- They are what the client builds. -/
theorem setup_instructions : setupMultisigAndNonce nonceCluster [alice, bob] 2 paymaster programId =
    .ok (setupInstructions, multisig, nonce) := by
  have hpda : deriveMultisigPda nonceCluster [alice, bob] 2 = some (multisig, 255) := by
    decide +kernel
  exact setupMultisigAndNonce_eq_ok.mpr ⟨2, 2, 255, rfl, rfl,
    validateConfig_eq_ok.mpr ⟨by decide, by decide, by decide⟩, hpda, rfl, by decide +kernel⟩

theorem setup_keysOnly : ∀ o ∈ setupInstructions.map Instruction.outer,
    KeysOnly nonceCluster o.infos := by
  have hkeys : ∀ o ∈ setupInstructions.map Instruction.outer, ∀ info ∈ o.infos,
      info.isSigner = true → info.key ∉ nonce :: Bytes32.zero :: digests.map Prod.snd := by
    decide +kernel
  exact fun o ho => keysOnly_nonceCluster (hkeys o ho)

/-- The setup as commands of the interpreter. -/
def setupCommands : List Command :=
  setupInstructions.map fun ix => .submit ix.outer.infos ix.outer.data

/-- The setup lands. -/
theorem exists_setup : ∃ s',
    Lands nonceCluster genesis (setupInstructions.map Instruction.outer) s' ∧
      DistinctAddresses nonceCluster s'.history := by
  have hrun : (drive nonceCluster bank genesis setupCommands).map (fun s =>
      decide (s.frames.isEmpty ∧ DistinctAddresses nonceCluster s.history)) = some true := by
    decide +kernel
  obtain ⟨s', hs', hchecked⟩ := Option.map_eq_some_iff.mp hrun
  obtain ⟨hframes, hcf⟩ := of_decide_eq_true hchecked
  have hkeys : ∀ c ∈ setupCommands, c.KeysOnly nonceCluster := by
    intro c hc
    obtain ⟨ix, hix, rfl⟩ := List.mem_map.mp hc
    exact setup_keysOnly ix.outer (List.mem_map_of_mem hix)
  obtain ⟨s₁, hinner, -, hland⟩ := lands_of_drive hkeys hs' (List.isEmpty_iff.mp hframes)
  obtain rfl := eq_of_inner_run rfl hinner
  exact ⟨s', hland, hcf⟩

end Example

/-- The setup of the example makes the nonce the paymaster's, also after somebody sent a
lamport to it. -/
theorem setup_secures_nonce_example : ∃ os s', Lands Example.nonceCluster Example.genesis os s' ∧
    (∃ m, multisigAccount.Holds Example.nonceCluster s'.ledger Example.multisig m ∧
      m.members.Perm [Example.alice, Example.bob]) ∧
    ∃ value, checkNonceRace Example.nonceCluster Example.fromAccountData
      (credited Example.nonceCluster Example.multisig s'.ledger 1) Example.multisig
      Example.paymaster = .ok (.ok Example.nonce value) := by
  obtain ⟨s', hland, hcf⟩ := Example.exists_setup
  have hos : List.Forall₂ Instruction.DeliveredAs Example.setupInstructions
      (Example.setupInstructions.map Instruction.outer) :=
    List.forall₂_map_right_iff.mpr (List.forall₂_same.mpr fun ix _ => ix.outer_deliveredAs)
  have hreach := reachable_of_reaches Example.genesis_nonceCluster .refl
  obtain ⟨⟨m, hm, hperm, -⟩, hnonce⟩ := (setup_secures_nonce hreach rfl Example.setup_instructions
    hos Example.setup_keysOnly Example.readsNonce (by decide)).1 s' hland hcf
  exact ⟨_, s', hland, ⟨m, hm, hperm⟩, (hnonce _ (idleRun_credited _ _ 1)).1⟩

end SolanaMultisig
