import SolanaMultisig.Registration
import SolanaMultisig.Sdk.Client
import SolanaMultisig.Space

/-!
# The client's addresses are the program's

A client derives addresses before anything exists on chain, and money may be sent
there. Multisig addresses are derived alike on both sides and commit to the members
and the threshold (`multisig_address_agrees`). Whether a multisig can be registered at
an address the client hands out depends on the number of members (`registers_iff`),
and whether the next proposal can be created depends on how the client adds one
(`nextFromAccount_iff`).
-/

namespace SolanaMultisig

open Wire Guard

variable {env : Env}

/-! ## Multisig addresses -/

theorem sortMembers_eq_of_perm {members members' : List Pubkey} (h : members.Perm members') :
    sortMembers members = sortMembers members' :=
  Scan.sorted_eq_of_perm h

/-- Permutations have one address, since the members are sorted before they are hashed. -/
theorem deriveMultisigPda_eq_of_perm {members members' : List Pubkey}
    (h : members.Perm members') (threshold : UInt8) :
    deriveMultisigPda env members threshold = deriveMultisigPda env members' threshold := by
  rw [deriveMultisigPda, deriveMultisigPda, sortMembers_eq_of_perm h]

/-- One address has one configuration, up to the order of its members: the hash is undone
twice, from the address to the digest of the members and from there to the members. -/
theorem perm_of_deriveMultisigPda {members members' : List Pubkey} {threshold threshold' : UInt8}
    {p p' : Pubkey × UInt8} (hp : deriveMultisigPda env members threshold = some p)
    (hp' : deriveMultisigPda env members' threshold' = some p')
    (hcf : CollisionFree env (addressDerivations env members threshold p.2 ++
      addressDerivations env members' threshold' p'.2)) (h : p.1 = p'.1) :
    members.Perm members' ∧ threshold = threshold' := by
  have haddress : Derivation.multisig (hashMembers env (sortMembers members)) threshold p.2 =
      .multisig (hashMembers env (sortMembers members')) threshold' p'.2 :=
    hcf.eq (by simp [addressDerivations]) (by simp [addressDerivations])
      ((multisigAddress_eq hp).symm.trans (h.trans (multisigAddress_eq hp')))
  obtain ⟨hhash, hthreshold, -⟩ := Derivation.multisig.inj haddress
  have hmembers : Derivation.members (sortMembers members) = .members (sortMembers members') :=
    hcf.eq (by simp [addressDerivations]) (by simp [addressDerivations]) hhash
  have hsorted : sortMembers members = sortMembers members' := Derivation.members.inj hmembers
  refine ⟨?_, hthreshold⟩
  calc members.Perm (sortMembers members) := (Scan.sorted_perm members).symm
    _ = sortMembers members' := hsorted
    List.Perm _ members' := Scan.sorted_perm members'

/-- **Both sides derive one address per configuration.** For every list of members
and every threshold client and program find the same address and bump; the order of
the list does not matter; and equal addresses come from the same members and
threshold, unless the hash collides on what was hashed for the two. -/
theorem multisig_address_agrees (env : Env) (members : List Pubkey) (threshold : UInt8) :
    (∀ p, Sdk.deriveMultisigAddress env members threshold.toNat env.programId = .ok p ↔
      deriveMultisigPda env members threshold = some p) ∧
    (∀ members', members.Perm members' →
      Sdk.deriveMultisigAddress env members threshold.toNat env.programId =
        Sdk.deriveMultisigAddress env members' threshold.toNat env.programId) ∧
    ∀ members' threshold' p p',
      Sdk.deriveMultisigAddress env members threshold.toNat env.programId = .ok p →
      Sdk.deriveMultisigAddress env members' threshold'.toNat env.programId = .ok p' →
      CollisionFree env (addressDerivations env members threshold p.2 ++
        addressDerivations env members' threshold' p'.2) →
        p.1 = p'.1 → members.Perm members' ∧ threshold = threshold' := by
  refine ⟨fun p => Sdk.deriveMultisigAddress_eq_ok, ?_, ?_⟩
  · intro members' hperm
    rw [Sdk.deriveMultisigAddress, Sdk.deriveMultisigAddress, Sdk.sortMembers_eq,
      Sdk.sortMembers_eq, sortMembers_eq_of_perm hperm]
  · intro members' threshold' p p' hp hp' hcf h
    rw [Sdk.deriveMultisigAddress_eq_ok] at hp hp'
    exact perm_of_deriveMultisigPda hp hp' hcf h

/-- The two members of the example, in either order. -/
theorem multisig_address_agrees_example :
    Sdk.deriveMultisigAddress Example.cluster [Example.bob, Example.alice] 2 Example.programId =
      Sdk.deriveMultisigAddress Example.cluster [Example.alice, Example.bob] 2
        Example.programId ∧
    [Example.alice, Example.bob].Perm [Example.bob, Example.alice] := by
  have agrees := multisig_address_agrees Example.cluster
  have hp : ∀ members, members.Perm [Example.alice, Example.bob] →
      Sdk.deriveMultisigAddress Example.cluster members 2 Example.programId =
        .ok (Example.multisig, 255) := by
    intro members hperm
    refine ((agrees members 2).1 _).mpr ?_
    rw [deriveMultisigPda_eq_of_perm hperm]
    decide +kernel
  have hcf : CollisionFree Example.cluster
      (addressDerivations Example.cluster [Example.alice, Example.bob] 2 255 ++
        addressDerivations Example.cluster [Example.bob, Example.alice] 2 255) := by
    decide +kernel
  exact ⟨(agrees [Example.bob, Example.alice] 2).2.1 _ (.swap ..),
    ((agrees [Example.alice, Example.bob] 2).2.2 [Example.bob, Example.alice] 2 _ _
      (hp _ (.refl _)) (hp _ (.swap ..)) hcf rfl).1⟩

/-! ## Registering -/

/-- An instruction as it reaches the program: the accounts in order, each with the
privileges asked for or more. -/
def Instruction.PassedAs (ix : Instruction) (infos : List AccountInfo) : Prop :=
  List.Forall₂ (fun account info => info.key = account.pubkey ∧
    (account.isSigner = true → info.isSigner = true) ∧
    (account.isWritable = true → info.isWritable = true)) ix.accounts infos

/-- The address is free, and another account can pay for it. Lamports sent to the address
before make it cheaper, not impossible. -/
structure CanFund (env : Env) (ledger : Ledger) (payer address : Pubkey) (space : ℕ) : Prop where
  vacant : (ledger address).Vacant
  payer_vacant : (ledger payer).Vacant
  payer_ne : payer ≠ address
  lamports_le : max (env.minimumBalance space) 1 ≤ (ledger payer).lamports

theorem systemTransfer_isOk {ledger : Ledger} {src dst : Pubkey} {lamports : ℕ}
    (hsrc : (ledger src).Vacant) (hle : lamports ≤ (ledger src).lamports) (hne : src ≠ dst)
    (hlt : (ledger dst).lamports + lamports < 2 ^ 64) :
    ∃ ledger', systemTransfer ledger src dst lamports = .ok ledger' :=
  ⟨_, systemTransfer_eq_ok.mpr ⟨hsrc, hle, (lamports_transferred _ hne).trans_lt hlt, rfl⟩⟩

/-- A balance of 64 bits is what `init` asks for, so paying it overflows nothing. -/
theorem initBalance_lt (space : ℕ) : max (env.minimumBalance space) 1 < 2 ^ 64 :=
  max_lt (env.minimumBalance_lt space) (by decide)

theorem systemAllocate_isOk {ledger : Ledger} {key : Pubkey} {space : ℕ}
    (hvacant : (ledger key).Vacant) (hspace : space ≤ maxCpiAllocation) :
    ∃ ledger', systemAllocate ledger key space = .ok ledger' ∧
      (ledger' key).lamports = (ledger key).lamports ∧ ∀ k, k ≠ key → ledger' k = ledger k :=
  ⟨_, systemAllocate_eq_ok.mpr ⟨hvacant, hspace, rfl⟩, by simp, fun k hk => by simp [hk]⟩

/-- The System program creates an account for who can fund it, as long as the address has no
lamports. -/
theorem systemCreateAccount_isOk {ledger : Ledger} {payer key : Pubkey} {space : ℕ}
    (hfund : CanFund env ledger payer key space) (hempty : (ledger key).lamports = 0)
    (hspace : space ≤ maxCpiAllocation) {owner : Pubkey} :
    ∃ ledger', systemCreateAccount ledger payer key (env.minimumBalance space) space owner =
      .ok ledger' := by
  obtain ⟨allocated, hallocated, hlamports, hother⟩ := systemAllocate_isOk hfund.vacant hspace
  have hsame : systemAssign allocated key owner payer = ledger payer := by
    rw [systemAssign, Function.update_of_ne hfund.payer_ne, hother _ hfund.payer_ne]
  have hzero : (systemAssign allocated key owner key).lamports = 0 := by
    simp [systemAssign, hlamports, hempty]
  obtain ⟨ledger', htransfer⟩ := systemTransfer_isOk (hsame ▸ hfund.payer_vacant)
    (hsame ▸ (le_max_left _ 1).trans hfund.lamports_le : env.minimumBalance space ≤ _)
    hfund.payer_ne (by rw [hzero, Nat.zero_add]; exact env.minimumBalance_lt space)
  simp only [systemCreateAccount, bind_eq_ok, require_eq_ok]
  exact ⟨ledger', (), hempty, allocated, hallocated, htransfer⟩

/-- **Initializing succeeds** at a free address, whether or not it was given lamports
before: the two paths of `init` cover the two cases. -/
theorem initAccount_isOk {ledger : Ledger} {field payer : AccountInfo} {space : ℕ}
    (hfund : CanFund env ledger payer.key field.key space) (hspace : space ≤ maxCpiAllocation)
    (hsigner : payer.isSigner = true) (hpayer : payer.isWritable = true)
    (hfield : field.isWritable = true) :
    ∃ ledger', initAccount env ledger field payer space = .ok ledger' := by
  have hle := hfund.lamports_le
  simp only [initAccount, bind_eq_ok, require_eq_ok]
  by_cases hlamports : (ledger field.key).lamports = 0
  · -- the account is created
    obtain ⟨ledger', hcreate⟩ := systemCreateAccount_isOk hfund hlamports hspace
    refine ⟨ledger', (), ⟨hsigner, hpayer, hfield⟩, ?_⟩
    rwa [if_pos hlamports]
  · -- lamports were sent there before: top up, allocate, assign
    obtain ⟨funded, htop⟩ : ∃ funded, topUp env ledger field.key payer.key space = .ok funded := by
      simp only [topUp]
      split
      · refine systemTransfer_isOk hfund.payer_vacant (by omega) hfund.payer_ne ?_
        have hlt : max (env.minimumBalance space) 1 < 2 ^ 64 := initBalance_lt space
        omega
      · exact ⟨ledger, rfl⟩
    have hfree : (funded field.key).Vacant := by
      obtain ⟨howner, hdata⟩ := topUp_sameContents htop field.key
      exact ⟨howner.trans hfund.vacant.1, hdata.trans hfund.vacant.2⟩
    obtain ⟨allocated, hallocated, -, -⟩ := systemAllocate_isOk hfree hspace
    refine ⟨systemAssign allocated field.key env.programId, (), ⟨hsigner, hpayer, hfield⟩, ?_⟩
    simp only [hlamports, if_false, bind_eq_ok, require_eq_ok, pure_eq_ok]
    exact ⟨(), hfund.payer_ne, funded, htop, allocated, hallocated, rfl⟩

/-- Member counts within the limit fit one byte, so the cast of the source loses nothing. -/
theorem toNat_memberCount {n : ℕ} (h : n ≤ maxMembers) : (UInt8.ofNat n).toNat = n := by
  have hlt : n < 256 := lt_of_le_of_lt h (by decide)
  exact UInt8.toNat_ofNat_of_lt' hlt

/-- What `initialize_multisig` needs of its arguments: a list without repetition of at most
30 members, a threshold they reach, and an address found for both. -/
structure Registrable (env : Env) (members : List Pubkey) (threshold bump : UInt8)
    (address : Pubkey) : Prop where
  derived : deriveMultisigPda env members threshold = some (address, bump)
  nodup : members.Nodup
  threshold_pos : 0 < threshold.toNat
  threshold_le : threshold.toNat ≤ members.length
  length_le : members.length ≤ maxMembers

/-- The body accepts them, in any order in which the accounts are passed. -/
theorem Registrable.body {members keys : List Pubkey} {threshold bump : UInt8} {address : Pubkey}
    (h : Registrable env members threshold bump address) (hperm : keys.Perm members) :
    initializeMultisig env keys (hashMembers env (sortMembers members)) threshold
      (UInt8.ofNat members.length) bump = .ok ⟨sortMembers members, threshold, 0, bump⟩ := by
  have hcast := toNat_memberCount h.length_le
  simp only [initializeMultisig, bind_eq_ok, require_eq_ok, pure_eq_ok, hperm.length_eq,
    sortMembers_eq_of_perm hperm]
  refine ⟨(), hcast.symm, (), ⟨?_, ?_⟩, (), h.length_le, (), ?_, (), trivial, trivial⟩
  · exact UInt8.lt_iff_toNat_lt.mpr h.threshold_pos
  · rw [UInt8.le_iff_toNat_le, hcast]
    exact h.threshold_le
  · exact Scan.adjacentDistinct_sorted_iff.mpr h.nodup

/-- **Registration succeeds** for at most 30 distinct members and a threshold they can
reach, whoever pays for it. -/
theorem Registrable.process {members : List Pubkey} {threshold bump : UInt8} {ledger : Ledger}
    {multisig payer system : AccountInfo} {remaining : List AccountInfo}
    (h : Registrable env members threshold bump multisig.key)
    (hremaining : (remaining.map AccountInfo.key).Perm members)
    (hfund : CanFund env ledger payer.key multisig.key (computeMultisigSpace members.length))
    (hsigner : payer.isSigner = true) (hpayer : payer.isWritable = true)
    (hmultisig : multisig.isWritable = true) (hsystem : system.key = systemProgramId) :
    ∃ ledger', InitializeMultisig.process env ledger (multisig :: payer :: system :: remaining)
        (hashMembers env (sortMembers members)) threshold (UInt8.ofNat members.length) =
          .ok ⟨ledger', some (.initialized multisig.key ⟨sortMembers members, threshold, 0, bump⟩),
            none⟩ ∧
      multisigAccount.Holds env ledger' multisig.key ⟨sortMembers members, threshold, 0, bump⟩ := by
  have hcast := toNat_memberCount h.length_le
  have hspace : computeMultisigSpace members.length ≤ maxCpiAllocation := by
    have hmax := h.length_le
    rw [maxMembers] at hmax
    rw [computeMultisigSpace, maxCpiAllocation]
    omega
  have hsorted : (sortMembers members).length = members.length := Scan.length_sorted members
  obtain ⟨allocated, hinit⟩ := initAccount_isOk hfund hspace hsigner hpayer hmultisig
  have halloc := initAccount_allocated hinit
  have hfits : multisigAccount.codec.Fits ⟨sortMembers members, threshold, 0, bump⟩ :=
    fits_multisig (by rw [hsorted]; exact h.length_le)
  obtain ⟨ledger', hexit⟩ := AccountType.exit_isOk halloc.owner_eq hfits
    (by rw [length_bytes_multisig, halloc.data_eq, List.length_replicate, hsorted])
  refine ⟨ledger', ?_,
    (AccountType.written_of_exit (not_vacant_of_allocated halloc) hexit).holds⟩
  rw [← hcast] at hinit
  exact InitializeMultisig.process_eq_ok.mpr ⟨multisig, payer, system, remaining, rfl, hsigner,
    hsystem, bump, h.derived, allocated, hinit, hmultisig, hpayer, _, h.body hremaining, ledger',
    hexit, rfl⟩

/-- The client hands out the address of every list of distinct members that can reach the
threshold, however long it is. -/
theorem deriveAddress_of_pda (env : Env) {members : List Pubkey} {threshold bump : UInt8}
    {address : Pubkey} (hpda : deriveMultisigPda env members threshold = some (address, bump))
    (hpos : 0 < threshold.toNat) (hle : threshold.toNat ≤ members.length)
    (hnodup : members.Nodup) :
    Sdk.deriveAddress env members threshold.toNat env.programId = .ok address := by
  have hvalid : Sdk.validateConfig members threshold.toNat = .ok () :=
    Sdk.validateConfig_eq_ok.mpr ⟨by exact_mod_cast hpos, by exact_mod_cast hle, hnodup⟩
  simp only [Sdk.deriveAddress, bind_eq_ok, pure_eq_ok]
  exact ⟨(), hvalid, (address, bump), Sdk.deriveMultisigAddress_eq_ok.mpr hpda, rfl⟩

/-- Money sent to `address` can be reached: whoever pays, the client builds an
instruction for this address, and wherever the address is free and the payer has the
rent, it registers the members and the threshold there. -/
def Registers (env : Env) (members : List Pubkey) (threshold : ℤ) (address : Pubkey) : Prop :=
  ∀ payer, ∃ request,
    Sdk.buildInitializeMultisigInstruction env members threshold payer env.programId =
      .ok request ∧
    request.multisigAddress = address ∧ request.instruction.programId = env.programId ∧
    ∀ bank ledger infos, CanFund env ledger payer address (computeMultisigSpace members.length) →
      request.instruction.PassedAs infos →
        ∃ ledger' m, processInstruction env bank ledger infos request.instruction.data =
            .ok ⟨ledger', some (.initialized address m), none⟩ ∧
          multisigAccount.Holds env ledger' address m ∧
          m.members.Perm members ∧ (m.threshold.toNat : ℤ) = threshold

/-- The program reads back the arguments the client writes: a digest and two bytes. -/
theorem parseInstruction_initialize (memberHash : Bytes32) (threshold memberCount : UInt8) :
    parseInstruction (initializeMultisigTag ++ memberHash.bytes ++ [threshold, memberCount]) =
      .ok (.initializeMultisig memberHash threshold memberCount) := by
  have hdrop : (initializeMultisigTag ++ memberHash.bytes ++ [threshold, memberCount]).drop 8 =
      memberHash.bytes ++ [threshold, memberCount] := by
    rw [List.append_assoc]
    exact List.drop_left' rfl
  rw [parseInstruction_register (by simp [initializeMultisigTag]), readArgs_eq_ok, hdrop]
  refine ⟨((memberHash, threshold, memberCount), []), ?_, rfl⟩
  exact (Codec.decode_eq_some_iff _).mpr ⟨⟨trivial, trivial, trivial⟩, (List.append_nil _).symm⟩

instance : Nontrivial Pubkey :=
  ⟨Bytes32.zero, ⟨List.replicate 32 1, by simp⟩, by decide⟩

/-- The ledger in which `payer` can fund one account of this size, and nothing else is. -/
def fundedLedger (env : Env) (payer : Pubkey) (space : ℕ) : Ledger :=
  Function.update (fun _ => Account.absent) payer
    ⟨max (env.minimumBalance space) 1, systemProgramId, []⟩

theorem canFund_fundedLedger {payer address : Pubkey} (space : ℕ) (hne : payer ≠ address) :
    CanFund env (fundedLedger env payer space) payer address space where
  vacant := by simp [fundedLedger, hne.symm, Account.Vacant, Account.absent]
  payer_vacant := by simp [fundedLedger, Account.Vacant]
  payer_ne := hne
  lamports_le := by simp [fundedLedger]

/-- Nothing with more than 30 members is ever registered: there is always a ledger in which
the registration could be paid for, and the program refuses it. -/
theorem Registers.length_le {members : List Pubkey} {threshold : ℤ} {address : Pubkey}
    (h : Registers env members threshold address) : members.length ≤ maxMembers := by
  obtain ⟨payer, hne⟩ := exists_ne address
  obtain ⟨request, -, -, -, hprocess⟩ := h payer
  obtain ⟨ledger', m, hrun, -, hperm, -⟩ := hprocess ⟨Bytes32.zero, 0⟩ _
    (request.instruction.accounts.map fun account =>
      ⟨account.pubkey, account.isSigner, account.isWritable⟩) (canFund_fundedLedger _ hne)
    (by simp [Instruction.PassedAs, List.forall₂_map_right_iff, List.forall₂_same])
  obtain ⟨instruction, -, heffect⟩ := processInstruction_effect hrun
  cases heffect with
  | initialized hinit _ => exact hperm.length_eq ▸ hinit.valid.length_le

/-- **Exactly the addresses of up to 30 members can be registered.** The client hands out
addresses for lists of any length: it bounds the threshold by the number of members, but not
that number. What is sent to an address with more members stays there. -/
theorem registers_iff {members : List Pubkey} {threshold : ℤ} {address : Pubkey}
    (h : Sdk.deriveAddress env members threshold env.programId = .ok address) :
    Registers env members threshold address ↔ members.length ≤ maxMembers := by
  refine ⟨Registers.length_le, fun hmax => ?_⟩
  simp only [Sdk.deriveAddress, bind_eq_ok, pure_eq_ok] at h
  obtain ⟨_, hvalid, ⟨address, bump⟩, hderive, rfl⟩ := h
  obtain ⟨hpos, hle, hnodup⟩ := Sdk.validateConfig_eq_ok.mp hvalid
  obtain ⟨t, rfl⟩ : ∃ t : UInt8, (t.toNat : ℤ) = threshold := by
    refine ⟨UInt8.ofNat threshold.toNat, ?_⟩
    rw [toNat_memberCount (by omega)]
    omega
  have hregistrable : Registrable env members t bump address :=
    { derived := Sdk.deriveMultisigAddress_eq_ok.mp hderive
      nodup := hnodup
      threshold_pos := by omega
      threshold_le := by omega
      length_le := hmax }
  intro payer
  refine ⟨.of env members t (UInt8.ofNat members.length) payer address bump, ?_, rfl, rfl, ?_⟩
  · exact Sdk.buildInitializeMultisigInstruction_eq_ok.mpr
      ⟨hvalid, (address, bump), hderive, t, _, rfl, by rw [toNat_memberCount hmax], rfl⟩
  · intro bank ledger infos hfund hpassed
    simp only [Instruction.PassedAs, Sdk.InitializeRequest.of, List.forall₂_cons_left_iff]
      at hpassed
    obtain ⟨multisig, _, ⟨rfl, -, hmultisig⟩, ⟨payer, _, ⟨rfl, hsigner, hpayer⟩,
      ⟨system, remaining, ⟨hsystem, -, -⟩, hmembers, rfl⟩, rfl⟩, rfl⟩ := hpassed
    have hremaining : remaining.map AccountInfo.key = sortMembers members := by
      rw [List.forall₂_map_left_iff] at hmembers
      rw [eq_comm, ← List.forall₂_eq_eq_eq, List.forall₂_map_right_iff]
      exact hmembers.imp fun _ _ hkey => hkey.1.symm
    have hperm : (remaining.map AccountInfo.key).Perm members :=
      hremaining ▸ Scan.sorted_perm members
    obtain ⟨ledger', hprocess, hholds⟩ := hregistrable.process hperm hfund (hsigner trivial)
      (hpayer trivial) (hmultisig trivial) hsystem
    refine ⟨ledger', _, ?_, hholds, Scan.sorted_perm members, rfl⟩
    simp only [processInstruction, Sdk.InitializeRequest.of, parseInstruction_initialize]
    exact hprocess

namespace Example

theorem deriveAddress_multisig :
    Sdk.deriveAddress cluster [alice, bob] 2 programId = .ok multisig := by
  have hpda : deriveMultisigPda cluster [alice, bob] 2 = some (multisig, 255) := by decide +kernel
  exact deriveAddress_of_pda cluster hpda (by decide) (by decide) (by decide)

end Example

/-- The two members of the example can register. -/
theorem registers_iff_example :
    Registers Example.cluster [Example.alice, Example.bob] 2 Example.multisig :=
  (registers_iff Example.deriveAddress_multisig).mpr (by decide)

namespace Example

/-- One member too many: 31 keys, all different. -/
def crowd : List Pubkey := (List.range 31).map fun i => key (UInt8.ofNat (i + 1))

/-- SHA-256 of their keys. -/
def crowdHash : Bytes32 :=
  ⟨[62, 230, 234, 188, 62, 22, 130, 48, 6, 1, 121, 241, 21, 189, 195, 88, 205, 165, 3, 169, 130,
    109, 89, 243, 55, 149, 129, 38, 69, 47, 167, 246], rfl⟩

/-- The one-of-31 multisig they would have. -/
def crowdAddress : Pubkey :=
  ⟨[133, 4, 176, 187, 238, 245, 74, 234, 121, 203, 40, 96, 151, 193, 158, 104, 226, 245, 162, 170,
    96, 190, 80, 193, 244, 212, 33, 19, 108, 107, 87, 21], rfl⟩

/-- The example cluster with these digests. -/
def crowdedCluster : Env :=
  { cluster with
    sha256 := fun bytes =>
      if bytes = (Derivation.members crowd).preimage programId then crowdHash
      else if bytes = (Derivation.multisig crowdHash 1 255).preimage programId then crowdAddress
      else sha256 bytes
    onCurve := fun digest => !decide (digest = crowdAddress) && cluster.onCurve digest }

end Example

/-- The client hands out an address for 31 members; no multisig can be registered
there. -/
theorem crowd_not_registers :
    Sdk.deriveAddress Example.crowdedCluster Example.crowd 1 Example.programId =
      .ok Example.crowdAddress ∧
    ¬Registers Example.crowdedCluster Example.crowd 1 Example.crowdAddress := by
  constructor
  · have hpda : deriveMultisigPda Example.crowdedCluster Example.crowd 1 =
        some (Example.crowdAddress, 255) := by
      decide +kernel
    exact deriveAddress_of_pda Example.crowdedCluster hpda (by decide) (by decide)
      (by decide +kernel)
  · intro h
    exact absurd h.length_le (by decide)

/-! ## The next proposal -/

/-- `createTransactionFromMessage` uses the index and the address of the proposal that
comes next, as `predictNextTransactionPda` and the program do. -/
structure CreatesNext (env : Env) (fetch : Pubkey → Except String Multisig)
    (multisig : Pubkey) (m : Multisig) (next : UInt64) (address : Pubkey) : Prop where
  /-- the index and the address computed -/
  computed : ∃ index, Sdk.nextFromAccount env fetch multisig env.programId = .ok (address, index) ∧
    index.value = some next.toNat
  /-- those of every request that is sent -/
  requested : ∀ vaultIndex message creator payer request,
    Sdk.createTransactionFromMessage env fetch multisig vaultIndex message creator payer
      env.programId = .ok request →
        request.transactionAddress = address ∧
        request.transactionIndex.value = some next.toNat ∧
        request.instruction.keys[1]? = some address
  /-- the sibling path agrees -/
  predicted : Sdk.predictNextTransactionPda env multisig (.bn m.transactionIndex.toNat)
    env.programId = .ok (address, .bigint next.toNat)
  /-- and so does the seeds constraint -/
  required : ∃ bump, seedsConstraint env address (transactionSeeds multisig next) = .ok bump

theorem nextFromAccount_eq_ok {fetch : Pubkey → Except String Multisig} {multisig address : Pubkey}
    {m : Multisig} {index : Sdk.Counter} (hfetch : fetch multisig = .ok m) :
    Sdk.nextFromAccount env fetch multisig env.programId = .ok (address, index) ↔
      (Sdk.Counter.bn m.transactionIndex.toNat).plusBigInt 1 = index ∧
        Sdk.proposalAddress env multisig index env.programId = .ok address := by
  simp only [Sdk.nextFromAccount, Sdk.getMultisig, hfetch, bind_eq_ok, orElse_eq_ok, pure_eq_ok,
    Option.some.injEq]
  constructor
  · rintro ⟨_, rfl, _, haddress, he⟩
    cases he
    exact ⟨rfl, haddress⟩
  · rintro ⟨rfl, haddress⟩
    exact ⟨_, rfl, address, haddress, rfl⟩

theorem createTransactionFromMessage_eq_ok {fetch : Pubkey → Except String Multisig}
    {multisig creator : Pubkey} {vaultIndex : ℤ} {message : Sdk.BuiltMessage}
    {payer : Option Pubkey} {request : Sdk.CreateRequest}
    (h : Sdk.createTransactionFromMessage env fetch multisig vaultIndex message creator payer
      env.programId = .ok request) :
    Sdk.nextFromAccount env fetch multisig env.programId =
        .ok (request.transactionAddress, request.transactionIndex) ∧
      request.instruction.keys[1]? = some request.transactionAddress := by
  simp only [Sdk.createTransactionFromMessage, bind_eq_ok, pure_eq_ok] at h
  obtain ⟨next, hnext, -, -, -, -, -, -, rfl⟩ := h
  exact ⟨hnext, rfl⟩

/-- The sibling path normalizes the counter first, and is right for every counter. -/
theorem predictNextTransactionPda_eq_ok {multisig address : Pubkey} {current : Sdk.Counter}
    {n : ℕ} {next : UInt64} {bump : UInt8} (hcurrent : current.value = some n)
    (hnext : next.toNat = n + 1)
    (hpda : deriveTransactionPda env multisig next = some (address, bump)) :
    Sdk.predictNextTransactionPda env multisig current env.programId =
      .ok (address, .bigint next.toNat) := by
  simp only [Sdk.predictNextTransactionPda, hcurrent, bind_eq_ok, orElse_eq_ok, pure_eq_ok]
  refine ⟨n, rfl, address, ?_, by rw [hnext]; rfl⟩
  rw [show (Sdk.Counter.bigint n).plusBigInt 1 = .bigint next.toNat by rw [hnext]; rfl]
  exact (Sdk.proposalAddress_eq_ok (Sdk.value_bigint _)).mpr ⟨bump, hpda⟩

/-- **Only the first proposal of a multisig can be created this way.** The counter of a
fetched account is a `BN`, and adding a big integer to it writes a `1` behind its digits:
the index computed is `10 * n + 1`, which is the next one for `n = 0` alone. -/
theorem nextFromAccount_iff {fetch : Pubkey → Except String Multisig} {multisig address : Pubkey}
    {m : Multisig} {next : UInt64} {bump : UInt8} (hfetch : fetch multisig = .ok m)
    (hnext : checkedSucc m.transactionIndex = some next)
    (hpda : deriveTransactionPda env multisig next = some (address, bump)) :
    CreatesNext env fetch multisig m next address ↔ m.transactionIndex = 0 := by
  have hsucc := checkedSucc_eq_some hnext
  have hvalue := Sdk.value_bn_plusBigInt m.transactionIndex.toNat
  constructor
  · rintro ⟨⟨index, hcomputed, hindex⟩, -, -, -⟩
    obtain ⟨rfl, -⟩ := (nextFromAccount_eq_ok hfetch).mp hcomputed
    rw [hvalue] at hindex
    have heq : 10 * m.transactionIndex.toNat + 1 = next.toNat := Option.some.inj hindex
    exact UInt64.toNat_inj.mp (show m.transactionIndex.toNat = 0 by omega)
  · intro hzero
    have hindex : ((Sdk.Counter.bn m.transactionIndex.toNat).plusBigInt 1).value =
        some next.toNat := by
      rw [hvalue, hsucc, hzero]
      rfl
    have haddress := (Sdk.proposalAddress_eq_ok hindex).mpr ⟨bump, hpda⟩
    have hcomputed := (nextFromAccount_eq_ok hfetch).mpr ⟨rfl, haddress⟩
    refine ⟨⟨_, hcomputed, hindex⟩, ?_, ?_, bump, seedsConstraint_eq_ok.mpr hpda⟩
    · intro vaultIndex message creator payer request hrequest
      obtain ⟨hsame, hkey⟩ := createTransactionFromMessage_eq_ok hrequest
      rw [hcomputed] at hsame
      obtain ⟨h₁, h₂⟩ := Prod.mk.inj (Except.ok.inj hsame)
      exact ⟨h₁.symm, h₂ ▸ hindex, hkey.trans (congrArg some h₁.symm)⟩
    · exact predictNextTransactionPda_eq_ok (Sdk.value_bn _) hsucc hpda

namespace Example

/-- Anchor's `fetch` on a ledger where only the multisig `m` exists, at `address`: it loads
and decodes the account. -/
def fetchMultisig (env : Env) (address : Pubkey) (m : Multisig) (k : Pubkey) :
    Except String Multisig :=
  let ledger : Ledger := fun k =>
    if k = address then ⟨1, env.programId, multisigAccount.bytes m⟩ else Account.absent
  match multisigAccount.load env ledger k with
  | .ok m => .ok m
  | .error _ => .error "Account does not exist"

theorem fetchMultisig_eq_ok {env : Env} {address : Pubkey} {m : Multisig}
    (h : m.members.length ≤ maxMembers) : fetchMultisig env address m address = .ok m := by
  rw [fetchMultisig, AccountType.load_eq_ok.mpr ⟨by simp, fits_multisig h, [], by simp⟩]

end Example

/-- The first proposal of the example. -/
theorem nextFromAccount_iff_example :
    CreatesNext Example.cluster
      (Example.fetchMultisig Example.cluster Example.multisig
        ⟨[Example.alice, Example.bob], 2, 0, 255⟩)
      Example.multisig ⟨[Example.alice, Example.bob], 2, 0, 255⟩ 1 Example.transaction := by
  have hpda : deriveTransactionPda Example.cluster Example.multisig 1 =
      some (Example.transaction, 255) := by decide +kernel
  exact (nextFromAccount_iff (Example.fetchMultisig_eq_ok (by decide)) (by decide) hpda).mpr rfl

namespace Example

/-- The proposal number 11 of the joint multisig. -/
def jointEleventh : Pubkey :=
  ⟨[230, 131, 65, 169, 46, 148, 122, 42, 230, 115, 204, 212, 152, 251, 211, 21, 48, 148, 214, 114,
    236, 32, 76, 144, 103, 91, 125, 61, 242, 101, 169, 231], rfl⟩

/-- The example cluster with this digest. -/
def longCluster : Env :=
  { cluster with
    sha256 := fun bytes =>
      if bytes = (Derivation.transaction joint 11 255).preimage programId then jointEleventh
      else sha256 bytes
    onCurve := fun digest => !decide (digest = jointEleventh) && cluster.onCurve digest }

/-- The joint multisig after its first proposal. -/
def jointAfterFirst : Multisig := ⟨[alice, vault], 1, 1, 255⟩

end Example

/-- After the first proposal, the client computes the index and the address of number 11;
number 2 is due. -/
theorem second_not_createsNext :
    Sdk.nextFromAccount Example.longCluster
        (Example.fetchMultisig Example.longCluster Example.joint Example.jointAfterFirst)
        Example.joint Example.programId = .ok (Example.jointEleventh, .string "11") ∧
      deriveTransactionPda Example.longCluster Example.joint 2 =
        some (Example.jointSecond, 255) ∧
      ¬CreatesNext Example.longCluster
        (Example.fetchMultisig Example.longCluster Example.joint Example.jointAfterFirst)
        Example.joint Example.jointAfterFirst 2 Example.jointSecond := by
  have hcomputed : Sdk.nextFromAccount Example.longCluster
      (Example.fetchMultisig Example.longCluster Example.joint Example.jointAfterFirst)
      Example.joint Example.programId = .ok (Example.jointEleventh, .string "11") := by
    refine (nextFromAccount_eq_ok (Example.fetchMultisig_eq_ok (by decide))).mpr ⟨by decide, ?_⟩
    have hpda : deriveTransactionPda Example.longCluster Example.joint 11 =
        some (Example.jointEleventh, 255) := by decide +kernel
    exact (Sdk.proposalAddress_eq_ok (by decide)).mpr ⟨255, hpda⟩
  refine ⟨hcomputed, by decide +kernel, ?_⟩
  rintro ⟨⟨index, hindex, -⟩, -, -, -⟩
  have hsame : Example.jointEleventh = Example.jointSecond :=
    congrArg Prod.fst (Except.ok.inj (hcomputed.symm.trans hindex))
  exact absurd hsame (by decide)

end SolanaMultisig
