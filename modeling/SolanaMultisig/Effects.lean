import SolanaMultisig.Program

/-!
# What an instruction can do

One record per operation says all that a successful run of it checked and
changed; `Effect` collects them, and `processInstruction_effect` is the inversion
lemma of the whole program. Everything about runs is derived from it, never from
the code of an instruction again.
-/

namespace SolanaMultisig

open Wire Guard

variable {env : Env}

/-! ## The operations -/

/-- A well-formed configuration: members strictly sorted, at most 30, and a threshold they
can reach. Registration establishes it and nothing changes it later. -/
structure Multisig.Valid (m : Multisig) : Prop where
  /-- sorted, without duplicates -/
  sorted : m.members.SortedLT
  /-- somebody has to approve -/
  threshold_pos : 0 < m.threshold.toNat
  /-- everybody together can -/
  threshold_le : m.threshold.toNat ≤ m.members.length
  /-- the limit -/
  length_le : m.members.length ≤ maxMembers

/-- The address of a multisig: the one its members and threshold derive, with the stored
bump. The record alone therefore says where it is kept. -/
def Multisig.AddressOf (env : Env) (m : Multisig) (address : Pubkey) : Prop :=
  findProgramAddress env (multisigSeeds (hashMembers env m.members) m.threshold) env.programId =
    some (address, m.bump)

/-- A multisig was registered at a free address: what a successful `initialize_multisig` has
checked and what it has written. -/
structure Initializes (env : Env) (ledger ledger' : Ledger) (address : Pubkey)
    (m : Multisig) : Prop where
  valid : m.Valid
  index_eq : m.transactionIndex = 0
  address_eq : m.AddressOf env address
  vacant : (ledger address).Vacant
  holds : multisigAccount.Holds env ledger' address m
  others : ∀ k, k ≠ address → SameContents ledger ledger' k

/-- The address of a proposal: the one its multisig and index derive, with the stored bump.
-/
def VaultTransaction.AddressOf (env : Env) (t : VaultTransaction) (address : Pubkey) : Prop :=
  deriveTransactionPda env t.multisig t.transactionIndex = some (address, t.bump)

/-- The message is valid for the vault the proposal names, whose bump it stores, so that the
execution can sign for that vault. -/
def VaultTransaction.ValidFor (env : Env) (t : VaultTransaction) (vault : Pubkey) : Prop :=
  deriveVaultPda env t.multisig t.vaultIndex = some (vault, t.vaultBump) ∧
    ValidMessage t.message vault

/-- A proposal was created by a member, at a free address, under the next index of its
multisig, and the counter of the multisig moved there. -/
structure Creates (env : Env) (ledger ledger' : Ledger) (address : Pubkey) (m : Multisig)
    (t : VaultTransaction) : Prop where
  multisig_holds : multisigAccount.Holds env ledger t.multisig m
  creator_mem : t.creator ∈ m.members
  index_eq : t.transactionIndex.toNat = m.transactionIndex.toNat + 1
  address_eq : t.AddressOf env address
  valid : ∃ vault, t.ValidFor env vault
  not_executed : t.executed = false
  no_approvals : t.approvals = []
  vacant : (ledger address).Vacant
  multisig_holds' : multisigAccount.Holds env ledger' t.multisig
    { m with transactionIndex := t.transactionIndex }
  holds : transactionAccount.Holds env ledger' address t
  others : ∀ k, k ≠ address → k ≠ t.multisig → SameContents ledger ledger' k

/-- What `approve_transaction` and `execute_transaction` find: a proposal of the multisig,
not executed yet. The two instructions make the same first three checks. -/
structure Pending (env : Env) (ledger : Ledger) (address : Pubkey) (m : Multisig)
    (t : VaultTransaction) : Prop where
  multisig_holds : multisigAccount.Holds env ledger t.multisig m
  holds : transactionAccount.Holds env ledger address t
  not_executed : t.executed = false

/-- A member approved a pending proposal for the first time. Every other account is
untouched, the multisig included. -/
structure Approves (env : Env) (ledger ledger' : Ledger) (address member : Pubkey)
    (m : Multisig) (t : VaultTransaction) : Prop where
  pending : Pending env ledger address m t
  member_mem : member ∈ m.members
  not_approved : member ∉ t.approvals
  holds : transactionAccount.Holds env ledger' address
    { t with approvals := t.approvals ++ [member] }
  others : ∀ k, k ≠ address → ledger' k = ledger k

/-- A pending proposal with enough approvals was marked and entered; no call has been issued
yet, and the cached record is the one that was written. -/
structure Enters (env : Env) (ledger ledger' : Ledger) (execution : Execution) (m : Multisig)
    (t : VaultTransaction) : Prop where
  pending : Pending env ledger execution.transaction m t
  enough : m.threshold.toNat ≤ t.approvals.length
  cached_eq : execution.cached = { t with executed := true }
  multisig_eq : execution.multisig.key = t.multisig
  next_eq : execution.next = 0
  holds : transactionAccount.Holds env ledger' execution.transaction execution.cached
  others : ∀ k, k ≠ execution.transaction → ledger' k = ledger k

/-- The stored payer closed a proposal, executed or not, and got its lamports. -/
structure Closes (env : Env) (ledger ledger' : Ledger) (address : Pubkey)
    (t : VaultTransaction) : Prop where
  holds : transactionAccount.Holds env ledger address t
  closed : Closed ledger ledger' address t.payer

/-- A nonce account was created next to a multisig, whose seeds signed for it. -/
structure Provisions (env : Env) (ledger ledger' : Ledger) (multisig nonce : Pubkey)
    (m : Multisig) : Prop where
  multisig_holds : multisigAccount.Holds env ledger multisig m
  signed : createProgramAddress env (provisionNonceSeeds env m) env.programId ≠ none
  nonce_eq : nonce = (Derivation.nonce multisig).digest env
  vacant : (ledger nonce).Vacant
  owner_eq : (ledger' nonce).owner = systemProgramId
  others : ∀ k, k ≠ nonce → SameContents ledger ledger' k

/-- `k` signed the instruction: some entry of the account list with this address carries the
signature, wherever it stands. -/
def Signed (infos : List AccountInfo) (k : Pubkey) : Prop :=
  ∃ info ∈ infos, info.key = k ∧ info.isSigner = true

/-- The first accounts of the instruction are these. -/
def Passes (infos : List AccountInfo) (keys : List Pubkey) : Prop :=
  keys <+: infos.map AccountInfo.key

/-- All that a successful instruction can have done, given its arguments. Each constructor
says what was checked and changed, which accounts were passed in front and who signed. -/
inductive Effect (env : Env) (ledger : Ledger) (infos : List AccountInfo) :
    ProgramInstruction → Outcome → Prop
  | initialized {ledger' : Ledger} {address : Pubkey} {m : Multisig} {memberCount : UInt8} :
      Initializes env ledger ledger' address m → Passes infos [address] →
        Effect env ledger infos
          (.initializeMultisig (hashMembers env m.members) m.threshold memberCount)
          ⟨ledger', some (.initialized address m), none⟩
  | created {ledger' : Ledger} {address : Pubkey} {m : Multisig} {t : VaultTransaction} :
      Creates env ledger ledger' address m t →
      Passes infos [t.multisig, address, t.creator, t.payer] →
      Signed infos t.creator → Signed infos t.payer →
        Effect env ledger infos (.createTransaction t.vaultIndex t.message)
          ⟨ledger', some (.created address t), none⟩
  | approved {ledger' : Ledger} {address member : Pubkey} {m : Multisig} {t : VaultTransaction} :
      Approves env ledger ledger' address member m t →
      Passes infos [t.multisig, address, member] → Signed infos member →
        Effect env ledger infos (.approveTransaction t.transactionIndex)
          ⟨ledger', some (.approved address member), none⟩
  | entered {ledger' : Ledger} {execution : Execution} {m : Multisig} {t : VaultTransaction} :
      Enters env ledger ledger' execution m t →
      Passes infos [t.multisig, execution.transaction] →
        Effect env ledger infos (.executeTransaction t.transactionIndex)
          ⟨ledger', some (.entered execution.transaction t.multisig t.transactionIndex),
            some execution⟩
  | closed {ledger' : Ledger} {address : Pubkey} {t : VaultTransaction} :
      Closes env ledger ledger' address t → Passes infos [t.multisig, address, t.payer] →
      Signed infos t.payer →
        Effect env ledger infos (.closeTransaction t.transactionIndex)
          ⟨ledger', some (.closed address t.payer), none⟩
  | provisioned {ledger' : Ledger} {multisig nonce : Pubkey} {m : Multisig} :
      Provisions env ledger ledger' multisig nonce m →
        Effect env ledger infos .provisionNonce
          ⟨ledger', some (.provisioned multisig nonce (provisionNonceSeeds env m)), none⟩
  | viewedAddress {members : List Pubkey} {threshold : UInt8} :
      Effect env ledger infos (.deriveAddress members threshold) ⟨ledger, none, none⟩
  | viewedVault {members : List Pubkey} {threshold vaultIndex : UInt8} :
      Effect env ledger infos (.deriveVaultAddress members threshold vaultIndex)
        ⟨ledger, none, none⟩

/-! ## The inversion lemmas

For each instruction what it takes to succeed, step by step (`process_eq_ok`), and what
this does to the accounts (`process_effect`). -/

/-- A `u8` cast of a length that is small enough is the length. -/
theorem threshold_le_of_cast {threshold : UInt8} {n : ℕ} (h : threshold ≤ UInt8.ofNat n) :
    threshold.toNat ≤ n := by
  have hle := UInt8.le_iff_toNat_le.mp h
  rw [UInt8.toNat_ofNat'] at hle
  exact hle.trans (Nat.mod_le _ _)

/-- What the body of `initialize_multisig` accepts. The cast of the length to `u8` does no
harm, since at most 30 members pass the next check. -/
theorem initializeMultisig_eq_ok {members : List Pubkey} {memberHash : Bytes32}
    {threshold memberCount bump : UInt8} {m : Multisig}
    (h : initializeMultisig env members memberHash threshold memberCount bump = .ok m) :
    m.Valid ∧ m.members = sortMembers members ∧ m.threshold = threshold ∧
      m.transactionIndex = 0 ∧ m.bump = bump ∧ hashMembers env m.members = memberHash ∧
      members.length = memberCount.toNat := by
  simp only [initializeMultisig, bind_eq_ok, require_eq_ok, pure_eq_ok] at h
  obtain ⟨-, hcount, -, ⟨hpos, hle⟩, -, hmax, -, hdistinct, -, hhash, rfl⟩ := h
  refine ⟨⟨Scan.sortedLT_of_adjacentDistinct hdistinct, UInt8.lt_iff_toNat_lt.mp hpos, ?_, ?_⟩,
    rfl, rfl, rfl, rfl, hhash, hcount⟩
  · rw [sortMembers, Scan.length_sorted]
    exact threshold_le_of_cast hle
  · rw [sortMembers, Scan.length_sorted]
    exact hmax

theorem not_vacant_of_allocated {ledger ledger' : Ledger} {key : Pubkey} {space : ℕ}
    (h : Allocated ledger ledger' key env.programId space) : ¬(ledger' key).Vacant :=
  fun hv => env.programId_ne (h.owner_eq.symm.trans hv.1)

/-- Writing to a freshly allocated account. -/
theorem AccountType.Written.sameContents_others {α : Type} {T : AccountType α}
    {l₁ l₂ l₃ : Ledger} {key : Pubkey} {a : α} (h : T.Written env l₂ l₃ key a)
    (h₁ : ∀ k, k ≠ key → SameContents l₁ l₂ k) (k : Pubkey) (hk : k ≠ key) :
    SameContents l₁ l₃ k := by
  have hsame := h₁ k hk
  rwa [SameContents, ← h.others k hk] at hsame

/-- When `initialize_multisig` succeeds, check by check, and with which outcome. -/
theorem InitializeMultisig.process_eq_ok {ledger : Ledger} {infos : List AccountInfo}
    {memberHash : Bytes32} {threshold memberCount : UInt8} {o : Outcome} :
    InitializeMultisig.process env ledger infos memberHash threshold memberCount = .ok o ↔
      ∃ multisig payer system remaining, infos = multisig :: payer :: system :: remaining ∧
        payer.isSigner = true ∧ system.key = systemProgramId ∧ ∃ bump,
        findProgramAddress env (multisigSeeds memberHash threshold) env.programId =
          some (multisig.key, bump) ∧ ∃ allocated,
        initAccount env ledger multisig payer (computeMultisigSpace memberCount.toNat) =
          .ok allocated ∧
        multisig.isWritable = true ∧ payer.isWritable = true ∧ ∃ record,
        initializeMultisig env (remaining.map AccountInfo.key) memberHash threshold memberCount
          bump = .ok record ∧ ∃ written,
        multisigAccount.exit env allocated multisig.key record = .ok written ∧
        ⟨written, some (.initialized multisig.key record), none⟩ = o := by
  rcases infos with _ | ⟨multisig, _ | ⟨payer, _ | ⟨system, remaining⟩⟩⟩
  case cons.cons.cons =>
    simp only [InitializeMultisig.process, systemProgram, bind_eq_ok, signer_eq_ok, mutable_eq_ok,
      require_eq_ok, seedsConstraint_eq_ok, pure_eq_ok, List.cons.injEq, and_assoc, exists_and_left,
      exists_eq_left', exists_const]
  all_goals simp [InitializeMultisig.process]

/-- A successful `initialize_multisig` registers a valid configuration at its own address.
-/
theorem InitializeMultisig.process_effect {ledger : Ledger} {infos : List AccountInfo}
    {memberHash : Bytes32} {threshold memberCount : UInt8} {o : Outcome}
    (h : InitializeMultisig.process env ledger infos memberHash threshold memberCount = .ok o) :
    Effect env ledger infos (.initializeMultisig memberHash threshold memberCount) o := by
  obtain ⟨multisig, payer, system, remaining, rfl, -, -, bump, hfind, allocated, hinit, -, -,
    record, hbody, written, hexit, rfl⟩ := InitializeMultisig.process_eq_ok.mp h
  obtain ⟨hvalid, -, hthreshold, hindex, hbump, hhash, -⟩ := initializeMultisig_eq_ok hbody
  have halloc := initAccount_allocated hinit
  have hwritten := AccountType.written_of_exit (not_vacant_of_allocated halloc) hexit
  subst hhash
  subst hthreshold
  refine .initialized ?_ ⟨_, rfl⟩
  exact
    { valid := hvalid
      index_eq := hindex
      address_eq := by rw [Multisig.AddressOf, hbump, hfind]
      vacant := halloc.vacant
      holds := hwritten.holds
      others := hwritten.sameContents_others halloc.others }

/-- What the body of `create_transaction` accepts. -/
theorem createTransaction_eq_ok {multisigKey creator payer : Pubkey} {m m' : Multisig}
    {bump vaultIndex : UInt8} {message : TransactionMessage} {t : VaultTransaction}
    (h : createTransaction env multisigKey m creator payer bump vaultIndex message = .ok (m', t)) :
    creator ∈ m.members ∧ t.transactionIndex.toNat = m.transactionIndex.toNat + 1 ∧
      (∃ vault, t.ValidFor env vault) ∧
      m' = { m with transactionIndex := t.transactionIndex } ∧
      t = { multisig := multisigKey, transactionIndex := t.transactionIndex, creator, payer, bump,
            vaultIndex, vaultBump := t.vaultBump, executed := false, approvals := [], message } := by
  simp only [createTransaction, bind_eq_ok, require_eq_ok, orElse_eq_ok, pure_eq_ok,
    Prod.mk.injEq] at h
  obtain ⟨-, hmem, vault, hvault, _, hmessage, newIndex, hindex, rfl, rfl⟩ := h
  exact ⟨hmem, checkedSucc_eq_some hindex,
    ⟨vault.1, hvault, validateMessage_eq_ok.mp hmessage⟩, rfl, rfl⟩

/-- When `create_transaction` succeeds, check by check, and with which outcome. The next
index is computed twice, and both times from the multisig as it was loaded. -/
theorem CreateTransaction.process_eq_ok {ledger : Ledger} {infos : List AccountInfo}
    {vaultIndex : UInt8} {message : TransactionMessage} {o : Outcome} :
    CreateTransaction.process env ledger infos vaultIndex message = .ok o ↔
      ∃ multisig transaction creator payer system rest,
        infos = multisig :: transaction :: creator :: payer :: system :: rest ∧ ∃ m,
        multisigAccount.Holds env ledger multisig.key m ∧ creator.isSigner = true ∧
        payer.isSigner = true ∧ system.key = systemProgramId ∧ ∃ nextIndex,
        checkedSucc m.transactionIndex = some nextIndex ∧ ∃ bump,
        findProgramAddress env (transactionSeeds multisig.key nextIndex) env.programId =
          some (transaction.key, bump) ∧ ∃ allocated,
        initAccount env ledger transaction payer (computeProposalSpace message m.members.length) =
          .ok allocated ∧
        transaction.isWritable = true ∧ multisig.isWritable = true ∧ payer.isWritable = true ∧
        ∃ records, createTransaction env multisig.key m creator.key payer.key bump vaultIndex
          message = .ok records ∧ ∃ middle,
        multisigAccount.exit env allocated multisig.key records.1 = .ok middle ∧ ∃ written,
        transactionAccount.exit env middle transaction.key records.2 = .ok written ∧
        ⟨written, some (.created transaction.key records.2), none⟩ = o := by
  rcases infos with _ | ⟨multisig, _ | ⟨transaction, _ | ⟨creator, _ | ⟨payer, _ |
    ⟨system, rest⟩⟩⟩⟩⟩
  case cons.cons.cons.cons.cons =>
    simp only [CreateTransaction.process, systemProgram, bind_eq_ok, orElse_eq_ok, signer_eq_ok,
      mutable_eq_ok, require_eq_ok, seedsConstraint_eq_ok, AccountType.load_eq_ok, pure_eq_ok,
      List.cons.injEq, and_assoc, exists_and_left, exists_eq_left', exists_const]
  all_goals simp [CreateTransaction.process]

/-- A successful `create_transaction` creates a proposal with a valid message under the next
index. -/
theorem CreateTransaction.process_effect {ledger : Ledger} {infos : List AccountInfo}
    {vaultIndex : UInt8} {message : TransactionMessage} {o : Outcome}
    (h : CreateTransaction.process env ledger infos vaultIndex message = .ok o) :
    Effect env ledger infos (.createTransaction vaultIndex message) o := by
  obtain ⟨multisig, transaction, creator, payer, system, rest, rfl, m, hm, hcreator, hpayer, -,
    nextIndex, hnext, bump, hfind, allocated, hinit, -, -, -, ⟨m', t⟩, hbody, middle, hexit,
    written, hexit', rfl⟩ := CreateTransaction.process_eq_ok.mp h
  obtain ⟨hmem, hindex, hvalid, hm', ht⟩ := createTransaction_eq_ok hbody
  have htm : t.multisig = multisig.key := by rw [ht]
  have htc : t.creator = creator.key := by rw [ht]
  have htp : t.payer = payer.key := by rw [ht]
  have htb : t.bump = bump := by rw [ht]
  have htv : t.vaultIndex = vaultIndex := by rw [ht]
  have htmsg : t.message = message := by rw [ht]
  have hnextIndex : t.transactionIndex = nextIndex :=
    UInt64.toNat_inj.mp (hindex.trans (checkedSucc_eq_some hnext).symm)
  have halloc := initAccount_allocated hinit
  -- the new account was vacant, so it is not the multisig's
  have hne : multisig.key ≠ transaction.key := by
    intro he
    exact hm.not_vacant (he ▸ halloc.vacant)
  have hsame := halloc.others multisig.key hne
  have hwritten := AccountType.written_of_exit (hm.of_sameContents hsame).not_vacant hexit
  have hmiddle : ¬(middle transaction.key).Vacant := by
    rw [hwritten.others _ hne.symm]
    exact not_vacant_of_allocated halloc
  have hwritten' := AccountType.written_of_exit hmiddle hexit'
  -- writing the proposal leaves the multisig as it was just written
  have hholds' : multisigAccount.Holds env written multisig.key m' :=
    hwritten.holds.of_sameContents (.of_eq (hwritten'.others _ hne))
  have hpasses : Passes (multisig :: transaction :: creator :: payer :: system :: rest)
      [t.multisig, transaction.key, t.creator, t.payer] := by
    rw [htm, htc, htp]
    exact ⟨_, rfl⟩
  rw [← htv, ← htmsg]
  refine .created (m := m)
    { multisig_holds := htm ▸ hm
      creator_mem := htc ▸ hmem
      index_eq := hindex
      address_eq := by
        rw [VaultTransaction.AddressOf, deriveTransactionPda, htm, hnextIndex, htb, hfind]
      valid := hvalid
      not_executed := by rw [ht]
      no_approvals := by rw [ht]
      vacant := halloc.vacant
      multisig_holds' := by rw [htm, ← hm']; exact hholds'
      holds := hwritten'.holds
      others := ?_ } hpasses ⟨creator, by simp, htc.symm, hcreator⟩
    ⟨payer, by simp, htp.symm, hpayer⟩
  intro k hk hkm
  have h₁ := halloc.others k hk
  rw [htm] at hkm
  rwa [SameContents, ← hwritten.others k hkm, ← hwritten'.others k hk] at h₁

/-- What the body of `approve_transaction` accepts. -/
theorem approveTransaction_eq_ok {multisigKey member : Pubkey} {m : Multisig}
    {t record : VaultTransaction} {transactionIndex : UInt64} :
    approveTransaction multisigKey m t member transactionIndex = .ok record ↔
      t.multisig = multisigKey ∧ t.transactionIndex = transactionIndex ∧ t.executed = false ∧
        member ∈ m.members ∧ member ∉ t.approvals ∧
        { t with approvals := t.approvals ++ [member] } = record := by
  simp only [approveTransaction, bind_eq_ok, require_eq_ok, pure_eq_ok, exists_and_left,
    exists_const]

/-- When `approve_transaction` succeeds, check by check, and with which outcome. -/
theorem ApproveTransaction.process_eq_ok {ledger : Ledger} {infos : List AccountInfo}
    {transactionIndex : UInt64} {o : Outcome} :
    ApproveTransaction.process env ledger infos transactionIndex = .ok o ↔
      ∃ multisig transaction member rest, infos = multisig :: transaction :: member :: rest ∧ ∃ m,
        multisigAccount.Holds env ledger multisig.key m ∧ ∃ t,
        transactionAccount.Holds env ledger transaction.key t ∧ member.isSigner = true ∧
        (∃ bump, findProgramAddress env (transactionSeeds multisig.key transactionIndex)
          env.programId = some (transaction.key, bump)) ∧
        transaction.isWritable = true ∧ ∃ record,
        approveTransaction multisig.key m t member.key transactionIndex = .ok record ∧ ∃ written,
        transactionAccount.exit env ledger transaction.key record = .ok written ∧
        ⟨written, some (.approved transaction.key member.key), none⟩ = o := by
  rcases infos with _ | ⟨multisig, _ | ⟨transaction, _ | ⟨member, rest⟩⟩⟩
  case cons.cons.cons =>
    simp only [ApproveTransaction.process, bind_eq_ok, signer_eq_ok, mutable_eq_ok,
      seedsConstraint_eq_ok, AccountType.load_eq_ok, pure_eq_ok, List.cons.injEq, and_assoc,
      exists_and_left, exists_and_right, exists_eq_left', exists_const, exists_eq', true_and]
  all_goals simp [ApproveTransaction.process]

/-- A successful `approve_transaction` adds the approval of a member who signed. -/
theorem ApproveTransaction.process_effect {ledger : Ledger} {infos : List AccountInfo}
    {transactionIndex : UInt64} {o : Outcome}
    (h : ApproveTransaction.process env ledger infos transactionIndex = .ok o) :
    Effect env ledger infos (.approveTransaction transactionIndex) o := by
  obtain ⟨multisig, transaction, member, rest, rfl, m, hm, t, ht, hsigner, -, -, record, hbody,
    written, hexit, rfl⟩ := ApproveTransaction.process_eq_ok.mp h
  obtain ⟨hmultisig, hindex, hexecuted, hmem, happroved, rfl⟩ := approveTransaction_eq_ok.mp hbody
  have hwritten := AccountType.written_of_exit ht.not_vacant hexit
  have hpasses : Passes (multisig :: transaction :: member :: rest)
      [t.multisig, transaction.key, member.key] := by
    rw [hmultisig]
    exact ⟨_, rfl⟩
  rw [← hindex]
  exact .approved (m := m)
    { pending := ⟨hmultisig ▸ hm, ht, hexecuted⟩
      member_mem := hmem
      not_approved := happroved
      holds := hwritten.holds
      others := hwritten.others } hpasses ⟨member, by simp, rfl, hsigner⟩

theorem Execution.start_eq_ok {multisig : AccountInfo} {transaction : Pubkey}
    {cached : VaultTransaction} {infos remaining : List AccountInfo} {e : Execution}
    (h : Execution.start multisig transaction cached infos remaining = .ok e) :
    e.multisig = multisig ∧ e.transaction = transaction ∧ e.cached = cached ∧ e.infos = infos ∧
      e.next = 0 := by
  unfold Execution.start at h
  split at h
  · cases h
  · cases h
    exact ⟨rfl, rfl, rfl, rfl, rfl⟩

/-- What the body of `execute_transaction` accepts. -/
theorem executeTransaction_eq_ok {multisigKey : Pubkey} {m : Multisig} {t record : VaultTransaction}
    {transactionIndex : UInt64} :
    executeTransaction multisigKey m t transactionIndex = .ok record ↔
      t.multisig = multisigKey ∧ t.transactionIndex = transactionIndex ∧ t.executed = false ∧
        m.threshold.toNat ≤ t.approvals.length ∧ { t with executed := true } = record := by
  simp only [executeTransaction, bind_eq_ok, require_eq_ok, pure_eq_ok, exists_and_left,
    exists_const]

/-- When `execute_transaction` reaches its loop, check by check, and with which execution.
-/
theorem ExecuteTransaction.process_eq_ok {ledger : Ledger} {infos : List AccountInfo}
    {transactionIndex : UInt64} {o : Outcome} :
    ExecuteTransaction.process env ledger infos transactionIndex = .ok o ↔
      ∃ multisig transaction executor remaining,
        infos = multisig :: transaction :: executor :: remaining ∧ ∃ m,
        multisigAccount.Holds env ledger multisig.key m ∧ ∃ t,
        transactionAccount.Holds env ledger transaction.key t ∧ executor.isSigner = true ∧
        (∃ bump, findProgramAddress env (transactionSeeds multisig.key transactionIndex)
          env.programId = some (transaction.key, bump)) ∧
        transaction.isWritable = true ∧ ∃ record,
        executeTransaction multisig.key m t transactionIndex = .ok record ∧ ∃ written,
        transactionAccount.exit env ledger transaction.key record = .ok written ∧ ∃ execution,
        Execution.start multisig transaction.key record infos remaining = .ok execution ∧
        ⟨written, some (.entered transaction.key multisig.key transactionIndex), some execution⟩ =
          o := by
  rcases infos with _ | ⟨multisig, _ | ⟨transaction, _ | ⟨executor, remaining⟩⟩⟩
  case cons.cons.cons =>
    simp only [ExecuteTransaction.process, bind_eq_ok, signer_eq_ok, mutable_eq_ok,
      seedsConstraint_eq_ok, AccountType.load_eq_ok, pure_eq_ok, List.cons.injEq, and_assoc,
      exists_and_left, exists_and_right, exists_eq_left', exists_const]
  all_goals simp [ExecuteTransaction.process]

theorem ExecuteTransaction.process_effect {ledger : Ledger} {infos : List AccountInfo}
    {transactionIndex : UInt64} {o : Outcome}
    (h : ExecuteTransaction.process env ledger infos transactionIndex = .ok o) :
    Effect env ledger infos (.executeTransaction transactionIndex) o := by
  obtain ⟨multisig, transaction, executor, remaining, rfl, m, hm, t, ht, -, -, -, record, hbody,
    written, hexit, execution, hstart, rfl⟩ := ExecuteTransaction.process_eq_ok.mp h
  obtain ⟨hmultisig, hindex, hexecuted, henough, rfl⟩ := executeTransaction_eq_ok.mp hbody
  have hwritten := AccountType.written_of_exit ht.not_vacant hexit
  obtain ⟨hem, het, hec, -, hen⟩ := Execution.start_eq_ok hstart
  have hpasses : Passes (multisig :: transaction :: executor :: remaining)
      [t.multisig, execution.transaction] := by
    rw [hmultisig, het]
    exact ⟨_, rfl⟩
  rw [← het, ← hmultisig, ← hindex]
  refine .entered (m := m)
    { pending := ⟨hmultisig ▸ hm, het ▸ ht, hexecuted⟩
      enough := henough
      cached_eq := hec
      multisig_eq := by rw [hem, hmultisig]
      next_eq := hen
      holds := by rw [het, hec]; exact hwritten.holds
      others := by rw [het]; exact hwritten.others } hpasses

/-- When `close_transaction` succeeds, check by check, and with which outcome. -/
theorem CloseTransaction.process_eq_ok {ledger : Ledger} {infos : List AccountInfo}
    {transactionIndex : UInt64} {o : Outcome} :
    CloseTransaction.process env ledger infos transactionIndex = .ok o ↔
      ∃ multisig transaction payer rest, infos = multisig :: transaction :: payer :: rest ∧
        (∃ m, multisigAccount.Holds env ledger multisig.key m) ∧ ∃ t,
        transactionAccount.Holds env ledger transaction.key t ∧ payer.isSigner = true ∧
        (∃ bump, findProgramAddress env (transactionSeeds multisig.key transactionIndex)
          env.programId = some (transaction.key, bump)) ∧
        transaction.isWritable = true ∧ t.payer = payer.key ∧ transaction.key ≠ payer.key ∧
        payer.isWritable = true ∧ t.multisig = multisig.key ∧
        t.transactionIndex = transactionIndex ∧ ∃ closed,
        closeAccount ledger transaction.key payer.key = .ok closed ∧
        ⟨closed, some (.closed transaction.key payer.key), none⟩ = o := by
  rcases infos with _ | ⟨multisig, _ | ⟨transaction, _ | ⟨payer, rest⟩⟩⟩
  case cons.cons.cons =>
    simp only [CloseTransaction.process, closeTransaction, bind_eq_ok, signer_eq_ok, mutable_eq_ok,
      require_eq_ok, seedsConstraint_eq_ok, AccountType.load_eq_ok, pure_eq_ok, List.cons.injEq,
      and_assoc, exists_and_left, exists_and_right, exists_eq_left', exists_const, exists_eq',
      true_and]
  all_goals simp [CloseTransaction.process]

theorem CloseTransaction.process_effect {ledger : Ledger} {infos : List AccountInfo}
    {transactionIndex : UInt64} {o : Outcome}
    (h : CloseTransaction.process env ledger infos transactionIndex = .ok o) :
    Effect env ledger infos (.closeTransaction transactionIndex) o := by
  obtain ⟨multisig, transaction, payer, rest, rfl, -, t, ht, hsigner, -, -, hpayer, hne, -,
    hmultisig, hindex, closed, hclose, rfl⟩ := CloseTransaction.process_eq_ok.mp h
  have hclosed := closed_of_closeAccount hne hclose
  have hpasses : Passes (multisig :: transaction :: payer :: rest)
      [t.multisig, transaction.key, t.payer] := by
    rw [hmultisig, hpayer]
    exact ⟨_, rfl⟩
  rw [← hpayer, ← hindex]
  exact .closed ⟨ht, hpayer ▸ hclosed⟩ hpasses ⟨payer, by simp, hpayer.symm, hsigner⟩

/-- When `provision_nonce` succeeds, check by check, and with which outcome. -/
theorem ProvisionNonce.process_eq_ok {bank : Bank} {ledger : Ledger} {infos : List AccountInfo}
    {o : Outcome} : ProvisionNonce.process env bank ledger infos = .ok o ↔
      ∃ multisig nonceAccount payer recentBlockhashes rent system rest,
        infos = multisig :: nonceAccount :: payer :: recentBlockhashes :: rent :: system :: rest ∧
        ∃ m, multisigAccount.Holds env ledger multisig.key m ∧ payer.isSigner = true ∧
        rent.key = rentId ∧ system.key = systemProgramId ∧ nonceAccount.isWritable = true ∧
        payer.isWritable = true ∧ recentBlockhashes.key = recentBlockhashesId ∧ ∃ created,
        createNonceAccountWithSeed env bank ledger payer nonceAccount multisig
          (provisionNonceSeeds env m) = .ok created ∧
        ⟨created, some (.provisioned multisig.key nonceAccount.key (provisionNonceSeeds env m)),
          none⟩ = o := by
  rcases infos with _ | ⟨multisig, _ | ⟨nonceAccount, _ | ⟨payer, _ | ⟨recentBlockhashes, _ |
    ⟨rent, _ | ⟨system, rest⟩⟩⟩⟩⟩⟩
  case cons.cons.cons.cons.cons.cons =>
    simp only [ProvisionNonce.process, systemProgram, bind_eq_ok, signer_eq_ok, mutable_eq_ok,
      require_eq_ok, AccountType.load_eq_ok, pure_eq_ok, List.cons.injEq, and_assoc,
      exists_and_left, exists_and_right, exists_eq_left', exists_const, exists_eq', true_and]
  all_goals simp [ProvisionNonce.process]

theorem ProvisionNonce.process_effect {bank : Bank} {ledger : Ledger} {infos : List AccountInfo}
    {o : Outcome} (h : ProvisionNonce.process env bank ledger infos = .ok o) :
    Effect env ledger infos .provisionNonce o := by
  obtain ⟨multisig, nonceAccount, payer, recentBlockhashes, rent, system, rest, rfl, m, hm, -, -,
    -, -, -, -, ledger', hcreated, rfl⟩ := ProvisionNonce.process_eq_ok.mp h
  simp only [createNonceAccountWithSeed, bind_eq_ok, orElse_eq_ok, require_eq_ok, pure_eq_ok]
    at hcreated
  obtain ⟨signing, hsigning, -, -, -, -, -, hnonce, created, hcreate, rfl⟩ := hcreated
  have halloc := systemCreateAccount_allocated hcreate
  refine .provisioned
    { multisig_holds := hm
      signed := by rw [hsigning]; exact Option.some_ne_none _
      nonce_eq := hnonce
      vacant := halloc.vacant
      owner_eq := by simpa using halloc.owner_eq
      others := ?_ }
  intro k hk
  have hs := halloc.others k hk
  simpa [SameContents, hk] using hs

theorem DeriveAddress.process_eq_ok {ledger : Ledger} {infos : List AccountInfo}
    {derived : Except ProgramError Pubkey} {o : Outcome} :
    DeriveAddress.process ledger infos derived = .ok o ↔
      ∃ caller rest, infos = caller :: rest ∧ caller.isSigner = true ∧
        (∃ key, derived = .ok key) ∧ ⟨ledger, none, none⟩ = o := by
  cases infos with
  | nil => simp [DeriveAddress.process]
  | cons caller rest =>
    simp only [DeriveAddress.process, bind_eq_ok, signer_eq_ok, pure_eq_ok, List.cons.injEq,
      and_assoc, exists_and_left, exists_and_right, exists_eq_left', exists_const, exists_eq',
      true_and]

/-- **All that the program can do** in one instruction. This is the only place where the
eight instructions are taken apart for the invariants; what follows argues by cases of
`Effect`. -/
theorem ProgramInstruction.process_effect {bank : Bank} {ledger : Ledger}
    {infos : List AccountInfo} {instruction : ProgramInstruction} {o : Outcome}
    (h : instruction.process env bank ledger infos = .ok o) :
    Effect env ledger infos instruction o := by
  cases instruction with
  | initializeMultisig memberHash threshold memberCount => exact InitializeMultisig.process_effect h
  | createTransaction vaultIndex message => exact CreateTransaction.process_effect h
  | approveTransaction transactionIndex => exact ApproveTransaction.process_effect h
  | executeTransaction transactionIndex => exact ExecuteTransaction.process_effect h
  | closeTransaction transactionIndex => exact CloseTransaction.process_effect h
  | provisionNonce => exact ProvisionNonce.process_effect h
  | deriveAddress members threshold =>
    obtain ⟨-, -, -, -, -, rfl⟩ := DeriveAddress.process_eq_ok.mp h
    exact .viewedAddress
  | deriveVaultAddress members threshold vaultIndex =>
    obtain ⟨-, -, -, -, -, rfl⟩ := DeriveAddress.process_eq_ok.mp h
    exact .viewedVault

/-- The inversion lemma of the entry point: the data selected an instruction, and that
instruction had its effect. -/
theorem processInstruction_effect {bank : Bank} {ledger : Ledger} {infos : List AccountInfo}
    {data : List UInt8} {o : Outcome}
    (h : processInstruction env bank ledger infos data = .ok o) :
    ∃ instruction, parseInstruction data = .ok instruction ∧
      Effect env ledger infos instruction o := by
  simp only [processInstruction, bind_eq_ok] at h
  obtain ⟨instruction, hparse, h⟩ := h
  exact ⟨instruction, hparse, ProgramInstruction.process_effect h⟩

/-- A `create_transaction` that succeeds creates the proposal it describes: vault index and
message are those of the data, and the accounts in front are the ones recorded. -/
theorem created_of_process {bank : Bank} {ledger : Ledger} {infos : List AccountInfo}
    {data : List UInt8} {o : Outcome} (htag : data.take 8 = createTransactionTag)
    (h : processInstruction env bank ledger infos data = .ok o) :
    ∃ ledger' address m t, o = ⟨ledger', some (.created address t), none⟩ ∧
      Creates env ledger ledger' address m t ∧
      Passes infos [t.multisig, address, t.creator, t.payer] ∧
      parseInstruction data = .ok (.createTransaction t.vaultIndex t.message) := by
  obtain ⟨instruction, hparse, heffect⟩ := processInstruction_effect h
  have hread := hparse
  rw [parseInstruction_create htag] at hread
  obtain ⟨⟨⟨vaultIndex, message⟩, _⟩, -, rfl⟩ := readArgs_eq_ok.mp hread
  cases heffect with
  | @created ledger' address m t hcreates hpasses _ _ =>
    exact ⟨ledger', address, m, t, rfl, hcreates, hpasses, hparse⟩

end SolanaMultisig
