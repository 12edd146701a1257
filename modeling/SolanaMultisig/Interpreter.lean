import SolanaMultisig.Simulation

/-!
# Running the machine

An interpreter for runs in which foreign programs return at once: it executes a
list of commands, checking every guard on the way, and what it computes is a run
of the machine (`drive_reaches`). The example at the end takes a two-of-two
multisig through registration, proposal, both approvals, execution and closing.
-/

namespace SolanaMultisig

open Wire

variable {env : Env}

/-- What to do next: each command stands for a step of the machine that needs no choice but
the one written here. -/
inductive Command where
  /-- an outer instruction of the program -/
  | submit (infos : List AccountInfo) (data : List UInt8)
  /-- the innermost execution issues its next call -/
  | call
  /-- the innermost execution returns -/
  | finish
  /-- the innermost foreign program returns -/
  | leave

instance (infos : List AccountInfo) (k : Pubkey) : Decidable (Signed infos k) :=
  inferInstanceAs (Decidable (∃ info ∈ infos, info.key = k ∧ info.isSigner = true))

instance (caller : List AccountInfo) (cpi : Cpi) : Decidable (Privileged env caller cpi) :=
  inferInstanceAs (Decidable (∀ account ∈ cpi.instruction.accounts, (_ ∧ (_ → _ ∨ _))))

/-- Continue with the outcome of a successful instruction. -/
def State.applyResult (s : State) : Except ProgramError Outcome → Option State
  | .ok o => some (s.apply o)
  | .error _ => none

/-- Issue a call to whoever it is for, after the runtime's check of the privileges. A call
of another program puts it on the stack, a call of this one is processed. -/
def State.perform (env : Env) (bank : Bank) (s : State) (e : Execution) (rest : List Frame)
    (cpi : Cpi) : Option State :=
  if Privileged env e.infos cpi then
    if cpi.instruction.programId = env.programId then
      (s.issue e rest cpi).applyResult
        (processInstruction env bank s.ledger cpi.calleeInfos cpi.instruction.data)
    else some ((s.issue e rest cpi).enter cpi.instruction.programId cpi.calleeInfos)
  else none

/-- Execute one command, or fail when the stack is not the one the command is for or a check
does not hold. -/
def State.exec (env : Env) (bank : Bank) (s : State) : Command → Option State
  | .submit infos data =>
      match s.frames with
      | [] => s.applyResult (processInstruction env bank s.ledger infos data)
      | _ :: _ => none
  | .call =>
      match s.frames with
      | .execution e :: rest =>
          match e.nextCpi with
          | some (.ok cpi) => s.perform env bank e rest cpi
          | _ => none
      | _ => none
  | .finish =>
      match s.frames with
      | .execution e :: rest =>
          match e.nextCpi, transactionAccount.exit env s.ledger e.transaction e.cached with
          | none, .ok ledger => some ⟨ledger, rest, .finished e.transaction :: s.history⟩
          | _, _ => none
      | _ => none
  | .leave =>
      match s.frames with
      | .foreign _ _ :: rest => some { s with frames := rest }
      | _ => none

/-- Execute commands one after the other. The recursion is on the list, so that the kernel
can evaluate whole runs. -/
def drive (env : Env) (bank : Bank) : State → List Command → Option State
  | s, [] => some s
  | s, c :: cs => (s.exec env bank c).bind fun s' => drive env bank s' cs

/-- The outer instructions are signed with private keys. -/
def Command.KeysOnly (env : Env) : Command → Prop
  | .submit infos _ => SolanaMultisig.KeysOnly env infos
  | _ => True

theorem applyResult_eq_some {s s' : State} {r : Except ProgramError Outcome}
    (h : s.applyResult r = some s') : ∃ o, r = .ok o ∧ s' = s.apply o := by
  cases r with
  | error e => cases h
  | ok o => exact ⟨o, rfl, (Option.some.inj h).symm⟩

/-- What the interpreter does: it submits an instruction, or a call proceeds. All lemmas
below argue by these two cases. -/
theorem exec_cases {bank : Bank} {s s' : State} {c : Command} (h : s.exec env bank c = some s') :
    (∃ infos data o, c = .submit infos data ∧ s.frames = [] ∧
      processInstruction env bank s.ledger infos data = .ok o ∧ s' = s.apply o) ∨
    (∀ infos data, c ≠ .submit infos data) ∧ Inner env s s' := by
  cases c with
  | submit infos data =>
    rw [State.exec] at h
    split at h
    · rename_i hframes
      obtain ⟨o, ho, rfl⟩ := applyResult_eq_some h
      exact .inl ⟨infos, data, o, rfl, hframes, ho, rfl⟩
    · cases h
  | call =>
    refine .inr ⟨nofun, ?_⟩
    rw [State.exec] at h
    split at h
    · rename_i e rest hframes
      split at h
      · rename_i cpi hcpi
        rw [State.perform] at h
        split at h
        · rename_i hprivileged
          split at h
          · -- the program itself
            rename_i hself
            obtain ⟨o, ho, rfl⟩ := applyResult_eq_some h
            exact .callSelf hframes hcpi hprivileged hself ho
          · -- another one
            rename_i hother
            cases h
            exact .call hframes hcpi hprivileged hother
        · cases h
      · cases h
    · cases h
  | finish =>
    refine .inr ⟨nofun, ?_⟩
    rw [State.exec] at h
    split at h
    · rename_i e rest hframes
      split at h
      · rename_i ledger hnext hexit
        cases h
        exact .finish hframes hnext hexit
      · cases h
    · cases h
  | leave =>
    refine .inr ⟨nofun, ?_⟩
    rw [State.exec] at h
    split at h
    · rename_i infos rest hframes
      cases h
      exact .leave hframes
    · cases h

/-- What the interpreter does is a step, when the instructions it submits are signed with
private keys. -/
theorem exec_step {bank : Bank} {s s' : State} {c : Command} (hkeys : c.KeysOnly env)
    (h : s.exec env bank c = some s') : Step env s s' := by
  rcases exec_cases h with ⟨infos, data, o, rfl, hframes, ho, rfl⟩ | ⟨-, hinner⟩
  · exact .submit hframes hkeys (.process rfl ho)
  · exact .inner hinner

/-- **What the interpreter computes is a run.** Examples are computed with it and become
statements about reachable states. -/
theorem drive_reaches {bank : Bank} {cs : List Command} {s s' : State}
    (hkeys : ∀ c ∈ cs, c.KeysOnly env) (h : drive env bank s cs = some s') : Reaches env s s' := by
  induction cs generalizing s with
  | nil =>
    cases h
    exact .refl
  | cons c cs ih =>
    obtain ⟨s₁, h₁, h₂⟩ := Option.bind_eq_some_iff.mp h
    obtain ⟨hc, hcs⟩ := List.forall_mem_cons.mp hkeys
    exact Relation.ReflTransGen.head (exec_step hc h₁) (ih hcs h₂)

/-- The outer instruction a command submits. -/
def Command.outer? (env : Env) : Command → Option OuterInstruction
  | .submit infos data => some ⟨env.programId, infos, data⟩
  | _ => none

/-- **What the interpreter computes is a landing**, if it ends outside of any call:
first the calls under way return, then the instructions run one after the other. -/
theorem lands_of_drive {bank : Bank} {cs : List Command} {s s' : State}
    (hkeys : ∀ c ∈ cs, c.KeysOnly env) (h : drive env bank s cs = some s')
    (hend : s'.frames = []) :
    ∃ s₁, Relation.ReflTransGen (Inner env) s s₁ ∧ s₁.frames = [] ∧
      Lands env s₁ (cs.filterMap (Command.outer? env)) s' := by
  induction cs generalizing s with
  | nil =>
    cases h
    exact ⟨s', .refl, hend, .nil hend⟩
  | cons c cs ih =>
    obtain ⟨s₂, hexec, hdrive⟩ := Option.bind_eq_some_iff.mp h
    obtain ⟨hc, hcs⟩ := List.forall_mem_cons.mp hkeys
    obtain ⟨s₁, hrun, hempty, hland⟩ := ih hcs hdrive
    rcases exec_cases hexec with ⟨infos, data, o, rfl, hframes, ho, rfl⟩ | ⟨hinner, hstep⟩
    · exact ⟨s, .refl, hframes, .cons hframes hc (.process rfl ho) hrun hempty hland⟩
    · refine ⟨s₁, .head hstep hrun, hempty, ?_⟩
      rw [List.filterMap_cons_none]
      · exact hland
      · cases c with
        | submit infos data => exact absurd rfl (hinner infos data)
        | call | finish | leave => rfl

/-- A command that submits is an instruction that succeeds. -/
theorem exec_submit {bank : Bank} {s s' : State} {infos : List AccountInfo} {data : List UInt8}
    (h : s.exec env bank (.submit infos data) = some s') :
    s.frames = [] ∧ ∃ o, processInstruction env bank s.ledger infos data = .ok o ∧
      s' = s.apply o := by
  rcases exec_cases h with ⟨infos', data', o, heq, hframes, ho, rfl⟩ | ⟨hinner, -⟩
  · cases heq
    exact ⟨hframes, o, ho, rfl⟩
  · exact absurd rfl (hinner infos data)

theorem drive_submit {bank : Bank} {s s' : State} {infos : List AccountInfo} {data : List UInt8}
    {cs : List Command} (h : drive env bank s (.submit infos data :: cs) = some s') :
    s.frames = [] ∧ ∃ o, processInstruction env bank s.ledger infos data = .ok o ∧
      drive env bank (s.apply o) cs = some s' := by
  obtain ⟨s₁, hexec, hdrive⟩ := Option.bind_eq_some_iff.mp h
  obtain ⟨hframes, o, ho, rfl⟩ := exec_submit hexec
  exact ⟨hframes, o, ho, hdrive⟩

/-! ## An example cluster

The hash of this cluster is a table of SHA-256 digests, with the zero digest for
everything else; the curve points are all digests but the program addresses in the
table. -/

namespace Example

/-- A key that repeats one byte, for the people of the example; none of these is a digest.
-/
def key (b : UInt8) : Pubkey := ⟨List.replicate 32 b, by simp⟩

/-- The first member. -/
def alice : Pubkey := key 1

/-- The second member. -/
def bob : Pubkey := key 17

/-- Who pays the rent. -/
def paymaster : Pubkey := key 3

/-- Who is to be paid. -/
def carol : Pubkey := key 6

/-- The devnet address of the program, so that the addresses below are the ones the SDK
derives there. -/
def programId : Pubkey :=
  ⟨[174, 42, 87, 135, 215, 14, 15, 122, 5, 211, 41, 253, 4, 10, 53, 127, 204, 85, 207, 213, 182,
    142, 252, 139, 233, 123, 171, 238, 173, 172, 55, 90], rfl⟩

/-- SHA-256 of the two member keys. -/
def memberHash : Bytes32 :=
  ⟨[72, 2, 149, 158, 242, 50, 98, 222, 110, 123, 190, 21, 123, 135, 27, 129, 160, 72, 156, 139,
    131, 209, 111, 167, 219, 203, 21, 153, 172, 81, 167, 149], rfl⟩

/-- The two-of-two multisig of `alice` and `bob`. -/
def multisig : Pubkey :=
  ⟨[45, 187, 236, 163, 204, 33, 73, 173, 60, 114, 69, 80, 20, 31, 121, 70, 179, 66, 140, 237, 195,
    103, 95, 104, 24, 37, 187, 100, 204, 166, 112, 217], rfl⟩

/-- Its vault number 0. -/
def vault : Pubkey :=
  ⟨[7, 201, 49, 178, 222, 150, 34, 140, 253, 221, 122, 182, 63, 57, 99, 233, 108, 28, 20, 12, 237,
    171, 15, 44, 242, 3, 189, 14, 54, 129, 141, 158], rfl⟩

/-- Its first proposal. -/
def transaction : Pubkey :=
  ⟨[249, 249, 152, 139, 93, 254, 127, 211, 146, 117, 68, 43, 205, 23, 203, 108, 24, 148, 204, 96,
    15, 25, 113, 35, 38, 207, 60, 212, 204, 105, 45, 8], rfl⟩

/-- SHA-256 of the keys of `alice` and the vault. -/
def jointHash : Bytes32 :=
  ⟨[76, 133, 22, 183, 79, 114, 71, 218, 253, 115, 140, 210, 146, 220, 79, 171, 2, 126, 240, 172, 79,
    107, 148, 54, 188, 23, 210, 4, 224, 76, 131, 2], rfl⟩

/-- The one-of-two multisig of `alice` and the vault. -/
def joint : Pubkey :=
  ⟨[244, 56, 16, 132, 249, 204, 203, 23, 191, 203, 240, 224, 73, 181, 46, 164, 188, 73, 16, 104, 63,
    36, 143, 1, 196, 159, 70, 211, 145, 8, 141, 161], rfl⟩

/-- Its vault number 0. -/
def jointVault : Pubkey :=
  ⟨[70, 23, 134, 204, 139, 56, 49, 149, 109, 113, 248, 19, 172, 139, 178, 202, 145, 161, 47, 118,
    236, 12, 22, 14, 216, 138, 246, 245, 67, 160, 194, 155], rfl⟩

/-- Its first proposal. -/
def jointFirst : Pubkey :=
  ⟨[87, 31, 209, 212, 157, 240, 26, 46, 47, 64, 235, 131, 172, 17, 144, 97, 221, 142, 14, 35, 134,
    149, 138, 128, 236, 57, 207, 115, 229, 179, 30, 67], rfl⟩

/-- Its second proposal. -/
def jointSecond : Pubkey :=
  ⟨[194, 55, 131, 4, 119, 208, 125, 66, 80, 1, 4, 171, 75, 174, 77, 38, 165, 103, 66, 52, 180, 205,
    146, 155, 32, 61, 179, 200, 175, 227, 247, 8], rfl⟩

/-- The digests that come up, each beside the derivation it belongs to. The values are those
of SHA-256, computed outside. -/
def digests : List (Derivation × Bytes32) :=
  [(.members [alice, bob], memberHash), (.multisig memberHash 2 255, multisig),
    (.vault multisig 0 255, vault), (.transaction multisig 1 255, transaction),
    (.members [alice, vault], jointHash), (.multisig jointHash 1 255, joint),
    (.vault joint 0 255, jointVault), (.transaction joint 1 253, jointFirst),
    (.transaction joint 2 255, jointSecond)]

/-- The digests among them that are no points of the curve, and so are valid addresses. -/
def addresses : List Pubkey :=
  [multisig, vault, transaction, joint, jointVault, jointFirst, jointSecond]

/-- The digest of a known string, looked up by its preimage; every other string gets the
zero digest. -/
def sha256 (bytes : List UInt8) : Bytes32 :=
  ((digests.find? fun p => decide (p.1.preimage programId = bytes)).map Prod.snd).getD
    Bytes32.zero

/-- The cluster: the hash of the table, the rent formula of the runtime, and no program that
calls back. -/
def cluster : Env where
  programId := programId
  sha256 := sha256
  onCurve digest := !decide (digest ∈ addresses)
  minimumBalance size := min ((128 + size) * 6960) (2 ^ 64 - 1)
  minimumBalance_lt _ := Nat.lt_of_le_of_lt (Nat.min_le_right _ _) (by decide)
  reenters _ _ := false
  programId_ne := by decide

/-- The bank: some blockhash, and a fee per signature. -/
def bank : Bank := ⟨key 9, 5000⟩

/-- Before anything happened, `paymaster` has lamports and so does the vault, which anybody
may fund before its multisig exists. -/
def genesis : State where
  ledger k :=
    if k = paymaster then ⟨1000000000, systemProgramId, []⟩
    else if k = vault then ⟨5000000, systemProgramId, []⟩
    else Account.absent
  frames := []
  history := []

/-- The proposal: a transfer of 700 lamports from the vault to `carol`. -/
def message : TransactionMessage where
  numSigners := 1
  numWritableSigners := 1
  numWritableNonSigners := 1
  accountKeys := [vault, carol, systemProgramId]
  instructions := [⟨2, [0, 1], leBytes 4 2 ++ leBytes 8 700⟩]
  addressTableLookups := []

/-- The proposal's accounts, as an execution passes them. -/
def remaining : List AccountInfo :=
  [⟨vault, false, true⟩, ⟨carol, false, true⟩, ⟨systemProgramId, false, false⟩]

/-- Register the multisig. The members are passed out of order; the program sorts them
before it hashes them. -/
def register : Command :=
  .submit [⟨multisig, false, true⟩, ⟨paymaster, true, true⟩, ⟨systemProgramId, false, false⟩,
    ⟨bob, false, false⟩, ⟨alice, false, false⟩]
    (initializeMultisigTag ++ memberHash.bytes ++ [2, 2])

/-- `alice` proposes. The paymaster signs as well, as it pays the rent. -/
def create : Command :=
  .submit [⟨multisig, false, true⟩, ⟨transaction, false, true⟩, ⟨alice, true, false⟩,
    ⟨paymaster, true, true⟩, ⟨systemProgramId, false, false⟩]
    (createTransactionTag ++ [0] ++ TransactionMessage.codec.encode message)

/-- A member approves. Only the proposal is written to, so the multisig is passed readonly.
-/
def approve (member : Pubkey) : Command :=
  .submit [⟨multisig, false, false⟩, ⟨transaction, false, true⟩, ⟨member, true, false⟩]
    (approveTransactionTag ++ leBytes 8 1)

/-- The paymaster executes, which is no member: with the approvals there, anybody may. -/
def execute : Command :=
  .submit ([⟨multisig, false, false⟩, ⟨transaction, false, true⟩, ⟨paymaster, true, true⟩] ++
    remaining) (executeTransactionTag ++ leBytes 8 1)

/-- The paymaster closes and has its rent back. Nobody else could. -/
def close : Command :=
  .submit [⟨multisig, false, false⟩, ⟨transaction, false, true⟩, ⟨paymaster, true, true⟩]
    (closeTransactionTag ++ leBytes 8 1)

/-- The whole life of a proposal: registered, created, approved twice, executed with its one
call, and closed. -/
def commands : List Command :=
  [register, create, approve alice, approve bob, execute, .call, .leave, .finish, close]

/-- The proposal as stored by its creation, before anybody approved. -/
def record : VaultTransaction where
  multisig := multisig
  transactionIndex := 1
  creator := alice
  payer := paymaster
  bump := 255
  vaultIndex := 0
  vaultBump := 255
  executed := false
  approvals := []
  message := message

/-- The call of the proposal, with the vault as its signer. -/
def cpi : Cpi where
  instruction :=
    ⟨systemProgramId, [⟨vault, true, true⟩, ⟨carol, false, true⟩], leBytes 4 2 ++ leBytes 8 700⟩
  accountInfos := remaining
  signerSeeds := vaultSeeds multisig 0 ++ [[255]]

/-- What the run leaves in the log, the newest event first. -/
def history : List Event :=
  [.closed transaction paymaster, .finished transaction, .invoked transaction cpi,
    .entered transaction multisig 1, .approved transaction bob, .approved transaction alice,
    .created transaction record, .initialized multisig ⟨[alice, bob], 2, 0, 255⟩]

theorem genesis_genesis : Genesis cluster genesis where
  frames_eq := rfl
  history_eq := rfl
  untyped k h := by
    have howner : (genesis.ledger k).owner = systemProgramId := by
      simp only [genesis]
      split
      · rfl
      · split <;> rfl
    exact cluster.programId_ne (h.1.symm.trans howner)

/-- Every digest of the cluster is in the table. -/
theorem sha256_mem (bytes : List UInt8) :
    sha256 bytes ∈ Bytes32.zero :: digests.map Prod.snd := by
  unfold sha256
  cases hfind : digests.find? fun p => decide (p.1.preimage programId = bytes) with
  | none => exact List.mem_cons_self
  | some p =>
    exact List.mem_cons_of_mem _ (List.mem_map_of_mem (List.mem_of_find?_eq_some hfind))

theorem not_isProgramAddress {k : Pubkey} (hk : k ∉ Bytes32.zero :: digests.map Prod.snd) :
    ¬IsProgramAddress cluster k := by
  rintro ⟨seeds, hseeds⟩
  rw [createProgramAddress_eq_some hseeds] at hk
  exact hk (sha256_mem _)

theorem keysOnly {infos : List AccountInfo}
    (h : ∀ info ∈ infos, info.isSigner = true → info.key ∉ Bytes32.zero :: digests.map Prod.snd) :
    KeysOnly cluster infos := by
  rintro k ⟨info, hinfo, rfl, hsigner⟩
  exact not_isProgramAddress (h info hinfo hsigner)

/-- What the interpreter ends with, from its final stack and log: states hold a ledger,
which is a function, so a run is compared by what can be decided. -/
theorem exists_drive {cs : List Command} {h : List Event}
    (hrun : (drive cluster bank genesis cs).map (fun s => (s.frames.isEmpty, s.history)) =
      some (true, h)) :
    ∃ s, drive cluster bank genesis cs = some s ∧ s.frames = [] ∧ s.history = h := by
  obtain ⟨s, hs, hend⟩ := Option.map_eq_some_iff.mp hrun
  obtain ⟨hframes, hhistory⟩ := Prod.mk.inj hend
  exact ⟨s, hs, List.isEmpty_iff.mp hframes, hhistory⟩

/-- The interpreter takes the proposal through its life. -/
theorem exists_driven :
    ∃ s, drive cluster bank genesis commands = some s ∧ s.frames = [] ∧ s.history = history :=
  exists_drive (by decide +kernel)

/-- After the first approval, with one of the two that are needed still missing. -/
theorem exists_drive_pending :
    ∃ s, drive cluster bank genesis [register, create, approve alice] = some s ∧ s.frames = [] ∧
      s.history = history.drop 5 :=
  exists_drive (by decide +kernel)

theorem commands_keysOnly : ∀ c ∈ commands, c.KeysOnly cluster := by
  simp only [commands, List.forall_mem_cons, List.not_mem_nil, IsEmpty.forall_iff, implies_true,
    and_true]
  refine ⟨?_, ?_, ?_, ?_, ?_, trivial, trivial, trivial, ?_⟩ <;>
    exact keysOnly (by decide)

/-- The end of the run is reachable, so the examples of later modules can start from it. -/
theorem exists_reachable : ∃ s, Reachable cluster s ∧ s.history = history := by
  obtain ⟨s, hs, -, hhistory⟩ := exists_driven
  exact ⟨s, reachable_of_reaches genesis_genesis (drive_reaches commands_keysOnly hs), hhistory⟩

theorem distinctAddresses : DistinctAddresses cluster history := by
  decide +kernel

theorem distinctAddresses_pending : DistinctAddresses cluster (history.drop 5) :=
  distinctAddresses.of_suffix (List.drop_suffix 5 history)

/-! ### A call of the program itself

The vault of the first multisig is a member of a second one. -/

/-- Register the second multisig. Its second member is the vault, which can only sign in a
call. -/
def registerJoint : Command :=
  .submit [⟨joint, false, true⟩, ⟨paymaster, true, true⟩, ⟨systemProgramId, false, false⟩,
    ⟨alice, false, false⟩, ⟨vault, false, false⟩] (initializeMultisigTag ++ jointHash.bytes ++ [1, 2])

/-- The vault approves the first proposal of the second multisig: a message that calls the
program itself. -/
def approval : TransactionMessage where
  numSigners := 1
  numWritableSigners := 1
  numWritableNonSigners := 1
  accountKeys := [vault, jointFirst, joint, programId]
  instructions := [⟨3, [2, 1, 0], approveTransactionTag ++ leBytes 8 1⟩]
  addressTableLookups := []

/-- `alice` proposes this to the first multisig. -/
def proposeApproval : Command :=
  .submit [⟨multisig, false, true⟩, ⟨transaction, false, true⟩, ⟨alice, true, false⟩,
    ⟨paymaster, true, true⟩, ⟨systemProgramId, false, false⟩]
    (createTransactionTag ++ [0] ++ TransactionMessage.codec.encode approval)

/-- `alice` proposes a transfer of 700 lamports to `carol` to the second multisig. -/
def proposeJoint (address : Pubkey) : Command :=
  .submit [⟨joint, false, true⟩, ⟨address, false, true⟩, ⟨alice, true, false⟩,
    ⟨paymaster, true, true⟩, ⟨systemProgramId, false, false⟩]
    (createTransactionTag ++ [0] ++ TransactionMessage.codec.encode
      { message with accountKeys := [jointVault, carol, systemProgramId] })

/-- Two proposals of the second multisig wait, and one of the first is approved. -/
def preparation : List Command :=
  [register, registerJoint, proposeApproval, approve alice, approve bob, proposeJoint jointFirst,
    proposeJoint jointSecond]

/-- `alice` approves the second proposal of the second multisig. -/
def approveJoint : Command :=
  .submit [⟨joint, false, false⟩, ⟨jointSecond, false, true⟩, ⟨alice, true, false⟩]
    (approveTransactionTag ++ leBytes 8 2)

/-- The paymaster executes it. -/
def executeJoint : Command :=
  .submit [⟨joint, false, false⟩, ⟨jointSecond, false, true⟩, ⟨paymaster, true, true⟩,
    ⟨jointVault, false, true⟩, ⟨carol, false, true⟩, ⟨systemProgramId, false, false⟩]
    (executeTransactionTag ++ leBytes 8 2)

/-- The paymaster executes the proposal of the first multisig. -/
def executeApproval : Command :=
  .submit [⟨multisig, false, false⟩, ⟨transaction, false, true⟩, ⟨paymaster, true, true⟩,
    ⟨vault, false, true⟩, ⟨jointFirst, false, true⟩, ⟨joint, false, false⟩,
    ⟨programId, false, false⟩] (executeTransactionTag ++ leBytes 8 1)

/-- Approve and execute one proposal. -/
def honest : List Command := [approveJoint, executeJoint, .call, .leave, .finish]

/-- Approve one proposal, and execute another. -/
def stray : List Command := [approveJoint, executeApproval, .call, .finish]

theorem preparation_keysOnly : ∀ c ∈ preparation, c.KeysOnly cluster := by
  simp only [preparation, List.forall_mem_cons, List.not_mem_nil, IsEmpty.forall_iff, implies_true,
    and_true]
  refine ⟨?_, ?_, ?_, ?_, ?_, ?_, ?_⟩ <;> exact keysOnly (by decide)

end Example

end SolanaMultisig
