import SolanaMultisig.Landing
import SolanaMultisig.Privileges
import SolanaMultisig.Sdk.Completeness

/-!
# From the client's instructions to the calls of the vault

The client compiles, the program stores and an execution interprets. Whenever the
program accepts what the client built from a list of instructions, executing the
proposal issues exactly this list, with the privileges of the vault; and it accepts
every list within the limits (`built_message_executes`).
-/

namespace SolanaMultisig

open Wire Guard Sdk

variable {env : Env}

/-- Executions of `t` issue the instructions of the list, in order: whatever accounts the
executor passes, and in every run. -/
structure IssuesInstructions (env : Env) (multisigKey vault : Pubkey)
    (instructions : List Instruction) (t : VaultTransaction) : Prop where
  /-- with any accounts that match the stored keys, every call can be built, and the
  calls are the instructions -/
  executes : ∀ remaining combined, matchKeys t.message.accountKeys remaining = .ok combined →
    ∀ multisig : AccountInfo, multisig.key = multisigKey →
      ∃ cpis, List.Forall₂
        (fun compiled cpi => compileCpi t.message combined multisig remaining
          (vaultSignerSeeds multisig.key t) compiled = .ok cpi) t.message.instructions cpis ∧
        cpis.map Cpi.instruction = instructions.map (issuedAs vault instructions)
  /-- in every run the calls issued are the first of them, and all of them in the end -/
  runs : ∀ s, Reachable env s → DistinctAddresses env s.history →
    ∀ address, recordAt s.history address = some t →
      Runs s.history address (instructions.map (issuedAs vault instructions))

/-- A valid message runs through once the keys are matched: one call is built for each
instruction, and they are the calls it stands for. -/
theorem ValidMessage.executes {message : TransactionMessage} {vault : Pubkey}
    (hvalid : ValidMessage message vault) {remaining : List AccountInfo} {combined : List Pubkey}
    (hkeys : matchKeys message.accountKeys remaining = .ok combined) (multisig : AccountInfo)
    (seeds : List (List UInt8)) :
    ∃ cpis, List.Forall₂
      (fun compiled cpi => compileCpi message combined multisig remaining seeds compiled = .ok cpi)
      message.instructions cpis ∧ cpis.map Cpi.instruction = message.calls := by
  obtain ⟨rfl, hmatch⟩ := matchKeys_eq_ok.mp hkeys
  obtain ⟨cpis, hcpis⟩ :=
    collect_isOk fun compiled hix => compileCpi_of_valid multisig seeds hvalid hix hmatch
  rw [collect_eq_ok] at hcpis
  refine ⟨cpis, hcpis, ?_⟩
  rw [TransactionMessage.calls, eq_comm, ← List.forall₂_eq_eq_eq, List.forall₂_map_left_iff,
    List.forall₂_map_right_iff]
  exact hcpis.imp fun compiled cpi hcpi => (compileCpi_eq_ok hmatch hcpi).1.symm

/-- **Compiling and executing are inverse.** Let the client build a message from a
list of instructions for some vault, and let `create_transaction` accept it and store
`t`. Then every execution of `t` issues one call per instruction, in order: the same
program, data and accounts, the vault as a writable signer, every other account as a
non-signer, writable exactly when some instruction of the list marks it writable.
And every list within the limits is accepted. -/
theorem built_message_executes (env : Env) :
    (∀ multisigKey vaultIndex vault instructions built message t,
      buildMessageFromInstructions vault instructions = .ok built → built.onchain = .ok message →
      CreateAccepts env multisigKey vaultIndex message t →
        IssuesInstructions env multisigKey vault instructions t) ∧
    ∀ vault instructions, Proposable vault instructions →
      ∃ built message, buildMessageFromInstructions vault instructions = .ok built ∧
        built.onchain = .ok message ∧ validateMessage message vault = .ok () := by
  refine ⟨?_, fun vault instructions => validateMessage_of_proposable⟩
  intro multisigKey vaultIndex vault instructions built message t hbuild honchain hcreate
  obtain ⟨-, -, hmessage, vault', -, hvalid⟩ := hcreate.valid
  obtain ⟨rfl, hcalls⟩ := calls_of_buildMessageFromInstructions hbuild honchain hvalid
  constructor
  · rintro remaining combined hkeys multisig -
    rw [hmessage] at hkeys ⊢
    rw [← hcalls]
    exact hvalid.executes hkeys multisig _
  · intro s hs hcf address hrecord
    rw [← hcalls, ← hmessage]
    exact (refines_of_reachable hs hcf).legal.runs hrecord

namespace Example

/-- A transfer of 700 lamports from the vault to `carol`, as the client writes it, with the
vault marked as the signer. -/
def transfer : Instruction where
  programId := systemProgramId
  accounts := [⟨vault, true, true⟩, ⟨carol, false, true⟩]
  data := leBytes 4 2 ++ leBytes 8 700

/-- The client builds the message of the example. -/
theorem build_transfer : ∃ built,
    buildMessageFromInstructions vault [transfer] = .ok built ∧ built.onchain = .ok message := by
  refine ⟨⟨1, 1, 1, [vault, carol, systemProgramId],
    [⟨2, [0, 1], leBytes 4 2 ++ leBytes 8 700⟩], []⟩, ?_, ?_⟩ <;> decide +kernel

/-- A payroll: a memo, a refund to the paymaster and two payments. The transfers share the
vault and the System program. -/
def payroll : List Instruction :=
  [memoInstruction "june", transferInstruction vault paymaster 10,
    transferInstruction vault bob 300, transferInstruction vault carol 700]

/-- Its message: each account once, the vault first, then the accounts that are credited. -/
def payrollMessage : TransactionMessage where
  numSigners := 1
  numWritableSigners := 1
  numWritableNonSigners := 3
  accountKeys := [vault, paymaster, bob, carol, memoProgramId, systemProgramId]
  instructions :=
    [⟨4, [], [106, 117, 110, 101]⟩, ⟨5, [0, 1], leBytes 4 2 ++ leBytes 8 10⟩,
      ⟨5, [0, 2], leBytes 4 2 ++ leBytes 8 300⟩, ⟨5, [0, 3], leBytes 4 2 ++ leBytes 8 700⟩]
  addressTableLookups := []

theorem build_payroll : ∃ built,
    buildMessageFromInstructions vault payroll = .ok built ∧
      built.onchain = .ok payrollMessage := by
  refine ⟨⟨1, 1, 3, payrollMessage.accountKeys,
    [⟨4, [], [106, 117, 110, 101]⟩, ⟨5, [0, 1], leBytes 4 2 ++ leBytes 8 10⟩,
      ⟨5, [0, 2], leBytes 4 2 ++ leBytes 8 300⟩, ⟨5, [0, 3], leBytes 4 2 ++ leBytes 8 700⟩],
    []⟩, ?_, ?_⟩ <;> decide +kernel

/-- The proposal of the payroll as stored. -/
def payrollRecord : VaultTransaction := { record with message := payrollMessage }

theorem payroll_accepts : CreateAccepts cluster multisig 0 payrollMessage payrollRecord :=
  ⟨⟨[alice, bob], 2, 0, 255⟩, ⟨[alice, bob], 2, 1, 255⟩, alice, paymaster, 255, by decide +kernel⟩

theorem payroll_proposable : Proposable vault payroll where
  instructions_ne := by decide
  instructions_le := by decide
  accounts_le := by decide +kernel
  accounts_le_each := by decide
  data_le_each := by decide +kernel
  signer_eq := by decide +kernel
  program_ne := by decide +kernel

end Example

/-- The payroll of the example is accepted, and its proposal pays it out. -/
theorem built_message_executes_example :
    IssuesInstructions Example.cluster Example.multisig Example.vault Example.payroll
      Example.payrollRecord ∧
    ∃ built message, buildMessageFromInstructions Example.vault Example.payroll = .ok built ∧
      built.onchain = .ok message ∧ validateMessage message Example.vault = .ok () := by
  obtain ⟨built, hbuild, honchain⟩ := Example.build_payroll
  exact ⟨(built_message_executes Example.cluster).1 _ _ _ _ _ _ _ hbuild honchain
    Example.payroll_accepts,
    (built_message_executes Example.cluster).2 _ _ Example.payroll_proposable⟩

end SolanaMultisig
