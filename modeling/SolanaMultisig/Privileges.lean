import SolanaMultisig.Interpreter

/-!
# What a call may do

Validation happens at creation, the privileges of a call are computed at
execution. Together they leave no room: for an accepted message and matching
accounts no check of the execution fails, only the vault signs, and exactly the
declared block of keys is writable (`execute_privileges`).
-/

namespace SolanaMultisig

open Wire Guard

variable {env : Env}

/-- `create_transaction` accepts the message for this vault of the multisig and stores `t`,
for some creator and payer, who do not matter to the message. -/
def CreateAccepts (env : Env) (multisigKey : Pubkey) (vaultIndex : UInt8)
    (message : TransactionMessage) (t : VaultTransaction) : Prop :=
  ∃ m m' creator payer bump,
    createTransaction env multisigKey m creator payer bump vaultIndex message = .ok (m', t)

/-- An accepted message is valid for the vault whose bump is stored, and is the one stored.
-/
theorem CreateAccepts.valid {multisigKey : Pubkey} {vaultIndex : UInt8}
    {message : TransactionMessage} {t : VaultTransaction}
    (h : CreateAccepts env multisigKey vaultIndex message t) :
    t.multisig = multisigKey ∧ t.vaultIndex = vaultIndex ∧ t.message = message ∧
      ∃ vault, deriveVaultPda env multisigKey vaultIndex = some (vault, t.vaultBump) ∧
        ValidMessage message vault := by
  obtain ⟨m, m', creator, payer, bump, hcreate⟩ := h
  obtain ⟨-, -, ⟨vault, hvault, hvalid⟩, -, ht⟩ := createTransaction_eq_ok hcreate
  have hmultisig : t.multisig = multisigKey := by rw [ht]
  have hindex : t.vaultIndex = vaultIndex := by rw [ht]
  have hmessage : t.message = message := by rw [ht]
  rw [hmultisig, hindex] at hvault
  rw [hmessage] at hvalid
  exact ⟨hmultisig, hindex, hmessage, vault, hvault, hvalid⟩

/-- The privileges of a call, as the message declares them. -/
structure Cpi.Restricted (cpi : Cpi) (message : TransactionMessage) (vault : Pubkey) : Prop where
  /-- the vault, and nobody else, signs -/
  signer_iff : ∀ account ∈ cpi.instruction.accounts,
    account.isSigner = true ↔ account.pubkey = vault
  /-- the vault is writable -/
  vault_writable : ∀ account ∈ cpi.instruction.accounts, account.pubkey = vault →
    account.isWritable = true
  /-- another account is writable exactly when its key is in the declared block -/
  writable_iff : ∀ account ∈ cpi.instruction.accounts, account.pubkey ≠ vault →
    (account.isWritable = true ↔
      ∃ i, 1 ≤ i ∧ i ≤ message.numWritableNonSigners.toNat ∧
        message.accountKeys[i]? = some account.pubkey)
  /-- every account is passed under its own key, and the program comes last -/
  infos_eq : cpi.accountInfos.map AccountInfo.key =
    cpi.instruction.accounts.map AccountMeta.pubkey ++ [cpi.instruction.programId]
  /-- the vault is no program -/
  program_ne : cpi.instruction.programId ≠ vault

/-- The instruction a valid message stands for is restricted: signers and writable keys are
what the header of the message says, and no more. -/
theorem ValidMessage.restricted {message : TransactionMessage} {vault : Pubkey} {cpi : Cpi}
    {ix : CompiledInstruction} (hvalid : ValidMessage message vault)
    (hix : ix ∈ message.instructions) (hcpi : cpi.instruction = message.instruction ix)
    (hinfos : cpi.accountInfos.map AccountInfo.key =
      cpi.instruction.accounts.map AccountMeta.pubkey ++ [cpi.instruction.programId]) :
    cpi.Restricted message vault := by
  have hin := hvalid.valid ix hix
  have haccount : ∀ account ∈ cpi.instruction.accounts, ∃ i : UInt8,
      i.toNat < message.accountKeys.length ∧ account = message.accountMeta i := by
    rw [hcpi]
    intro account hmem
    obtain ⟨i, hi, rfl⟩ := List.mem_map.mp hmem
    exact ⟨i, hin.account_lt i hi, rfl⟩
  -- keys are distinct, so only the first slot is the vault's
  have hzero : ∀ i : UInt8, i.toNat < message.accountKeys.length → message.key i = vault →
      i.toNat = 0 := by
    intro i hi hkey
    have hget := TransactionMessage.getElem?_of_lt hi
    rw [hkey, ← hvalid.vault_first] at hget
    exact (List.getElem?_inj hi hvalid.nodup).mp hget
  refine
    { signer_iff := ?_
      vault_writable := ?_
      writable_iff := ?_
      infos_eq := hinfos
      program_ne := ?_ }
  · intro account hmem
    obtain ⟨i, hi, rfl⟩ := haccount account hmem
    exact hvalid.isSigner_iff hi
  · intro account hmem hkey
    obtain ⟨i, hi, rfl⟩ := haccount account hmem
    refine (hvalid.isWritable_iff i.toNat).mpr ?_
    rw [hzero i hi hkey]
    exact Nat.zero_le _
  · intro account hmem hkey
    obtain ⟨i, hi, rfl⟩ := haccount account hmem
    have hget := TransactionMessage.getElem?_of_lt hi
    have hpos : 1 ≤ i.toNat := by
      by_contra hzero'
      have h0 : i.toNat = 0 := by omega
      rw [h0, hvalid.vault_first] at hget
      exact hkey (Option.some.inj hget).symm
    refine (hvalid.isWritable_iff i.toNat).trans ⟨fun hle => ⟨i.toNat, hpos, hle, hget⟩, ?_⟩
    rintro ⟨j, -, hj, hgetj⟩
    have hij : i.toNat = j := by
      refine (List.getElem?_inj hi hvalid.nodup).mp ?_
      rw [hget, hgetj]
      rfl
    exact hij ▸ hj
  · rw [hcpi]
    intro hkey
    have h0 := hzero ix.programIdIndex hin.program_lt hkey
    have h1 := hin.one_le_program
    omega

/-- **No inner instruction borrows a signature.** Let `create_transaction` have
accepted the message for vault `vaultIndex` and stored `t`, and let the remaining
accounts pass the length and key checks of `execute_transaction`. Then every
other check passes and every call can be built; it is signed with seeds that
derive exactly the vault, and its privileges are the declared ones. -/
theorem execute_privileges {multisigKey : Pubkey} {vaultIndex : UInt8}
    {message : TransactionMessage} {t : VaultTransaction}
    (hcreate : CreateAccepts env multisigKey vaultIndex message t)
    {remaining : List AccountInfo} {combined : List Pubkey}
    (hkeys : matchKeys message.accountKeys remaining = .ok combined) :
    resolveAccounts t.message remaining = .ok combined ∧
    ∃ vault, deriveVaultPda env multisigKey vaultIndex = some (vault, t.vaultBump) ∧
      ∀ (multisig : AccountInfo), multisig.key = multisigKey →
      ∀ compiled ∈ t.message.instructions, ∃ cpi,
        compileCpi t.message combined multisig remaining (vaultSignerSeeds multisig.key t)
          compiled = .ok cpi ∧
        createProgramAddress env cpi.signerSeeds env.programId = some vault ∧
        cpi.Restricted message vault := by
  obtain ⟨-, hindex, hmessage, vault, hvault, hvalid⟩ := hcreate.valid
  have hcap : message.accountKeys.length ≤ maxCombinedAccounts :=
    hvalid.keys_le.trans (by decide)
  obtain ⟨rfl, hmatch⟩ := matchKeys_eq_ok.mp hkeys
  rw [hmessage]
  refine ⟨resolveAccounts_eq_ok.mpr ⟨hcap, rfl, hmatch⟩, vault, hvault, ?_⟩
  intro multisig hkey compiled hcompiled
  obtain ⟨cpi, hcpi⟩ :=
    compileCpi_of_valid multisig (vaultSignerSeeds multisig.key t) hvalid hcompiled hmatch
  obtain ⟨hinstruction, hseeds, hinfos⟩ := compileCpi_eq_ok hmatch hcpi
  refine ⟨cpi, hcpi, ?_, hvalid.restricted hcompiled hinstruction hinfos⟩
  rw [hseeds, hkey, vaultSignerSeeds, hindex]
  exact createProgramAddress_of_find hvault

/-- The creation of the example is accepted. -/
theorem Example.create_accepts : CreateAccepts Example.cluster Example.multisig 0 Example.message
    Example.record :=
  ⟨⟨[Example.alice, Example.bob], 2, 0, 255⟩, ⟨[Example.alice, Example.bob], 2, 1, 255⟩,
    Example.alice, Example.paymaster, 255, by decide +kernel⟩

/-- The message of the example, accepted and matched. -/
theorem execute_privileges_example :
    resolveAccounts Example.record.message Example.remaining =
        .ok [Example.vault, Example.carol, systemProgramId] ∧
      ∃ vault, deriveVaultPda Example.cluster Example.multisig 0 = some (vault, 255) ∧
        ∀ (multisig : AccountInfo), multisig.key = Example.multisig →
        ∀ compiled ∈ Example.message.instructions, ∃ cpi,
          compileCpi Example.message [Example.vault, Example.carol, systemProgramId] multisig
            Example.remaining (vaultSignerSeeds multisig.key Example.record) compiled = .ok cpi ∧
          createProgramAddress Example.cluster cpi.signerSeeds Example.cluster.programId =
            some vault ∧
          cpi.Restricted Example.message vault := by
  have hkeys : matchKeys Example.message.accountKeys Example.remaining =
      .ok [Example.vault, Example.carol, systemProgramId] := by
    decide +kernel
  exact execute_privileges Example.create_accepts hkeys

end SolanaMultisig
