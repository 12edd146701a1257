import SolanaMultisig.Lib.Scan
import SolanaMultisig.State

/-!
# Addresses of the program

The seeds of multisigs, vaults and proposals, and why their addresses do not
clash: every string the program hashes is one of five kinds, the bytes determine
the kind and its arguments (`preimage_injective`), so two addresses can only
coincide when the hash collides.
-/

namespace SolanaMultisig

open Wire

variable {env : Env}

/-! ## Seeds -/

/-- `b"multisig"`, the first seed of every multisig. It has eight letters, `b"vault"` five
and `b"transaction"` eleven, so the kinds differ in the length of what is hashed. -/
def multisigSeed : List UInt8 := ascii "multisig"

/-- `VAULT_PDA_SEED`. -/
def vaultPdaSeed : List UInt8 := ascii "vault"

/-- `b"transaction"`. -/
def transactionSeed : List UInt8 := ascii "transaction"

/-- `NONCE_SEED`, a string here and not a byte slice: the nonce is derived with
`create_with_seed` from the multisig, not from seeds and a bump. -/
def nonceSeed : String := "nonce"

/-- Seeds of a multisig: the digest of the sorted members and the threshold. Whoever
initializes with other inputs lands at another address, which is why registration can be
left open to everybody. -/
def multisigSeeds (memberHash : Bytes32) (threshold : UInt8) : List (List UInt8) :=
  [multisigSeed, memberHash.bytes, [threshold]]

/-- Seeds of a vault: its multisig and a one-byte index. A multisig has 256 vaults, and none
of them has an account of the program behind it. -/
def vaultSeeds (multisig : Pubkey) (vaultIndex : UInt8) : List (List UInt8) :=
  [vaultPdaSeed, multisig.bytes, [vaultIndex]]

/-- Seeds of a proposal: its multisig and its index as eight little-endian bytes, so the
counter of the multisig alone names the address of the next proposal. -/
def transactionSeeds (multisig : Pubkey) (transactionIndex : UInt64) : List (List UInt8) :=
  [transactionSeed, multisig.bytes, leBytes 8 transactionIndex.toNat]

/-- Sort members for deterministic derivation: by their bytes, as the derived order of
`Pubkey` does, so that the list a caller passes may come in any order. -/
def sortMembers (members : List Pubkey) : List Pubkey := Scan.sorted members

/-- Hash members for PDA seeds. The keys are fed one behind the other without a length;
since each has 32 bytes, the string hashed still determines the list. -/
def hashMembers (env : Env) (members : List Pubkey) : Bytes32 :=
  env.sha256 (members.flatMap Bytes32.bytes)

/-- Derive multisig PDA from members and threshold. -/
def deriveMultisigPda (env : Env) (members : List Pubkey) (threshold : UInt8) :
    Option (Pubkey × UInt8) :=
  findProgramAddress env (multisigSeeds (hashMembers env (sortMembers members)) threshold)
    env.programId

/-- Derive a vault PDA for the given multisig and vault index. -/
def deriveVaultPda (env : Env) (multisig : Pubkey) (vaultIndex : UInt8) :
    Option (Pubkey × UInt8) :=
  findProgramAddress env (vaultSeeds multisig vaultIndex) env.programId

/-- Derive the address of a proposal, as the `seeds = [..]` constraints of the four account
structs do; the source has no function of this name for it. -/
def deriveTransactionPda (env : Env) (multisig : Pubkey) (transactionIndex : UInt64) :
    Option (Pubkey × UInt8) :=
  findProgramAddress env (transactionSeeds multisig transactionIndex) env.programId

/-! ## What is hashed -/

/-- Something the program hashes, by kind. The three addresses carry the bump with which
they were found; the digest of members and the nonce have none. -/
inductive Derivation where
  /-- the digest of a member list -/
  | members (keys : List Pubkey)
  /-- the address of a multisig -/
  | multisig (memberHash : Bytes32) (threshold bump : UInt8)
  /-- the address of a vault -/
  | vault (multisig : Pubkey) (vaultIndex bump : UInt8)
  /-- the address of a proposal -/
  | transaction (multisig : Pubkey) (transactionIndex : UInt64) (bump : UInt8)
  /-- the address of a durable nonce -/
  | nonce (multisig : Pubkey)
  deriving DecidableEq

/-- The bytes that are hashed. An address is the hash of its seeds, the bump, the program id
and a marker; a nonce that of its base, the seed's text and the owner. -/
def Derivation.preimage (programId : Pubkey) : Derivation → List UInt8
  | .members keys => keys.flatMap Bytes32.bytes
  | .multisig memberHash threshold bump =>
      addressPreimage (multisigSeeds memberHash threshold ++ [[bump]]) programId
  | .vault owner vaultIndex bump =>
      addressPreimage (vaultSeeds owner vaultIndex ++ [[bump]]) programId
  | .transaction owner transactionIndex bump =>
      addressPreimage (transactionSeeds owner transactionIndex ++ [[bump]]) programId
  | .nonce owner => owner.bytes ++ ascii nonceSeed ++ systemProgramId.bytes

/-- The digest of a derivation. -/
def Derivation.digest (env : Env) (d : Derivation) : Bytes32 :=
  env.sha256 (d.preimage env.programId)

theorem length_flatMap_bytes (keys : List Pubkey) :
    (keys.flatMap Bytes32.bytes).length = 32 * keys.length := by
  induction keys with
  | nil => rfl
  | cons k keys ih =>
    rw [List.flatMap_cons, List.length_append, ih, Bytes32.length_bytes, List.length_cons]
    omega

/-- The length of a preimage tells its kind: only member lists have a multiple of
32 bytes, and the other four differ. -/
theorem length_preimage (programId : Pubkey) (d : Derivation) :
    (d.preimage programId).length =
      match d with
      | .members keys => 32 * keys.length
      | .multisig .. => 95
      | .vault .. => 92
      | .transaction .. => 105
      | .nonce _ => 69 := by
  cases d with
  | members keys => exact length_flatMap_bytes keys
  | multisig memberHash threshold bump =>
    simp [Derivation.preimage, addressPreimage, multisigSeeds, multisigSeed, ascii]
  | vault owner vaultIndex bump =>
    simp [Derivation.preimage, addressPreimage, vaultSeeds, vaultPdaSeed, ascii]
  | transaction owner transactionIndex bump =>
    simp [Derivation.preimage, addressPreimage, transactionSeeds, transactionSeed, ascii]
  | nonce owner => simp [Derivation.preimage, nonceSeed, ascii]

/-- Four seeds, of which the first has a fixed text and the next two fixed widths, can be
read back from the bytes hashed: nothing in the string says where a seed ends, the widths
do. -/
theorem addressPreimage_inj {tag a a' b b' c c' : List UInt8} {programId : Pubkey}
    (h : addressPreimage [tag, a, b, c] programId = addressPreimage [tag, a', b', c'] programId)
    (hab : a.length = a'.length) (hbc : b.length = b'.length) :
    a = a' ∧ b = b' ∧ c = c' := by
  simp only [addressPreimage, List.append_cancel_right_eq, List.flatten_cons, List.flatten_nil,
    List.append_nil, List.append_cancel_left_eq] at h
  obtain ⟨ha, hbc'⟩ := List.append_inj h hab
  obtain ⟨hb, hc⟩ := List.append_inj hbc' hbc
  exact ⟨ha, hb, hc⟩

/-- **What is hashed determines what it was hashed for.** The length tells the kind, and
within one kind every part but the last has a fixed width. So two derivations of the program
that agree on an address agree altogether, or the hash collides. -/
theorem preimage_injective (programId : Pubkey) :
    Function.Injective (Derivation.preimage programId) := by
  intro d e h
  -- preimages of different kinds have different lengths
  have hlen := congrArg List.length h
  rw [length_preimage, length_preimage] at hlen
  cases d with
  | members keys =>
    cases e with
    | members keys' => rw [flatMap_bytes_injective h]
    | multisig | vault | transaction | nonce => dsimp only at hlen; omega
  | multisig memberHash threshold bump =>
    cases e with
    | multisig memberHash' threshold' bump' =>
      change addressPreimage [multisigSeed, memberHash.bytes, [threshold], [bump]] programId =
        addressPreimage [multisigSeed, memberHash'.bytes, [threshold'], [bump']] programId at h
      obtain ⟨ha, hb, hc⟩ := addressPreimage_inj h (by simp) rfl
      obtain rfl := Bytes32.ext ha
      cases hb
      cases hc
      rfl
    | members | vault | transaction | nonce => dsimp only at hlen; omega
  | vault owner vaultIndex bump =>
    cases e with
    | vault owner' vaultIndex' bump' =>
      change addressPreimage [vaultPdaSeed, owner.bytes, [vaultIndex], [bump]] programId =
        addressPreimage [vaultPdaSeed, owner'.bytes, [vaultIndex'], [bump']] programId at h
      obtain ⟨ha, hb, hc⟩ := addressPreimage_inj h (by simp) rfl
      obtain rfl := Bytes32.ext ha
      cases hb
      cases hc
      rfl
    | members | multisig | transaction | nonce => dsimp only at hlen; omega
  | transaction owner transactionIndex bump =>
    cases e with
    | transaction owner' transactionIndex' bump' =>
      change addressPreimage [transactionSeed, owner.bytes, leBytes 8 transactionIndex.toNat,
          [bump]] programId = addressPreimage [transactionSeed, owner'.bytes,
          leBytes 8 transactionIndex'.toNat, [bump']] programId at h
      obtain ⟨ha, hb, hc⟩ := addressPreimage_inj h (by simp) (by simp)
      obtain rfl := Bytes32.ext ha
      have hindex := leBytes_inj transactionIndex.toNat_lt transactionIndex'.toNat_lt hb
      obtain rfl := UInt64.toNat_inj.mp hindex
      cases hc
      rfl
    | members | multisig | vault | nonce => dsimp only at hlen; omega
  | nonce owner =>
    cases e with
    | nonce owner' =>
      simp only [Derivation.preimage, List.append_cancel_right_eq] at h
      rw [Bytes32.ext h]
    | members | multisig | vault | transaction => dsimp only at hlen; omega

/-- No two of these derivations have the same digest by accident: equal digests come from
equal strings. It is said of a list, the derivations a statement is about, since no hash
function has the property for all strings at once. -/
def CollisionFree (env : Env) (ds : List Derivation) : Prop :=
  ∀ d ∈ ds, ∀ e ∈ ds, d.digest env = e.digest env →
    d.preimage env.programId = e.preimage env.programId

instance (ds : List Derivation) : Decidable (CollisionFree env ds) :=
  inferInstanceAs (Decidable (∀ d ∈ ds, ∀ e ∈ ds, d.digest env = e.digest env →
    d.preimage env.programId = e.preimage env.programId))

/-- Among derivations free of collisions the digest determines the derivation: equal digests
give equal strings, and those determine what was hashed. -/
theorem CollisionFree.eq {ds : List Derivation} (hcf : CollisionFree env ds) {d e : Derivation}
    (hd : d ∈ ds) (he : e ∈ ds) (h : d.digest env = e.digest env) : d = e :=
  preimage_injective env.programId (hcf d hd e he h)

theorem CollisionFree.mono {ds es : List Derivation} (hcf : CollisionFree env es)
    (hsub : ds ⊆ es) : CollisionFree env ds :=
  fun d hd e he h => hcf d (hsub hd) e (hsub he) h

/-! ## Addresses are digests -/

/-- The address of a multisig is the digest of its derivation, at the bump that was found.
-/
theorem multisigAddress_eq {memberHash : Bytes32} {threshold : UInt8} {p : Pubkey × UInt8}
    (h : findProgramAddress env (multisigSeeds memberHash threshold) env.programId = some p) :
    p.1 = (Derivation.multisig memberHash threshold p.2).digest env :=
  createProgramAddress_eq_some (createProgramAddress_of_find h)

theorem vaultAddress_eq {multisig : Pubkey} {vaultIndex : UInt8} {p : Pubkey × UInt8}
    (h : deriveVaultPda env multisig vaultIndex = some p) :
    p.1 = (Derivation.vault multisig vaultIndex p.2).digest env :=
  createProgramAddress_eq_some (createProgramAddress_of_find h)

theorem transactionAddress_eq {multisig : Pubkey} {transactionIndex : UInt64} {p : Pubkey × UInt8}
    (h : deriveTransactionPda env multisig transactionIndex = some p) :
    p.1 = (Derivation.transaction multisig transactionIndex p.2).digest env :=
  createProgramAddress_eq_some (createProgramAddress_of_find h)

end SolanaMultisig
