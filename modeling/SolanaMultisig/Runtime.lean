import Mathlib.Logic.Function.Basic
import SolanaMultisig.Lib.Codec
import SolanaMultisig.Lib.Guard
import SolanaMultisig.Error

/-!
# The Solana runtime

What the program stands on: the ledger of accounts, program-derived addresses,
the instructions of the System program it calls, and Anchor's typed accounts
(load at entry, write back at exit, `init`, `close`). The hash, the curve test
and the rent table are parameters (`Env`); everything else computes.
-/

namespace SolanaMultisig

open Wire Guard

/-- An account address. -/
abbrev Pubkey := Bytes32

/-- The bytes of an ASCII text: seeds, tags and markers are written as texts, as in the
source. -/
def ascii (s : String) : List UInt8 := s.toList.map fun c => UInt8.ofNat c.toNat

/-- The System program: 32 zero bytes. -/
def systemProgramId : Pubkey := Bytes32.zero

/-- The cluster the program runs on: what the program cannot compute itself, as parameters
with the few facts about them that proofs need. -/
structure Env where
  /-- the address the program is deployed at -/
  programId : Pubkey
  /-- the hash behind member digests and derived addresses -/
  sha256 : List UInt8 → Bytes32
  /-- is this a point of the Ed25519 curve, that is, can it have a private key? -/
  onCurve : Bytes32 → Bool
  /-- the rent-exempt balance of an account of this size -/
  minimumBalance : ℕ → ℕ
  /-- the rent table computes it in 64 bits, and saturates -/
  minimumBalance_lt : ∀ size, minimumBalance size < 2 ^ 64
  /-- may this foreign program call this one, while an execution of this one is
  under way (`true`) or not (`false`)? -/
  reenters : Pubkey → Bool → Bool
  /-- the program is not the System program -/
  programId_ne : programId ≠ systemProgramId

variable {env : Env}

/-! ## Derived addresses -/

/-- What is hashed for a program-derived address: the seeds without separators, the program
and a marker. Seeds that are cut at other places give the same string. -/
def addressPreimage (seeds : List (List UInt8)) (programId : Pubkey) : List UInt8 :=
  seeds.flatten ++ programId.bytes ++ ascii "ProgramDerivedAddress"

/-- `Pubkey::create_program_address`: a hash that is no curve point. The limits
on seeds (16 of them, 32 bytes each) are met by every call below. -/
def createProgramAddress (env : Env) (seeds : List (List UInt8)) (programId : Pubkey) :
    Option Pubkey :=
  let digest := env.sha256 (addressPreimage seeds programId)
  if env.onCurve digest then none else some digest

theorem createProgramAddress_eq_some {seeds : List (List UInt8)} {programId address : Pubkey}
    (h : createProgramAddress env seeds programId = some address) :
    address = env.sha256 (addressPreimage seeds programId) := by
  unfold createProgramAddress at h
  simp only at h
  split at h
  · cases h
  · exact (Option.some.inj h).symm

/-- The bump seeds in the order they are tried: `255` down to `1`. The loops of Solana and
of web3.js both end before `0`. -/
def bumps : List UInt8 := (List.range 255).map fun i => UInt8.ofNat (255 - i)

/-- `Pubkey::find_program_address`: the first bump that gives an address. With no bump found
the source panics; here the caller decides what that means. -/
def findProgramAddress (env : Env) (seeds : List (List UInt8)) (programId : Pubkey) :
    Option (Pubkey × UInt8) :=
  bumps.findSome? fun bump =>
    (createProgramAddress env (seeds ++ [[bump]]) programId).map fun address => (address, bump)

/-- The bump found is one the address can be signed for with: what a constraint looked up at
creation is what `invoke_signed` recomputes at execution. -/
theorem createProgramAddress_of_find {seeds : List (List UInt8)} {programId : Pubkey}
    {p : Pubkey × UInt8} (h : findProgramAddress env seeds programId = some p) :
    createProgramAddress env (seeds ++ [[p.2]]) programId = some p.1 := by
  obtain ⟨bump, -, hb⟩ := List.exists_of_findSome?_eq_some h
  obtain ⟨address, ha, hp⟩ := Option.map_eq_some_iff.mp hb
  cases hp
  exact ha

/-- `Pubkey::create_with_seed`, for an owner whose address does not end in the marker of
derived addresses. The base has to sign for such an address, here the multisig. -/
def createWithSeed (env : Env) (base : Pubkey) (seed : String) (owner : Pubkey) : Pubkey :=
  env.sha256 (base.bytes ++ ascii seed ++ owner.bytes)

/-! ## Accounts -/

/-- One account of the ledger. The executable flag is left out, as no instruction of the
program reads it. -/
structure Account where
  /-- its balance -/
  lamports : ℕ
  /-- the program that may change it -/
  owner : Pubkey
  /-- its contents -/
  data : List UInt8
  deriving DecidableEq

/-- An address nobody has used, or one that was closed and garbage collected. The runtime
does not tell the two apart. -/
def Account.absent : Account := ⟨0, systemProgramId, []⟩

/-- All accounts by address. A function has no missing addresses: what the runtime does not
store is an absent account. -/
abbrev Ledger := Pubkey → Account

/-- An account as an instruction receives it: its address and the privileges it comes with.
The contents are those of the ledger, so a duplicate in the list is the same account. -/
structure AccountInfo where
  /-- the address -/
  key : Pubkey
  /-- did the owner of the address sign? -/
  isSigner : Bool
  /-- may the instruction change the account? -/
  isWritable : Bool
  deriving DecidableEq

/-- An account as an instruction to be invoked names it. -/
structure AccountMeta where
  /-- the address -/
  pubkey : Pubkey
  /-- must the address have signed? -/
  isSigner : Bool
  /-- may the callee change the account? -/
  isWritable : Bool
  deriving DecidableEq

/-- An instruction to be invoked. -/
structure Instruction where
  /-- the program called -/
  programId : Pubkey
  /-- the accounts it gets, in order -/
  accounts : List AccountMeta
  /-- its input -/
  data : List UInt8
  deriving DecidableEq

/-- An account that holds nothing: the System program can still allocate it. It may have
lamports, as anybody can send some to any address. -/
def Account.Vacant (a : Account) : Prop := a.owner = systemProgramId ∧ a.data = []

instance (a : Account) : Decidable a.Vacant :=
  inferInstanceAs (Decidable (a.owner = systemProgramId ∧ a.data = []))

/-! ## The System program -/

/-- A call may allocate at most this many bytes. The program creates its accounts by calls
to the System program, so a proposal larger than this cannot be created. -/
def maxCpiAllocation : ℕ := 10240

/-- The ledger with lamports moved from one account to another, debit first: a transfer of
an account to itself changes nothing. -/
def transferred (ledger : Ledger) (src dst : Pubkey) (lamports : ℕ) : Ledger :=
  let debited := Function.update ledger src
    { ledger src with lamports := (ledger src).lamports - lamports }
  Function.update debited dst { debited dst with lamports := (debited dst).lamports + lamports }

/-- `SystemProgram::transfer`. The payer must be a plain account that can afford it, and the
balance credited must stay within 64 bits. -/
def systemTransfer (ledger : Ledger) (src dst : Pubkey) (lamports : ℕ) :
    Except ProgramError Ledger := do
  require ((ledger src).data = []) (.runtime .invalidArgument)
  require (lamports ≤ (ledger src).lamports) (.runtime .resultWithNegativeLamports)
  require ((ledger src).owner = systemProgramId) (.runtime .externalAccountLamportSpend)
  let credited := transferred ledger src dst lamports
  require ((credited dst).lamports < 2 ^ 64) (.runtime .arithmeticOverflow)
  pure credited

/-- `SystemProgram::allocate`, called by a program: zeroed space on an account that holds
nothing. The signature it needs is checked by the callers. -/
def systemAllocate (ledger : Ledger) (key : Pubkey) (space : ℕ) : Except ProgramError Ledger := do
  require (ledger key).Vacant (.runtime .accountAlreadyInUse)
  require (space ≤ maxCpiAllocation) (.runtime .invalidRealloc)
  pure (Function.update ledger key { ledger key with data := List.replicate space 0 })

/-- `SystemProgram::assign`, which hands the account to its new owner; only that program can
write to it from then on. -/
def systemAssign (ledger : Ledger) (key owner : Pubkey) : Ledger :=
  Function.update ledger key { ledger key with owner := owner }

/-- `SystemProgram::create_account`: allocate, assign and fund in one. It refuses an address
that has any lamports, which is what the other path of `init` is for. -/
def systemCreateAccount (ledger : Ledger) (src dst : Pubkey) (lamports space : ℕ)
    (owner : Pubkey) : Except ProgramError Ledger := do
  require ((ledger dst).lamports = 0) (.runtime .accountAlreadyInUse)
  let allocated ← systemAllocate ledger dst space
  systemTransfer (systemAssign allocated dst owner) src dst lamports

/-- The ledgers agree on who owns `k` and what it holds; balances may differ. Everything the
program reads of an account is preserved by this relation. -/
def SameContents (ledger ledger' : Ledger) (k : Pubkey) : Prop :=
  (ledger' k).owner = (ledger k).owner ∧ (ledger' k).data = (ledger k).data

theorem SameContents.refl (ledger : Ledger) (k : Pubkey) : SameContents ledger ledger k :=
  ⟨rfl, rfl⟩

theorem SameContents.symm {l l' : Ledger} {k : Pubkey} (h : SameContents l l' k) :
    SameContents l' l k :=
  ⟨h.1.symm, h.2.symm⟩

theorem SameContents.trans {l₁ l₂ l₃ : Ledger} {k : Pubkey} (h : SameContents l₁ l₂ k)
    (h' : SameContents l₂ l₃ k) : SameContents l₁ l₃ k :=
  ⟨h'.1.trans h.1, h'.2.trans h.2⟩

theorem SameContents.of_eq {ledger ledger' : Ledger} {k : Pubkey} (he : ledger' k = ledger k) :
    SameContents ledger ledger' k := by
  rw [SameContents, he]
  exact ⟨rfl, rfl⟩

/-- Crediting or debiting an account leaves its contents. -/
theorem sameContents_update_lamports (ledger : Ledger) (key k : Pubkey) (lamports : ℕ) :
    SameContents ledger
      (Function.update ledger key { ledger key with lamports := lamports }) k := by
  by_cases hk : k = key
  · subst hk
    simp [SameContents]
  · simp [SameContents, hk]

theorem transferred_of_ne {ledger : Ledger} {src dst k : Pubkey} (lamports : ℕ) (hsrc : k ≠ src)
    (hdst : k ≠ dst) : transferred ledger src dst lamports k = ledger k := by
  simp [transferred, hsrc, hdst]

theorem lamports_transferred {ledger : Ledger} {src dst : Pubkey} (lamports : ℕ)
    (hne : src ≠ dst) :
    (transferred ledger src dst lamports dst).lamports = (ledger dst).lamports + lamports := by
  simp [transferred, hne.symm]

/-- When a transfer succeeds, and what it leaves: a funded payer without data, and a balance
at the other end that stays within 64 bits. -/
theorem systemTransfer_eq_ok {ledger ledger' : Ledger} {src dst : Pubkey} {lamports : ℕ} :
    systemTransfer ledger src dst lamports = .ok ledger' ↔
      (ledger src).Vacant ∧ lamports ≤ (ledger src).lamports ∧
        (transferred ledger src dst lamports dst).lamports < 2 ^ 64 ∧
          transferred ledger src dst lamports = ledger' := by
  simp only [systemTransfer, bind_eq_ok, require_eq_ok, pure_eq_ok, Account.Vacant]
  constructor
  · rintro ⟨-, hdata, -, hle, -, howner, -, hlt, rfl⟩
    exact ⟨⟨howner, hdata⟩, hle, hlt, rfl⟩
  · rintro ⟨⟨howner, hdata⟩, hle, hlt, rfl⟩
    exact ⟨(), hdata, (), hle, (), howner, (), hlt, rfl⟩

/-- A transfer moves balances and nothing else, so no account of the program's types appears
or disappears by one. -/
theorem systemTransfer_sameContents {ledger ledger' : Ledger} {src dst : Pubkey} {lamports : ℕ}
    (h : systemTransfer ledger src dst lamports = .ok ledger') (k : Pubkey) :
    SameContents ledger ledger' k := by
  obtain ⟨-, -, -, rfl⟩ := systemTransfer_eq_ok.mp h
  exact (sameContents_update_lamports ledger src k _).trans
    (sameContents_update_lamports _ dst k _)

theorem systemAllocate_eq_ok {ledger ledger' : Ledger} {key : Pubkey} {space : ℕ} :
    systemAllocate ledger key space = .ok ledger' ↔
      (ledger key).Vacant ∧ space ≤ maxCpiAllocation ∧
        Function.update ledger key { ledger key with data := List.replicate space 0 } =
          ledger' := by
  simp only [systemAllocate, bind_eq_ok, require_eq_ok, pure_eq_ok]
  constructor
  · rintro ⟨-, hv, -, hs, he⟩
    exact ⟨hv, hs, he⟩
  · rintro ⟨hv, hs, he⟩
    exact ⟨(), hv, (), hs, he⟩

/-- What an account looks like right after the System program made it. Both paths of `init`
end here, and so does the creation of a nonce. -/
structure Allocated (ledger ledger' : Ledger) (key owner : Pubkey) (space : ℕ) : Prop where
  /-- it was free -/
  vacant : (ledger key).Vacant
  /-- its size was allowed -/
  space_le : space ≤ maxCpiAllocation
  /-- it has the new owner -/
  owner_eq : (ledger' key).owner = owner
  /-- it is zeroed -/
  data_eq : (ledger' key).data = List.replicate space 0
  /-- no other account changed hands or contents -/
  others : ∀ k, k ≠ key → SameContents ledger ledger' k

/-- Allocating and assigning a free account gives an allocated one. The order of the two
does not matter to the result, but to the checks: `allocate` wants a System account. -/
theorem allocated_of_allocate {ledger allocated : Ledger} {key owner : Pubkey} {space : ℕ}
    (h : systemAllocate ledger key space = .ok allocated) :
    Allocated ledger (systemAssign allocated key owner) key owner space := by
  obtain ⟨hv, hs, rfl⟩ := systemAllocate_eq_ok.mp h
  exact
    { vacant := hv
      space_le := hs
      owner_eq := by simp [systemAssign]
      data_eq := by simp [systemAssign]
      others := fun k hk => by simp [SameContents, systemAssign, hk] }

/-- Balances may move before and after: the payer's transfer comes first on one path and
last on the other. -/
theorem Allocated.of_sameContents {l₁ l₂ l₃ l₄ : Ledger} {key owner : Pubkey} {space : ℕ}
    (h : Allocated l₂ l₃ key owner space) (hb : ∀ k, SameContents l₁ l₂ k)
    (ha : ∀ k, SameContents l₃ l₄ k) : Allocated l₁ l₄ key owner space where
  vacant := ⟨(hb key).1 ▸ h.vacant.1, (hb key).2 ▸ h.vacant.2⟩
  space_le := h.space_le
  owner_eq := (ha key).1.trans h.owner_eq
  data_eq := (ha key).2.trans h.data_eq
  others := fun k hk => ((hb k).trans (h.others k hk)).trans (ha k)

theorem systemCreateAccount_allocated {ledger ledger' : Ledger} {src dst owner : Pubkey}
    {lamports space : ℕ} (h : systemCreateAccount ledger src dst lamports space owner = .ok ledger') :
    Allocated ledger ledger' dst owner space := by
  simp only [systemCreateAccount, bind_eq_ok, require_eq_ok] at h
  obtain ⟨-, -, allocated, ha, ht⟩ := h
  exact (allocated_of_allocate ha).of_sameContents (SameContents.refl ledger)
    (systemTransfer_sameContents ht)

end SolanaMultisig
