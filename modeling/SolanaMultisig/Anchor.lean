import SolanaMultisig.Runtime

/-!
# Anchor's typed accounts

An `Account<T>` is checked and deserialized when an instruction starts and, if
it is declared mutable, serialized back when the instruction ends. `Holds` is
what the two ends agree on: `load` succeeds with `a` exactly when the account
holds `a` (`load_eq_ok`), and after `exit` it holds what was written
(`holds_of_exit`).
-/

namespace SolanaMultisig

open Wire Guard

variable {env : Env} {α β : Type}

/-- A struct with `#[account]`: an 8-byte discriminator, then its Borsh encoding. The layout
comes with its codec, whose field says that decoding reads back what was encoded. -/
structure AccountType (α : Type) where
  /-- the first 8 bytes of every such account -/
  discriminator : List UInt8
  /-- there are 8 of them -/
  length_discriminator : discriminator.length = 8
  /-- the layout of the fields -/
  codec : Codec α

namespace AccountType

variable (T : AccountType α)

/-- The serialized account. -/
def bytes (a : α) : List UInt8 := T.discriminator ++ T.codec.encode a

/-- The account at `key` belongs to the program and starts with the encoding of `a`. There
may be unused space behind it: a proposal is sized for the approvals of all members when it
is created, and fills up later. -/
def Holds (env : Env) (ledger : Ledger) (key : Pubkey) (a : α) : Prop :=
  (ledger key).owner = env.programId ∧ T.codec.Fits a ∧
    ∃ spare, (ledger key).data = T.bytes a ++ spare

/-- `Account::<T>::try_from`, its checks in Anchor's order: the account exists, belongs to
the program, has room for a discriminator, carries the right one, and the rest decodes.
Bytes left over are not looked at. -/
def load (env : Env) (ledger : Ledger) (key : Pubkey) : Except ProgramError α := do
  require (¬((ledger key).owner = systemProgramId ∧ (ledger key).lamports = 0))
    (.anchor .accountNotInitialized)
  require ((ledger key).owner = env.programId) (.anchor .accountOwnedByWrongProgram)
  require (8 ≤ (ledger key).data.length) (.anchor .accountDiscriminatorNotFound)
  require ((ledger key).data.take 8 = T.discriminator) (.anchor .accountDiscriminatorMismatch)
  let decoded ← orElse (T.codec.decode ((ledger key).data.drop 8)) (.anchor .accountDidNotDeserialize)
  pure decoded.1

variable {T}

/-- **Loading reads what the account holds.** The five checks pass exactly when the account
holds a value, and the value is then the one loaded: later proofs use `Holds` and never open
the checks again. -/
theorem load_eq_ok {ledger : Ledger} {key : Pubkey} {a : α} :
    T.load env ledger key = .ok a ↔ T.Holds env ledger key a := by
  simp only [load, bind_eq_ok, require_eq_ok, orElse_eq_ok, pure_eq_ok]
  constructor
  · rintro ⟨-, -, -, howner, -, -, -, hdisc, ⟨x, spare⟩, hdec, rfl⟩
    obtain ⟨hfits, hrest⟩ := T.codec.encode_of_decode hdec
    refine ⟨howner, hfits, spare, ?_⟩
    calc (ledger key).data
        = (ledger key).data.take 8 ++ (ledger key).data.drop 8 :=
          (List.take_append_drop 8 _).symm
      _ = T.bytes x ++ spare := by rw [hdisc, hrest, bytes, List.append_assoc]
  · rintro ⟨howner, hfits, spare, hdata⟩
    have hbytes : (ledger key).data = T.discriminator ++ (T.codec.encode a ++ spare) := by
      rw [hdata, bytes, List.append_assoc]
    have htake : (ledger key).data.take 8 = T.discriminator := by
      rw [hbytes, List.take_append_of_le_length (by rw [T.length_discriminator]),
        List.take_of_length_le (by rw [T.length_discriminator])]
    have hdrop : (ledger key).data.drop 8 = T.codec.encode a ++ spare := by
      rw [hbytes, ← T.length_discriminator, List.drop_left]
    refine ⟨(), ?_, (), howner, (), ?_, (), htake, (a, spare), ?_, rfl⟩
    · rintro ⟨hsystem, -⟩
      exact env.programId_ne (howner.symm.trans hsystem)
    · rw [hbytes, List.length_append, T.length_discriminator]
      omega
    · rw [hdrop]
      exact T.codec.decode_encode spare hfits

/-- An account holds at most one value, since the codec reads one value from the bytes,
whatever stands behind it. -/
theorem Holds.unique {ledger : Ledger} {key : Pubkey} {a b : α} (ha : T.Holds env ledger key a)
    (hb : T.Holds env ledger key b) : a = b := by
  have hload := load_eq_ok.mpr ha
  rw [load_eq_ok.mpr hb] at hload
  exact (Except.ok.inj hload).symm

/-- What an account holds depends on its owner and data only. -/
theorem Holds.of_sameContents {l l' : Ledger} {key : Pubkey} {a : α}
    (h : T.Holds env l key a) (hs : SameContents l l' key) : T.Holds env l' key a := by
  obtain ⟨howner, hfits, spare, hdata⟩ := h
  exact ⟨hs.1.trans howner, hfits, spare, hs.2.trans hdata⟩

theorem holds_congr {l l' : Ledger} {key : Pubkey} {a : α} (hs : SameContents l l' key) :
    T.Holds env l' key a ↔ T.Holds env l key a :=
  ⟨fun h => h.of_sameContents hs.symm, fun h => h.of_sameContents hs⟩

/-- An account that holds something starts with the discriminator. -/
theorem Holds.take_data {ledger : Ledger} {key : Pubkey} {a : α}
    (h : T.Holds env ledger key a) : (ledger key).data.take 8 = T.discriminator := by
  obtain ⟨-, -, spare, hdata⟩ := h
  rw [hdata, bytes, List.append_assoc,
    List.take_append_of_le_length (by rw [T.length_discriminator]),
    List.take_of_length_le (by rw [T.length_discriminator])]

/-- Accounts of different types are told apart by their discriminators: what holds a
multisig cannot be loaded as a proposal. -/
theorem Holds.not_of_ne {U : AccountType β} (hne : T.discriminator ≠ U.discriminator)
    {ledger : Ledger} {key : Pubkey} {a : α} {b : β} (ha : T.Holds env ledger key a) :
    ¬U.Holds env ledger key b :=
  fun hb => hne (ha.take_data.symm.trans hb.take_data)

/-- A vacant account holds nothing. -/
theorem Holds.not_vacant {ledger : Ledger} {key : Pubkey} {a : α}
    (h : T.Holds env ledger key a) : ¬(ledger key).Vacant :=
  fun hv => env.programId_ne (h.1.symm.trans hv.1)

/-! ## Writing back -/

variable (T)

/-- `AccountsExit::exit`: write the value over the front of the data, unless the account was
closed meanwhile. The data keeps its length, so a value that outgrew the account fails, and
the runtime refuses the write when the program does not own it. -/
def exit (env : Env) (ledger : Ledger) (key : Pubkey) (a : α) : Except ProgramError Ledger :=
  if (ledger key).Vacant then .ok ledger
  else do
    require (T.codec.Fits a ∧ (T.bytes a).length ≤ (ledger key).data.length)
      (.anchor .accountDidNotSerialize)
    require ((ledger key).owner = env.programId) (.runtime .externalAccountDataModified)
    pure (Function.update ledger key
      { ledger key with data := T.bytes a ++ (ledger key).data.drop (T.bytes a).length })

variable {T}

/-- A closed account is left alone. -/
theorem exit_vacant {ledger : Ledger} {key : Pubkey} {a : α} (h : (ledger key).Vacant) :
    T.exit env ledger key a = .ok ledger := by
  rw [exit, if_pos h]

/-- Writing back the value that is already there changes nothing. This is why the write at
the end of an execution is harmless as long as nobody touched the proposal in between. -/
theorem exit_of_holds {ledger : Ledger} {key : Pubkey} {a : α} (h : T.Holds env ledger key a) :
    T.exit env ledger key a = .ok ledger := by
  have hvacant := h.not_vacant
  obtain ⟨howner, hfits, spare, hdata⟩ := h
  have hdrop : (ledger key).data.drop (T.bytes a).length = spare := by
    rw [hdata, List.drop_left]
  have hsame : Function.update ledger key
      { ledger key with data := T.bytes a ++ (ledger key).data.drop (T.bytes a).length } =
      ledger := by
    rw [hdrop, ← hdata]
    exact Function.update_eq_self key ledger
  rw [exit, if_neg hvacant]
  simp only [bind_eq_ok, require_eq_ok, pure_eq_ok]
  refine ⟨(), ⟨hfits, ?_⟩, (), howner, hsame⟩
  rw [hdata, List.length_append]
  omega

/-- The account was written: what a successful exit leaves behind, of the account itself and
of all others. The invariants use these fields and not the definition of `exit`. -/
structure Written (T : AccountType α) (env : Env) (ledger ledger' : Ledger) (key : Pubkey)
    (a : α) : Prop where
  /-- the program owned it -/
  owner_eq : (ledger key).owner = env.programId
  /-- it holds the value now -/
  holds : T.Holds env ledger' key a
  /-- its balance is unchanged -/
  lamports_eq : (ledger' key).lamports = (ledger key).lamports
  /-- its size is unchanged -/
  length_eq : (ledger' key).data.length = (ledger key).data.length
  /-- every other account is unchanged -/
  others : ∀ k, k ≠ key → ledger' k = ledger k

theorem written_of_exit {ledger ledger' : Ledger} {key : Pubkey} {a : α}
    (hne : ¬(ledger key).Vacant) (h : T.exit env ledger key a = .ok ledger') :
    Written T env ledger ledger' key a := by
  rw [exit, if_neg hne] at h
  simp only [bind_eq_ok, require_eq_ok, pure_eq_ok] at h
  obtain ⟨-, ⟨hfits, hlen⟩, -, howner, rfl⟩ := h
  exact
    { owner_eq := howner
      holds := ⟨by simp [howner], hfits, (ledger key).data.drop (T.bytes a).length, by simp⟩
      lamports_eq := by simp
      length_eq := by
        simp only [Function.update_self, List.length_append, List.length_drop]
        omega
      others := fun k hk => by simp [hk] }

/-- When writing back succeeds: the program owns the account, the value is encodable, and
its encoding fits into the space there is. -/
theorem exit_isOk {ledger : Ledger} {key : Pubkey} {a : α}
    (howner : (ledger key).owner = env.programId) (hfits : T.codec.Fits a)
    (hlen : (T.bytes a).length ≤ (ledger key).data.length) :
    ∃ ledger', T.exit env ledger key a = .ok ledger' := by
  have hne : ¬(ledger key).Vacant := fun hv => env.programId_ne (howner.symm.trans hv.1)
  rw [exit, if_neg hne]
  simp only [bind_eq_ok, require_eq_ok, pure_eq_ok]
  exact ⟨_, (), ⟨hfits, hlen⟩, (), howner, rfl⟩

end AccountType

/-! ## Constraints -/

/-- `Signer<'info>`. -/
def signer (info : AccountInfo) : Except ProgramError Unit :=
  require (info.isSigner = true) (.anchor .accountNotSigner)

/-- `#[account(mut)]`. -/
def mutable (info : AccountInfo) : Except ProgramError Unit :=
  require (info.isWritable = true) (.anchor .constraintMut)

@[simp] theorem signer_eq_ok {info : AccountInfo} {u : Unit} :
    signer info = .ok u ↔ info.isSigner = true := by
  simp [signer]

@[simp] theorem mutable_eq_ok {info : AccountInfo} {u : Unit} :
    mutable info = .ok u ↔ info.isWritable = true := by
  simp [mutable]

/-- `seeds = [..], bump`: the account must be at the derived address; gives the bump. When
no bump is found at all, `find_program_address` panics, which ends the program. -/
def seedsConstraint (env : Env) (key : Pubkey) (seeds : List (List UInt8)) :
    Except ProgramError UInt8 := do
  let derived ← orElse (findProgramAddress env seeds env.programId)
    (.runtime .programFailedToComplete)
  require (key = derived.1) (.anchor .constraintSeeds)
  pure derived.2

theorem seedsConstraint_eq_ok {key : Pubkey} {seeds : List (List UInt8)} {bump : UInt8} :
    seedsConstraint env key seeds = .ok bump ↔
      findProgramAddress env seeds env.programId = some (key, bump) := by
  simp only [seedsConstraint, bind_eq_ok, orElse_eq_ok, require_eq_ok, pure_eq_ok]
  constructor
  · rintro ⟨⟨address, b⟩, hfind, -, rfl, rfl⟩
    exact hfind
  · intro hfind
    exact ⟨(key, bump), hfind, (), rfl, rfl⟩

/-- Bring an account that was given lamports before up to the rent-exempt balance, and
transfer nothing when it already has it. -/
def topUp (env : Env) (ledger : Ledger) (field payer : Pubkey) (space : ℕ) :
    Except ProgramError Ledger :=
  let required := max (env.minimumBalance space) 1 - (ledger field).lamports
  if 0 < required then systemTransfer ledger payer field required else .ok ledger

theorem topUp_sameContents {ledger funded : Ledger} {field payer : Pubkey} {space : ℕ}
    (h : topUp env ledger field payer space = .ok funded) (k : Pubkey) :
    SameContents ledger funded k := by
  simp only [topUp] at h
  split at h
  · exact systemTransfer_sameContents h k
  · cases h
    exact SameContents.refl ledger k

/-- `init, payer = .., space = ..` for an account whose address signs through its seeds:
create it, or, when it was given lamports before, top it up and allocate it in place.
Lamports sent to the address in advance therefore cannot block its creation. -/
def initAccount (env : Env) (ledger : Ledger) (field payer : AccountInfo) (space : ℕ) :
    Except ProgramError Ledger := do
  require (payer.isSigner = true ∧ payer.isWritable = true ∧ field.isWritable = true)
    (.runtime .privilegeEscalation)
  if (ledger field.key).lamports = 0 then
    systemCreateAccount ledger payer.key field.key (env.minimumBalance space) space env.programId
  else do
    require (payer.key ≠ field.key) (.anchor .tryingToInitPayerAsProgramAccount)
    let funded ← topUp env ledger field.key payer.key space
    let allocated ← systemAllocate funded field.key space
    pure (systemAssign allocated field.key env.programId)

/-- An initialized account was free and is now the program's, zeroed, on either path: the
case of a prefunded address costs the payer less and ends in the same state. -/
theorem initAccount_allocated {ledger ledger' : Ledger} {field payer : AccountInfo} {space : ℕ}
    (h : initAccount env ledger field payer space = .ok ledger') :
    Allocated ledger ledger' field.key env.programId space := by
  simp only [initAccount, bind_eq_ok, require_eq_ok] at h
  obtain ⟨-, -, h⟩ := h
  split at h
  · exact systemCreateAccount_allocated h
  · simp only [bind_eq_ok, require_eq_ok, pure_eq_ok] at h
    obtain ⟨-, -, funded, hf, allocated, ha, rfl⟩ := h
    exact (allocated_of_allocate ha).of_sameContents (topUp_sameContents hf)
      (SameContents.refl _)

/-- `close = destination`: refund the balance and give the account back. The sum is checked,
as `checked_add(..).unwrap()` is in Anchor, and the account afterwards belongs to the System
program again. -/
def closeAccount (ledger : Ledger) (key destination : Pubkey) : Except ProgramError Ledger := do
  require ((ledger destination).lamports + (ledger key).lamports < 2 ^ 64)
    (.runtime .programFailedToComplete)
  let refunded := Function.update ledger destination
    { ledger destination with lamports := (ledger destination).lamports + (ledger key).lamports }
  pure (Function.update refunded key Account.absent)

/-- What closing does: the account is gone, its balance is with the destination, and no
other account changed owner or data. -/
structure Closed (ledger ledger' : Ledger) (key destination : Pubkey) : Prop where
  /-- the account is gone -/
  absent : ledger' key = Account.absent
  /-- its whole balance went to the destination -/
  refund : (ledger' destination).lamports =
    (ledger destination).lamports + (ledger key).lamports
  /-- no other account changed hands or contents -/
  others : ∀ k, k ≠ key → SameContents ledger ledger' k

theorem closed_of_closeAccount {ledger ledger' : Ledger} {key destination : Pubkey}
    (hne : key ≠ destination) (h : closeAccount ledger key destination = .ok ledger') :
    Closed ledger ledger' key destination := by
  simp only [closeAccount, bind_eq_ok, require_eq_ok, pure_eq_ok] at h
  obtain ⟨-, -, rfl⟩ := h
  refine ⟨by simp, by simp [hne.symm], fun k hk => ?_⟩
  simpa [SameContents, hk] using sameContents_update_lamports ledger destination k _

end SolanaMultisig
