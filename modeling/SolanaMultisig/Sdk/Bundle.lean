import SolanaMultisig.Program
import SolanaMultisig.Sdk.FundFlows

/-!
# Parsing a bundle

The outer instructions of a transaction sorted by kind, as both gates see them: a
partial signature authorizes every one of them. `parses_of_parseBundle` says that
the lists of a parsed bundle account for each instruction of the transaction.
-/

namespace SolanaMultisig.Sdk

open Wire Guard

/-! ## Discriminators -/

/-- `CREATE_TRANSACTION_DISCRIMINATOR`. The SDK writes out the eight bytes that the program
computes as a hash of the instruction's name. -/
def createTransactionDiscriminator : List UInt8 := [227, 193, 53, 239, 55, 126, 112, 105]

/-- `APPROVE_TRANSACTION_DISCRIMINATOR`. -/
def approveTransactionDiscriminator : List UInt8 := [224, 39, 88, 181, 36, 59, 155, 122]

/-- `EXECUTE_TRANSACTION_DISCRIMINATOR`. -/
def executeTransactionDiscriminator : List UInt8 := [231, 173, 49, 91, 235, 24, 68, 19]

/-- `CLOSE_TRANSACTION_DISCRIMINATOR`. -/
def closeTransactionDiscriminator : List UInt8 := [97, 46, 152, 170, 42, 215, 192, 218]

/-! ## Kinds of outer instructions -/

/-- A ComputeBudget instruction: its tag (`-1` without data) and what it sets, if it is one
of the two setters with data of the right length. -/
structure ParsedComputeBudget where
  index : ℕ
  tag : ℤ
  value : Option ℕ
  deriving DecidableEq

/-- The creation of an associated token account, by position of its accounts. An account
that is missing is unset, and no check reads past the list. -/
structure ParsedAtaCreate where
  index : ℕ
  funder : Option String
  ata : Option String
  owner : Option String
  mint : Option String
  tokenProgram : Option String
  /-- data is create (empty / [0]) or createIdempotent ([1]) -/
  dataOk : Bool
  deriving DecidableEq

/-- An instruction of the multisig program, with the accounts and the data that the gates go
on to check. -/
structure ParsedMultisigIx where
  index : ℕ
  keys : List Pubkey
  data : List UInt8
  deriving DecidableEq

/-- A `create_transaction`, with the message inside. It is parsed at once, so bytes that do
not parse make the whole bundle undecodable. -/
structure ParsedCreate extends ParsedMultisigIx where
  inner : InnerMessage
  deriving DecidableEq

/-- An instruction that is never allowed, kept with its position so that it can be reported.
-/
structure ParsedForeign where
  index : ℕ
  programId : String
  deriving DecidableEq

/-- What an outer instruction was taken for: one constructor for each list of the bundle. -/
inductive ParsedOuter where
  | nonceAdvance (index : ℕ)
  | computeBudget (cb : ParsedComputeBudget)
  | ataCreate (ata : ParsedAtaCreate)
  | create (c : ParsedCreate)
  | approve (a : ParsedMultisigIx)
  | execute (e : ParsedMultisigIx)
  | close (c : ParsedMultisigIx)
  | foreign (f : ParsedForeign)
  deriving DecidableEq

/-- **The outer instructions, sorted.** Each list is in the order of the transaction, and an
instruction is in exactly one of them. -/
structure ParsedBundle where
  feePayer : Option String
  nonceAdvanceIndexes : List ℕ
  computeBudget : List ParsedComputeBudget
  ataCreates : List ParsedAtaCreate
  creates : List ParsedCreate
  approves : List ParsedMultisigIx
  executes : List ParsedMultisigIx
  closes : List ParsedMultisigIx
  /-- other programs, SystemProgram instructions other than nonceAdvance, unknown
  multisig discriminators -/
  foreign : List ParsedForeign

/-- `data.length > 0 ? data[0] : -1`, where the last is the tag of no instruction. -/
def computeBudgetTag (data : List UInt8) : ℤ :=
  match data with
  | [] => -1
  | b :: _ => b.toNat

/-- What a ComputeBudget instruction sets: a limit of units or their price. Data of another
length sets nothing that the gates would accept. -/
def computeBudgetValue (data : List UInt8) : Except String (Option ℕ) :=
  if computeBudgetTag data = 2 ∧ data.length = 5 then pure (some (leNat ((data.drop 1).take 4)))
  else if computeBudgetTag data = 3 ∧ data.length = 9 then some <$> readU64LE data 1
  else pure none

/-- The accounts `[funder, ata, owner, mint, system, tokenProgram]` and the data of an
instruction of the Associated Token Account program. Whether it is a creation at all is told
by `dataOk`. -/
def parseAtaCreate (index : ℕ) (ix : Instruction) : ParsedAtaCreate where
  index := index
  funder := ix.keys[0]?.map toBase58
  ata := ix.keys[1]?.map toBase58
  owner := ix.keys[2]?.map toBase58
  mint := ix.keys[3]?.map toBase58
  tokenProgram := ix.keys[5]?.map toBase58
  dataOk := decide (ix.data = [] ∨ ix.data = [0] ∨ ix.data = [1])

/-- An instruction of the multisig program, by its discriminator. An unrecognized one is
foreign, so setting up multisigs or nonces does not belong in a bundle. -/
def parseMultisigIx (index : ℕ) (ix : Instruction) : Except String ParsedOuter :=
  let disc := ix.data.take 8
  if disc = createTransactionDiscriminator then do
    let inner ← parseCreateTransactionData ix.data
    pure (.create ⟨⟨index, ix.keys, ix.data⟩, inner⟩)
  else if disc = approveTransactionDiscriminator then pure (.approve ⟨index, ix.keys, ix.data⟩)
  else if disc = executeTransactionDiscriminator then pure (.execute ⟨index, ix.keys, ix.data⟩)
  else if disc = closeTransactionDiscriminator then pure (.close ⟨index, ix.keys, ix.data⟩)
  else pure (.foreign ⟨index, toBase58 ix.programId⟩)

/-- One outer instruction, by its program. The builtin programs are looked for before the
multisig program, and whatever is left is foreign. -/
def parseOuter (programId : Pubkey) (ix : Instruction) (index : ℕ) : Except String ParsedOuter :=
  if ix.programId = systemProgramId then
    -- only nonceAdvance is an allowed outer SystemProgram instruction
    if 4 ≤ ix.data.length ∧ leNat (ix.data.take 4) = 4 then pure (.nonceAdvance index)
    else pure (.foreign ⟨index, toBase58 ix.programId⟩)
  else if ix.programId = computeBudgetProgramId then do
    let value ← computeBudgetValue ix.data
    pure (.computeBudget ⟨index, computeBudgetTag ix.data, value⟩)
  else if ix.programId = ataProgramId then pure (.ataCreate (parseAtaCreate index ix))
  else if ix.programId = programId then parseMultisigIx index ix
  else pure (.foreign ⟨index, toBase58 ix.programId⟩)

/-- Append an instruction to the list of its kind and leave the other lists alone. -/
def ParsedBundle.push (b : ParsedBundle) : ParsedOuter → ParsedBundle
  | .nonceAdvance index => { b with nonceAdvanceIndexes := b.nonceAdvanceIndexes ++ [index] }
  | .computeBudget cb => { b with computeBudget := b.computeBudget ++ [cb] }
  | .ataCreate ata => { b with ataCreates := b.ataCreates ++ [ata] }
  | .create c => { b with creates := b.creates ++ [c] }
  | .approve a => { b with approves := b.approves ++ [a] }
  | .execute e => { b with executes := b.executes ++ [e] }
  | .close c => { b with closes := b.closes ++ [c] }
  | .foreign f => { b with foreign := b.foreign ++ [f] }

/-- Sort the instructions of a transaction. Each is parsed with its position, which the
checks on order and the reports need. -/
def parseTransaction (programId : Pubkey) (tx : Transaction) : Except String ParsedBundle := do
  let outer ← collect (fun p => parseOuter programId p.1 p.2) tx.instructions.zipIdx
  pure (outer.foldl ParsedBundle.push ⟨tx.feePayer.map toBase58, [], [], [], [], [], [], [], []⟩)

/-- Parse the bytes of a bundle. It throws where the bytes are no transaction or some
message in it does not parse; the gates catch that. -/
def parseBundle (web3 : Web3) (serializedTxBase64 : String) (programId : Pubkey) :
    Except String ParsedBundle := do
  let raw := web3.base64 serializedTxBase64
  require (raw ≠ []) "empty transaction bytes"
  let tx ← web3.transactionFrom raw
  parseTransaction programId tx

/-! ## What a parsed bundle says -/

/-- An instruction of the multisig program, which is none of the programs looked for first.
With another program id the gates would mistake it for one of theirs. -/
structure Own (programId : Pubkey) (ix : Instruction) : Prop where
  program_eq : ix.programId = programId
  notMem : programId ∉ [systemProgramId, computeBudgetProgramId, ataProgramId]

namespace ParsedOuter

/-- **Taken for what it is.** The instruction `ix` is of the kind it was taken for, with the
accounts and the data that the kind keeps. -/
def Of (programId : Pubkey) (ix : Instruction) : ParsedOuter → Prop
  | .nonceAdvance _ => ix.programId = systemProgramId
  | .computeBudget _ => ix.programId = computeBudgetProgramId
  | .ataCreate ata => ix.programId = ataProgramId ∧ ata.funder = ix.keys[0]?.map toBase58
  | .create c => Own programId ix ∧ ix.data.take 8 = createTransactionTag ∧
      parseCreateTransactionData ix.data = .ok c.inner ∧ c.keys = ix.keys
  | .approve a => Own programId ix ∧ ix.data.take 8 = approveTransactionTag ∧
      a.keys = ix.keys ∧ a.data = ix.data
  | .execute e => Own programId ix ∧ ix.data.take 8 = executeTransactionTag ∧ e.keys = ix.keys
  | .close c => Own programId ix ∧ ix.data.take 8 = closeTransactionTag ∧ c.keys = ix.keys
  | .foreign _ => True

/-- The position of a nonceAdvance, if it is one. -/
def nonceAdvance? : ParsedOuter → Option ℕ
  | .nonceAdvance index => some index
  | _ => none

/-- The ComputeBudget instruction, if it is one. -/
def computeBudget? : ParsedOuter → Option ParsedComputeBudget
  | .computeBudget cb => some cb
  | _ => none

/-- The account creation, if it is one. -/
def ataCreate? : ParsedOuter → Option ParsedAtaCreate
  | .ataCreate ata => some ata
  | _ => none

/-- The `create_transaction`, if it is one. -/
def create? : ParsedOuter → Option ParsedCreate
  | .create c => some c
  | _ => none

/-- The `approve_transaction`, if it is one. -/
def approve? : ParsedOuter → Option ParsedMultisigIx
  | .approve a => some a
  | _ => none

/-- The `execute_transaction`, if it is one. -/
def execute? : ParsedOuter → Option ParsedMultisigIx
  | .execute e => some e
  | _ => none

/-- The `close_transaction`, if it is one. -/
def close? : ParsedOuter → Option ParsedMultisigIx
  | .close c => some c
  | _ => none

/-- The instruction that is never allowed, if it is one. -/
def foreign? : ParsedOuter → Option ParsedForeign
  | .foreign f => some f
  | _ => none

/-- The accounts of a multisig instruction, for the facts that hold of all four kinds alike.
-/
def keys? : ParsedOuter → Option (List Pubkey)
  | .create c => some c.keys
  | .approve a => some a.keys
  | .execute e => some e.keys
  | .close c => some c.keys
  | _ => none

/-- The discriminator of a multisig instruction, which determines the kind. -/
def tag? : ParsedOuter → Option (List UInt8)
  | .create _ => some createTransactionTag
  | .approve _ => some approveTransactionTag
  | .execute _ => some executeTransactionTag
  | .close _ => some closeTransactionTag
  | _ => none

theorem eq_create {p : ParsedOuter} (h : p.tag? = some createTransactionTag) :
    ∃ c, p = .create c := by
  cases p with
  | create c => exact ⟨c, rfl⟩
  | approve | execute | close => exact absurd h (by simp only [tag?]; decide)
  | nonceAdvance | computeBudget | ataCreate | foreign => cases h

theorem eq_approve {p : ParsedOuter} (h : p.tag? = some approveTransactionTag) :
    ∃ a, p = .approve a := by
  cases p with
  | approve a => exact ⟨a, rfl⟩
  | create | execute | close => exact absurd h (by simp only [tag?]; decide)
  | nonceAdvance | computeBudget | ataCreate | foreign => cases h

theorem eq_execute {p : ParsedOuter} (h : p.tag? = some executeTransactionTag) :
    ∃ e, p = .execute e := by
  cases p with
  | execute e => exact ⟨e, rfl⟩
  | create | approve | close => exact absurd h (by simp only [tag?]; decide)
  | nonceAdvance | computeBudget | ataCreate | foreign => cases h

/-- An instruction of the program that is not foreign was taken for what its discriminator
says, with its own accounts. -/
theorem Of.own {programId : Pubkey} {ix : Instruction} {p : ParsedOuter} (h : p.Of programId ix)
    (hown : Own programId ix) (hp : ∀ f, p ≠ .foreign f) :
    p.tag? = some (ix.data.take 8) ∧ p.keys? = some ix.keys := by
  have hnotMem := hown.notMem
  rw [← hown.program_eq] at hnotMem
  cases p with
  | create c => exact ⟨congrArg some h.2.1.symm, congrArg some h.2.2.2⟩
  | approve a => exact ⟨congrArg some h.2.1.symm, congrArg some h.2.2.1⟩
  | execute e => exact ⟨congrArg some h.2.1.symm, congrArg some h.2.2⟩
  | close c => exact ⟨congrArg some h.2.1.symm, congrArg some h.2.2⟩
  | foreign f => exact absurd rfl (hp f)
  | nonceAdvance | computeBudget | ataCreate => simp_all [Of]

end ParsedOuter

/-- **Accounting.** The lists of a bundle hold the instructions of a transaction, each taken
for what it is. No instruction is lost, and none is made up. -/
structure ParsedBundle.Parses (b : ParsedBundle) (programId : Pubkey) (tx : Transaction)
    (outer : List ParsedOuter) : Prop where
  kinds : List.Forall₂ (fun ix o => ParsedOuter.Of programId ix o) tx.instructions outer
  feePayer_eq : b.feePayer = tx.feePayer.map toBase58
  ataCreates_eq : b.ataCreates = outer.filterMap ParsedOuter.ataCreate?
  creates_eq : b.creates = outer.filterMap ParsedOuter.create?
  approves_eq : b.approves = outer.filterMap ParsedOuter.approve?
  executes_eq : b.executes = outer.filterMap ParsedOuter.execute?
  closes_eq : b.closes = outer.filterMap ParsedOuter.close?
  foreign_eq : b.foreign = outer.filterMap ParsedOuter.foreign?

theorem parseMultisigIx_of {programId : Pubkey} {index : ℕ} {ix : Instruction} {o : ParsedOuter}
    (hid : Own programId ix) (h : parseMultisigIx index ix = .ok o) :
    o.Of programId ix := by
  unfold parseMultisigIx at h
  simp only at h
  split at h
  · rename_i htag
    simp only [bind_eq_ok, pure_eq_ok] at h
    obtain ⟨inner, hinner, rfl⟩ := h
    exact ⟨hid, htag, hinner, rfl⟩
  · split at h
    · rename_i htag
      cases h
      exact ⟨hid, htag, rfl, rfl⟩
    · split at h
      · rename_i htag
        cases h
        exact ⟨hid, htag, rfl⟩
      · split at h
        · rename_i htag
          cases h
          exact ⟨hid, htag, rfl⟩
        · cases h
          trivial

theorem parseOuter_of {programId : Pubkey} {index : ℕ} {ix : Instruction} {o : ParsedOuter}
    (h : parseOuter programId ix index = .ok o) : o.Of programId ix := by
  unfold parseOuter at h
  split at h
  · rename_i hsystem
    split at h
    · cases h
      exact hsystem
    · cases h
      trivial
  · rename_i hsystem
    split at h
    · rename_i hbudget
      simp only [bind_eq_ok, pure_eq_ok] at h
      obtain ⟨value, -, rfl⟩ := h
      exact hbudget
    · rename_i hbudget
      split at h
      · rename_i hata
        cases h
        exact ⟨hata, rfl⟩
      · rename_i hata
        split at h
        · rename_i hid
          refine parseMultisigIx_of ⟨hid, ?_⟩ h
          simp [← hid, hsystem, hbudget, hata]
        · cases h
          trivial

/-- A nonceAdvance is remembered by its position, which has to be the first. -/
theorem parseOuter_nonceAdvance {programId : Pubkey} {ix : Instruction} {index i : ℕ}
    (h : parseOuter programId ix index = .ok (.nonceAdvance i)) : i = index := by
  have hsystem : ix.programId = systemProgramId := parseOuter_of h
  rw [parseOuter, if_pos hsystem] at h
  split at h
  · cases h
    rfl
  · cases h

/-- An instruction of the program is looked at by its discriminator and nothing else. -/
theorem parseOuter_own {programId : Pubkey} {ix : Instruction} (hown : Own programId ix)
    (index : ℕ) : parseOuter programId ix index = parseMultisigIx index ix := by
  have hnotMem := hown.notMem
  simp only [List.mem_cons, List.not_mem_nil, or_false, not_or] at hnotMem
  obtain ⟨hsystem, hbudget, hata⟩ := hnotMem
  simp only [parseOuter, hown.program_eq, if_neg hsystem, if_neg hbudget, if_neg hata, if_true]

/-- A `create_transaction` is never taken for anything else, so none can be hidden in
another list. -/
theorem parseOuter_create {programId : Pubkey} {index : ℕ} {ix : Instruction} {o : ParsedOuter}
    (h : parseOuter programId ix index = .ok o) (hown : Own programId ix)
    (htag : ix.data.take 8 = createTransactionTag) : ∃ c, o = .create c := by
  have htag' : ix.data.take 8 = createTransactionDiscriminator := htag
  simp only [parseOuter_own hown, parseMultisigIx, htag', if_true, bind_eq_ok, pure_eq_ok] at h
  obtain ⟨inner, -, rfl⟩ := h
  exact ⟨_, rfl⟩

/-- Sorting appends to each list the instructions of its kind, in order. -/
theorem foldl_push (b : ParsedBundle) (outer : List ParsedOuter) :
    outer.foldl ParsedBundle.push b =
      { feePayer := b.feePayer
        nonceAdvanceIndexes :=
          b.nonceAdvanceIndexes ++ outer.filterMap ParsedOuter.nonceAdvance?
        computeBudget := b.computeBudget ++ outer.filterMap ParsedOuter.computeBudget?
        ataCreates := b.ataCreates ++ outer.filterMap ParsedOuter.ataCreate?
        creates := b.creates ++ outer.filterMap ParsedOuter.create?
        approves := b.approves ++ outer.filterMap ParsedOuter.approve?
        executes := b.executes ++ outer.filterMap ParsedOuter.execute?
        closes := b.closes ++ outer.filterMap ParsedOuter.close?
        foreign := b.foreign ++ outer.filterMap ParsedOuter.foreign? } := by
  induction outer generalizing b with
  | nil => simp
  | cons o outer ih =>
    rw [List.foldl_cons, ih]
    cases o <;>
      simp [List.filterMap_cons, ParsedBundle.push, ParsedOuter.nonceAdvance?,
        ParsedOuter.computeBudget?, ParsedOuter.ataCreate?, ParsedOuter.create?,
        ParsedOuter.approve?, ParsedOuter.execute?, ParsedOuter.close?, ParsedOuter.foreign?]

/-- **A parsed bundle accounts for every instruction of its transaction.** Each was parsed
at some position, and the lists hold what was found. -/
theorem parseBundle_eq_ok {web3 : Web3} {serializedTxBase64 : String} {programId : Pubkey}
    {b : ParsedBundle} (h : parseBundle web3 serializedTxBase64 programId = .ok b) :
    ∃ tx outer, web3.transactionFrom (web3.base64 serializedTxBase64) = .ok tx ∧
      List.Forall₂ (fun ix o => ∃ index, parseOuter programId ix index = .ok o) tx.instructions
        outer ∧ b.Parses programId tx outer := by
  simp only [parseBundle, parseTransaction, bind_eq_ok, require_eq_ok, pure_eq_ok] at h
  obtain ⟨-, -, tx, htx, outer, houter, rfl⟩ := h
  have hparsed : List.Forall₂ (fun ix o => ∃ index, parseOuter programId ix index = .ok o)
      (tx.instructions.zipIdx.map Prod.fst) outer := by
    rw [List.forall₂_map_left_iff]
    exact (collect_eq_ok.mp houter).imp fun p _ hp => ⟨p.2, hp⟩
  rw [List.zipIdx_map_fst] at hparsed
  refine ⟨tx, outer, htx, hparsed, ?_⟩
  rw [foldl_push]
  exact
    { kinds := hparsed.imp fun _ _ hp => hp.elim fun _ => parseOuter_of
      feePayer_eq := rfl
      ataCreates_eq := rfl
      creates_eq := rfl
      approves_eq := rfl
      executes_eq := rfl
      closes_eq := rfl
      foreign_eq := rfl }

/-- The same without the positions, as the gates use it. -/
theorem parses_of_parseBundle {web3 : Web3} {serializedTxBase64 : String} {programId : Pubkey}
    {b : ParsedBundle} (h : parseBundle web3 serializedTxBase64 programId = .ok b) :
    ∃ tx outer, web3.transactionFrom (web3.base64 serializedTxBase64) = .ok tx ∧
      b.Parses programId tx outer := by
  obtain ⟨tx, outer, htx, -, hparses⟩ := parseBundle_eq_ok h
  exact ⟨tx, outer, htx, hparses⟩

/-- What a selection finds is what was there. It is stated for any constructor, as every
list of the bundle is such a selection. -/
theorem mem_filterMap_mk {α β : Type} {sel : α → Option β} {mk : β → α}
    (hsel : ∀ a b, sel a = some b ↔ a = mk b) {l : List α} {b : β} :
    b ∈ l.filterMap sel ↔ mk b ∈ l := by
  simp [List.mem_filterMap, hsel]

section Parses

variable {programId : Pubkey} {tx : Transaction} {outer : List ParsedOuter} {b : ParsedBundle}

theorem ParsedBundle.Parses.mem_ataCreates (h : b.Parses programId tx outer) {ata : ParsedAtaCreate} :
    ata ∈ b.ataCreates ↔ .ataCreate ata ∈ outer := by
  rw [h.ataCreates_eq]
  exact mem_filterMap_mk fun p _ => by cases p <;> simp [ParsedOuter.ataCreate?]

theorem ParsedBundle.Parses.mem_creates (h : b.Parses programId tx outer) {c : ParsedCreate} :
    c ∈ b.creates ↔ .create c ∈ outer := by
  rw [h.creates_eq]
  exact mem_filterMap_mk fun p _ => by cases p <;> simp [ParsedOuter.create?]

theorem ParsedBundle.Parses.mem_approves (h : b.Parses programId tx outer) {a : ParsedMultisigIx} :
    a ∈ b.approves ↔ .approve a ∈ outer := by
  rw [h.approves_eq]
  exact mem_filterMap_mk fun p _ => by cases p <;> simp [ParsedOuter.approve?]

theorem ParsedBundle.Parses.mem_executes (h : b.Parses programId tx outer) {e : ParsedMultisigIx} :
    e ∈ b.executes ↔ .execute e ∈ outer := by
  rw [h.executes_eq]
  exact mem_filterMap_mk fun p _ => by cases p <;> simp [ParsedOuter.execute?]

theorem ParsedBundle.Parses.mem_closes (h : b.Parses programId tx outer) {c : ParsedMultisigIx} :
    c ∈ b.closes ↔ .close c ∈ outer := by
  rw [h.closes_eq]
  exact mem_filterMap_mk fun p _ => by cases p <;> simp [ParsedOuter.close?]

theorem ParsedBundle.Parses.foreign_notMem (h : b.Parses programId tx outer)
    (hforeign : b.foreign = []) (f : ParsedForeign) : .foreign f ∉ outer := by
  intro hf
  rw [h.foreign_eq, List.filterMap_eq_nil_iff] at hforeign
  cases hforeign _ hf

/-- Every instruction of the Associated Token Account program is a creation of the bundle,
so a check on the funders of the creations covers all of them. -/
theorem ParsedBundle.Parses.exists_ataCreate (h : b.Parses programId tx outer)
    (hforeign : b.foreign = []) {ix : Instruction} (hix : ix ∈ tx.instructions)
    (hprogram : ix.programId = ataProgramId) :
    ∃ ata ∈ b.ataCreates, ata.funder = ix.keys[0]?.map toBase58 := by
  obtain ⟨p, hp, hof⟩ := exists_right_of_forall₂ h.kinds hix
  cases p with
  | ataCreate ata => exact ⟨ata, h.mem_ataCreates.mpr hp, hof.2⟩
  | nonceAdvance index => exact absurd (hprogram.symm.trans hof) (by decide)
  | computeBudget cb => exact absurd (hprogram.symm.trans hof) (by decide)
  | create | approve | execute | close =>
    have hnotMem := hof.1.notMem
    simp [← hof.1.program_eq, hprogram] at hnotMem
  | foreign f => exact absurd hp (h.foreign_notMem hforeign f)

/-- A bundle with an instruction of the program is for no builtin program, as that would
have been looked for first. -/
theorem ParsedBundle.Parses.notMem (h : b.Parses programId tx outer) {p : ParsedOuter}
    (hp : p ∈ outer) {keys : List Pubkey} (hkeys : p.keys? = some keys) :
    programId ∉ [systemProgramId, computeBudgetProgramId, ataProgramId] := by
  obtain ⟨ix, -, hof⟩ := exists_left_of_forall₂ h.kinds hp
  cases p with
  | create | approve | execute | close => exact hof.1.notMem
  | nonceAdvance | computeBudget | ataCreate | foreign => cases hkeys

/-- Every instruction of the program is in the bundle, under its discriminator, unless some
instruction was foreign. -/
theorem ParsedBundle.Parses.exists_own (h : b.Parses programId tx outer)
    (hforeign : b.foreign = [])
    (hnotMem : programId ∉ [systemProgramId, computeBudgetProgramId, ataProgramId])
    {ix : Instruction} (hix : ix ∈ tx.instructions) (hprogram : ix.programId = programId) :
    ∃ p ∈ outer, p.tag? = some (ix.data.take 8) ∧ p.keys? = some ix.keys := by
  obtain ⟨p, hp, hof⟩ := exists_right_of_forall₂ h.kinds hix
  exact ⟨p, hp, hof.own ⟨hprogram, hnotMem⟩ fun f hf => h.foreign_notMem hforeign f (hf ▸ hp)⟩

/-- The one `create_transaction` of a bundle without foreign instructions is the one that
was parsed. What was checked of the message holds of the one the program gets. -/
theorem ParsedBundle.Parses.create_eq (h : b.Parses programId tx outer) {c : ParsedCreate}
    (hone : b.creates = [c]) (hforeign : b.foreign = []) {ix : Instruction}
    (hix : ix ∈ tx.instructions) (hprogram : ix.programId = programId)
    (htag : ix.data.take 8 = createTransactionTag) :
    parseCreateTransactionData ix.data = .ok c.inner ∧ c.keys = ix.keys := by
  have hmem : .create c ∈ outer := h.mem_creates.mp (by simp [hone])
  obtain ⟨ix₀, -, hown, -⟩ := exists_left_of_forall₂ h.kinds hmem
  obtain ⟨p, hp, hof⟩ := exists_right_of_forall₂ h.kinds hix
  obtain ⟨hkind, -⟩ := hof.own ⟨hprogram, hown.notMem⟩
    fun f hf => h.foreign_notMem hforeign f (hf ▸ hp)
  obtain ⟨c', rfl⟩ := ParsedOuter.eq_create (htag ▸ hkind)
  have hc' := h.mem_creates.mpr hp
  rw [hone, List.mem_singleton] at hc'
  subst hc'
  exact hof.2.2

/-- Every `create_transaction` of a transaction is a creation of its bundle, whether there
are foreign instructions or not. -/
theorem mem_creates_of_parseBundle {web3 : Web3} {serializedTxBase64 : String} {c : ParsedCreate}
    {ix : Instruction} (h : parseBundle web3 serializedTxBase64 programId = .ok b)
    (htx : web3.transactionFrom (web3.base64 serializedTxBase64) = .ok tx)
    (hone : b.creates = [c]) (hix : ix ∈ tx.instructions) (hprogram : ix.programId = programId)
    (htag : ix.data.take 8 = createTransactionTag) :
    parseCreateTransactionData ix.data = .ok c.inner ∧ c.keys = ix.keys := by
  obtain ⟨tx', outer, htx', hparsed, hparses⟩ := parseBundle_eq_ok h
  obtain rfl := Except.ok.inj (htx.symm.trans htx')
  have hmem : .create c ∈ outer := hparses.mem_creates.mp (by simp [hone])
  obtain ⟨ix₀, -, hown, -⟩ := exists_left_of_forall₂ hparses.kinds hmem
  obtain ⟨p, hp, ⟨index, hparse⟩⟩ := exists_right_of_forall₂ hparsed hix
  obtain ⟨c', rfl⟩ := parseOuter_create hparse ⟨hprogram, hown.notMem⟩ htag
  have hc' := hparses.mem_creates.mpr hp
  rw [hone, List.mem_singleton] at hc'
  subst hc'
  exact (parseOuter_of hparse).2.2

end Parses

end SolanaMultisig.Sdk
