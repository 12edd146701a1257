import SolanaMultisig.Interpreter
import SolanaMultisig.Lib.Base58
import SolanaMultisig.Lib.Cursor

/-!
# The nonce race check

Before it relies on a multisig's durable nonce, a wallet asks `checkNonceRace` who
controls it. Anybody can send lamports to the nonce address before the account is
provisioned; the address then holds an account without data, the parser of nonce
accounts throws on it, and so does the check (`checkNonceRace_of_prefunded`). On
every other state of the address it answers, and says `ok` only for the expected
authority (`usable_iff`).
-/

namespace SolanaMultisig

open Wire Guard

variable {env : Env}

namespace Sdk

/-! ## The client -/

/-- The durable nonce address of a multisig, known before the multisig exists; that is why
anybody can send lamports there first. -/
def deriveNonceAccount (env : Env) (multisigPda : Pubkey) : Pubkey :=
  createWithSeed env multisigPda nonceSeed systemProgramId

/-- web3.js's view of a nonce account, as far as the client reads it: the authority and the
value. -/
structure NonceAccount where
  authorizedPubkey : Pubkey
  nonce : String
  deriving DecidableEq

/-- `connection.getAccountInfo`: an account without lamports does not exist. -/
def getAccountInfo (ledger : Ledger) (k : Pubkey) : Option Account :=
  if (ledger k).lamports = 0 then none else some (ledger k)

/-- What is on chain about a multisig's nonce. -/
structure NonceAuthority where
  nonceAccount : Pubkey
  authority : Pubkey
  nonceValue : String

/-- Fetch the nonce account and return its authority and value. `fromAccountData` is
web3.js's parser, whose exception nothing catches. -/
def getNonceAuthority (env : Env) (fromAccountData : List UInt8 → Except String NonceAccount)
    (ledger : Ledger) (multisigAddress : Pubkey) : Except String (Option NonceAuthority) := do
  let nonceAccount := deriveNonceAccount env multisigAddress
  match getAccountInfo ledger nonceAccount with
  | none => pure none
  | some accountInfo =>
      let state ← fromAccountData accountInfo.data
      pure (some ⟨nonceAccount, state.authorizedPubkey, state.nonce⟩)

/-- The answer of the race check: no account yet, the expected authority, or another one. -/
inductive NonceRace where
  | unprovisioned
  | ok (nonceAccount : Pubkey) (nonceValue : String)
  | raced (nonceAccount actualAuthority : Pubkey)
  deriving DecidableEq

/-- The runtime guard for the nonce-authority race: clients are to ask it before they rely
on the nonce, and to fall back to a live blockhash on any answer but `ok`. -/
def checkNonceRace (env : Env) (fromAccountData : List UInt8 → Except String NonceAccount)
    (ledger : Ledger) (multisigAddress expectedAuthority : Pubkey) :
    Except String NonceRace := do
  match ← getNonceAuthority env fromAccountData ledger multisigAddress with
  | none => pure .unprovisioned
  | some info =>
      if info.authority = expectedAuthority then pure (.ok info.nonceAccount info.nonceValue)
      else pure (.raced info.nonceAccount info.authority)

/-- What is assumed of web3.js's parser: it throws on less than the layout of a nonce
account, and otherwise reads the authority and the nonce behind eight bytes of
version and state. -/
structure ReadsNonce (fromAccountData : List UInt8 → Except String NonceAccount) : Prop where
  short : ∀ data, data.length < nonceAccountLength → ∃ e, fromAccountData data = .error e
  stored : ∀ (head : List UInt8) (authority nonce : Bytes32) (tail : List UInt8),
    head.length = 8 → 8 ≤ tail.length →
      fromAccountData (head ++ authority.bytes ++ nonce.bytes ++ tail) =
        .ok ⟨authority, toBase58 nonce⟩

end Sdk

open Sdk

/-! ## The states of the address -/

/-- An initialized nonce. -/
structure NonceData where
  /-- who may advance, authorize and withdraw -/
  authority : Pubkey
  /-- the value transactions use for a blockhash -/
  durableNonce : Bytes32
  /-- the fee at the time -/
  lamportsPerSignature : UInt64

/-- The contents of its account. -/
def NonceData.encode (d : NonceData) : List UInt8 :=
  leBytes 4 1 ++ leBytes 4 1 ++ d.authority.bytes ++ d.durableNonce.bytes ++
    leBytes 8 d.lamportsPerSignature.toNat

/-- The account is a nonce account with these contents. -/
def Account.HoldsNonce (a : Account) (d : NonceData) : Prop :=
  a.owner = systemProgramId ∧ a.data = d.encode

/-- There are lamports, but no data: the state in which `provision_nonce` fails and the
check throws. -/
def Account.Prefunded (a : Account) : Prop := 0 < a.lamports ∧ a.Vacant

/-- What a nonce address can hold between transactions; the steps below keep it in these
three states. -/
inductive Account.NonceState (a : Account) : Prop where
  | absent : a = .absent → a.NonceState
  | prefunded : a.Prefunded → a.NonceState
  | initialised (d : NonceData) : a.HoldsNonce d → a.NonceState

/-! ## The steps -/

/-- What can happen to a nonce address. Nobody has a key for it, and the program
signs for its base in `provision_nonce` only, so the System program neither debits,
allocates nor assigns it otherwise. -/
inductive NonceAction where
  /-- anybody sends lamports -/
  | credit (lamports : ℕ)
  /-- `provision_nonce` succeeds -/
  | provision (bank : Bank) (infos : List AccountInfo)
  /-- the authority advances the nonce or passes it on -/
  | write (d : NonceData)
  /-- the authority withdraws a part -/
  | withdraw (lamports : ℕ)
  /-- the authority withdraws everything, and the account is gone -/
  | close
  /-- something that does not concern the address -/
  | other

/-- One step, on the account at the nonce address of `multisig`. The writes are those the
System program allows to the authority of a nonce. -/
inductive NonceStep (env : Env) (multisig : Pubkey) : NonceAction → Ledger → Ledger → Prop
  | credit {l l' : Ledger} {lamports : ℕ} :
      l' (deriveNonceAccount env multisig) =
        { l (deriveNonceAccount env multisig) with
          lamports := (l (deriveNonceAccount env multisig)).lamports + lamports } →
        NonceStep env multisig (.credit lamports) l l'
  | provision {l : Ledger} {bank : Bank} {base : AccountInfo} {infos : List AccountInfo}
      {o : Outcome} :
      base.key = multisig → ProvisionNonce.process env bank l (base :: infos) = .ok o →
        NonceStep env multisig (.provision bank (base :: infos)) l o.ledger
  | write {l l' : Ledger} {d d' : NonceData} :
      (l (deriveNonceAccount env multisig)).HoldsNonce d →
      l' (deriveNonceAccount env multisig) =
        { l (deriveNonceAccount env multisig) with data := d'.encode } →
        NonceStep env multisig (.write d') l l'
  | withdraw {l l' : Ledger} {lamports : ℕ} {d : NonceData} :
      (l (deriveNonceAccount env multisig)).HoldsNonce d →
      lamports < (l (deriveNonceAccount env multisig)).lamports →
      l' (deriveNonceAccount env multisig) =
        { l (deriveNonceAccount env multisig) with
          lamports := (l (deriveNonceAccount env multisig)).lamports - lamports } →
        NonceStep env multisig (.withdraw lamports) l l'
  | close {l l' : Ledger} {d : NonceData} :
      (l (deriveNonceAccount env multisig)).HoldsNonce d →
      l' (deriveNonceAccount env multisig) = .absent → NonceStep env multisig .close l l'
  | other {l l' : Ledger} :
      l' (deriveNonceAccount env multisig) = l (deriveNonceAccount env multisig) →
        NonceStep env multisig .other l l'

/-- The step sends lamports to an address without data. -/
def NonceAction.Prefunds (account : Account) : NonceAction → Prop
  | .credit lamports => 0 < lamports ∧ account.data = []
  | _ => False

/-- The runs of the address. -/
abbrev NonceRun (env : Env) (multisig : Pubkey) : Ledger → Ledger → Prop :=
  Relation.ReflTransGen fun l l' => ∃ action, NonceStep env multisig action l l'

/-- The ledger after somebody sent lamports to the nonce address. -/
def credited (env : Env) (multisig : Pubkey) (l : Ledger) (lamports : ℕ) : Ledger :=
  Function.update l (deriveNonceAccount env multisig)
    { l (deriveNonceAccount env multisig) with
      lamports := (l (deriveNonceAccount env multisig)).lamports + lamports }

theorem credited_step (multisig : Pubkey) (l : Ledger) (lamports : ℕ) :
    NonceStep env multisig (.credit lamports) l (credited env multisig l lamports) :=
  .credit (Function.update_self ..)

/-- The runs in which nobody sends lamports ahead of the account. Sending them afterwards is
allowed. -/
abbrev UnfundedRun (env : Env) (multisig : Pubkey) : Ledger → Ledger → Prop :=
  Relation.ReflTransGen fun l l' => ∃ action,
    ¬action.Prefunds (l (deriveNonceAccount env multisig)) ∧ NonceStep env multisig action l l'

@[simp] theorem length_encode (d : NonceData) : d.encode.length = nonceAccountLength := by
  simp [NonceData.encode, nonceAccountLength]

theorem Account.HoldsNonce.not_prefunded {a : Account} {d : NonceData} (h : a.HoldsNonce d) :
    ¬a.Prefunded := by
  rintro ⟨-, -, hdata⟩
  have hlen := length_encode d
  rw [← h.2, hdata] at hlen
  cases hlen

theorem Account.absent_not_prefunded : ¬Account.absent.Prefunded :=
  fun h => Nat.lt_irrefl 0 h.1

/-- What `provision_nonce` leaves at the address: a nonce that the payer controls, with the
layout the parser reads. -/
theorem provisioned_holdsNonce {l : Ledger} {bank : Bank} {base : AccountInfo}
    {infos : List AccountInfo} {o : Outcome}
    (h : ProvisionNonce.process env bank l (base :: infos) = .ok o) :
    ∃ d, (o.ledger (deriveNonceAccount env base.key)).HoldsNonce d := by
  obtain ⟨multisig, nonceAccount, payer, recentBlockhashes, rent, system, rest, hinfos, m, -, -,
    -, -, -, -, -, ledger', hcreated, rfl⟩ := ProvisionNonce.process_eq_ok.mp h
  obtain ⟨rfl, -⟩ := List.cons.inj hinfos
  simp only [createNonceAccountWithSeed, bind_eq_ok, orElse_eq_ok, require_eq_ok, pure_eq_ok]
    at hcreated
  obtain ⟨signing, -, -, -, -, -, -, hnonce, created, hcreate, rfl⟩ := hcreated
  have howner := (systemCreateAccount_allocated hcreate).owner_eq
  refine ⟨⟨payer.key, env.sha256 (ascii "DURABLE_NONCE" ++ bank.blockhash.bytes),
    bank.lamportsPerSignature⟩, ?_, ?_⟩
  · rw [deriveNonceAccount, ← hnonce]
    simpa using howner
  · rw [deriveNonceAccount, ← hnonce]
    simp [nonceState, NonceData.encode]

/-- One step keeps the address in one of its three states: the invariant of all runs. -/
theorem NonceStep.nonceState {multisig : Pubkey} {action : NonceAction} {l l' : Ledger}
    (h : NonceStep env multisig action l l')
    (hs : (l (deriveNonceAccount env multisig)).NonceState) :
    (l' (deriveNonceAccount env multisig)).NonceState := by
  cases h with
  | @credit _ _ lamports he =>
    rw [he]
    cases hs with
    | absent ha =>
      rw [ha]
      rcases Nat.eq_zero_or_pos lamports with rfl | hpos
      · exact .absent rfl
      · exact .prefunded ⟨by simpa [Account.absent] using hpos, rfl, rfl⟩
    | prefunded hp => exact .prefunded ⟨Nat.add_pos_left hp.1 _, hp.2⟩
    | initialised d hd => exact .initialised d hd
  | provision hbase hprocess =>
    obtain ⟨d, hd⟩ := provisioned_holdsNonce hprocess
    rw [hbase] at hd
    exact .initialised d hd
  | @write _ _ _ d' hd he =>
    rw [he]
    exact .initialised d' ⟨hd.1, rfl⟩
  | withdraw hd _ he =>
    rw [he]
    exact .initialised _ hd
  | close _ he => exact .absent he
  | other he =>
    rw [he]
    exact hs

/-- Without lamports sent ahead, a step does not lead into the second state, in which the
check throws. -/
theorem NonceStep.not_prefunded {multisig : Pubkey} {action : NonceAction} {l l' : Ledger}
    (h : NonceStep env multisig action l l')
    (hfunds : ¬action.Prefunds (l (deriveNonceAccount env multisig)))
    (hs : ¬(l (deriveNonceAccount env multisig)).Prefunded) :
    ¬(l' (deriveNonceAccount env multisig)).Prefunded := by
  cases h with
  | @credit _ _ lamports he =>
    rw [he]
    rintro ⟨hpos, howner, hdata⟩
    -- with data there is nothing to show; without, nothing was sent
    have hzero : lamports = 0 := by
      by_contra hne
      exact hfunds ⟨Nat.pos_of_ne_zero hne, hdata⟩
    subst hzero
    exact hs ⟨hpos, howner, hdata⟩
  | provision hbase hprocess =>
    obtain ⟨d, hd⟩ := provisioned_holdsNonce hprocess
    rw [hbase] at hd
    exact hd.not_prefunded
  | @write _ _ _ d' hd he =>
    rw [he]
    exact Account.HoldsNonce.not_prefunded (d := d') ⟨hd.1, rfl⟩
  | withdraw hd _ he =>
    rw [he]
    exact Account.HoldsNonce.not_prefunded hd
  | close _ he =>
    rw [he]
    exact Account.absent_not_prefunded
  | other he =>
    rw [he]
    exact hs

theorem NonceRun.nonceState {multisig : Pubkey} {l l' : Ledger} (h : NonceRun env multisig l l')
    (hs : (l (deriveNonceAccount env multisig)).NonceState) :
    (l' (deriveNonceAccount env multisig)).NonceState := by
  induction h with
  | refl => exact hs
  | tail _ hstep ih =>
    obtain ⟨action, hstep⟩ := hstep
    exact hstep.nonceState ih

theorem UnfundedRun.run {multisig : Pubkey} {l l' : Ledger} (h : UnfundedRun env multisig l l') :
    NonceRun env multisig l l' :=
  Relation.ReflTransGen.mono (fun _ _ ⟨action, _, hstep⟩ => ⟨action, hstep⟩) _ _ h

theorem UnfundedRun.not_prefunded {multisig : Pubkey} {l l' : Ledger}
    (h : UnfundedRun env multisig l l')
    (hs : ¬(l (deriveNonceAccount env multisig)).Prefunded) :
    ¬(l' (deriveNonceAccount env multisig)).Prefunded := by
  induction h with
  | refl => exact hs
  | tail _ hstep ih =>
    obtain ⟨action, hfunds, hstep⟩ := hstep
    exact hstep.not_prefunded hfunds ih

/-! ## The answers -/

section Answers

variable {fromAccountData : List UInt8 → Except String NonceAccount} {l : Ledger}
  {multisig expected : Pubkey}

/-- The check can be used: it answers, and with `ok` only when the address holds a nonce
that the expected authority controls. -/
structure Usable (env : Env) (fromAccountData : List UInt8 → Except String NonceAccount)
    (l : Ledger) (multisig expected : Pubkey) : Prop where
  /-- some status is returned -/
  answers : ∃ status, checkNonceRace env fromAccountData l multisig expected = .ok status
  /-- `ok` can be relied on -/
  ok_sound : ∀ nonceAccount nonceValue,
    checkNonceRace env fromAccountData l multisig expected = .ok (.ok nonceAccount nonceValue) →
      nonceAccount = deriveNonceAccount env multisig ∧
      ∃ d, (l nonceAccount).HoldsNonce d ∧ d.authority = expected ∧
        nonceValue = toBase58 d.durableNonce

/-- Where there are no lamports the client sees no account, and answers that nothing is
provisioned. -/
theorem checkNonceRace_of_empty
    (hzero : (l (deriveNonceAccount env multisig)).lamports = 0) :
    checkNonceRace env fromAccountData l multisig expected = .ok .unprovisioned := by
  simp only [checkNonceRace, getNonceAuthority, getAccountInfo, if_pos hzero]
  rfl

/-- **Lamports without data make the check throw**: the client sees an account, and hands
its empty data to the parser. -/
theorem checkNonceRace_of_prefunded (hf : ReadsNonce fromAccountData)
    (hp : (l (deriveNonceAccount env multisig)).Prefunded) :
    ∃ e, checkNonceRace env fromAccountData l multisig expected = .error e := by
  obtain ⟨hpos, -, hdata⟩ := hp
  have hshort : (l (deriveNonceAccount env multisig)).data.length < nonceAccountLength := by
    rw [hdata]
    decide
  obtain ⟨e, he⟩ := hf.short _ hshort
  refine ⟨e, ?_⟩
  simp only [checkNonceRace, getNonceAuthority, getAccountInfo, if_neg hpos.ne', he]
  rfl

theorem checkNonceRace_of_holdsNonce (hf : ReadsNonce fromAccountData) {d : NonceData}
    (hd : (l (deriveNonceAccount env multisig)).HoldsNonce d)
    (hpos : (l (deriveNonceAccount env multisig)).lamports ≠ 0) :
    checkNonceRace env fromAccountData l multisig expected =
      if d.authority = expected then
        .ok (.ok (deriveNonceAccount env multisig) (toBase58 d.durableNonce))
      else .ok (.raced (deriveNonceAccount env multisig) d.authority) := by
  have hread : fromAccountData (l (deriveNonceAccount env multisig)).data =
      .ok ⟨d.authority, toBase58 d.durableNonce⟩ := by
    rw [hd.2]
    exact hf.stored _ _ _ _ (by simp) (by simp)
  simp only [checkNonceRace, getNonceAuthority, getAccountInfo, if_neg hpos, hread]
  rfl

/-- In each of the states, the check is usable unless there are lamports without data. -/
theorem usable_iff (hf : ReadsNonce fromAccountData)
    (hs : (l (deriveNonceAccount env multisig)).NonceState) :
    Usable env fromAccountData l multisig expected ↔
      ¬(l (deriveNonceAccount env multisig)).Prefunded := by
  constructor
  · rintro ⟨⟨status, hstatus⟩, -⟩ hp
    obtain ⟨e, he⟩ : ∃ e, checkNonceRace env fromAccountData l multisig expected = .error e :=
      checkNonceRace_of_prefunded hf hp
    rw [hstatus] at he
    cases he
  · intro hnot
    by_cases hzero : (l (deriveNonceAccount env multisig)).lamports = 0
    · have hanswer : checkNonceRace env fromAccountData l multisig expected = _ :=
        checkNonceRace_of_empty hzero
      refine ⟨⟨_, hanswer⟩, fun nonceAccount nonceValue hok => ?_⟩
      rw [hanswer] at hok
      cases hok
    · cases hs with
      | absent ha => exact absurd (by rw [ha]; rfl) hzero
      | prefunded hp => exact absurd hp hnot
      | initialised d hd =>
        have hanswer : checkNonceRace env fromAccountData l multisig expected = _ :=
          checkNonceRace_of_holdsNonce hf hd hzero
        by_cases hauth : d.authority = expected
        · rw [if_pos hauth] at hanswer
          refine ⟨⟨_, hanswer⟩, fun nonceAccount nonceValue hok => ?_⟩
          rw [hanswer] at hok
          cases hok
          exact ⟨rfl, d, hd, hauth, rfl⟩
        · rw [if_neg hauth] at hanswer
          refine ⟨⟨_, hanswer⟩, fun nonceAccount nonceValue hok => ?_⟩
          rw [hanswer] at hok
          cases hok

/-- A step that sends lamports ahead leads into the second state, so the condition of the
run lemma cannot be weakened. -/
theorem NonceStep.prefunded {action : NonceAction} {l' : Ledger}
    (h : NonceStep env multisig action l l')
    (hs : (l (deriveNonceAccount env multisig)).NonceState)
    (hfunds : action.Prefunds (l (deriveNonceAccount env multisig))) :
    (l' (deriveNonceAccount env multisig)).Prefunded := by
  cases h with
  | credit he =>
    obtain ⟨hpos, hdata⟩ := hfunds
    rw [he]
    refine ⟨Nat.add_pos_right _ hpos, ?_, hdata⟩
    cases hs with
    | absent ha => rw [ha]; rfl
    | prefunded hp => exact hp.2.1
    | initialised d hd => exact hd.1
  | provision | write | withdraw | close | other => exact hfunds.elim

/-- **The race check works until somebody sends lamports ahead.** From an address
nobody has used, in every state of a run in which no step sends lamports to the
address while it has no data, the check answers, and `ok` is right. The condition is
exact: a step that breaks it leads to a state in which the check throws, and in any
run it is usable in the states that do not hold lamports without data. -/
theorem checkNonceRace_usable_of_run (hf : ReadsNonce fromAccountData)
    (hstart : l (deriveNonceAccount env multisig) = .absent) {l' : Ledger} :
    (UnfundedRun env multisig l l' → Usable env fromAccountData l' multisig expected) ∧
      (NonceRun env multisig l l' →
        (Usable env fromAccountData l' multisig expected ↔
          ¬(l' (deriveNonceAccount env multisig)).Prefunded) ∧
        ∀ action l'', NonceStep env multisig action l' l'' →
          action.Prefunds (l' (deriveNonceAccount env multisig)) →
            ¬Usable env fromAccountData l'' multisig expected) := by
  have hstate : (l (deriveNonceAccount env multisig)).NonceState := .absent hstart
  have hnot : ¬(l (deriveNonceAccount env multisig)).Prefunded := by
    rw [hstart]
    exact Account.absent_not_prefunded
  refine ⟨fun hrun => ?_, fun hrun => ⟨usable_iff hf (hrun.nonceState hstate), ?_⟩⟩
  · exact (usable_iff hf (hrun.run.nonceState hstate)).mpr (hrun.not_prefunded hnot)
  · intro action l'' hstep hfunds husable
    have hs := hrun.nonceState hstate
    exact (usable_iff hf (hstep.nonceState hs)).mp husable (hstep.prefunded hs hfunds)

end Answers

/-! ### The address of the example multisig -/

namespace Example

/-- The layout of a nonce account, read. -/
def fromAccountData (data : List UInt8) : Except String NonceAccount :=
  if data.length < nonceAccountLength then .error "The value of offset is out of range"
  else do
    let authority ← orElse (Bytes32.ofList? ((data.drop 8).take 32)) "Invalid public key input"
    let nonce ← orElse (Bytes32.ofList? ((data.drop 40).take 32)) "Invalid public key input"
    pure ⟨authority, toBase58 nonce⟩

theorem readsNonce : ReadsNonce fromAccountData where
  short data h := ⟨_, if_pos h⟩
  stored head authority nonce tail hhead htail := by
    have hlen : ¬(head ++ authority.bytes ++ nonce.bytes ++ tail).length < nonceAccountLength := by
      simp [hhead, nonceAccountLength]
      omega
    have hauthority : ((head ++ authority.bytes ++ nonce.bytes ++ tail).drop 8).take 32 =
        authority.bytes := by
      rw [List.append_assoc, List.append_assoc, List.drop_left' hhead,
        List.take_left' authority.length_bytes]
    have hnonce : ((head ++ authority.bytes ++ nonce.bytes ++ tail).drop 40).take 32 =
        nonce.bytes := by
      rw [List.append_assoc, List.drop_left' (by simp [hhead]), List.take_left' nonce.length_bytes]
    rw [fromAccountData, if_neg hlen, hauthority, hnonce, Bytes32.ofList?_bytes,
      Bytes32.ofList?_bytes]
    rfl

/-- Somebody sends one lamport to the nonce address before anything else happens. -/
def prefundedLedger : Ledger :=
  Function.update genesis.ledger (deriveNonceAccount cluster multisig) ⟨1, systemProgramId, []⟩

theorem prefundedLedger_step :
    NonceStep cluster multisig (.credit 1) genesis.ledger prefundedLedger :=
  .credit (by decide +kernel)

end Example

/-- The check throws when one lamport was sent to the address. -/
theorem checkNonceRace_prefunded_throws :
    ReadsNonce Example.fromAccountData ∧
      Example.genesis.ledger (deriveNonceAccount Example.cluster Example.multisig) = .absent ∧
      NonceRun Example.cluster Example.multisig Example.genesis.ledger Example.prefundedLedger ∧
      checkNonceRace Example.cluster Example.fromAccountData Example.prefundedLedger
        Example.multisig Example.paymaster = .error "The value of offset is out of range" ∧
      ¬Usable Example.cluster Example.fromAccountData Example.prefundedLedger Example.multisig
        Example.paymaster := by
  have hthrows : checkNonceRace Example.cluster Example.fromAccountData Example.prefundedLedger
      Example.multisig Example.paymaster = .error "The value of offset is out of range" := by
    decide +kernel
  refine ⟨Example.readsNonce, by decide +kernel, .single ⟨_, Example.prefundedLedger_step⟩,
    hthrows, ?_⟩
  rintro ⟨⟨status, hstatus⟩, -⟩
  rw [hthrows] at hstatus
  cases hstatus

namespace Example

/-- The nonce address of the example multisig. -/
def nonce : Pubkey :=
  ⟨[149, 27, 77, 117, 238, 16, 75, 172, 178, 73, 15, 165, 135, 142, 144, 185, 156, 245, 83, 253,
    221, 115, 126, 148, 146, 60, 26, 214, 17, 225, 245, 83], rfl⟩

/-- The example cluster with this digest. -/
def nonceCluster : Env :=
  { cluster with
    sha256 := fun bytes =>
      if bytes = multisig.bytes ++ ascii nonceSeed ++ systemProgramId.bytes then nonce
      else sha256 bytes }

/-- What the paymaster provisions the nonce with. -/
def provisionInfos : List AccountInfo :=
  [⟨multisig, false, false⟩, ⟨nonce, false, true⟩, ⟨paymaster, true, true⟩,
    ⟨recentBlockhashesId, false, false⟩, ⟨rentId, false, false⟩, ⟨systemProgramId, false, false⟩]

/-- From an unused address the nonce is provisioned, and one lamport is sent to it then. -/
theorem exists_nonceRun : ∃ l l₁ : Ledger,
    l (deriveNonceAccount nonceCluster multisig) = Account.absent ∧
      UnfundedRun nonceCluster multisig l (credited nonceCluster multisig l₁ 1) := by
  have hrun : ((drive nonceCluster bank genesis [register]).bind fun s =>
      (ProvisionNonce.process nonceCluster bank s.ledger provisionInfos).toOption.map fun _ =>
        decide (s.ledger (deriveNonceAccount nonceCluster multisig) = Account.absent)) =
      some true := by
    decide +kernel
  obtain ⟨s, -, hrest⟩ := Option.bind_eq_some_iff.mp hrun
  obtain ⟨o, ho, habsent⟩ := Option.map_eq_some_iff.mp hrest
  have hprocess := toOption_eq_some.mp ho
  obtain ⟨d, hd⟩ := provisioned_holdsNonce hprocess
  refine ⟨s.ledger, o.ledger, of_decide_eq_true habsent, ?_⟩
  refine .tail (.single ⟨_, id, .provision rfl hprocess⟩) ⟨_, ?_, credited_step multisig _ 1⟩
  -- by now the address holds data
  rintro ⟨-, hdata⟩
  have hlen := length_encode d
  rw [← hd.2, hdata] at hlen
  cases hlen

end Example

/-- The check is usable after the nonce was provisioned and credited, and not where the
lamport came first. -/
theorem checkNonceRace_usable_of_run_example :
    (∃ l l₁ : Ledger, UnfundedRun Example.nonceCluster Example.multisig l
        (credited Example.nonceCluster Example.multisig l₁ 1) ∧
      Usable Example.nonceCluster Example.fromAccountData
        (credited Example.nonceCluster Example.multisig l₁ 1) Example.multisig
        Example.paymaster) ∧
      ¬Usable Example.cluster Example.fromAccountData Example.prefundedLedger Example.multisig
        Example.paymaster := by
  constructor
  · obtain ⟨l, l₁, hstart, hrun⟩ := Example.exists_nonceRun
    exact ⟨l, l₁, hrun, (checkNonceRace_usable_of_run Example.readsNonce hstart).1 hrun⟩
  · have hstart : Example.genesis.ledger (deriveNonceAccount Example.cluster Example.multisig) =
        .absent := by
      decide +kernel
    refine ((checkNonceRace_usable_of_run Example.readsNonce hstart).2 .refl).2 _ _
      Example.prefundedLedger_step ?_
    rw [hstart]
    exact ⟨Nat.one_pos, rfl⟩

end SolanaMultisig
