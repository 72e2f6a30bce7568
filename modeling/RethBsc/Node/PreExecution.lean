import RethBsc.Node.ReceiptOrder
import RethBsc.Parlia.SealHash
import RethBsc.Parlia.Validation

/-!
# Before a block is executed

`check_new_block` and `prepare_new_block` of `src/node/evm/pre_execution.rs`.  A node that checks a
block verifies what its header says against the parent snapshot, a miner has no header yet; both
look up what `finish` needs, and ask the stake hub contract for the election on the first block of a
day.

* `verifySeal_eq_ok`: what `verify_seal` accepts.
* `contexts_agree`: a miner and a node that checks its block look up the same things.
-/

namespace RethBsc

open Rust Outcome

/-! ## The seal -/

/-- The errors of the checks before execution. -/
inductive PreExecutionError where
  | msg (text : String)
  | blockTime (error : Parlia.BlockTimeError)
  | attestation (error : AttestationError)
  | parliaConsensusError (error : ParliaConsensusError)
  | wrongHeaderSigner (blockNumber : UInt64) (got expected : Address)
  | signerUnauthorized (blockNumber : UInt64) (proposer : Address)
  | signerOverLimit (proposer : Address)
  | invalidDifficulty (difficulty : Nat)
  | execution (error : BlockExecutionError)
  deriving DecidableEq

section Seal

variable (c : SealCrypto) (chainId : UInt64) (cache : LruMap B256 Address) (snap : Snapshot)
  (header : Header)

/-- Returns the cache of recovered proposers. -/
def verifySeal : Outcome PreExecutionError (LruMap B256 Address) := do
  let (proposer, cache) ← (recoverProposer c chainId cache header).mapErr .parliaConsensusError
  if proposer != header.beneficiary then
    .err (.wrongHeaderSigner header.number proposer header.beneficiary)
  else if !snap.validators.contains proposer then .err (.signerUnauthorized header.number proposer)
  else if snap.signRecently proposer then .err (.signerOverLimit proposer)
  else
    let isInturn ← snap.isInturn proposer
    if (isInturn && header.difficulty != diffInturn) ||
        (!isInturn && header.difficulty != diffNoturn) then
      .err (.invalidDifficulty header.difficulty)
    else pure cache

variable {c chainId cache snap header}

/-- The proposer is who the header says, may propose the block, and claims the difficulty of its
turn. -/
theorem verifySeal_eq_ok {cache' : LruMap B256 Address} :
    verifySeal c chainId cache snap header = .ok cache' ↔
      recoverProposer c chainId cache header = .ok (header.beneficiary, cache') ∧
      header.beneficiary ∈ snap.validators ∧
      snap.signRecently header.beneficiary = false ∧
      ∃ isInturn,
        (snap.isInturn header.beneficiary : Outcome PreExecutionError Bool) = .ok isInturn ∧
        header.difficulty = if isInturn then diffInturn else diffNoturn := by
  have hturn : ∀ isInturn : Bool, ((isInturn && header.difficulty != diffInturn) ||
        (!isInturn && header.difficulty != diffNoturn)) = false ↔
      header.difficulty = if isInturn then diffInturn else diffNoturn := by
    intro isInturn
    cases isInturn <;> simp
  unfold verifySeal
  simp only [bind_eq_ok, mapErr_eq_ok, err_if_eq_ok, bne_iff_ne, ne_eq,
    not_not, Bool.not_eq_true, Bool.not_eq_false', List.contains_iff_mem, pure_eq,
    ok.injEq]
  constructor
  · rintro ⟨⟨proposer, _⟩, hrecover, rfl, hmem, hrecent, isInturn, hinturn, hdifficulty, rfl⟩
    exact ⟨hrecover, hmem, hrecent, isInturn, hinturn, (hturn isInturn).mp hdifficulty⟩
  · rintro ⟨hrecover, hmem, hrecent, isInturn, hinturn, hdifficulty⟩
    exact ⟨_, hrecover, rfl, hmem, hrecent, isInturn, hinturn,
      (hturn isInturn).mpr hdifficulty, rfl⟩

end Seal

/-! ## The election -/

/-- The codings of the calls that only the checks before execution make; a decoder that fails is a
panic. -/
structure StakeHubCalls where
  maxElectedValidatorsInput : Bytes
  getValidatorElectionInfoInput : Bytes
  getNodeIDsInput : List Address → Bytes
  unpackDataIntoMaxElectedValidators : Bytes → Option Nat
  unpackDataIntoValidatorElectionInfo :
    Bytes → Option (List Address × List Nat × List Bytes × Nat)
  unpackDataIntoNodeIds : Bytes → Option (List Address × List (List (FixedBytes 32)))

/-- A `Result` of the executor inside the checks. -/
def liftExecution {α : Type} (x : Outcome BlockExecutionError α) : Outcome PreExecutionError α :=
  x.mapErr .execution

namespace BscBlockExecutor

variable {m : Machine} (ctx : ExecutionCtx) (hub : StakeHubCalls) (e : BscBlockExecutor m)

/-- The block starts a day on which validators are elected. -/
def electsValidators (number timestamp parentTimestamp : UInt64) : Outcome PreExecutionError Bool :=
  if ctx.spec.isFeynmanActiveAtTimestamp number timestamp &&
      !ctx.spec.isFeynmanTransitionAtTimestamp number timestamp parentTimestamp then
    isBreatheBlock ctx.breatheBlockInterval parentTimestamp timestamp
  else pure false

def zipElection (validators : List Address) (votingPowers : List Nat) (voteAddrs : List Bytes) :
    List ValidatorElectionInfo :=
  ((validators.zip votingPowers).zip voteAddrs).map fun entry => ⟨entry.1.1, entry.1.2, entry.2⟩

/-- The number of validators to elect, and the candidates. -/
def fetchElection : Outcome PreExecutionError ((Nat × List ValidatorElectionInfo) ×
    BscBlockExecutor m) := do
  let (bz, e) ← liftExecution (e.ethCall ctx stakeHubContract hub.maxElectedValidatorsInput)
  let maxElectedValidators ← unwrap (hub.unpackDataIntoMaxElectedValidators bz)
  let (bz, e) ← liftExecution (e.ethCall ctx stakeHubContract hub.getValidatorElectionInfoInput)
  let (validators, votingPowers, voteAddrs, totalLength) ←
    unwrap (hub.unpackDataIntoValidatorElectionInfo bz)
  let totalLength ← toU64 totalLength
  if validators.length ≠ totalLength.toNat ∨ votingPowers.length ≠ totalLength.toNat ∨
      voteAddrs.length ≠ totalLength.toNat then
    .err (.msg "Failed to get top validators")
  else pure ((maxElectedValidators, zipElection validators votingPowers voteAddrs), e)

/-- The two fields of the context that the election fills. -/
def prepareElection (number timestamp parentTimestamp : UInt64) (inner : InnerExecutionContext) :
    Outcome PreExecutionError (InnerExecutionContext × BscBlockExecutor m) := do
  if ← electsValidators ctx number timestamp parentTimestamp then
    let ((maxElectedValidators, info), e) ← e.fetchElection ctx hub
    pure ({ inner with
      maxElectedValidators := some maxElectedValidators
      validatorsElectionInfo := some info }, e)
  else pure (inner, e)

/-! ## Checking and preparing -/

/-- What a check leaves behind: the context, the executor, the cache of proposers, and the node ids
that the set of known EVN nodes is extended with. -/
structure Checked (m : Machine) where
  inner : InnerExecutionContext
  executor : BscBlockExecutor m
  proposers : LruMap B256 Address
  nodeIds : List (FixedBytes 32)

def verifyCascadingFields (c : SealCrypto) (fuel : Nat) (proposers : LruMap B256 Address)
    (header parent : Header) (snap : Snapshot) :
    Outcome PreExecutionError (LruMap B256 Address) := do
  (ctx.parlia.blockTimeVerifyForRamanujanFork ctx.crypto.hashSlow fuel snap header parent).mapErr
    .blockTime
  match ctx.parlia.verifyVoteAttestation ctx.crypto ctx.lookups snap header parent with
  | .error error => .err (.attestation error)
  | .ok () => verifySeal c ctx.systemContracts.chainId proposers snap header

/-- The executor after a call that the source ignores the error of: an EVM that ran and reverted has
still run. -/
def afterFailedCall (contract : Address) (data : Bytes) : BscBlockExecutor m :=
  let env : BscTxEnv :=
    { caller := .zero, kind := contract, nonce := 0, gasLimit := ctx.block.gasLimit,
      value := 0, data, gasPrice := 0, chainId := some ctx.systemContracts.chainId,
      isSystemTransaction := false }
  match m.transact e.evm (.env env) with
  | .ok (_, _, evm) => { e with evm }
  | .error _ => e

/-- From Maxwell on, the node ids that the validators registered; a call that fails is ignored. -/
def fetchNodeIds (header : Header) (validators : List Address) :
    Outcome PreExecutionError (List (FixedBytes 32) × BscBlockExecutor m) :=
  if ctx.spec.isMaxwellActiveAtTimestamp header.number header.timestamp then
    let data := hub.getNodeIDsInput validators
    match e.ethCall ctx stakeHubContract data with
    | .ok (output, e) => do
      let (_, nodeIdsList) ← unwrap (hub.unpackDataIntoNodeIds output)
      pure (nodeIdsList.flatten, e)
    | .err _ => pure ([], e.afterFailedCall ctx stakeHubContract data)
    | .panic => .panic
  else pure ([], e)

/-- On an epoch block the validators that the contract names, with their vote addresses. -/
def fetchCurrentValidators (header : Header) (snap : Snapshot) (inner : InnerExecutionContext) :
    Outcome PreExecutionError (InnerExecutionContext × List (FixedBytes 32) × BscBlockExecutor m) :=
  if isMultipleOf header.number snap.epochNum then do
    let ((validatorSet, voteAddresses), e) ← liftExecution
      (e.getCurrentValidatorsWithCache ctx (header.number - 1) header.parentHash)
    -- without vote addresses, as before Luban, the map is empty
    let voteAddrsMap :=
      Map.insertAll Prod.fst Prod.snd (validatorSet.zip voteAddresses) (∅ : Map Address VoteAddress)
    let (nodeIds, e) ← e.fetchNodeIds ctx hub header validatorSet
    pure ({ inner with currentValidators := some (validatorSet, voteAddrsMap) }, nodeIds, e)
  else pure (inner, [], e)

/-- The executor starts with an empty context; `header` is the one it was given. -/
def emptyContext (header : Option Header) : InnerExecutionContext where
  currentValidators := none
  maxElectedValidators := none
  validatorsElectionInfo := none
  snap := none
  header
  parentHeader := none

def checkNewBlock (c : SealCrypto) (fuel : Nat) (proposers : LruMap B256 Address)
    (header : Option Header) : Outcome PreExecutionError (Checked m) := do
  let inner := emptyContext header
  let header ← unwrap header
  let parentHeader ← okOr (.msg "Failed to get parent header from global header reader")
    (ctx.lookups.headerByHash header.parentHash)
  let snap ← okOr (.msg "Failed to get snapshot from snapshot provider")
    (ctx.lookups.snapshotByHash header.parentHash)
  let inner := { inner with parentHeader := some parentHeader, snap := some snap }
  let proposers ← verifyCascadingFields ctx c fuel proposers header parentHeader snap
  let (inner, nodeIds, e) ← e.fetchCurrentValidators ctx hub header snap inner
  let (inner, e) ← e.prepareElection ctx hub header.number header.timestamp parentHeader.timestamp
    inner
  pure ⟨inner, e, proposers, nodeIds⟩

def prepareNewBlock : Outcome PreExecutionError (InnerExecutionContext × BscBlockExecutor m) := do
  let parentHeader ← okOr (.msg "Failed to get parent header from global header reader")
    (ctx.lookups.headerByHash ctx.parentHash)
  let snap ← okOr (.msg "Failed to get snapshot from snapshot provider")
    (ctx.lookups.snapshotByHash ctx.parentHash)
  let inner := { emptyContext none with parentHeader := some parentHeader, snap := some snap }
  e.prepareElection ctx hub ctx.blockNumber ctx.blockTimestamp parentHeader.timestamp inner

/-! ## The two contexts agree -/

end BscBlockExecutor

/-- A call that is not committed leaves an EVM that answers calls as before.  EVMs that are `Alike`
differ only in what they have cached. -/
structure Machine.RepeatableReads (m : Machine) where
  Alike : m.Evm → m.Evm → Prop
  equivalence : Equivalence Alike
  call_leaves {evm evm' : m.Evm} {env : BscTxEnv} {result : m.ExecutionResult}
      {state : m.EvmState} (hread : env.isSystemTransaction = false) :
    m.transact evm (.env env) = .ok (result, state, evm') → Alike evm evm'
  call_alike {evm₁ evm₂ evm₁' : m.Evm} {env : BscTxEnv} {result : m.ExecutionResult}
      {state : m.EvmState} (hread : env.isSystemTransaction = false) :
    Alike evm₁ evm₂ → m.transact evm₁ (.env env) = .ok (result, state, evm₁') →
      ∃ evm₂', m.transact evm₂ (.env env) = .ok (result, state, evm₂')

/-- The context of the miner that builds the block of `ctx`. -/
def ExecutionCtx.mining (ctx : ExecutionCtx) (innerCtx : InnerExecutionContext)
    (sign : Option (Transaction → Except String TransactionSigned)) : ExecutionCtx :=
  { ctx with isMiner := true, innerCtx, signSystemTransaction := sign }

namespace BscBlockExecutor

section Agree

variable {m : Machine} {ctx : ExecutionCtx} {hub : StakeHubCalls} {e e' f : BscBlockExecutor m}
  (q : m.RepeatableReads)
include q

theorem ethCall_leaves {contract : Address} {data output : Bytes}
    (h : e.ethCall ctx contract data = .ok (output, e')) : q.Alike e.evm e'.evm := by
  unfold ethCall at h
  simp only [bind_eq_ok, ofResult_eq_ok, err_if_eq_ok, pure_eq, ok.injEq, Prod.mk.injEq] at h
  obtain ⟨⟨result, state, evm⟩, htransact, -, -, -, -, rfl⟩ := h
  exact q.call_leaves rfl htransact

/-- An EVM that is alike answers a call in the same way. -/
theorem ethCall_alike (hf : q.Alike e.evm f.evm) {contract : Address} {data output : Bytes}
    (h : e.ethCall ctx contract data = .ok (output, e')) :
    ∃ f', f.ethCall ctx contract data = .ok (output, f') := by
  unfold ethCall at h ⊢
  simp only [bind_eq_ok, ofResult_eq_ok, err_if_eq_ok, pure_eq, ok.injEq, Prod.mk.injEq] at h ⊢
  obtain ⟨⟨result, state, evm⟩, htransact, hsuccess, _, houtput, rfl, -⟩ := h
  obtain ⟨evm', htransact'⟩ := q.call_alike rfl hf htransact
  exact ⟨_, _, htransact', hsuccess, _, houtput, rfl, rfl⟩

/-- What the two calls of the election answered. -/
theorem fetchElection_alike (hf : q.Alike e.evm f.evm) {election : Nat × List ValidatorElectionInfo}
    (h : e.fetchElection ctx hub = .ok (election, e')) :
    ∃ f', f.fetchElection ctx hub = .ok (election, f') ∧ q.Alike e'.evm f'.evm := by
  unfold fetchElection liftExecution at h ⊢
  simp only [bind_eq_ok, mapErr_eq_ok, err_if_eq_ok, pure_eq, ok.injEq, Prod.mk.injEq] at h ⊢
  obtain ⟨⟨bz, e₁⟩, hmax, maxElected, hunpackMax, ⟨bz', e₂⟩, hinfo, unpacked, hunpackInfo,
    total, htotal, hlengths, rfl, rfl⟩ := h
  obtain ⟨f₁, hmax'⟩ := ethCall_alike q hf hmax
  -- both calls start from EVMs that the calls before left alike
  have hf₁ : q.Alike e₁.evm f₁.evm :=
    q.equivalence.trans (q.equivalence.symm (ethCall_leaves q hmax))
      (q.equivalence.trans hf (ethCall_leaves q hmax'))
  obtain ⟨f₂, hinfo'⟩ := ethCall_alike q hf₁ hinfo
  refine ⟨f₂, ⟨_, hmax', _, hunpackMax, _, hinfo', _, hunpackInfo, _, htotal, hlengths, rfl,
    rfl⟩, ?_⟩
  exact q.equivalence.trans (q.equivalence.symm (ethCall_leaves q hinfo))
    (q.equivalence.trans hf₁ (ethCall_leaves q hinfo'))

variable {number : UInt64} {header : Header}

theorem prepareElection_alike (hf : q.Alike e.evm f.evm) {timestamp parentTimestamp : UInt64}
    {inner inner' : InnerExecutionContext}
    (h : e.prepareElection ctx hub number timestamp parentTimestamp inner = .ok (inner', e'))
    (header : Option Header) (validators : Option (List Address × Map Address VoteAddress)) :
    ∃ f', f.prepareElection ctx hub number timestamp parentTimestamp
        { inner with header, currentValidators := validators }
          = .ok ({ inner' with header, currentValidators := validators }, f') ∧
      q.Alike e'.evm f'.evm := by
  unfold prepareElection at h ⊢
  obtain ⟨elects, helects, h⟩ := bind_eq_ok.mp h
  rw [helects, ok_bind]
  cases elects with
  | false =>
    cases h
    exact ⟨f, rfl, hf⟩
  | true =>
    simp only [if_true] at h ⊢
    obtain ⟨⟨election, e₁⟩, hfetch, h⟩ := bind_eq_ok.mp h
    cases h
    obtain ⟨f', hfetch', hf'⟩ := fetchElection_alike q hf hfetch
    exact ⟨f', by rw [hfetch']; rfl, hf'⟩

theorem afterFailedCall_leaves (contract : Address) (data : Bytes) :
    q.Alike e.evm (e.afterFailedCall ctx contract data).evm := by
  unfold afterFailedCall
  dsimp only
  split
  · next htransact => exact q.call_leaves rfl htransact
  · exact q.equivalence.refl _

theorem fetchNodeIds_leaves {validators : List Address} {nodeIds : List (FixedBytes 32)}
    (h : e.fetchNodeIds ctx hub header validators = .ok (nodeIds, e')) : q.Alike e.evm e'.evm := by
  unfold fetchNodeIds at h
  split at h
  · dsimp only at h
    split at h
    · next hcall =>
      obtain ⟨_, -, h⟩ := bind_eq_ok.mp h
      obtain ⟨-, rfl⟩ := Prod.mk.inj (ok.inj h)
      exact ethCall_leaves q hcall
    · obtain ⟨-, rfl⟩ := Prod.mk.inj (ok.inj h)
      exact afterFailedCall_leaves q _ _
    · cases h
  · obtain ⟨-, rfl⟩ := Prod.mk.inj (ok.inj h)
    exact q.equivalence.refl _

theorem getCurrentValidators_leaves {validators : List Address × List VoteAddress}
    (h : e.getCurrentValidators ctx number = .ok (validators, e')) : q.Alike e.evm e'.evm := by
  unfold getCurrentValidators at h
  dsimp only at h
  split at h <;>
  · obtain ⟨⟨output, e₁⟩, hcall, h⟩ := bind_eq_ok.mp h
    obtain ⟨_, -, h⟩ := bind_eq_ok.mp h
    obtain ⟨-, rfl⟩ := Prod.mk.inj (ok.inj h)
    exact ethCall_leaves q hcall

theorem getCurrentValidatorsWithCache_leaves {hash : B256}
    {validators : List Address × List VoteAddress}
    (h : e.getCurrentValidatorsWithCache ctx number hash = .ok (validators, e')) :
    q.Alike e.evm e'.evm := by
  unfold getCurrentValidatorsWithCache at h
  split at h
  · obtain ⟨-, rfl⟩ := Prod.mk.inj (ok.inj h)
    exact q.equivalence.refl _
  · obtain ⟨⟨_, e₁⟩, hcall, h⟩ := bind_eq_ok.mp h
    have hleaves : q.Alike e.evm e₁.evm := getCurrentValidators_leaves q hcall
    obtain ⟨-, rfl⟩ := Prod.mk.inj (ok.inj h)
    exact hleaves

/-- An epoch block fills in the validators, and nothing else of the context. -/
theorem fetchCurrentValidators_leaves {snap : Snapshot}
    {inner inner' : InnerExecutionContext} {nodeIds : List (FixedBytes 32)}
    (h : e.fetchCurrentValidators ctx hub header snap inner = .ok (inner', nodeIds, e')) :
    inner' = { inner with currentValidators := inner'.currentValidators } ∧
      q.Alike e.evm e'.evm := by
  unfold fetchCurrentValidators at h
  split at h
  · obtain ⟨⟨_, e₁⟩, hcall, h⟩ := bind_eq_ok.mp h
    obtain ⟨⟨_, e₂⟩, hids, h⟩ := bind_eq_ok.mp h
    obtain ⟨rfl, hrest⟩ := Prod.mk.inj (ok.inj h)
    obtain ⟨-, rfl⟩ := Prod.mk.inj hrest
    refine ⟨rfl, q.equivalence.trans ?_ (fetchNodeIds_leaves q hids)⟩
    exact getCurrentValidatorsWithCache_leaves q (mapErr_eq_ok.mp hcall)
  · obtain ⟨rfl, hrest⟩ := Prod.mk.inj (ok.inj h)
    obtain ⟨-, rfl⟩ := Prod.mk.inj hrest
    exact ⟨rfl, q.equivalence.refl _⟩

/-- **The miner sees what the verifier sees.**  When the check of a block passes, a miner that
prepares the same block from an EVM that is alike succeeds; it has the same parent, snapshot and
election, and its EVM answers alike. -/
theorem contexts_agree {c : SealCrypto} {fuel : Nat} {proposers : LruMap B256 Address}
    {checked : Checked m} (hnumber : header.number = ctx.blockNumber)
    (htimestamp : header.timestamp = ctx.blockTimestamp)
    (hparent : header.parentHash = ctx.parentHash)
    (hcheck : e.checkNewBlock ctx hub c fuel proposers (some header) = .ok checked)
    (hf : q.Alike e.evm f.evm) (innerCtx : InnerExecutionContext)
    (sign : Option (Transaction → Except String TransactionSigned)) :
    ∃ f', f.prepareNewBlock (ctx.mining innerCtx sign) hub
        = .ok ({ checked.inner with header := none, currentValidators := none }, f') ∧
      q.Alike checked.executor.evm f'.evm := by
  have hmining : f.prepareNewBlock (ctx.mining innerCtx sign) hub = f.prepareNewBlock ctx hub := rfl
  unfold checkNewBlock at hcheck
  simp only [unwrap_some, ok_bind, bind_eq_ok, okOr_eq_ok] at hcheck
  obtain ⟨parentHeader, hheader, snap, hsnap, _, -, ⟨inner, nodeIds, e₁⟩, hvalidators,
    ⟨inner', e₂⟩, helection, hchecked⟩ := hcheck
  cases hchecked
  obtain ⟨hinner, hleaves⟩ := fetchCurrentValidators_leaves q hvalidators
  have hf₁ : q.Alike e₁.evm f.evm := q.equivalence.trans (q.equivalence.symm hleaves) hf
  obtain ⟨f', hprepare, hf'⟩ := prepareElection_alike q hf₁ helection none none
  refine ⟨f', ?_, hf'⟩
  rw [hmining, prepareNewBlock, ← hparent, hheader, hsnap, ← hnumber, ← htimestamp]
  rwa [hinner] at hprepare

end Agree

end BscBlockExecutor

/-! ### The first block of a day

Feynman is active since second 1000.  The parent is at second 1000, its child a day later. -/

/-- An EVM that counts the calls it has answered, which no answer depends on. -/
def countingMachine : Machine where
  Evm := Nat
  ExecutionResult := Unit
  EvmState := Unit
  Receipt := Unit
  gasUsed _ := 0
  isSuccess _ := true
  output _ := some []
  transact calls _ := .ok ((), (), calls + 1)
  commit calls _ := calls
  buildReceipt _ := ()
  basic calls _ := .ok (none, calls)
  loadCacheAccount calls _ := .ok (none, calls)
  drainBalance calls _ := (0, calls)
  incrementBalance calls _ _ := .ok calls
  patchBeforeTx calls _ := .ok calls
  patchAfterTx calls _ := .ok calls
  upgradeContracts calls _ _ _ := .ok calls

def countingMachineReads : countingMachine.RepeatableReads where
  Alike _ _ := True
  equivalence := ⟨fun _ => trivial, fun _ => trivial, fun _ _ => trivial⟩
  call_leaves _ _ := trivial
  call_alike _ _ h := by
    obtain ⟨rfl, hrest⟩ := Prod.mk.inj (Except.ok.inj h)
    obtain ⟨rfl, -⟩ := Prod.mk.inj hrest
    exact ⟨_, rfl⟩

/-- One candidate for 21 seats. -/
def soleCandidateHub : StakeHubCalls where
  maxElectedValidatorsInput := []
  getValidatorElectionInfoInput := []
  getNodeIDsInput _ := []
  unpackDataIntoMaxElectedValidators _ := some 21
  unpackDataIntoValidatorElectionInfo _ := some ([loneValidator], [5], [[1]], 1)
  unpackDataIntoNodeIds _ := none

/-- Every seal is that of the lone validator. -/
def loneSealCrypto : SealCrypto where
  keccak256 _ := .repeatByte 32 7
  RecoverableSignature := Unit
  fromCompact _ _ := some ()
  recoverEcdsa _ _ := some []

def breatheHeader : Header :=
  { timedHeader 2 87400 0 with beneficiary := loneValidator, difficulty := diffInturn }

def breatheCtx : ExecutionCtx :=
  { BscBlockExecutor.depositCtx with
    parlia := .ofSpec feynmanSpec
    lookups :=
      { snapshotByHash := fun _ => some loneSnapshot
        headerByHash := fun _ => some (timedHeader 1 1000 0)
        headerByNumber := fun _ => none
        canonicalHeaderByHash := fun _ => none }
    block := ⟨2, loneValidator, 87400, diffInturn, none, 30000000, 0, none⟩
    blockTimestamp := 87400
    number_eq := rfl
    timestamp_eq := rfl
    parentHash := breatheHeader.parentHash }

def breatheExecutor (calls : Nat) : BscBlockExecutor countingMachine :=
  .new (m := countingMachine) calls (.new 1024) (.new 1024)

def breatheInner (header : Option Header) : InnerExecutionContext where
  currentValidators := none
  maxElectedValidators := some 21
  validatorsElectionInfo := some [⟨loneValidator, 5, [1]⟩]
  snap := some loneSnapshot
  header
  parentHeader := some (timedHeader 1 1000 0)

/-- The miner's EVM has answered seven calls more than the verifier's. -/
theorem breathe_contexts_agree :
    ∃ checked, (breatheExecutor 0).checkNewBlock breatheCtx soleCandidateHub loneSealCrypto 0
        (.new recoveredProposerCacheNum) (some breatheHeader) = .ok checked ∧
      checked.inner = breatheInner (some breatheHeader) ∧
      ∃ f', (breatheExecutor 7).prepareNewBlock
          (breatheCtx.mining (BscBlockExecutor.emptyContext none) none) soleCandidateHub
        = .ok (breatheInner none, f') := by
  have hcheck : (breatheExecutor 0).checkNewBlock breatheCtx soleCandidateHub loneSealCrypto 0
      (.new recoveredProposerCacheNum) (some breatheHeader)
      = .ok ⟨breatheInner (some breatheHeader), breatheExecutor 2,
          (LruMap.new recoveredProposerCacheNum).insert (.repeatByte 32 7) loneValidator,
          []⟩ := by
    rfl
  obtain ⟨f', hprepare, -⟩ := BscBlockExecutor.contexts_agree (f := breatheExecutor 7)
    countingMachineReads rfl rfl rfl hcheck trivial (BscBlockExecutor.emptyContext none) none
  exact ⟨_, hcheck, rfl, f', hprepare⟩

end RethBsc
