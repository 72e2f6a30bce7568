import RethBsc.Miner.SameEnv
import RethBsc.Node.ReceiptOrder
import RethBsc.Parlia.WellFormed

/-!
# The caches for the next epoch

A block before an epoch block leaves the validators and, from Bohr on, the turn length of the next
epoch in two caches, under its hash.  A node that imports the block writes them at the end of
`postCheckNewBlock` and asks the snapshot after the block for the epoch length.  A miner reads the
contracts in `finalizeNewBlock`, asks the snapshot before the block, and writes the caches in
`BscBlockBuilder::finish` (`src/node/evm/builder.rs`), when the block has a hash.

* `CachesOf`: what generating transactions leaves alone.
* `postCheckNewBlock_fills` and `builderFinish_fills`: what each path leaves in the caches.
* `nextEpoch_switch_iff`: when the two snapshots disagree about the next block.
-/

namespace RethBsc

open Rust Outcome

/-! ## The block builder -/

/-- What a builder has besides the executor: the configuration, the block body so far, what other
crates compute of it, and what sealing reads. -/
structure BscBlockBuilder (m : Machine) where
  config : BscEvmConfig
  cfgEnv : CfgEnv
  parent : Header
  transactions : List TransactionSigned
  transactionRoot : List TransactionSigned → B256
  receiptRoot : List m.Receipt → B256
  logsBloom : List m.Receipt → FixedBytes 256
  blobGasUsed : TransactionSigned → Option UInt64
  /-- The root of the state after the block, by the state provider. -/
  stateRoot : m.Evm → Except String B256
  provider : Option Lookups
  pool : VotePool
  globalSigner : Option (Header → UInt64 → Except SignerError (FixedBytes extraSealLen))

namespace BscBlockBuilder

variable {m : Machine} (b : BscBlockBuilder m)

def codec : BlockCodec where
  Tx := TransactionSigned
  Receipt := m.Receipt
  transactionRoot := b.transactionRoot
  receiptRoot := b.receiptRoot
  logsBloom := b.logsBloom
  blobGasUsed := b.blobGasUsed

end BscBlockBuilder

namespace BscBlockExecutor

variable {m : Machine}

/-- What the executor shared goes to the caches, under the hash of the assembled block. -/
def cacheShared (e : BscBlockExecutor m) (blockHash : B256) : BscBlockExecutor m :=
  { e with
    validatorCache :=
      match e.sharedValidators with
      | some validators => e.validatorCache.insert blockHash validators
      | none => e.validatorCache
    turnLengthCache :=
      match e.sharedTurnLength with
      | some turnLength => e.turnLengthCache.insert blockHash turnLength
      | none => e.turnLengthCache }

end BscBlockExecutor

/-- `BscBlockBuilder::finish`: the executor finishes the block, the block is assembled with the
generated transactions and sealed, and what was shared is cached. -/
def BscBlockBuilder.finish {m : Machine} (b : BscBlockBuilder m) (ctx : ExecutionCtx)
    (e : BscBlockExecutor m) :
    Outcome BlockExecutionError (BscBlock b.codec × BscBlockExecutor m) := do
  let e ← e.finish ctx
  let stateRoot ← ofResult .other (b.stateRoot e.evm)
  let input : BscBlockAssemblerInput b.codec :=
    { evmEnv := ⟨b.cfgEnv, ctx.block⟩
      parentHash := ctx.parentHash
      parent := b.parent
      transactions := b.transactions ++ e.assembledSystemTxs
      receipts := e.result.receipts
      gasUsed := e.gasUsed
      stateRoot }
  let state : MinerState :=
    { validatorCache := e.validatorCache.find
      turnLengthCache := e.turnLengthCache.find
      pool := b.pool
      globalSigner := b.globalSigner }
  let block ← (assembleBlockBsc b.config input ctx.crypto b.provider state).mapErr .msg
  pure (block, e.cacheShared (ctx.crypto.hashSlow block.header))

/-- An assembled block has the number and the time of its environment. -/
theorem assembleBlockBsc_number_timestamp {c : BscEvmConfig} {codec : BlockCodec}
    {input : BscBlockAssemblerInput codec} {crypto : Crypto} {provider : Option Lookups}
    {state : MinerState} {block : BscBlock codec}
    (h : assembleBlockBsc c input crypto provider state = .ok block) :
    block.header.number = saturatingTo input.evmEnv.blockEnv.number ∧
      block.header.timestamp = saturatingTo input.evmEnv.blockEnv.timestamp := by
  unfold assembleBlockBsc at h
  obtain ⟨lookups, -, h⟩ := bind_eq_ok.mp h
  obtain ⟨parentHeader, -, h⟩ := bind_eq_ok.mp h
  obtain ⟨snap, -, h⟩ := bind_eq_ok.mp h
  obtain ⟨header, hseal, h⟩ := bind_eq_ok.mp h
  cases h
  obtain ⟨difficulty, -, hsame⟩ := finalizeNewHeader_eq_ok (mapErr_eq_ok.mp hseal)
  refine ⟨?_, ?_⟩
  · show header.number = _
    rw [hsame]
    rfl
  · show header.timestamp = _
    rw [hsame]
    rfl

namespace BscBlockExecutor

variable {m : Machine} {ctx : ExecutionCtx} {e₀ e e' : BscBlockExecutor m}

/-! ## What generating transactions leaves alone -/

/-- The caches and the shared results are those of `e₀`. -/
structure CachesOf (e₀ e : BscBlockExecutor m) : Prop where
  validatorCache : e.validatorCache = e₀.validatorCache
  turnLengthCache : e.turnLengthCache = e₀.turnLengthCache
  sharedValidators : e.sharedValidators = e₀.sharedValidators
  sharedTurnLength : e.sharedTurnLength = e₀.sharedTurnLength

theorem CachesOf.refl (e : BscBlockExecutor m) : CachesOf e e := ⟨rfl, rfl, rfl, rfl⟩

theorem takeSystemTx_caches (he : CachesOf e₀ e) (transaction : Transaction) :
    (e.takeSystemTx ctx transaction).Ensures fun r => ∀ p, r = some p → CachesOf e₀ p.2 := by
  have hnone : ∀ p : TransactionSigned × BscBlockExecutor m, none = some p → CachesOf e₀ p.2 := nofun
  unfold takeSystemTx
  refine .ite (fun _ => ?_) fun _ => ?_
  · split
    · exact .ite (fun _ => .of_ok hnone) fun _ => .of_err _
    · refine .ite (fun _ => .ite (fun _ => .of_ok hnone) fun _ => .of_err _) fun _ => .of_ok ?_
      rintro p ⟨⟩
      exact ⟨he.1, he.2, he.3, he.4⟩
  · split
    · exact .of_err _
    · refine .bind_any fun signed => .of_ok ?_
      rintro p ⟨⟩
      exact ⟨he.1, he.2, he.3, he.4⟩

variable (ctx) in
theorem cachesOf_kept (e₀ : BscBlockExecutor m) : Kept ctx (CachesOf e₀) where
  quiet _ he := ⟨he.1, he.2, he.3, he.4⟩
  call {e} transaction he := by
    unfold transactSystemTx
    refine .bind_any fun loaded => ?_
    dsimp only
    have hloaded : CachesOf e₀ { e with evm := loaded.2 } := ⟨he.1, he.2, he.3, he.4⟩
    refine .bind (takeSystemTx_caches hloaded _) fun taken htaken => ?_
    cases taken with
    | none => exact .of_ok hloaded
    | some p =>
      have hp := htaken p rfl
      refine .bind_any fun kind => .bind_any fun r => .of_ok ?_
      exact ⟨hp.1, hp.2, hp.3, hp.4⟩

/-! ## Importing a block -/

/-- Nothing is cached for `blockHash`, and there is room. -/
structure Uncached (e : BscBlockExecutor m) (blockHash : B256) : Prop where
  validators : e.validatorCache.find blockHash = none
  turnLength : e.turnLengthCache.find blockHash = none
  validatorLimit : 0 < e.validatorCache.limit
  turnLengthLimit : 0 < e.turnLengthCache.limit

/-- The caches hold something for `blockHash` exactly if the next block starts an epoch of
`epochNum` blocks; they hold a turn length if Bohr is active as well. -/
structure FilledFor (spec : ChainSpec) (epochNum : UInt64) (header : Header) (blockHash : B256)
    (e : BscBlockExecutor m) : Prop where
  validators : (e.validatorCache.find blockHash).isSome = true ↔
    isMultipleOf (header.number + 1) epochNum = true
  turnLength : (e.turnLengthCache.find blockHash).isSome = true ↔
    isMultipleOf (header.number + 1) epochNum = true ∧
      spec.isBohrActiveAtTimestamp header.number header.timestamp = true

variable {blockHash : B256} {header : Header} {snap : Snapshot}

theorem getCurrentValidatorsWithCache_fills (hfresh : Uncached e blockHash) (number : UInt64) :
    (e.getCurrentValidatorsWithCache ctx number blockHash).Ensures fun r =>
      (r.2.validatorCache.find blockHash).isSome = true ∧
        r.2.turnLengthCache = e.turnLengthCache := by
  have hmiss : e.validatorCache.get blockHash = (none, e.validatorCache) := by
    rw [LruMap.get, hfresh.validators]
  rw [getCurrentValidatorsWithCache, hmiss]
  dsimp only
  have hread : (e.getCurrentValidators ctx number).Ensures fun r => CachesOf e r.2 :=
    (cachesOf_kept ctx e).getCurrentValidators (CachesOf.refl e) number
  refine .bind hread fun r hr => .of_ok ⟨?_, hr.turnLengthCache⟩
  dsimp only
  rw [LruMap.find_insert_self (by rw [hr.validatorCache]; exact hfresh.validatorLimit)]
  rfl

theorem cacheForNextEpoch_fills (hheader : ctx.innerCtx.header = some header)
    (hsnap : ctx.lookups.snapshotByHash (ctx.crypto.hashSlow header) = some snap)
    (hfresh : Uncached e (ctx.crypto.hashSlow header)) :
    (e.cacheForNextEpoch ctx).Ensures
      (FilledFor ctx.spec snap.epochNum header (ctx.crypto.hashSlow header)) := by
  rw [cacheForNextEpoch, hheader, unwrap_some, ok_bind]
  dsimp only
  rw [hsnap, okOr_some, ok_bind]
  refine .ite (fun hnext => ?_) fun hnext => ?_
  · have hnext : isMultipleOf (header.number + 1) snap.epochNum = false := by simpa using hnext
    refine .of_ok ⟨?_, ?_⟩
    · simp [hfresh.validators, hnext]
    · simp [hfresh.turnLength, hnext]
  · have hnext : isMultipleOf (header.number + 1) snap.epochNum = true := by simpa using hnext
    refine .bind (getCurrentValidatorsWithCache_fills hfresh header.number) fun r hr => ?_
    refine .ite (fun hbohr => .of_ok ⟨?_, ?_⟩) fun hbohr => ?_
    · simp [hr.1, hnext]
    · rw [hr.2, hfresh.turnLength]
      simpa using fun _ => hbohr
    · have hread : (r.2.getTurnLength ctx header.number header.timestamp).Ensures
          fun r' => CachesOf r.2 r'.2 :=
        (cachesOf_kept ctx r.2).getTurnLength (CachesOf.refl r.2) _ _
      refine .bind hread fun r' hr' => .of_ok ⟨?_, ?_⟩
      · dsimp only
        rw [hr'.validatorCache, hr.1, hnext]
      · dsimp only
        rw [LruMap.find_insert_self
          (by rw [hr'.turnLengthCache, hr.2]; exact hfresh.turnLengthLimit)]
        simpa [hnext] using hbohr

theorem CachesOf.uncached (h : CachesOf e₀ e) (h₀ : Uncached e₀ blockHash) :
    Uncached e blockHash := by
  obtain ⟨hvalidators, hturn, hlimit, hlimit'⟩ := h₀
  rw [← h.validatorCache] at hvalidators hlimit
  rw [← h.turnLengthCache] at hturn hlimit'
  exact ⟨hvalidators, hturn, hlimit, hlimit'⟩

/-- **Importing a block fills the caches** if the snapshot after it says that an epoch starts. -/
theorem postCheckNewBlock_fills (hheader : ctx.innerCtx.header = some header)
    (hsnap : ctx.lookups.snapshotByHash (ctx.crypto.hashSlow header) = some snap)
    (hfresh : Uncached e (ctx.crypto.hashSlow header)) (h : e.postCheckNewBlock ctx = .ok e') :
    FilledFor ctx.spec snap.epochNum header (ctx.crypto.hashSlow header) e' := by
  obtain ⟨e₁, he₁, -, hcache⟩ := (cachesOf_kept ctx e).postCheckNewBlock (CachesOf.refl e) e' h
  exact cacheForNextEpoch_fills hheader hsnap (he₁.uncached hfresh) e' hcache

/-! ## Mining a block -/

/-- What a miner shares, by the epoch length before the block. -/
theorem shareForNextEpoch_shares (snap : Snapshot) (hvalidators : e.sharedValidators = none)
    (hturn : e.sharedTurnLength = none) :
    (e.shareForNextEpoch ctx snap).Ensures fun e' =>
      e'.validatorCache = e.validatorCache ∧ e'.turnLengthCache = e.turnLengthCache ∧
      (e'.sharedValidators.isSome = true ↔
        isMultipleOf (ctx.blockNumber + 1) snap.epochNum = true) ∧
      (e'.sharedTurnLength.isSome = true ↔ isMultipleOf (ctx.blockNumber + 1) snap.epochNum = true ∧
          ctx.spec.isBohrActiveAtTimestamp ctx.blockNumber ctx.blockTimestamp = true) := by
  unfold shareForNextEpoch
  refine .ite (fun hnext => ?_) fun hnext => ?_
  · have hnext : isMultipleOf (ctx.blockNumber + 1) snap.epochNum = false := by simpa using hnext
    refine .of_ok ⟨rfl, rfl, ?_, ?_⟩
    · simp [hvalidators, hnext]
    · simp [hturn, hnext]
  · have hnext : isMultipleOf (ctx.blockNumber + 1) snap.epochNum = true := by simpa using hnext
    have hread : (e.getCurrentValidators ctx ctx.blockNumber).Ensures fun r => CachesOf e r.2 :=
      (cachesOf_kept ctx e).getCurrentValidators (CachesOf.refl e) _
    refine .bind hread fun r hr => ?_
    dsimp only
    refine .ite (fun hbohr => .of_ok ⟨hr.validatorCache, hr.turnLengthCache, ?_, ?_⟩) fun hbohr => ?_
    · simp [hnext]
    · rw [show _ = none from hr.sharedTurnLength.trans hturn]
      simpa using fun _ => hbohr
    -- from Bohr on there is a second call, and the validators are shared before it
    · let e₁ : BscBlockExecutor m := { r.2 with sharedValidators := some r.1 }
      have hread' : (e₁.getTurnLength ctx ctx.blockNumber ctx.blockTimestamp).Ensures
          fun r' => CachesOf e₁ r'.2 :=
        (cachesOf_kept ctx e₁).getTurnLength (CachesOf.refl e₁) _ _
      refine .bind hread' fun r' hr' => .of_ok ⟨?_, ?_, ?_, ?_⟩
      · exact hr'.validatorCache.trans hr.validatorCache
      · exact hr'.turnLengthCache.trans hr.turnLengthCache
      · rw [show _ = some r.1 from hr'.sharedValidators]
        simp [hnext]
      · simpa [hnext] using hbohr

/-- **Mining a block fills the caches** if the snapshot before it says that an epoch starts. -/
theorem builderFinish_fills {b : BscBlockBuilder m} {block : BscBlock b.codec}
    (hminer : ctx.isMiner = true) (hsnap : ctx.innerCtx.snap = some snap)
    (hvalidators : e.sharedValidators = none) (hturn : e.sharedTurnLength = none)
    (h : b.finish ctx e = .ok (block, e')) (hfresh : Uncached e (ctx.crypto.hashSlow block.header)) :
    block.header.number = ctx.blockNumber ∧ block.header.timestamp = ctx.blockTimestamp ∧
      FilledFor ctx.spec snap.epochNum block.header (ctx.crypto.hashSlow block.header) e' := by
  unfold BscBlockBuilder.finish at h
  obtain ⟨e₁, hfinish, h⟩ := bind_eq_ok.mp h
  obtain ⟨stateRoot, -, h⟩ := bind_eq_ok.mp h
  obtain ⟨block', hassemble, h⟩ := bind_eq_ok.mp h
  cases h
  obtain ⟨hnumber, htimestamp⟩ := assembleBlockBsc_number_timestamp (mapErr_eq_ok.mp hassemble)
  dsimp only at hnumber htimestamp
  rw [ctx.number_eq, saturatingTo_toNat] at hnumber
  rw [ctx.timestamp_eq, saturatingTo_toNat] at htimestamp
  -- `finish` ends with sharing, and before that the caches are left alone
  obtain ⟨e₂, snap', he₂, hsnap', hshare⟩ :=
    (cachesOf_kept ctx e).finish_miner (CachesOf.refl e) hminer e₁ hfinish
  obtain rfl := Option.some.inj (hsnap'.symm.trans hsnap)
  obtain ⟨hcache, hcache', hshared, hshared'⟩ := shareForNextEpoch_shares snap'
    (he₂.sharedValidators.trans hvalidators) (he₂.sharedTurnLength.trans hturn) e₁ hshare
  rw [he₂.validatorCache] at hcache
  rw [he₂.turnLengthCache] at hcache'
  -- what was shared is inserted under the hash of the block, which was free
  refine ⟨hnumber, htimestamp, ?_, ?_⟩
  · rw [hnumber, ← hshared]
    unfold cacheShared
    dsimp only
    rw [hcache]
    cases e₁.sharedValidators with
    | none => simp [hfresh.validators]
    | some validators => simp [LruMap.find_insert_self hfresh.validatorLimit]
  · rw [hnumber, htimestamp, ← hshared']
    unfold cacheShared
    dsimp only
    rw [hcache']
    cases e₁.sharedTurnLength with
    | none => simp [hfresh.turnLength]
    | some turnLength => simp [LruMap.find_insert_self hfresh.turnLengthLimit]

/-! ## The two epoch lengths -/

/-- The block makes the epoch length 500, and the next block is not a multiple of 200. -/
def LeavesDefaultEpoch (spec : ChainSpec) (snap : Snapshot) (header : Header) : Prop :=
  snap.epochNum = defaultEpochLength ∧
    spec.isLorentzActiveAtTimestamp header.number header.timestamp = true ∧
    (header.number + 1) % 1000 = 500

instance (spec : ChainSpec) (snap : Snapshot) (header : Header) :
    Decidable (LeavesDefaultEpoch spec snap header) := by
  unfold LeavesDefaultEpoch
  infer_instance

/-- The snapshots before and after a block agree on whether the next block starts an epoch, except
in the step from 200 to 500. -/
theorem nextEpoch_switch_iff (snap : Snapshot) (hlength : Snapshot.EpochLength snap.epochNum)
    (isLorentz isMaxwell : Bool) (n : UInt64) :
    (isMultipleOf (n + 1) snap.epochNum = true ↔
      isMultipleOf (n + 1) (snap.switchEpochNum isLorentz isMaxwell n).epochNum = true) ↔
    ¬ (snap.epochNum = defaultEpochLength ∧ isLorentz = true ∧ (n + 1) % 1000 = 500) := by
  have hthousand : (n + 1) % 1000 = 500 ↔ (n + 1).toNat % 1000 = 500 := by
    rw [← UInt64.toNat_inj, UInt64.toNat_mod]
    rfl
  have hdefault : defaultEpochLength.toNat = 200 := rfl
  have hlorentz : lorentzEpochLength.toNat = 500 := rfl
  have hmaxwell : maxwellEpochLength.toNat = 1000 := rfl
  have hfive : isMultipleOf (n + 1) lorentzEpochLength = true ↔ (n + 1).toNat % 500 = 0 :=
    isMultipleOf_iff
  have hne : defaultEpochLength ≠ lorentzEpochLength := by decide
  rw [hthousand]
  unfold Snapshot.switchEpochNum
  dsimp only
  rw [isMultipleOf_iff, isMultipleOf_iff]
  -- the second step, from 500 to 1000, happens before a multiple of both
  have hsecond : ∀ d : UInt64, (n + 1).toNat % (if d = lorentzEpochLength ∧ isMaxwell = true ∧
      isMultipleOf (n + 1) maxwellEpochLength = true then maxwellEpochLength else d).toNat = 0 ↔
      (n + 1).toNat % d.toNat = 0 := by
    intro d
    split
    · next h =>
      obtain ⟨rfl, -, hmultiple⟩ := h
      rw [isMultipleOf_iff, hmaxwell] at hmultiple
      rw [hlorentz, hmaxwell]
      omega
    · exact .rfl
  rw [hsecond]
  rcases hlength with hlen | hlen | hlen
  · rw [hlen]
    split
    · next h =>
      have hmultiple := hfive.mp h.2.2
      rw [hdefault, hlorentz]
      simp only [h.2.1, true_and]
      omega
    · next h =>
      exact iff_of_true .rfl fun h' => h ⟨rfl, h'.2.1, hfive.mpr (by omega)⟩
  · rw [hlen, if_neg (fun h => hne h.1.symm)]
    exact iff_of_true .rfl fun h => hne h.1.symm
  · have hne' : maxwellEpochLength ≠ defaultEpochLength := by decide
    rw [hlen, if_neg (fun h => hne' h.1)]
    exact iff_of_true .rfl fun h => hne' h.1

/-- Caches that are filled by one epoch length are filled by another one exactly if both say the
same of the next block. -/
theorem FilledFor.iff {spec : ChainSpec} {epochNum epochNum' : UInt64}
    (h : FilledFor spec epochNum header blockHash e) :
    FilledFor spec epochNum' header blockHash e ↔
      (isMultipleOf (header.number + 1) epochNum = true ↔
        isMultipleOf (header.number + 1) epochNum' = true) := by
  constructor
  · intro h'
    rw [← h.validators, ← h'.validators]
  · intro hsame
    refine ⟨?_, ?_⟩
    · rw [h.validators, hsame]
    · rw [h.turnLength, hsame]

/-- **Mining a block and importing it fill the caches alike** exactly if the block does not make the
epoch length 500 before a block that is no multiple of 200.  The importing node always follows the
snapshot after the block. -/
theorem epoch_caches_alike_iff {m' : Machine} (ctx ctx' : ExecutionCtx)
    (hminer : ctx.isMiner = true) (hparlia : ctx'.parlia = ctx.parlia)
    (hhash : ctx'.crypto.hashSlow = ctx.crypto.hashSlow) {parentSnap : Snapshot}
    (hreach : Snapshot.Reachable ctx.crypto.hashSlow ctx.spec parentSnap)
    (hparent : ctx.innerCtx.snap = some parentSnap) (b : BscBlockBuilder m)
    (e e₁ : BscBlockExecutor m) (block : BscBlock b.codec) (hvalidators : e.sharedValidators = none)
    (hturn : e.sharedTurnLength = none) (hmine : b.finish ctx e = .ok (block, e₁))
    (hfresh : Uncached e (ctx.crypto.hashSlow block.header)) {v : Address}
    {newValidators : List Address} {voteAddrs : Option (List VoteAddress)}
    {attestation : Option VoteAttestation} {turnLength : Option UInt8}
    (happly : parentSnap.apply ctx.crypto.hashSlow ctx.spec v block.header newValidators voteAddrs
      attestation turnLength = .ok snap) (hheader : ctx'.innerCtx.header = some block.header)
    (hsnap : ctx'.lookups.snapshotByHash (ctx.crypto.hashSlow block.header) = some snap)
    (e' e₁' : BscBlockExecutor m') (himport : e'.postCheckNewBlock ctx' = .ok e₁')
    (hfresh' : Uncached e' (ctx.crypto.hashSlow block.header)) :
    FilledFor ctx.spec snap.epochNum block.header (ctx.crypto.hashSlow block.header) e₁' ∧
      (FilledFor ctx.spec snap.epochNum block.header (ctx.crypto.hashSlow block.header) e₁ ↔
        ¬ LeavesDefaultEpoch ctx.spec parentSnap block.header) := by
  rw [← hhash] at hsnap hfresh'
  have himported := postCheckNewBlock_fills hheader hsnap hfresh' himport
  rw [hhash, show ctx'.spec = ctx.spec from congrArg Parlia.spec hparlia] at himported
  obtain ⟨-, -, hmined⟩ := builderFinish_fills hminer hparent hvalidators hturn hmine hfresh
  refine ⟨himported, hmined.iff.trans ?_⟩
  rw [(Snapshot.apply_spec happly).epochNum]
  exact nextEpoch_switch_iff parentSnap hreach.epochLength _ _ _

/-! ### The step from 200 to 500

Lorentz is active from block 499 on, which makes the epoch length 500.  Block 500 starts an epoch,
and the miner of block 499 does not notice. -/

/-- An EVM without fees whose calls succeed. -/
def idleMachine : Machine where
  Evm := Unit
  ExecutionResult := Unit
  EvmState := Unit
  Receipt := Unit
  gasUsed _ := 0
  isSuccess _ := true
  output _ := some []
  transact _ _ := .ok ((), (), ())
  commit _ _ := ()
  buildReceipt _ := ()
  basic _ _ := .ok (none, ())
  loadCacheAccount _ _ := .ok (none, ())
  drainBalance _ _ := (0, ())
  incrementBalance _ _ _ := .ok ()
  patchBeforeTx _ _ := .ok ()
  patchAfterTx _ _ := .ok ()
  upgradeContracts _ _ _ _ := .ok ()

def soloContracts : SystemContract :=
  { plainContracts with
    unpackDataIntoValidatorSet := fun _ => some ([loneValidator], [loneVoteAddress])
    unpackDataIntoTurnLength := fun _ => some 1 }

/-- An empty block of the lone validator. -/
def soloHeader (n : Nat) : Header :=
  { Snapshot.tickHeader n with
    parentHash := numberHash (Snapshot.tickHeader (n - 1))
    ommersHash := emptyOmmerRootHash
    beneficiary := loneValidator
    difficulty := diffInturn
    gasLimit := 30000000
    extraData := List.replicate 32 0 ++ List.replicate 65 1
    baseFeePerGas := some 0 }

/-- The snapshots before and after block `n`. -/
def soloLookups (n : Nat) (after : Snapshot) : Lookups where
  snapshotByHash h :=
    if h = numberHash (soloHeader n) then some after else some (Snapshot.soloSnapshot (n - 1))
  headerByHash _ := some (Snapshot.tickHeader (n - 1))
  headerByNumber _ := none
  canonicalHeaderByHash _ := none

/-- Block `n` with Lorentz active from block 499 on. -/
def soloCtx (isMiner : Bool) (n : Nat) (after : Snapshot) : ExecutionCtx where
  parlia := .ofSpec (lorentzSpec 499)
  crypto := markedCrypto
  lookups := soloLookups n after
  systemContracts := soloContracts
  block := ⟨(UInt64.ofNat n).toNat, loneValidator, (UInt64.ofNat n).toNat, diffInturn, none,
    30000000, 0, none⟩
  blockNumber := UInt64.ofNat n
  blockTimestamp := UInt64.ofNat n
  number_eq := rfl
  timestamp_eq := rfl
  isMiner
  parentHash := numberHash (Snapshot.tickHeader (n - 1))
  innerCtx :=
    { currentValidators := some ([loneValidator], ∅), maxElectedValidators := none
      validatorsElectionInfo := none
      snap := some (Snapshot.soloSnapshot (n - 1))
      header := if isMiner then none else some (soloHeader n)
      parentHeader := some (Snapshot.tickHeader (n - 1)) }
  signer _ := loneValidator
  signatureHash _ := .zero
  signSystemTransaction := none
  breatheBlockInterval := 86400
  addressText := FixedBytes.toHex

def soloBuilder (n : Nat) (after : Snapshot) : BscBlockBuilder idleMachine where
  config := ⟨lorentzSpec 499, 56, calmBlobs⟩
  cfgEnv := ⟨56, .bohr, none⟩
  parent := Snapshot.tickHeader (n - 1)
  transactions := []
  transactionRoot _ := .zero
  receiptRoot _ := .zero
  logsBloom _ := .zero
  blobGasUsed _ := none
  stateRoot _ := .ok .zero
  provider := some (soloLookups n after)
  pool := .new
  globalSigner := some fun _ _ => .ok (.repeatByte 65 1)

def idleExecutor : BscBlockExecutor idleMachine := new (m := idleMachine) () (.new 1024) (.new 1024)

/-- The snapshot after block 499. -/
def soloSwitched : Snapshot :=
  { Snapshot.soloSnapshot 499 with epochNum := 500, blockInterval := lorentzBlockInterval }

def filledExecutor (n : Nat) : BscBlockExecutor idleMachine :=
  { idleExecutor with
    validatorCache := idleExecutor.validatorCache.insert (numberHash (soloHeader n))
      ([loneValidator], [loneVoteAddress])
    turnLengthCache := idleExecutor.turnLengthCache.insert (numberHash (soloHeader n)) 1 }

/-- Importing block 499 caches the validators and the turn length of the epoch that block 500 starts;
mining it caches nothing. -/
theorem block499_cached_by_import_only :
    Snapshot.Reachable numberHash (lorentzSpec 499) (Snapshot.soloSnapshot 498) ∧
      (Snapshot.soloSnapshot 498).apply numberHash (lorentzSpec 499) loneValidator (soloHeader 499)
        [] none none none = .ok soloSwitched ∧
      isMultipleOf ((soloHeader 499).number + 1) soloSwitched.epochNum = true ∧
      (soloBuilder 499 soloSwitched).finish (soloCtx true 499 soloSwitched) idleExecutor
        = .ok (⟨soloHeader 499, [], [], none⟩, idleExecutor) ∧
      idleExecutor.validatorCache.find (numberHash (soloHeader 499)) = none ∧
      idleExecutor.turnLengthCache.find (numberHash (soloHeader 499)) = none ∧
      idleExecutor.postCheckNewBlock (soloCtx false 499 soloSwitched) = .ok (filledExecutor 499) ∧
      (filledExecutor 499).validatorCache.find (numberHash (soloHeader 499))
        = some ([loneValidator], [loneVoteAddress]) ∧
      (filledExecutor 499).turnLengthCache.find (numberHash (soloHeader 499)) = some 1 :=
  ⟨Snapshot.reachable_soloRun (n := 498) (by decide +kernel), by decide +kernel, by decide, by rfl,
    by rfl, by rfl, by rfl, by decide +kernel, by decide +kernel⟩

/-- Before Lorentz the two paths agree: block 199 fills the caches on both. -/
theorem block199_cached_alike :
    FilledFor (lorentzSpec 499) 200 (soloHeader 199) (numberHash (soloHeader 199))
        (filledExecutor 199) ∧
      FilledFor (lorentzSpec 499) 200 (soloHeader 199) (numberHash (soloHeader 199))
        { filledExecutor 199 with
          sharedValidators := some ([loneValidator], [loneVoteAddress])
          sharedTurnLength := some 1 } := by
  have happly : (Snapshot.soloSnapshot 198).apply numberHash (lorentzSpec 499) loneValidator
      (soloHeader 199) [] none none none = .ok (Snapshot.soloSnapshot 199) := by decide +kernel
  have hmine : (soloBuilder 199 (Snapshot.soloSnapshot 199)).finish
      (soloCtx true 199 (Snapshot.soloSnapshot 199)) idleExecutor
      = .ok (⟨soloHeader 199, [], [], none⟩, { filledExecutor 199 with
            sharedValidators := some ([loneValidator], [loneVoteAddress])
            sharedTurnLength := some 1 }) := by rfl
  have himport : idleExecutor.postCheckNewBlock (soloCtx false 199 (Snapshot.soloSnapshot 199))
      = .ok (filledExecutor 199) := by rfl
  have hfresh : Uncached idleExecutor (numberHash (soloHeader 199)) :=
    ⟨rfl, rfl, by decide, by decide⟩
  have hsnap : (soloLookups 199 (Snapshot.soloSnapshot 199)).snapshotByHash
      (numberHash (soloHeader 199)) = some (Snapshot.soloSnapshot 199) := by
    simp [soloLookups]
  have halike := epoch_caches_alike_iff (soloCtx true 199 (Snapshot.soloSnapshot 199))
    (soloCtx false 199 (Snapshot.soloSnapshot 199)) rfl rfl rfl
    (Snapshot.reachable_soloRun (n := 198) (by decide +kernel)) rfl
    (soloBuilder 199 (Snapshot.soloSnapshot 199)) idleExecutor _ _ rfl rfl hmine hfresh happly rfl
    hsnap idleExecutor _ himport hfresh
  exact ⟨halike.1, halike.2.mpr (by decide)⟩

end BscBlockExecutor

end RethBsc
