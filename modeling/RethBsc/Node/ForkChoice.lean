import RethBsc.Parlia.ForkChoiceRule
import RethBsc.Parlia.Snapshot
import RethBsc.Rust.LruMap

/-!
# The fork choice engine

`BscForkChoiceEngine` (`src/node/consensus.rs`) decides whether an incoming header becomes the head
and tells the execution engine the head, the safe and the finalized block.  The last two are the
target and the source that the snapshot of the head has recorded.

* `Surroundings` is what the engine reads while it handles one header: the provider, the snapshots,
  the answers of the execution engine and a random bit.
* `ForkChoiceM` keeps the total difficulties that have been asked for and the states that have been
  sent, also when a function fails.
* `updateForkchoice_sent`: a call sends at most one state, `forkchoiceState` of the incoming header
  or of the current head.
-/

namespace RethBsc

open Rust

structure ForkchoiceState where
  headBlockHash : B256
  safeBlockHash : B256
  finalizedBlockHash : B256
  deriving DecidableEq

/-- The status in the answer to a fork choice update. -/
inductive PayloadStatusEnum where
  | valid
  | invalid (validationError : String)
  | syncing
  | accepted
  deriving DecidableEq

/-- What the fork choice engine reads during one call. -/
structure Surroundings where
  /-- `chain_info().best_number`. -/
  bestNumber : Except String UInt64
  headerByNumber : UInt64 → Except String (Option Header)
  /-- `snapshot_by_hash` of the shared provider, if one has been set. -/
  snapshotProvider : Option (B256 → Option Snapshot)
  queryTd : UInt64 → B256 → Except String (Option Nat)
  forkChoiceUpdated : ForkchoiceState → Except String PayloadStatusEnum
  coin : Bool

/-- The memory of the engine: a cache, and the states sent, the last one first. -/
structure BscForkChoiceEngine where
  headerTdCache : LruMap B256 (Option Nat)
  sent : List ForkchoiceState

def BscForkChoiceEngine.new : BscForkChoiceEngine := ⟨LruMap.new 128, []⟩

abbrev ForkChoiceM := ExceptT ParliaConsensusErr (StateM BscForkChoiceEngine)

namespace BscForkChoiceEngine

variable (hashSlow : Header → B256) (spec : ChainSpec) (io : Surroundings)

/-! ## Justified and finalized blocks -/

/-- The snapshot of a header. -/
def snapshotOf (header : Header) : Option Snapshot :=
  io.snapshotProvider.bind fun snapshotByHash => snapshotByHash (hashSlow header)

def getJustifiedNumberAndHash (header : Header) : Option (UInt64 × B256) :=
  if !spec.isLubanActiveAtBlock header.number then none
  else (snapshotOf hashSlow io header).map fun snap =>
    (snap.voteData.targetNumber, snap.voteData.targetHash)

def getFinalizedNumberAndHash (header : Header) : Option (UInt64 × B256) :=
  if !spec.isPlatoActiveAtBlock header.number then none
  else (snapshotOf hashSlow io header).map fun snap =>
    (snap.voteData.sourceNumber, snap.voteData.sourceHash)

/-! ## Total difficulties -/

/-- The total difficulty of a block, from the cache or from the execution engine. -/
def headerTd (number : UInt64) (hash : B256) : ForkChoiceM (Option Nat) := fun engine =>
  match engine.headerTdCache.get hash with
  | (some td, cache) => (.ok td, { engine with headerTdCache := cache })
  | (none, cache) =>
    match io.queryTd number hash with
    | .ok td => (.ok td, { engine with headerTdCache := cache.insert hash td })
    | .error e => (.error (.internal e), { engine with headerTdCache := cache })

/-- The total difficulties of both headers.  If that of the incoming one cannot be asked for, it is
computed from that of its parent. -/
def headerTdFcu (incoming current : Header) : ForkChoiceM (Option Nat × Option Nat) := do
  let currentTd ← headerTd io current.number (hashSlow current)
  let incomingTd ← tryCatch (headerTd io incoming.number (hashSlow incoming)) fun _ => do
    let parentTd ← headerTd io (incoming.number - 1) incoming.parentHash
    pure (parentTd.map fun td => (td + incoming.difficulty) % 2 ^ 256)
  pure (incomingTd, currentTd)

/-! ## Updates -/

def isNeedReorg (incoming current : Header) : ForkChoiceM Bool := do
  let (incomingTd, currentTd) ← headerTdFcu hashSlow io incoming current
  let incomingJustifiedNum :=
    ((getJustifiedNumberAndHash hashSlow spec io incoming).map Prod.fst).getD 0
  let currentJustifiedNum :=
    ((getJustifiedNumberAndHash hashSlow spec io current).map Prod.fst).getD 0
  liftExcept (BscForkChoiceRule.isNeedReorg ⟨spec⟩ hashSlow io.coin
    ⟨incoming, incomingTd, incomingJustifiedNum⟩ ⟨current, currentTd, currentJustifiedNum⟩)
where
  /-- A result that does not depend on the memory. -/
  liftExcept (x : Except ParliaConsensusErr Bool) : ForkChoiceM Bool := fun engine => (x, engine)

/-- The state for a head; a block that is not known is the zero hash. -/
def forkchoiceState (head : Header) : ForkchoiceState where
  headBlockHash := hashSlow head
  safeBlockHash := ((getJustifiedNumberAndHash hashSlow spec io head).getD (0, .zero)).2
  finalizedBlockHash :=
    ((getFinalizedNumberAndHash hashSlow spec io head).getD (0, .zero)).2

/-- `fork_choice_updated` of the execution engine. -/
def send (state : ForkchoiceState) : ForkChoiceM Unit := fun engine =>
  (match io.forkChoiceUpdated state with
    | .ok (.invalid validationError) => .error (.forkChoiceUpdateError validationError)
    | .ok _ => .ok ()
    | .error e => .error (.forkChoiceUpdateError e),
   { engine with sent := state :: engine.sent })

/-- The header of the best block of the provider. -/
def currentHead : Except ParliaConsensusErr Header :=
  match io.bestNumber with
  | .error e => .error (.provider e)
  | .ok number =>
    match io.headerByNumber number with
    | .error e => .error (.provider e)
    | .ok none => .error .headHashNotFound
    | .ok (some header) => .ok header

def updateForkchoice (incoming : Header) : ForkChoiceM Unit :=
  match currentHead io with
  | .error e => throw e
  | .ok current => do
    let needReorg ← isNeedReorg hashSlow spec io incoming current
    send io (forkchoiceState hashSlow spec io (if needReorg then incoming else current))

/-! ## What is sent -/

theorem bind_run {α β : Type} (x : ForkChoiceM α) (f : α → ForkChoiceM β)
    (engine : BscForkChoiceEngine) :
    (x >>= f) engine = match x engine with
      | (.ok a, engine') => f a engine'
      | (.error e, engine') => (.error e, engine') := by
  show ExceptT.bindCont f (x engine).1 (x engine).2 = _
  rcases x engine with ⟨_ | _, _⟩ <;> rfl

/-- A failed computation keeps what it has written. -/
theorem tryCatch_run {α : Type} (x : ForkChoiceM α) (handle : ParliaConsensusErr → ForkChoiceM α)
    (engine : BscForkChoiceEngine) :
    tryCatch x handle engine = match x engine with
      | (.ok a, engine') => (.ok a, engine')
      | (.error e, engine') => handle e engine' := by
  simp only [tryCatch, tryCatchThe, MonadExceptOf.tryCatch, ExceptT.tryCatch, ExceptT.mk, bind,
    StateT.bind]
  rcases x engine with ⟨_ | _, _⟩ <;> rfl

/-- The function sends nothing to the execution engine. -/
def SendsNothing {α : Type} (x : ForkChoiceM α) : Prop := ∀ engine, (x engine).2.sent = engine.sent

namespace SendsNothing

variable {α β : Type} {x : ForkChoiceM α} {f : α → ForkChoiceM β}

theorem pure (a : α) : SendsNothing (Pure.pure a) := fun _ => rfl

theorem bind (hx : SendsNothing x) (hf : ∀ a, SendsNothing (f a)) : SendsNothing (x >>= f) := by
  intro engine
  have hsent := hx engine
  rw [bind_run]
  rcases hxe : x engine with ⟨e | a, engine'⟩
  · rwa [hxe] at hsent
  · rw [hxe] at hsent
    exact (hf a engine').trans hsent

theorem tryCatch (hx : SendsNothing x) {handle : ParliaConsensusErr → ForkChoiceM α}
    (hhandle : ∀ e, SendsNothing (handle e)) : SendsNothing (MonadExcept.tryCatch x handle) := by
  intro engine
  have hsent := hx engine
  rw [tryCatch_run]
  rcases hxe : x engine with ⟨e | a, engine'⟩
  · rw [hxe] at hsent
    exact (hhandle e engine').trans hsent
  · rwa [hxe] at hsent

end SendsNothing

variable {hashSlow spec io}

theorem headerTd_sendsNothing (number : UInt64) (hash : B256) :
    SendsNothing (headerTd io number hash) := by
  intro engine
  grind [headerTd]

theorem headerTdFcu_sendsNothing (incoming current : Header) :
    SendsNothing (headerTdFcu hashSlow io incoming current) := by
  refine (headerTd_sendsNothing _ _).bind fun _ => ?_
  refine ((headerTd_sendsNothing _ _).tryCatch fun _ => ?_).bind fun _ => .pure _
  exact (headerTd_sendsNothing _ _).bind fun _ => .pure _

theorem isNeedReorg_sendsNothing (incoming current : Header) :
    SendsNothing (isNeedReorg hashSlow spec io incoming current) :=
  (headerTdFcu_sendsNothing incoming current).bind fun _ _ => rfl

/-- A call sends nothing, or the state for the incoming header or for the current head. -/
theorem updateForkchoice_sent (incoming : Header) (engine : BscForkChoiceEngine) :
    ((updateForkchoice hashSlow spec io incoming) engine).2.sent = engine.sent ∨
      ∃ head, (head = incoming ∨ currentHead io = .ok head) ∧
        ((updateForkchoice hashSlow spec io incoming) engine).2.sent =
          forkchoiceState hashSlow spec io head :: engine.sent := by
  unfold updateForkchoice
  cases hcurrent : currentHead io with
  | error e => exact .inl rfl
  | ok current =>
    have hsent : ((isNeedReorg hashSlow spec io incoming current) engine).2.sent = engine.sent :=
      isNeedReorg_sendsNothing incoming current engine
    dsimp only
    rw [bind_run]
    rcases hreorg : isNeedReorg hashSlow spec io incoming current engine with
      ⟨e | needReorg, engine'⟩
    · rw [hreorg] at hsent
      exact .inl hsent
    · rw [hreorg] at hsent
      refine .inr ⟨if needReorg then incoming else current, ?_, congrArg (_ :: ·) hsent⟩
      cases needReorg with
      | true => exact .inl rfl
      | false => exact .inr rfl

end BscForkChoiceEngine

end RethBsc
