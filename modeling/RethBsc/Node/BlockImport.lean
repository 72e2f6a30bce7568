import RethBsc.Miner.SubmitPayload

/-!
# The block import service

`src/node/network/block_import/service.rs`: blocks come from the network and from the own miner,
hashes are announced by peers, and imports end at any time after they were started.  Two caches of
100 hashes keep a block from being imported twice.

* `step`: one event, with the actions that its handler takes in their order.
* `Effect`: a cache is what the actions have put into it, for every handler (`effect_step`) and
  every run (`effect_run`).
* `started_step`: an import is only started for a hash that is in neither cache.
* `import_deduplicated`: what lies between two imports of a hash, and between mining a block and
  importing it.
-/

namespace RethBsc

open Rust

abbrev PeerId := FixedBytes 64

def lruProcessedBlocksSize : Nat := 100
def downloadCooldownDurationMs : Nat := 200

/-- What the engine answers to `new_payload`. -/
inductive PayloadStatus where
  | valid
  | invalid (validationError : String)
  | syncing
  | accepted
  deriving DecidableEq

structure ImportOutcome where
  peer : PeerId
  result : Except String NewBlockMessage

/-- A hash in a `NewBlockHashes` message, with the time at which it is looked at. -/
structure AnnouncedHash where
  hash : B256
  number : UInt64
  now : Nat

/-- What the handlers do, besides changing the downloads and the pending imports. -/
inductive ImportAction where
  | queued (hash : B256)
  | processed (hash : B256)
  | transferToEvnPeers (block : NewBlockMessage)
  | validHeader (block : NewBlockMessage)
  | validBlock (block : NewBlockMessage)
  | builtPayload (hash : B256)
  | updateForkchoice (header : Header)
  /-- Towards a block that the engine cannot execute yet. -/
  | forkChoiceUpdated (headBlockHash : B256)
  /-- An import is started. -/
  | newPayload (block : NewBlockMessage) (peer : PeerId)
  | requestRange (peer : PeerId) (startHeight : UInt64) (startHash : B256)
  | outcome (outcome : ImportOutcome)

structure ImportService where
  pendingImports : List (NewBlockMessage × PeerId)
  processedBlocks : LruMap B256 Unit
  queuedBlocks : LruMap B256 Unit
  downloadingBlocks : LruMap B256 Nat
  /-- `poll` has returned an error. -/
  stopped : Bool

namespace ImportService

def new : ImportService :=
  ⟨[], .new lruProcessedBlocksSize, .new lruProcessedBlocksSize, .new lruProcessedBlocksSize, false⟩

def contains (cache : LruMap B256 Unit) (hash : B256) : Bool := (cache.find hash).isSome

/-- The end of the future made by `new_payload`. -/
def importOutcome (block : NewBlockMessage) (peer : PeerId) :
    Except String PayloadStatus → Option ImportOutcome × List ImportAction
  | .ok .valid => (some ⟨peer, .ok block⟩, [.updateForkchoice block.header])
  | .ok (.invalid validationError) => (some ⟨peer, .error validationError⟩, [])
  | .ok .syncing => (none, [.forkChoiceUpdated block.hash])
  | .ok .accepted => (none, [])
  | .error _ => (none, [])

def onNewMinedBlock (s : ImportService) (block : NewBlockMessage) :
    ImportService × List ImportAction :=
  ({ s with processedBlocks := s.processedBlocks.insert block.hash () },
    [.transferToEvnPeers block, .validHeader block, .validBlock block, .builtPayload block.hash,
      .updateForkchoice block.header, .processed block.hash])

def onNewBlock (s : ImportService) (block : NewBlockMessage) (peer : PeerId) :
    ImportService × List ImportAction :=
  if contains s.processedBlocks block.hash then (s, [])
  else if contains s.queuedBlocks block.hash then (s, [])
  else
    ({ s with
        queuedBlocks := s.queuedBlocks.insert block.hash ()
        pendingImports := s.pendingImports ++ [(block, peer)] },
      [.queued block.hash, .transferToEvnPeers block, .validHeader block, .newPayload block peer])

/-- One announced hash.  Blocks are asked for at the announcing peer, or at any peer with the
extension; a request is not repeated within the cooldown. -/
def onNewBlockHash (s : ImportService) (announced : AnnouncedHash) (peer : PeerId)
    (registered : List PeerId) : ImportService × List ImportAction :=
  if contains s.processedBlocks announced.hash then (s, [])
  else if contains s.queuedBlocks announced.hash then (s, [])
  else
    let (lastRequested, downloadingBlocks) := s.downloadingBlocks.get announced.hash
    if lastRequested.any fun last => last + downloadCooldownDurationMs > announced.now then
      ({ s with downloadingBlocks }, [])
    else
      let targetPeer := if peer ∈ registered then some peer else registered.head?
      ({ s with downloadingBlocks := downloadingBlocks.insert announced.hash announced.now },
        (targetPeer.map fun bscPeer =>
          ImportAction.requestRange bscPeer announced.number announced.hash).toList)

def onNewBlockHashes (s : ImportService) (peer : PeerId) (registered : List PeerId) :
    List AnnouncedHash → ImportService × List ImportAction
  | [] => (s, [])
  | announced :: hashes =>
    let (s, actions) := s.onNewBlockHash announced peer registered
    let (s, rest) := s.onNewBlockHashes peer registered hashes
    (s, actions ++ rest)

/-- The import at `index` has ended.  If the outcome cannot be sent, the service ends with it. -/
def onImportDone (s : ImportService) (index : Nat) (answer : Except String PayloadStatus)
    (networkOpen : Bool) : ImportService × List ImportAction :=
  match s.pendingImports[index]? with
  | none => (s, [])
  | some (block, peer) =>
    let s := { s with pendingImports := s.pendingImports.eraseIdx index }
    match importOutcome block peer answer with
    | (none, actions) => (s, actions)
    | (some outcome, actions) =>
      match outcome.result with
      | .ok block =>
        ({ s with
            processedBlocks := s.processedBlocks.insert block.hash ()
            stopped := !networkOpen },
          actions ++ [.processed block.hash, .transferToEvnPeers block, .outcome outcome])
      | .error _ => ({ s with stopped := !networkOpen }, actions ++ [.outcome outcome])

inductive ImportEvent where
  | newBlock (block : NewBlockMessage) (peer : PeerId)
  | minedBlock (block : NewBlockMessage)
  | newHashes (hashes : List AnnouncedHash) (peer : PeerId) (registered : List PeerId)
  | importDone (index : Nat) (answer : Except String PayloadStatus) (networkOpen : Bool)

/-- One round of a loop in `poll`. -/
def step (s : ImportService) (event : ImportEvent) : ImportService × List ImportAction :=
  if s.stopped then (s, [])
  else
    match event with
    | .newBlock block peer => s.onNewBlock block peer
    | .minedBlock block => s.onNewMinedBlock block
    | .newHashes hashes peer registered => s.onNewBlockHashes peer registered hashes
    | .importDone index answer networkOpen => s.onImportDone index answer networkOpen

/-- The state after a sequence of events, in any order, and all actions taken. -/
def run (s : ImportService) : List ImportEvent → ImportService × List ImportAction
  | [] => (s, [])
  | event :: events =>
    let (s, actions) := s.step event
    let (s, rest) := s.run events
    (s, actions ++ rest)

/-! ## What the actions put into the caches -/

def queuedIn (actions : List ImportAction) : List B256 :=
  actions.filterMap fun
    | .queued hash => some hash
    | _ => none

def processedIn (actions : List ImportAction) : List B256 :=
  actions.filterMap fun
    | .processed hash => some hash
    | _ => none

/-- The hashes of the imports that are started. -/
def startedIn (actions : List ImportAction) : List B256 :=
  actions.filterMap fun
    | .newPayload block _ => some block.hash
    | _ => none

variable {s : ImportService} {event : ImportEvent} {hash : B256}

/-- The caches after some actions are the caches before, with what the actions put into them. -/
structure Effect (s : ImportService) (r : ImportService × List ImportAction) : Prop where
  queued : r.1.queuedBlocks.keys
    = (queuedIn r.2).foldl (touch s.queuedBlocks.limit) s.queuedBlocks.keys
  processed : r.1.processedBlocks.keys
    = (processedIn r.2).foldl (touch s.processedBlocks.limit) s.processedBlocks.keys
  queued_limit : r.1.queuedBlocks.limit = s.queuedBlocks.limit
  processed_limit : r.1.processedBlocks.limit = s.processedBlocks.limit

theorem Effect.refl : Effect s (s, []) := ⟨rfl, rfl, rfl, rfl⟩

/-- Effects compose along the actions. -/
theorem Effect.trans {s' s'' : ImportService} {actions rest : List ImportAction}
    (h : Effect s (s', actions)) (h' : Effect s' (s'', rest)) :
    Effect s (s'', actions ++ rest) where
  queued := by
    show s''.queuedBlocks.keys = (queuedIn (actions ++ rest)).foldl _ _
    rw [queuedIn, List.filterMap_append, List.foldl_append]
    have hqueued := h'.queued
    rwa [h.queued, h.queued_limit] at hqueued
  processed := by
    show s''.processedBlocks.keys = (processedIn (actions ++ rest)).foldl _ _
    rw [processedIn, List.filterMap_append, List.foldl_append]
    have hprocessed := h'.processed
    rwa [h.processed, h.processed_limit] at hprocessed
  queued_limit := h'.queued_limit.trans h.queued_limit
  processed_limit := h'.processed_limit.trans h.processed_limit

theorem effect_onNewBlock (block : NewBlockMessage) (peer : PeerId) :
    Effect s (s.onNewBlock block peer) := by
  unfold onNewBlock
  split
  · exact .refl
  · split
    · exact .refl
    · exact ⟨LruMap.keys_insert, rfl, rfl, rfl⟩

/-- A request has no effect on the caches of blocks. -/
theorem effect_onNewBlockHash (announced : AnnouncedHash) (peer : PeerId)
    (registered : List PeerId) : Effect s (s.onNewBlockHash announced peer registered) := by
  unfold onNewBlockHash
  split
  · exact .refl
  · split
    · exact .refl
    · dsimp only
      split
      · exact ⟨rfl, rfl, rfl, rfl⟩
      · generalize (if peer ∈ registered then some peer else registered.head?) = targetPeer
        cases targetPeer with
        | none => exact ⟨rfl, rfl, rfl, rfl⟩
        | some bscPeer => exact ⟨rfl, rfl, rfl, rfl⟩

theorem effect_onNewBlockHashes (peer : PeerId) (registered : List PeerId)
    (hashes : List AnnouncedHash) : Effect s (s.onNewBlockHashes peer registered hashes) := by
  induction hashes generalizing s with
  | nil => exact .refl
  | cons announced hashes ih =>
    rw [onNewBlockHashes]
    exact (effect_onNewBlockHash announced peer registered).trans ih

/-- The actions of an import that ends touch neither cache. -/
theorem effect_onImportDone (index : Nat) (answer : Except String PayloadStatus)
    (networkOpen : Bool) : Effect s (s.onImportDone index answer networkOpen) := by
  unfold onImportDone
  cases s.pendingImports[index]? with
  | none => exact .refl
  | some pending =>
    obtain ⟨block, peer⟩ := pending
    -- only a valid block is processed
    rcases answer with err | status
    · exact ⟨rfl, rfl, rfl, rfl⟩
    · cases status with
      | valid => exact ⟨rfl, LruMap.keys_insert, rfl, rfl⟩
      | invalid validationError => exact ⟨rfl, rfl, rfl, rfl⟩
      | syncing => exact ⟨rfl, rfl, rfl, rfl⟩
      | accepted => exact ⟨rfl, rfl, rfl, rfl⟩

theorem effect_step (s : ImportService) (event : ImportEvent) : Effect s (s.step event) := by
  unfold step
  split
  · exact .refl
  · cases event with
    | newBlock block peer => exact effect_onNewBlock block peer
    | minedBlock block => exact ⟨rfl, LruMap.keys_insert, rfl, rfl⟩
    | newHashes hashes peer registered => exact effect_onNewBlockHashes peer registered hashes
    | importDone index answer networkOpen => exact effect_onImportDone index answer networkOpen

theorem effect_run (s : ImportService) (events : List ImportEvent) : Effect s (s.run events) := by
  induction events generalizing s with
  | nil => exact .refl
  | cons event events ih =>
    rw [run]
    exact (effect_step s event).trans (ih _)

/-! ## Starting an import -/

theorem notMem_keys_of_not_contains {cache : LruMap B256 Unit} (h : ¬ contains cache hash = true) :
    hash ∉ cache.keys := fun hmem => h (LruMap.find_isSome_iff.mpr hmem)

theorem startedIn_onNewBlockHashes (s : ImportService) (peer : PeerId) (registered : List PeerId)
    (hashes : List AnnouncedHash) :
    startedIn (s.onNewBlockHashes peer registered hashes).2 = [] := by
  induction hashes generalizing s with
  | nil => rfl
  | cons announced hashes ih =>
    have hone : startedIn (s.onNewBlockHash announced peer registered).2 = [] := by
      unfold onNewBlockHash
      split
      · rfl
      · split
        · rfl
        · dsimp only
          split
          · rfl
          · generalize (if peer ∈ registered then some peer else registered.head?) = targetPeer
            cases targetPeer <;> rfl
    rw [onNewBlockHashes]
    show startedIn (_ ++ _) = []
    rw [startedIn, List.filterMap_append]
    exact List.append_eq_nil_iff.mpr ⟨hone, ih _⟩

theorem startedIn_onImportDone (index : Nat) (answer : Except String PayloadStatus)
    (networkOpen : Bool) : startedIn (s.onImportDone index answer networkOpen).2 = [] := by
  unfold onImportDone
  cases s.pendingImports[index]? with
  | none => rfl
  | some pending =>
    rcases answer with err | status
    · rfl
    · cases status <;> rfl

/-- An import is only started for a hash that is in neither cache, by a service that runs, and the
hash is queued with it. -/
theorem started_step (h : hash ∈ startedIn (s.step event).2) :
    s.stopped = false ∧ hash ∉ s.processedBlocks.keys ∧ hash ∉ s.queuedBlocks.keys
      ∧ queuedIn (s.step event).2 = [hash] := by
  unfold step at h ⊢
  cases hstopped : s.stopped with
  | true => rw [hstopped] at h; exact absurd h List.not_mem_nil
  | false =>
    rw [hstopped] at h
    rw [if_neg (by simp)] at h ⊢
    -- of the four events only a block from a peer starts an import
    cases event with
    | newBlock block peer =>
      dsimp only at h ⊢
      unfold onNewBlock at h ⊢
      split at h
      · exact absurd h List.not_mem_nil
      · next hprocessed =>
        split at h
        · exact absurd h List.not_mem_nil
        · next hqueued =>
          obtain rfl : hash = block.hash := List.mem_singleton.mp h
          rw [if_neg hprocessed, if_neg hqueued]
          exact ⟨rfl, notMem_keys_of_not_contains hprocessed,
            notMem_keys_of_not_contains hqueued, rfl⟩
    | minedBlock block => exact absurd h List.not_mem_nil
    | newHashes hashes peer registered =>
      dsimp only at h
      rw [startedIn_onNewBlockHashes] at h
      exact absurd h List.not_mem_nil
    | importDone index answer networkOpen =>
      dsimp only at h
      rw [startedIn_onImportDone] at h
      exact absurd h List.not_mem_nil

theorem run_of_stopped (h : s.stopped = true) (events : List ImportEvent) :
    s.run events = (s, []) := by
  induction events with
  | nil => rfl
  | cons event events ih =>
    have hstep : s.step event = (s, []) := if_pos h
    rw [run, hstep]
    simp [*]

/-! ## Runs -/

/-- Both caches hold up to 100 hashes, each once. -/
structure Sized (s : ImportService) : Prop where
  queued : s.queuedBlocks.keys.Nodup
  processed : s.processedBlocks.keys.Nodup
  queued_limit : s.queuedBlocks.limit = lruProcessedBlocksSize
  processed_limit : s.processedBlocks.limit = lruProcessedBlocksSize

theorem sized_new : Sized new := ⟨List.nodup_nil, List.nodup_nil, rfl, rfl⟩

theorem Sized.effect {r : ImportService × List ImportAction} (h : Sized s) (heffect : Effect s r) :
    Sized r.1 := by
  have hfold : ∀ (limit : Nat) (uses keys : List B256), keys.Nodup →
      (uses.foldl (touch limit) keys).Nodup := by
    intro limit uses
    induction uses with
    | nil => exact fun _ hkeys => hkeys
    | cons x uses ih => exact fun keys hkeys => ih _ (nodup_touch hkeys)
  refine ⟨?_, ?_, heffect.queued_limit.trans h.queued_limit,
    heffect.processed_limit.trans h.processed_limit⟩
  · rw [heffect.queued]
    exact hfold _ _ _ h.queued
  · rw [heffect.processed]
    exact hfold _ _ _ h.processed

/-- **Blocks are imported once.**  Between two imports of a hash 100 other hashes were queued, and
between mining a block and starting an import of it 100 other hashes were processed, whatever
happened in between and in whatever order. -/
theorem import_deduplicated (before between : List ImportEvent) (second : ImportEvent)
    (hash : B256) :
    (∀ first, hash ∈ startedIn ((new.run before).1.step first).2 →
      hash ∈ startedIn ((((new.run before).1.step first).1.run between).1.step second).2 →
      100 ≤ ((queuedIn (((new.run before).1.step first).1.run between).2).toFinset.erase hash).card)
    ∧ ∀ block, block.hash = hash →
      hash ∈ startedIn ((((new.run before).1.step (.minedBlock block)).1.run between).1.step
        second).2 →
      100 ≤ ((processedIn (((new.run before).1.step (.minedBlock block)).1.run
        between).2).toFinset.erase hash).card := by
  have hsized : Sized (new.run before).1 := sized_new.effect (effect_run _ _)
  generalize (new.run before).1 = s at hsized
  constructor
  · intro first hfirst hsecond
    have heffect := effect_step s first
    have hqueued := heffect.queued
    rw [(started_step hfirst).2.2.2, hsized.queued_limit] at hqueued
    -- the first import has put the hash in front, and it is gone when the second one starts
    have hrecent : Recent hash [] (s.step first).1.queuedBlocks.keys := by
      rw [hqueued]
      exact recent_touch_self (by decide) []
    have hafter := effect_run (s.step first).1 between
    have hgone := (started_step hsecond).2.2.1
    rw [hafter.queued, heffect.queued_limit, hsized.queued_limit] at hgone
    have hcard := limit_le_card_of_forgotten _ hrecent (hsized.effect heffect).queued hgone
    rwa [List.append_nil] at hcard
  · rintro block rfl hsecond
    have hrunning : s.stopped = false := by
      by_contra hstopped
      rw [Bool.not_eq_false] at hstopped
      have hstep : s.step (.minedBlock block) = (s, []) := if_pos hstopped
      rw [hstep, run_of_stopped hstopped] at hsecond
      exact absurd hstopped (by rw [(started_step hsecond).1]; simp)
    have hmined : s.step (.minedBlock block) = s.onNewMinedBlock block := by
      rw [step, hrunning]
      rfl
    have heffect := effect_step s (.minedBlock block)
    rw [hmined] at hsecond heffect ⊢
    have hrecent : Recent block.hash [] (s.onNewMinedBlock block).1.processedBlocks.keys := by
      rw [heffect.processed, hsized.processed_limit]
      exact recent_touch_self (by decide) []
    have hafter := effect_run (s.onNewMinedBlock block).1 between
    have hgone := (started_step hsecond).2.1
    rw [hafter.processed, heffect.processed_limit, hsized.processed_limit] at hgone
    have hcard := limit_le_card_of_forgotten _ hrecent (hsized.effect heffect).processed hgone
    rwa [List.append_nil] at hcard

/-- A block of the network whose hash begins with two given bytes. -/
def blockAt (hi lo : UInt8) : NewBlockMessage :=
  ⟨⟨hi :: lo :: List.replicate 30 0, rfl⟩, default, 0⟩

/-- The same block before and after 100 others. -/
theorem import_deduplicated_blockAt :
    let others := (List.range 100).map fun i =>
      ImportEvent.newBlock (blockAt 1 (UInt8.ofNat i)) .zero
    let first := ImportEvent.newBlock (blockAt 0 0) .zero
    (blockAt 0 0).hash ∈ startedIn (((new.step first).1.run others).1.step first).2
      ∧ 100 ≤ ((queuedIn ((new.step first).1.run others).2).toFinset.erase
        (blockAt 0 0).hash).card := by
  intro others first
  have hfirst : (blockAt 0 0).hash ∈ startedIn ((new.run []).1.step first).2 := by decide
  have hsecond : (blockAt 0 0).hash
      ∈ startedIn ((((new.run []).1.step first).1.run others).1.step first).2 := by decide +kernel
  exact ⟨hsecond, (import_deduplicated [] others first _).1 first hfirst hsecond⟩

end ImportService

end RethBsc
