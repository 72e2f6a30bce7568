import RethBsc.Chain.Header
import RethBsc.Rust.Recency

/-!
# Submitting mined blocks

`ResultWorkWorker` of `src/node/miner/bsc_miner.rs`: before a built block goes to the import
service, `submit_payload` looks whether the validator has signed another block on the same parent at
the same height.  It remembers the parents of the last 100 heights it was asked about.

* `checkDoubleSign_keys`: a call that reaches the check uses its height, whatever the answer.
* `Remembers`: the parent is in the entry of the height, if the height has one.
* `Watched.step`: one more call either keeps the height and its parent in memory, or was the last
  of 100 other heights.  `hundred_heights_between` is the result for runs.
-/

namespace RethBsc

open Rust

def recentMinedBlocksCacheSize : Nat := 100

/-- The sending end of a channel to the import service. -/
inductive ImportSender where
  | uninitialised
  | closed
  | connected
  deriving DecidableEq

/-- A built block with the hash it was sealed under. -/
structure BuiltBlock where
  header : Header
  hash : B256
  deriving DecidableEq

/-- `NewBlockMessage`; the body is left out. -/
structure NewBlockMessage where
  hash : B256
  header : Header
  td : Nat
  deriving DecidableEq

/-- What a call of `submit_payload` finds around it. -/
structure SubmitSurroundings where
  bestBlockNumber : Except String UInt64
  headerTdByNumber : UInt64 → Except String (Option Nat)
  minedSender : ImportSender
  blockSender : ImportSender

inductive Submission where
  /-- Not above the best block. -/
  | stale
  | doubleSign
  /-- To the channel of mined blocks, or to that of network blocks. -/
  | mined (msg : NewBlockMessage)
  | imported (msg : NewBlockMessage)
  deriving DecidableEq

structure ResultWorkWorker where
  recentMinedBlocks : LruMap UInt64 (List B256)
  submitBuiltPayload : Bool

namespace ResultWorkWorker

def new (submitBuiltPayload : Bool) : ResultWorkWorker :=
  ⟨.new recentMinedBlocksCacheSize, submitBuiltPayload⟩

/-- Whether the block may be submitted, and the parents remembered after the check. -/
def checkDoubleSign (cache : LruMap UInt64 (List B256)) (blockNumber : UInt64)
    (parentHash : B256) : Bool × LruMap UInt64 (List B256) :=
  match cache.get blockNumber with
  | (some prevParents, cache) =>
    if parentHash ∈ prevParents then (false, cache)
    else (true, cache.insert blockNumber (prevParents ++ [parentHash]))
  | (none, cache) => (true, cache.insert blockNumber [parentHash])

/-- The end of `submit_payload`: the total difficulty, which must fit into 128 bits, and the channel
that the block is sent to. -/
def announce (w : ResultWorkWorker) (env : SubmitSurroundings) (block : BuiltBlock) :
    Outcome String Submission :=
  match env.headerTdByNumber (saturatingSub block.header.number 1) with
  | .error e => .err ("Failed to get parent total difficulty due to " ++ e)
  | .ok parentTd =>
    let newTd := (parentTd.getD 0 + block.header.difficulty) % 2 ^ 256
    if 2 ^ 128 ≤ newTd then .panic
    else
      let msg : NewBlockMessage := ⟨block.hash, block.header, newTd⟩
      if w.submitBuiltPayload then
        match env.minedSender with
        | .connected => .ok (.mined msg)
        | .closed => .err "Failed to send mined block to import service due to channel closed"
        | .uninitialised => .err "Failed to send mined block due to import sender not initialised"
      else
        match env.blockSender with
        | .connected => .ok (.imported msg)
        | .closed => .err "Failed to send built block to import service due to channel closed"
        | .uninitialised => .err "Failed to send built block due to import sender not initialised"

def submitPayload (w : ResultWorkWorker) (env : SubmitSurroundings) (block : BuiltBlock) :
    Outcome String Submission × ResultWorkWorker :=
  match env.bestBlockNumber with
  | .error e => (.err e, w)
  | .ok bestBlockNumber =>
    if block.header.number ≤ bestBlockNumber then (.ok .stale, w)
    else
      match checkDoubleSign w.recentMinedBlocks block.header.number block.header.parentHash with
      | (false, cache) => (.ok .doubleSign, { w with recentMinedBlocks := cache })
      | (true, cache) => (w.announce env block, { w with recentMinedBlocks := cache })

/-! ## Runs -/

/-- A call, with the surroundings at that moment. -/
structure Call where
  env : SubmitSurroundings
  block : BuiltBlock

namespace Call

def number (c : Call) : UInt64 := c.block.header.number
def parentHash (c : Call) : B256 := c.block.header.parentHash

/-- The call comes as far as the check. -/
def reaches (c : Call) : Bool :=
  match c.env.bestBlockNumber with
  | .error _ => false
  | .ok bestBlockNumber => !decide (c.number ≤ bestBlockNumber)

end Call

/-- The call comes as far as the check and gets past it. -/
def passes (w : ResultWorkWorker) (c : Call) : Bool :=
  c.reaches && (checkDoubleSign w.recentMinedBlocks c.number c.parentHash).1

def run (w : ResultWorkWorker) (calls : List Call) : ResultWorkWorker :=
  calls.foldl (fun w c => (w.submitPayload c.env c.block).2) w

variable {w : ResultWorkWorker} {c : Call}

/-- A call that comes as far as the check. -/
theorem submitPayload_of_reaches (h : c.reaches = true) :
    w.submitPayload c.env c.block =
      (if (checkDoubleSign w.recentMinedBlocks c.number c.parentHash).1 then
          w.announce c.env c.block
        else .ok .doubleSign,
        { w with recentMinedBlocks :=
          (checkDoubleSign w.recentMinedBlocks c.number c.parentHash).2 }) := by
  unfold submitPayload
  unfold Call.reaches at h
  cases hbest : c.env.bestBlockNumber with
  | error e => rw [hbest] at h; simp at h
  | ok best =>
    rw [hbest] at h
    have hnew : ¬ c.block.header.number ≤ best := by
      show ¬ c.number ≤ best
      simpa [decide_eq_false_iff_not] using h
    dsimp only
    rw [if_neg hnew]
    unfold Call.number Call.parentHash
    rcases checkDoubleSign w.recentMinedBlocks c.block.header.number c.block.header.parentHash with
      ⟨_ | _, cache⟩ <;> rfl

/-- Any other call leaves the memory alone and sends nothing. -/
theorem submitPayload_of_not_reaches (h : c.reaches = false) :
    (w.submitPayload c.env c.block).2 = w ∧ ((w.submitPayload c.env c.block).1 = .ok .stale
        ∨ ∃ e, (w.submitPayload c.env c.block).1 = .err e) := by
  unfold submitPayload
  unfold Call.reaches at h
  cases hbest : c.env.bestBlockNumber with
  | error e => exact ⟨rfl, .inr ⟨e, rfl⟩⟩
  | ok best =>
    rw [hbest] at h
    have hstale : c.block.header.number ≤ best := by
      show c.number ≤ best
      simpa [decide_eq_true_iff] using h
    dsimp only
    rw [if_pos hstale]
    exact ⟨rfl, .inl rfl⟩

/-! ## What the check remembers -/

section Check

variable {cache : LruMap UInt64 (List B256)} {number : UInt64} {parentHash : B256}

/-- The check by the entry of the height; the lookup itself makes the height the most recent. -/
theorem checkDoubleSign_eq : checkDoubleSign cache number parentHash =
    match cache.find number with
    | some prevParents =>
      if parentHash ∈ prevParents then (false, (cache.get number).2)
      else (true, (cache.get number).2.insert number (prevParents ++ [parentHash]))
    | none => (true, (cache.get number).2.insert number [parentHash]) := by
  rw [checkDoubleSign, ← LruMap.get_fst]
  rcases cache.get number with ⟨_ | prevParents, cache'⟩ <;> rfl

/-- The height of the call becomes the most recent one, whatever the answer. -/
theorem checkDoubleSign_keys (h : cache.WellFormed) :
    (checkDoubleSign cache number parentHash).2.keys = touch cache.limit cache.keys number := by
  have hkeys := LruMap.keys_get h (k := number)
  rw [checkDoubleSign_eq]
  cases hfind : cache.find number with
  | none =>
    have hnot : number ∉ cache.keys := fun hmem => by
      rw [← LruMap.find_isSome_iff, hfind] at hmem
      simp at hmem
    rw [if_neg hnot] at hkeys
    show ((cache.get number).2.insert number [parentHash]).keys = _
    rw [LruMap.keys_insert, hkeys, LruMap.limit_get]
  | some prevParents =>
    have hmem : number ∈ cache.keys := LruMap.find_isSome_iff.mp (by rw [hfind]; rfl)
    rw [if_pos hmem] at hkeys
    dsimp only
    -- the lookup has brought the height to the front already
    split
    · exact hkeys
    · rw [LruMap.keys_insert, hkeys, LruMap.limit_get, touch_touch]

theorem checkDoubleSign_limit :
    (checkDoubleSign cache number parentHash).2.limit = cache.limit := by
  rw [checkDoubleSign_eq]
  cases cache.find number with
  | none => exact LruMap.limit_get
  | some prevParents =>
    dsimp only
    split <;> exact LruMap.limit_get

theorem wellFormed_checkDoubleSign (h : cache.WellFormed) :
    (checkDoubleSign cache number parentHash).2.WellFormed := by
  refine ⟨?_, ?_⟩
  · rw [checkDoubleSign_keys h]
    exact nodup_touch h.nodup
  · rw [checkDoubleSign_keys h, checkDoubleSign_limit]
    exact length_touch_le

/-- The parent is in the entry of the height, if it has one. -/
def Remembers (number : UInt64) (parentHash : B256) (cache : LruMap UInt64 (List B256)) : Prop :=
  ∀ parents, cache.find number = some parents → parentHash ∈ parents

theorem remembers_insert {parents : List B256} (hlimit : 0 < cache.limit)
    (h : parentHash ∈ parents) :
    Remembers number parentHash ((cache.get number).2.insert number parents) := by
  intro parents' hfind
  rw [LruMap.find_insert_self (by rw [LruMap.limit_get]; exact hlimit)] at hfind
  exact Option.some.inj hfind ▸ h

theorem remembers_of_passed (hlimit : 0 < cache.limit)
    (h : (checkDoubleSign cache number parentHash).1 = true) :
    Remembers number parentHash (checkDoubleSign cache number parentHash).2 := by
  rw [checkDoubleSign_eq] at h ⊢
  cases hfind : cache.find number with
  | none => exact remembers_insert hlimit (List.mem_singleton_self _)
  | some prevParents =>
    rw [hfind] at h
    dsimp only at h ⊢
    split at h
    · simp at h
    · next hnew =>
      rw [if_neg hnew]
      exact remembers_insert hlimit (by simp)

/-- A check never takes a parent away from a height that has an entry. -/
theorem Remembers.checkDoubleSign (h : Remembers number parentHash cache) (hlimit : 0 < cache.limit)
    (hmem : number ∈ cache.keys) (number' : UInt64) (parentHash' : B256) :
    Remembers number parentHash (checkDoubleSign cache number' parentHash').2 := by
  have hget : Remembers number parentHash (cache.get number').2 := by
    intro parents hfind
    exact h parents (by rw [← LruMap.find_get]; exact hfind)
  have hother : ∀ parents, number ≠ number' →
      Remembers number parentHash ((cache.get number').2.insert number' parents) :=
    fun parents hne parents' hfind => hget parents' (LruMap.find_of_find_insert hne hfind)
  rw [checkDoubleSign_eq]
  by_cases hne : number = number'
  · -- a new parent for the same height comes behind the old ones
    subst hne
    obtain ⟨prevParents, hprev⟩ := Option.isSome_iff_exists.mp (LruMap.find_isSome_iff.mpr hmem)
    rw [hprev]
    dsimp only
    split
    · exact hget
    · exact remembers_insert hlimit (List.mem_append_left _ (h prevParents hprev))
  · grind

theorem not_passed_of_remembers (h : Remembers number parentHash cache)
    (hmem : number ∈ cache.keys) : (checkDoubleSign cache number parentHash).1 = false := by
  obtain ⟨prevParents, hprev⟩ := Option.isSome_iff_exists.mp (LruMap.find_isSome_iff.mpr hmem)
  rw [checkDoubleSign_eq, hprev]
  dsimp only
  rw [if_pos (h prevParents hprev)]

end Check

/-! ## Heights in between -/

/-- The height and its parent are in memory, and all heights in front of it were asked about since a
given moment. -/
structure Watched (number : UInt64) (parentHash : B256) (since : List UInt64)
    (w : ResultWorkWorker) : Prop where
  wellFormed : w.recentMinedBlocks.WellFormed
  limit : w.recentMinedBlocks.limit = recentMinedBlocksCacheSize
  recent : Recent number since w.recentMinedBlocks.keys
  remembers : Remembers number parentHash w.recentMinedBlocks

/-- The heights of the calls that reach the check. -/
def heights (calls : List Call) : List UInt64 := (calls.filter Call.reaches).map Call.number

section Between

variable {number : UInt64} {parentHash : B256} {since : List UInt64}

/-- One more call: the height stays in memory with its parent, or 100 others have pushed it out. -/
theorem Watched.step (h : Watched number parentHash since w) (hreaches : c.reaches = true) :
    Watched number parentHash (c.number :: since) (w.submitPayload c.env c.block).2
      ∨ recentMinedBlocksCacheSize ≤ ((c.number :: since).toFinset.erase number).card := by
  have hpos : 0 < w.recentMinedBlocks.limit := by rw [h.limit]; decide
  have hwf : (checkDoubleSign w.recentMinedBlocks c.number c.parentHash).2.WellFormed :=
    wellFormed_checkDoubleSign h.wellFormed
  have hlimit : (checkDoubleSign w.recentMinedBlocks c.number c.parentHash).2.limit
      = recentMinedBlocksCacheSize := checkDoubleSign_limit.trans h.limit
  have hremembers := h.remembers.checkDoubleSign hpos h.recent.mem c.number c.parentHash
  have hkeys : (checkDoubleSign w.recentMinedBlocks c.number c.parentHash).2.keys
      = touch w.recentMinedBlocks.limit w.recentMinedBlocks.keys c.number :=
    checkDoubleSign_keys h.wellFormed
  rw [submitPayload_of_reaches hreaches]
  by_cases hsame : c.number = number
  · refine .inl ⟨hwf, hlimit, ?_, hremembers⟩
    rw [hkeys, hsame]
    exact recent_touch_self hpos _
  · rcases h.recent.touch w.recentMinedBlocks.limit h.wellFormed.nodup hsame with hrecent | hcard
    · refine .inl ⟨hwf, hlimit, ?_, hremembers⟩
      rwa [hkeys]
    · exact .inr (h.limit ▸ hcard)

/-- A run after which the height would pass with the same parent has asked about 100 others. -/
theorem Watched.run (h : Watched number parentHash since w) (calls : List Call)
    (hpasses : (checkDoubleSign (w.run calls).recentMinedBlocks number parentHash).1 = true) :
    recentMinedBlocksCacheSize ≤ ((heights calls ++ since).toFinset.erase number).card := by
  induction calls generalizing w since with
  | nil =>
    have hfalse := not_passed_of_remembers h.remembers h.recent.mem
    exact absurd hpasses (by rw [show w.run [] = w from rfl, hfalse]; simp)
  | cons c calls ih =>
    cases hreaches : c.reaches with
    | false =>
      have hsame : w.run (c :: calls) = w.run calls := by
        show ((w.submitPayload c.env c.block).2).run calls = _
        rw [(submitPayload_of_not_reaches hreaches).1]
      have hheights : heights (c :: calls) = heights calls := by simp_all [heights]
      rw [hheights]
      exact ih h (hsame ▸ hpasses)
    | true =>
      have hset : (heights (c :: calls) ++ since).toFinset
          = (heights calls ++ c.number :: since).toFinset := by
        unfold heights
        rw [List.filter_cons_of_pos hreaches, List.map_cons, toFinset_use_append]
      rw [hset]
      rcases h.step hreaches with hwatched | hcard
      · exact ih hwatched hpasses
      · -- the height may come back later, but by then the others have been asked about
        exact Nat.le_trans hcard (card_erase_le_append (heights calls) _ number)

end Between

theorem run_append (w : ResultWorkWorker) (calls : List Call) (c : Call) (rest : List Call) :
    w.run (calls ++ c :: rest) = (((w.run calls).submitPayload c.env c.block).2).run rest := by
  unfold run
  rw [List.foldl_append, List.foldl_cons]

/-- The memory is well formed after any run. -/
theorem wellFormed_run (submitBuiltPayload : Bool) (calls : List Call) :
    ((new submitBuiltPayload).run calls).recentMinedBlocks.WellFormed
      ∧ ((new submitBuiltPayload).run calls).recentMinedBlocks.limit
        = recentMinedBlocksCacheSize := by
  induction calls using List.reverseRecOn with
  | nil => exact ⟨LruMap.wellFormed_new _, rfl⟩
  | append_singleton calls c ih =>
    rw [run_append]
    show ((((new submitBuiltPayload).run calls).submitPayload c.env
      c.block).2).recentMinedBlocks.WellFormed ∧ _
    cases hreaches : c.reaches with
    | false => rw [(submitPayload_of_not_reaches hreaches).1]; exact ih
    | true =>
      rw [submitPayload_of_reaches hreaches]
      exact ⟨wellFormed_checkDoubleSign ih.1, checkDoubleSign_limit.trans ih.2⟩

/-- **No second block on a parent without 100 other heights.**  If two calls of a run get past the
check with the same height and the same parent, then calls for at least 100 other heights reached
the check between them. -/
theorem hundred_heights_between (submitBuiltPayload : Bool) (before between : List Call)
    (first second : Call) (hfirst : ((new submitBuiltPayload).run before).passes first = true)
    (hsecond : ((new submitBuiltPayload).run (before ++ first :: between)).passes second = true)
    (hnumber : second.number = first.number) (hparent : second.parentHash = first.parentHash) :
    100 ≤ ((heights between).toFinset.erase first.number).card := by
  obtain ⟨hwf, hlimit⟩ := wellFormed_run submitBuiltPayload before
  have hpos : 0 < ((new submitBuiltPayload).run before).recentMinedBlocks.limit := by
    rw [hlimit]
    decide
  obtain ⟨hreaches, hpassed⟩ := Bool.and_eq_true_iff.mp hfirst
  -- the first call puts its height to the front and its parent into the entry
  have hwatched : Watched first.number first.parentHash []
      (((new submitBuiltPayload).run before).submitPayload first.env first.block).2 := by
    rw [submitPayload_of_reaches hreaches]
    refine ⟨wellFormed_checkDoubleSign hwf, checkDoubleSign_limit.trans hlimit, ?_,
      remembers_of_passed hpos hpassed⟩
    show Recent _ _ (checkDoubleSign _ _ _).2.keys
    rw [checkDoubleSign_keys hwf]
    exact recent_touch_self hpos []
  have hagain := (Bool.and_eq_true_iff.mp hsecond).2
  rw [run_append, hnumber, hparent] at hagain
  have hcard := hwatched.run between hagain
  rwa [List.append_nil] at hcard

/-- A call for block `number` on the zero parent, above the best block 0. -/
def callAt (number : UInt64) : Call where
  env := ⟨.ok 0, fun _ => .ok none, .connected, .connected⟩
  block := ⟨{ (default : Header) with number }, .zero⟩

/-- Block 1, blocks 2 to 101, and block 1 again. -/
theorem hundred_heights_between_callAt :
    ((new true).run []).passes (callAt 1) = true
      ∧ ((new true).run (callAt 1 :: (List.range 100).map fun i =>
          callAt (UInt64.ofNat (i + 2)))).passes (callAt 1) = true
      ∧ 100 ≤ ((heights ((List.range 100).map fun i =>
          callAt (UInt64.ofNat (i + 2)))).toFinset.erase 1).card := by
  have hsecond : ((new true).run ([] ++ callAt 1 :: (List.range 100).map fun i =>
      callAt (UInt64.ofNat (i + 2)))).passes (callAt 1) = true := by decide +kernel
  exact ⟨rfl, hsecond, hundred_heights_between true [] _ (callAt 1) (callAt 1) rfl hsecond rfl rfl⟩

end ResultWorkWorker

end RethBsc
