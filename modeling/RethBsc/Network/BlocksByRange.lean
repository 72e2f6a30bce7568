import Mathlib.Data.List.Chain
import RethBsc.Network.BodyCache

/-!
# Answering range requests

`src/node/network/blocks_by_range.rs`: a peer asks for a block and its ancestors.  The answer is
built from the cache of full blocks alone, and each read of the cache changes the order in which it
forgets.

* `follow`: the path from an element along a partial function, with what is first, next and last
  in it.
* `walk_eq_follow`: the loop of the source, whose reads do not change what is found.
* `Coherent.pathFrom`: an answer is a path of ancestors, as long as the request allows and the cache
  holds parents.
* **`blocksByRange_maximal`**: when such a path is missing only if its start is.
* `first_block_not_found`: a block that the cache holds and does not find by its number.
-/

namespace RethBsc

open Rust

/-! ## Paths -/

section Follow

variable {α : Type} (next : α → Option α)

/-- At most `n` elements, from `start` on. -/
def follow : Nat → Option α → List α
  | 0, _ => []
  | _, none => []
  | n + 1, some a => a :: follow n (next a)

variable {next} {n : Nat} {start : Option α} {a : α}

theorem length_follow_le : (follow next n start).length ≤ n := by
  induction n generalizing start with
  | zero => rw [follow]; exact Nat.le_refl 0
  | succ n ih =>
    cases start with
    | none => exact Nat.zero_le _
    | some a => exact Nat.succ_le_succ ih

theorem start_of_head (h : (follow next n start).head? = some a) : start = some a := by
  cases n with
  | zero => exact absurd h (by simp [follow])
  | succ n =>
    cases start with
    | none => exact absurd h (by simp [follow])
    | some b => exact h

theorem follow_eq_nil (h : follow next n start = []) : n = 0 ∨ start = none := by
  cases n with
  | zero => exact .inl rfl
  | succ n =>
    cases start with
    | none => exact .inr rfl
    | some a => exact absurd h (by simp [follow])

theorem isChain_follow : (follow next n start).IsChain fun a b => next a = some b := by
  induction n generalizing start with
  | zero =>
    rw [follow]
    exact .nil
  | succ n ih =>
    cases start with
    | none => exact .nil
    | some a => exact ih.cons fun b hb => start_of_head hb

theorem forall_mem_follow {P : α → Prop} (hstart : ∀ a, start = some a → P a)
    (hnext : ∀ a b, next a = some b → P b) : ∀ a ∈ follow next n start, P a := by
  induction n generalizing start with
  | zero =>
    rw [follow]
    exact fun a ha => absurd ha List.not_mem_nil
  | succ n ih =>
    cases start with
    | none => exact fun a ha => absurd ha List.not_mem_nil
    | some b => exact List.forall_mem_cons.mpr ⟨hstart b rfl, ih (hnext b)⟩

/-- A path that is too short ends where there is nothing next. -/
theorem next_last (hshort : (follow next n start).length < n)
    (hlast : (follow next n start).getLast? = some a) : next a = none := by
  induction n generalizing start with
  | zero => exact absurd hshort (Nat.not_lt_zero _)
  | succ n ih =>
    cases start with
    | none => exact absurd hlast (by simp [follow])
    | some b =>
      rw [follow] at hshort hlast
      have hrest : (follow next n (next b)).length < n := Nat.lt_of_succ_lt_succ hshort
      cases hpath : follow next n (next b) with
      | nil =>
        rw [hpath] at hlast hrest
        cases hlast
        rcases follow_eq_nil hpath with hzero | hnone
        · omega
        · exact hnone
      | cons c rest => grind

end Follow

/-! ## The response -/

def maxRequestRangeBlocksCount : UInt64 := 64

structure GetBlocksByRangePacket where
  requestId : UInt64
  startBlockHeight : UInt64
  startBlockHash : B256
  count : UInt64
  deriving DecidableEq

structure BlocksByRangePacket (β : Type) where
  requestId : UInt64
  blocks : List (FullBlock β)
  deriving DecidableEq

namespace BodyCache

variable {β : Type}

/-- The parent of a block; nothing is looked up for the first block of a chain. -/
def getCachedParent (cache : BodyCache β) (block : FullBlock β) :
    Option (FullBlock β) × BodyCache β :=
  if block.header.parentHash ≠ .zero then
    cache.getCachedBlockByHash block.header.parentHash
  else (none, cache)

/-- The loop over the ancestors, with the blocks that are in the answer already. -/
def walk : Nat → Option (FullBlock β) → List (FullBlock β) → BodyCache β →
    List (FullBlock β) × BodyCache β
  | 0, _, blocks, cache => (blocks, cache)
  | _, none, blocks, cache => (blocks, cache)
  | remaining + 1, some block, blocks, cache =>
    let (current, cache) := cache.getCachedParent block
    walk remaining current (blocks ++ [block]) cache

def buildBlocksByRangeResponse (cache : BodyCache β) (req : GetBlocksByRangePacket) :
    BlocksByRangePacket β × BodyCache β :=
  let (current, cache) :=
    if req.startBlockHash ≠ .zero then cache.getCachedBlockByHash req.startBlockHash
    else cache.getCachedBlockByNumber req.startBlockHeight
  let remaining := min req.count maxRequestRangeBlocksCount
  let (blocks, cache) := walk remaining.toNat current [] cache
  (⟨req.requestId, blocks⟩, cache)

/-! ## The loop follows the parents -/

def parent (cache : BodyCache β) (block : FullBlock β) : Option (FullBlock β) :=
  if block.header.parentHash ≠ .zero then cache.byHash.find block.header.parentHash
  else none

def start (cache : BodyCache β) (req : GetBlocksByRangePacket) : Option (FullBlock β) :=
  if req.startBlockHash ≠ .zero then cache.byHash.find req.startBlockHash
  else (cache.byNumber.find req.startBlockHeight).bind cache.byHash.find

variable {cache cache' : BodyCache β}

theorem Agrees.parent (h : Agrees cache cache') : cache'.parent = cache.parent := by
  funext block
  unfold BodyCache.parent
  rw [h.1]

theorem getCachedParent_fst (cache : BodyCache β) (block : FullBlock β) :
    (cache.getCachedParent block).1 = cache.parent block := by
  unfold getCachedParent parent
  split
  · exact getCachedBlockByHash_fst _ _
  · rfl

theorem getCachedParent_agrees (cache : BodyCache β) (block : FullBlock β) :
    Agrees cache (cache.getCachedParent block).2 := by
  unfold getCachedParent
  split
  · exact getCachedBlockByHash_agrees _ _
  · exact ⟨fun _ => rfl, fun _ => rfl⟩

theorem walk_eq_follow (remaining : Nat) (current : Option (FullBlock β))
    (blocks : List (FullBlock β)) (cache : BodyCache β) :
    (walk remaining current blocks cache).1 = blocks ++ follow cache.parent remaining current := by
  induction remaining generalizing current blocks cache with
  | zero =>
    rw [walk, follow]
    exact (List.append_nil _).symm
  | succ remaining ih =>
    cases current with
    | none => exact (List.append_nil _).symm
    | some block =>
      have hstep : (walk (remaining + 1) (some block) blocks cache).1
          = (walk remaining (cache.getCachedParent block).1 (blocks ++ [block])
              (cache.getCachedParent block).2).1 := rfl
      rw [hstep, ih, (getCachedParent_agrees cache block).parent, getCachedParent_fst, follow,
        List.append_assoc, List.singleton_append]

theorem response_eq_follow (cache : BodyCache β) (req : GetBlocksByRangePacket) :
    (cache.buildBlocksByRangeResponse req).1 = ⟨req.requestId,
      follow cache.parent (min req.count.toNat 64) (cache.start req)⟩ := by
  have hcount : (min req.count maxRequestRangeBlocksCount).toNat = min req.count.toNat 64 := by
    have hmin : min req.count maxRequestRangeBlocksCount =
      if req.count ≤ maxRequestRangeBlocksCount then req.count
      else maxRequestRangeBlocksCount := rfl
    rw [hmin]
    split
    · next hle =>
      have hle : req.count.toNat ≤ 64 := UInt64.le_iff_toNat_le.mp hle
      exact (Nat.min_eq_left hle).symm
    · next hlt =>
      have hle : 64 ≤ req.count.toNat := Nat.le_of_not_le fun h => hlt (UInt64.le_iff_toNat_le.mpr h)
      exact (Nat.min_eq_right hle).symm
  unfold buildBlocksByRangeResponse start
  dsimp only
  split
  · rw [walk_eq_follow, hcount, getCachedBlockByHash_fst,
      (getCachedBlockByHash_agrees cache _).parent, List.nil_append]
  · rw [walk_eq_follow, hcount, getCachedBlockByNumber_fst,
      (getCachedBlockByNumber_agrees cache _).parent, List.nil_append]

end BodyCache

/-! ## Answers are maximal -/

/-- The block that a request starts with: by hash, and without one by number. -/
def GetBlocksByRangePacket.IsStart {β : Type} (hashSlow : Header → B256)
    (req : GetBlocksByRangePacket) (block : FullBlock β) : Prop :=
  if req.startBlockHash ≠ .zero then hashSlow block.header = req.startBlockHash
  else block.number = req.startBlockHeight

namespace BodyCache

variable {β : Type} {hashSlow : Header → B256} {written : List (FullBlock β)}
  {cache : BodyCache β} {req : GetBlocksByRangePacket}

def Holds (cache : BodyCache β) (block : FullBlock β) : Prop :=
  ∃ hash, (hash, block) ∈ cache.byHash.entries

/-- A path of ancestors that begins with the start of the request and ends where the request or the
cache does. -/
structure PathFrom (hashSlow : Header → B256) (cache : BodyCache β) (req : GetBlocksByRangePacket)
    (blocks : List (FullBlock β)) : Prop where
  length_le : blocks.length ≤ min req.count.toNat 64
  first : ∀ block, blocks.head? = some block → req.IsStart hashSlow block
  linked : blocks.IsChain fun block next => hashSlow next.header = block.header.parentHash
  maximal : ∀ block, blocks.getLast? = some block → blocks.length < min req.count.toNat 64 →
    block.header.parentHash = .zero ∨
      ∀ other, cache.Holds other → hashSlow other.header ≠ block.header.parentHash

/-- Such a path that is empty only if nothing is asked for or the cache does not hold the start. -/
structure Answers (hashSlow : Header → B256) (cache : BodyCache β) (req : GetBlocksByRangePacket)
    (blocks : List (FullBlock β)) : Prop extends PathFrom hashSlow cache req blocks where
  nonempty : blocks = [] → min req.count.toNat 64 = 0 ∨
    ∀ block, cache.Holds block → ¬ req.IsStart hashSlow block

variable {block : FullBlock β} {hash : B256}

theorem Coherent.hash_of_find (h : Coherent hashSlow written cache)
    (hfind : cache.byHash.find hash = some block) :
    hashSlow block.header = hash := (h.byHash _ (LruMap.mem_of_find hfind)).2

/-- What is not found by its hash is not there. -/
theorem Coherent.not_holds (h : Coherent hashSlow written cache)
    (hfind : cache.byHash.find hash = none) (hholds : cache.Holds block) :
    hashSlow block.header ≠ hash := by
  obtain ⟨key, hmem⟩ := hholds
  rintro rfl
  have hkey : hashSlow block.header ∈ cache.byHash.keys := by
    rw [(h.byHash _ hmem).2]
    exact List.mem_map_of_mem hmem
  rw [← LruMap.find_isSome_iff, hfind] at hkey
  simp at hkey

theorem Coherent.number_of_find (h : Coherent hashSlow written cache)
    (hnumbers : NumbersHashed hashSlow written) {number : UInt64}
    (hfind : (cache.byNumber.find number).bind cache.byHash.find = some block) :
    block.number = number := by
  obtain ⟨hash, hhash, hblock⟩ := Option.bind_eq_some_iff.mp hfind
  obtain ⟨other, hother, hnumber, hslow⟩ := h.byNumber _ (LruMap.mem_of_find hhash)
  obtain ⟨hwritten, hslow'⟩ := h.byHash _ (LruMap.mem_of_find hblock)
  exact (hnumbers block hwritten other hother (hslow'.trans hslow.symm)).trans hnumber

theorem Coherent.parent_eq_some (h : Coherent hashSlow written cache) {next : FullBlock β}
    (hnext : cache.parent block = some next) :
    hashSlow next.header = block.header.parentHash := by
  unfold parent at hnext
  split at hnext
  · exact h.hash_of_find hnext
  · simp at hnext

theorem Coherent.parent_eq_none (h : Coherent hashSlow written cache)
    (hnone : cache.parent block = none) :
    block.header.parentHash = .zero ∨
      ∀ other, cache.Holds other → hashSlow other.header ≠ block.header.parentHash := by
  unfold parent at hnone
  split at hnone
  · exact .inr fun other hholds => h.not_holds hnone hholds
  · next hzero => exact .inl (not_not.mp hzero)

theorem Coherent.isStart (h : Coherent hashSlow written cache)
    (hnumbers : NumbersHashed hashSlow written)
    (hstart : cache.start req = some block) : req.IsStart hashSlow block := by
  unfold start at hstart
  unfold GetBlocksByRangePacket.IsStart
  split at hstart
  · next hhash => rw [if_pos hhash]; exact h.hash_of_find hstart
  · next hhash => rw [if_neg hhash]; exact h.number_of_find hnumbers hstart

/-- A response has only blocks that were written. -/
theorem Coherent.mem_written (h : Coherent hashSlow written cache) (req : GetBlocksByRangePacket) :
    ∀ block ∈ (cache.buildBlocksByRangeResponse req).1.blocks, block ∈ written := by
  have hfound {hash : B256} {block : FullBlock β} (hfind : cache.byHash.find hash = some block) :
      block ∈ written := (h.byHash _ (LruMap.mem_of_find hfind)).1
  rw [response_eq_follow]
  refine forall_mem_follow (fun block hstart => ?_) fun block next hnext => ?_
  · unfold start at hstart
    split at hstart
    · exact hfound hstart
    · obtain ⟨hash, -, hfind⟩ := Option.bind_eq_some_iff.mp hstart
      exact hfound hfind
  · grind [parent]

/-- Whatever was read before, an answer is a path. -/
theorem Coherent.pathFrom (h : Coherent hashSlow written cache)
    (hnumbers : NumbersHashed hashSlow written) (req : GetBlocksByRangePacket) :
    PathFrom hashSlow cache req (cache.buildBlocksByRangeResponse req).1.blocks := by
  rw [response_eq_follow]
  exact ⟨length_follow_le, fun block hhead => h.isStart hnumbers (start_of_head hhead),
    isChain_follow.imp fun block next hnext => h.parent_eq_some hnext,
    fun block hlast hshort => h.parent_eq_none (next_last hshort hlast)⟩

/-- An empty answer, by what the cache finds. -/
theorem start_of_response_nil (h : (cache.buildBlocksByRangeResponse req).1.blocks = []) :
    min req.count.toNat 64 = 0 ∨ cache.start req = none := by
  rw [response_eq_follow] at h
  exact follow_eq_nil h

/-- In a complete index nothing is missed by number. -/
theorem Complete.not_isStart (h : cache.Complete) (hcoherent : Coherent hashSlow written cache)
    (hnone : cache.start req = none) (hholds : cache.Holds block) :
    ¬ req.IsStart hashSlow block := by
  unfold start at hnone
  unfold GetBlocksByRangePacket.IsStart
  split at hnone
  · next hhash =>
    rw [if_pos hhash]
    exact hcoherent.not_holds hnone hholds
  · next hhash =>
    rw [if_neg hhash]
    rintro hnumber
    obtain ⟨hash, hmem⟩ := hholds
    have hfound := h _ hmem
    rw [getCachedBlockByNumber_fst, hnumber, hnone] at hfound
    simp at hfound

/-- **Answers are maximal paths of ancestors**, whatever was written to the cache and read from it
before.  In a run in which no block is cached after a read once the cache may be full, they are
empty only if no block of the cache is the start of the request, in every state of the run. -/
theorem blocksByRange_maximal (hashSlow : Header → B256) (ops : List (Op β))
    (hnumbers : NumbersHashed hashSlow (ops.filterMap Op.written)) :
    (∀ req, ((empty.run hashSlow ops).buildBlocksByRangeResponse req).1.requestId = req.requestId ∧
      PathFrom hashSlow (empty.run hashSlow ops) req
        ((empty.run hashSlow ops).buildBlocksByRangeResponse req).1.blocks) ∧
    (Undisturbed ops → ∀ before, before <+: ops → ∀ req,
      Answers hashSlow (empty.run hashSlow before) req
        ((empty.run hashSlow before).buildBlocksByRangeResponse req).1.blocks) := by
  have hcoherent : ∀ ops : List (Op β),
      Coherent hashSlow (ops.filterMap Op.written) (empty.run hashSlow ops) := fun ops =>
    Coherent.empty.run fun block hblock => List.mem_filterMap.mpr ⟨_, hblock, rfl⟩
  refine ⟨fun req => ⟨by rw [response_eq_follow], (hcoherent ops).pathFrom hnumbers req⟩, ?_⟩
  rintro hundisturbed before ⟨after, rfl⟩ req
  have hnumbers' : NumbersHashed hashSlow (before.filterMap Op.written) := by
    rw [List.filterMap_append] at hnumbers
    exact fun a ha b hb =>
      hnumbers a (List.mem_append_left _ ha) b (List.mem_append_left _ hb)
  have hcomplete : (empty.run hashSlow before).Complete :=
    complete_run (hundisturbed.before ⟨after, rfl⟩) hnumbers'
  refine ⟨(hcoherent before).pathFrom hnumbers' req, fun hnil => ?_⟩
  exact (start_of_response_nil hnil).imp id fun hnone block hholds =>
    hcomplete.not_isStart (hcoherent before) hnone hholds

/-! ### A block that outlives its number

A read by hash makes a block recent, but not its number. -/

theorem run_read_write (hashSlow : Header → B256) (cache : BodyCache β) (ops : List (Op β)) (hash : B256)
    (block : FullBlock β) :
    cache.run hashSlow (ops ++ [.readByHash hash] ++ [.write block])
      = ((cache.run hashSlow ops).getCachedBlockByHash hash).2.cacheFullBlock hashSlow block := by
  rw [run_append, run_append]
  rfl

/-- The index does not notice the read. -/
theorem keys_byNumber_read_write (cache : BodyCache β) (hash : B256) (block : FullBlock β) :
    ((cache.getCachedBlockByHash hash).2.cacheFullBlock hashSlow block).byNumber.keys
      = touch cache.byNumber.limit cache.byNumber.keys block.number :=
  LruMap.keys_insert

/-- A block that was just read is the most recent one when the next is written, so that it stays. -/
theorem mem_keys_read_write (h : Whole hashSlow written cache) (hmem : hash ∈ cache.byHash.keys)
    (hne : hashSlow block.header ≠ hash) :
    hash ∈ ((cache.getCachedBlockByHash hash).2.cacheFullBlock hashSlow block).byHash.keys := by
  have hread := h.getCachedBlockByHash hash
  have hrecent : Recent hash [] (cache.getCachedBlockByHash hash).2.byHash.keys := by
    have hkeys : (cache.getCachedBlockByHash hash).2.byHash.keys
        = touch cache.byHash.limit cache.byHash.keys hash :=
      (LruMap.keys_get h.wellFormed.1).trans (if_pos hmem)
    rw [hkeys, h.limits.1]
    exact recent_touch_self (by decide) []
  show hash ∈ (LruMap.insert _ _ _).keys
  rw [LruMap.keys_insert, hread.limits.1]
  rcases hrecent.touch bodyCacheCapacity hread.wellFormed.1.nodup hne with hstays | hcard
  · exact hstays.mem
  · -- one block does not push out another
    have hone : ([hashSlow block.header].toFinset.erase hash).card ≤ 1 :=
      (Finset.card_le_card (Finset.erase_subset _ _)).trans (List.toFinset_card_le _)
    exact absurd (hcard.trans hone) (by decide)

/-- Block `n` of a chain whose blocks are hashed by number. -/
def chainBlock (n : UInt64) : FullBlock Unit :=
  ⟨{ (default : Header) with number := n, parentHash := b256OfUInt64 (n - 1) }, ()⟩

/-- The first blocks of the chain. -/
def chainBlocks (n : Nat) : List (FullBlock Unit) :=
  (List.range n).map fun i => chainBlock (UInt64.ofNat (i + 1))

theorem chainBlocks_succ (n : Nat) :
    chainBlocks (n + 1) = chainBlocks n ++ [chainBlock (UInt64.ofNat (n + 1))] := by
  rw [chainBlocks, List.range_succ, List.map_append]
  rfl

theorem number_eq_of_hash {a b : FullBlock Unit}
    (h : numberHash a.header = numberHash b.header) : a.number = b.number :=
  toBeBytes_injective (List.append_cancel_left (congrArg FixedBytes.val h))

/-- A full cache, in which the oldest block is read and one more is written. -/
def fullThenRead : List (Op Unit) :=
  (chainBlocks 512).map .write ++ [.readByHash (b256OfUInt64 1)] ++ [.write (chainBlock 513)]

theorem run_fullThenRead : (empty.run numberHash fullThenRead : BodyCache Unit)
    = ((empty.run numberHash ((chainBlocks 512).map .write)).getCachedBlockByHash
        (b256OfUInt64 1)).2.cacheFullBlock numberHash (chainBlock 513) := by
  rw [fullThenRead, run_read_write]

theorem holds_first : ∃ block, (empty.run numberHash fullThenRead).byHash.find (b256OfUInt64 1)
      = some block ∧ (empty.run numberHash fullThenRead).Holds block ∧ block.number = 1 := by
  have hwritten : ((chainBlocks 512).map Op.write).filterMap Op.written = chainBlocks 512 := by
    rw [List.filterMap_map]
    exact List.filterMap_some
  have hwhole := Whole.run numberHash ((chainBlocks 512).map .write) (by
    rw [hwritten, chainBlocks, List.length_map, List.length_range]
    exact Nat.le_refl _)
  have hfirst : numberHash (chainBlock 1).header ∈
      (chainBlocks 512).map fun block => numberHash block.header :=
    List.mem_map_of_mem (List.mem_map.mpr ⟨0, List.mem_range.mpr (by decide), rfl⟩)
  rw [hwritten] at hwhole
  have hmem : b256OfUInt64 1 ∈ (empty.run numberHash fullThenRead).byHash.keys := by
    rw [run_fullThenRead]
    exact mem_keys_read_write hwhole ((hwhole.hashes _).mpr hfirst) (by decide +kernel)
  obtain ⟨block, hfind⟩ := Option.isSome_iff_exists.mp (LruMap.find_isSome_iff.mpr hmem)
  have hcoherent : Coherent numberHash (fullThenRead.filterMap Op.written)
      (empty.run numberHash fullThenRead) :=
    Coherent.empty.run fun block hblock => List.mem_filterMap.mpr ⟨_, hblock, rfl⟩
  exact ⟨block, hfind, ⟨_, LruMap.mem_of_find hfind⟩,
    number_eq_of_hash (b := chainBlock 1) (hcoherent.hash_of_find hfind)⟩

/-- The index was only written to, with one number more than it has room for. -/
theorem first_not_indexed : (empty.run numberHash fullThenRead).byNumber.find 1 = none := by
  have hwrites : ∀ n, (empty.run numberHash ((chainBlocks n).map .write)).byNumber.limit = 512 ∧
      (empty.run numberHash ((chainBlocks n).map .write)).byNumber.keys
        = ((chainBlocks n).map FullBlock.number).foldl (touch 512) [] := by
    intro n
    induction n with
    | zero => exact ⟨rfl, rfl⟩
    | succ n ih =>
      rw [chainBlocks_succ, List.map_append, List.map_singleton, run_append, List.map_append,
        List.foldl_append, ← ih.2]
      refine ⟨ih.1, ?_⟩
      show (LruMap.insert _ _ _).keys = _
      rw [LruMap.keys_insert, ih.1]
      rfl
  have hkeys : (empty.run numberHash fullThenRead).byNumber.keys
      = ((chainBlocks 513).map FullBlock.number).foldl (touch 512) [] := by
    have hsucc : chainBlocks 513 = chainBlocks 512 ++ [chainBlock 513] := chainBlocks_succ 512
    rw [run_fullThenRead, keys_byNumber_read_write, (hwrites 512).1, (hwrites 512).2,
      hsucc, List.map_append, List.foldl_append, List.map_singleton, List.foldl_cons,
      List.foldl_nil]
  have hnumbers : (chainBlocks 513).map FullBlock.number
      = (List.range 513).map fun i => UInt64.ofNat (i + 1) := List.map_map
  have hnodup : ((List.range 513).map fun i => UInt64.ofNat (i + 1)).Nodup := by
    refine List.nodup_range.map_on fun a ha b hb hab => ?_
    have ha := List.mem_range.mp ha
    have hb := List.mem_range.mp hb
    rw [← UInt64.toNat_inj, UInt64.toNat_ofNat', UInt64.toNat_ofNat'] at hab
    omega
  have hgone : (1 : UInt64) ∉ (empty.run numberHash fullThenRead).byNumber.keys := by
    rw [hkeys, hnumbers]
    rw [List.range_succ_eq_map, List.map_cons] at hnodup ⊢
    exact notMem_foldl_touch hnodup (by rw [List.length_map, List.length_map, List.length_range])
  rw [← LruMap.find_isSome_iff] at hgone
  exact Option.not_isSome_iff_eq_none.mp hgone

/-- **A block that outlives its number.**  The cache holds block 1 and gives it to a request for its
hash, but answers a request for number 1 with nothing. -/
theorem first_block_not_found :
    ∃ block, (empty.run numberHash fullThenRead).Holds block ∧ block.number = 1 ∧
      ((empty.run numberHash fullThenRead).buildBlocksByRangeResponse
        ⟨7, 0, b256OfUInt64 1, 1⟩).1.blocks = [block] ∧
      ((empty.run numberHash fullThenRead).buildBlocksByRangeResponse
        ⟨7, 1, .zero, 10⟩).1.blocks = [] ∧
      ¬ Answers numberHash (empty.run numberHash fullThenRead) ⟨7, 1, .zero, 10⟩
        ((empty.run numberHash fullThenRead).buildBlocksByRangeResponse
          ⟨7, 1, .zero, 10⟩).1.blocks := by
  obtain ⟨block, hfind, hholds, hnumber⟩ := holds_first
  have hnone := first_not_indexed
  generalize empty.run numberHash fullThenRead = cache at hfind hholds hnone ⊢
  have hnil : (cache.buildBlocksByRangeResponse ⟨7, 1, .zero, 10⟩).1.blocks = [] := by
    rw [response_eq_follow]
    show follow cache.parent 10 ((cache.byNumber.find 1).bind cache.byHash.find) = []
    rw [hnone]
    rfl
  refine ⟨block, hholds, hnumber, ?_, hnil, fun h => ?_⟩
  · rw [response_eq_follow]
    show follow cache.parent 1 (cache.byHash.find (b256OfUInt64 1)) = [block]
    rw [hfind, follow, follow]
  · rcases h.nonempty hnil with hzero | hstart
    · exact absurd hzero (by decide)
    · exact hstart block hholds hnumber

/-- Two blocks are written, with reads in between. -/
def twoWrites : List (Op Unit) :=
  [.write (chainBlock 1), .readByHash (numberHash (chainBlock 1).header), .write (chainBlock 2),
    .readByNumber 1]

theorem undisturbed_twoWrites : Undisturbed twoWrites := by
  intro before block after hsplit
  refine .inr ?_
  have hlength : (before.filterMap Op.written).length ≤ twoWrites.length := by grind
  exact Nat.lt_of_le_of_lt hlength (by decide)

/-- The ancestors of block 2; for the parent of block 1 nothing is looked up. -/
theorem blocksByRange_maximal_two :
    ((empty.run numberHash twoWrites).buildBlocksByRangeResponse ⟨7, 2, .zero, 100⟩).1
      = ⟨7, [chainBlock 2, chainBlock 1]⟩ ∧
    Answers numberHash (empty.run numberHash twoWrites) ⟨7, 2, .zero, 100⟩
      [chainBlock 2, chainBlock 1] := by
  have hresponse : ((empty.run numberHash twoWrites).buildBlocksByRangeResponse
      ⟨7, 2, .zero, 100⟩).1 = ⟨7, [chainBlock 2, chainBlock 1]⟩ := by decide +kernel
  have hanswers := (blocksByRange_maximal numberHash twoWrites (by decide +kernel)).2
    undisturbed_twoWrites twoWrites (List.prefix_refl _) ⟨7, 2, .zero, 100⟩
  rw [hresponse] at hanswers
  exact ⟨hresponse, hanswers⟩

end BodyCache

end RethBsc
