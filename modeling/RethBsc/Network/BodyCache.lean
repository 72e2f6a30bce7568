import RethBsc.Chain.Header
import RethBsc.Rust.Recency

/-!
# The cache of full blocks

`src/shared.rs`: the blocks that were imported last, by hash, and an index of their hashes by
number.  Both are least-recently-used maps, so that reading a block keeps it for longer.  A lock is
never poisoned, as nothing panics while one is held.

* `BodyCache.Coherent`: what every entry of the two maps says.
* `BodyCache.Indexed`: in a cache that was only written to, the index forgets a number only with the
  blocks of that number.
* `BodyCache.Whole`: in a cache that was given no more blocks than it has room for, whatever was
  read, nothing is forgotten.
* `complete_run`: in both cases every block of the cache is found by its number.  A block that is
  read by its hash becomes more recent in one map only, so that reads before later writes can let a
  block outlive its entry in the index.
-/

namespace RethBsc

open Rust

/-- A `BscBlock`; of the body the cache knows nothing. -/
structure FullBlock (β : Type) where
  header : Header
  body : β
  deriving DecidableEq

def FullBlock.number {β : Type} (block : FullBlock β) : UInt64 := block.header.number

def bodyCacheCapacity : Nat := 512

structure BodyCache (β : Type) where
  byHash : LruMap B256 (FullBlock β)
  byNumber : LruMap UInt64 B256

namespace BodyCache

variable {β : Type}

def empty : BodyCache β := ⟨.new bodyCacheCapacity, .new bodyCacheCapacity⟩

variable (hashSlow : Header → B256)

def cacheFullBlock (cache : BodyCache β) (block : FullBlock β) : BodyCache β :=
  let hash := hashSlow block.header
  ⟨cache.byHash.insert hash block, cache.byNumber.insert block.number hash⟩

def getCachedBlockByHash (cache : BodyCache β) (hash : B256) :
    Option (FullBlock β) × BodyCache β :=
  let (block, byHash) := cache.byHash.get hash
  (block, { cache with byHash })

def getCachedBlockByNumber (cache : BodyCache β) (number : UInt64) :
    Option (FullBlock β) × BodyCache β :=
  match cache.byNumber.get number with
  | (some hash, byNumber) => ({ cache with byNumber } : BodyCache β).getCachedBlockByHash hash
  | (none, byNumber) => (none, { cache with byNumber })

/-- What the node does with the cache. -/
inductive Op (β : Type) where
  | write (block : FullBlock β)
  | readByHash (hash : B256)
  | readByNumber (number : UInt64)

def Op.written : Op β → Option (FullBlock β)
  | .write block => some block
  | _ => none

def step (cache : BodyCache β) : Op β → BodyCache β
  | .write block => cache.cacheFullBlock hashSlow block
  | .readByHash hash => (cache.getCachedBlockByHash hash).2
  | .readByNumber number => (cache.getCachedBlockByNumber number).2

def run (ops : List (Op β)) (cache : BodyCache β) : BodyCache β := ops.foldl (step hashSlow) cache

/-! ## Reading changes no entry -/

/-- The two maps give the same answers. -/
def Agrees (cache cache' : BodyCache β) : Prop :=
  (∀ hash, cache'.byHash.find hash = cache.byHash.find hash) ∧
    ∀ number, cache'.byNumber.find number = cache.byNumber.find number

theorem Agrees.trans {a b c : BodyCache β} (hab : Agrees a b) (hbc : Agrees b c) : Agrees a c :=
  ⟨fun hash => (hbc.1 hash).trans (hab.1 hash), fun number => (hbc.2 number).trans (hab.2 number)⟩

variable {hashSlow} {cache : BodyCache β}

theorem getCachedBlockByHash_fst (cache : BodyCache β) (hash : B256) :
    (cache.getCachedBlockByHash hash).1 = cache.byHash.find hash := LruMap.get_fst

theorem getCachedBlockByHash_agrees (cache : BodyCache β) (hash : B256) :
    Agrees cache (cache.getCachedBlockByHash hash).2 := ⟨fun _ => LruMap.find_get, fun _ => rfl⟩

/-- A number is looked up in one map, and its hash in the other. -/
theorem getCachedBlockByNumber_fst (cache : BodyCache β) (number : UInt64) :
    (cache.getCachedBlockByNumber number).1
      = (cache.byNumber.find number).bind cache.byHash.find := by
  rw [← LruMap.get_fst]
  unfold getCachedBlockByNumber
  cases hget : cache.byNumber.get number with
  | mk found byNumber =>
    cases found with
    | none => rfl
    | some hash => exact getCachedBlockByHash_fst _ hash

theorem getCachedBlockByNumber_agrees (cache : BodyCache β) (number : UInt64) :
    Agrees cache (cache.getCachedBlockByNumber number).2 := by
  unfold getCachedBlockByNumber
  cases hget : cache.byNumber.get number with
  | mk found byNumber =>
    have hnumbers : Agrees cache { cache with byNumber } := by
      refine ⟨fun _ => rfl, fun number' => ?_⟩
      rw [show byNumber = (cache.byNumber.get number).2 by rw [hget]]
      exact LruMap.find_get
    cases found with
    | none => exact hnumbers
    | some hash => exact hnumbers.trans (getCachedBlockByHash_agrees _ hash)

/-! ## What the entries say -/

variable {written : List (FullBlock β)}

/-- Every entry comes from one of the blocks in `written`. -/
structure Coherent (hashSlow : Header → B256) (written : List (FullBlock β))
    (cache : BodyCache β) : Prop where
  byHash : ∀ e ∈ cache.byHash.entries, e.2 ∈ written ∧ hashSlow e.2.header = e.1
  byNumber : ∀ e ∈ cache.byNumber.entries,
    ∃ block ∈ written, block.number = e.1 ∧ hashSlow block.header = e.2

namespace Coherent

theorem empty : Coherent hashSlow written (empty : BodyCache β) := 
  ⟨nofun, nofun⟩

theorem cacheFullBlock (h : Coherent hashSlow written cache) {block : FullBlock β}
    (hblock : block ∈ written) :
    Coherent hashSlow written (cache.cacheFullBlock hashSlow block) := by
  refine ⟨fun e he => ?_, fun e he => ?_⟩
  · rcases LruMap.mem_of_mem_insert he with rfl | he
    · exact ⟨hblock, rfl⟩
    · exact h.byHash e he
  · rcases LruMap.mem_of_mem_insert he with rfl | he
    · exact ⟨block, hblock, rfl, rfl⟩
    · exact h.byNumber e he

theorem getCachedBlockByHash (h : Coherent hashSlow written cache) (hash : B256) :
    Coherent hashSlow written (cache.getCachedBlockByHash hash).2 :=
  ⟨fun e he => h.byHash e (LruMap.mem_of_mem_get he), h.byNumber⟩

theorem getCachedBlockByNumber (h : Coherent hashSlow written cache) (number : UInt64) :
    Coherent hashSlow written (cache.getCachedBlockByNumber number).2 := by
  unfold BodyCache.getCachedBlockByNumber
  cases hget : cache.byNumber.get number with
  | mk found byNumber =>
    have hnumbers : Coherent hashSlow written { cache with byNumber } := by
      refine ⟨h.byHash, fun e he => h.byNumber e ?_⟩
      rw [show byNumber = (cache.byNumber.get number).2 by rw [hget]] at he
      exact LruMap.mem_of_mem_get he
    cases found with
    | none => exact hnumbers
    | some hash => exact hnumbers.getCachedBlockByHash hash

theorem step (h : Coherent hashSlow written cache) {op : Op β}
    (hop : ∀ block, op = .write block → block ∈ written) :
    Coherent hashSlow written (cache.step hashSlow op) := by
  cases op with
  | write block => exact h.cacheFullBlock (hop block rfl)
  | readByHash hash => exact h.getCachedBlockByHash hash
  | readByNumber number => exact h.getCachedBlockByNumber number

theorem run (h : Coherent hashSlow written cache) {ops : List (Op β)}
    (hops : ∀ block, .write block ∈ ops → block ∈ written) :
    Coherent hashSlow written (cache.run hashSlow ops) := by
  induction ops generalizing cache with
  | nil => exact h
  | cons op ops ih =>
    have hstep : Coherent hashSlow written (cache.step hashSlow op) :=
      h.step fun block hop => hops block (hop ▸ List.mem_cons_self)
    exact ih hstep fun block hblock => hops block (List.mem_cons_of_mem _ hblock)

end Coherent

/-! ## Finding blocks by number -/

/-- No two of the blocks have one hash and different numbers. -/
def NumbersHashed (hashSlow : Header → B256) (written : List (FullBlock β)) : Prop :=
  ∀ a ∈ written, ∀ b ∈ written, hashSlow a.header = hashSlow b.header → a.number = b.number

instance (hashSlow : Header → B256) (written : List (FullBlock β)) :
    Decidable (NumbersHashed hashSlow written) := by
  unfold NumbersHashed
  infer_instance

/-- For every block of the cache, that block or another of its number is found by the number. -/
def Complete (cache : BodyCache β) : Prop :=
  ∀ e ∈ cache.byHash.entries, (cache.getCachedBlockByNumber e.2.number).1.isSome

/-- Every block of the cache is found by its number, unless a newer block of that number is.
In the index there are only numbers of newer blocks in front of its own. -/
structure Indexed (cache : BodyCache β) : Prop where
  limits : cache.byHash.limit = bodyCacheCapacity ∧ cache.byNumber.limit = bodyCacheCapacity
  wellFormed : cache.byNumber.WellFormed
  recent : ∀ {newer e older}, cache.byHash.entries = newer ++ e :: older →
    Recent e.2.number (newer.map fun e => e.2.number) cache.byNumber.keys
  found : ∀ {newer e older}, cache.byHash.entries = newer ++ e :: older →
    ∃ hash ∈ (newer ++ [e]).map Prod.fst, cache.byNumber.find e.2.number = some hash

namespace Indexed

theorem empty : Indexed (empty : BodyCache β) :=
  ⟨⟨rfl, rfl⟩, LruMap.wellFormed_new _, fun h => absurd h (by simp [BodyCache.empty, LruMap.new]),
    fun h => absurd h (by simp [BodyCache.empty, LruMap.new])⟩

/-- The numbers in front of an entry of another number stay in front of it. -/
theorem recent_write (h : Indexed cache) (hcoherent : Coherent hashSlow written cache)
    (hnumbers : NumbersHashed hashSlow written) {block : FullBlock β} (hblock : block ∈ written)
    {newer older : List (B256 × FullBlock β)} {e : B256 × FullBlock β}
    (hentries : cache.byHash.entries = newer ++ e :: older)
    (hroom : (newer.filter fun e => e.1 ≠ hashSlow block.header).length + 1 < bodyCacheCapacity)
    (hne : block.number ≠ e.2.number) :
    Recent e.2.number
      (block.number :: (newer.filter fun e => e.1 ≠ hashSlow block.header).map fun e => e.2.number)
      (touch cache.byNumber.limit cache.byNumber.keys block.number) := by
  -- an entry of the same hash has the same number
  have hsub : block.number :: (newer.map fun e => e.2.number) ⊆
      block.number :: (newer.filter fun e => e.1 ≠ hashSlow block.header).map
        fun e => e.2.number := by
    intro number hmem
    rcases List.mem_cons.mp hmem with rfl | hmem
    · exact List.mem_cons_self
    obtain ⟨e', he', rfl⟩ := List.mem_map.mp hmem
    by_cases hhash : e'.1 = hashSlow block.header
    · have hin : e' ∈ cache.byHash.entries := by
        rw [hentries]
        exact List.mem_append_left _ he'
      obtain ⟨hwritten, hslow⟩ := hcoherent.byHash e' hin
      rw [hnumbers e'.2 hwritten block hblock (hslow.trans hhash)]
      exact List.mem_cons_self
    · grind
  rcases (h.recent hentries).touch cache.byNumber.limit h.wellFormed.nodup hne with hrecent | hcard
  · obtain ⟨front, back, hkeys, hfront⟩ := hrecent
    exact ⟨front, back, hkeys, fun x hx => hsub (hfront hx)⟩
  · -- there are too few blocks in front of the entry for its number to be forgotten
    have hle : ((block.number :: newer.map fun e => e.2.number).toFinset.erase e.2.number).card
        ≤ (newer.filter fun e => e.1 ≠ hashSlow block.header).length + 1 :=
      calc ((block.number :: newer.map fun e => e.2.number).toFinset.erase e.2.number).card
          ≤ (block.number :: newer.map fun e => e.2.number).toFinset.card :=
            Finset.card_le_card (Finset.erase_subset _ _)
        _ ≤ (block.number :: (newer.filter fun e => e.1 ≠ hashSlow block.header).map
              fun e => e.2.number).toFinset.card := by
            refine Finset.card_le_card fun x hx => ?_
            exact List.mem_toFinset.mpr (hsub (List.mem_toFinset.mp hx))
        _ ≤ _ := List.toFinset_card_le _
        _ = _ := by rw [List.length_cons, List.length_map]
    rw [h.limits.2] at hcard
    omega

theorem write (h : Indexed cache) (hcoherent : Coherent hashSlow written cache)
    (hnumbers : NumbersHashed hashSlow written) {block : FullBlock β} (hblock : block ∈ written) :
    Indexed (cache.cacheFullBlock hashSlow block) := by
  have hkeys : (cache.cacheFullBlock hashSlow block).byNumber.keys
      = touch cache.byNumber.limit cache.byNumber.keys block.number := LruMap.keys_insert
  have hhead : ∀ since, Recent block.number since
      (cache.cacheFullBlock hashSlow block).byNumber.keys := by
    intro since
    have hpos : 0 < cache.byNumber.limit := by
      rw [h.limits.2]
      decide
    rw [hkeys]
    exact recent_touch_self hpos since
  have hself : (cache.cacheFullBlock hashSlow block).byNumber.find block.number
      = some (hashSlow block.header) := by
    refine LruMap.find_insert_self ?_
    rw [h.limits.2]
    decide
  have hrecent : ∀ {newer e older},
      (cache.cacheFullBlock hashSlow block).byHash.entries = newer ++ e :: older →
      Recent e.2.number (newer.map fun e => e.2.number)
        (cache.cacheFullBlock hashSlow block).byNumber.keys := by
    intro newer e older hsplit
    have hlength : newer.length < bodyCacheCapacity := by
      have hcut : (newer ++ e :: older).length ≤ cache.byHash.limit :=
        hsplit ▸ List.length_take_le _ _
      rw [List.length_append, List.length_cons, h.limits.1] at hcut
      omega
    rcases LruMap.entries_insert_split hsplit with ⟨-, rfl⟩ | ⟨newer', older', hentries, rfl⟩
    · exact hhead _
    · by_cases hnumber : block.number = e.2.number
      · exact hnumber ▸ hhead _
      · rw [hkeys]
        exact h.recent_write hcoherent hnumbers hblock hentries hlength hnumber
  refine ⟨h.limits, h.wellFormed.insert _ _, hrecent, fun {newer e older} hsplit => ?_⟩
  rcases LruMap.entries_insert_split hsplit with ⟨rfl, rfl⟩ | ⟨newer', older', hentries, rfl⟩
  · exact ⟨_, by simp, hself⟩
  · by_cases hnumber : block.number = e.2.number
    · exact ⟨_, by simp, hnumber ▸ hself⟩
    · -- the index still has the number, and the entry is the old one
      obtain ⟨hash, hold, hfind⟩ := h.found hentries
      obtain ⟨hash', hfind'⟩ :=
        Option.isSome_iff_exists.mp (LruMap.find_isSome_iff.mpr (hrecent hsplit).mem)
      have hsame := LruMap.find_of_find_insert (Ne.symm hnumber) hfind'
      obtain rfl := Option.some.inj (hfind.symm.trans hsame)
      refine ⟨hash, ?_, hfind'⟩
      obtain ⟨e', he', rfl⟩ := List.mem_map.mp hold
      grind

/-- Writes keep the index in step with the blocks. -/
theorem run (h : Indexed cache) (hcoherent : Coherent hashSlow written cache)
    (hnumbers : NumbersHashed hashSlow written) {blocks : List (FullBlock β)}
    (hblocks : ∀ block ∈ blocks, block ∈ written) :
    Indexed (cache.run hashSlow (blocks.map .write)) := by
  induction blocks generalizing cache with
  | nil => exact h
  | cons block blocks ih =>
    have hblock : block ∈ written := hblocks block List.mem_cons_self
    exact ih (h.write hcoherent hnumbers hblock) (hcoherent.cacheFullBlock hblock)
      fun b hb => hblocks b (List.mem_cons_of_mem _ hb)

theorem complete (h : Indexed cache) : cache.Complete := by
  intro e he
  obtain ⟨newer, older, hsplit⟩ := List.append_of_mem he
  obtain ⟨hash, hhash, hfind⟩ := h.found hsplit
  have hkey : hash ∈ cache.byHash.keys := by
    rw [LruMap.keys, hsplit, List.append_cons, List.map_append]
    exact List.mem_append_left _ hhash
  rw [getCachedBlockByNumber_fst, hfind]
  exact LruMap.find_isSome_iff.mpr hkey

end Indexed

/-! ## Reads and writes -/

theorem run_append (hashSlow : Header → B256) (ops : List (Op β)) (op : Op β) (cache : BodyCache β) :
    cache.run hashSlow (ops ++ [op]) = (cache.run hashSlow ops).step hashSlow op :=
  List.foldl_append

/-- Nothing that was written is forgotten. -/
structure Whole (hashSlow : Header → B256) (written : List (FullBlock β)) (cache : BodyCache β) :
    Prop where
  limits : cache.byHash.limit = bodyCacheCapacity ∧ cache.byNumber.limit = bodyCacheCapacity
  wellFormed : cache.byHash.WellFormed ∧ cache.byNumber.WellFormed
  hashes : ∀ hash, hash ∈ cache.byHash.keys ↔ hash ∈ written.map fun block => hashSlow block.header
  numbers : ∀ number, number ∈ cache.byNumber.keys ↔ number ∈ written.map FullBlock.number

namespace Whole

theorem empty : Whole hashSlow [] (empty : BodyCache β) :=
  ⟨⟨rfl, rfl⟩, ⟨LruMap.wellFormed_new _, LruMap.wellFormed_new _⟩, fun _ => .rfl, fun _ => .rfl⟩

/-- A block more, as long as there is room. -/
theorem cacheFullBlock (h : Whole hashSlow written cache) (block : FullBlock β)
    (hroom : written.length < bodyCacheCapacity) :
    Whole hashSlow (written ++ [block]) (cache.cacheFullBlock hashSlow block) := by
  refine ⟨h.limits, ⟨h.wellFormed.1.insert _ _, h.wellFormed.2.insert _ _⟩, fun hash => ?_,
    fun number => ?_⟩
  · have hused : (written.map fun block => hashSlow block.header).length < cache.byHash.limit := by
      rwa [List.length_map, h.limits.1]
    show hash ∈ (cache.byHash.insert _ _).keys ↔ _
    rw [LruMap.keys_insert, List.map_append]
    exact mem_touch_of_room h.wellFormed.1.nodup h.hashes hused
  · have hused : (written.map FullBlock.number).length < cache.byNumber.limit := by
      rwa [List.length_map, h.limits.2]
    show number ∈ (cache.byNumber.insert _ _).keys ↔ _
    rw [LruMap.keys_insert, List.map_append]
    exact mem_touch_of_room h.wellFormed.2.nodup h.numbers hused

theorem getCachedBlockByHash (h : Whole hashSlow written cache) (hash : B256) :
    Whole hashSlow written (cache.getCachedBlockByHash hash).2 :=
  ⟨⟨LruMap.limit_get.trans h.limits.1, h.limits.2⟩, ⟨h.wellFormed.1.get hash, h.wellFormed.2⟩,
    fun hash => LruMap.mem_keys_get.trans (h.hashes hash), h.numbers⟩

theorem getCachedBlockByNumber (h : Whole hashSlow written cache) (number : UInt64) :
    Whole hashSlow written (cache.getCachedBlockByNumber number).2 := by
  have hindex : Whole hashSlow written { cache with byNumber := (cache.byNumber.get number).2 } :=
    ⟨⟨h.limits.1, LruMap.limit_get.trans h.limits.2⟩, ⟨h.wellFormed.1, h.wellFormed.2.get number⟩,
      h.hashes, fun number => LruMap.mem_keys_get.trans (h.numbers number)⟩
  unfold BodyCache.getCachedBlockByNumber
  cases hget : cache.byNumber.get number with
  | mk found byNumber =>
    rw [hget] at hindex
    cases found with
    | none => exact hindex
    | some hash => exact hindex.getCachedBlockByHash hash

/-- Any operations, in any order, that write no more blocks than there is room for. -/
theorem run (hashSlow : Header → B256) (ops : List (Op β))
    (hroom : (ops.filterMap Op.written).length ≤ bodyCacheCapacity) :
    Whole hashSlow (ops.filterMap Op.written) (BodyCache.empty.run hashSlow ops) := by
  induction ops using List.reverseRecOn with
  | nil => exact .empty
  | append_singleton ops op ih =>
    rw [List.filterMap_append, List.length_append] at hroom
    have h := ih (Nat.le_trans (Nat.le_add_right _ _) hroom)
    rw [run_append, List.filterMap_append]
    cases op with
    | write block => exact h.cacheFullBlock block hroom
    | readByHash hash =>
      rw [show [Op.readByHash hash].filterMap Op.written = [] from rfl, List.append_nil]
      exact h.getCachedBlockByHash hash
    | readByNumber number =>
      rw [show [Op.readByNumber number].filterMap Op.written = [] from rfl, List.append_nil]
      exact h.getCachedBlockByNumber number

/-- What the index says of a number is the hash of a block that was written. -/
theorem complete (h : Whole hashSlow written cache) (hcoherent : Coherent hashSlow written cache) :
    cache.Complete := by
  intro e he
  have hnumber : e.2.number ∈ cache.byNumber.keys :=
    (h.numbers _).mpr (List.mem_map_of_mem (hcoherent.byHash e he).1)
  obtain ⟨hash, hfind⟩ := Option.isSome_iff_exists.mp (LruMap.find_isSome_iff.mpr hnumber)
  obtain ⟨block, hblock, -, hslow⟩ := hcoherent.byNumber _ (LruMap.mem_of_find hfind)
  have hkey : hash ∈ cache.byHash.keys :=
    (h.hashes hash).mpr (List.mem_map.mpr ⟨block, hblock, hslow⟩)
  rw [getCachedBlockByNumber_fst, hfind]
  exact LruMap.find_isSome_iff.mpr hkey

end Whole

/-- A read changes no entry. -/
theorem Complete.read (h : cache.Complete) {op : Op β} (hread : op.written = none) :
    (cache.step hashSlow op).Complete := by
  -- what a read returns next is a state with the same entries and the same answers
  have hagrees : ∀ cache' : BodyCache β, Agrees cache cache' →
      (∀ e ∈ cache'.byHash.entries, e ∈ cache.byHash.entries) → cache'.Complete := by
    intro cache' hagrees hentries e he
    have hfound := h e (hentries e he)
    rw [getCachedBlockByNumber_fst] at hfound ⊢
    rwa [hagrees.2, funext hagrees.1]
  cases op with
  | write block => exact nomatch hread
  | readByHash hash =>
    exact hagrees _ (getCachedBlockByHash_agrees cache hash) fun e he => LruMap.mem_of_mem_get he
  | readByNumber number =>
    refine hagrees _ (getCachedBlockByNumber_agrees cache number) fun e he => ?_
    simp only [step, BodyCache.getCachedBlockByNumber] at he
    split at he
    · exact LruMap.mem_of_mem_get he
    · exact he

/-- No block is written after a read once the cache may be full. -/
def Undisturbed (ops : List (Op β)) : Prop :=
  ∀ before block after, ops = before ++ .write block :: after →
    (∀ op ∈ before, op.written ≠ none) ∨
      (before.filterMap Op.written).length < bodyCacheCapacity

theorem Undisturbed.before {ops ops' : List (Op β)} (h : Undisturbed ops) (hbefore : ops' <+: ops) :
    Undisturbed ops' := by
  obtain ⟨later, rfl⟩ := hbefore
  rintro before block after rfl
  exact h before block (after ++ later) (by simp)

/-- Operations that all write are the writes of some blocks. -/
theorem exists_blocks {ops : List (Op β)} (h : ∀ op ∈ ops, op.written ≠ none) :
    ops = (ops.filterMap Op.written).map .write := by
  induction ops with
  | nil => rfl
  | cons op ops ih =>
    have hrest := ih fun op' hop' => h op' (List.mem_cons_of_mem _ hop')
    cases op with
    | write block => exact congrArg (Op.write block :: ·) hrest
    | readByHash hash => exact absurd rfl (h _ List.mem_cons_self)
    | readByNumber number => exact absurd rfl (h _ List.mem_cons_self)

/-- **Every block is found by its number** in a cache that was not read before later writes, or not
until it may have been full. -/
theorem complete_run {ops : List (Op β)} (hundisturbed : Undisturbed ops)
    (hnumbers : NumbersHashed hashSlow (ops.filterMap Op.written)) :
    (BodyCache.empty.run hashSlow ops).Complete := by
  have hwritten : ∀ {ops' : List (Op β)} block, .write block ∈ ops' →
      block ∈ ops'.filterMap Op.written :=
    fun block hblock => List.mem_filterMap.mpr ⟨_, hblock, rfl⟩
  induction ops using List.reverseRecOn with
  | nil => exact Indexed.empty.complete
  | append_singleton ops op ih =>
    cases hop : op.written with
    | none =>
      rw [run_append]
      refine (ih (hundisturbed.before (List.prefix_append _ _)) fun a ha b hb => ?_).read hop
      exact hnumbers a (List.filterMap_append ▸ List.mem_append_left _ ha) b
        (List.filterMap_append ▸ List.mem_append_left _ hb)
    | some block =>
      cases op with
      | readByHash hash => exact nomatch hop
      | readByNumber number => exact nomatch hop
      | write block =>
        rcases hundisturbed ops block [] rfl with hwrites | hroom
        · -- all operations were writes
          have hall : ∀ op ∈ ops ++ [Op.write block], op.written ≠ none := by grind
          rw [exists_blocks hall]
          exact (Indexed.empty.run .empty hnumbers fun _ hblock => hblock).complete
        · -- there was room for all blocks
          have hlength : ((ops ++ [Op.write block]).filterMap Op.written).length
              ≤ bodyCacheCapacity := by
            rwa [List.filterMap_append, List.length_append]
          exact (Whole.run hashSlow _ hlength).complete (Coherent.empty.run hwritten)

end BodyCache

end RethBsc
