import RethBsc.Parlia.VotePool
import RethBsc.Rust.PopMin

/-!
# Pruning the vote pool

`prune` and `drain` of `src/consensus/parlia/vote_pool.rs`, and whole runs of the pool.  A bucket
of votes has one entry in the heap, the data of the vote that opened the bucket, and `prune` drops
or keeps the bucket as a whole by the target number of that entry.

* `Consistent`: the three indexes of the pool describe the same votes.  `Consistent.insert` and
  `Consistent.dropBucket` are the two steps; `Consistent.run` is the run.
* `Exact`: what a pruning should leave of a pool.
* `Uniform`: the votes of a bucket have the target number of its entry.  In such a pool, without
  numbers at the end of the range, pruning is exact (`Uniform.exact_pruneLoop`).
-/

namespace RethBsc

open Rust

namespace VotePool

/-- `BinaryHeap<Reverse<VoteData>>`: votes compare by their target numbers alone. -/
abbrev VotesPriorityQueue := PopMin VoteData fun data => data.targetNumber.toNat

def lowerLimitOfVoteBlockNumber : UInt64 := 256

/-- The votes of all buckets. -/
def allVotes (pool : VotePool) : List VoteEnvelope := pool.curVotes.flat

def len (pool : VotePool) : Nat := (pool.curVotes.entries.map fun e => e.2.length).sum

def drain (pool : VotePool) : List VoteEnvelope × VotePool := (pool.allVotes, new)

section Model

variable (heap : VotesPriorityQueue) (envelopeHash : VoteEnvelope → B256)

/-- `for vote in votes { received_votes.remove(&vote.hash()) }`. -/
def forget (received : List B256) (votes : List VoteEnvelope) : List B256 :=
  votes.foldl (fun received vote => received.filter (· ≠ envelopeHash vote)) received

/-- The bucket of the popped entry is removed; `rest` is what stays in the heap. -/
def dropBucket (pool : VotePool) (data : VoteData) (rest : List VoteData) : VotePool :=
  match pool.curVotes.lookup data.targetHash with
  | none => { pool with curVotesPq := rest }
  | some voteBox =>
    { receivedVotes := forget envelopeHash pool.receivedVotes voteBox
      curVotes := pool.curVotes.erase data.targetHash
      curVotesPq := rest }

/-- The loop of `prune`; every turn takes an entry off the heap, so that `fuel` turns suffice for a
heap of at most `fuel` entries. -/
def pruneLoop (latestBlockNumber : UInt64) : Nat → VotePool → VotePool
  | 0, pool => pool
  | fuel + 1, pool =>
    match heap.pop pool.curVotesPq with
    | none => pool
    | some (data, rest) =>
      if data.targetNumber + lowerLimitOfVoteBlockNumber - 1 < latestBlockNumber then
        pruneLoop latestBlockNumber fuel (pool.dropBucket envelopeHash data rest)
      else pool

def prune (pool : VotePool) (latestBlockNumber : UInt64) : VotePool :=
  pruneLoop heap envelopeHash latestBlockNumber pool.curVotesPq.length pool

/-- What callers do to the pool. -/
inductive Op where
  | insert (vote : VoteEnvelope)
  | prune (latestBlockNumber : UInt64)
  | drain

def apply (pool : VotePool) : Op → VotePool
  | .insert vote => pool.insert envelopeHash vote
  | .prune latestBlockNumber => pool.prune heap envelopeHash latestBlockNumber
  | .drain => pool.drain.2

/-- The pool after a sequence of operations. -/
def run (ops : List Op) : VotePool := ops.foldl (apply heap envelopeHash) new

end Model

variable {heap : VotesPriorityQueue} {envelopeHash : VoteEnvelope → B256} {pool : VotePool}

/-! ## The three indexes -/

/-- The three indexes describe the same votes. -/
structure Consistent (envelopeHash : VoteEnvelope → B256) (pool : VotePool) : Prop where
  received : ∀ h, h ∈ pool.receivedVotes ↔ h ∈ pool.allVotes.map envelopeHash
  nodup_hashes : (pool.allVotes.map envelopeHash).Nodup
  nonempty : pool.curVotes.All fun _ votes => votes ≠ []
  own_bucket : pool.curVotes.All fun h votes => ∀ v ∈ votes, v.data.targetHash = h
  /-- One entry for every key, of that key. -/
  queue : (pool.curVotesPq.map VoteData.targetHash).Perm pool.curVotes.keys
  queue_held : ∀ d ∈ pool.curVotesPq, ∃ v ∈ pool.allVotes, v.data = d

theorem consistent_new : Consistent envelopeHash new where
  received _ := .rfl
  nodup_hashes := List.nodup_nil
  nonempty := Map.all_empty _
  own_bucket := Map.all_empty _
  queue := List.Perm.refl _
  queue_held _ hd := absurd hd List.not_mem_nil

theorem Consistent.mem_fetch (h : Consistent envelopeHash pool) (k : B256) (v : VoteEnvelope) :
    v ∈ pool.fetchVoteByBlockHash k ↔ v ∈ pool.allVotes ∧ v.data.targetHash = k := by
  rw [fetchVoteByBlockHash, allVotes, Map.mem_flat]
  constructor
  · intro hv
    cases hk : pool.curVotes.lookup k with
    | none => rw [hk] at hv; exact absurd hv List.not_mem_nil
    | some votes =>
      rw [hk] at hv
      exact ⟨⟨k, votes, hk, hv⟩, h.own_bucket k votes hk v hv⟩
  · rintro ⟨⟨k', votes, hk, hv⟩, htarget⟩
    -- the bucket a vote is found in is the one of its own target
    obtain rfl : k' = k := (h.own_bucket k' votes hk v hv).symm.trans htarget
    rwa [hk]

/-- A vote that is held stands in the bucket of an entry of the heap. -/
theorem Consistent.exists_entry (h : Consistent envelopeHash pool) {v : VoteEnvelope}
    (hv : v ∈ pool.allVotes) : ∃ d ∈ pool.curVotesPq, d.targetHash = v.data.targetHash := by
  obtain ⟨k, votes, hk, hmem⟩ := Map.mem_flat.mp hv
  have hkey : k ∈ pool.curVotes.keys := AList.lookup_isSome.mp (by rw [hk]; rfl)
  obtain ⟨d, hd, rfl⟩ := List.mem_map.mp (h.queue.mem_iff.mpr hkey)
  exact ⟨d, hd, (h.own_bucket _ votes hk v hmem).symm⟩

theorem Consistent.nodup_fetch (h : Consistent envelopeHash pool) (k : B256) :
    ((pool.fetchVoteByBlockHash k).map envelopeHash).Nodup := by
  have hperm : pool.allVotes.Perm
      (pool.fetchVoteByBlockHash k ++ Map.flat (pool.curVotes.erase k)) := Map.flat_perm
  have hnodup := (hperm.map envelopeHash).nodup_iff.mp h.nodup_hashes
  rw [List.map_append] at hnodup
  exact hnodup.of_append_left

variable {vote : VoteEnvelope}

/-! ## Inserting -/

theorem insert_of_received (h : envelopeHash vote ∈ pool.receivedVotes) :
    pool.insert envelopeHash vote = pool := if_pos h

/-- A vote of a new hash joins the votes held. -/
theorem allVotes_insert (h : envelopeHash vote ∉ pool.receivedVotes) :
    (pool.insert envelopeHash vote).allVotes.Perm (vote :: pool.allVotes) := by
  have hperm : pool.allVotes.Perm (pool.fetchVoteByBlockHash vote.data.targetHash
      ++ Map.flat (pool.curVotes.erase vote.data.targetHash)) := Map.flat_perm
  have hnew : (pool.insert envelopeHash vote).allVotes
      = pool.fetchVoteByBlockHash vote.data.targetHash ++ [vote]
        ++ Map.flat (pool.curVotes.erase vote.data.targetHash) := by
    rw [VotePool.insert, allVotes, if_neg h]
    exact Map.flat_insert _
  grind

/-- The heap has one more entry exactly if the bucket is new. -/
theorem queue_insert (h : Consistent envelopeHash pool)
    (hnew : envelopeHash vote ∉ pool.receivedVotes) :
    ((pool.insert envelopeHash vote).curVotesPq.map VoteData.targetHash).Perm
      (pool.insert envelopeHash vote).curVotes.keys := by
  rw [VotePool.insert, if_neg hnew]
  dsimp only
  rw [AList.keys_insert]
  by_cases hbucket : (pool.curVotes.lookup vote.data.targetHash).isSome
  · have hkey : vote.data.targetHash ∈ pool.curVotes.keys := AList.lookup_isSome.mp hbucket
    rw [if_pos hbucket]
    exact h.queue.trans (List.perm_cons_erase hkey)
  · have hkey : vote.data.targetHash ∉ pool.curVotes.keys :=
      fun hmem => hbucket (AList.lookup_isSome.mpr hmem)
    rw [if_neg hbucket, List.map_cons, List.erase_of_not_mem hkey]
    exact h.queue.cons _

theorem Consistent.insert (h : Consistent envelopeHash pool) (vote : VoteEnvelope) :
    Consistent envelopeHash (pool.insert envelopeHash vote) := by
  by_cases hseen : envelopeHash vote ∈ pool.receivedVotes
  · rwa [insert_of_received hseen]
  have hperm := allVotes_insert hseen
  have hhashes := hperm.map envelopeHash
  have hmem : ∀ v, v ∈ pool.fetchVoteByBlockHash vote.data.targetHash ++ [vote] →
      v.data.targetHash = vote.data.targetHash := by
    intro v hv
    rcases List.mem_append.mp hv with hv | hv
    · exact ((h.mem_fetch _ v).mp hv).2
    · rw [List.mem_singleton.mp hv]
  have hvotes : (pool.insert envelopeHash vote).curVotes = pool.curVotes.insert
      vote.data.targetHash (pool.fetchVoteByBlockHash vote.data.targetHash ++ [vote]) := by
    rw [VotePool.insert, if_neg hseen]
  refine ⟨fun k => ?_, ?_, ?_, ?_, queue_insert h hseen, fun d hd => ?_⟩
  · rw [hhashes.mem_iff, List.map_cons, List.mem_cons, ← h.received]
    rw [VotePool.insert, if_neg hseen]
    exact List.mem_cons
  · rw [hhashes.nodup_iff, List.map_cons, List.nodup_cons, ← h.received]
    exact ⟨hseen, h.nodup_hashes⟩
  · rw [hvotes]
    exact h.nonempty.insert (by simp)
  · rw [hvotes]
    exact h.own_bucket.insert hmem
  · -- an entry is an old one, or the data of the new vote
    have hd' : d = vote.data ∨ d ∈ pool.curVotesPq := by grind [VotePool.insert]
    rcases hd' with rfl | hold
    · exact ⟨vote, hperm.mem_iff.mpr List.mem_cons_self, rfl⟩
    · obtain ⟨v, hv, hdata⟩ := h.queue_held d hold
      exact ⟨v, hperm.mem_iff.mpr (List.mem_cons_of_mem _ hv), hdata⟩

/-! ## Dropping a bucket -/

theorem mem_forget {received : List B256} {votes : List VoteEnvelope} {k : B256} :
    k ∈ forget envelopeHash received votes ↔ k ∈ received ∧ k ∉ votes.map envelopeHash := by
  induction votes generalizing received with
  | nil => simp [forget]
  | cons vote votes ih =>
    have hstep : forget envelopeHash received (vote :: votes)
        = forget envelopeHash (received.filter (· ≠ envelopeHash vote)) votes := rfl
    grind

/-- The bucket of an entry, as the steps of a pruning find it. -/
theorem Consistent.lookup_entry (h : Consistent envelopeHash pool) {data : VoteData}
    (hdata : data ∈ pool.curVotesPq) :
    ∃ voteBox, pool.curVotes.lookup data.targetHash = some voteBox := by
  have hkey : data.targetHash ∈ pool.curVotes.keys := h.queue.mem_iff.mp (List.mem_map_of_mem hdata)
  exact Option.isSome_iff_exists.mp (AList.lookup_isSome.mpr hkey)

section Drop

variable {data : VoteData} {rest : List VoteData}

@[simp] theorem curVotesPq_dropBucket :
    (pool.dropBucket envelopeHash data rest).curVotesPq = rest := by
  grind [dropBucket]

/-- Dropping a bucket drops the votes of its target, and no others. -/
theorem Consistent.mem_dropBucket (h : Consistent envelopeHash pool)
    (hpop : heap.pop pool.curVotesPq = some (data, rest)) {v : VoteEnvelope} :
    v ∈ (pool.dropBucket envelopeHash data rest).allVotes
      ↔ v ∈ pool.allVotes ∧ v.data.targetHash ≠ data.targetHash := by
  obtain ⟨voteBox, hbox⟩ := h.lookup_entry ((heap.mem_iff hpop).mpr (.inl rfl))
  unfold dropBucket allVotes
  rw [hbox]
  dsimp only
  rw [Map.mem_flat, Map.mem_flat]
  constructor
  · rintro ⟨k, votes, herased, hv⟩
    obtain ⟨hne, hk⟩ := Map.lookup_erase_eq_some.mp herased
    exact ⟨⟨k, votes, hk, hv⟩, (h.own_bucket k votes hk v hv).symm ▸ hne⟩
  · rintro ⟨⟨k, votes, hk, hv⟩, hne⟩
    have hown : v.data.targetHash = k := h.own_bucket k votes hk v hv
    exact ⟨k, votes, Map.lookup_erase_eq_some.mpr ⟨hown ▸ hne, hk⟩, hv⟩

theorem Consistent.dropBucket (h : Consistent envelopeHash pool)
    (hpop : heap.pop pool.curVotesPq = some (data, rest)) :
    Consistent envelopeHash (pool.dropBucket envelopeHash data rest) := by
  have hmemAll := fun v => h.mem_dropBucket hpop (v := v)
  have hpq := heap.perm_of_some hpop
  obtain ⟨voteBox, hbox⟩ := h.lookup_entry ((heap.mem_iff hpop).mpr (.inl rfl))
  have hpool : pool.dropBucket envelopeHash data rest
      = ⟨forget envelopeHash pool.receivedVotes voteBox, pool.curVotes.erase data.targetHash,
        rest⟩ := by
    rw [VotePool.dropBucket, hbox]
  have hperm : pool.allVotes.Perm (voteBox ++ Map.flat (pool.curVotes.erase data.targetHash)) := by
    have hflat := Map.flat_perm (m := pool.curVotes) (k := data.targetHash)
    rwa [hbox] at hflat
  have hhashes := hperm.map envelopeHash
  rw [List.map_append] at hhashes
  have hnodup := hhashes.nodup_iff.mp h.nodup_hashes
  have hqueue : (data.targetHash :: rest.map VoteData.targetHash).Perm pool.curVotes.keys :=
    (hpq.map VoteData.targetHash).symm.trans h.queue
  rw [hpool] at hmemAll ⊢
  refine ⟨fun k => ?_, hnodup.of_append_right, ?_, ?_, ?_, fun d hd => ?_⟩
  · -- no hash of the bucket is the hash of a vote that stays
    rw [mem_forget, h.received, hhashes.mem_iff, List.mem_append]
    have hdisjoint := List.disjoint_of_nodup_append hnodup
    exact ⟨fun hk => hk.1.resolve_left hk.2, fun hk => ⟨.inr hk, fun hbad => hdisjoint hbad hk⟩⟩
  · exact h.nonempty.erase _
  · exact h.own_bucket.erase _
  · show (rest.map VoteData.targetHash).Perm (pool.curVotes.erase data.targetHash).keys
    rw [AList.keys_erase]
    grind
  · obtain ⟨v, hv, rfl⟩ := h.queue_held d ((heap.mem_iff hpop).mpr (.inr hd))
    -- the heap has one entry for each target, so the other entries keep their buckets
    have hfresh : data.targetHash ∉ rest.map VoteData.targetHash :=
      (List.nodup_cons.mp (hqueue.nodup_iff.mpr pool.curVotes.keys_nodup)).1
    grind

end Drop

/-! ## Runs -/

/-- What dropping the bucket of the popped entry keeps, the loop keeps. -/
theorem pruneLoop_induction {P : VotePool → Prop} (latest : UInt64) (fuel : Nat)
    (hstep : ∀ pool data rest, P pool → heap.pop pool.curVotesPq = some (data, rest) →
      P (pool.dropBucket envelopeHash data rest)) (h : P pool) :
    P (pool.pruneLoop heap envelopeHash latest fuel) := by
  induction fuel generalizing pool with
  | zero => exact h
  | succ fuel ih =>
    rw [VotePool.pruneLoop]
    grind

theorem Consistent.prune (h : Consistent envelopeHash pool) (latest : UInt64) :
    Consistent envelopeHash (pool.prune heap envelopeHash latest) :=
  pruneLoop_induction latest _ (fun _ _ _ hpool hpop => hpool.dropBucket hpop) h

theorem Consistent.apply (h : Consistent envelopeHash pool) (op : Op) :
    Consistent envelopeHash (pool.apply heap envelopeHash op) := by
  cases op with
  | insert vote => exact h.insert vote
  | prune latest => exact h.prune latest
  | drain => exact consistent_new

theorem run_append (ops : List Op) (op : Op) :
    run heap envelopeHash (ops ++ [op]) = (run heap envelopeHash ops).apply heap envelopeHash op :=
  List.foldl_concat ..

theorem Consistent.run (ops : List Op) : Consistent envelopeHash (run heap envelopeHash ops) := by
  induction ops using List.reverseRecOn with
  | nil => exact consistent_new
  | append_singleton ops op ih =>
    rw [run_append]
    exact ih.apply op

/-- Pruning adds no vote. -/
theorem Consistent.subset_prune (h : Consistent envelopeHash pool) (latest : UInt64) :
    (pool.prune heap envelopeHash latest).allVotes ⊆ pool.allVotes := by
  have hloop : Consistent envelopeHash (pool.prune heap envelopeHash latest)
      ∧ (pool.prune heap envelopeHash latest).allVotes ⊆ pool.allVotes := by
    refine pruneLoop_induction (P := fun q => Consistent envelopeHash q
      ∧ q.allVotes ⊆ pool.allVotes) latest _ ?_ ⟨h, List.Subset.refl _⟩
    rintro q data rest ⟨hq, hsub⟩ hpop
    exact ⟨hq.dropBucket hpop, fun v hv => hsub ((hq.mem_dropBucket hpop).mp hv).1⟩
  exact hloop.2

/-- A vote that pruning removed has a hash of its own among the votes that stay. -/
theorem Consistent.mem_insert_of_pruned (h : Consistent envelopeHash pool) {latest : UInt64}
    (hheld : vote ∈ pool.allVotes)
    (hpruned : vote ∉ (pool.prune heap envelopeHash latest).allVotes) :
    vote ∈ ((pool.prune heap envelopeHash latest).insert envelopeHash vote).allVotes := by
  have hafter : Consistent envelopeHash (pool.prune heap envelopeHash latest) := h.prune latest
  have hnew : envelopeHash vote ∉ (pool.prune heap envelopeHash latest).receivedVotes := by
    intro hseen
    obtain ⟨w, hw, heq⟩ := List.mem_map.mp ((hafter.received _).mp hseen)
    have hwheld := h.subset_prune latest hw
    exact hpruned (List.inj_on_of_nodup_map h.nodup_hashes hwheld hheld heq ▸ hw)
  exact (allVotes_insert hnew).mem_iff.mpr List.mem_cons_self

/-- **The three indexes stay together.**  After every sequence of operations they describe the same
votes; so a bucket has no vote twice, and a vote that was pruned can come back. -/
theorem indexes_consistent (heap : VotesPriorityQueue) (envelopeHash : VoteEnvelope → B256)
    (ops : List Op) :
    Consistent envelopeHash (run heap envelopeHash ops)
      ∧ (∀ k, (((run heap envelopeHash ops).fetchVoteByBlockHash k).map envelopeHash).Nodup)
      ∧ ∀ latest, ∀ v ∈ (run heap envelopeHash ops).allVotes,
        v ∉ ((run heap envelopeHash ops).prune heap envelopeHash latest).allVotes →
        v ∈ (((run heap envelopeHash ops).prune heap envelopeHash latest).insert envelopeHash
          v).allVotes := by
  have h : Consistent envelopeHash (run heap envelopeHash ops) := Consistent.run ops
  exact ⟨h, h.nodup_fetch, fun latest v hv hpruned => h.mem_insert_of_pruned hv hpruned⟩

/-! ## Exactness -/

/-- Pruning keeps the votes of the last 256 heights, and drops the others. -/
def Exact (pool pruned : VotePool) (latest : UInt64) : Prop :=
  ∀ v, v ∈ pruned.allVotes
    ↔ v ∈ pool.allVotes ∧ latest.toNat ≤ v.data.targetNumber.toNat + 255

/-- Every vote has the target number of its bucket's entry, and adding 255 to it does not wrap. -/
structure Uniform (pool : VotePool) : Prop where
  number : ∀ d ∈ pool.curVotesPq, ∀ v ∈ pool.allVotes, v.data.targetHash = d.targetHash →
    v.data.targetNumber = d.targetNumber
  in_range : ∀ v ∈ pool.allVotes, v.data.targetNumber.toNat + 255 < 2 ^ 64

theorem add_limit_sub_one (number : UInt64) :
    number + lowerLimitOfVoteBlockNumber - 1 = number + 255 := by
  rw [lowerLimitOfVoteBlockNumber, UInt64.sub_eq_add_neg, UInt64.add_assoc]
  rfl

/-- The test of the loop, without wrapping. -/
theorem pruned_iff {number latest : UInt64} (h : number.toNat + 255 < 2 ^ 64) :
    number + lowerLimitOfVoteBlockNumber - 1 < latest ↔ number.toNat + 255 < latest.toNat := by
  have hmod : (number + 255).toNat = number.toNat + 255 := by simp_all
  rw [add_limit_sub_one, UInt64.lt_iff_toNat_lt, hmod]

theorem Uniform.dropBucket (hu : Uniform pool) (h : Consistent envelopeHash pool) {data : VoteData}
    {rest : List VoteData} (hpop : heap.pop pool.curVotesPq = some (data, rest)) :
    Uniform (pool.dropBucket envelopeHash data rest) := by
  refine ⟨fun d hd v hv => ?_, fun v hv => hu.in_range v ((h.mem_dropBucket hpop).mp hv).1⟩
  rw [curVotesPq_dropBucket] at hd
  exact hu.number d ((heap.mem_iff hpop).mpr (.inr hd)) v ((h.mem_dropBucket hpop).mp hv).1

/-- The loop turns as long as the least entry is too old.  When it stops no entry is, and with the
entries their buckets. -/
theorem Uniform.exact_pruneLoop (hu : Uniform pool) (h : Consistent envelopeHash pool)
    (latest : UInt64) {fuel : Nat} (hfuel : pool.curVotesPq.length ≤ fuel) :
    Exact pool (pool.pruneLoop heap envelopeHash latest fuel) latest := by
  induction fuel generalizing pool with
  | zero =>
    intro v
    have hnil := List.length_eq_zero_iff.mp (Nat.le_zero.mp hfuel)
    refine ⟨fun hv => ?_, And.left⟩
    obtain ⟨d, hd, -⟩ := h.exists_entry hv
    exact absurd hd (by rw [hnil]; exact List.not_mem_nil)
  | succ fuel ih =>
    rw [VotePool.pruneLoop]
    cases hpop : heap.pop pool.curVotesPq with
    | none =>
      intro v
      refine ⟨fun hv => ?_, And.left⟩
      obtain ⟨d, hd, -⟩ := h.exists_entry hv
      exact absurd hd (by rw [heap.eq_nil_of_none hpop]; exact List.not_mem_nil)
    | some p =>
      obtain ⟨data, rest⟩ := p
      have hdata : data ∈ pool.curVotesPq := (heap.mem_iff hpop).mpr (.inl rfl)
      obtain ⟨u, hu', rfl⟩ := h.queue_held data hdata
      have hrange := hu.in_range u hu'
      dsimp only
      split
      · next hold =>
        intro v
        have hlen := heap.length_eq hpop
        have hrec := ih (hu.dropBucket h hpop) (h.dropBucket hpop)
          (by rw [curVotesPq_dropBucket]; omega) v
        rw [hrec, h.mem_dropBucket hpop, and_right_comm, and_iff_left_iff_imp]
        -- a vote of the dropped bucket is as old as the entry
        rintro ⟨hv, hkeep⟩ htarget
        have hnumber := hu.number u.data hdata v hv htarget
        have hlt := (pruned_iff hrange).mp hold
        rw [hnumber] at hkeep
        omega
      · next hnew =>
        intro v
        refine ⟨fun hv => ⟨hv, ?_⟩, And.left⟩
        obtain ⟨d, hd, htarget⟩ := h.exists_entry hv
        have hnumber := hu.number d hd v hv htarget.symm
        have hleast := heap.least_of_some hpop d hd
        have hge := mt (pruned_iff hrange).mpr hnew
        rw [hnumber]
        omega

/-- What peers may send: a number that leaves room for 255 more, and for each target block one
number in all votes for it. -/
structure Numbered (envelopeHash : VoteEnvelope → B256) (sent : VoteEnvelope → Prop) : Prop where
  in_range : ∀ v, sent v → v.data.targetNumber.toNat + 255 < 2 ^ 64
  by_target : ∀ v w, sent v → sent w → envelopeHash v ≠ envelopeHash w →
    v.data.targetHash = w.data.targetHash → v.data.targetNumber = w.data.targetNumber

section Sent

variable {sent : VoteEnvelope → Prop}

theorem Uniform.insert (hu : Uniform pool) (h : Consistent envelopeHash pool)
    (hsent : Numbered envelopeHash sent) (hheld : ∀ v ∈ pool.allVotes, sent v)
    {vote : VoteEnvelope} (hvote : sent vote) : Uniform (pool.insert envelopeHash vote) := by
  by_cases hseen : envelopeHash vote ∈ pool.receivedVotes
  · rwa [insert_of_received hseen]
  have hmem : ∀ v, v ∈ (pool.insert envelopeHash vote).allVotes ↔ v = vote ∨ v ∈ pool.allVotes :=
    fun v => (allVotes_insert hseen).mem_iff.trans List.mem_cons
  -- two votes of one target have one number, if they are two votes
  have hpair : ∀ v ∈ pool.allVotes, v.data.targetHash = vote.data.targetHash →
      v.data.targetNumber = vote.data.targetNumber := by
    intro v hv htarget
    refine hsent.by_target v vote (hheld v hv) hvote (fun heq => hseen ?_) htarget
    exact (h.received _).mpr (heq ▸ List.mem_map_of_mem hv)
  have hafter := h.insert vote
  refine ⟨fun d hd v hv htarget => ?_, fun v hv => ?_⟩
  · obtain ⟨u, hu', rfl⟩ := hafter.queue_held d hd
    rcases (hmem v).mp hv with rfl | hvold <;> rcases (hmem u).mp hu' with rfl | huold
    · rfl
    · exact (hpair u huold htarget.symm).symm
    · exact hpair v hvold htarget
    · by_cases hsame : envelopeHash v = envelopeHash u
      · rw [List.inj_on_of_nodup_map h.nodup_hashes hvold huold hsame]
      · exact hsent.by_target v u (hheld v hvold) (hheld u huold) hsame htarget
  · rcases (hmem v).mp hv with rfl | hv
    · exact hsent.in_range v hvote
    · exact hu.in_range v hv

theorem Uniform.prune (hu : Uniform pool) (h : Consistent envelopeHash pool) (latest : UInt64) :
    Uniform (pool.prune heap envelopeHash latest) := by
  have hloop : Consistent envelopeHash (pool.prune heap envelopeHash latest)
      ∧ Uniform (pool.prune heap envelopeHash latest) := by
    refine pruneLoop_induction (P := fun q => Consistent envelopeHash q ∧ Uniform q) latest _ ?_
      ⟨h, hu⟩
    rintro q data rest ⟨hq, huq⟩ hpop
    exact ⟨hq.dropBucket hpop, huq.dropBucket hq hpop⟩
  exact hloop.2

/-- A pool that was only sent such votes holds only such votes, in uniform buckets. -/
theorem uniform_run (hsent : Numbered envelopeHash sent) {ops : List Op}
    (hops : ∀ v, Op.insert v ∈ ops → sent v) :
    (∀ v ∈ (run heap envelopeHash ops).allVotes, sent v)
      ∧ Uniform (run heap envelopeHash ops) := by
  induction ops using List.reverseRecOn with
  | nil => exact ⟨fun v hv => absurd hv List.not_mem_nil,
      fun d hd => absurd hd List.not_mem_nil, fun v hv => absurd hv List.not_mem_nil⟩
  | append_singleton ops op ih =>
    obtain ⟨hheld, hu⟩ := ih fun v hv => hops v (List.mem_append_left _ hv)
    have h : Consistent envelopeHash (run heap envelopeHash ops) := Consistent.run ops
    rw [run_append]
    cases op with
    | insert vote =>
      have hvote := hops vote (by simp)
      refine ⟨fun v hv => ?_, hu.insert h hsent hheld hvote⟩
      -- a vote that was received before adds nothing
      by_cases hseen : envelopeHash vote ∈ (run heap envelopeHash ops).receivedVotes
      · rw [VotePool.apply, insert_of_received hseen] at hv
        exact hheld v hv
      · rcases List.mem_cons.mp ((allVotes_insert hseen).mem_iff.mp hv) with rfl | hv
        · exact hvote
        · exact hheld v hv
    | prune latest => exact ⟨fun v hv => hheld v (h.subset_prune latest hv), hu.prune h latest⟩
    | drain => exact ⟨fun v hv => absurd hv List.not_mem_nil,
        fun d hd => absurd hd List.not_mem_nil, fun v hv => absurd hv List.not_mem_nil⟩

/-! ## Where pruning is not exact -/

/-- Pruning a pool of one bucket whose entry is too old leaves nothing. -/
theorem notMem_prune_of_single (h : Consistent envelopeHash pool) {d : VoteData} {latest : UInt64}
    (hpq : pool.curVotesPq = [d]) (hold : d.targetNumber + lowerLimitOfVoteBlockNumber - 1 < latest)
    (v : VoteEnvelope) : v ∉ (pool.prune heap envelopeHash latest).allVotes := by
  have hpop : heap.pop pool.curVotesPq = some (d, []) := by rw [hpq, heap.pop_singleton]
  have hprune : pool.prune heap envelopeHash latest = pool.dropBucket envelopeHash d [] := by
    rw [VotePool.prune, hpq, List.length_singleton, pruneLoop, hpop]
    exact if_pos hold
  rw [hprune, h.mem_dropBucket hpop]
  rintro ⟨hv, hne⟩
  obtain ⟨d', hd', htarget⟩ := h.exists_entry hv
  simp_all

/-- The first vote of a target is its entry, and a second one changes nothing in the heap. -/
theorem curVotesPq_insert_new (v : VoteEnvelope) :
    (new.insert envelopeHash v).curVotesPq = [v.data] := rfl

variable {v : VoteEnvelope}

theorem curVotesPq_insert_pair {w : VoteEnvelope} (hhash : envelopeHash v ≠ envelopeHash w)
    (htarget : v.data.targetHash = w.data.targetHash) :
    ((new.insert envelopeHash v).insert envelopeHash w).curVotesPq = [v.data] := by
  have hseen : envelopeHash w ∉ (new.insert envelopeHash v).receivedVotes := by
    show envelopeHash w ∉ [envelopeHash v]
    rw [List.mem_singleton]
    exact Ne.symm hhash
  have hbucket : ((new.insert envelopeHash v).curVotes.lookup w.data.targetHash).isSome := by
    show (((∅ : Map B256 (List VoteEnvelope)).insert v.data.targetHash _).lookup
      w.data.targetHash).isSome
    rw [← htarget, AList.lookup_insert]
    rfl
  rw [VotePool.insert, if_neg hseen]
  dsimp only
  rw [if_pos hbucket, curVotesPq_insert_new]

/-- A younger vote is lost with the older one that opened its bucket. -/
theorem not_exact_of_lt (heap : VotesPriorityQueue) {w : VoteEnvelope}
    (hhash : envelopeHash v ≠ envelopeHash w) (htarget : v.data.targetHash = w.data.targetHash)
    (hlt : v.data.targetNumber.toNat < w.data.targetNumber.toNat)
    (hrange : w.data.targetNumber.toNat + 255 < 2 ^ 64) :
    ∃ latest, ¬ Exact (run heap envelopeHash [.insert v, .insert w])
      ((run heap envelopeHash [.insert v, .insert w]).prune heap envelopeHash latest) latest := by
  have hlatest : (UInt64.ofNat (v.data.targetNumber.toNat + 256)).toNat
      = v.data.targetNumber.toNat + 256 := by
    rw [UInt64.toNat_ofNat']
    exact Nat.mod_eq_of_lt (by omega)
  -- at this block `v` is just too old, and `w` is not
  refine ⟨UInt64.ofNat (v.data.targetNumber.toNat + 256), fun hexact => ?_⟩
  have h : Consistent envelopeHash (run heap envelopeHash [.insert v, .insert w]) :=
    Consistent.run _
  have hseen : envelopeHash w ∉ (new.insert envelopeHash v).receivedVotes := by
    show envelopeHash w ∉ [envelopeHash v]
    rw [List.mem_singleton]
    exact Ne.symm hhash
  have hw : w ∈ (run heap envelopeHash [.insert v, .insert w]).allVotes :=
    (allVotes_insert hseen).mem_iff.mpr List.mem_cons_self
  refine notMem_prune_of_single h (curVotesPq_insert_pair hhash htarget) ?_ w
    ((hexact w).mpr ⟨hw, by omega⟩)
  exact (pruned_iff (by omega)).mpr (by omega)

/-- A vote for one of the last 255 numbers is lost at once. -/
theorem not_exact_of_wrap (heap : VotesPriorityQueue) (envelopeHash : VoteEnvelope → B256)
    (hwrap : 2 ^ 64 ≤ v.data.targetNumber.toNat + 255) :
    ∃ latest, ¬ Exact (run heap envelopeHash [.insert v])
      ((run heap envelopeHash [.insert v]).prune heap envelopeHash latest) latest := by
  refine ⟨UInt64.ofNat (2 ^ 64 - 1), fun hexact => ?_⟩
  have h : Consistent envelopeHash (run heap envelopeHash [.insert v]) := Consistent.run _
  have hv : v ∈ (run heap envelopeHash [.insert v]).allVotes := by
    have hnew : envelopeHash v ∉ new.receivedVotes := List.not_mem_nil
    exact (allVotes_insert hnew).mem_iff.mpr List.mem_cons_self
  have hlatest : (UInt64.ofNat (2 ^ 64 - 1)).toNat = 2 ^ 64 - 1 := rfl
  refine notMem_prune_of_single h (curVotesPq_insert_new v) ?_ v ((hexact v).mpr ⟨hv, by omega⟩)
  -- the sum wraps to one of the first 255 numbers
  rw [add_limit_sub_one, UInt64.lt_iff_toNat_lt, hlatest, UInt64.toNat_add,
    show (255 : UInt64).toNat = 255 from rfl]
  have hsize := v.data.targetNumber.toNat_lt
  omega

end Sent

/-- **Which votes pruning serves.**  Whatever is inserted, pruned and drained, pruning is exact for
all runs over a set of votes, exactly if the votes of the set are numbered by their target blocks
and stay clear of the end of the range. -/
theorem prune_exact_iff (heap : VotesPriorityQueue) (envelopeHash : VoteEnvelope → B256)
    (sent : VoteEnvelope → Prop) :
    (∀ ops, (∀ v, Op.insert v ∈ ops → sent v) → ∀ latest, Exact (run heap envelopeHash ops)
        ((run heap envelopeHash ops).prune heap envelopeHash latest) latest)
      ↔ Numbered envelopeHash sent := by
  constructor
  · -- one vote refutes a set that reaches the end of the range, two a set with a doubtful number
    intro hexact
    have hrange : ∀ v, sent v → v.data.targetNumber.toNat + 255 < 2 ^ 64 := by
      intro v hv
      by_contra hwrap
      obtain ⟨latest, hbad⟩ := not_exact_of_wrap heap envelopeHash (Nat.le_of_not_lt hwrap)
      exact hbad (hexact _ (by simpa using hv) latest)
    refine ⟨hrange, fun v w hv hw hhash htarget => ?_⟩
    by_contra hne
    have hne' : v.data.targetNumber.toNat ≠ w.data.targetNumber.toNat :=
      fun heq => hne (UInt64.toNat.inj heq)
    rcases Nat.lt_or_gt_of_ne hne' with hlt | hgt
    · obtain ⟨latest, hbad⟩ := not_exact_of_lt heap hhash htarget hlt (hrange w hw)
      exact hbad (hexact _ (by simp [hv, hw]) latest)
    · obtain ⟨latest, hbad⟩ := not_exact_of_lt heap (Ne.symm hhash) htarget.symm hgt (hrange v hv)
      exact hbad (hexact _ (by simp [hv, hw]) latest)
  · intro hsent ops hops latest
    exact (uniform_run hsent hops).2.exact_pruneLoop (Consistent.run ops) latest (Nat.le_refl _)

/-- Votes for one target block under different numbers, as any peer can send them. -/
def numberedVote (number : UInt64) : VoteEnvelope :=
  ⟨.zero, .zero, 0, .zero, number, .repeatByte 32 7⟩

/-- Both votes are in the pool; pruning at height 300 takes the one for height 1000 along with the
one for height 10, and pruning at height 300 takes a vote for the last number of all. -/
theorem prune_loses_young_votes :
    let hash : VoteEnvelope → B256 := fun v => .repeatByte 32 v.data.targetNumber.toUInt8
    let heap := PopMin.first VoteData fun data => data.targetNumber.toNat
    let two := run heap hash [.insert (numberedVote 10), .insert (numberedVote 1000)]
    let one := run heap hash [.insert (numberedVote 0xffffffffffffffff)]
    two.allVotes = [numberedVote 10, numberedVote 1000]
      ∧ (two.prune heap hash 300).allVotes = []
      ∧ one.allVotes = [numberedVote 0xffffffffffffffff]
      ∧ (one.prune heap hash 300).allVotes = [] := by
  decide

end VotePool

end RethBsc
