import RethBsc.Rust.Map
import RethBsc.Parlia.Vote

/-!
# The vote pool

`src/consensus/parlia/vote_pool.rs` and `handle_votes_broadcast` of `src/node/network/votes.rs`.
Votes wait in the pool under the hash of their target block.  The pool drops a vote whose hash it
has seen, and checks nothing else: neither the voter nor the signature nor the vote data.

* `Holds`: a pool holds the votes of a list, each once, in the bucket of its target block.
  `Holds.putVotes` says that filling a pool gives that, if the votes' hashes do not collide.
* `Holds.length_fetch_le`: more votes, put in before or after, never make a bucket smaller.
-/

namespace RethBsc

open Rust

structure VotePool where
  receivedVotes : List B256
  curVotes : Map B256 (List VoteEnvelope)
  /-- The heap of pruning candidates, in any order. -/
  curVotesPq : List VoteData

namespace VotePool

def new : VotePool := ⟨[], ∅, []⟩

def fetchVoteByBlockHash (pool : VotePool) (blockHash : B256) : List VoteEnvelope :=
  (pool.curVotes.lookup blockHash).getD []

variable (envelopeHash : VoteEnvelope → B256)

/-- `put_vote`. -/
def insert (pool : VotePool) (vote : VoteEnvelope) : VotePool :=
  if envelopeHash vote ∈ pool.receivedVotes then pool
  else
    let blockHash := vote.data.targetHash
    { receivedVotes := envelopeHash vote :: pool.receivedVotes
      curVotesPq :=
        if (pool.curVotes.lookup blockHash).isSome then pool.curVotesPq
        else vote.data :: pool.curVotesPq
      curVotes := pool.curVotes.insert blockHash (pool.fetchVoteByBlockHash blockHash ++ [vote]) }

/-- Only the first vote of a packet is put into the pool. -/
def handleVotesBroadcast (pool : VotePool) (packet : List VoteEnvelope) : VotePool :=
  match packet with
  | [] => pool
  | first :: _ => pool.insert envelopeHash first

def putVotes (pool : VotePool) (votes : List VoteEnvelope) : VotePool :=
  votes.foldl (insert envelopeHash) pool

def handlePackets (pool : VotePool) (packets : List (List VoteEnvelope)) : VotePool :=
  packets.foldl (handleVotesBroadcast envelopeHash) pool

/-! ## The content of a bucket -/

variable {envelopeHash} {pool : VotePool} {vote : VoteEnvelope} {votes : List VoteEnvelope}

/-- Packets put in their first votes. -/
theorem handlePackets_eq (packets : List (List VoteEnvelope)) :
    handlePackets envelopeHash pool packets
      = putVotes envelopeHash pool (packets.filterMap List.head?) := by
  induction packets generalizing pool with
  | nil => rfl
  | cons packet packets ih =>
    have hstep : handlePackets envelopeHash pool (packet :: packets)
        = handlePackets envelopeHash (handleVotesBroadcast envelopeHash pool packet) packets := rfl
    rw [hstep, ih]
    cases packet with
    | nil => rfl
    | cons first rest => rfl

theorem fetch_insert (h : B256) :
    (pool.insert envelopeHash vote).fetchVoteByBlockHash h
      = if envelopeHash vote ∉ pool.receivedVotes ∧ h = vote.data.targetHash then
          pool.fetchVoteByBlockHash h ++ [vote]
        else pool.fetchVoteByBlockHash h := by
  unfold insert
  by_cases hseen : envelopeHash vote ∈ pool.receivedVotes
  · rw [if_pos hseen, if_neg (fun hc => hc.1 hseen)]
  · rw [if_neg hseen]
    by_cases hh : h = vote.data.targetHash
    · rw [if_pos ⟨hseen, hh⟩, hh]
      unfold fetchVoteByBlockHash
      dsimp only
      rw [AList.lookup_insert]
      rfl
    · rw [if_neg (fun hc => hh hc.2)]
      unfold fetchVoteByBlockHash
      dsimp only
      rw [AList.lookup_insert_ne hh]

/-- The pool holds exactly the votes of a list. -/
structure Holds (envelopeHash : VoteEnvelope → B256) (pool : VotePool)
    (votes : List VoteEnvelope) : Prop where
  received : ∀ h, h ∈ pool.receivedVotes ↔ h ∈ votes.map envelopeHash
  mem_fetch : ∀ h v, v ∈ pool.fetchVoteByBlockHash h ↔ v ∈ votes ∧ v.data.targetHash = h
  nodup_fetch : ∀ h, (pool.fetchVoteByBlockHash h).Nodup

theorem holds_new : Holds envelopeHash new [] :=
  ⟨fun _ => .rfl, fun _ _ => by simp [new, fetchVoteByBlockHash],
    fun _ => by simp [new, fetchVoteByBlockHash]⟩

/-- One insertion keeps the pool and the list of votes together. -/
theorem Holds.insert (h : Holds envelopeHash pool votes) (vote : VoteEnvelope)
    (hinj : ∀ v ∈ votes, envelopeHash v = envelopeHash vote → v = vote) :
    Holds envelopeHash (pool.insert envelopeHash vote) (votes ++ [vote]) := by
  have hseen : envelopeHash vote ∈ pool.receivedVotes ↔ vote ∈ votes := by
    rw [h.received, List.mem_map]
    exact ⟨fun ⟨v, hv, heq⟩ => hinj v hv heq ▸ hv, fun hv => ⟨vote, hv, rfl⟩⟩
  refine ⟨fun k => ?_, fun k v => ?_, fun k => ?_⟩
  · rw [List.map_append, List.mem_append, ← h.received]
    unfold VotePool.insert
    grind
  · rw [fetch_insert, List.mem_append, List.mem_singleton]
    split
    · next hnew => rw [List.mem_append, List.mem_singleton, h.mem_fetch]; grind
    · next hold => rw [h.mem_fetch]; grind
  · rw [fetch_insert]
    split
    · next hnew =>
      refine List.nodup_append.mpr ⟨h.nodup_fetch k, by simp, ?_⟩
      intro v hv w hw heq
      rw [List.mem_singleton] at hw
      exact hnew.1 (hseen.mpr (hw ▸ heq ▸ ((h.mem_fetch k v).mp hv).1))
    · exact h.nodup_fetch k

/-- The hashes of the votes do not collide. -/
def NoCollision (envelopeHash : VoteEnvelope → B256) (votes : List VoteEnvelope) : Prop :=
  ∀ v ∈ votes, ∀ w ∈ votes, envelopeHash v = envelopeHash w → v = w

theorem NoCollision.subset {votes' : List VoteEnvelope} (h : NoCollision envelopeHash votes')
    (hsub : votes ⊆ votes') : NoCollision envelopeHash votes :=
  fun v hv w hw => h v (hsub hv) w (hsub hw)

theorem Holds.putVotes {more : List VoteEnvelope} (h : Holds envelopeHash pool votes)
    (hinj : NoCollision envelopeHash (votes ++ more)) :
    Holds envelopeHash (pool.putVotes envelopeHash more) (votes ++ more) := by
  induction more generalizing pool votes with
  | nil => simpa [VotePool.putVotes] using h
  | cons vote more ih =>
    rw [← List.singleton_append, ← List.append_assoc] at hinj ⊢
    refine ih (h.insert vote fun v hv => ?_) hinj
    exact hinj v (by simp [hv]) vote (by simp)

theorem Holds.length_fetch_le {pool' : VotePool} {votes' : List VoteEnvelope}
    (h : Holds envelopeHash pool votes) (h' : Holds envelopeHash pool' votes')
    (hsub : votes ⊆ votes') (k : B256) :
    (pool.fetchVoteByBlockHash k).length ≤ (pool'.fetchVoteByBlockHash k).length := by
  refine (List.subperm_of_subset (h.nodup_fetch k) fun v hv => ?_).length_le
  have hv := (h.mem_fetch k v).mp hv
  exact (h'.mem_fetch k v).mpr ⟨hsub hv.1, hv.2⟩

end VotePool

end RethBsc
