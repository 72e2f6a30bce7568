import RethBsc.Node.VoteJournal
import RethBsc.Parlia.Attestation
import RethBsc.Rust.LruMap

/-!
# The vote producer

`src/node/vote_producer.rs`: the node votes for each new head, unless one of many checks says that
it should not.  A vote is signed, journaled, put into the node's own pool and broadcast.

* `maybeProduceAndBroadcastForHead` is one call; `none` means that the call never returns, because
  a loop of the rule check does not end.
* `Step` is all that one call can do to the journal and to what was broadcast, and `step_of_produce`
  proves it.
* `run_distinct_heights`: if no journal operation fails, no two of the last 512 votes are for the
  same height.  The call goes on after a failure, and then the next vote can be for the same height
  (`journal_failure_double_vote`).
-/

namespace RethBsc

open Rust

def defaultWarmupBlocks : UInt64 := 40
def timeForBroadcastMs : UInt64 := 50

/-! ## Surroundings -/

/-- The global BLS signer. -/
structure VoteSigner where
  publicKey : Option VoteAddress
  signHash : B256 → Option VoteSignature

def VoteSigner.signVote (signer : VoteSigner) (voteHash : VoteData → B256) (data : VoteData) :
    Option VoteEnvelope := do
  let voteAddress ← signer.publicKey
  let signature ← signer.signHash (voteHash data)
  return ⟨voteAddress, signature, data⟩

/-- What the producer reads when it is called. -/
structure ProducerEnv where
  miningEnabled : Bool
  /-- `START_VOTE`: the downloader is not active. -/
  startVote : Bool
  signer : Option VoteSigner
  /-- The number in `BSC_VOTE_WARMUP_BLOCKS`, if it is one. -/
  warmupVar : Option UInt64
  lookups : Lookups
  nowMs : UInt64
  io : VoteJournal.JournalIo

def warmupBlocks (env : ProducerEnv) : UInt64 :=
  (env.warmupVar.filter fun v => 0 < v).getD defaultWarmupBlocks

/-- The state of the producer; `broadcast` is what it has broadcast so far, the latest first. -/
structure VoteProducer where
  blocksSinceMining : UInt64
  producedTargets : LruMap B256 Unit
  voteAddrIndex : LruMap B256 (List VoteAddress)
  journal : VoteJournal
  pool : VotePool
  broadcast : List VoteEnvelope

/-! ## One call -/

/-- The last justified block as the source of the next vote: the genesis block as long as no
attestation has been recorded. -/
def voteSource (c : Crypto) (lookups : Lookups) (snap : Snapshot) : Option (UInt64 × B256) :=
  if snap.voteData.targetHash = .zero then
    (lookups.headerByNumber 0).map fun genesis => (genesis.number, c.hashSlow genesis)
  else some (snap.voteData.targetNumber, snap.voteData.targetHash)

/-- The time is too short to broadcast a vote before the next block is assembled. -/
def tooLateToVote (spec : ChainSpec) (nowMs : UInt64) (snap : Snapshot) (head : Header) : Bool :=
  let count :=
    if spec.isFermiActiveAtTimestamp head.number head.timestamp then
      UInt64.ofNat kAncestorGenerationDepth
    else 1
  let voteAssembleMs :=
    saturatingAdd (calculateMillisecondTimestamp head) (snap.blockInterval * count)
  saturatingAdd nowMs timeForBroadcastMs > voteAssembleMs

namespace VoteProducer

variable (c : Crypto) (spec : ChainSpec) (fuel : Nat) (env : ProducerEnv)

/-- The vote addresses of the snapshot's validators, from the index or put into it. -/
def voteAddrs (st : VoteProducer) (snap : Snapshot) : List VoteAddress × VoteProducer :=
  match st.voteAddrIndex.get snap.blockHash with
  | (some set, index) => (set, { st with voteAddrIndex := index })
  | (none, index) =>
    let set := (snap.validatorsMap.entries.map fun e => e.2.voteAddr).filter
      fun addr => addr ≠ .zero
    (set, { st with voteAddrIndex := index.insert snap.blockHash set })

/-- Signs, journals and broadcasts.  A failure of the journal is logged and nothing else. -/
def publish (signer : VoteSigner) (data : VoteData) (st : VoteProducer) : VoteProducer :=
  match signer.signVote c.voteHash data with
  | none => st
  | some envelope =>
    { st with
      journal := (st.journal.writeVote env.io envelope).toOption.getD st.journal
      pool := st.pool.insert c.envelopeHash envelope
      broadcast := envelope :: st.broadcast }

/-- The part of a call after the warm-up. -/
def vote (signer : VoteSigner) (head : Header) (st : VoteProducer) : Option VoteProducer :=
  let targetHash := c.hashSlow head
  match env.lookups.snapshotByHash targetHash, signer.publicKey with
  | some snap, some myVoteAddr =>
    let (set, st) := st.voteAddrs snap
    if myVoteAddr ∉ set then some st
    else if tooLateToVote spec env.nowMs snap head then some st
    else
      match voteSource c env.lookups snap with
      | none => some st
      | some (sourceNumber, sourceHash) => do
        let allowed ← st.journal.underRules fuel sourceNumber head.number
        if allowed then
          return st.publish c env signer ⟨sourceNumber, sourceHash, head.number, targetHash⟩
        else return st
  | _, _ => some st

def maybeProduceAndBroadcastForHead (head : Header) (st : VoteProducer) : Option VoteProducer :=
  if !env.miningEnabled then some { st with blocksSinceMining := 0 }
  else if !env.startVote then some st
  else if !spec.isLubanActiveAtBlock head.number then some st
  else
    match env.signer with
    | none => some st
    | some signer =>
      match st.producedTargets.get (c.hashSlow head) with
      | (some _, producedTargets) => some { st with producedTargets }
      | (none, producedTargets) =>
        let st := { st with producedTargets := producedTargets.insert (c.hashSlow head) () }
        let threshold := warmupBlocks env
        let cnt := st.blocksSinceMining + 1
        if cnt ≤ threshold then some { st with blocksSinceMining := cnt }
        else vote c spec fuel env signer head { st with blocksSinceMining := threshold }

/-! ## What a call can do -/

/-- Either nothing is broadcast and the journal is as before, or one vote for the height of the head
is broadcast, which the rules allowed, and the journal gets it if writing succeeds. -/
inductive Step (io : VoteJournal.JournalIo) (head : Header) (st st' : VoteProducer) : Prop
  | quiet (hjournal : st'.journal = st.journal) (hbroadcast : st'.broadcast = st.broadcast)
  | publish (fuel : Nat) (envelope : VoteEnvelope)
      (hallowed : st.journal.underRules fuel envelope.data.sourceNumber head.number = some true)
      (htarget : envelope.data.targetNumber = head.number)
      (hjournal : st'.journal = (st.journal.writeVote io envelope).toOption.getD st.journal)
      (hbroadcast : st'.broadcast = envelope :: st.broadcast)

variable {c spec fuel env} {head : Header} {signer : VoteSigner} {data : VoteData}
  {st st' : VoteProducer}

variable {io : VoteJournal.JournalIo}

theorem Step.of_eq {st₀ : VoteProducer} (h : Step io head st₀ st')
    (hjournal : st₀.journal = st.journal) (hbroadcast : st₀.broadcast = st.broadcast) :
    Step io head st st' := by
  cases h with
  | quiet hj hb => exact .quiet (hj.trans hjournal) (hb.trans hbroadcast)
  | publish fuel envelope hallowed htarget hj hb =>
    exact .publish fuel envelope (hjournal ▸ hallowed) htarget (by rw [hj, hjournal])
      (by rw [hb, hbroadcast])

theorem Step.of_some {st₁ : VoteProducer} (h : some st₁ = some st')
    (hjournal : st₁.journal = st.journal) (hbroadcast : st₁.broadcast = st.broadcast) :
    Step io head st st' := by
  cases h
  exact .quiet hjournal hbroadcast

theorem data_of_signVote {voteHash : VoteData → B256} {envelope : VoteEnvelope}
    (h : signer.signVote voteHash data = some envelope) : envelope.data = data := by
  grind [VoteSigner.signVote, bind, Option.bind_eq_some_iff]

theorem step_of_publish
    (hallowed : st.journal.underRules fuel data.sourceNumber head.number = some true)
    (htarget : data.targetNumber = head.number) :
    Step env.io head st (st.publish c env signer data) := by
  unfold publish
  cases hsign : signer.signVote c.voteHash data with
  | none => exact .quiet rfl rfl
  | some envelope =>
    have hdata := data_of_signVote hsign
    exact .publish fuel envelope (hdata ▸ hallowed) (hdata ▸ htarget) rfl rfl

theorem voteAddrs_journal (st : VoteProducer) (snap : Snapshot) :
    (st.voteAddrs snap).2.journal = st.journal ∧ (st.voteAddrs snap).2.broadcast = st.broadcast := by
  unfold voteAddrs
  split <;> exact ⟨rfl, rfl⟩

theorem step_of_vote (h : st.vote c spec fuel env signer head = some st') :
    Step env.io head st st' := by
  unfold vote at h
  dsimp only at h
  split at h
  · next snap myVoteAddr _ _ =>
    obtain ⟨hjournal, hbroadcast⟩ := voteAddrs_journal st snap
    refine Step.of_eq ?_ hjournal hbroadcast
    split at h
    · exact .of_some h rfl rfl
    · split at h
      · exact .of_some h rfl rfl
      · split at h
        · exact .of_some h rfl rfl
        · obtain ⟨allowed, hallowed, h⟩ := Option.bind_eq_some_iff.mp h
          cases allowed with
          | false => exact .of_some h rfl rfl
          | true =>
            cases h
            exact step_of_publish hallowed rfl
  · exact .of_some h rfl rfl

theorem step_of_produce (h : st.maybeProduceAndBroadcastForHead c spec fuel env head = some st') :
    Step env.io head st st' := by
  unfold maybeProduceAndBroadcastForHead at h
  dsimp only at h
  split at h
  · exact .of_some h rfl rfl
  · split at h
    · exact .of_some h rfl rfl
    · split at h
      · exact .of_some h rfl rfl
      · split at h
        · exact .of_some h rfl rfl
        · split at h
          · exact .of_some h rfl rfl
          · split at h
            · exact .of_some h rfl rfl
            · exact (step_of_vote h).of_eq rfl rfl

/-! ## Runs -/

/-- A producer that starts with the journal on disk. -/
def start (lines : Option (List (Option VoteEnvelope))) (pool : VotePool) : VoteProducer :=
  ⟨0, .new 2048, .new 1024, .new lines, pool, []⟩

/-- What a producer can come to when it is called with heads, all in surroundings that meet `P`.
Between the calls the rest of the node may change the pool. -/
inductive Run (c : Crypto) (spec : ChainSpec) (P : ProducerEnv → Prop) : VoteProducer → Prop
  | start (lines : Option (List (Option VoteEnvelope))) (pool : VotePool) :
      Run c spec P (start lines pool)
  | head {st st' : VoteProducer} (hrun : Run c spec P st) (fuel : Nat) (env : ProducerEnv)
      (henv : P env) (head : Header)
      (h : st.maybeProduceAndBroadcastForHead c spec fuel env head = some st') : Run c spec P st'
  | pool {st : VoteProducer} (hrun : Run c spec P st) (pool : VotePool) :
      Run c spec P { st with pool }

/-- The heights voted for, the latest first. -/
def heights (st : VoteProducer) : List UInt64 := st.broadcast.map fun v => v.data.targetNumber

/-- The journal remembers what was broadcast. -/
structure Journaled (st : VoteProducer) : Prop where
  wellFormed : st.journal.WellFormed
  remembers : st.journal.lru.Remembers st.heights

theorem Journaled.step (hio : io.Succeeds) (h : st.Journaled)
    (hstep : Step io head st st') : st'.Journaled := by
  cases hstep with
  | quiet hjournal hbroadcast =>
    exact ⟨hjournal ▸ h.wellFormed, by rw [heights, hjournal, hbroadcast]; exact h.remembers⟩
  | publish fuel envelope hallowed htarget hjournal hbroadcast =>
    rw [VoteJournal.writeVote_of_succeeds hio] at hjournal
    have hjournal : st'.journal = ⟨st.journal.lru.add envelope.data.targetNumber envelope.data⟩ :=
      hjournal
    have hfresh := htarget ▸ VoteJournal.notMem_of_underRules hallowed
    refine ⟨hjournal ▸ h.wellFormed.add envelope, ?_⟩
    rw [heights, hbroadcast, hjournal]
    exact h.remembers.add h.wellFormed.lru (by rw [h.wellFormed.capacity]; decide) hfresh

theorem Run.journaled (h : Run c spec (fun env => env.io.Succeeds) st) : st.Journaled := by
  induction h with
  | start lines pool => exact ⟨VoteJournal.wellFormed_new lines, VoteDataLru.remembers_nil⟩
  | head _ fuel env henv head hproduce ih => exact ih.step henv (step_of_produce hproduce)
  | pool _ pool ih => exact ⟨ih.wellFormed, ih.remembers⟩

/-- **One vote for each height.** In every run in which no journal operation fails, the last 512
votes broadcast are for different heights, and the rules refuse any further vote for one of
those. -/
theorem run_distinct_heights (c : Crypto) (spec : ChainSpec) (st : VoteProducer)
    (h : Run c spec (fun env => env.io.Succeeds) st) :
    ((st.broadcast.take 512).map fun v => v.data.targetNumber).Nodup ∧
      ∀ v ∈ st.broadcast.take 512, ∀ fuel sourceNumber,
        st.journal.underRules fuel sourceNumber v.data.targetNumber = some false := by
  obtain ⟨hwf, hremembers⟩ := h.journaled
  have hcap : st.journal.lru.capacity = 512 := hwf.capacity
  have hheights : st.heights.take st.journal.lru.capacity
      = (st.broadcast.take 512).map fun v => v.data.targetNumber := by
    rw [hcap, heights, List.map_take]
  refine ⟨hheights ▸ hremembers.nodup hwf.lru, fun v hv fuel sourceNumber => ?_⟩
  have hmem : v.data.targetNumber ∈ st.heights.take st.journal.lru.capacity :=
    hheights ▸ List.mem_map_of_mem hv
  exact VoteJournal.underRules_of_mem (hremembers.mem hwf.lru hmem) fuel sourceNumber

/-! ## Two heads of one height -/

/-- Hashes that tell the heads below apart. -/
def gasCrypto : Crypto where
  hashSlow h := b256OfUInt64 h.gasUsed
  voteHash data := data.targetHash
  envelopeHash vote := vote.data.targetHash
  encode _ := []
  decode _ := none
  PublicKey := VoteAddress
  Signature := VoteSignature
  publicKeyFromBytes := some
  signatureFromBytes := some
  aggregate := List.head?
  toBytes := id
  fastAggregateVerify _ _ _ := true

/-- The only validator is this node, and no attestation has been recorded. -/
def mySnapshot : Snapshot :=
  ⟨200, 10, b256OfUInt64 10, [loneValidator],
    (∅ : Map Address ValidatorInfo).insert loneValidator ⟨1, loneVoteAddress⟩, ∅, default, some 1,
    3000⟩

/-- A mining node that has waited for one block; `opens` says whether the journal can be opened. -/
def myEnv (opens : Bool) : ProducerEnv where
  miningEnabled := true
  startVote := true
  signer := some ⟨some loneVoteAddress, fun _ => some .zero⟩
  warmupVar := some 1
  lookups := ⟨fun _ => some mySnapshot, fun _ => none, fun _ => some default, fun _ => none⟩
  nowMs := 0
  io := ⟨false, opens, true, true, true, true⟩

def headOf (number gasUsed : UInt64) : Header := { (default : Header) with number, gasUsed }

/-- Two heads of height 11 and a journal that cannot be opened: the node votes for both. -/
theorem journal_failure_double_vote :
    ∃ st, Run gasCrypto lubanSpec (fun _ => True) st ∧
      st.broadcast.map (fun v => (v.data.targetNumber, v.data.targetHash))
        = [(11, b256OfUInt64 3), (11, b256OfUInt64 2)] :=
  ⟨_, .head (.head (.head (.start none .new) 20 (myEnv false) trivial (headOf 10 1) rfl)
    20 (myEnv false) trivial (headOf 11 2) rfl) 20 (myEnv false) trivial (headOf 11 3) rfl,
    by decide +kernel⟩

/-- With a journal that can be opened the second head gets no vote. -/
theorem journal_success_single_vote :
    ∃ st, Run gasCrypto lubanSpec (fun env => env.io.Succeeds) st ∧
      st.broadcast.map (fun v => (v.data.targetNumber, v.data.targetHash)) = [(11, b256OfUInt64 2)] ∧
      ((st.broadcast.take 512).map fun v => v.data.targetNumber).Nodup ∧
      ∀ v ∈ st.broadcast.take 512, ∀ fuel sourceNumber,
        st.journal.underRules fuel sourceNumber v.data.targetNumber = some false := by
  have hrun := Run.head (.head (.head (.start none .new : Run gasCrypto lubanSpec
      (fun env => env.io.Succeeds) _)
    20 (myEnv true) (by decide) (headOf 10 1) rfl) 20 (myEnv true) (by decide) (headOf 11 2) rfl)
    20 (myEnv true) (by decide) (headOf 11 3) rfl
  exact ⟨_, hrun, by decide +kernel, run_distinct_heights gasCrypto lubanSpec _ hrun⟩

end VoteProducer

end RethBsc
