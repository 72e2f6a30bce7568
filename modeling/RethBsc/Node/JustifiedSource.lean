import RethBsc.Node.VoteProducer
import RethBsc.Parlia.AssembleRobust
import RethBsc.Parlia.VerifiedChain

/-!
# The justified source

Three functions derive the source of the next vote from a snapshot: the producer of a block for the
attestation that it assembles, the voter for the vote that it signs, and the verifier for the
attestation that it accepts.

* `SourcesAgree`: the three derive the same number and hash.
* `sourcesAgree_iff_targetKnown`: they do exactly when the recorded target is a known block.  That
  is not so in the snapshot of genesis: the voter and the verifier take the genesis block, the
  producer takes number 0 and the zero hash (`genesis_sources_differ`).
* `VerifiedChain.targetKnown_iff`: on a verified chain that is the case from the first recorded
  attestation on.
-/

namespace RethBsc

open Rust

variable {c : Crypto} {lookups : Lookups} {tree : BlockTree c.hashSlow} {s : Snapshot}

/-- The producer's attestation, the voter's vote and the verifier's demand have one source,
whatever the target. -/
def SourcesAgree (c : Crypto) (lookups : Lookups) (s : Snapshot) : Prop :=
  ∃ number hash, voteSource c lookups s = some (number, hash) ∧
    (∀ target, (attestationData c s target).sourceNumber = number ∧
      (attestationData c s target).sourceHash = hash) ∧
    ∃ justified, getJustifiedHeader lookups s = .ok justified ∧
      justified.number = number ∧ c.hashSlow justified = hash

/-- The recorded target is the number and hash of a known block. -/
def TargetKnown (tree : BlockTree c.hashSlow) (s : Snapshot) : Prop :=
  ∃ target ∈ tree.known, target.number = s.voteData.targetNumber ∧
    c.hashSlow target = s.voteData.targetHash

theorem SourcesAgree.targetKnown (h : SourcesAgree c lookups s) (hl : lookups.Faithful tree) :
    TargetKnown tree s := by
  obtain ⟨number, hash, hvoter, hproducer, justified, hjustified, hnumber, hhash⟩ := h
  obtain ⟨hproducerNumber, hproducerHash⟩ := hproducer tree.genesis
  have hproducerHash : s.voteData.targetHash = hash := hproducerHash
  -- the zero hash is that of no block, not even of genesis
  have hne : s.voteData.targetHash ≠ .zero := by
    intro hzero
    unfold voteSource at hvoter
    rw [if_pos hzero, hl.headerByNumber_zero, Option.map_some] at hvoter
    have hgenesis : c.hashSlow tree.genesis = hash := (Prod.mk.inj (Option.some.inj hvoter)).2
    exact tree.hash_ne_zero _ tree.genesis_mem (hgenesis.trans (hproducerHash.symm.trans hzero))
  unfold getJustifiedHeader at hjustified
  rw [if_neg fun h => hne h.2, orError_eq_ok] at hjustified
  obtain ⟨hknown, -⟩ := hl.headerByHash _ _ hjustified
  exact ⟨justified, hknown, hnumber.trans hproducerNumber.symm, hhash.trans hproducerHash.symm⟩

theorem TargetKnown.sourcesAgree (h : TargetKnown tree s)
    (hcomplete : ∀ header ∈ tree.known, lookups.headerByHash (c.hashSlow header) = some header) :
    SourcesAgree c lookups s := by
  obtain ⟨target, hknown, hnumber, hhash⟩ := h
  have hne : s.voteData.targetHash ≠ .zero := hhash ▸ tree.hash_ne_zero target hknown
  have hjustified : getJustifiedHeader lookups s = .ok target := by
    rw [getJustifiedHeader, if_neg fun h => hne h.2, orError_eq_ok, ← hhash]
    exact hcomplete target hknown
  exact ⟨s.voteData.targetNumber, s.voteData.targetHash, if_neg hne, fun _ => ⟨rfl, rfl⟩, target,
    hjustified, hnumber, hhash⟩

/-- On a verified chain the recorded target is known unless nothing has been recorded. -/
theorem VerifiedChain.targetKnown_iff {p : Parlia} {P : VoteData → Prop} {headers : List Header}
    (chain : VerifiedChain c lookups p tree P headers s) (hl : lookups.Faithful tree)
    (hforks : ∀ h ∈ headers, p.spec.isFermiActiveAtTimestamp h.number h.timestamp = true →
      p.spec.isPlatoActiveAtBlock h.number = true) :
    TargetKnown tree s ↔ s.voteData ≠ default := by
  refine ⟨fun ⟨target, hknown, _, hhash⟩ hdefault => ?_, fun hne => ?_⟩
  · rw [hdefault] at hhash
    exact tree.hash_ne_zero target hknown hhash
  · obtain ⟨target, hmem, hmatch⟩ := (chain.target_onChain hl hforks).resolve_left hne
    exact ⟨target, chain.known _ hmem, hmatch⟩

/-- **When the three sources agree.** With caches that give the known headers, and only those, the
producer, the voter and the verifier agree on the source exactly when the recorded target is a known
block. -/
theorem sourcesAgree_iff_targetKnown (c : Crypto) (lookups : Lookups) (tree : BlockTree c.hashSlow)
    (hl : lookups.Faithful tree)
    (hcomplete : ∀ header ∈ tree.known, lookups.headerByHash (c.hashSlow header) = some header)
    (s : Snapshot) : SourcesAgree c lookups s ↔ TargetKnown tree s :=
  ⟨fun h => h.targetKnown hl, fun h => h.sourcesAgree hcomplete⟩

/-! ## The first votes of a chain

One validator, three blocks and no attestation so far. -/

/-- Hashes by number, none of them zero. -/
def nextHash (h : Header) : B256 := b256OfUInt64 (h.number + 1)

def bootHeader (number : UInt64) : Header :=
  { (default : Header) with parentHash := b256OfUInt64 number, number }

def bootHeaders : List Header := [bootHeader 0, bootHeader 1, bootHeader 2]

def bootCrypto : Crypto := { markedCrypto with hashSlow := nextHash, voteHash := VoteData.sourceHash }

/-- The snapshot after block `number`, which is 1 or 2. -/
def bootSnapshot (number : UInt64) : Snapshot :=
  ⟨200, number, b256OfUInt64 (number + 1), [loneValidator],
    (∅ : Map Address ValidatorInfo).insert loneValidator ⟨1, loneVoteAddress⟩,
    (∅ : Map UInt64 Address).insert number loneValidator, default, some 1, 3000⟩

theorem bootSnapshot_reachable :
    Snapshot.Reachable bootCrypto.hashSlow lubanSpec (bootSnapshot 2) := by
  have hgenesis : Snapshot.new [loneValidator] 0 (nextHash (bootHeader 0)) defaultEpochLength
      (some [loneVoteAddress]) = .ok { bootSnapshot 0 with recentProposers := ∅ } := rfl
  have hone : Snapshot.Reachable nextHash lubanSpec (bootSnapshot 1) :=
    .apply (.genesis hgenesis) (show Snapshot.apply _ _ _ loneValidator (bootHeader 1) [] none none
      none = _ from rfl)
  exact .apply hone (show Snapshot.apply _ _ _ loneValidator (bootHeader 2) [] none none none = _
    from rfl)

/-- The node knows the blocks 0 to 2 and the snapshots of 1 and 2. -/
def bootLookups : Lookups :=
  .ofList nextHash bootHeaders fun h =>
    if h = b256OfUInt64 2 then some (bootSnapshot 1)
    else if h = b256OfUInt64 3 then some (bootSnapshot 2)
    else none

/-- The vote of the only validator for block 2. -/
def bootVote : VoteEnvelope :=
  ⟨loneVoteAddress, .repeatByte 96 1, ⟨0, b256OfUInt64 1, 2, b256OfUInt64 3⟩⟩

/-- Without an attestation so far, the voter and the verifier start from the genesis block and the
producer from the zero hash.  With the vote of the only validator in the pool the producer then
fails. -/
theorem genesis_sources_differ :
    Snapshot.Reachable bootCrypto.hashSlow lubanSpec (bootSnapshot 2) ∧
      voteSource bootCrypto bootLookups (bootSnapshot 2) = some (0, b256OfUInt64 1) ∧
      getJustifiedHeader bootLookups (bootSnapshot 2) = .ok (bootHeader 0) ∧
      bootCrypto.hashSlow (bootHeader 0) = b256OfUInt64 1 ∧
      (∀ target, (attestationData bootCrypto (bootSnapshot 2) target).sourceHash
        = FixedBytes.zero) ∧
      ¬ SourcesAgree bootCrypto bootLookups (bootSnapshot 2) ∧
      (Parlia.ofSpec lubanSpec).assembleVoteAttestation bootCrypto bootLookups
        (VotePool.new.putVotes bootCrypto.envelopeHash [bootVote]) (bootSnapshot 2)
        (bootHeader 2) (bootHeader 3) = .err (.fetchVoteError loneVoteAddress) := by
  refine ⟨bootSnapshot_reachable, rfl, by decide +kernel, rfl, fun _ => rfl, ?_, by decide +kernel⟩
  intro ⟨number, hash, hvoter, hproducer, _⟩
  have hvoter : some ((0 : UInt64), b256OfUInt64 1) = some (number, hash) := hvoter
  obtain ⟨-, rfl⟩ := Prod.mk.inj (Option.some.inj hvoter)
  exact absurd (hproducer (bootHeader 2)).2 (by decide)

/-- The blocks 0 to 2. -/
def bootTree : BlockTree bootCrypto.hashSlow :=
  .ofList (bootHeader 0) bootHeaders (by decide +kernel)

/-- Once block 1 is the recorded target, the sources agree. -/
theorem first_recorded_sources_agree :
    SourcesAgree bootCrypto bootLookups
      { bootSnapshot 2 with voteData := ⟨0, b256OfUInt64 1, 1, b256OfUInt64 2⟩ } := by
  have hl : bootLookups.Faithful bootTree :=
    ⟨fun _ _ => mem_of_find_hash, by decide +kernel⟩
  have hcomplete : ∀ header ∈ bootHeaders,
      bootLookups.headerByHash (nextHash header) = some header := by decide +kernel
  refine (sourcesAgree_iff_targetKnown bootCrypto bootLookups bootTree hl hcomplete _).mpr ?_
  exact ⟨bootHeader 1, show bootHeader 1 ∈ bootHeaders by decide +kernel, rfl, rfl⟩

end RethBsc
