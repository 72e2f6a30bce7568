import RethBsc.Node.JustifiedSource
import RethBsc.Parlia.AccountableSafety
import RethBsc.Parlia.AttestationRlp
import RethBsc.Parlia.WellFormed

/-!
# The verifier accepts what the producer assembles

Producer and verifier walk the ancestors, look up snapshots and read validators on their own.  Here
the two meet: an attestation that `assemble_vote_attestation` appends passes
`verify_vote_attestation` once the header is sealed.

* `getVoteAttestationFromHeader_sealed`: the verifier cuts the attestation out of the extra data
  where the producer put it.
* `Target.findAncestor`: the verifier's walk ends at the producer's target.
* `verifySigners_assembled`: the signers behind the bits are those whose signatures were aggregated.
* `assembled_accepted`: the theorem, with what the bits mean.
-/

namespace RethBsc

open Rust

/-! ## The place of the attestation -/

/-- The extra data is a vanity and, exactly if the number of the block is a multiple of `epochNum`,
the section of the validators and from Bohr on that of the turn length. -/
def Parlia.LaidOut (p : Parlia) (epochNum : UInt64) (h : Header) : Prop :=
  ∃ vanity sections, h.extraData = vanity ++ sections ∧ vanity.length = extraVanityLen ∧
    if isMultipleOf h.number epochNum then
      ∃ (count : UInt8) (validators turnLength : Bytes),
        sections = count :: (validators ++ turnLength) ∧
        validators.length = count.toNat * validatorBytesLenAfterLuban ∧
        turnLength.length
          = if p.spec.isBohrActiveAtTimestamp h.number h.timestamp then turnLengthSize else 0
    else sections = []

def Header.appendSeal (h : Header) (signature : FixedBytes extraSealLen) : Header :=
  { h with extraData := h.extraData ++ signature.val }

section Layout

variable {p : Parlia} {epochNum : UInt64} {h : Header} {encoded : Bytes}
  {decode : Bytes → Option VoteAttestation} {attestation : VoteAttestation}

/-- The verifier computes where the sections end from the bytes that it finds there. -/
theorem Parlia.LaidOut.start_eq (hlayout : p.LaidOut epochNum h) (rest : Bytes) :
    (if !isMultipleOf h.number epochNum then extraVanityLen
      else extraVanityLen + validatorNumberSize +
        ((h.extraData ++ rest).getD extraVanityLen 0).toNat * validatorBytesLenAfterLuban +
        if p.spec.isBohrActiveAtTimestamp h.number h.timestamp then turnLengthSize else 0)
      = h.extraData.length := by
  obtain ⟨vanity, sections, hextra, hvanity, hsections⟩ := hlayout
  rw [hextra]
  split at hsections
  · next hepoch =>
    obtain ⟨count, validators, turnLength, rfl, hvalidators, hturn⟩ := hsections
    have hcount : (vanity ++ count :: (validators ++ turnLength) ++ rest).getD extraVanityLen 0
        = count := by
      rw [← hvanity]
      simp
    rw [hcount, hepoch]
    simp only [Bool.not_true, Bool.false_eq_true, if_false, List.length_append, List.length_cons,
      hvanity, hvalidators, hturn]
    simp only [validatorNumberSize]
    omega
  · next hepoch =>
    subst hsections
    rw [Bool.not_eq_true] at hepoch
    simp [hepoch, hvanity]

/-- What is appended to a header before it is sealed is what the verifier decodes. -/
theorem getVoteAttestationFromHeader_sealed (hluban : p.spec.isLubanActiveAtBlock h.number = true)
    (hlayout : p.LaidOut epochNum h) (hne : encoded ≠ [])
    (hdecode : decode encoded = some attestation) (signature : FixedBytes extraSealLen) :
    p.getVoteAttestationFromHeader
        (Header.appendSeal { h with extraData := h.extraData ++ encoded } signature) decode epochNum
      = .ok (some attestation) := by
  have hstart := hlayout.start_eq (encoded ++ signature.val)
  have hvanity : extraVanityLen ≤ h.extraData.length := by grind
  have hpos : 0 < encoded.length := List.length_pos_iff.mpr hne
  have hlen : (h.extraData ++ encoded ++ signature.val).length
      = h.extraData.length + encoded.length + extraSealLen := by
    rw [List.length_append, List.length_append, signature.length_val]
  rw [← List.append_assoc] at hstart
  unfold Parlia.getVoteAttestationFromHeader Header.appendSeal Header.validatorCount
  dsimp only
  rw [hlen, if_neg (by simp only [extraVanityLen] at hvanity ⊢; omega), hluban, hstart,
    Nat.add_sub_cancel]
  -- what is left between the sections and the seal is the encoded attestation
  have hpart : ((h.extraData ++ encoded ++ signature.val).take
      (h.extraData.length + encoded.length)).drop h.extraData.length = encoded := by
    rw [← List.length_append, List.take_left, List.drop_left]
  rw [hpart, hdecode]
  simp only [Bool.not_true, Bool.false_eq_true, if_false]
  rw [if_neg (by omega)]

end Layout

/-! ## The walks -/

/-- The caches have every known header, and those of the producer have no other. -/
structure Lookups.Complete {hashSlow : Header → B256} (lookups : Lookups)
    (tree : BlockTree hashSlow) : Prop where
  headerByHash : ∀ header ∈ tree.known, lookups.headerByHash (hashSlow header) = some header
  canonicalHeaderByHash : ∀ h header, lookups.canonicalHeaderByHash h = some header →
    header ∈ tree.known ∧ hashSlow header = h

section Walk

variable {c : Crypto} {lookups : Lookups} {tree : BlockTree c.hashSlow}
  {bucket : B256 → List VoteEnvelope} {justifiedNumber : UInt64} {n : Nat} {t u : Header}
  {s : Snapshot}

theorem Target.known (h : Target c lookups bucket justifiedNumber n t u s)
    (hl : lookups.Complete tree) (ht : t ∈ tree.known) : u ∈ tree.known := by
  induction h with
  | here _ _ => exact ht
  | up _ _ hparent _ _ ih => exact ih (hl.canonicalHeaderByHash _ _ hparent).1

/-- Over the same number of blocks the verifier finds the target of the producer. -/
theorem Target.findAncestor (h : Target c lookups bucket justifiedNumber n t u s)
    (hl : lookups.Complete tree) (ht : t ∈ tree.known) {data : VoteData}
    (hnumber : data.targetNumber = u.number) (hhash : data.targetHash = c.hashSlow u) :
    RethBsc.findAncestor c lookups data n t = .ok u := by
  induction h with
  | here _ _ =>
    rw [RethBsc.findAncestor, if_pos ⟨hnumber.symm, hhash.symm⟩]
  | up _ _ hparent _ hrest ih =>
    obtain ⟨hknown, hlink⟩ := hl.canonicalHeaderByHash _ _ hparent
    rw [RethBsc.findAncestor]
    split
    · next hmatch =>
      -- only the target has its hash
      exact congrArg Except.ok
        (tree.hash_injOn ht (hrest.known hl hknown) (hmatch.2.trans hhash))
    · rw [← hlink, hl.headerByHash _ hknown]
      exact ih hknown hnumber hhash

end Walk

/-! ## The signers -/

/-- RLP reads back what it wrote, as long as the verifier does not refuse the attestation for its
size, and an aggregate of valid signatures verifies for their vote addresses. -/
structure Crypto.Aggregates (c : Crypto) (valid : VoteAddress → B256 → c.Signature → Prop) :
    Prop where
  decode_encode : ∀ a : VoteAttestation, a.extra.length ≤ maxAttestationExtraLength →
    c.decode (c.encode a) = some a
  verify : ∀ (l : List (VoteAddress × c.Signature)) (agg : c.Signature) (message : B256)
    (addrs : List VoteAddress), c.aggregate (l.map Prod.snd) = some agg →
    addrs.Perm (l.map Prod.fst) → (∀ vs ∈ l, valid vs.1 message vs.2) →
    c.verifyAggregate (c.toBytes agg) message addrs = true

/-- The signature of a vote is one of its vote address over its data. -/
def VoteEnvelope.ValidlySigned (c : Crypto) (valid : VoteAddress → B256 → c.Signature → Prop)
    (vote : VoteEnvelope) : Prop :=
  ∃ sig, c.signatureFromBytes vote.signature = some sig ∧
    valid vote.voteAddress (c.voteHash vote.data) sig

/-- The attestation has the aggregate of the signatures of `orderedUnique`, and bit `i` is set
exactly if that of the `i`-th validator in sorted order is among them. -/
def BitsMatchSignatures (c : Crypto) (s : Snapshot) (votes : List VoteEnvelope)
    (attestation : VoteAttestation) : Prop :=
  ∃ sigs agg, (orderedUnique s votes).map (fun o => c.signatureFromBytes o.2.2) = sigs.map some ∧
    c.aggregate sigs = some agg ∧ attestation.aggSignature = c.toBytes agg ∧
    ∀ i < 64, hasBit attestation.voteAddressSet i = true ↔
      ∃ v, (s.validators.insertionSort (· ≤ ·))[i]? = some v ∧
        ∃ o ∈ orderedUnique s votes, o.2.1 = s.voteAddr v

theorem Snapshot.Reachable.sorted {hashSlow : Header → B256} {spec : ChainSpec} {s : Snapshot}
    (h : Snapshot.Reachable hashSlow spec s) :
    s.validators.insertionSort (· ≤ ·) = s.validators := by
  have hbuilt : ∀ {validators sorted : List Address} {voteAddrs : Option (List VoteAddress)}
      {map : ValidatorsMap}, buildValidators validators voteAddrs = .ok (sorted, map) →
      sorted.insertionSort (· ≤ ·) = sorted := fun hbuild => by
    rw [Snapshot.buildValidators_sorted hbuild]
    exact (List.pairwise_insertionSort _ _).insertionSort_eq
  induction h with
  | genesis h =>
    obtain ⟨⟨validators, map⟩, hbuild, hs⟩ := Outcome.bind_eq_ok.mp h
    cases hs
    exact hbuilt hbuild
  | apply _ happly ih =>
    rcases (Snapshot.apply_spec happly).validators with ⟨hvalidators, -, -⟩ | ⟨-, hbuild⟩
    · rw [hvalidators]
      exact ih
    · exact hbuilt hbuild

section Signers

variable {c : Crypto} {valid : VoteAddress → B256 → c.Signature → Prop} {s : Snapshot}
  {votes : List VoteEnvelope} {data : VoteData}

/-- The voter at a position, by the validator there. -/
theorem mem_voters_positions {i : Nat} :
    i ∈ (voters s votes).map Prod.snd ↔
      ∃ v, s.validators[i]? = some v ∧ (firstVote votes (s.voteAddr v)).isSome := by
  unfold voters
  simp only [List.mem_map, List.mem_filter, Prod.exists, List.mem_zipIdx_iff_getElem?]
  constructor
  · rintro ⟨v, j, ⟨hv, hvote⟩, rfl⟩
    exact ⟨v, hv, hvote⟩
  · rintro ⟨v, hv, hvote⟩
    exact ⟨v, i, ⟨hv, hvote⟩, rfl⟩

/-- A validator voted exactly if its signature is one of those that are aggregated. -/
theorem exists_mem_orderedUnique (hs : s.Votable) {i : Nat} {v : Address}
    (hv : s.validators[i]? = some v) :
    (∃ o ∈ orderedUnique s votes, o.2.1 = s.voteAddr v) ↔
      (firstVote votes (s.voteAddr v)).isSome := by
  have hperm : (orderedUnique s votes).Perm _ := orderedUnique_perm hs.wellIndexed hs.distinct.nodup
  constructor
  · rintro ⟨o, ho, haddr⟩
    obtain ⟨vi, hvi, rfl⟩ := List.mem_map.mp (hperm.mem_iff.mp ho)
    have haddr : s.voteAddr vi.1 = s.voteAddr v := haddr
    rw [← haddr]
    exact (List.mem_filter.mp hvi).2
  · intro hvote
    have hvi : (v, i) ∈ voters s votes :=
      List.mem_filter.mpr ⟨List.mem_zipIdx_iff_getElem?.mpr hv, hvote⟩
    exact ⟨_, hperm.mem_iff.mpr (List.mem_map_of_mem hvi), rfl⟩

theorem hasBit_voters (hs : s.Votable) {i : Nat} (hi : i < 64) :
    hasBit (voteSet ((voters s votes).map Prod.snd)) i = true ↔
      ∃ v, s.validators[i]? = some v ∧ ∃ o ∈ orderedUnique s votes, o.2.1 = s.voteAddr v := by
  rw [hasBit_voteSet (voters_positions_lt hs.length_le) hi, decide_eq_true_iff,
    mem_voters_positions]
  refine exists_congr fun v => and_congr_right fun hv => ?_
  exact (exists_mem_orderedUnique hs hv).symm

/-- The vote that counts for a validator is a vote of the bucket, so it is signed over the data of
the attestation. -/
theorem firstSignature_valid (hdata : ∀ vote ∈ votes, c.voteHash vote.data = c.voteHash data)
    (hvalid : ∀ vote ∈ votes, vote.ValidlySigned c valid) {vi : Address × Nat}
    (hvi : vi ∈ voters s votes) :
    ∃ sig, c.signatureFromBytes (firstSignature votes (s.voteAddr vi.1)) = some sig ∧
      valid (s.voteAddr vi.1) (c.voteHash data) sig := by
  obtain ⟨vote, hvote⟩ := Option.isSome_iff_exists.mp (List.mem_filter.mp hvi).2
  have haddr : vote.voteAddress = s.voteAddr vi.1 := by simpa using List.find?_some hvote
  have hmem : vote ∈ votes := List.mem_of_find?_eq_some hvote
  obtain ⟨sig, hsig, hsigned⟩ := hvalid vote hmem
  refine ⟨sig, ?_, ?_⟩
  · rwa [firstSignature, hvote]
  · rwa [← haddr, ← hdata vote hmem]

/-- The verifier's checks of the signers on an assembled attestation. -/
theorem verifySigners_assembled (hc : c.Aggregates valid) (hs : s.Votable)
    (hdata : ∀ vote ∈ votes, c.voteHash vote.data = c.voteHash data)
    (hvalid : ∀ vote ∈ votes, vote.ValidlySigned c valid)
    (hquorum : s.quorum ≤ (voters s votes).length) {sigs : List c.Signature} {agg : c.Signature}
    (hsigs : (orderedUnique s votes).map (fun o => c.signatureFromBytes o.2.2) = sigs.map some)
    (hagg : c.aggregate sigs = some agg) :
    verifySigners c s ⟨voteSet ((voters s votes).map Prod.snd), c.toBytes agg, data, []⟩
      = .ok () := by
  have hones : countOnes (voteSet ((voters s votes).map Prod.snd)) = (voters s votes).length :=
    countOnes_voters hs.length_le
  have hcount := length_voters_le s votes
  obtain ⟨l, rfl, haddrs, hforall⟩ := exists_signers hs hsigs
  have hsigned := (hforall fun a sig => valid a (c.voteHash data) sig).mpr fun vi hvi =>
    firstSignature_valid hdata hvalid hvi
  have hverify := hc.verify l agg (c.voteHash data) _ hagg haddrs hsigned
  unfold verifySigners
  dsimp only
  -- no more bits than validators
  rw [throw_if_eq_ok]
  refine ⟨by omega, ?_⟩
  -- a vote address behind each bit, and a quorum of them
  rw [bitSetVoteAddrs_voteSet hs.wellIndexed hs.distinct.nodup hs.length_le, except_bind_eq_ok]
  refine ⟨_, rfl, ?_⟩
  rw [throw_if_eq_ok, List.length_map]
  refine ⟨by omega, ?_⟩
  -- the aggregate
  rw [hverify]
  rfl

end Signers

/-! ## The theorem -/

/-- **What the producer assembles the verifier accepts.** The parent is the head of a verified chain
and an attestation has been recorded in its snapshot.  All votes in the pool are validly signed, and
every snapshot that is looked up has at most 64 validators, with distinct vote addresses.  If
`assemble_vote_attestation` changes a header that is laid out for the epoch length of the parent's
snapshot, then the header verifies with any seal, and the bits of its attestation are those of the
aggregated signatures. -/
theorem assembled_accepted (c : Crypto) (valid : VoteAddress → B256 → c.Signature → Prop)
    (hc : c.Aggregates valid) (p : Parlia) (lookups : Lookups) (tree : BlockTree c.hashSlow)
    (hfaithful : lookups.Faithful tree) (hcomplete : lookups.Complete tree)
    (hsnapshots : ∀ h s, lookups.snapshotByHash h = some s →
      Snapshot.Reachable c.hashSlow p.spec s ∧ s.validators.length ≤ 64 ∧ s.DistinctVoteAddrs)
    (P : VoteData → Prop) (parent : Header) (before : List Header) (parentSnap : Snapshot)
    (chain : VerifiedChain c lookups p tree P (parent :: before) parentSnap)
    (hforks : ∀ h ∈ parent :: before, p.spec.isFermiActiveAtTimestamp h.number h.timestamp = true →
      p.spec.isPlatoActiveAtBlock h.number = true)
    (hrecorded : parentSnap.voteData ≠ default) (pool : VotePool)
    (hvalid : ∀ h, ∀ vote ∈ pool.fetchVoteByBlockHash h, vote.ValidlySigned c valid)
    (header header' : Header) (hlayout : p.LaidOut parentSnap.epochNum header)
    (hassemble : p.assembleVoteAttestation c lookups pool parentSnap parent header = .ok header')
    (happends : header' ≠ header) (signature : FixedBytes extraSealLen) :
    p.verifyVoteAttestation c lookups parentSnap (header'.appendSeal signature) parent = .ok () ∧
      ∃ target targetSnap attestation,
        p.getVoteAttestationFromHeader (header'.appendSeal signature) c.decode parentSnap.epochNum
          = .ok (some attestation) ∧
        attestation.data = attestationData c parentSnap target ∧
        lookups.snapshotByHash target.parentHash = some targetSnap ∧
        BitsMatchSignatures c targetSnap (pool.fetchVoteByBlockHash (c.hashSlow target))
          attestation := by
  obtain ⟨⟨hluban, -⟩, target, targetSnap, attestation, htarget, hagg, hheader⟩ :=
    (assembleVoteAttestation_cases hassemble).resolve_left happends
  have hsnap := htarget.snapshotByHash
  obtain ⟨hreachable, hlength, hdistinct⟩ := hsnapshots _ _ hsnap
  have hs : targetSnap.Votable := ⟨hreachable.wellIndexed, hlength, hdistinct⟩
  obtain ⟨hdata, hquorum, sigs, agg, hsigs, haggregate, hfields⟩ :=
    (aggregateVotes_eq_ok_some hs).mp hagg
  have hne : c.encode attestation ≠ [] := fun hnil =>
    happends (by rw [hheader, hnil, List.append_nil])
  have hdecode := hc.decode_encode attestation (by rw [hfields]; exact Nat.zero_le _)
  have hattestation : p.getVoteAttestationFromHeader (header'.appendSeal signature) c.decode
      parentSnap.epochNum = .ok (some attestation) := by
    rw [hheader]
    exact getVoteAttestationFromHeader_sealed hluban hlayout hne hdecode signature
  subst hfields
  refine ⟨?_, target, targetSnap, _, hattestation, rfl, hsnap, sigs, agg, hsigs, haggregate, rfl,
    fun i hi => ?_⟩
  · cases hplato : p.spec.isPlatoActiveAtBlock (header'.appendSeal signature).number with
    | false => exact verifyVoteAttestation_of_not_plato hplato
    | true =>
      -- the recorded target is the block that the verifier takes for the justified one
      have hknown : TargetKnown tree parentSnap :=
        (chain.targetKnown_iff hfaithful hforks).mpr hrecorded
      obtain ⟨number, hash, -, hproducer, justified, hjustified, hnumber, hhash⟩ :=
        hknown.sourcesAgree hcomplete.headerByHash
      obtain ⟨hsourceNumber, hsourceHash⟩ := hproducer target
      have hdepth : p.walkDepth (header'.appendSeal signature) = p.walkDepth header := by
        rw [hheader]
        rfl
      rw [← hdepth] at htarget
      refine (verifyVoteAttestation_eq_ok hplato hattestation).mpr ⟨Nat.zero_le _, target,
        justified, targetSnap, ?_, hjustified, hsourceNumber.trans hnumber.symm,
        hsourceHash.trans hhash.symm, hsnap, ?_⟩
      · exact htarget.findAncestor hcomplete (chain.known parent List.mem_cons_self) rfl rfl
      · exact verifySigners_assembled hc hs hdata (hvalid _) hquorum hsigs haggregate
  · rw [hreachable.sorted]
    exact hasBit_voters hs hi

/-! ## The second attestation of a chain

One validator.  Block 2 has an attestation for block 1, and block 3 gets one for block 2. -/

/-- Marked signatures, and attestations as RLP. -/
def rlpCrypto : Crypto :=
  { markedCrypto with
    hashSlow := nextHash
    voteHash := VoteData.targetHash
    encode := VoteAttestation.rlp
    decode := VoteAttestation.decodeRlp }

theorem rlpCrypto_verifyAggregate (agg : Bool) (message : B256) (addrs : List VoteAddress) :
    rlpCrypto.verifyAggregate (rlpCrypto.toBytes agg) message addrs = agg := by
  have hkeys : addrs.mapM rlpCrypto.publicKeyFromBytes = some addrs :=
    List.mapM_pure.trans (congrArg some (List.map_id addrs))
  have hsig : rlpCrypto.signatureFromBytes (rlpCrypto.toBytes agg) = some agg := by
    cases agg <;> rfl
  rw [Crypto.verifyAggregate, hkeys, hsig]
  rfl

theorem rlpCrypto_aggregates : rlpCrypto.Aggregates fun _ _ sig => sig = true where
  decode_encode a hextra := by
    have hlt : a.extra.length < 2 ^ 63 := lt_of_le_of_lt hextra (by decide)
    rw [show rlpCrypto.decode = VoteAttestation.decodeRlp from rfl,
      show rlpCrypto.encode = VoteAttestation.rlp from rfl, VoteAttestation.decodeRlp_rlp hlt]
  verify l agg message addrs hagg hperm hvalid := by
    have hmarked := (markedCrypto_lawful.verify_iff l agg message addrs hagg hperm).mpr hvalid
    have hagg : agg = true := (markedCrypto_verifyAggregate agg message addrs).symm.trans hmarked
    exact (rlpCrypto_verifyAggregate agg message addrs).trans hagg

/-- The attestation for block `number`, with the block before it as the source. -/
def nextAttestation (number : UInt64) : VoteAttestation :=
  ⟨1, .repeatByte 96 1,
    ⟨number - 1, b256OfUInt64 number, number, b256OfUInt64 (number + 1)⟩, []⟩

def attestedHeader (number : UInt64) : Header :=
  { bootHeader number with
    extraData := List.replicate 32 0 ++
      (if number = 2 then (nextAttestation 1).rlp else []) ++ List.replicate 65 0 }

def attestedHeaders : List Header := [attestedHeader 0, attestedHeader 1, attestedHeader 2]

/-- The node knows the blocks 0 to 2. -/
def attestedLookups : Lookups :=
  { Lookups.ofList nextHash attestedHeaders fun _ => some (bootSnapshot 1) with
    canonicalHeaderByHash := fun h => attestedHeaders.find? fun header => nextHash header = h }

def attestedTree : BlockTree rlpCrypto.hashSlow :=
  .ofList (attestedHeader 0) attestedHeaders (by decide +kernel)

/-- The snapshot after block 2, which has recorded the attestation for block 1. -/
def attestedSnapshot : Snapshot := { bootSnapshot 2 with voteData := (nextAttestation 1).data }

abbrev AttestedStep : Header → Header → Snapshot → Snapshot → Option VoteAttestation → Prop :=
  VerifiedStep rlpCrypto attestedLookups (.ofSpec platoSpec) attestedHeaders loneValidator

theorem attestedChain_one :
    VerifiedChain rlpCrypto attestedLookups (.ofSpec platoSpec) attestedTree (fun _ => True)
      [attestedHeader 1, attestedHeader 0] (bootSnapshot 1) := by
  have hgenesis : Snapshot.new [loneValidator] 0 (nextHash (attestedHeader 0)) defaultEpochLength
      (some [loneVoteAddress]) = .ok { bootSnapshot 0 with recentProposers := ∅ } := rfl
  have hstep : AttestedStep (attestedHeader 0) (attestedHeader 1)
      { bootSnapshot 0 with recentProposers := ∅ } (bootSnapshot 1) none := by decide +kernel
  exact hstep.chain (fun _ => id) (.genesis hgenesis) fun _ _ => trivial

theorem attestedChain_two :
    VerifiedChain rlpCrypto attestedLookups (.ofSpec platoSpec) attestedTree (fun _ => True)
      [attestedHeader 2, attestedHeader 1, attestedHeader 0] attestedSnapshot := by
  have hstep : AttestedStep (attestedHeader 1) (attestedHeader 2) (bootSnapshot 1) attestedSnapshot
      (some (nextAttestation 1)) := by decide +kernel
  exact hstep.chain (fun _ => id) attestedChain_one fun _ _ => trivial

/-- Block 3 before assembly. -/
def unattestedHeader : Header := { bootHeader 3 with extraData := List.replicate 32 0 }

def nextVote : VoteEnvelope :=
  ⟨loneVoteAddress, .repeatByte 96 1, (nextAttestation 2).data⟩

/-- The attestation for block 2 is appended to block 3 and verifies. -/
theorem second_attestation_accepted :
    (Parlia.ofSpec platoSpec).verifyVoteAttestation rlpCrypto attestedLookups attestedSnapshot
      (Header.appendSeal { unattestedHeader with
        extraData := unattestedHeader.extraData ++ (nextAttestation 2).rlp }
        (FixedBytes.repeatByte 65 7)) (attestedHeader 2) = .ok () := by
  have hfaithful : attestedLookups.Faithful attestedTree :=
    ⟨fun _ _ => mem_of_find_hash, by decide +kernel⟩
  have hcomplete : attestedLookups.Complete attestedTree := by
    refine ⟨?_, fun _ _ => mem_of_find_hash⟩
    show ∀ header ∈ attestedHeaders, _
    decide +kernel
  have hsnapshots : ∀ h s, attestedLookups.snapshotByHash h = some s →
      Snapshot.Reachable rlpCrypto.hashSlow platoSpec s ∧ s.validators.length ≤ 64 ∧
        s.DistinctVoteAddrs := by
    intro h s hs
    obtain rfl : bootSnapshot 1 = s := Option.some.inj hs
    exact ⟨attestedChain_one.reachable, by decide, by decide +kernel⟩
  have hvalid : ∀ h, ∀ vote ∈ (VotePool.new.putVotes rlpCrypto.envelopeHash
      [nextVote]).fetchVoteByBlockHash h,
      vote.ValidlySigned rlpCrypto fun _ _ sig => sig = true := by
    intro h vote hvote
    have hbucket : (VotePool.new.insert rlpCrypto.envelopeHash nextVote).fetchVoteByBlockHash h
        = if _ then _ else _ := VotePool.fetch_insert h
    obtain rfl : vote = nextVote := by
      have hvote : vote ∈ (VotePool.new.insert rlpCrypto.envelopeHash
        nextVote).fetchVoteByBlockHash h := hvote
      simp_all [VotePool.new, VotePool.fetchVoteByBlockHash]
    exact ⟨true, rfl, rfl⟩
  have hlayout : (Parlia.ofSpec platoSpec).LaidOut attestedSnapshot.epochNum unattestedHeader :=
    ⟨List.replicate 32 0, [], by decide +kernel, by decide, by rw [if_neg (by decide +kernel)]⟩
  exact (assembled_accepted rlpCrypto _ rlpCrypto_aggregates (Parlia.ofSpec platoSpec)
    attestedLookups attestedTree hfaithful hcomplete hsnapshots _ _ _ attestedSnapshot
    attestedChain_two (fun _ _ _ => rfl) (by decide +kernel) _ hvalid unattestedHeader _ hlayout
    (by decide +kernel) (by decide +kernel) (FixedBytes.repeatByte 65 7)).1

end RethBsc
