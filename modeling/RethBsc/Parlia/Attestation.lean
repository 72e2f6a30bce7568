import RethBsc.Parlia.ExtraData
import RethBsc.Parlia.VotePool

/-!
# Assembling and verifying attestations

`assemble_vote_attestation` of `src/consensus/parlia/consensus.rs` on the producer's side,
`verify_vote_attestation` and `get_justified_header` of `src/node/evm/pre_execution.rs` on the
verifier's.

* `Crypto` is what both take from other crates: hashes, the RLP coding and BLS signatures.
* `Lookups` is what both ask of the node: headers and snapshots.
* `findTarget` is the producer's walk from the parent block to a block with enough votes.
-/

namespace RethBsc

open Rust Outcome

def kAncestorGenerationDepth : Nat := 3

/-- Hashes, codings and signatures of other crates. -/
structure Crypto where
  /-- `Header::hash_slow`. -/
  hashSlow : Header → B256
  /-- `VoteData::hash`, which signatures are over. -/
  voteHash : VoteData → B256
  /-- `VoteEnvelope::hash`. -/
  envelopeHash : VoteEnvelope → B256
  encode : VoteAttestation → Bytes
  decode : Bytes → Option VoteAttestation
  PublicKey : Type
  Signature : Type
  publicKeyFromBytes : VoteAddress → Option PublicKey
  signatureFromBytes : VoteSignature → Option Signature
  /-- `AggregateSignature::aggregate`, an error without signatures. -/
  aggregate : List Signature → Option Signature
  toBytes : Signature → VoteSignature
  fastAggregateVerify : Signature → B256 → List PublicKey → Bool

/-- Headers and snapshots that the node can find. -/
structure Lookups where
  snapshotByHash : B256 → Option Snapshot
  /-- `HEADER_CACHE_READER.get_header_by_hash`. -/
  headerByHash : B256 → Option Header
  /-- `HEADER_CACHE_READER.get_header_by_number`. -/
  headerByNumber : UInt64 → Option Header
  /-- `get_canonical_header_by_hash_from_provider`. -/
  canonicalHeaderByHash : B256 → Option Header

/-- Two thirds of the validators, rounded up. -/
def Snapshot.quorum (s : Snapshot) : Nat := (s.validators.length * 2 + 2) / 3

/-! ## Bit sets -/

/-- `(set >> i) & 1 != 0`. -/
def hasBit (set : UInt64) (i : Nat) : Bool := (set >>> UInt64.ofNat i) &&& 1 != 0

/-- `u64::count_ones`. -/
def countOnes (set : UInt64) : Nat := (List.range 64).countP (hasBit set)

/-- How many blocks the target of an attestation in `header` is searched for in. -/
def Parlia.walkDepth (p : Parlia) (header : Header) : Nat :=
  if p.spec.isFermiActiveAtTimestamp header.number header.timestamp then kAncestorGenerationDepth
  else 1

/-! ## Assembling -/

section Assemble

variable (c : Crypto) (lookups : Lookups)

/-- Walks from `target` over at most `n` blocks to one whose bucket has a quorum of votes.  The
walk ends without a target at a block that is not above the justified one. -/
def findTarget (bucket : B256 → List VoteEnvelope) (justifiedNumber : UInt64) :
    Nat → Header → Outcome ParliaConsensusError (Option (Header × Snapshot))
  | 0, _ => .ok none
  | n + 1, target => do
    let snap ← okOr (.snapshotNotFound target.parentHash)
      (lookups.snapshotByHash target.parentHash)
    if snap.quorum ≤ (bucket (c.hashSlow target)).length then pure (some (target, snap))
    else
      let target' ← okOr (.headerNotFound target.parentHash)
        (lookups.canonicalHeaderByHash target.parentHash)
      if target'.number ≤ justifiedNumber then pure none
      else findTarget bucket justifiedNumber n target'

/-- The first signature for each vote address that a validator of `snap` has. -/
def uniqueByAddr (snap : Snapshot) (votes : List VoteEnvelope) : Map VoteAddress VoteSignature :=
  Map.orInsertAll VoteEnvelope.voteAddress VoteEnvelope.signature
    (votes.filter fun vote =>
      snap.validatorsMap.entries.any fun e => e.2.voteAddr == vote.voteAddress) ∅

/-- Index, vote address and signature of the validators of `snap` that voted. -/
def orderedUnique (snap : Snapshot) (votes : List VoteEnvelope) :
    List (UInt64 × VoteAddress × VoteSignature) :=
  snap.validatorsMap.entries.filterMap fun e =>
    ((uniqueByAddr snap votes).lookup e.2.voteAddr).map fun sig => (e.2.index, e.2.voteAddr, sig)

/-- The attestation over the votes of `target`, if enough validators of `snap` voted. -/
def aggregateVotes (snap : Snapshot) (votes : List VoteEnvelope) (data : VoteData) :
    Outcome ParliaConsensusError (Option VoteAttestation) :=
  match votes.find? fun vote => c.voteHash vote.data ≠ c.voteHash data with
  | some vote => .err (.fetchVoteError vote.voteAddress)
  | none =>
    let ordered := orderedUnique snap votes
    if ordered.length < snap.quorum then .ok none
    else do
      let sigs ← ordered.mapM fun o => unwrap (c.signatureFromBytes o.2.2)
      let aggregate ← okOr .aggregateSignatureError (c.aggregate sigs)
      let voteAddressSet := ordered.foldl (fun set o => set ||| ((1 : UInt64) <<< (o.1 - 1))) 0
      let ones := countOnes voteAddressSet
      if ones ≠ ordered.length then .err (.invalidAttestationVoteCount ones ordered.length)
      else pure (some ⟨voteAddressSet, c.toBytes aggregate, data, []⟩)

/-- Appends an attestation to the extra data of `currentHeader` if the pool has the votes. -/
def Parlia.assembleVoteAttestation (p : Parlia) (pool : VotePool) (parentSnap : Snapshot)
    (parentHeader currentHeader : Header) : Outcome ParliaConsensusError Header :=
  if !p.spec.isLubanActiveAtBlock currentHeader.number || currentHeader.number < 3 then
    .ok currentHeader
  else do
    let justifiedNumber := parentSnap.voteData.targetNumber
    let justifiedHash := parentSnap.voteData.targetHash
    let found ← findTarget c lookups pool.fetchVoteByBlockHash justifiedNumber
      (p.walkDepth currentHeader) parentHeader
    match found with
    | none => pure currentHeader
    | some (target, snap) =>
      let data : VoteData := ⟨justifiedNumber, justifiedHash, target.number, c.hashSlow target⟩
      let attestation ← aggregateVotes c snap (pool.fetchVoteByBlockHash (c.hashSlow target)) data
      match attestation with
      | none => pure currentHeader
      | some attestation => pure { currentHeader with
          extraData := currentHeader.extraData ++ c.encode attestation }

end Assemble

/-! ## Verifying -/

/-- The errors of `verify_vote_attestation`; a pair is what was got and what was expected. -/
inductive AttestationError where
  | parliaConsensusError (error : ParliaConsensusError)
  | tooLargeAttestationExtraLen (extraLen : Nat)
  | unknownHeader (blockHash : B256)
  | invalidAttestationTarget (blockNumber : UInt64 × UInt64) (blockHash : B256 × B256)
  | invalidAttestationSource (blockNumber : UInt64 × UInt64) (blockHash : B256 × B256)
  | noPreSnapshot
  | invalidAttestationVoteCount (count : Nat × Nat)
  | voteAddrNotFoundInSnap (address : Address)
  | invalidAttestationSignature
  deriving DecidableEq

/-- `Option::ok_or` without panics. -/
def orError {ε α : Type} (e : ε) : Option α → Except ε α
  | some a => .ok a
  | none => .error e

section Verify

variable (c : Crypto) (lookups : Lookups)

/-- The ancestor of the header that is the target of `data`, searched for over `n` blocks from
`ancestor` up. -/
def findAncestor (data : VoteData) : Nat → Header → Except AttestationError Header
  | 0, ancestor =>
    .error (.invalidAttestationTarget (data.targetNumber, ancestor.number)
      (data.targetHash, c.hashSlow ancestor))
  | n + 1, ancestor =>
    if ancestor.number = data.targetNumber ∧ c.hashSlow ancestor = data.targetHash then .ok ancestor
    else do
      let ancestor' ← orError (.unknownHeader ancestor.parentHash)
        (lookups.headerByHash ancestor.parentHash)
      findAncestor data n ancestor'

/-- The block that the next attestation has to start from. -/
def getJustifiedHeader (snap : Snapshot) : Except AttestationError Header :=
  if snap.voteData.sourceHash = .zero ∧ snap.voteData.targetHash = .zero then
    orError (.unknownHeader .zero) (lookups.headerByNumber 0)
  else
    orError (.unknownHeader snap.voteData.targetHash) (lookups.headerByHash snap.voteData.targetHash)

/-- The vote addresses of the validators whose bit is set. -/
def bitSetVoteAddrs (snap : Snapshot) (set : UInt64) : Except AttestationError (List VoteAddress) :=
  (snap.validators.zipIdx.filter fun vi => vi.2 < 64 && hasBit set vi.2).mapM fun vi =>
    orError (.voteAddrNotFoundInSnap vi.1)
      ((snap.validatorsMap.lookup vi.1).map ValidatorInfo.voteAddr)

/-- The signature bytes are an aggregate over `message` of the keys behind `voteAddrs`. -/
def Crypto.verifyAggregate (signature : VoteSignature) (message : B256)
    (voteAddrs : List VoteAddress) : Bool :=
  match voteAddrs.mapM c.publicKeyFromBytes, c.signatureFromBytes signature with
  | some pubkeys, some sig => c.fastAggregateVerify sig message pubkeys
  | _, _ => false

/-- The part of `verify_vote_attestation` that depends on the signers. -/
def verifySigners (preSnap : Snapshot) (attestation : VoteAttestation) :
    Except AttestationError Unit := do
  let validatorsCount := preSnap.validators.length
  let bitSetCount := countOnes attestation.voteAddressSet
  if bitSetCount > validatorsCount then
    throw (.invalidAttestationVoteCount (bitSetCount, validatorsCount))
  let voteAddrs ← bitSetVoteAddrs preSnap attestation.voteAddressSet
  if voteAddrs.length < preSnap.quorum then
    throw (.invalidAttestationVoteCount (voteAddrs.length, preSnap.quorum))
  if !c.verifyAggregate attestation.aggSignature (c.voteHash attestation.data) voteAddrs then
    throw .invalidAttestationSignature

def Parlia.verifyVoteAttestation (p : Parlia) (snap : Snapshot) (header parent : Header) :
    Except AttestationError Unit := do
  if !p.spec.isPlatoActiveAtBlock header.number then return ()
  match p.getVoteAttestationFromHeader header c.decode snap.epochNum with
  | .error e => throw (.parliaConsensusError e)
  | .ok none => return ()
  | .ok (some attestation) =>
    if attestation.extra.length > maxAttestationExtraLength then
      throw (.tooLargeAttestationExtraLen maxAttestationExtraLength)
    let ancestor ← findAncestor c lookups attestation.data (p.walkDepth header) parent
    let justified ← getJustifiedHeader lookups snap
    if attestation.data.sourceNumber ≠ justified.number ∨
        attestation.data.sourceHash ≠ c.hashSlow justified then
      throw (.invalidAttestationSource (attestation.data.sourceNumber, justified.number)
        (attestation.data.sourceHash, c.hashSlow justified))
    let preSnap ← orError .noPreSnapshot (lookups.snapshotByHash ancestor.parentHash)
    verifySigners c preSnap attestation

variable {c lookups} {p : Parlia} {snap : Snapshot} {header parent : Header}
  {attestation : VoteAttestation}

theorem orError_eq_ok {ε α : Type} {e : ε} {o : Option α} {a : α} :
    orError e o = .ok a ↔ o = some a := by
  cases o with
  | none => simp [orError]
  | some b => simp [orError]

/-- Before Plato nothing is checked. -/
theorem verifyVoteAttestation_of_not_plato
    (hplato : p.spec.isPlatoActiveAtBlock header.number = false) :
    p.verifyVoteAttestation c lookups snap header parent = .ok () := by
  rw [Parlia.verifyVoteAttestation, hplato]
  rfl

/-- What `verify_vote_attestation` checks of an attestation. -/
theorem verifyVoteAttestation_eq_ok (hplato : p.spec.isPlatoActiveAtBlock header.number = true)
    (hattestation : p.getVoteAttestationFromHeader header c.decode snap.epochNum
      = .ok (some attestation)) :
    p.verifyVoteAttestation c lookups snap header parent = .ok () ↔
      attestation.extra.length ≤ maxAttestationExtraLength ∧
      ∃ ancestor justified preSnap,
        findAncestor c lookups attestation.data (p.walkDepth header) parent = .ok ancestor ∧
        getJustifiedHeader lookups snap = .ok justified ∧
        attestation.data.sourceNumber = justified.number ∧
        attestation.data.sourceHash = c.hashSlow justified ∧
        lookups.snapshotByHash ancestor.parentHash = some preSnap ∧
        verifySigners c preSnap attestation = .ok () := by
  unfold Parlia.verifyVoteAttestation
  simp only [hplato, hattestation, Bool.not_true, Bool.false_eq_true, if_false]
  rw [throw_if_eq_ok, gt_iff_lt, Nat.not_lt]
  refine and_congr_right fun _ => ?_
  simp only [except_bind_eq_ok, throw_if_eq_ok, orError_eq_ok, not_or, not_not]
  refine ⟨fun ⟨ancestor, hancestor, justified, hjustified, ⟨hnumber, hhash⟩, preSnap, hpre, hs⟩ => ?_,
    fun ⟨ancestor, justified, preSnap, hancestor, hjustified, hnumber, hhash, hpre, hs⟩ => ?_⟩
  · exact ⟨ancestor, justified, preSnap, hancestor, hjustified, hnumber, hhash, hpre, hs⟩
  · exact ⟨ancestor, hancestor, justified, hjustified, ⟨hnumber, hhash⟩, preSnap, hpre, hs⟩

end Verify

end RethBsc
