import RethBsc.Precompiles.CometBftPanic

/-!
# What an accepted light block is bound to

A light client must not follow a block whose validator set is not the one its header names, or
whose commit is for another header.  `apply_light_block` compares the header's `validators_hash`
with the hash recorded in the prior state, and it counts signatures of the set the block carries;
it hashes neither the carried set nor the header.

* `LightBlock.Bound` is the binding that an accepted block should have.
* `OverlapCountsSignatures` is what `has_sufficient_validators_overlap` decides: whether enough of
  the power of the set it is *given* signed the commit's vote.
* `forgedBlock` is a block for the next height, signed by a key of the forger's own.
* `applyLightBlock_binds_iff`: a prior state is safe from such a block only if no block can follow
  it at all.
-/

namespace RethBsc.CometBft

open Rust Rust.Outcome

/-! ## Signatures -/

/-- What the signatures of a commit are over. -/
structure CanonicalVote where
  chainId : Bytes
  height : UInt64
  blockIdHash : Hash
  deriving DecidableEq

def SignedHeader.vote (sh : SignedHeader) : CanonicalVote :=
  ⟨sh.header.chainId, sh.commit.height, sh.commit.blockIdHash⟩

/-- Signature verification: key, vote, signature bytes. -/
abbrev Verify := PublicKey → CanonicalVote → Bytes → Bool

/-- `v` signed the commit of `sh`. -/
def Validator.signed (verify : Verify) (sh : SignedHeader) (v : Validator) : Bool :=
  sh.commit.signatures.any fun s => s.pubKey == v.pubKey && verify v.pubKey sh.vote s.signature

def ValidatorSet.totalPower (vs : ValidatorSet) : Nat :=
  (vs.validators.map fun v => v.power.toNat).sum

def ValidatorSet.signedPower (verify : Verify) (sh : SignedHeader) (vs : ValidatorSet) : Nat :=
  ((vs.validators.filter (Validator.signed verify sh)).map fun v => v.power.toNat).sum

/-- `TrustThresholdFraction::is_enough_power`. -/
def TrustThreshold.isEnoughPower : TrustThreshold → Nat → Nat → Bool
  | .oneThird, signed, total => signed * 3 > total
  | .twoThirds, signed, total => signed * 3 > total * 2

variable {σ ν : Type}

/-- `has_sufficient_validators_overlap` counts the valid signatures of the set it is given, and
looks at nothing else. -/
def OverlapCountsSignatures (crates : Crates σ ν) (verify : Verify) : Prop :=
  ∀ sh vs threshold, crates.hasSufficientValidatorsOverlap sh vs threshold
    = threshold.isEnoughPower (vs.signedPower verify sh) vs.totalPower

/-- The holder of `key` can sign any vote. -/
def CanSign (verify : Verify) (key : PublicKey) : Prop :=
  ∀ vote, ∃ signature, verify key vote signature = true

/-! ## Binding -/

/-- The values a light block can have: the chain id is one `cometbft` accepts, the height is a
non-negative `i64`, and header and commit have the same height. -/
structure LightBlock.Representable (validChainId : Bytes → Prop) (lb : LightBlock) : Prop where
  chainId : validChainId lb.signedHeader.header.chainId
  height : lb.height.toNat < 2 ^ 63
  sameHeight : lb.signedHeader.commit.height = lb.signedHeader.header.height

/-- The block carries the set its header names, its commit is for its header, and at the height
next to `cs` the counted set is the one whose hash `cs` recorded. -/
structure LightBlock.Bound (crates : Crates σ ν) (headerHash : TmHeader → Hash)
    (cs : ConsensusState) (lb : LightBlock) : Prop where
  validators : crates.validatorSetHash lb.validators = lb.signedHeader.header.validatorsHash
  commit : lb.signedHeader.commit.blockIdHash = headerHash lb.signedHeader.header
  adjacent : cs.height + 1 = lb.height →
    (crates.validatorSetHash lb.validators).asBytes = cs.nextValidatorSetHash

/-- `apply_light_block` accepts the block. -/
def ConsensusState.Accepts (crates : Crates σ ν) (cs : ConsensusState) (lb : LightBlock) : Prop :=
  ∃ r, cs.applyLightBlock crates lb = .ok r

variable {crates : Crates σ ν} {cs : ConsensusState}

theorem ConsensusState.accepts_iff {lb : LightBlock} :
    cs.Accepts crates lb ↔ cs.Extends crates lb := by
  simp [ConsensusState.Accepts, Prod.exists, ConsensusState.applyLightBlock_eq_ok]

/-! ## The forged block -/

/-- A validator set of one key. -/
def soleValidator (key : PublicKey) : ValidatorSet := ⟨[⟨key, 1, [], []⟩]⟩

/-- A block for the height after `cs`: the header repeats the recorded hash, the carried set is
the forger's own key, and that key signs the commit. -/
def forgedBlock (cs : ConsensusState) (recorded : Hash) (key : PublicKey)
    (signature : Bytes) : LightBlock :=
  ⟨⟨⟨cs.chainId, cs.height + 1, recorded, .none, []⟩,
    ⟨cs.height + 1, .none, [⟨key, signature⟩]⟩⟩, soleValidator key, soleValidator key⟩

/-- The forger's set has all of its power behind the commit. -/
theorem forgedBlock_signed {verify : Verify} (hoverlap : OverlapCountsSignatures crates verify)
    {recorded : Hash} {key : PublicKey} {signature : Bytes}
    (hsig : verify key ⟨cs.chainId, cs.height + 1, .none⟩ signature = true) :
    crates.hasSufficientValidatorsOverlap (forgedBlock cs recorded key signature).signedHeader
      (soleValidator key) .twoThirds = true := by
  have hsigned : Validator.signed verify (forgedBlock cs recorded key signature).signedHeader
      ⟨key, 1, [], []⟩ = true := by
    simp [Validator.signed, forgedBlock, SignedHeader.vote, hsig]
  have hpower : (soleValidator key).signedPower verify
      (forgedBlock cs recorded key signature).signedHeader = 1 := by
    simp [soleValidator, ValidatorSet.signedPower, hsigned]
  rw [hoverlap, hpower]
  rfl

theorem forgedBlock_extends {verify : Verify} (hoverlap : OverlapCountsSignatures crates verify)
    {recorded : Hash} {key : PublicKey} {signature : Bytes} (hheight : cs.height.toNat + 1 < 2 ^ 63)
    (hrecorded : cs.nextValidatorSetHash = recorded.asBytes)
    (hsig : verify key ⟨cs.chainId, cs.height + 1, .none⟩ signature = true) :
    cs.Extends crates (forgedBlock cs recorded key signature) := by
  refine ⟨?_, rfl, fun _ => hrecorded, fun hne => absurd rfl hne, forgedBlock_signed hoverlap hsig⟩
  show cs.height < cs.height + 1
  rw [UInt64.lt_iff_toNat_lt, UInt64.toNat_add]
  simp only [UInt64.reduceToNat]
  omega

/-- **No prior state that can be followed is safe.** Whatever the state, as long as some light
block can follow it, `apply_light_block` accepts one whose validator set is not the one named by
its header.  The forger needs two keys whose one-validator sets hash differently.  `recorded` is
the hash whose bytes the state keeps: decoding a state and applying a block both store one. -/
theorem applyLightBlock_binds_iff (crates : Crates σ ν) (headerHash : TmHeader → Hash)
    (validChainId : Bytes → Prop) (verify : Verify) (key key' : PublicKey) (cs : ConsensusState)
    (recorded : Hash) (hoverlap : OverlapCountsSignatures crates verify) (hkey : CanSign verify key)
    (hkey' : CanSign verify key') (hne : crates.validatorSetHash (soleValidator key)
      ≠ crates.validatorSetHash (soleValidator key'))
    (hrecorded : cs.nextValidatorSetHash = recorded.asBytes) :
    (∀ lb : LightBlock, lb.Representable validChainId → cs.Accepts crates lb →
        lb.Bound crates headerHash cs) ↔
      (2 ^ 63 ≤ cs.height.toNat + 1 ∨ ¬ validChainId cs.chainId) := by
  constructor
  · intro hbound
    by_contra hcan
    rw [not_or, not_le, not_not] at hcan
    obtain ⟨hheight, hchain⟩ := hcan
    -- both forged blocks are accepted, so both sets would have the hash the header repeats
    have hforged : ∀ k, CanSign verify k →
        crates.validatorSetHash (soleValidator k) = recorded := by
      intro k hk
      obtain ⟨signature, hsig⟩ := hk ⟨cs.chainId, cs.height + 1, .none⟩
      have hext : cs.Extends crates (forgedBlock cs recorded k signature) :=
        forgedBlock_extends hoverlap hheight hrecorded hsig
      have hrep : (forgedBlock cs recorded k signature).Representable validChainId := by
        refine ⟨hchain, ?_, rfl⟩
        show (cs.height + 1).toNat < 2 ^ 63
        simp
        omega
      exact (hbound _ hrep (ConsensusState.accepts_iff.mpr hext)).validators
    exact hne ((hforged key hkey).trans (hforged key' hkey').symm)
  · rintro hcan lb ⟨hchain, hheight, -⟩ hacc
    have hext := ConsensusState.accepts_iff.mp hacc
    rcases hcan with hmax | hchain'
    · exact absurd (UInt64.lt_iff_toNat_lt.mp hext.higher) (by omega)
    · exact absurd (hext.sameChain ▸ hchain) hchain'

/-! ### One forged block

Keys sign with their own bytes here, and a set hashes to its first key: enough for the two sets
of the forger to differ. -/

def byteKey (b : UInt8) : PublicKey := .repeatByte 32 b

def bytesVerify : Verify := fun key _ signature => signature == key.val

def bytesCrates : Crates Unit Unit where
  merge _ := none
  signedHeaderTryFrom _ := none
  setTryFrom _ := none
  fromRawEd25519 _ := none
  withoutProposer validators := ⟨validators⟩
  hasSufficientValidatorsOverlap sh vs threshold :=
    threshold.isEnoughPower (vs.signedPower bytesVerify sh) vs.totalPower
  validatorSetHash vs := (vs.validators.head?.elim .none fun v => .sha256 v.pubKey)

/-- A state at height 5 whose next validator set hashes to `07…07`. -/
def heightFive : ConsensusState :=
  ⟨[103, 102], 5, (byteKey 7).val, soleValidator (byteKey 7)⟩

/-- The forger's key `09…09` is accepted at height 6, in the name of `07…07`. -/
theorem heightFive_accepts_forged :
    heightFive.Accepts bytesCrates
        (forgedBlock heightFive (.sha256 (byteKey 7)) (byteKey 9) (byteKey 9).val) ∧
      ¬ (forgedBlock heightFive (.sha256 (byteKey 7)) (byteKey 9) (byteKey 9).val).Bound
        bytesCrates (fun _ => .none) heightFive := by
  refine ⟨⟨_, rfl⟩, fun hbound => ?_⟩
  exact absurd hbound.validators (by decide)

theorem heightFive_not_safe :
    ¬ ∀ lb : LightBlock, lb.Representable (fun _ => True) → heightFive.Accepts bytesCrates lb →
      lb.Bound bytesCrates (fun _ => .none) heightFive := by
  rw [applyLightBlock_binds_iff bytesCrates (fun _ => .none) (fun _ => True) bytesVerify
    (byteKey 8) (byteKey 9) heightFive (.sha256 (byteKey 7)) (fun _ _ _ => rfl)
    (fun _ => ⟨_, beq_self_eq_true _⟩)
    (fun _ => ⟨_, beq_self_eq_true _⟩) (by decide) rfl]
  decide

end RethBsc.CometBft
