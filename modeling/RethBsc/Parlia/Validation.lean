import RethBsc.Parlia.BackOff

/-!
# Header validation and block times along a chain

`validate_header` of `src/consensus/parlia/validation.rs` and `validate_header_against_parent` of
`src/node/consensus.rs`.

All time checks compare `calculate_millisecond_timestamp`, which the proposer can raise through
`mix_hash` without touching the seconds; the fork predicates read the seconds.

* `ParentChecks` are the checks of other crates that `validate_header_against_parent` calls.
* `Accepts` is one validated step, `AcceptedChain` a run of them.
* `AcceptedChain.le` is the run lemma: seconds do not decrease while every header of the run
  `KeepsSeconds`; `acceptedChain_forks_persist` draws the conclusion for the forks.
* `seconds_go_back` is a chain on which they do decrease.
* `accepted_past_iff_noWrap`: an accepted header is not from the future unless its block time
  wrapped.
-/

namespace RethBsc

open Rust

/-- The variants of `ConsensusError` used here. -/
inductive ConsensusError where
  | timestampIsInFuture (timestamp presentTimestamp : UInt64)
  | timestampIsInPast (parentTimestamp timestamp : UInt64)
  | bodyOmmersHashDiff (got expected : B256)
  | headerGasUsedExceedsGasLimit (gasUsed gasLimit : UInt64)
  | baseFeeMissing
  | blobGasUsedMissing
  | excessBlobGasMissing
  | blobGasUsedExceedsMaxBlobGasPerBlock (blobGasUsed maxBlobGasPerBlock : UInt64)
  | blobGasUsedNotMultipleOfBlobGasPerBlob (blobGasUsed blobGasPerBlob : UInt64)
  | blobGasUsedUnexpected
  | excessBlobGasUnexpected
  | parentBeaconBlockRootUnexpected
  | parentBlockNumberMismatch (parentBlockNumber blockNumber : UInt64)
  | parentHashMismatch (got expected : B256)
  | bodyTransactionRootDiff (got expected : B256)
  | bodyWithdrawalsRootDiff (got expected : B256)
  | withdrawalsRootUnexpected
  | blobGasUsedDiff (got expected : UInt64)
  | other (message : String)
  deriving DecidableEq

/-- The Keccak hash of an empty RLP list. -/
def emptyOmmerRootHash : B256 :=
  ⟨[0x1d, 0xcc, 0x4d, 0xe8, 0xde, 0xc7, 0x5d, 0x7a, 0xab, 0x85, 0xb5, 0x67, 0xb6, 0xcc, 0xd4, 0x1a,
    0xd3, 0x12, 0x45, 0x1b, 0x94, 0x8a, 0x74, 0x13, 0xf0, 0xa1, 0x42, 0xfd, 0x40, 0xd4, 0x93, 0x47],
    rfl⟩

def dataGasPerBlob : UInt64 := 131072
def maxDataGasPerBlockDencun : UInt64 := 786432

def validateHeaderGas (h : Header) : Except ConsensusError Unit :=
  if h.gasUsed > h.gasLimit then .error (.headerGasUsedExceedsGasLimit h.gasUsed h.gasLimit)
  else .ok ()

def validateHeaderBaseFee (h : Header) (spec : ChainSpec) : Except ConsensusError Unit :=
  if spec.isLondonActiveAtBlock h.number && h.baseFeePerGas.isNone then .error .baseFeeMissing
  else .ok ()

def validate4844HeaderOfBsc (h : Header) : Except ConsensusError Unit :=
  match h.blobGasUsed, h.excessBlobGas with
  | none, _ => .error .blobGasUsedMissing
  | some _, none => .error .excessBlobGasMissing
  | some blobGasUsed, some excessBlobGas =>
    if blobGasUsed > maxDataGasPerBlockDencun then
      .error (.blobGasUsedExceedsMaxBlobGasPerBlock blobGasUsed maxDataGasPerBlockDencun)
    else if blobGasUsed % dataGasPerBlob ≠ 0 then
      .error (.blobGasUsedNotMultipleOfBlobGasPerBlob blobGasUsed dataGasPerBlob)
    else if excessBlobGas % dataGasPerBlob ≠ 0 then
      .error (.blobGasUsedNotMultipleOfBlobGasPerBlob excessBlobGas dataGasPerBlob)
    else .ok ()

/-- The blob fields: required from Cancun on, refused before. -/
def validateBlobFields (spec : ChainSpec) (h : Header) : Except ConsensusError Unit :=
  if spec.isCancunActiveAtTimestamp h.number h.timestamp then validate4844HeaderOfBsc h
  else if h.blobGasUsed.isSome then .error .blobGasUsedUnexpected
  else if h.excessBlobGas.isSome then .error .excessBlobGasUnexpected
  else .ok ()

/-- The parent beacon block root: zero from Bohr on, absent before. -/
def validateParentBeaconBlockRoot (spec : ChainSpec) (h : Header) : Except ConsensusError Unit :=
  if spec.isBohrActiveAtTimestamp h.number h.timestamp then
    if h.parentBeaconBlockRoot ≠ some .zero then .error .parentBeaconBlockRootUnexpected
    else .ok ()
  else if h.parentBeaconBlockRoot.isSome then .error .parentBeaconBlockRootUnexpected
  else .ok ()

/-- `Parlia::validate_header` when the clock shows `presentTimestamp` milliseconds. -/
def Parlia.validateHeader (p : Parlia) (presentTimestamp : UInt64) (h : Header) :
    Except ConsensusError Unit := do
  let headerTimestamp := calculateMillisecondTimestamp h
  if headerTimestamp > presentTimestamp then
    throw (.timestampIsInFuture headerTimestamp presentTimestamp)
  match p.checkHeaderExtra h with
  | .error e => throw (.other ("Invalid header extra: " ++ e.message))
  | .ok () => pure ()
  if h.ommersHash ≠ emptyOmmerRootHash then
    throw (.bodyOmmersHashDiff h.ommersHash emptyOmmerRootHash)
  validateHeaderGas h
  validateHeaderBaseFee h p.spec
  validateBlobFields p.spec h
  validateParentBeaconBlockRoot p.spec h

/-- `validate_header` accepts when the block time has come and each check passes; the clock is read
for the block time only. -/
theorem validateHeader_eq_ok {p : Parlia} {now : UInt64} {h : Header} :
    p.validateHeader now h = .ok () ↔
      calculateMillisecondTimestamp h ≤ now ∧ p.checkHeaderExtra h = .ok () ∧
      h.ommersHash = emptyOmmerRootHash ∧ validateHeaderGas h = .ok () ∧
      validateHeaderBaseFee h p.spec = .ok () ∧ validateBlobFields p.spec h = .ok () ∧
      validateParentBeaconBlockRoot p.spec h = .ok () := by
  unfold Parlia.validateHeader
  dsimp only
  rw [throw_if_eq_ok, gt_iff_lt, UInt64.not_lt]
  refine and_congr_right fun _ => ?_
  cases p.checkHeaderExtra h with
  | error e => exact ⟨fun haccept => (nomatch haccept), fun hchecks => (nomatch hchecks.1)⟩
  | ok u =>
    dsimp only
    rw [throw_if_eq_ok, ne_eq, not_not]
    simp only [except_seq_eq_ok, true_and]

/-! ## Blocks from the future -/

/-- **No block from the future, if the block time did not wrap.**  Of a header that can be accepted
at all, the seconds are in the past whenever it is accepted exactly when its block time fits in a
`u64`: a wrapped block time is smaller than the seconds it was computed from. -/
theorem accepted_past_iff_noWrap (p : Parlia) (h : Header)
    (haccepted : ∃ now, p.validateHeader now h = .ok ()) :
    (∀ now, p.validateHeader now h = .ok () → h.timestamp.toNat * 1000 ≤ now.toNat) ↔
      h.NoWrap := by
  obtain ⟨now₀, hvalid⟩ := haccepted
  obtain ⟨-, hchecks⟩ := validateHeader_eq_ok.mp hvalid
  have htime := toNat_calculateMillisecondTimestamp h
  constructor
  · intro hpast
    -- the header is accepted at its own block time
    have hnow := hpast (calculateMillisecondTimestamp h)
      (validateHeader_eq_ok.mpr ⟨UInt64.le_rfl, hchecks⟩)
    have hms := h.millisecondPart.toNat_lt
    unfold Header.NoWrap
    omega
  · intro hwrap now hnow
    have hle := UInt64.le_iff_toNat_le.mp (validateHeader_eq_ok.mp hnow).1
    unfold Header.NoWrap at hwrap
    omega

/-- What `validate_header_against_parent` takes from other crates: the check of number and parent
hash, the blob schedule, and the check of the blob fields against the parent. -/
structure ParentChecks where
  BlobParams : Type
  validateAgainstParentHashNumber : Header → Header → Except ConsensusError Unit
  blobParamsAtTimestamp : UInt64 → Option BlobParams
  validateAgainstParent4844 : Header → Header → BlobParams → Except ConsensusError Unit

/-- `BscConsensus::validate_header_against_parent`. -/
def validateHeaderAgainstParent (checks : ParentChecks) (spec : ChainSpec) (header parent : Header) :
    Except ConsensusError Unit := do
  checks.validateAgainstParentHashNumber header parent
  let headerTs := calculateMillisecondTimestamp header
  let parentTs := calculateMillisecondTimestamp parent
  if headerTs ≤ parentTs then throw (.timestampIsInPast parentTs headerTs)
  if spec.isCancunActiveAtTimestamp header.number header.timestamp then
    match checks.blobParamsAtTimestamp header.timestamp with
    | some blobParams => checks.validateAgainstParent4844 header parent blobParams
    | none => pure ()

/-! ## Chains of accepted headers -/

/-- The number check lets a header follow its parent only at the next number. -/
def ParentChecks.ChecksNumber (checks : ParentChecks) : Prop :=
  ∀ header parent, checks.validateAgainstParentHashNumber header parent = .ok () →
    header.number = parent.number + 1

/-- `header` passes all three checks against `parent`, at some time and for some snapshot. -/
structure Accepts (checks : ParentChecks) (hashSlow : Header → B256) (p : Parlia)
    (parent header : Header) : Prop where
  valid : ∃ now, p.validateHeader now header = .ok ()
  againstParent : validateHeaderAgainstParent checks p.spec header parent = .ok ()
  blockTime : ∃ snap fuel,
    p.blockTimeVerifyForRamanujanFork hashSlow fuel snap header parent = .ok ()

/-- `b` descends from `a` over accepted headers that all satisfy `Q`. -/
inductive AcceptedChain (checks : ParentChecks) (hashSlow : Header → B256) (p : Parlia)
    (Q : Header → Prop) (a : Header) : Header → Prop
  | start (hvalid : ∃ now, p.validateHeader now a = .ok ()) (hQ : Q a) :
      AcceptedChain checks hashSlow p Q a a
  | step {parent header : Header} (hchain : AcceptedChain checks hashSlow p Q a parent)
      (haccepts : Accepts checks hashSlow p parent header) (hQ : Q header) :
      AcceptedChain checks hashSlow p Q a header

/-- The milliseconds of the header stay below a second, and neither its block time nor the next
block number wraps. -/
structure KeepsSeconds (h : Header) : Prop where
  millisecondPart : h.millisecondPart.toNat < 1000
  noWrap : h.NoWrap
  number : h.number.toNat + 1 < 2 ^ 64

instance (h : Header) : Decidable (KeepsSeconds h) :=
  decidable_of_iff (h.millisecondPart.toNat < 1000 ∧ h.NoWrap ∧ h.number.toNat + 1 < 2 ^ 64)
    ⟨fun ⟨hms, hwrap, hnumber⟩ => ⟨hms, hwrap, hnumber⟩,
      fun ⟨hms, hwrap, hnumber⟩ => ⟨hms, hwrap, hnumber⟩⟩

section Chain

variable {checks : ParentChecks} {hashSlow : Header → B256} {p : Parlia} {parent header : Header}

/-- A header that passes the parent check has the next number and a later block time. -/
theorem validateHeaderAgainstParent_eq_ok {spec : ChainSpec}
    (h : validateHeaderAgainstParent checks spec header parent = .ok ()) :
    checks.validateAgainstParentHashNumber header parent = .ok () ∧
      calculateMillisecondTimestamp parent < calculateMillisecondTimestamp header := by
  unfold validateHeaderAgainstParent at h
  cases hparent : checks.validateAgainstParentHashNumber header parent with
  | error e =>
    rw [hparent] at h
    exact absurd h (by simp [bind, Except.bind])
  | ok u =>
    refine ⟨rfl, ?_⟩
    by_contra hle
    rw [hparent] at h
    simp only [bind, Except.bind, UInt64.not_lt.mp hle] at h
    exact absurd h (by simp [throw, throwThe, MonadExceptOf.throw])

/-- One step: neither number nor seconds decrease. -/
theorem Accepts.le (hnumber : checks.ChecksNumber) (h : Accepts checks hashSlow p parent header)
    (hparent : KeepsSeconds parent) (hheader : KeepsSeconds header) :
    parent.number ≤ header.number ∧ parent.timestamp ≤ header.timestamp := by
  obtain ⟨hcheck, hlt⟩ := validateHeaderAgainstParent_eq_ok h.againstParent
  have hnext : header.number = parent.number + 1 := hnumber header parent hcheck
  refine ⟨?_, le_of_calculateMillisecondTimestamp_lt hparent.noWrap hheader.millisecondPart hlt⟩
  rw [hnext, UInt64.le_iff_toNat_le, UInt64.toNat_add, show (1 : UInt64).toNat = 1 from rfl,
    Nat.mod_eq_of_lt hparent.number]
  exact Nat.le_succ _

/-- The run: numbers and seconds do not decrease along a chain that keeps its seconds. -/
theorem AcceptedChain.le (hnumber : checks.ChecksNumber) {a b : Header}
    (h : AcceptedChain checks hashSlow p KeepsSeconds a b) :
    (a.number ≤ b.number ∧ a.timestamp ≤ b.timestamp) ∧ KeepsSeconds b := by
  induction h with
  | start _ hQ => exact ⟨⟨UInt64.le_refl _, UInt64.le_refl _⟩, hQ⟩
  | step _ haccepts hQ ih =>
    obtain ⟨⟨hn, ht⟩, hparent⟩ := ih
    obtain ⟨hn', ht'⟩ := haccepts.le hnumber hparent hQ
    exact ⟨⟨UInt64.le_trans hn hn', UInt64.le_trans ht ht'⟩, hQ⟩

/-- **Seconds and timestamp forks are monotone along a chain that keeps its seconds.** -/
theorem acceptedChain_forks_persist (checks : ParentChecks) (hashSlow : Header → B256) (p : Parlia)
    (hnumber : checks.ChecksNumber) {a b : Header}
    (h : AcceptedChain checks hashSlow p KeepsSeconds a b) :
    a.timestamp ≤ b.timestamp ∧
      ∀ fork, p.spec.isActiveAtTimestamp fork a.number a.timestamp = true →
        p.spec.isActiveAtTimestamp fork b.number b.timestamp = true := by
  obtain ⟨⟨hn, ht⟩, -⟩ := h.le hnumber
  exact ⟨ht, fun fork hactive => ChainSpec.isActiveAtTimestamp_mono hn ht hactive⟩

end Chain

/-! ### Two blocks of one validator

Feynman is scheduled for second 1000.  The parent is at second 1000.  Its child is accepted at
second 1003, and also at second 999 with 5000 milliseconds. -/

def feynmanSpec : ChainSpec where
  bscForkActivation
    | .ramanujan => .block 0
    | .feynman => .timestamp 1000
    | _ => .never
  ethereumForkActivation
    | .london => .block 0
    | _ => .never

/-- The number and parent hash check as `reth` makes it; no blob schedule. -/
def numberHashChecks : ParentChecks where
  BlobParams := Unit
  validateAgainstParentHashNumber header parent :=
    if parent.number + 1 ≠ header.number then
      .error (.parentBlockNumberMismatch parent.number header.number)
    else if numberHash parent ≠ header.parentHash then
      .error (.parentHashMismatch header.parentHash (numberHash parent))
    else .ok ()
  blobParamsAtTimestamp _ := none
  validateAgainstParent4844 _ _ _ := .ok ()

theorem numberHashChecks_checksNumber : numberHashChecks.ChecksNumber := by
  intro header parent h
  grind [numberHashChecks]

/-- A header of the lone validator, at a block that is not an epoch block. -/
def timedHeader (number timestamp milliseconds : UInt64) : Header :=
  { (default : Header) with
    parentHash := b256OfUInt64 (number - 1)
    ommersHash := emptyOmmerRootHash
    beneficiary := loneValidator
    number, timestamp
    extraData := List.replicate 97 0
    mixHash := b256OfUInt64 milliseconds
    baseFeePerGas := some 0 }

/-- The snapshot after block 1 of the lone validator. -/
def loneSnapshot : Snapshot :=
  ⟨200, 1, b256OfUInt64 1, [loneValidator], ∅, ∅, default, some 1, 3000⟩

theorem timedHeader_accepts {timestamp milliseconds : UInt64}
    (hvalid : (Parlia.ofSpec feynmanSpec).validateHeader 2000000
      (timedHeader 2 timestamp milliseconds) = .ok ())
    (hparent : validateHeaderAgainstParent numberHashChecks feynmanSpec
      (timedHeader 2 timestamp milliseconds) (timedHeader 1 1000 0) = .ok ())
    (htime : (Parlia.ofSpec feynmanSpec).blockTimeVerifyForRamanujanFork numberHash 0 loneSnapshot
      (timedHeader 2 timestamp milliseconds) (timedHeader 1 1000 0) = .ok ()) :
    Accepts numberHashChecks numberHash (Parlia.ofSpec feynmanSpec) (timedHeader 1 1000 0)
      (timedHeader 2 timestamp milliseconds) :=
  ⟨⟨_, hvalid⟩, hparent, _, _, htime⟩

theorem seconds_go_back :
    AcceptedChain numberHashChecks numberHash (Parlia.ofSpec feynmanSpec) (fun _ => True)
        (timedHeader 1 1000 0) (timedHeader 2 999 5000) ∧
      (timedHeader 2 999 5000).timestamp < (timedHeader 1 1000 0).timestamp ∧
      feynmanSpec.isFeynmanActiveAtTimestamp 1 1000 = true ∧
      feynmanSpec.isFeynmanActiveAtTimestamp 2 999 = false := by
  refine ⟨.step (.start ⟨2000000, by decide +kernel⟩ trivial) (timedHeader_accepts
    (by decide +kernel) (by decide +kernel) (by decide +kernel)) trivial, ?_⟩
  decide

/-- A block of second `2 ^ 61` is accepted now: its milliseconds are a multiple of `2 ^ 64`. -/
theorem far_future_accepted :
    (Parlia.ofSpec feynmanSpec).validateHeader 2000000 (timedHeader 2 2305843009213693952 0)
        = .ok () ∧
      ¬ (timedHeader 2 2305843009213693952 0).timestamp.toNat * 1000 ≤ (2000000 : UInt64).toNat := by
  decide +kernel

theorem present_block_past :
    (timedHeader 2 1003 0).timestamp.toNat * 1000 ≤ (2000000 : UInt64).toNat :=
  (accepted_past_iff_noWrap (.ofSpec feynmanSpec) (timedHeader 2 1003 0)
    ⟨2000000, by decide +kernel⟩).mpr (by decide +kernel) 2000000 (by decide +kernel)

theorem feynman_persists :
    feynmanSpec.isActiveAtTimestamp .feynman (timedHeader 2 1003 0).number
      (timedHeader 2 1003 0).timestamp = true :=
  (acceptedChain_forks_persist numberHashChecks numberHash (Parlia.ofSpec feynmanSpec)
    numberHashChecks_checksNumber
    (.step (.start ⟨2000000, by decide +kernel⟩ (by decide +kernel)) (timedHeader_accepts
      (by decide +kernel) (by decide +kernel) (by decide +kernel)) (by decide +kernel) :
      AcceptedChain _ _ _ KeepsSeconds (timedHeader 1 1000 0) (timedHeader 2 1003 0))).2
    .feynman (by decide)

end RethBsc
