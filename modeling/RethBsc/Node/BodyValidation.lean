import RethBsc.Miner.Assembler

/-!
# Validation of a block body

A block passes three stages before it is executed: `validate_header`,
`validate_body_against_header` and `validate_block_pre_execution`.  The second is that of
`EthBeaconConsensus` and compares roots; the third, in `src/consensus/parlia/validation.rs`, is
where the blob gas of the transactions is to be compared with the header.

* `Accepted`: the three stages together.
* `accepted_declare`: the stages accept any declared number of blobs with any body.
* **`accepted_with_other_blobGas`**: so no body is safe.  Each one that is accepted is also accepted
  under a header whose blob gas is not that of its transactions.
-/

namespace RethBsc

open Rust

/-- The hashes of ommers and withdrawals, computed by other crates. -/
structure BodyRoots where
  ommersRoot : List Header → B256
  withdrawalsRoot : List Withdrawal → B256

section Stages

variable {codec : BlockCodec} (roots : BodyRoots) (p : Parlia) (block : BscBlock codec)

/-- `BscConsensus::validate_body_against_header`, which is that of `EthBeaconConsensus`. -/
def validateBodyAgainstHeader : Except ConsensusError Unit :=
  let header := block.header
  if header.ommersHash ≠ roots.ommersRoot block.ommers then
    .error (.bodyOmmersHashDiff (roots.ommersRoot block.ommers) header.ommersHash)
  else if header.transactionsRoot ≠ codec.transactionRoot block.transactions then
    .error (.bodyTransactionRootDiff (codec.transactionRoot block.transactions)
      header.transactionsRoot)
  else
    match header.withdrawalsRoot, block.withdrawals.map roots.withdrawalsRoot with
    | some expected, some got =>
      if got ≠ expected then .error (.bodyWithdrawalsRootDiff got expected) else .ok ()
    | none, none => .ok ()
    | _, _ => .error .withdrawalsRootUnexpected

/-- The blob gas check.  Both sides are read from the header. -/
def validateBlobGas : Except ConsensusError Unit :=
  match block.header.blobGasUsed with
  | none => .error .blobGasUsedMissing
  | some headerBlobGasUsed =>
    match block.header.blobGasUsed with
    | none => .error .blobGasUsedMissing
    | some totalBlobGas =>
      if totalBlobGas ≠ headerBlobGasUsed then
        .error (.blobGasUsedDiff headerBlobGasUsed totalBlobGas)
      else .ok ()

/-- `Parlia::validate_block_pre_execution`. -/
def Parlia.validateBlockPreExecution : Except ConsensusError Unit :=
  if codec.transactionRoot block.transactions ≠ block.header.transactionsRoot then
    .error (.bodyTransactionRootDiff (codec.transactionRoot block.transactions)
      block.header.transactionsRoot)
  else if p.spec.isCancunActiveAtTimestamp block.header.number block.header.timestamp then
    validateBlobGas block
  else .ok ()

/-- The block passes the three stages when the clock shows `now`. -/
structure Accepted (now : UInt64) : Prop where
  header : p.validateHeader now block.header = .ok ()
  body : validateBodyAgainstHeader roots block = .ok ()
  preExecution : p.validateBlockPreExecution block = .ok ()

end Stages

/-! ## Blob gas -/

section BlobGas

variable {codec : BlockCodec} (blobVersionedHashes : codec.Tx → List B256)

/-- The header's blob gas is the sum of the transactions' blob gas. -/
def BlobGasMatches (block : BscBlock codec) : Prop :=
  ∃ gas, block.header.blobGasUsed = some gas ∧
    gas.toNat = (block.transactions.map fun tx =>
      dataGasPerBlob.toNat * (blobVersionedHashes tx).length).sum

/-- The same block with another number of blobs declared. -/
def BscBlock.declare (block : BscBlock codec) (blobs : Nat) : BscBlock codec :=
  { block with header := { block.header with
      blobGasUsed := some (UInt64.ofNat (dataGasPerBlob.toNat * blobs)) } }

variable {blobVersionedHashes} {roots : BodyRoots} {p : Parlia} {block : BscBlock codec}
  {now : UInt64}

theorem validate4844HeaderOfBsc_eq_ok {h : Header} :
    validate4844HeaderOfBsc h = .ok () ↔
      ∃ gas excess, h.blobGasUsed = some gas ∧ h.excessBlobGas = some excess ∧
        gas ≤ maxDataGasPerBlockDencun ∧ gas % dataGasPerBlob = 0 ∧ excess % dataGasPerBlob = 0 := by
  unfold validate4844HeaderOfBsc
  cases h.blobGasUsed with
  | none => simp
  | some gas =>
    cases h.excessBlobGas with
    | none => simp
    | some excess =>
      simp only [Option.some.injEq, gt_iff_lt]
      split
      · next hmax => simp [UInt64.not_le.mpr hmax]
      · next hmax =>
        rw [UInt64.not_lt] at hmax
        split
        · next hmod => simp [hmod]
        · next hmod =>
          split
          · next hexcess => simp [hexcess]
          · next hexcess => simpa [hmax] using ⟨not_not.mp hmod, not_not.mp hexcess⟩

/-- The blob gas that up to six blobs make. -/
theorem toNat_blobGas {blobs : Nat} (h : blobs ≤ 6) :
    (UInt64.ofNat (dataGasPerBlob.toNat * blobs)).toNat = 131072 * blobs := by
  rw [UInt64.toNat_ofNat', show dataGasPerBlob.toNat = 131072 from rfl]
  omega

/-- **The stages do not look at the number of blobs.**  If a block is accepted, so is the same body
under a header that declares any other number of blobs up to six. -/
theorem accepted_declare (hcancun : p.spec.isCancunActiveAtTimestamp block.header.number
      block.header.timestamp = true) (h : Accepted roots p block now) {blobs : Nat}
    (hblobs : blobs ≤ 6) : Accepted roots p (block.declare blobs) now := by
  obtain ⟨htime, hextra, hommers, hgas, hfee, hblob, hbeacon⟩ := validateHeader_eq_ok.mp h.header
  have hgas' := toNat_blobGas hblobs
  have hcancun' : p.spec.isCancunActiveAtTimestamp (block.declare blobs).header.number
      (block.declare blobs).header.timestamp = true := hcancun
  refine ⟨validateHeader_eq_ok.mpr ⟨htime, hextra, hommers, hgas, hfee, ?_, hbeacon⟩, h.body, ?_⟩
  · unfold validateBlobFields at hblob ⊢
    rw [if_pos hcancun] at hblob
    rw [if_pos hcancun']
    obtain ⟨-, excess, -, hexcess, -, -, hmod⟩ := validate4844HeaderOfBsc_eq_ok.mp hblob
    refine validate4844HeaderOfBsc_eq_ok.mpr ⟨_, excess, rfl, hexcess, ?_, ?_, hmod⟩
    · rw [UInt64.le_iff_toNat_le, hgas', show maxDataGasPerBlockDencun.toNat = 786432 from rfl]
      omega
    · rw [← UInt64.toNat_inj, UInt64.toNat_mod, hgas', show dataGasPerBlob.toNat = 131072 from rfl]
      exact Nat.mul_mod_right _ _
  · have hpre := h.preExecution
    unfold Parlia.validateBlockPreExecution at hpre ⊢
    split at hpre
    · simp at hpre
    · simp_all [validateBlobGas, BscBlock.declare]

/-- The blob gas of a body is one number, so two headers that declare different numbers of blobs do
not both tell it. -/
theorem BlobGasMatches.declare_unique {blobs blobs' : Nat} (hblobs : blobs ≤ 6)
    (hblobs' : blobs' ≤ 6) (h : BlobGasMatches blobVersionedHashes (block.declare blobs))
    (h' : BlobGasMatches blobVersionedHashes (block.declare blobs')) : blobs = blobs' := by
  obtain ⟨gas, hgas, hsum⟩ := h
  obtain ⟨gas', hgas', hsum'⟩ := h'
  cases hgas
  cases hgas'
  rw [toNat_blobGas hblobs] at hsum
  rw [toNat_blobGas hblobs'] at hsum'
  have hsame : 131072 * blobs = 131072 * blobs' := hsum.trans hsum'.symm
  omega

/-- **The declared blob gas is never checked.**  For every accepted block, headers with any number of
blobs from none to six are accepted with the same body, and one of these headers does not tell the
blob gas of the body. -/
theorem accepted_with_other_blobGas (roots : BodyRoots) (p : Parlia) (now : UInt64)
    (blobVersionedHashes : codec.Tx → List B256) (block : BscBlock codec)
    (hcancun : p.spec.isCancunActiveAtTimestamp block.header.number block.header.timestamp = true)
    (haccepted : Accepted roots p block now) :
    (∀ blobs ≤ 6, Accepted roots p (block.declare blobs) now) ∧
    ∃ block' : BscBlock codec, block'.transactions = block.transactions ∧
      block'.ommers = block.ommers ∧ block'.withdrawals = block.withdrawals ∧
      p.spec.isCancunActiveAtTimestamp block'.header.number block'.header.timestamp = true ∧
      Accepted roots p block' now ∧ ¬ BlobGasMatches blobVersionedHashes block' := by
  have hdeclare : ∀ blobs ≤ 6, Accepted roots p (block.declare blobs) now :=
    fun blobs hblobs => accepted_declare hcancun haccepted hblobs
  refine ⟨hdeclare, ?_⟩
  -- a header that declares nothing will do, unless the body has no blobs
  by_cases hnone : BlobGasMatches blobVersionedHashes (block.declare 0)
  · refine ⟨block.declare 1, rfl, rfl, rfl, hcancun, hdeclare 1 (by decide), fun hone => ?_⟩
    exact absurd (hnone.declare_unique (by decide) (by decide) hone) (by decide)
  · exact ⟨block.declare 0, rfl, rfl, rfl, hcancun, hdeclare 0 (by decide), hnone⟩

end BlobGas

/-! ### One blob that the header does not declare -/

def cancunSpec : ChainSpec where
  bscForkActivation
    | .cancun => .timestamp 0
    | _ => .never
  ethereumForkActivation
    | .london => .block 0
    | _ => .never

/-- Transactions that are nothing but their blob hashes; a root that counts them. -/
def blobCodec : BlockCodec where
  Tx := List B256
  Receipt := Unit
  transactionRoot txs := b256OfUInt64 (UInt64.ofNat txs.length)
  receiptRoot _ := .zero
  logsBloom _ := .zero
  blobGasUsed tx := some (UInt64.ofNat (131072 * tx.length))

def emptyBodyRoots : BodyRoots where
  ommersRoot _ := emptyOmmerRootHash
  withdrawalsRoot _ := emptyWithdrawalsHash

/-- A block whose only transaction carries one blob. -/
def oneBlobBlock (declared : UInt64) : BscBlock blobCodec where
  header :=
    { timedHeader 2 1000 0 with
      transactionsRoot := b256OfUInt64 1
      blobGasUsed := some declared
      excessBlobGas := some 0
      withdrawalsRoot := some emptyWithdrawalsHash }
  transactions := [[.repeatByte 32 1]]
  ommers := []
  withdrawals := some []

/-- The header declares no blob, and the block is accepted. -/
theorem undeclared_blob_accepted :
    cancunSpec.isCancunActiveAtTimestamp (oneBlobBlock 0).header.number
        (oneBlobBlock 0).header.timestamp = true ∧
      Accepted emptyBodyRoots (.ofSpec cancunSpec) (oneBlobBlock 0) 2000000 ∧
      ¬ BlobGasMatches id (oneBlobBlock 0) := by
  refine ⟨by decide, ⟨by decide +kernel, by decide +kernel, by decide +kernel⟩, ?_⟩
  rintro ⟨gas, hgas, hsum⟩
  cases hgas
  exact absurd hsum (by decide)

/-- The header of this block declares its one blob; other headers with its body do not. -/
theorem declared_blob_other_accepted :
    BlobGasMatches id (oneBlobBlock 131072) ∧
    ∃ block : BscBlock blobCodec, block.transactions = (oneBlobBlock 131072).transactions ∧
      Accepted emptyBodyRoots (.ofSpec cancunSpec) block 2000000 ∧
      ¬ BlobGasMatches id block := by
  obtain ⟨-, block, hbody, -, -, -, haccepted, hgas⟩ :=
    accepted_with_other_blobGas emptyBodyRoots (.ofSpec cancunSpec) 2000000 id
      (oneBlobBlock 131072) (by decide) ⟨by decide +kernel, by decide +kernel, by decide +kernel⟩
  exact ⟨⟨131072, rfl, by decide⟩, block, hbody, haccepted, hgas⟩

end RethBsc
