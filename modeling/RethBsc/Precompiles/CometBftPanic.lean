import RethBsc.Precompiles.CometBft

/-!
# When the light-block precompile panics

Each stage of the precompile relies on lengths or on presence that an earlier stage may or may
not have checked.

* Decoding is safe for every input: `decodeLightBlockValidationInput_returns`.
* Converting unwraps the two submessages of the protobuf: `convertLightBlockFromProto_returns`.
* Applying never panics, and accepts exactly the blocks of `ConsensusState.Extends`.
* Encoding copies the relayer address, the BLS key and the next validator-set hash into fields of
  fixed width: `ConsensusState.encode_returns`.

`cometbftLightBlockValidationRunInner_returns` puts the four together: the run returns exactly on
the inputs of `SafeLightBlock`.
-/

namespace RethBsc.CometBft

open Rust Rust.Outcome

variable {σ ν : Type} {crates : Crates σ ν}

/-! ## Decoding -/

theorem decodeValidator_returns {validator : Bytes}
    (hlen : validator.length = singleValidatorBytesLength) :
    (decodeValidator crates validator).Returns := by
  have h108 : validator.length = 108 := hlen
  unfold decodeValidator
  simp only [validatorPubkeyLength, validatorVotingPowerLength, relayerAddressLength]
  rw [slice_of_le (by omega) (by omega), ok_bind,
    fromBeSlice_of_length (by rw [length_take_drop (by omega)]), ok_bind,
    slice_of_le (by omega) (by omega), ok_bind, sliceFrom_of_le (by omega), ok_bind,
    slice_of_le (by omega) (by omega), ok_bind]
  simp [returns_bind]

theorem decodeConsensusState_returns (input : Bytes) :
    (decodeConsensusState crates input).Returns := by
  unfold decodeConsensusState
  simp only
  split
  · simp
  · next hshape =>
    rw [not_or, not_le, not_not] at hshape
    obtain ⟨hmin, hmul⟩ := hshape
    simp only [chainIdLength, heightLength, validatorSetHashLength] at hmin hmul ⊢
    rw [slice_of_le (by omega) (by omega), ok_bind,
      slice_of_le (by omega) (by omega), ok_bind,
      fromBeSlice_of_length (by rw [length_take_drop (by omega)]), ok_bind,
      slice_of_le (by omega) (by omega), ok_bind, sliceFrom_of_le (by omega), ok_bind]
    refine returns_bind.mpr ⟨returns_mapM fun i hi => ?_, fun _ _ => returns_ok _⟩
    -- the length check makes the validator section a whole number of records
    have hi : i < (input.length - (32 + 8 + 32)) / singleValidatorBytesLength :=
      List.mem_range.mp hi
    have hbytes : (i + 1) * singleValidatorBytesLength ≤ (input.drop (32 + 8 + 32)).length := by
      rw [List.length_drop]
      exact le_trans (Nat.mul_le_mul_right _ hi) (Nat.div_mul_le_self _ _)
    rw [slice_of_le (Nat.mul_le_mul_right _ (Nat.le_succ i)) hbytes, ok_bind]
    apply decodeValidator_returns
    rw [length_take_drop hbytes, Nat.add_mul, Nat.one_mul, Nat.add_sub_cancel_left]

theorem decodeLightBlockValidationInput_returns (input : Bytes) :
    (decodeLightBlockValidationInput crates input).Returns := by
  unfold decodeLightBlockValidationInput
  split
  · simp
  · next hlen =>
    simp only [consensusStateLengthBytesLength, uint64TypeLength] at hlen ⊢
    rw [slice_of_le (by omega) (by omega), ok_bind,
      fromBeSlice_of_length (by rw [length_take_drop (by omega)]), ok_bind]
    split
    · simp
    · next total htotal =>
      split
      · simp
      · next hfits =>
        -- `checked_add` succeeded, so that its value is the sum over the naturals
        have hsum := checkedAdd_eq_some htotal
        rw [UInt64.toNat_ofNat_of_lt' (by decide)] at hsum
        rw [slice_of_le (by omega) (by omega), ok_bind]
        refine returns_bind.mpr ⟨decodeConsensusState_returns _, fun cs _ => ?_⟩
        rw [sliceFrom_of_le (by omega), ok_bind]
        simp [returns_bind]

/-! ## Converting -/

/-- The submessages the conversion unwraps are there: `signed_header`, and `validator_set` if it
gets that far. -/
def SubmessagesPresent (crates : Crates σ ν) (pb : TmLightBlock σ ν) : Prop :=
  ∃ rawHeader, pb.signedHeader = some rawHeader ∧
    ∀ signedHeader, crates.signedHeaderTryFrom rawHeader = some signedHeader →
      ∃ rawSet, pb.validatorSet = some rawSet

theorem convertLightBlockFromProto_returns {pb : TmLightBlock σ ν} :
    (convertLightBlockFromProto crates pb).Returns ↔ SubmessagesPresent crates pb := by
  simp only [convertLightBlockFromProto, SubmessagesPresent, returns_bind, returns_unwrap,
    unwrap_eq_ok, okOr_eq_ok, returns_okOr, returns_ok, true_and, implies_true, and_true]
  constructor
  · simp_all
  · simp_all

theorem convertLightBlockFromProto_eq_ok {pb : TmLightBlock σ ν} {lb : LightBlock} :
    convertLightBlockFromProto crates pb = .ok lb ↔
      ∃ rawHeader rawSet, pb.signedHeader = some rawHeader ∧ pb.validatorSet = some rawSet ∧
        crates.signedHeaderTryFrom rawHeader = some lb.signedHeader ∧
        crates.setTryFrom rawSet = some lb.validators ∧ lb.nextValidators = lb.validators := by
  simp only [convertLightBlockFromProto, bind_eq_ok, unwrap_eq_ok, okOr_eq_ok, ok.injEq]
  constructor
  · rintro ⟨raw, hraw, sh, hsh, rawSet, hset, vs, hvs, rfl⟩
    exact ⟨raw, rawSet, hraw, hset, hsh, hvs, rfl⟩
  · rintro ⟨raw, rawSet, hraw, hset, hsh, hvs, hnext⟩
    refine ⟨raw, hraw, _, hsh, rawSet, hset, _, hvs, ?_⟩
    cases lb
    simp_all

/-! ## Applying -/

/-- The light block extends the consensus state: what `apply_light_block` checks of the two. -/
structure ConsensusState.Extends (crates : Crates σ ν) (cs : ConsensusState) (lb : LightBlock) :
    Prop where
  higher : cs.height < lb.height
  sameChain : lb.signedHeader.header.chainId = cs.chainId
  /-- At the adjacent height the header names the recorded validator-set hash. -/
  adjacent : cs.height + 1 = lb.height →
    cs.nextValidatorSetHash = lb.signedHeader.header.validatorsHash.asBytes
  /-- At any other height a third of the prior set signed. -/
  trusting : cs.height + 1 ≠ lb.height →
    crates.hasSufficientValidatorsOverlap lb.signedHeader cs.validators .oneThird = true
  signed : crates.hasSufficientValidatorsOverlap lb.signedHeader lb.validators .twoThirds = true

/-- The state that applying `lb` leaves. -/
def ConsensusState.next (cs : ConsensusState) (lb : LightBlock) : ConsensusState :=
  { cs with
    height := lb.height
    nextValidatorSetHash := lb.signedHeader.header.nextValidatorsHash.asBytes
    validators := lb.validators }

variable {cs : ConsensusState}

/-- **What applying a light block does.** It accepts exactly the blocks that extend the state. -/
theorem ConsensusState.applyLightBlock_eq_ok {cs' : ConsensusState} {lb : LightBlock}
    {changed : Bool} :
    cs.applyLightBlock crates lb = .ok (cs', changed) ↔
      cs.Extends crates lb ∧ cs' = cs.next lb ∧
        changed = ((crates.validatorSetHash cs.validators).asBytes
          != lb.signedHeader.header.validatorsHash.asBytes) := by
  unfold ConsensusState.applyLightBlock
  by_cases hadj : cs.height + 1 = lb.height
  · simp only [if_pos hadj, err_bind, ok_bind, err_if_eq_ok, ok.injEq, Prod.mk.injEq,
      UInt64.not_le, not_not, Bool.not_eq_true', Bool.not_eq_false]
    constructor
    · rintro ⟨hhigher, hchain, hhash, hsigned, rfl, rfl⟩
      exact ⟨⟨hhigher, hchain, fun _ => hhash, fun hne => absurd hadj hne, hsigned⟩, rfl, rfl⟩
    · rintro ⟨h, rfl, rfl⟩
      exact ⟨h.higher, h.sameChain, h.adjacent hadj, h.signed, rfl, rfl⟩
  · simp only [if_neg hadj, err_bind, ok_bind, err_if_eq_ok, ok.injEq, Prod.mk.injEq,
      UInt64.not_le, not_not, Bool.not_eq_true', Bool.not_eq_false]
    constructor
    · rintro ⟨hhigher, hchain, htrusting, hsigned, rfl, rfl⟩
      exact ⟨⟨hhigher, hchain, fun h => absurd h hadj, fun _ => htrusting, hsigned⟩, rfl, rfl⟩
    · rintro ⟨h, rfl, rfl⟩
      exact ⟨h.higher, h.sameChain, h.trusting hadj, h.signed, rfl, rfl⟩

theorem ConsensusState.applyLightBlock_returns (cs : ConsensusState) (lb : LightBlock) :
    (cs.applyLightBlock crates lb).Returns := by
  unfold ConsensusState.applyLightBlock
  simp only
  split_ifs <;> simp

/-! ## Encoding -/

/-- The variable-length fields of a validator have the widths the serialisation reserves. -/
def Validator.FixedWidth (v : Validator) : Prop :=
  v.relayerAddress.length = relayerAddressLength ∧ v.blsKey.length = relayerBlsKeyLength

instance (v : Validator) : Decidable v.FixedWidth := inferInstanceAs (Decidable (_ ∧ _))

/-- A validator record as it is written. -/
def Validator.encode (v : Validator) : Bytes :=
  v.pubKey.val ++ toBeBytes v.power ++ v.relayerAddress ++ v.blsKey

/-- One turn of the encoding loop: with the record's fields of the right width the cursor moves
past it, otherwise the turn panics. -/
theorem encodeValidators_cons {done rest : Bytes} {v : Validator} {vs : List Validator}
    (hfit : singleValidatorBytesLength ≤ rest.length) :
    encodeValidators (done ++ rest) done.length (v :: vs) =
      if v.FixedWidth then
        encodeValidators ((done ++ v.encode) ++ rest.drop singleValidatorBytesLength)
          (done ++ v.encode).length vs
      else .panic := by
  have hfit : 108 ≤ rest.length := hfit
  rw [encodeValidators]
  simp only [validatorPubkeyLength, validatorVotingPowerLength]
  rw [copyFromSlice_append rfl (by simp) (by simp; omega), ok_bind,
    copyFromSlice_append (by simp) (by simp) (by simp; omega), ok_bind]
  by_cases hra : v.relayerAddress.length = relayerAddressLength
  · have hra20 : v.relayerAddress.length = 20 := hra
    rw [copyFromSlice_append (by simp) (by rw [hra]) (by simp [hra20]; omega), ok_bind]
    by_cases hbls : v.blsKey.length = relayerBlsKeyLength
    · have hbls48 : v.blsKey.length = 48 := hbls
      rw [copyFromSlice_append (by simp [hra]; omega) (by rw [hbls]) (by simp [hra20, hbls48]; omega),
        ok_bind, if_pos ⟨hra, hbls⟩]
      have hcursor : done.length + 32 + 8 + relayerAddressLength + relayerBlsKeyLength
          = (done ++ v.encode).length := by
        simp [Validator.encode, hra, hbls]; omega
      have hrest : List.drop v.blsKey.length (List.drop v.relayerAddress.length
          (List.drop (toBeBytes v.power).length (List.drop v.pubKey.val.length rest)))
          = rest.drop singleValidatorBytesLength := by
        simp [hra20, hbls48, singleValidatorBytesLength, validatorPubkeyLength,
          validatorVotingPowerLength, relayerAddressLength, relayerBlsKeyLength]
      rw [hcursor, hrest]
      simp only [Validator.encode, List.append_assoc]
    · rw [copyFromSlice_of_length_ne (by omega), panic_bind, if_neg (fun h => hbls h.2)]
  · rw [copyFromSlice_of_length_ne (by omega), panic_bind, if_neg (fun h => hra h.1)]

/-- **The encoding loop.** It panics as soon as one record has a field of the wrong width, and
otherwise writes the records one after the other. -/
theorem encodeValidators_spec (vs : List Validator) :
    ∀ done rest : Bytes, rest.length = vs.length * singleValidatorBytesLength →
      ((∀ v ∈ vs, v.FixedWidth) →
        encodeValidators (done ++ rest) done.length vs = .ok (done ++ vs.flatMap Validator.encode)) ∧
      ((encodeValidators (done ++ rest) done.length vs).Returns → ∀ v ∈ vs, v.FixedWidth) := by
  induction vs with
  | nil =>
    intro done rest hrest
    have hnil : rest = [] := List.length_eq_zero_iff.mp (by simpa using hrest)
    simp [encodeValidators, hnil]
  | cons v vs ih =>
    intro done rest hrest
    rw [List.length_cons, Nat.add_mul, Nat.one_mul] at hrest
    rw [encodeValidators_cons (by omega)]
    have hdrop : (rest.drop singleValidatorBytesLength).length
        = vs.length * singleValidatorBytesLength := by
      rw [List.length_drop]; omega
    have ih' := ih (done ++ v.encode) (rest.drop singleValidatorBytesLength) hdrop
    constructor
    · intro hall
      have hv : v.FixedWidth := hall v List.mem_cons_self
      rw [if_pos hv, ih'.1 fun w hw => hall w (List.mem_cons_of_mem _ hw)]
      simp [List.append_assoc]
    · intro hret
      by_cases hv : v.FixedWidth
      · rw [if_pos hv] at hret
        intro w hw
        rcases List.mem_cons.mp hw with rfl | hw
        · exact hv
        · exact ih'.2 hret w hw
      · rw [if_neg hv] at hret
        exact absurd hret not_returns_panic

/-- The state passes the two size checks that `encode` makes before it writes. -/
def ConsensusState.Serializable (cs : ConsensusState) : Prop :=
  cs.validators.validators.length ≤ 99 ∧ cs.chainId.length ≤ chainIdLength

/-- The fixed-width fields of a serialised state are filled exactly. -/
def ConsensusState.FixedWidth (cs : ConsensusState) : Prop :=
  cs.nextValidatorSetHash.length = validatorSetHashLength ∧
    ∀ v ∈ cs.validators.validators, v.FixedWidth

/-- The chain id, padded with zeros to its 32 bytes. -/
def ConsensusState.filledChainId (cs : ConsensusState) : Bytes :=
  cs.chainId ++ List.replicate (chainIdLength - cs.chainId.length) 0

/-- The fields written before the validators. -/
def ConsensusState.encodedHead (cs : ConsensusState) : Bytes :=
  cs.filledChainId ++ toBeBytes cs.height ++ cs.nextValidatorSetHash

/-- A state that passes the size checks is written field by field; only the copy of the next
validator-set hash can panic before the validators are reached. -/
theorem ConsensusState.encode_of_serializable (hs : cs.Serializable) :
    cs.encode =
      if cs.nextValidatorSetHash.length = validatorSetHashLength then
        encodeValidators (cs.encodedHead ++ List.replicate
            (cs.validators.validators.length * singleValidatorBytesLength) 0)
          cs.encodedHead.length cs.validators.validators
      else .panic := by
  obtain ⟨hn, hchain⟩ := hs
  have hchain32 : cs.chainId.length ≤ 32 := hchain
  have hfilled : cs.filledChainId.length = 32 := by
    simp [ConsensusState.filledChainId, chainIdLength]; omega
  have hpad : (List.replicate 32 (0 : UInt8)).drop cs.chainId.length
      = List.replicate (chainIdLength - cs.chainId.length) 0 := by
    rw [List.drop_replicate]; rfl
  unfold ConsensusState.encode
  simp only
  rw [if_neg (by
      have := Nat.mul_le_mul_right singleValidatorBytesLength hn
      unfold maxConsensusStateLength; omega), if_neg (by omega)]
  rw [copyFromSlice_zero rfl (by simpa using hchain32), ok_bind, hpad,
    show cs.chainId ++ List.replicate (chainIdLength - cs.chainId.length) 0
      = cs.filledChainId from rfl]
  set body := cs.validators.validators.length * singleValidatorBytesLength with hbody
  -- the buffer is split where the cursor stands after each of the fixed fields
  rw [show List.replicate (chainIdLength + heightLength + validatorSetHashLength + body) (0 : UInt8)
      = List.replicate 32 0 ++ (List.replicate 8 0 ++
          (List.replicate 32 0 ++ List.replicate body 0)) from by
        simp only [List.replicate_append_replicate, chainIdLength, heightLength,
          validatorSetHashLength]
        congr 1
        omega,
    copyFromSlice_zero (by rw [hfilled]; rfl) (by simp [hfilled]), ok_bind, hfilled,
    List.drop_append_of_le_length (by simp), List.drop_replicate, Nat.sub_self,
    List.replicate_zero, List.nil_append,
    copyFromSlice_append (by simp [hfilled, chainIdLength]) (by simp [heightLength]) (by simp),
    ok_bind, length_toBeBytes, List.drop_append_of_le_length (by simp), List.drop_replicate,
    Nat.sub_self, List.replicate_zero, List.nil_append]
  split
  · next hhash =>
    have hhash32 : cs.nextValidatorSetHash.length = 32 := hhash
    rw [copyFromSlice_append (by simp [hfilled, chainIdLength, heightLength])
        (by rw [hhash]) (by simp [hhash32]), ok_bind, hhash32,
      List.drop_append_of_le_length (by simp), List.drop_replicate, Nat.sub_self,
      List.replicate_zero, List.nil_append]
    rw [show 0 + chainIdLength + heightLength + validatorSetHashLength = cs.encodedHead.length from by
      simp [ConsensusState.encodedHead, hfilled, hhash32, chainIdLength, heightLength,
        validatorSetHashLength]]
    rfl
  · next hhash => rw [copyFromSlice_of_length_ne (by omega), panic_bind]

/-- The state as it is written. -/
def ConsensusState.encoded (cs : ConsensusState) : Bytes :=
  cs.encodedHead ++ cs.validators.validators.flatMap Validator.encode

theorem ConsensusState.encode_eq_ok (hs : cs.Serializable)
    (hfixed : cs.FixedWidth) : cs.encode = .ok cs.encoded := by
  rw [ConsensusState.encode_of_serializable hs, if_pos hfixed.1]
  exact (encodeValidators_spec cs.validators.validators cs.encodedHead _
    (List.length_replicate ..)).1 hfixed.2

theorem ConsensusState.encode_returns :
    cs.encode.Returns ↔ (cs.Serializable → cs.FixedWidth) := by
  by_cases hs : cs.Serializable
  · constructor
    · intro hret _
      rw [ConsensusState.encode_of_serializable hs] at hret
      split at hret
      · next hhash =>
        exact ⟨hhash, (encodeValidators_spec cs.validators.validators cs.encodedHead _
          (List.length_replicate ..)).2 hret⟩
      · exact absurd hret not_returns_panic
    · intro hfixed
      rw [ConsensusState.encode_eq_ok hs (hfixed hs)]
      exact returns_ok _
  · refine iff_of_true ?_ (fun h => absurd h hs)
    -- one of the two size checks returns the error
    unfold ConsensusState.encode
    simp only
    split
    · exact returns_err _
    · next hsmall =>
      simp only [maxConsensusStateLength, gt_iff_lt, Nat.add_lt_add_iff_left, not_lt] at hsmall
      have hn : cs.validators.validators.length ≤ 99 :=
        Nat.le_of_mul_le_mul_right hsmall (by decide)
      rw [if_pos (by
        by_contra hchain
        exact hs ⟨hn, by omega⟩)]
      exact returns_err _

theorem encodeLightBlockValidationResult_returns (changed : Bool) (bytes : Bytes) :
    (encodeLightBlockValidationResult changed bytes).Returns := by
  unfold encodeLightBlockValidationResult
  simp only [validateResultMetadataLength]
  rw [copyFromSlice_of_le (by omega) (by simp; omega) (by simp), ok_bind,
    copyFromSlice_of_le (by omega) (by simp) (by simp), ok_bind,
    copyFromSlice_of_le (by simp; omega) (by simp) (by simp; omega)]
  exact returns_ok _

/-! ## The whole run -/

/-- The light block is one that the stages after decoding handle without a panic: the submessages
are present, and if the block extends the state and the state is small enough to serialise, its
next validator-set hash and its relayer fields have the serialised widths. -/
def SafeLightBlock (crates : Crates σ ν) (cs : ConsensusState) (pb : TmLightBlock σ ν) : Prop :=
  SubmessagesPresent crates pb ∧
    ∀ rawHeader rawSet signedHeader validators,
      pb.signedHeader = some rawHeader → pb.validatorSet = some rawSet →
      crates.signedHeaderTryFrom rawHeader = some signedHeader →
      crates.setTryFrom rawSet = some validators →
      cs.Extends crates ⟨signedHeader, validators, validators⟩ →
      validators.validators.length ≤ 99 → cs.chainId.length ≤ chainIdLength →
      signedHeader.header.nextValidatorsHash ≠ .none ∧
        ∀ v ∈ validators.validators, v.FixedWidth

theorem Hash.length_asBytes (h : Hash) :
    h.asBytes.length = validatorSetHashLength ↔ h ≠ .none := by
  cases h with
  | none => simp [Hash.asBytes, validatorSetHashLength]
  | sha256 digest => simp [Hash.asBytes, validatorSetHashLength]

/-- **Panic freedom of the precompile.** A run returns `Ok` or `Err` exactly when it stops at the
gas check, when decoding fails, or when the decoded light block is safe for the decoded state. -/
theorem cometbftLightBlockValidationRunInner_returns (crates : Crates σ ν) (input : Bytes)
    (gasLimit : UInt64) (isHertz : Bool) :
    (cometbftLightBlockValidationRunInner crates input gasLimit isHertz).Returns ↔
      (cometbftLightBlockValidationBase ≤ gasLimit →
        ∀ cs pb, decodeLightBlockValidationInput crates input = .ok (cs, pb) →
          SafeLightBlock crates cs pb) := by
  unfold cometbftLightBlockValidationRunInner
  split
  · next hgas => exact iff_of_true (returns_err _) (fun hle => absurd hle (UInt64.not_le.mpr hgas))
  · next hgas =>
    have hgas : cometbftLightBlockValidationBase ≤ gasLimit := UInt64.not_lt.mp hgas
    simp only [returns_bind, decodeLightBlockValidationInput_returns, true_and, hgas, true_implies,
      Prod.forall]
    refine forall₃_congr fun cs pb _ => ?_
    rw [SafeLightBlock, convertLightBlockFromProto_returns]
    refine and_congr_right fun _ => ?_
    simp only [ConsensusState.applyLightBlock_returns, true_and,
      encodeLightBlockValidationResult_returns, returns_ok, implies_true, and_true,
      ConsensusState.encode_returns, ConsensusState.applyLightBlock_eq_ok,
      convertLightBlockFromProto_eq_ok]
    constructor
    · intro h rawHeader rawSet sh vs hraw hset hsh hvs hext hn hchain
      have := h ⟨sh, vs, vs⟩ ⟨rawHeader, rawSet, hraw, hset, hsh, hvs, rfl⟩ _ _
        ⟨hext, rfl, rfl⟩ ⟨hn, hchain⟩
      exact ⟨(Hash.length_asBytes _).mp this.1, this.2⟩
    · rintro h ⟨sh, vs, nvs⟩ ⟨rawHeader, rawSet, hraw, hset, hsh, hvs, hnext⟩ cs' changed
        ⟨hext, rfl, -⟩ ⟨hn, hchain⟩
      obtain rfl : nvs = vs := hnext
      have := h rawHeader rawSet sh _ hraw hset hsh hvs hext hn hchain
      exact ⟨(Hash.length_asBytes _).mpr this.1, this.2⟩

/-! ### A panicking input

The light block is the empty protobuf message, which `prost` merges into the default one. -/

def defaultLightBlockCrates : Crates Unit Unit where
  merge buf := if buf = [] then some ⟨none, none⟩ else none
  signedHeaderTryFrom _ := none
  setTryFrom _ := none
  fromRawEd25519 bs := if h : bs.length = 32 then some ⟨bs, h⟩ else none
  withoutProposer validators := ⟨validators⟩
  hasSufficientValidatorsOverlap _ _ _ := false
  validatorSetHash _ := .none

/-- Chain id `greenfield_9000-121` at height 1, with one validator of power 10000. -/
def oneValidatorState : Bytes :=
  [0x67, 0x72, 0x65, 0x65, 0x6e, 0x66, 0x69, 0x65, 0x6c, 0x64, 0x5f, 0x39, 0x30, 0x30, 0x30, 0x2d,
    0x31, 0x32, 0x31] ++ List.replicate 13 0 ++ toBeBytes 1 ++ List.replicate 32 0x3c ++
  [0xe3, 0x3f, 0x6e, 0x87, 0x6d, 0x63, 0x79, 0x1e, 0xbd, 0x05, 0xff, 0x61, 0x7a, 0x1b, 0x4f, 0x4a,
    0xd1, 0xaa, 0x2c, 0xe6, 0x5e, 0x3c, 0x3a, 0x9c, 0xdf, 0xb3, 0x3e, 0x0f, 0xfa, 0x7e, 0x84, 0x23] ++
  toBeBytes 10000 ++ List.replicate 20 0x15 ++ List.replicate 48 0xa0

/-- The state's length in a 32-byte word, the state, and no protobuf bytes. -/
def emptyLightBlockInput : Bytes :=
  List.replicate 24 0 ++ toBeBytes 180 ++ oneValidatorState

theorem emptyLightBlockInput_panics :
    cometbftLightBlockValidationRunInner defaultLightBlockCrates emptyLightBlockInput 3000 true
      = .panic := by
  decide +kernel

end RethBsc.CometBft
