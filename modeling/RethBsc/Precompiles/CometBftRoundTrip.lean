import RethBsc.Precompiles.CometBftPanic
import RethBsc.Rust.Utf8
import Mathlib.Data.List.DropRight

/-!
# Consensus states and their serialisation

`encode` writes a consensus state in the layout that `decode_consensus_state` reads.

* `fromUtf8Lossy_of_isUtf8`: nothing is replaced in the bytes of a string, and the chain id comes
  back once its padding is trimmed.
* `decodeValidator_encode`: a record is read back with the low 32 bits of its voting power.
* `decodeConsensusState_encoded`: the state that is read back, `ConsensusState.wrapped`.
* **`consensusState_round_trip_iff`**: the same validators come back exactly if every voting power
  is below `2 ^ 32`.
-/

namespace RethBsc.CometBft

open Rust Rust.Outcome

variable {σ ν : Type} {crates : Crates σ ν}

variable {b : UInt8} {bs : Bytes} {v : Validator}

/-! ## Strings -/

theorem isContinuation_of_tail (h : Utf8Tail b) : isContinuation b = true := by
  have hbytes : ∀ n < 256, 0x80 ≤ n → n ≤ 0xBF → isContinuation (UInt8.ofNat n) = true := by
    decide +kernel
  have hb := hbytes b.toNat b.toNat_lt h.low h.high
  rwa [UInt8.ofNat_toNat] at hb

theorem continuesThree_of_tail {a : UInt8} (hlow : 0xE0 ≤ a.toNat) (hhigh : a.toNat ≤ 0xEF)
    (hb : Utf8Tail b) (hshort : a.toNat = 0xE0 → 0xA0 ≤ b.toNat)
    (hsurrogate : a.toNat = 0xED → b.toNat ≤ 0x9F) : continuesThree a b = true := by
  have hb₁ := hb.low
  have hb₂ := hb.high
  simp only [continuesThree, Bool.or_eq_true, Bool.and_eq_true, beq_iff_eq, decide_eq_true_eq,
    UInt8.le_iff_toNat_le, ← UInt8.toNat_inj, UInt8.reduceToNat]
  omega

theorem continuesFour_of_tail {a : UInt8} (hlow : 0xF0 ≤ a.toNat) (hhigh : a.toNat ≤ 0xF4)
    (hb : Utf8Tail b) (hshort : a.toNat = 0xF0 → 0x90 ≤ b.toNat)
    (hlarge : a.toNat = 0xF4 → b.toNat ≤ 0x8F) : continuesFour a b = true := by
  have hb₁ := hb.low
  have hb₂ := hb.high
  simp only [continuesFour, Bool.or_eq_true, Bool.and_eq_true, beq_iff_eq, decide_eq_true_eq,
    UInt8.le_iff_toNat_le, ← UInt8.toNat_inj, UInt8.reduceToNat]
  omega

-- The lead byte of a sequence decides how many bytes are looked at.
theorem byteRange (low high : UInt8) (hlow : low.toNat ≤ b.toNat) (hhigh : b.toNat ≤ high.toNat) :
    (low ≤ b && b ≤ high) = true := by
  simp only [Bool.and_eq_true, decide_eq_true_eq, UInt8.le_iff_toNat_le]
  exact ⟨hlow, hhigh⟩

theorem not_byteRange (low high : UInt8) (hhigh : high.toNat < b.toNat) :
    ¬ (low ≤ b && b ≤ high) = true := by
  simp only [Bool.and_eq_true, decide_eq_true_eq, UInt8.le_iff_toNat_le]
  omega

theorem not_ascii (h : 0x80 ≤ b.toNat) : ¬ b < 0x80 := by
  rw [UInt8.lt_iff_toNat_lt]
  exact Nat.not_lt.mpr h

/-- A well-formed character is copied. -/
theorem fromUtf8Lossy_char (h : Utf8Char bs) (rest : Bytes) :
    fromUtf8Lossy (bs ++ rest) = bs ++ fromUtf8Lossy rest := by
  cases h with
  | @one a ha =>
    have hlead : a < 0x80 := UInt8.lt_iff_toNat_lt.mpr (Nat.lt_succ_of_le ha)
    rw [List.singleton_append, List.singleton_append, fromUtf8Lossy.eq_def]
    dsimp only
    rw [if_pos hlead]
  | @two a b hlow hhigh hb =>
    rw [List.cons_append, List.singleton_append, fromUtf8Lossy.eq_def]
    dsimp only
    rw [if_neg (not_ascii (by omega)), if_pos (byteRange 0xC2 0xDF hlow hhigh),
      if_pos (isContinuation_of_tail hb)]
    rfl
  | @three a b c hlow hhigh hb hc hshort hsurrogate =>
    rw [List.cons_append, List.cons_append, List.singleton_append, fromUtf8Lossy.eq_def]
    dsimp only
    rw [if_neg (not_ascii (by omega)), if_neg (not_byteRange 0xC2 0xDF hlow),
      if_pos (byteRange 0xE0 0xEF hlow hhigh),
      if_pos (continuesThree_of_tail hlow hhigh hb hshort hsurrogate),
      if_pos (isContinuation_of_tail hc)]
    rfl
  | @four a b c d hlow hhigh hb hc hd hshort hlarge =>
    rw [List.cons_append, List.cons_append, List.cons_append, List.singleton_append,
      fromUtf8Lossy.eq_def]
    dsimp only
    rw [if_neg (not_ascii (by omega)),
      if_neg (not_byteRange 0xC2 0xDF (Nat.le_trans (by decide) hlow)),
      if_neg (not_byteRange 0xE0 0xEF hlow), if_pos (byteRange 0xF0 0xF4 hlow hhigh),
      if_pos (continuesFour_of_tail hlow hhigh hb hshort hlarge),
      if_pos (isContinuation_of_tail hc), if_pos (isContinuation_of_tail hd)]
    rfl

/-- Nothing is replaced in the bytes of a string. -/
theorem fromUtf8Lossy_of_isUtf8 (h : IsUtf8 bs) : fromUtf8Lossy bs = bs := by
  obtain ⟨chars, rfl⟩ := h
  induction chars with
  | nil => rfl
  | cons ch chars ih =>
    rw [List.flatMap_cons, fromUtf8Lossy_char (utf8Char_utf8EncodeChar ch), ih]

theorem trimEndNul_padded (h : bs.getLast? ≠ some 0) (n : Nat) :
    trimEndNul (bs ++ List.replicate n 0) = bs := by
  have hself : trimEndNul bs = bs := by
    refine List.rdropWhile_eq_self_iff.mpr fun hne hzero => h ?_
    rw [List.getLast?_eq_some_getLast hne, beq_iff_eq.mp hzero]
  induction n with
  | zero => rw [List.replicate_zero, List.append_nil, hself]
  | succ n ih =>
    rw [List.replicate_succ', ← List.append_assoc]
    exact (List.rdropWhile_concat_pos (· == 0) _ 0 rfl).trans ih

/-! ## Validators -/

/-- The validator with the low 32 bits of its voting power. -/
def Validator.wrapped (v : Validator) : Validator := { v with power := v.power.toUInt32.toUInt64 }

theorem Validator.wrapped_power_lt (v : Validator) : v.wrapped.power.toNat < 2 ^ 32 := by
  show v.power.toUInt32.toUInt64.toNat < 2 ^ 32
  rw [UInt32.toNat_toUInt64]
  exact v.power.toUInt32.toNat_lt

theorem Validator.wrapped_of_lt (h : v.power.toNat < 2 ^ 32) : v.wrapped = v := by
  have hpower : v.power.toUInt32.toUInt64 = v.power := by
    rw [← UInt64.toNat_inj, UInt32.toNat_toUInt64, UInt64.toNat_toUInt32]
    exact Nat.mod_eq_of_lt h
  rw [Validator.wrapped, hpower]

theorem Validator.length_encode (h : v.FixedWidth) :
    v.encode.length = singleValidatorBytesLength := by
  rw [Validator.encode, List.length_append, List.length_append, List.length_append, v.pubKey.length_val,
    length_toBeBytes, h.1, h.2]
  rfl

/-- A record is read back, but for the high bits of the voting power. -/
theorem decodeValidator_encode (hwidth : v.FixedWidth)
    (hkey : crates.fromRawEd25519 v.pubKey.val = some v.pubKey) :
    decodeValidator crates v.encode = .ok v.wrapped := by
  have hlength := v.pubKey.length_val
  have hpubKey : (slice v.encode 0 validatorPubkeyLength : Outcome PrecompileError Bytes)
      = .ok v.pubKey.val := by
    rw [Validator.encode, List.append_assoc, List.append_assoc]
    exact slice_append (show 0 = ([] : Bytes).length from rfl) (by rw [hlength]; rfl)
  have hpower : (slice v.encode validatorPubkeyLength
      (validatorPubkeyLength + validatorVotingPowerLength) : Outcome PrecompileError Bytes)
      = .ok (toBeBytes v.power) := by
    rw [Validator.encode, List.append_assoc, List.append_assoc]
    exact slice_append hlength.symm rfl
  have haddress : (slice v.encode (validatorPubkeyLength + validatorVotingPowerLength)
      (validatorPubkeyLength + validatorVotingPowerLength + relayerAddressLength)
        : Outcome PrecompileError Bytes) = .ok v.relayerAddress := by
    rw [Validator.encode, List.append_assoc]
    exact slice_append (by rw [List.length_append, hlength]; rfl) (by rw [hwidth.1])
  have hblsKey : (sliceFrom v.encode
      (validatorPubkeyLength + validatorVotingPowerLength + relayerAddressLength)
        : Outcome PrecompileError Bytes) = .ok v.blsKey := by
    unfold Validator.encode
    exact sliceFrom_append (by rw [List.length_append, List.length_append, hlength, hwidth.1]; rfl)
  rw [decodeValidator, hpower, ok_bind, fromBeSlice_of_length (length_toBeBytes _), ok_bind, fromBeBytes_toBeBytes,
    haddress, ok_bind, hblsKey, ok_bind, hpubKey, ok_bind, hkey]
  rfl

/-! ## States -/

/-- The values that the serialisation is for. -/
structure ConsensusState.WellFormed (crates : Crates σ ν) (cs : ConsensusState) : Prop where
  serializable : cs.Serializable
  fixedWidth : cs.FixedWidth
  utf8 : IsUtf8 cs.chainId
  noTrailingNul : cs.chainId.getLast? ≠ some 0
  nonempty : cs.validators.validators ≠ []
  keys : ∀ v ∈ cs.validators.validators, crates.fromRawEd25519 v.pubKey.val = some v.pubKey

/-- The state that is read back: with the low bits of the voting powers, in the order that
`without_proposer` gives the validators. -/
def ConsensusState.wrapped (crates : Crates σ ν) (cs : ConsensusState) : ConsensusState :=
  { cs with
    validators := crates.withoutProposer (cs.validators.validators.map Validator.wrapped) }

section Decoding

variable {cs : ConsensusState}

theorem ConsensusState.length_filledChainId (h : cs.Serializable) :
    cs.filledChainId.length = chainIdLength := by
  have hchain := h.2
  rw [ConsensusState.filledChainId, List.length_append, List.length_replicate]
  omega

theorem ConsensusState.length_encoded (hs : cs.Serializable) (hfixed : cs.FixedWidth) :
    cs.encoded.length = chainIdLength + heightLength + validatorSetHashLength
      + cs.validators.validators.length * singleValidatorBytesLength := by
  rw [ConsensusState.encoded, ConsensusState.encodedHead, List.length_append, List.length_append, List.length_append,
    ConsensusState.length_filledChainId hs, length_toBeBytes, hfixed.1,
    length_flatMap_of_length fun v hv => Validator.length_encode (hfixed.2 v hv)]
  rfl

/-- The chain id, which the padding does not change. -/
theorem ConsensusState.trimmed_chainId (h : cs.WellFormed crates) :
    trimEndNul (fromUtf8Lossy cs.filledChainId) = cs.chainId := by
  rw [ConsensusState.filledChainId, fromUtf8Lossy_of_isUtf8 (h.utf8.append (isUtf8_replicate_zero _)),
    trimEndNul_padded h.noTrailingNul]

/-- The loop over the records. -/
theorem decodeValidators_encoded {vs : List Validator} (hfixed : ∀ v ∈ vs, v.FixedWidth)
    (hkeys : ∀ v ∈ vs, crates.fromRawEd25519 v.pubKey.val = some v.pubKey) :
    ((List.range vs.length).mapM fun i => do
      let validator ← slice (vs.flatMap Validator.encode) (i * singleValidatorBytesLength)
        ((i + 1) * singleValidatorBytesLength)
      decodeValidator crates validator) = .ok (vs.map Validator.wrapped) := by
  refine mapM_range_eq_ok fun i hi => ?_
  have hmem : vs[i] ∈ vs := List.getElem_mem hi
  rw [slice_flatMap_of_length (fun v hv => Validator.length_encode (hfixed v hv)) hi, ok_bind]
  exact decodeValidator_encode (hfixed _ hmem) (hkeys _ hmem)

theorem decodeConsensusState_encoded (h : cs.WellFormed crates) :
    decodeConsensusState crates cs.encoded = .ok (cs.wrapped crates) := by
  have hlength := ConsensusState.length_encoded h.serializable h.fixedWidth
  have hfilled := ConsensusState.length_filledChainId h.serializable
  have hpos : 0 < cs.validators.validators.length := List.length_pos_of_ne_nil h.nonempty
  have hwidth : 0 < singleValidatorBytesLength := by decide
  -- where the fields stand
  have hchainId : (slice cs.encoded 0 chainIdLength : Outcome PrecompileError Bytes)
      = .ok cs.filledChainId := by
    rw [ConsensusState.encoded, ConsensusState.encodedHead, List.append_assoc, List.append_assoc]
    exact slice_append (show 0 = ([] : Bytes).length from rfl) (by rw [hfilled, Nat.zero_add])
  have hheight : (slice cs.encoded chainIdLength (chainIdLength + heightLength)
      : Outcome PrecompileError Bytes) = .ok (toBeBytes cs.height) := by
    rw [ConsensusState.encoded, ConsensusState.encodedHead, List.append_assoc, List.append_assoc]
    exact slice_append hfilled.symm rfl
  have hhash : (slice cs.encoded (chainIdLength + heightLength)
      (chainIdLength + heightLength + validatorSetHashLength) : Outcome PrecompileError Bytes)
      = .ok cs.nextValidatorSetHash := by
    rw [ConsensusState.encoded, ConsensusState.encodedHead, List.append_assoc]
    exact slice_append (by rw [List.length_append, hfilled]; rfl) (by rw [h.fixedWidth.1])
  have hrecords : (sliceFrom cs.encoded (chainIdLength + heightLength + validatorSetHashLength)
      : Outcome PrecompileError Bytes)
      = .ok (cs.validators.validators.flatMap Validator.encode) := by
    unfold ConsensusState.encoded ConsensusState.encodedHead
    exact sliceFrom_append (by
      rw [List.length_append, List.length_append, hfilled, h.fixedWidth.1]
      rfl)
  have hlong := Nat.mul_pos hpos hwidth
  unfold decodeConsensusState
  dsimp only
  rw [hlength, Nat.add_sub_cancel_left, Nat.mul_mod_left, Nat.mul_div_cancel _ hwidth,
    if_neg (by omega), hchainId, ok_bind, hheight, ok_bind,
    fromBeSlice_of_length (length_toBeBytes _), ok_bind, fromBeBytes_toBeBytes, hhash, ok_bind,
    hrecords, ok_bind, decodeValidators_encoded h.fixedWidth.2 h.keys, ok_bind,
    ConsensusState.trimmed_chainId h]
  rfl

end Decoding

/-! ## The round trip -/

/-- **States survive their serialisation, but for large voting powers.**  If `without_proposer`
only reorders validators, a well-formed state is written and read back with its chain id, height and
hash; and with its validators exactly if every voting power is below `2 ^ 32`. -/
theorem consensusState_round_trip_iff {cs : ConsensusState}
    (hreorders : ∀ vs, (crates.withoutProposer vs).validators.Perm vs) (h : cs.WellFormed crates) :
    ∃ bytes decoded, cs.encode = .ok bytes ∧ decodeConsensusState crates bytes = .ok decoded ∧
      decoded.chainId = cs.chainId ∧ decoded.height = cs.height ∧
      decoded.nextValidatorSetHash = cs.nextValidatorSetHash ∧
      (decoded.validators.validators.Perm cs.validators.validators ↔
        ∀ v ∈ cs.validators.validators, v.power.toNat < 2 ^ 32) := by
  refine ⟨cs.encoded, cs.wrapped crates, ConsensusState.encode_eq_ok h.serializable h.fixedWidth,
    decodeConsensusState_encoded h, rfl, rfl, rfl, ?_⟩
  have hread : (cs.wrapped crates).validators.validators.Perm
      (cs.validators.validators.map Validator.wrapped) := hreorders _
  constructor
  · -- no validator that is read back has a larger power
    intro hperm v hv
    obtain ⟨w, -, rfl⟩ := List.mem_map.mp ((hperm.symm.trans hread).subset hv)
    exact w.wrapped_power_lt
  · intro hsmall
    have hsame : cs.validators.validators.map Validator.wrapped = cs.validators.validators := by
      conv_rhs => rw [← List.map_id cs.validators.validators]
      exact List.map_congr_left fun v hv => Validator.wrapped_of_lt (hsmall v hv)
    rwa [hsame] at hread

/-- Every key of 32 bytes is valid, and the order of the validators stays. -/
def rawCrates : Crates Unit Unit where
  merge _ := none
  signedHeaderTryFrom _ := none
  setTryFrom _ := none
  fromRawEd25519 bytes := if h : bytes.length = 32 then some ⟨bytes, h⟩ else none
  withoutProposer validators := ⟨validators⟩
  hasSufficientValidatorsOverlap _ _ _ := true
  validatorSetHash _ := .none

def shortChainId : Bytes := [ 'c', 'h', 'a', 'i', 'n'].flatMap String.utf8EncodeChar

/-- The state of a chain with one validator. -/
def soleState (power : UInt64) : ConsensusState where
  chainId := shortChainId
  height := 1
  nextValidatorSetHash := List.replicate 32 7
  validators := ⟨[⟨.repeatByte 32 9, power, List.replicate 48 2, List.replicate 20 3⟩]⟩

theorem wellFormed_soleState (power : UInt64) : (soleState power).WellFormed rawCrates := by
  have hlength : shortChainId.length ≤ chainIdLength := by decide
  have hlast : shortChainId.getLast? ≠ some 0 := by decide
  exact
    { serializable := ⟨Nat.le_of_ble_eq_true rfl, hlength⟩
      fixedWidth := ⟨rfl, List.forall_mem_singleton.mpr ⟨rfl, rfl⟩⟩
      utf8 := ⟨_, rfl⟩
      noTrailingNul := hlast
      nonempty := List.cons_ne_nil _ _
      keys := List.forall_mem_singleton.mpr rfl }

/-- A voting power of `2 ^ 32` is read back as 0. -/
theorem soleState_power_lost :
    ∃ bytes decoded, (soleState 4294967296).encode = .ok bytes ∧
      decodeConsensusState rawCrates bytes = .ok decoded ∧
      decoded.validators.validators.map Validator.power = [0] ∧
      ¬ decoded.validators.validators.Perm (soleState 4294967296).validators.validators := by
  have hwell := wellFormed_soleState 4294967296
  refine ⟨_, _, ConsensusState.encode_eq_ok hwell.serializable hwell.fixedWidth,
    decodeConsensusState_encoded hwell, by decide, fun hperm => ?_⟩
  have hpowers := hperm.map Validator.power
  revert hpowers
  decide

/-- A voting power of 10000 comes back. -/
theorem soleState_round_trip :
    ∃ bytes decoded, (soleState 10000).encode = .ok bytes ∧
      decodeConsensusState rawCrates bytes = .ok decoded ∧
      decoded.chainId = (soleState 10000).chainId ∧
      decoded.validators.validators.Perm (soleState 10000).validators.validators := by
  obtain ⟨bytes, decoded, hencode, hdecode, hchain, -, -, hiff⟩ :=
    consensusState_round_trip_iff (fun vs => .refl vs) (wellFormed_soleState 10000)
  refine ⟨bytes, decoded, hencode, hdecode, hchain, hiff.mpr ?_⟩
  exact List.forall_mem_singleton.mpr (by decide)

end RethBsc.CometBft
