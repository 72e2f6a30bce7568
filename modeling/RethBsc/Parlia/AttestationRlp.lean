import RethBsc.Parlia.SealHash

/-!
# Attestations as RLP

What `RlpEncodable` and `RlpDecodable` derive for `VoteData` and `VoteAttestation` of
`src/consensus/parlia/vote.rs`.  Every attestation is read back from its encoding
(`VoteAttestation.decodeRlp_rlp`), also if bytes follow.
-/

namespace RethBsc

open Rust

def VoteData.rlp (data : VoteData) : Bytes :=
  Rlp.encodeList [encodeU64 data.sourceNumber, Rlp.encodeBytes data.sourceHash.val,
    encodeU64 data.targetNumber, Rlp.encodeBytes data.targetHash.val].flatten

def voteDataFields : Rlp.Decoder VoteData := do
  let sourceNumber ← decodeU64
  let sourceHash ← Rlp.decodeFixed 32
  let targetNumber ← decodeU64
  let targetHash ← Rlp.decodeFixed 32
  pure ⟨sourceNumber, sourceHash, targetNumber, targetHash⟩

namespace VoteAttestation

def rlp (attestation : VoteAttestation) : Bytes :=
  Rlp.encodeList [encodeU64 attestation.voteAddressSet,
    Rlp.encodeBytes attestation.aggSignature.val, attestation.data.rlp,
    Rlp.encodeBytes attestation.extra].flatten

def rlpFields : Rlp.Decoder VoteAttestation := do
  let voteAddressSet ← decodeU64
  let aggSignature ← Rlp.decodeFixed 96
  let data ← Rlp.decodeStruct voteDataFields
  let extra ← Rlp.decodeBytes
  pure ⟨voteAddressSet, aggSignature, data, extra⟩

/-- `decode_rlp`: bytes after the attestation are not looked at. -/
def decodeRlp (bytes : Bytes) : Option VoteAttestation :=
  match Rlp.decodeStruct rlpFields bytes with
  | .ok (attestation, _) => some attestation
  | .error _ => none

end VoteAttestation

/-! ## Round trip -/

theorem length_encodeFixed_le {n : Nat} (a : FixedBytes n) :
    (Rlp.encodeBytes a.val).length ≤ n + 9 := by
  have hle := Rlp.length_encodeBytes_le a.val
  rwa [a.length_val] at hle

theorem VoteData.length_payload_le (data : VoteData) :
    [encodeU64 data.sourceNumber, Rlp.encodeBytes data.sourceHash.val,
      encodeU64 data.targetNumber, Rlp.encodeBytes data.targetHash.val].flatten.length ≤ 116 := by
  have hsourceNumber := length_encodeU64_le data.sourceNumber
  have hsourceHash := length_encodeFixed_le data.sourceHash
  have htargetNumber := length_encodeU64_le data.targetNumber
  have htargetHash := length_encodeFixed_le data.targetHash
  simp only [List.flatten_cons, List.flatten_nil, List.length_append, List.length_nil]
  omega

theorem VoteData.length_rlp_le (data : VoteData) : data.rlp.length ≤ 125 :=
  (Rlp.length_encodeList_le _).trans (Nat.add_le_add_right data.length_payload_le 9)

theorem shrinks_voteData : Rlp.Shrinks (Rlp.decodeStruct voteDataFields) := by
  have hfields : Rlp.Shrinks voteDataFields :=
    shrinks_u64.bind fun _ => (Rlp.Shrinks.fixed 32).bind fun _ =>
      shrinks_u64.bind fun _ => (Rlp.Shrinks.fixed 32).bind fun _ => .pure _
  exact fun buf data rest h => (Rlp.length_lt_of_decodeStruct hfields h).le

theorem decodes_voteData (data : VoteData) :
    Rlp.Decodes (Rlp.decodeStruct voteDataFields) data.rlp data := by
  have hlen := data.length_payload_le
  refine Rlp.Decodes.struct (by omega) ?_
  refine .bind (decodes_u64 data.sourceNumber) ?_
  refine .bind (Rlp.decodes_fixed (by decide) data.sourceHash) ?_
  refine .bind (decodes_u64 data.targetNumber) ?_
  exact .bind (Rlp.decodes_fixed (by decide) data.targetHash) (.pure _)

namespace VoteAttestation

theorem length_payload_le (attestation : VoteAttestation) :
    [encodeU64 attestation.voteAddressSet, Rlp.encodeBytes attestation.aggSignature.val,
      attestation.data.rlp, Rlp.encodeBytes attestation.extra].flatten.length
      ≤ attestation.extra.length + 256 := by
  have hset := length_encodeU64_le attestation.voteAddressSet
  have hsignature := length_encodeFixed_le attestation.aggSignature
  have hdata := attestation.data.length_rlp_le
  have hextra := Rlp.length_encodeBytes_le attestation.extra
  simp only [List.flatten_cons, List.flatten_nil, List.length_append, List.length_nil]
  omega

/-- **Round trip.** The extra data of a Rust value is shorter than the bound. -/
theorem decodeRlp_rlp {attestation : VoteAttestation} (hextra : attestation.extra.length < 2 ^ 63) :
    decodeRlp attestation.rlp = some attestation := by
  have hlen := attestation.length_payload_le
  have hfields : Rlp.Decodes (Rlp.decodeStruct rlpFields) attestation.rlp attestation := by
    refine Rlp.Decodes.struct (by omega) ?_
    refine .bind (decodes_u64 attestation.voteAddressSet) ?_
    refine .bind (Rlp.decodes_fixed (by decide) attestation.aggSignature) ?_
    refine .bind (decodes_voteData attestation.data) ?_
    exact .bind (Rlp.decodes_bytes (by omega)) (.pure _)
  have hdecode := hfields []
  rw [List.append_nil] at hdecode
  rw [decodeRlp, hdecode]

end VoteAttestation

end RethBsc
