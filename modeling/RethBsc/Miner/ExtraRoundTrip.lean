import RethBsc.Miner.ExtraSections

/-!
# Extra data is read as it was written

Validators, turn length, attestation and seal are written by four functions.  Three others read
them, at offsets that depend on the epoch length, on the forks and on the count of the validators.

* `announcedPairs_perm`, `announcedPairs_ascending`: the validators that are written, each with its
  own vote address.
* `getTurnLength_of_section`, `getVoteAttestation_of_end`: what is read from it; for the
  validators this is `parse_of_section`.
* `extra_round_trip`: every section is read as it was written.
-/

namespace RethBsc

open Rust Outcome

namespace Parlia

variable {p : Parlia} {number : UInt64} {members : List (Address × VoteAddress)}

/-! ## The validators that are written -/

variable (p number) in
/-- A validator, with the vote address that block `number` announces for it. -/
def announced (member : Address × VoteAddress) : Address × VoteAddress :=
  (member.1, if p.spec.isLubanTransitionAtBlock number then .zero else member.2)

theorem lookup_announcedVotes (hnodup : (members.map Prod.fst).Nodup)
    {member : Address × VoteAddress} (hmember : member ∈ members) :
    (p.announcedVotes number (members.map Prod.fst) (members.map Prod.snd)).lookup member.1
      = some (p.announced number member).2 := by
  unfold announcedVotes announced
  dsimp only
  split
  · exact Map.lookup_insertAll (f := id) (by rwa [List.map_id])
      (List.mem_map_of_mem hmember)
  · obtain ⟨i, hi, hget⟩ := List.getElem_of_mem hmember
    have hindexed : (member.1, i) ∈ (members.map Prod.fst).zipIdx := by grind
    have hlookup := Map.lookup_insertAll (f := Prod.fst) (m := ∅)
      (g := fun vi => (members.map Prod.snd).getD vi.2 .zero)
      (by rwa [List.zipIdx_map_fst]) hindexed
    have hvote : (members.map Prod.snd).getD i .zero = member.2 := by simp [*]
    rw [hlookup, hvote]

theorem announcedPairs_perm (hnodup : (members.map Prod.fst).Nodup) :
    (p.announcedPairs number (members.map Prod.fst) (members.map Prod.snd)).Perm
      (members.map (p.announced number)) := by
  unfold announcedPairs
  refine ((List.perm_insertionSort _ _).map _).trans (.of_eq ?_)
  rw [List.map_map]
  refine List.map_congr_left fun member hmember => ?_
  dsimp only [Function.comp_apply]
  rw [lookup_announcedVotes hnodup hmember]
  rfl

theorem announcedPairs_ascending (hnodup : (members.map Prod.fst).Nodup) :
    ((p.announcedPairs number (members.map Prod.fst) (members.map Prod.snd)).map
      Prod.fst).Pairwise (· < ·) := by
  rw [announcedPairs_fst]
  have hsorted := List.pairwise_insertionSort (· ≤ ·) (members.map Prod.fst)
  have hdistinct : ((members.map Prod.fst).insertionSort (· ≤ ·)).Nodup :=
    (List.perm_insertionSort _ _).nodup_iff.mpr hnodup
  exact (hsorted.and hdistinct).imp fun hlt => lt_of_le_of_ne hlt.1 hlt.2

variable {cache : B256 → Option UInt8} {parentSnap : Snapshot} {validators : List Address}
  {voteAddrs : List VoteAddress} {turnLength : UInt8} {attestation : Option VoteAttestation}
  {signature : FixedBytes extraSealLen} {header h : Header}

/-! ## What is read -/

variable {vanity rest : Bytes} {epochLength : UInt64}

/-- The turn length stands after the validators. -/
theorem getTurnLength_of_section (hepoch : isMultipleOf h.number epochLength = true)
    (hlayout : p.Sectioned h (p.validatorSection h.number validators voteAddrs) vanity
      (p.turnLengthSection h turnLength) rest)
    (hforks : p.spec.isBohrActiveAtTimestamp h.number h.timestamp = true →
      p.spec.isLubanActiveAtBlock h.number = true) (hcount : validators.length ≤ 255) :
    p.getTurnLengthFromHeader h epochLength = .ok
      (if p.spec.isBohrActiveAtTimestamp h.number h.timestamp then some turnLength else none) := by
  unfold getTurnLengthFromHeader
  cases hbohr : p.spec.isBohrActiveAtTimestamp h.number h.timestamp with
  | false =>
    rw [if_pos (by simp)]
    rfl
  | true =>
    have hactive := hforks hbohr
    have hlen := hlayout.length_luban hactive
    have hseal : extraSealLen ≤ rest.length := hlayout.seal_le
    have hfront : (vanity ++ [UInt8.ofNat validators.length] ++
        (p.announcedPairs h.number validators voteAddrs).flatMap pairBytes).length
        = extraVanityLen + 1 + validators.length * validatorBytesLenAfterLuban := by
      rw [List.length_append, List.length_append, hlayout.length_vanity, length_announcedBytes]
      rfl
    have hturn : p.turnLengthSection h turnLength = [turnLength] := if_pos hbohr
    have hget : h.extraData[extraVanityLen + 1 + validators.length * validatorBytesLenAfterLuban]?
        = some turnLength := by
      rw [hlayout.extraData_luban hactive, hturn, ← List.append_assoc, ← hfront,
        List.getElem?_append_right (Nat.le_refl _), Nat.sub_self]
      rfl
    rw [if_neg (by simp [hepoch]), if_neg (by simp only [extraVanityLen, extraSealLen] at *; omega),
      hlayout.validatorCount hactive hcount]
    dsimp only
    rw [hget]
    rfl

theorem attestationSection_some_ne_nil (a : VoteAttestation) : attestationSection (some a) ≠ [] := by
  obtain ⟨b, rest, hrlp, -⟩ := Rlp.head_encodeList [encodeU64 a.voteAddressSet,
    Rlp.encodeBytes a.aggSignature.val, a.data.rlp, Rlp.encodeBytes a.extra].flatten
  have hrlp : attestationSection (some a) = b :: rest := hrlp
  rw [hrlp]
  exact List.cons_ne_nil _ _

variable (p h epochLength) in
/-- Where the reader looks for the attestation. -/
def attestationStart : Nat :=
  if !isMultipleOf h.number epochLength then extraVanityLen
  else
    extraVanityLen + validatorNumberSize + h.validatorCount * validatorBytesLenAfterLuban +
      p.turnLengthLen h

/-- An attestation is read if it stands between the place the reader looks at and the seal. -/
theorem getVoteAttestation_of_end {decode : Bytes → Option VoteAttestation} {front : Bytes}
    (hactive : p.spec.isLubanActiveAtBlock h.number = true)
    (hstart : p.attestationStart h epochLength = front.length)
    (hfront : extraVanityLen ≤ front.length)
    (hextra : h.extraData = front ++ (attestationSection attestation ++ signature.val))
    (hdecode : ∀ a, attestation = some a → decode a.rlp = some a) :
    p.getVoteAttestationFromHeader h decode epochLength = .ok attestation := by
  have hlen : h.extraData.length
      = front.length + (attestationSection attestation).length + extraSealLen := by
    rw [hextra, List.length_append, List.length_append, signature.length_val, Nat.add_assoc]
  unfold attestationStart turnLengthLen at hstart
  unfold getVoteAttestationFromHeader
  dsimp only
  rw [hstart, hlen, hactive]
  cases attestation with
  | none =>
    have hnone : (attestationSection none).length = 0 := rfl
    simp [*]
  | some a =>
    have hpos : 0 < (attestationSection (some a)).length :=
      List.length_pos_iff.mpr (attestationSection_some_ne_nil a)
    have hcut : (h.extraData.take
        (front.length + (attestationSection (some a)).length)).drop front.length = a.rlp := by
      rw [hextra, List.take_length_add_append, List.drop_left, List.take_left]
      rfl
    rw [if_neg (by omega), if_neg (by simp), Nat.add_sub_cancel, if_neg (by omega), hcut,
      hdecode a rfl]

theorem getVoteAttestation_before_luban {decode : Bytes → Option VoteAttestation}
    (hinactive : p.spec.isLubanActiveAtBlock h.number = false) :
    p.getVoteAttestationFromHeader h decode epochLength = .ok none := by
  simp_all [getVoteAttestationFromHeader]

/-- In an epoch header the reader skips the validators and the turn length. -/
theorem Sectioned.attestationStart
    (hlayout : p.Sectioned h (p.validatorSection h.number validators voteAddrs) vanity
      (p.turnLengthSection h turnLength) rest) (hepoch : isMultipleOf h.number epochLength = true)
    (hactive : p.spec.isLubanActiveAtBlock h.number = true) (hcount : validators.length ≤ 255) :
    p.attestationStart h epochLength = (vanity ++ (p.validatorSection h.number validators voteAddrs
      ++ p.turnLengthSection h turnLength)).length := by
  rw [Parlia.attestationStart, validatorSection, if_neg (by simp [hepoch]), if_pos hactive, hlayout.validatorCount hactive hcount]
  simp only [List.length_append, List.length_cons, hlayout.length_vanity, length_announcedBytes,
    hlayout.length_turnLength, validatorNumberSize]
  omega

end Parlia

/-! ## The round trip -/

section RoundTrip

variable {p : Parlia} {cache : B256 → Option UInt8} {parentSnap : Snapshot}
  {members : List (Address × VoteAddress)} {turnLength : UInt8}
  {attestation : Option VoteAttestation} {signature : FixedBytes extraSealLen} {header h : Header}

/-- The attestation is found if what stands before it is skipped.  Before Luban there is none. -/
theorem Parlia.getVoteAttestation_of_appends {mid : Bytes} {epochLength : UInt64}
    {decode : Bytes → Option VoteAttestation} (hvanity : header.extraData.length = extraVanityLen)
    (hattested : attestation.isSome = true → p.spec.isLubanActiveAtBlock header.number = true)
    (hdecode : ∀ a, attestation = some a → decode a.rlp = some a)
    (happends : header.Appends (mid ++ (attestationSection attestation ++ signature.val)) h)
    (hstart : p.spec.isLubanActiveAtBlock h.number = true →
      p.attestationStart h epochLength = (header.extraData ++ mid).length) :
    p.getVoteAttestationFromHeader h decode epochLength = .ok attestation := by
  cases hactive : p.spec.isLubanActiveAtBlock h.number with
  | true =>
    have hextra : h.extraData
        = header.extraData ++ mid ++ (attestationSection attestation ++ signature.val) := by
      rw [happends]
      exact (List.append_assoc ..).symm
    refine getVoteAttestation_of_end hactive (hstart hactive) ?_ hextra hdecode
    rw [List.length_append, hvanity]
    exact Nat.le_add_right _ _
  | false =>
    rw [getVoteAttestation_before_luban hactive]
    cases attestation with
    | none => rfl
    | some a =>
      rw [happends.number, hattested rfl] at hactive
      exact absurd hactive (by decide)

/-- **Round trip of the extra data.**  A header can be produced from a vanity.  In an epoch header
the parser finds the validators in ascending order, each with its own vote address, and the turn
length; in every header it finds the attestation. -/
theorem Parlia.extra_round_trip (p : Parlia) (decode : Bytes → Option VoteAttestation)
    (cache : B256 → Option UInt8) (parentSnap : Snapshot) (members : List (Address × VoteAddress))
    (hpos : members ≠ []) (hcount : members.length ≤ 255) (hnodup : (members.map Prod.fst).Nodup)
    (turnLength : UInt8) (attestation : Option VoteAttestation)
    (hdecode : ∀ a, attestation = some a → decode a.rlp = some a)
    (signature : FixedBytes extraSealLen) (header : Header)
    (hvanity : header.extraData.length = extraVanityLen)
    (hattested : attestation.isSome = true → p.spec.isLubanActiveAtBlock header.number = true)
    (hforks : p.spec.isBohrActiveAtTimestamp header.number header.timestamp = true →
      p.spec.isLubanActiveAtBlock header.number = true)
    (hcache : p.spec.isBohrActiveAtTimestamp header.number header.timestamp = true →
      cache header.parentHash = some turnLength) :
    ∃ h, p.produceExtra cache parentSnap (members.map Prod.fst) (members.map Prod.snd) attestation
        signature header = .ok h ∧
      (parentSnap.epochNum.toNat ∣ header.number.toNat →
        (∃ sorted : List (Address × VoteAddress),
          sorted.Perm (members.map (p.announced header.number)) ∧
          (sorted.map Prod.fst).Pairwise (· < ·) ∧
          p.parseValidatorsFromHeader h parentSnap.epochNum = .ok ⟨sorted.map Prod.fst,
            if p.spec.isLubanActiveAtBlock header.number then some (sorted.map Prod.snd)
            else none⟩) ∧
        p.getTurnLengthFromHeader h parentSnap.epochNum = .ok
          (if p.spec.isBohrActiveAtTimestamp header.number header.timestamp then some turnLength
          else none)) ∧
      p.getVoteAttestationFromHeader h decode parentSnap.epochNum = .ok attestation := by
  cases hepoch : isMultipleOf header.number parentSnap.epochNum with
  | false =>
    obtain ⟨h, hproduce, happends⟩ := produceExtra_of_not_epoch p (members.map Prod.fst)
      (members.map Prod.snd) cache attestation signature hepoch
    have hnot : ¬ parentSnap.epochNum.toNat ∣ header.number.toNat := by
      rw [Nat.dvd_iff_mod_eq_zero, ← isMultipleOf_iff, hepoch]
      decide
    have happends : header.Appends ([] ++ (attestationSection attestation ++ signature.val)) h :=
      happends
    refine ⟨h, hproduce, fun hdvd => absurd hdvd hnot,
      getVoteAttestation_of_appends hvanity hattested hdecode happends fun _ => ?_⟩
    rw [attestationStart, happends.number, hepoch, if_pos (by decide), List.append_nil, hvanity]
  | true =>
    obtain ⟨h, hproduce, happends⟩ := produceExtra_of_epoch (members.map Prod.fst)
      (members.map Prod.snd) attestation signature hepoch hcache
    have hlayout := sectioned_of_appends hvanity hattested happends
    have hnumber : h.number = header.number := happends.number
    have htimestamp : h.timestamp = header.timestamp := happends.timestamp
    have hlength : (members.map Prod.fst).length ≤ 255 := by rwa [List.length_map]
    rw [← hnumber] at hepoch
    rw [← hnumber, ← htimestamp] at hforks
    refine ⟨h, hproduce, fun _ => ⟨⟨_, announcedPairs_perm hnodup,
      announcedPairs_ascending hnodup, ?_⟩, ?_⟩, ?_⟩
    · have hcountable : p.Countable h (members.map Prod.fst) := by
        refine ⟨by simpa using hpos, ?_⟩
        split
        · exact hlength
        · simp_all
      rw [parse_of_section hepoch hlayout hcountable, hnumber, announcedPairs_fst]
      rfl
    · rw [getTurnLength_of_section hepoch hlayout hforks hlength, hnumber, htimestamp]
    · rw [← List.append_assoc] at happends
      refine getVoteAttestation_of_appends hvanity hattested hdecode happends fun hactive => ?_
      rw [hlayout.attestationStart hepoch hactive hlength]
      rw [happends]
      rfl

/-- Two validators and an attestation in block 200. -/
theorem Parlia.extra_round_trip_pair :
    ∃ h, (Parlia.ofSpec (lorentzSpec 500)).produceExtra (fun _ => some 4)
        (Snapshot.soloSnapshot 199) [loneValidator, FixedBytes.repeatByte 20 3]
        [loneVoteAddress, FixedBytes.repeatByte 48 3]
        (some (.newWithVoteData (nextAttestation 199).data)) (FixedBytes.repeatByte 65 1)
        (vanityHeader 200) = .ok h ∧
      (Parlia.ofSpec (lorentzSpec 500)).getTurnLengthFromHeader h 200 = .ok (some 4) ∧
      (Parlia.ofSpec (lorentzSpec 500)).getVoteAttestationFromHeader h VoteAttestation.decodeRlp 200
        = .ok (some (.newWithVoteData (nextAttestation 199).data)) := by
  obtain ⟨h, hproduce, hepoch, hread⟩ := Parlia.extra_round_trip (Parlia.ofSpec (lorentzSpec 500))
    VoteAttestation.decodeRlp (fun _ => some 4) (Snapshot.soloSnapshot 199)
    [(loneValidator, loneVoteAddress), (FixedBytes.repeatByte 20 3, FixedBytes.repeatByte 48 3)]
    (by decide) (by decide) (by decide) 4 (some (.newWithVoteData (nextAttestation 199).data))
    (by
      rintro a ⟨rfl⟩
      exact VoteAttestation.decodeRlp_rlp (by decide))
    (FixedBytes.repeatByte 65 1) (vanityHeader 200) (by decide) (fun _ => by decide)
    (fun _ => by decide) (fun _ => rfl)
  exact ⟨h, hproduce, (hepoch (by decide)).2, hread⟩

end RoundTrip

end RethBsc
