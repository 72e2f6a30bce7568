import RethBsc.Miner.SameEnv
import RethBsc.Node.AssembledAttestation
import RethBsc.Parlia.EpochCheck
import RethBsc.Parlia.RecentProposers

/-!
# The extra data of a produced header

A producer appends the sections of the extra data one after the other, and decides by the epoch
length of the parent snapshot which of them the header gets.  The header check and the parser find
the sections again by their lengths.

* `Header.Appends`: a step that appends bytes to the extra data.
* `prepareValidators_epoch` and `prepareTurnLength_epoch`: what the steps append.
* `produceExtra_of_epoch`, `produceExtra_of_not_epoch`: the extra data of a produced header.
* `Parlia.Sectioned`: extra data with a section for the validators, and the lengths in it.
* `produced_accepted_iff`: when the header check accepts what was produced.
* `parse_of_section`: the parser reads the section of the validators back.
* `finalizeNewHeader_carries_iff`: when a sealed epoch header has the cached validators.
-/

namespace RethBsc

open Rust Outcome

/-! ## Appending -/

/-- `h'` is `h` with `bytes` at the end of the extra data. -/
def Header.Appends (h : Header) (bytes : Bytes) (h' : Header) : Prop :=
  h' = { h with extraData := h.extraData ++ bytes }

namespace Header.Appends

theorem nil (h : Header) : h.Appends [] h := by
  rw [Appends, List.append_nil]

theorem trans {h h' h'' : Header} {bytes bytes' : Bytes} (hfirst : h.Appends bytes h')
    (hsecond : h'.Appends bytes' h'') : h.Appends (bytes ++ bytes') h'' := by
  simp_all [Appends]

theorem number {h h' : Header} {bytes : Bytes} (happends : h.Appends bytes h') :
    h'.number = h.number := by
  rw [happends]

theorem timestamp {h h' : Header} {bytes : Bytes} (happends : h.Appends bytes h') :
    h'.timestamp = h.timestamp := by
  rw [happends]

theorem appendSeal (h : Header) (signature : FixedBytes extraSealLen) :
    h.Appends signature.val (h.appendSeal signature) := rfl

end Header.Appends

namespace Parlia

variable (p : Parlia) {ε : Type} {snap : Snapshot} {header header' : Header}

/-! ## The section of the validators -/

/-- The vote addresses that are announced: zero in the block of the Luban transition and where
there are fewer vote addresses than validators. -/
def announcedVotes (number : UInt64) (validators : List Address) (voteAddrs : List VoteAddress) :
    Map Address VoteAddress :=
  if p.spec.isLubanTransitionAtBlock number then
    Map.insertAll id (fun _ => .zero) validators ∅
  else
    Map.insertAll Prod.fst (fun vi => voteAddrs.getD vi.2 .zero) validators.zipIdx ∅

/-- The validators in the order of their section, with their vote addresses. -/
def announcedPairs (number : UInt64) (validators : List Address) (voteAddrs : List VoteAddress) :
    List (Address × VoteAddress) :=
  (validators.insertionSort (· ≤ ·)).map fun v =>
    (v, ((p.announcedVotes number validators voteAddrs).lookup v).getD .zero)

/-- An address and its vote address. -/
def pairBytes (vv : Address × VoteAddress) : Bytes := vv.1.val ++ vv.2.val

theorem length_pairBytes (vv : Address × VoteAddress) :
    (pairBytes vv).length = validatorBytesLenAfterLuban := by
  rw [pairBytes, List.length_append, vv.1.length_val, vv.2.length_val]

def validatorSection (number : UInt64) (validators : List Address)
    (voteAddrs : List VoteAddress) : Bytes :=
  if p.spec.isLubanActiveAtBlock number then
    UInt8.ofNat validators.length ::
      (p.announcedPairs number validators voteAddrs).flatMap pairBytes
  else (validators.insertionSort (· ≤ ·)).flatMap FixedBytes.val

variable {p} {validators : List Address} {voteAddrs : List VoteAddress}

theorem mem_announcedVotes {number : UInt64} {v : Address} (hv : v ∈ validators) :
    v ∈ p.announcedVotes number validators voteAddrs := by
  unfold announcedVotes
  split
  · exact Map.mem_insertAll.mpr (.inl (by rwa [List.map_id]))
  · exact Map.mem_insertAll.mpr (.inl (by rwa [List.zipIdx_map_fst]))

theorem length_announcedPairs (number : UInt64) :
    (p.announcedPairs number validators voteAddrs).length = validators.length := by
  rw [announcedPairs, List.length_map, List.length_insertionSort]

theorem announcedPairs_fst (number : UInt64) :
    (p.announcedPairs number validators voteAddrs).map Prod.fst
      = validators.insertionSort (· ≤ ·) := by
  rw [announcedPairs, List.map_map]
  exact List.map_id _

/-- The validators of an epoch header are appended; no lookup of a vote address fails. -/
theorem prepareValidators_epoch (hepoch : isMultipleOf header.number snap.epochNum = true) :
    (p.prepareValidators snap (some (validators, voteAddrs)) header : Outcome ε Header)
      = .ok { header with
          extraData := header.extraData ++ p.validatorSection header.number validators voteAddrs } := by
  unfold prepareValidators validatorSection
  rw [if_neg (by simp [hepoch])]
  dsimp only
  cases hluban : p.spec.isLubanActiveAtBlock header.number with
  | false => rfl
  | true =>
    rw [if_neg (by simp), if_pos rfl]
    have hlookup : ∀ v ∈ validators.insertionSort (· ≤ ·), (do
        let voteAddr ← (unwrap
          ((p.announcedVotes header.number validators voteAddrs).lookup v) : Outcome ε VoteAddress)
        pure (v.val ++ voteAddr.val)) = .ok (v.val ++
          (((p.announcedVotes header.number validators voteAddrs).lookup v).getD
            .zero).val) := by
      intro v hv
      have hmem : v ∈ p.announcedVotes header.number validators voteAddrs :=
        mem_announcedVotes ((List.mem_insertionSort _).mp hv)
      obtain ⟨voteAddr, hvote⟩ := Option.isSome_iff_exists.mp (AList.lookup_isSome.mpr hmem)
      rw [hvote]
      rfl
    have hbytes := Outcome.mapM_eq_ok_map hlookup
    unfold announcedVotes at hbytes
    rw [hbytes, ok_bind, announcedPairs, announcedVotes, List.flatMap_map]
    rfl

theorem length_announcedBytes (number : UInt64) :
    ((p.announcedPairs number validators voteAddrs).flatMap pairBytes).length
      = validators.length * validatorBytesLenAfterLuban := by
  rw [length_flatMap_of_length fun vv _ => length_pairBytes vv, length_announcedPairs]

theorem length_addressBytes :
    ((validators.insertionSort (· ≤ ·)).flatMap FixedBytes.val).length
      = validators.length * validatorBytesLenBeforeLuban := by
  rw [length_flatMap_of_length (w := validatorBytesLenBeforeLuban), List.length_insertionSort]
  exact fun v _ => v.length_val

/-! ## The turn length -/

theorem prepareTurnLength_appends {cache : B256 → Option UInt8}
    (hepoch : isMultipleOf header.number snap.epochNum = true)
    (h : p.prepareTurnLength cache snap header = .ok header') :
    ∃ bytes, bytes.length = p.turnLengthLen header ∧ header.Appends bytes header' := by
  unfold prepareTurnLength at h
  unfold turnLengthLen
  cases hbohr : p.spec.isBohrActiveAtTimestamp header.number header.timestamp with
  | false =>
    rw [if_pos (by simp [hbohr])] at h
    cases h
    exact ⟨[], rfl, .nil _⟩
  | true =>
    rw [if_neg (by simp [hbohr, hepoch])] at h
    obtain ⟨turnLength, -, h⟩ := bind_eq_ok.mp h
    exact ⟨[turnLength], rfl, (ok.inj h).symm⟩

variable (p) in
def turnLengthSection (header : Header) (turnLength : UInt8) : Bytes :=
  if p.spec.isBohrActiveAtTimestamp header.number header.timestamp then [turnLength] else []

theorem length_turnLengthSection {turnLength : UInt8} :
    (p.turnLengthSection header turnLength).length = p.turnLengthLen header := by
  unfold turnLengthSection turnLengthLen
  split
  · rfl
  · rfl

theorem prepareTurnLength_epoch {cache : B256 → Option UInt8} {turnLength : UInt8}
    (hepoch : isMultipleOf header.number snap.epochNum = true)
    (hcache : p.spec.isBohrActiveAtTimestamp header.number header.timestamp = true →
      cache header.parentHash = some turnLength) :
    p.prepareTurnLength cache snap header = .ok { header with
      extraData := header.extraData ++ p.turnLengthSection header turnLength } := by
  unfold prepareTurnLength turnLengthSection
  cases hbohr : p.spec.isBohrActiveAtTimestamp header.number header.timestamp with
  | false => simp
  | true =>
    rw [hepoch, hcache hbohr]
    rfl

def attestationSection (attestation : Option VoteAttestation) : Bytes :=
  (attestation.map VoteAttestation.rlp).getD []

end Parlia

/-! ## The header check on produced headers -/

/-- The extra data of a produced header: validators and turn length if the parent snapshot asks for
them, an attestation, and the seal. -/
def Parlia.produceExtra (p : Parlia) (cache : B256 → Option UInt8) (parentSnap : Snapshot)
    (validators : List Address) (voteAddrs : List VoteAddress) (attestation : Option VoteAttestation)
    (signature : FixedBytes extraSealLen) (header : Header) :
    Outcome ParliaConsensusError Header := do
  let header ← p.prepareValidators parentSnap (some (validators, voteAddrs)) header
  let header ← p.prepareTurnLength cache parentSnap header
  let attested :=
    { header with extraData := header.extraData ++ (attestation.map VoteAttestation.rlp).getD [] }
  pure (attested.appendSeal signature)

/-- An epoch header by its own forks is one for the parent snapshot, and it has no turn length
where the validators have no vote addresses. -/
def Parlia.Aligned (p : Parlia) (parentSnap : Snapshot) (header : Header) : Prop :=
  p.IsEpochHeader header →
    isMultipleOf header.number parentSnap.epochNum = true ∧
      (p.spec.isLubanActiveAtBlock header.number = true ∨
        p.spec.isBohrActiveAtTimestamp header.number header.timestamp = false)

section Check

variable {p : Parlia} {parentSnap : Snapshot} {validators : List Address}
  {voteAddrs : List VoteAddress} {header : Header}

/-- The bytes after the vanity, with the length of the whole. -/
theorem Header.validatorCount_append {vanity rest : Bytes} {b : UInt8} {h : Header}
    (hextra : h.extraData = vanity ++ b :: rest) (hvanity : vanity.length = extraVanityLen) :
    h.validatorCount = b.toNat := by
  rw [Header.validatorCount, hextra, ← hvanity]
  simp

/-- The extra data of `h`: a vanity, `bytes`, the turn length if there is one, and `rest`, which has
room for the seal and before Luban is nothing else. -/
structure Parlia.Sectioned (p : Parlia) (h : Header) (bytes vanity turnLength rest : Bytes) : Prop where
  length_vanity : vanity.length = extraVanityLen
  extraData : h.extraData = vanity ++ (bytes ++ (turnLength ++ rest))
  length_turnLength : turnLength.length = p.turnLengthLen h
  seal_le : extraSealLen ≤ rest.length
  plain : p.spec.isLubanActiveAtBlock h.number = false → rest.length = extraSealLen

namespace Parlia.Sectioned

variable {h : Header} {vanity turnLength rest : Bytes}
  (hlayout : p.Sectioned h (p.validatorSection h.number validators voteAddrs) vanity turnLength rest)

include hlayout

/-- From Luban on a count stands between the vanity and the validators. -/
theorem extraData_luban (hactive : p.spec.isLubanActiveAtBlock h.number = true) :
    h.extraData = (vanity ++ [UInt8.ofNat validators.length]) ++
      ((p.announcedPairs h.number validators voteAddrs).flatMap pairBytes ++
        (turnLength ++ rest)) := by
  have hextra := hlayout.extraData
  unfold validatorSection at hextra
  rw [if_pos hactive] at hextra
  rw [hextra]
  simp

theorem extraData_plain (hinactive : p.spec.isLubanActiveAtBlock h.number = false) :
    h.extraData = vanity ++ ((validators.insertionSort (· ≤ ·)).flatMap FixedBytes.val ++
      (turnLength ++ rest)) := by
  have hextra := hlayout.extraData
  unfold validatorSection at hextra
  rwa [if_neg (by simp [hinactive])] at hextra

theorem validatorCount (hactive : p.spec.isLubanActiveAtBlock h.number = true)
    (hcount : validators.length ≤ 255) : h.validatorCount = validators.length := by
  have hextra := hlayout.extraData_luban hactive
  rw [List.append_assoc, List.singleton_append] at hextra
  rw [Header.validatorCount_append hextra hlayout.length_vanity]
  exact UInt8.toNat_ofNat_of_lt' (show _ < 256 by omega)

theorem length_luban (hactive : p.spec.isLubanActiveAtBlock h.number = true) :
    h.extraData.length = 33 + validators.length * 68 + p.turnLengthLen h + rest.length := by
  rw [hlayout.extraData_luban hactive]
  simp only [List.length_append, List.length_singleton, hlayout.length_vanity,
    length_announcedBytes, hlayout.length_turnLength]
  simp only [extraVanityLen, validatorBytesLenAfterLuban]
  omega

theorem length_plain (hinactive : p.spec.isLubanActiveAtBlock h.number = false) :
    h.extraData.length = 97 + validators.length * 20 + p.turnLengthLen h := by
  rw [hlayout.extraData_plain hinactive]
  simp only [List.length_append, hlayout.length_vanity, length_addressBytes,
    hlayout.length_turnLength, hlayout.plain hinactive]
  simp
  omega

/-- With the validators in the header the check passes, unless a turn length stands where only
addresses should be. -/
theorem validatorsFit_iff (hpos : validators ≠ []) (hcount : validators.length ≤ 255) :
    p.ValidatorsFit h 0 ↔ p.spec.isLubanActiveAtBlock h.number = true ∨
      p.spec.isBohrActiveAtTimestamp h.number h.timestamp = false := by
  have hlength : 0 < validators.length := List.length_pos_iff.mpr hpos
  have hseal : 65 ≤ rest.length := hlayout.seal_le
  unfold ValidatorsFit
  cases hactive : p.spec.isLubanActiveAtBlock h.number with
  | true =>
    rw [if_pos rfl, hlayout.validatorCount hactive hcount, hlayout.length_luban hactive]
    simp only [validatorBytesLenAfterLuban, true_or, iff_true]
    omega
  | false =>
    rw [if_neg (by simp), hlayout.length_plain hactive]
    unfold turnLengthLen
    -- one byte too many is no multiple of an address
    cases hbohr : p.spec.isBohrActiveAtTimestamp h.number h.timestamp with
    | true =>
      simp only [validatorBytesLenBeforeLuban, turnLengthSize, if_true]
      simp
      omega
    | false =>
      simp only [validatorBytesLenBeforeLuban]
      simp
      omega

end Parlia.Sectioned

/-- Without them it does not: the byte at the place of the count is that of a seal or of a list, and
the count that it stands for does not fit. -/
theorem Parlia.not_validatorsFit {h : Header} {vanity : Bytes}
    {attestation : Option VoteAttestation} {signature : FixedBytes extraSealLen}
    (hvanity : vanity.length = extraVanityLen) (hextra : h.extraData
      = vanity ++ ((attestation.map VoteAttestation.rlp).getD [] ++ signature.val))
    (hlimit : ∀ a, attestation = some a → a.extra.length ≤ maxAttestationExtraLength)
    (hluban : attestation.isSome = true → p.spec.isLubanActiveAtBlock h.number = true) :
    ¬ p.ValidatorsFit h 0 := by
  unfold Parlia.ValidatorsFit
  cases attestation with
  | none =>
    have hlen : h.extraData.length = 97 := by simp [*]
    rw [hlen]
    -- vanity and seal leave no room for a single validator
    split
    · omega
    · omega
  | some a =>
    rw [if_pos (hluban rfl)]
    obtain ⟨b, rest, hrlp, hb⟩ := Rlp.head_encodeList [encodeU64 a.voteAddressSet,
      Rlp.encodeBytes a.aggSignature.val, a.data.rlp, Rlp.encodeBytes a.extra].flatten
    have hrlp : a.rlp = b :: rest := hrlp
    have hshort : a.rlp.length ≤ a.extra.length + 256 + 9 :=
      (Rlp.length_encodeList_le _).trans (Nat.add_le_add_right a.length_payload_le 9)
    have hlen : h.extraData.length = 97 + a.rlp.length := by
      simp_all
      omega
    have hcount : h.validatorCount = b.toNat := by
      rw [Option.map_some, Option.getD_some, hrlp, List.cons_append] at hextra
      exact Header.validatorCount_append hextra hvanity
    have hextraLen : a.extra.length ≤ 256 := hlimit a rfl
    -- the first byte of a list is 192 or more, and so many validators are longer than the list
    simp
    omega

variable {cache : B256 → Option UInt8} {attestation : Option VoteAttestation}
  {signature : FixedBytes extraSealLen} {h : Header}

variable (validators voteAddrs attestation signature) in
/-- An epoch header gets every section. -/
theorem Parlia.produceExtra_of_epoch {turnLength : UInt8}
    (hepoch : isMultipleOf header.number parentSnap.epochNum = true)
    (hcache : p.spec.isBohrActiveAtTimestamp header.number header.timestamp = true →
      cache header.parentHash = some turnLength) :
    ∃ h, p.produceExtra cache parentSnap validators voteAddrs attestation signature header = .ok h ∧
      header.Appends (p.validatorSection header.number validators voteAddrs ++
        (p.turnLengthSection header turnLength ++
          (attestationSection attestation ++ signature.val))) h := by
  have hturn : p.prepareTurnLength cache parentSnap { header with
      extraData := header.extraData ++ p.validatorSection header.number validators voteAddrs } = _ :=
    prepareTurnLength_epoch hepoch hcache
  refine ⟨_, ?_, rfl⟩
  rw [produceExtra, prepareValidators_epoch hepoch, ok_bind, hturn, ok_bind, pure_eq,
    Header.appendSeal]
  simp only [List.append_assoc]
  rfl

variable (p cache validators voteAddrs attestation signature) in
/-- Any other header has attestation and seal only. -/
theorem Parlia.produceExtra_of_not_epoch
    (hepoch : isMultipleOf header.number parentSnap.epochNum = false) :
    ∃ h, p.produceExtra cache parentSnap validators voteAddrs attestation signature header = .ok h ∧
      header.Appends (attestationSection attestation ++ signature.val) h := by
  have hvalidators : p.prepareValidators parentSnap (some (validators, voteAddrs)) header
      = (.ok header : Outcome ParliaConsensusError Header) := if_pos (by simp [hepoch])
  have hturn : p.prepareTurnLength cache parentSnap header = .ok header :=
    if_pos (by simp [hepoch])
  refine ⟨_, ?_, rfl⟩
  rw [produceExtra, hvalidators, ok_bind, hturn, ok_bind, pure_eq, Header.appendSeal]
  simp only [List.append_assoc]
  rfl

/-- The layout of a produced epoch header. -/
theorem Parlia.sectioned_of_appends {turnLength : UInt8}
    (hvanity : header.extraData.length = extraVanityLen)
    (hattested : attestation.isSome = true → p.spec.isLubanActiveAtBlock header.number = true)
    (happends : header.Appends (p.validatorSection header.number validators voteAddrs ++
      (p.turnLengthSection header turnLength ++
        (attestationSection attestation ++ signature.val))) h) :
    p.Sectioned h (p.validatorSection h.number validators voteAddrs) header.extraData
      (p.turnLengthSection h turnLength) (attestationSection attestation ++ signature.val) := by
  rw [happends]
  refine ⟨hvanity, rfl, length_turnLengthSection, ?_, fun hinactive => ?_⟩
  · rw [List.length_append, signature.length_val]
    exact Nat.le_add_left _ _
  · cases attestation with
    | none => exact signature.length_val
    | some a => exact absurd ((hattested rfl).symm.trans hinactive) (by decide)

/-- **Produced headers and the header check.**  A header can be produced, and the check accepts it
if header and parent snapshot agree on the epoch block.  With an attestation of a size that the
verifier does not refuse it accepts no other. -/
theorem Parlia.produced_accepted_iff (p : Parlia) (cache : B256 → Option UInt8)
    (parentSnap : Snapshot) (validators : List Address) (voteAddrs : List VoteAddress)
    (hpos : validators ≠ []) (hcount : validators.length ≤ 255)
    (attestation : Option VoteAttestation) (signature : FixedBytes extraSealLen) (header : Header)
    (hvanity : header.extraData.length = extraVanityLen)
    (hcache : (cache header.parentHash).isSome = true)
    (hluban : attestation.isSome = true → p.spec.isLubanActiveAtBlock header.number = true) :
    ∃ h, p.produceExtra cache parentSnap validators voteAddrs attestation signature header = .ok h ∧
      (p.Aligned parentSnap header → p.checkHeaderExtra h = .ok ()) ∧
      ((∀ a, attestation = some a → a.extra.length ≤ maxAttestationExtraLength) →
        p.checkHeaderExtra h = .ok () → p.Aligned parentSnap header) := by
  obtain ⟨turnLength, hturn⟩ := Option.isSome_iff_exists.mp hcache
  have hcheck : ∀ {bytes h}, header.Appends (bytes ++ signature.val) h →
      (p.checkHeaderExtra h = .ok () ↔ (p.IsEpochHeader header → p.ValidatorsFit h 0)) := by
    rintro bytes _ rfl
    rw [checkHeaderExtra_eq_ok]
    refine ⟨And.right, fun h => ⟨?_, h⟩⟩
    simp_all
    omega
  cases hmultiple : isMultipleOf header.number parentSnap.epochNum with
  | true =>
    obtain ⟨h, hproduce, happends⟩ := produceExtra_of_epoch validators voteAddrs attestation
      signature hmultiple fun _ => hturn
    have hfits := (sectioned_of_appends hvanity hluban happends).validatorsFit_iff hpos hcount
    rw [happends.number, happends.timestamp] at hfits
    simp only [← List.append_assoc] at happends
    refine ⟨h, hproduce, ?_⟩
    rw [hcheck happends, hfits]
    exact ⟨fun haligned hepoch => (haligned hepoch).2,
      fun _ hforks hepoch => ⟨hmultiple, hforks hepoch⟩⟩
  | false =>
    obtain ⟨h, hproduce, happends⟩ := produceExtra_of_not_epoch p validators voteAddrs cache
      attestation signature hmultiple
    refine ⟨h, hproduce, ?_⟩
    rw [hcheck happends]
    refine ⟨fun haligned hepoch => ?_, fun hlimit hfits hepoch => ?_⟩
    · rw [(haligned hepoch).1] at hmultiple
      cases hmultiple
    · rw [happends] at hfits
      exact absurd (hfits hepoch) (Parlia.not_validatorsFit hvanity rfl hlimit hluban)

end Check

/-! ### Lorentz from block 500 on

The snapshot of block 499 has an epoch length of 200, since Lorentz was not active yet.  Block 500
is an epoch block by its own forks, and gets no validators. -/

/-- The header of block `n` before the producer extends it. -/
def vanityHeader (n : Nat) : Header :=
  { Snapshot.tickHeader n with extraData := List.replicate 32 0 }

theorem block500_refused :
    Snapshot.Reachable numberHash (lorentzSpec 500) (Snapshot.soloSnapshot 499) ∧
      (Snapshot.soloSnapshot 499).blockNumber + 1 = (vanityHeader 500).number ∧
      ∃ h, (Parlia.ofSpec (lorentzSpec 500)).produceExtra (fun _ => some 1)
          (Snapshot.soloSnapshot 499) [loneValidator] [loneVoteAddress] none
          (FixedBytes.repeatByte 65 1) (vanityHeader 500) = .ok h ∧
        (Parlia.ofSpec (lorentzSpec 500)).checkHeaderExtra h
          = .error (.invalidHeaderExtraLen 97) :=
  ⟨Snapshot.reachable_soloRun (n := 499) (by decide +kernel), by decide, _, rfl, by decide +kernel⟩

/-- Block 400, before Lorentz, is an epoch block for both. -/
theorem block400_accepted :
    ∃ h, (Parlia.ofSpec (lorentzSpec 500)).produceExtra (fun _ => some 1)
        (Snapshot.soloSnapshot 399) [loneValidator] [loneVoteAddress] none
        (FixedBytes.repeatByte 65 1) (vanityHeader 400) = .ok h ∧
      (Parlia.ofSpec (lorentzSpec 500)).checkHeaderExtra h = .ok () := by
  obtain ⟨h, hproduce, haccepted, -⟩ := Parlia.produced_accepted_iff
    (Parlia.ofSpec (lorentzSpec 500)) (fun _ => some 1) (Snapshot.soloSnapshot 399) [loneValidator]
    [loneVoteAddress] (by decide) (by decide) none (FixedBytes.repeatByte 65 1) (vanityHeader 400)
    (by decide) rfl (by decide)
  exact ⟨h, hproduce, haccepted fun _ => ⟨by decide, .inl (by decide)⟩⟩

/-! ## Parsing the section -/

namespace Parlia

section Parse

variable {p : Parlia} {number : UInt64} {validators : List Address} {voteAddrs : List VoteAddress}

/-- A part of a buffer that is a fixed number of bytes. -/
theorem bytesAt_eq_ok {n : Nat} {bytes rest : Bytes} {start : Nat} (a : FixedBytes n)
    (h : bytes.drop start = a.val ++ rest) : bytesAt bytes start = .ok a := by
  simp_all [bytesAt, a.length_val]

theorem map_range_getElem {α : Type} (l : List α) (d : α) :
    (List.range l.length).map (fun i => l.getD i d) = l := by
  refine List.ext_getElem (by simp) fun i hi hi' => ?_
  simp [List.getD, List.getElem?_eq_getElem hi']

theorem drop_eq_getD_cons {α : Type} {l : List α} {i : Nat} (d : α) (hi : i < l.length) :
    l.drop i = l.getD i d :: l.drop (i + 1) := by
  simp [*]

/-- Pairs of addresses are read back. -/
theorem parseValidatorsAfterLuban_flatMap (pairs : List (Address × VoteAddress)) :
    parseValidatorsAfterLuban (pairs.flatMap pairBytes)
      = .ok ⟨pairs.map Prod.fst, some (pairs.map Prod.snd)⟩ := by
  have hwidth : ∀ vv ∈ pairs, (pairBytes vv).length = validatorBytesLenAfterLuban :=
    fun vv _ => length_pairBytes vv
  let d : Address × VoteAddress := (.zero, .zero)
  have hread : ∀ i ∈ List.range pairs.length, (do
      let consensusAddr ← (bytesAt (pairs.flatMap pairBytes)
        (i * validatorBytesLenAfterLuban) : Outcome ParliaConsensusError Address)
      let voteAddr ← (bytesAt (pairs.flatMap pairBytes)
        (i * validatorBytesLenAfterLuban + addressLength)
        : Outcome ParliaConsensusError VoteAddress)
      pure (consensusAddr, voteAddr)) = .ok (pairs.getD i d) := by
    intro i hi
    have hdrop : (pairs.flatMap pairBytes).drop (i * validatorBytesLenAfterLuban)
        = (pairs.getD i d).1.val ++
          ((pairs.getD i d).2.val ++ (pairs.drop (i + 1)).flatMap pairBytes) := by
      rw [drop_flatMap_of_length hwidth, drop_eq_getD_cons d (List.mem_range.mp hi),
        List.flatMap_cons]
      exact List.append_assoc ..
    have hvote : (pairs.flatMap pairBytes).drop (i * validatorBytesLenAfterLuban + addressLength)
        = (pairs.getD i d).2.val ++ (pairs.drop (i + 1)).flatMap pairBytes := by
      rw [← List.drop_drop, hdrop]
      exact List.drop_left' (pairs.getD i d).1.length_val
    rw [bytesAt_eq_ok (pairs.getD i d).1 hdrop, ok_bind,
      bytesAt_eq_ok (pairs.getD i d).2 hvote, ok_bind]
    rfl
  unfold parseValidatorsAfterLuban
  dsimp only
  rw [length_flatMap_of_length hwidth, Nat.mul_div_cancel _ (by decide),
    Outcome.mapM_eq_ok_map hread, map_range_getElem, Outcome.ok_bind]
  rfl

theorem parseValidatorsBeforeLuban_flatMap (addrs : List Address) :
    parseValidatorsBeforeLuban (addrs.flatMap FixedBytes.val) = .ok ⟨addrs, none⟩ := by
  have hwidth : ∀ a ∈ addrs, a.val.length = validatorBytesLenBeforeLuban := fun a _ => a.length_val
  let d : Address := .zero
  have hread : ∀ i ∈ List.range addrs.length,
      (bytesAt (addrs.flatMap FixedBytes.val) (i * validatorBytesLenBeforeLuban)
        : Outcome ParliaConsensusError Address) = .ok (addrs.getD i d) := by
    intro i hi
    have hdrop := drop_flatMap_of_length hwidth i
    rw [drop_eq_getD_cons d (List.mem_range.mp hi), List.flatMap_cons] at hdrop
    exact bytesAt_eq_ok _ hdrop
  unfold parseValidatorsBeforeLuban
  dsimp only
  rw [length_flatMap_of_length hwidth, Nat.mul_div_cancel _ (by decide),
    Outcome.mapM_eq_ok_map hread, map_range_getElem, Outcome.ok_bind]
  rfl

variable {h : Header} {epochLength : UInt64} {info : ValidatorsInfo}

variable (p number validators voteAddrs) in
/-- What the parser should read. -/
def announcedInfo : ValidatorsInfo :=
  ⟨validators.insertionSort (· ≤ ·),
    if p.spec.isLubanActiveAtBlock number then
      some ((p.announcedPairs number validators voteAddrs).map Prod.snd)
    else none⟩

/-- The count and, without vote addresses, the width of a section can be read back. -/
def Countable (p : Parlia) (h : Header) (validators : List Address) : Prop :=
  validators ≠ [] ∧
    if p.spec.isLubanActiveAtBlock h.number then validators.length ≤ 255
    else p.spec.isBohrActiveAtTimestamp h.number h.timestamp = false

instance (p : Parlia) (h : Header) (validators : List Address) :
    Decidable (p.Countable h validators) := by
  unfold Countable
  infer_instance

/-- The bytes of the validators are cut out of the extra data where they were put. -/
theorem getValidatorBytes_of_section {vanity turnLength rest : Bytes}
    (hepoch : isMultipleOf h.number epochLength = true)
    (hlayout : p.Sectioned h (p.validatorSection h.number validators voteAddrs) vanity turnLength rest)
    (hcountable : p.Countable h validators) :
    p.getValidatorBytesFromHeader h epochLength = some
      (if p.spec.isLubanActiveAtBlock h.number then
        (p.announcedPairs h.number validators voteAddrs).flatMap pairBytes
      else (validators.insertionSort (· ≤ ·)).flatMap FixedBytes.val) := by
  obtain ⟨hne, hsize⟩ := hcountable
  have hpos : 0 < validators.length := List.length_pos_iff.mpr hne
  have hseal : 65 ≤ rest.length := hlayout.seal_le
  rw [getValidatorBytesFromHeader, hepoch, show (if p.spec.isBohrActiveAtTimestamp h.number h.timestamp = true then
    turnLengthSize else 0) = p.turnLengthLen h from rfl]
  cases hactive : p.spec.isLubanActiveAtBlock h.number with
  | true =>
    rw [if_pos hactive] at hsize
    have hlen := hlayout.length_luban hactive
    simp only [extraVanityLen, extraSealLen, validatorNumberSize, validatorBytesLenAfterLuban]
    rw [if_neg (by omega), if_pos trivial, if_neg (by simp),
      hlayout.validatorCount hactive hsize, if_neg (by omega), if_pos trivial]
    -- the section stands after the vanity and the count
    have hfront : (vanity ++ [UInt8.ofNat validators.length]).length = 32 + 1 := by
      rw [List.length_append, hlayout.length_vanity]
      rfl
    have hbytes : ((p.announcedPairs h.number validators voteAddrs).flatMap pairBytes).length
        = validators.length * 68 := length_announcedBytes h.number
    rw [hlayout.extraData_luban hactive, ← hfront, ← hbytes, List.take_length_add_append,
      List.drop_left, List.take_left]
  | false =>
    rw [if_neg (by simp [hactive])] at hsize
    have hzero : p.turnLengthLen h = 0 := by
      rw [turnLengthLen, hsize]
      rfl
    have hnil : turnLength = [] :=
      List.length_eq_zero_iff.mp (hlayout.length_turnLength.trans hzero)
    have hlen := hlayout.length_plain hactive
    simp only [extraVanityLen, extraSealLen, validatorBytesLenBeforeLuban]
    rw [if_neg (by omega), if_neg (by simp), if_neg (by simp; omega), if_neg (by simp)]
    -- what is left between vanity and seal is the section
    have hcut : h.extraData.take (h.extraData.length - 65)
        = vanity ++ (validators.insertionSort (· ≤ ·)).flatMap FixedBytes.val := by
      rw [hlayout.extraData_plain hactive, hnil, List.nil_append, ← List.append_assoc]
      refine List.take_left' ?_
      simp only [List.length_append, hlayout.plain hactive]
      exact (Nat.add_sub_cancel _ 65).symm
    rw [hcut]
    exact congrArg some (List.drop_left' hlayout.length_vanity)

theorem parse_of_section {vanity turnLength rest : Bytes}
    (hepoch : isMultipleOf h.number epochLength = true)
    (hlayout : p.Sectioned h (p.validatorSection h.number validators voteAddrs) vanity turnLength rest)
    (hcountable : p.Countable h validators) :
    p.parseValidatorsFromHeader h epochLength
      = .ok (p.announcedInfo h.number validators voteAddrs) := by
  have hbytes := getValidatorBytes_of_section hepoch hlayout hcountable
  have hpos : 0 < validators.length := List.length_pos_iff.mpr hcountable.1
  rw [parseValidatorsFromHeader, announcedInfo, hbytes, okOr_some, ok_bind]
  cases hactive : p.spec.isLubanActiveAtBlock h.number with
  | true =>
    have hne : (p.announcedPairs h.number validators voteAddrs).flatMap pairBytes ≠ [] := by
      rw [← List.length_pos_iff, length_announcedBytes]
      exact Nat.mul_pos hpos (by decide)
    rw [if_pos rfl, if_neg hne, if_pos rfl, parseValidatorsAfterLuban_flatMap, announcedPairs_fst,
      if_pos rfl]
  | false =>
    have hne : (validators.insertionSort (· ≤ ·)).flatMap FixedBytes.val ≠ [] := by
      rw [← List.length_pos_iff, length_addressBytes]
      exact Nat.mul_pos hpos (by decide)
    simp only [Bool.false_eq_true, if_false]
    rw [if_neg hne, parseValidatorsBeforeLuban_flatMap]

/-- The parser reads no more validators than a byte can count. -/
theorem length_parse_le (hactive : p.spec.isLubanActiveAtBlock h.number = true)
    (hparse : p.parseValidatorsFromHeader h epochLength = .ok info) :
    info.consensusAddrs.length ≤ 255 := by
  unfold parseValidatorsFromHeader at hparse
  obtain ⟨bytes, hbytes, hparse⟩ := bind_eq_ok.mp hparse
  have hbytes := okOr_eq_ok.mp hbytes
  split at hparse
  · simp at hparse
  have hlen : bytes.length ≤ 255 * validatorBytesLenAfterLuban := by
    have hcount : h.validatorCount ≤ 255 :=
      Nat.le_of_lt_succ (h.extraData.getD extraVanityLen 0).toNat_lt
    have hle : h.validatorCount * validatorBytesLenAfterLuban ≤ 255 * validatorBytesLenAfterLuban :=
      Nat.mul_le_mul_right _ hcount
    unfold getValidatorBytesFromHeader at hbytes
    rw [hactive, show (if p.spec.isBohrActiveAtTimestamp h.number h.timestamp = true then
      turnLengthSize else 0) = p.turnLengthLen h from rfl] at hbytes
    dsimp only at hbytes
    -- of the ways out of the reader only the last one gives bytes
    grind
  unfold parseValidatorsAfterLuban at hparse
  obtain ⟨pairs, hpairs, hparse⟩ := bind_eq_ok.mp hparse
  rw [← ok.inj hparse]
  show (pairs.map Prod.fst).length ≤ 255
  rw [List.length_map, length_of_mapM_eq_ok hpairs, List.length_range]
  exact Nat.div_le_of_le_mul (by rwa [Nat.mul_comm])

/-- Before Luban a turn length makes the section unreadable. -/
theorem parse_of_surplus (hactive : p.spec.isLubanActiveAtBlock h.number = false)
    (hepoch : isMultipleOf h.number epochLength = true) {k : Nat}
    (hlen : h.extraData.length = 98 + k * validatorBytesLenBeforeLuban) :
    ∀ info, p.parseValidatorsFromHeader h epochLength ≠ .ok info := by
  intro info hparse
  have hnone : p.getValidatorBytesFromHeader h epochLength = none := by
    unfold getValidatorBytesFromHeader
    simp only [validatorBytesLenBeforeLuban] at hlen
    rw [hactive, hepoch, hlen]
    simp
    omega
  simp_all [parseValidatorsFromHeader]

end Parse

end Parlia

/-! ## Finished headers -/

section Finish

variable {c : BscEvmConfig} {crypto : Crypto} {lookups : Lookups} {state : MinerState}
  {snap : Snapshot} {parent header header' : Header}

theorem sealExtraData_eq_ok {chainId : UInt64}
    (h : sealExtraData state chainId header = .ok header') :
    ∃ signature, state.sealHeaderWithGlobalSigner
        { header with extraData := header.extraData ++ List.replicate extraSealLen 0 } chainId
          = .ok signature ∧
      header.Appends signature.val header' := by
  unfold sealExtraData at h
  obtain ⟨signature, hseal, h⟩ := bind_eq_ok.mp h
  obtain ⟨extraData, hcopy, h⟩ := bind_eq_ok.mp h
  cases h
  have hroom : (List.replicate extraSealLen (0 : UInt8)).length = signature.val.length := by
    rw [List.length_replicate, signature.length_val]
  have hlen : (header.extraData ++ List.replicate extraSealLen 0).length - extraSealLen
      = header.extraData.length := by
    rw [List.length_append, List.length_replicate, Nat.add_sub_cancel]
  rw [hlen, copyFromSlice_append rfl (by rw [List.length_append, hroom]) hroom.ge,
    List.drop_eq_nil_of_le hroom.le, List.append_nil] at hcopy
  cases hcopy
  exact ⟨signature, hseal, rfl⟩

theorem attestIfPossible_appends
    (h : attestIfPossible c crypto lookups state snap parent header = .ok header') :
    ∃ bytes, header.Appends bytes header' ∧
      (c.parlia.spec.isLubanActiveAtBlock header.number = false → bytes = []) := by
  unfold attestIfPossible at h
  split at h
  · next hok =>
    cases h
    rcases assembleVoteAttestation_cases hok with hsame | ⟨⟨hactive, -⟩, _, _, attestation, -, -, heq⟩
    · rw [hsame]
      exact ⟨[], .nil _, fun _ => rfl⟩
    · exact ⟨crypto.encode attestation, heq,
        fun hinactive => absurd (hactive.symm.trans hinactive) (by decide)⟩
  · cases h
    exact ⟨[], .nil _, fun _ => rfl⟩
  · simp at h

/-- The section that the cache has for the children of `parent`. -/
def cachedSection (p : Parlia) (number : UInt64) :
    Option (List Address × List VoteAddress) → Bytes
  | some (validators, voteAddrs) => p.validatorSection number validators voteAddrs
  | none => []

theorem prepareCachedValidators_appends (hepoch : isMultipleOf header.number snap.epochNum = true)
    (h : prepareCachedValidators c crypto state snap parent header = .ok header') :
    header.Appends
      (cachedSection c.parlia header.number (state.validatorCache (crypto.hashSlow parent))) header' := by
  unfold prepareCachedValidators at h
  rw [if_pos hepoch] at h
  cases hcached : state.validatorCache (crypto.hashSlow parent) with
  | none =>
    rw [hcached] at h
    unfold Parlia.prepareValidators at h
    rw [if_neg (by simp [hepoch])] at h
    rw [← ok.inj h]
    exact .nil _
  | some cached =>
    rw [hcached, Parlia.prepareValidators_epoch hepoch] at h
    exact (ok.inj h).symm

/-- **The sections of a sealed epoch header**, if the header came with no more than a vanity. -/
theorem finalizeNewHeader_sections (hepoch : isMultipleOf header.number snap.epochNum = true)
    (hextra : header.extraData.length ≤ extraVanityLen)
    (h : finalizeNewHeader c crypto lookups state snap parent header = .ok header') :
    header'.number = header.number ∧ header'.timestamp = header.timestamp ∧
    ∃ vanity turnLength rest, c.parlia.Sectioned header' (cachedSection c.parlia header'.number
      (state.validatorCache (crypto.hashSlow parent))) vanity turnLength rest := by
  unfold finalizeNewHeader at h
  obtain ⟨difficulty, -, h⟩ := bind_eq_ok.mp h
  obtain ⟨h₁, hvalidators, h⟩ := bind_eq_ok.mp h
  obtain ⟨h₂, hturn, h⟩ := bind_eq_ok.mp h
  obtain ⟨h₃, hvote, hseal⟩ := bind_eq_ok.mp h
  have hvanity : (setDifficultyAndVanity header difficulty).extraData.length = extraVanityLen := by
    grind [setDifficultyAndVanity]
  have hvalidators := prepareCachedValidators_appends (by exact hepoch) hvalidators
  have hepoch₁ : isMultipleOf h₁.number snap.epochNum = true := by
    rwa [hvalidators]
  obtain ⟨turnLength, hlength, hturn⟩ :=
    Parlia.prepareTurnLength_appends hepoch₁ (mapErr_eq_ok.mp hturn)
  obtain ⟨encoded, hvote, hnone⟩ := attestIfPossible_appends hvote
  obtain ⟨signature, -, hseal⟩ := sealExtraData_eq_ok hseal
  have hwhole := hvalidators.trans (hturn.trans (hvote.trans hseal))
  have hsame : ∀ number, h₂.number = number → header.number = number := by
    intro number hnumber
    rwa [hturn, hvalidators] at hnumber
  have hnumber : header'.number = header.number := hwhole.number
  have htimestamp : header'.timestamp = header.timestamp := hwhole.timestamp
  refine ⟨hnumber, htimestamp, (setDifficultyAndVanity header difficulty).extraData, turnLength,
    encoded ++ signature.val, hvanity, ?_, ?_, ?_, fun hinactive => ?_⟩
  · rw [hnumber, hwhole]
    rfl
  · rw [hlength, hvalidators, Parlia.turnLengthLen, Parlia.turnLengthLen, hnumber, htimestamp]
    rfl
  · simp
  · simp_all

variable (c crypto state) in
/-- The header has the validators that are cached for the parent. -/
def CarriesCached (epochLength : UInt64) (parent h : Header) : Prop :=
  ∃ validators voteAddrs,
    state.validatorCache (crypto.hashSlow parent) = some (validators, voteAddrs) ∧
    validators ≠ [] ∧ c.parlia.parseValidatorsFromHeader h epochLength
      = .ok (c.parlia.announcedInfo h.number validators voteAddrs)

/-- **Sealed epoch headers and the cache.**  A sealed epoch header has the validators that are
cached for its parent exactly if some are cached and can be counted; nothing stops a header from
being sealed without. -/
theorem finalizeNewHeader_carries_iff (c : BscEvmConfig) (crypto : Crypto) (lookups : Lookups)
    (state : MinerState) (parentSnap : Snapshot) (parent header sealed : Header)
    (hepoch : isMultipleOf header.number parentSnap.epochNum = true)
    (hextra : header.extraData.length ≤ extraVanityLen)
    (h : finalizeNewHeader c crypto lookups state parentSnap parent header = .ok sealed) :
    CarriesCached c crypto state parentSnap.epochNum parent sealed ↔
      ∃ validators voteAddrs,
        state.validatorCache (crypto.hashSlow parent) = some (validators, voteAddrs) ∧
        c.parlia.Countable header validators := by
  obtain ⟨hnumber, htimestamp, vanity, turnLength, rest, hlayout⟩ :=
    finalizeNewHeader_sections hepoch hextra h
  have hepoch' : isMultipleOf sealed.number parentSnap.epochNum = true := by
    rwa [hnumber]
  have hcountable : ∀ validators,
      c.parlia.Countable header validators ↔ c.parlia.Countable sealed validators := by
    intro validators
    unfold Parlia.Countable
    rw [hnumber, htimestamp]
  constructor
  · rintro ⟨validators, voteAddrs, hcached, hne, hparse⟩
    refine ⟨validators, voteAddrs, hcached, (hcountable validators).mpr ⟨hne, ?_⟩⟩
    rw [hcached] at hlayout
    cases hactive : c.parlia.spec.isLubanActiveAtBlock sealed.number with
    | true =>
      rw [if_pos rfl]
      have hlen := Parlia.length_parse_le hactive hparse
      simp_all [Parlia.announcedInfo]
    | false =>
      rw [if_neg (by decide), ← Bool.not_eq_true]
      intro hbohr
      refine Parlia.parse_of_surplus hactive hepoch' (k := validators.length) ?_ _ hparse
      have hlen := Parlia.Sectioned.length_plain hlayout hactive
      grind [Parlia.turnLengthLen]
  · rintro ⟨validators, voteAddrs, hcached, hcount⟩
    rw [hcached] at hlayout
    exact ⟨validators, voteAddrs, hcached, hcount.1,
      Parlia.parse_of_section hepoch' hlayout ((hcountable validators).mp hcount)⟩

end Finish

/-! ### Sealing block 200

Its parent, block 199, is in the cache of turn lengths and may or may not be in the cache of
validators. -/

def lorentzConfig : BscEvmConfig := ⟨lorentzSpec 500, 56, calmBlobs⟩

def cachingState (validators : Option (List Address × List VoteAddress)) : MinerState :=
  ⟨fun _ => validators, fun _ => some 1, .new,
    some fun _ _ => .ok (.repeatByte 65 1)⟩

/-- The snapshot of the parent and no headers. -/
def parentOnly : Lookups where
  snapshotByHash _ := some (Snapshot.soloSnapshot 199)
  headerByHash _ := none
  headerByNumber _ := none
  canonicalHeaderByHash _ := none

/-- An empty cache: the header is sealed all the same, and has no validators. -/
theorem uncached_header_sealed :
    (cachingState none).validatorCache (numberHash (Snapshot.tickHeader 199)) = none ∧
      isMultipleOf (Snapshot.tickHeader 200).number (Snapshot.soloSnapshot 199).epochNum = true ∧
      ∃ sealed, finalizeNewHeader lorentzConfig markedCrypto parentOnly (cachingState none)
          (Snapshot.soloSnapshot 199) (Snapshot.tickHeader 199) (Snapshot.tickHeader 200)
          = .ok sealed ∧
        sealed.extraData = List.replicate 32 0 ++ [1] ++ List.replicate 65 1 ∧
        lorentzConfig.parlia.parseValidatorsFromHeader sealed (Snapshot.soloSnapshot 199).epochNum
          = .err (.invalidHeaderExtraLen 98) :=
  ⟨rfl, by decide, _, rfl, by decide +kernel, by decide +kernel⟩

/-- With the lone validator in the cache the header has it. -/
theorem cached_header_sealed :
    ∃ sealed, finalizeNewHeader lorentzConfig markedCrypto parentOnly
        (cachingState (some ([loneValidator], [loneVoteAddress]))) (Snapshot.soloSnapshot 199)
        (Snapshot.tickHeader 199) (Snapshot.tickHeader 200) = .ok sealed ∧
      CarriesCached lorentzConfig markedCrypto
        (cachingState (some ([loneValidator], [loneVoteAddress]))) 200 (Snapshot.tickHeader 199)
        sealed := by
  have hfinalize : finalizeNewHeader lorentzConfig markedCrypto parentOnly
      (cachingState (some ([loneValidator], [loneVoteAddress]))) (Snapshot.soloSnapshot 199)
      (Snapshot.tickHeader 199) (Snapshot.tickHeader 200)
      = .ok { Snapshot.tickHeader 200 with
          difficulty := diffNoturn
          extraData := List.replicate 32 0 ++ [1] ++ loneValidator.val ++ loneVoteAddress.val ++ [1] ++
            List.replicate 65 1 } := by decide +kernel
  exact ⟨_, hfinalize, (finalizeNewHeader_carries_iff _ _ _ _ _ _ _ _ (by decide) (by decide)
    hfinalize).mpr ⟨[loneValidator], [loneVoteAddress], rfl, by decide⟩⟩

end RethBsc
