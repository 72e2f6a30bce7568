import RethBsc.Parlia.SealHash

/-!
# The capability handshake

`BscCapPacket` of `src/node/network/votes.rs`: the message id `0x00`, then an RLP list of the protocol
version and of raw bytes.

The reader takes the raw bytes to be all but one byte of the list, as if every version were encoded in
one byte.

* `decode_list`: what it makes of a list with a version at its start.
* `decode_encode_iff`: a packet is read back exactly for versions below 128.
* `decode_eq_panic_iff`: an empty list in front of a version makes the subtraction underflow.
* `decode_eq_ok`: a packet that is read ends with its list exactly for versions below 128.
-/

namespace RethBsc

open Rust Outcome

/-- `BscProtoMessageId::Capability`. -/
def capabilityId : UInt8 := 0x00

structure BscCapPacket where
  protocolVersion : UInt64
  extra : Bytes
  deriving DecidableEq

/-- The errors of `alloy_rlp`, with its `Custom`. -/
inductive CapError where
  | rlp (e : Rlp.Error)
  | custom (message : String)
  deriving DecidableEq

/-- `a - b` of two `usize`, which unwinds or wraps as the build says. -/
def subUsize {ε : Type} (overflowChecks : Bool) (a b : Nat) : Outcome ε Nat :=
  if b ≤ a then .ok (a - b) else if overflowChecks then .panic else .ok (a + 2 ^ 64 - b)

namespace BscCapPacket

def encode (p : BscCapPacket) : Bytes :=
  let protocolVersionEncoded := encodeU64 p.protocolVersion
  let payloadLength := protocolVersionEncoded.length + p.extra.length
  capabilityId :: (Rlp.encodeHeader true payloadLength ++ protocolVersionEncoded ++ p.extra)

/-- An error of another `decode`. -/
def ofRlp {α : Type} (x : Except Rlp.Error α) : Outcome CapError α :=
  (ofExcept x).mapErr .rlp

/-- The raw bytes after the version. -/
def decodeExtra (overflowChecks : Bool) (payloadLength : Nat) (protocolVersion : UInt64)
    (buf : Bytes) : Outcome CapError (BscCapPacket × Bytes) := do
  let remainingLen ← subUsize overflowChecks payloadLength 1
  if buf.length < remainingLen then .err (.rlp .inputTooShort)
  else do
    let extra ← slice buf 0 remainingLen
    let buf ← sliceFrom buf remainingLen
    pure (⟨protocolVersion, extra⟩, buf)

/-- The packet and what is left of the buffer. -/
def decode (overflowChecks : Bool) : Bytes → Outcome CapError (BscCapPacket × Bytes)
  | [] => .err (.rlp .inputTooShort)
  | messageId :: buf =>
    if messageId ≠ capabilityId then .err (.custom "Invalid message ID for BscCapPacket")
    else do
      let ((list, payloadLength), buf) ← ofRlp (Rlp.decodeHeader buf)
      if !list then .err (.rlp .unexpectedString)
      else do
        let (protocolVersion, buf) ← ofRlp (decodeU64 buf)
        decodeExtra overflowChecks payloadLength protocolVersion buf

variable {overflowChecks : Bool} {v : UInt64} {payloadLength : Nat}
  {payload following tail buf rest : Bytes} {p : BscCapPacket}

/-! ## The raw bytes -/

/-- The slices are in bounds. -/
theorem decodeExtra_of_sub {remainingLen : Nat}
    (hsub : (subUsize overflowChecks payloadLength 1 : Outcome CapError Nat) = .ok remainingLen) :
    decodeExtra overflowChecks payloadLength v buf
      = if buf.length < remainingLen then .err (.rlp .inputTooShort)
        else .ok (⟨v, buf.take remainingLen⟩, buf.drop remainingLen) := by
  rw [decodeExtra, hsub, ok_bind]
  by_cases hshort : buf.length < remainingLen
  · rw [if_pos hshort, if_pos hshort]
  · have hle := Nat.not_lt.mp hshort
    rw [if_neg hshort, if_neg hshort, slice_of_le (Nat.zero_le _) hle, ok_bind,
      sliceFrom_of_le hle, ok_bind, List.drop_zero]
    rfl

theorem decodeExtra_of_pos (hpos : 0 < payloadLength) :
    decodeExtra overflowChecks payloadLength v buf
      = if buf.length < payloadLength - 1 then .err (.rlp .inputTooShort)
        else .ok (⟨v, buf.take (payloadLength - 1)⟩, buf.drop (payloadLength - 1)) :=
  decodeExtra_of_sub (if_pos hpos)

theorem decodeExtra_eq_panic_iff :
    decodeExtra overflowChecks payloadLength v buf = .panic ↔
      overflowChecks = true ∧ payloadLength = 0 := by
  rcases Nat.eq_zero_or_pos payloadLength with rfl | hpos
  · cases overflowChecks with
    | true => exact ⟨fun _ => ⟨rfl, rfl⟩, fun _ => rfl⟩
    | false =>
      rw [decodeExtra_of_sub (show subUsize false 0 1 = .ok (2 ^ 64 - 1) from rfl)]
      split
      · exact ⟨nofun, nofun⟩
      · exact ⟨nofun, nofun⟩
  · rw [decodeExtra_of_pos hpos]
    split
    · exact ⟨nofun, fun h => absurd h.2 hpos.ne'⟩
    · exact ⟨nofun, fun h => absurd h.2 hpos.ne'⟩

/-- A buffer that fits in memory is shorter than the length that a wrap leads to. -/
theorem decodeExtra_eq_ok (hbuf : buf.length < 2 ^ 63)
    (h : decodeExtra overflowChecks payloadLength v buf = .ok (p, rest)) :
    0 < payloadLength ∧ payloadLength - 1 ≤ buf.length ∧ p.protocolVersion = v ∧
      rest = buf.drop (payloadLength - 1) := by
  rcases Nat.eq_zero_or_pos payloadLength with rfl | hpos
  · cases overflowChecks with
    | true => exact nomatch h
    | false =>
      rw [decodeExtra_of_sub (show subUsize false 0 1 = .ok (2 ^ 64 - 1) from rfl),
        if_pos (by omega)] at h
      exact nomatch h
  · rw [decodeExtra_of_pos hpos] at h
    obtain ⟨hlong, h⟩ := err_if_eq_ok.mp h
    cases h
    exact ⟨hpos, Nat.not_lt.mp hlong, rfl, rfl⟩

/-! ## The list -/

theorem decode_list (hlen : payload.length < 2 ^ 64)
    (hversion : payload ++ following = encodeU64 v ++ tail) :
    decode overflowChecks (capabilityId :: (Rlp.encodeList payload ++ following))
      = decodeExtra overflowChecks payload.length v tail := by
  have hheader : Rlp.decodeHeader (Rlp.encodeList payload ++ following)
      = .ok ((true, payload.length), payload ++ following) := by
    rw [Rlp.encodeList, List.append_assoc]
    exact Rlp.decodeHeader_encodeHeader hlen (by simp) (by simp)
  have hread : decodeU64 (payload ++ following) = .ok (v, tail) := by
    rw [hversion]
    exact decodes_u64 v tail
  unfold decode
  dsimp only
  rw [if_neg (not_not.mpr rfl), hheader]
  show (ofRlp (decodeU64 (payload ++ following)) >>= _) = _
  rw [hread]
  rfl

/-- Whatever does not begin with the message id, a list and a version is refused. -/
theorem decode_cases (overflowChecks : Bool) (buf : Bytes) :
    (∃ e, decode overflowChecks buf = .err e) ∨
      ∃ payload following v tail, buf = capabilityId :: (Rlp.encodeList payload ++ following) ∧
        payload ++ following = encodeU64 v ++ tail ∧
        decode overflowChecks buf = decodeExtra overflowChecks payload.length v tail := by
  cases buf with
  | nil => exact .inl ⟨_, rfl⟩
  | cons messageId buf =>
    unfold decode
    dsimp only
    by_cases hid : messageId ≠ capabilityId
    · rw [if_pos hid]
      exact .inl ⟨_, rfl⟩
    rw [if_neg hid]
    cases hheader : Rlp.decodeHeader buf with
    | error e => exact .inl ⟨.rlp e, rfl⟩
    | ok header =>
      obtain ⟨⟨list, payloadLength⟩, items⟩ := header
      cases list with
      | false => exact .inl ⟨.rlp .unexpectedString, rfl⟩
      | true =>
        cases hread : decodeU64 items with
        | error e =>
          refine .inl ⟨.rlp e, ?_⟩
          show (ofRlp (decodeU64 items) >>= _) = _
          rw [hread]
          rfl
        | ok version =>
          obtain ⟨v, tail⟩ := version
          obtain ⟨hle, ⟨hbuf, -⟩ | ⟨hlist, -⟩⟩ := Rlp.decodeHeader_eq_ok hheader
          · have hlen : (items.take payloadLength).length = payloadLength := by
              rw [List.length_take, Nat.min_eq_left hle]
            refine .inr ⟨items.take payloadLength, items.drop payloadLength, v, tail, ?_, ?_, ?_⟩
            · rw [not_not.mp hid, hbuf, Rlp.encodeList, hlen, List.append_assoc,
                List.take_append_drop]
            · rw [List.take_append_drop, decodeU64_eq_ok hread]
            · show (ofRlp (decodeU64 items) >>= _) = _
              rw [hread, hlen]
              rfl
          · exact Bool.noConfusion hlist

theorem decode_eq_panic_iff :
    decode overflowChecks buf = .panic ↔ overflowChecks = true ∧
      ∃ v tail, buf = capabilityId :: 0xc0 :: (encodeU64 v ++ tail) := by
  constructor
  · intro h
    obtain ⟨e, herr⟩ | ⟨payload, following, v, tail, hbuf, hversion, hdecode⟩ :=
      decode_cases overflowChecks buf
    · rw [herr] at h
      exact nomatch h
    · rw [hdecode, decodeExtra_eq_panic_iff] at h
      obtain rfl := List.length_eq_zero_iff.mp h.2
      exact ⟨h.1, v, tail, by rw [hbuf, ← hversion]; rfl⟩
  · rintro ⟨hchecks, v, tail, rfl⟩
    have hlist : decode overflowChecks (capabilityId :: (Rlp.encodeList [] ++ (encodeU64 v ++ tail)))
        = decodeExtra overflowChecks 0 v tail := decode_list (by decide) rfl
    exact hlist.trans (decodeExtra_eq_panic_iff.mpr ⟨hchecks, rfl⟩)

/-! ## Versions of one byte -/

theorem length_encodeU64_eq_one_iff : (encodeU64 v).length = 1 ↔ v < 128 := by
  rw [length_encodeU64, Rlp.lengthUint, UInt64.lt_iff_toNat_lt]
  show _ ↔ v.toNat < 128
  by_cases hsmall : v.toNat < 0x80
  · simp [*]
  · have hpos := Rlp.length_trimmedBe_pos (n := 8) v.toNat_lt (by omega)
    grind

theorem length_encodeU64_pos : 0 < (encodeU64 v).length :=
  List.length_pos_iff.mpr (Rlp.encodeBytes_ne_nil _)

theorem encode_eq (p : BscCapPacket) :
    p.encode = capabilityId :: Rlp.encodeList (encodeU64 p.protocolVersion ++ p.extra) := by
  unfold encode
  dsimp only
  rw [Rlp.encodeList, List.length_append, List.append_assoc]

theorem decode_encode (hlen : p.extra.length < 2 ^ 63) (rest : Bytes) :
    decode overflowChecks (p.encode ++ rest)
      = if (p.extra ++ rest).length < (encodeU64 p.protocolVersion).length + p.extra.length - 1 then
          .err (.rlp .inputTooShort)
        else .ok (⟨p.protocolVersion,
            (p.extra ++ rest).take ((encodeU64 p.protocolVersion).length + p.extra.length - 1)⟩,
          (p.extra ++ rest).drop ((encodeU64 p.protocolVersion).length + p.extra.length - 1)) := by
  have hpos := length_encodeU64_pos (v := p.protocolVersion)
  have hle := length_encodeU64_le p.protocolVersion
  have hdecode : decode overflowChecks (p.encode ++ rest) = decodeExtra overflowChecks
      (encodeU64 p.protocolVersion ++ p.extra).length p.protocolVersion (p.extra ++ rest) := by
    rw [encode_eq, List.cons_append]
    refine decode_list ?_ (List.append_assoc _ _ _)
    rw [List.length_append]
    omega
  rw [hdecode, List.length_append, decodeExtra_of_pos (by omega)]

/-- A packet is read back from its encoding, whatever follows, exactly if its version takes one
byte. -/
theorem decode_encode_iff (hlen : p.extra.length < 2 ^ 63) :
    decode overflowChecks (p.encode ++ rest) = .ok (p, rest) ↔ p.protocolVersion < 128 := by
  have hpos := length_encodeU64_pos (v := p.protocolVersion)
  rw [decode_encode hlen, ← length_encodeU64_eq_one_iff]
  constructor
  · grind
  · simp_all

/-- A packet with a longer version that nothing follows is too short. -/
theorem decode_encode_of_le (hlen : p.extra.length < 2 ^ 63)
    (hversion : ¬ p.protocolVersion < 128) :
    decode overflowChecks p.encode = .err (.rlp .inputTooShort) := by
  have hpos := length_encodeU64_pos (v := p.protocolVersion)
  rw [← length_encodeU64_eq_one_iff] at hversion
  rw [← List.append_nil p.encode, decode_encode hlen, List.append_nil, if_pos (by omega)]

/-- A packet that is read ends where its list ends exactly if the first item takes one byte. -/
theorem decode_eq_ok (hbuf : buf.length < 2 ^ 63) (h : decode overflowChecks buf = .ok (p, rest)) :
    ∃ payload following v tail, buf = capabilityId :: (Rlp.encodeList payload ++ following) ∧
      payload ++ following = encodeU64 v ++ tail ∧ p.protocolVersion = v ∧
      (rest = following ↔ v < 128) := by
  obtain ⟨e, herr⟩ | ⟨payload, following, v, tail, rfl, hversion, hdecode⟩ :=
    decode_cases overflowChecks buf
  · rw [herr] at h
    exact nomatch h
  have hsame := congrArg List.length hversion
  rw [List.length_append, List.length_append] at hsame
  have htail : tail.length < 2 ^ 63 := by
    have hpayload := Rlp.length_le_encodeList payload
    simp_all
    omega
  rw [hdecode] at h
  obtain ⟨hpos, hle, rfl, rfl⟩ := decodeExtra_eq_ok htail h
  refine ⟨payload, following, _, tail, rfl, hversion, rfl, ?_⟩
  rw [← length_encodeU64_eq_one_iff]
  constructor
  · grind
  · intro hone
    -- the version is the first byte of the list
    obtain ⟨b, hb⟩ := List.length_eq_one_iff.mp hone
    rw [hb] at hversion
    calc tail.drop (payload.length - 1) = ([b] ++ tail).drop payload.length := by
          rw [List.singleton_append, ← Nat.sub_add_cancel hpos, List.drop_succ_cons,
            Nat.add_sub_cancel]
      _ = following := by rw [← hversion, List.drop_left]

/-- **The handshake codec.**  Round trip and exact consumption hold for the versions below 128 only,
and with overflow checks an empty list in front of a version unwinds. -/
theorem capPacket_codec (overflowChecks : Bool) :
    (∀ (p : BscCapPacket) (rest : Bytes), p.extra.length < 2 ^ 63 →
      (decode overflowChecks (p.encode ++ rest) = .ok (p, rest) ↔ p.protocolVersion < 128)) ∧
    (∀ buf, decode overflowChecks buf = .panic ↔ overflowChecks = true ∧
      ∃ v tail, buf = capabilityId :: 0xc0 :: (encodeU64 v ++ tail)) ∧
    (∀ buf p rest, buf.length < 2 ^ 63 → decode overflowChecks buf = .ok (p, rest) →
      ∃ payload following v tail, buf = capabilityId :: (Rlp.encodeList payload ++ following) ∧
        payload ++ following = encodeU64 v ++ tail ∧ p.protocolVersion = v ∧
        (rest = following ↔ v < 128)) :=
  ⟨fun _ _ hlen => decode_encode_iff hlen, fun _ => decode_eq_panic_iff,
    fun _ _ _ hbuf h => decode_eq_ok hbuf h⟩

theorem capPacket_codec_one :
    decode true ((⟨1, [0x80]⟩ : BscCapPacket).encode ++ [7]) = .ok (⟨1, [0x80]⟩, [7]) :=
  ((capPacket_codec true).1 ⟨1, [0x80]⟩ [7] (by decide)).mpr (by decide)

/-- Version 128: its packet alone is refused, a byte that follows is taken for raw bytes of it, and an
empty list underflows. -/
theorem capPacket_misread :
    decode false (⟨128, []⟩ : BscCapPacket).encode = .err (.rlp .inputTooShort) ∧
    decode false ((⟨128, []⟩ : BscCapPacket).encode ++ [7]) = .ok (⟨128, [7]⟩, []) ∧
    decode true [0x00, 0xc0, 0x01] = .panic := by
  decide

end BscCapPacket

end RethBsc
