import RethBsc.Network.BlocksByRange
import RethBsc.Network.CapPacket
import RethBsc.Parlia.AttestationRlp

/-!
# Packets

The packets of `src/node/network/votes.rs` and `blocks_by_range.rs` after the handshake: a byte for
the kind of message, then a derived RLP struct.

* `decodeFramed_eq_ok`: a reader accepts only frames with its own message id, so a frame is read as
  one kind of packet at most.
* `VotesPacket.decode_encode`, `GetBlocksByRangePacket.decode_encode`,
  `BlocksByRangePacket.decode_encode`: packets are read back.
-/

namespace RethBsc

open Rust

inductive BscProtoMessageId where
  | capability
  | votes
  | getBlocksByRange
  | blocksByRange
  deriving DecidableEq

def BscProtoMessageId.code : BscProtoMessageId → UInt8
  | .capability => capabilityId
  | .votes => 0x01
  | .getBlocksByRange => 0x02
  | .blocksByRange => 0x03

/-! ## Frames -/

section Framed

variable {α : Type} (id : BscProtoMessageId) (packet : String)
  (payload : Bytes → Except CapError (α × Bytes))

/-- The reader of a packet that is called `packet` in its error. -/
def decodeFramed : Bytes → Except CapError (α × Bytes)
  | [] => .error (.rlp .inputTooShort)
  | messageId :: buf =>
    if messageId ≠ id.code then .error (.custom ("Invalid message ID for " ++ packet))
    else payload buf

variable {id packet payload}

theorem decodeFramed_code (buf : Bytes) :
    decodeFramed id packet payload (id.code :: buf) = payload buf :=
  if_neg (not_not.mpr rfl)

theorem decodeFramed_eq_ok {buf : Bytes} {r : α × Bytes}
    (h : decodeFramed id packet payload buf = .ok r) :
    ∃ tail, buf = id.code :: tail ∧ payload tail = .ok r := by
  cases buf with
  | nil => exact absurd h (by nofun)
  | cons messageId tail =>
    obtain ⟨hid, h⟩ := throw_if_eq_ok.mp h
    exact ⟨tail, by rw [not_not.mp hid], h⟩

end Framed

/-! ## Votes -/

namespace VoteEnvelope

def rlp (vote : VoteEnvelope) : Bytes :=
  Rlp.encodeList [Rlp.encodeBytes vote.voteAddress.val, Rlp.encodeBytes vote.signature.val,
    vote.data.rlp].flatten

def rlpFields : Rlp.Decoder VoteEnvelope := do
  let voteAddress ← Rlp.decodeFixed 48
  let signature ← Rlp.decodeFixed 96
  let data ← Rlp.decodeStruct voteDataFields
  pure ⟨voteAddress, signature, data⟩

theorem shrinks_rlpFields : Rlp.Shrinks rlpFields :=
  (Rlp.Shrinks.fixed 48).bind fun _ => (Rlp.Shrinks.fixed 96).bind fun _ =>
    shrinks_voteData.bind fun _ => .pure _

/-- `VoteEnvelope::decode`. -/
def decoder : Rlp.ItemDecoder VoteEnvelope := .struct rlpFields shrinks_rlpFields

theorem length_payload_le (vote : VoteEnvelope) :
    [Rlp.encodeBytes vote.voteAddress.val, Rlp.encodeBytes vote.signature.val,
      vote.data.rlp].flatten.length ≤ 287 := by
  have haddress := length_encodeFixed_le vote.voteAddress
  have hsignature := length_encodeFixed_le vote.signature
  have hdata := vote.data.length_rlp_le
  simp only [List.flatten_cons, List.flatten_nil, List.length_append, List.length_nil]
  omega

theorem length_rlp_le (vote : VoteEnvelope) : vote.rlp.length ≤ 296 :=
  (Rlp.length_encodeList_le _).trans (Nat.add_le_add_right vote.length_payload_le 9)

theorem decodes (vote : VoteEnvelope) : Rlp.Decodes decoder.read vote.rlp vote := by
  have hlen := vote.length_payload_le
  refine Rlp.Decodes.struct (by omega) ?_
  refine .bind (Rlp.decodes_fixed (by decide) vote.voteAddress) ?_
  refine .bind (Rlp.decodes_fixed (by decide) vote.signature) ?_
  exact .bind (decodes_voteData vote.data) (.pure _)

end VoteEnvelope

namespace VotesPacket

/-- The list of votes in a struct of its own. -/
def encode (votes : List VoteEnvelope) : Bytes :=
  BscProtoMessageId.votes.code ::
    Rlp.encodeList (Rlp.encodeList (votes.flatMap VoteEnvelope.rlp))

/-- Why a payload is refused is not told. -/
def decodePayload (buf : Bytes) : Except CapError (List VoteEnvelope × Bytes) :=
  match Rlp.decodeStruct VoteEnvelope.decoder.vec buf with
  | .ok (votes, inner) => .ok (votes, inner)
  | .error _ => .error (.custom "Invalid votes payload")

def decode : Bytes → Except CapError (List VoteEnvelope × Bytes) :=
  decodeFramed .votes "VotesPacket" decodePayload

theorem length_flatMap_rlp_le (votes : List VoteEnvelope) :
    (votes.flatMap VoteEnvelope.rlp).length ≤ 296 * votes.length := by
  induction votes with
  | nil => exact Nat.le_refl _
  | cons vote votes ih =>
    have hvote := vote.length_rlp_le
    simp_all
    omega

/-- A list that fits in memory is shorter than the bound. -/
theorem decode_encode {votes : List VoteEnvelope} (hlen : votes.length < 2 ^ 48) (rest : Bytes) :
    decode (encode votes ++ rest) = .ok (votes, rest) := by
  have hpayload := length_flatMap_rlp_le votes
  have hlist := Rlp.length_encodeList_le (votes.flatMap VoteEnvelope.rlp)
  have hvec : Rlp.Decodes VoteEnvelope.decoder.vec
      (Rlp.encodeList (votes.flatMap VoteEnvelope.rlp)) votes :=
    Rlp.ItemDecoder.decodes_vec (by omega) fun vote _ => vote.decodes
  have hread := Rlp.Decodes.struct (by omega) hvec rest
  rw [encode, List.cons_append, decode, decodeFramed_code, decodePayload, hread]

end VotesPacket

/-! ## Range requests -/

namespace GetBlocksByRangePacket

def encode (req : GetBlocksByRangePacket) : Bytes :=
  BscProtoMessageId.getBlocksByRange.code ::
    Rlp.encodeList [encodeU64 req.requestId, encodeU64 req.startBlockHeight,
      Rlp.encodeBytes req.startBlockHash.val, encodeU64 req.count].flatten

def rlpFields : Rlp.Decoder GetBlocksByRangePacket := do
  let requestId ← decodeU64
  let startBlockHeight ← decodeU64
  let startBlockHash ← Rlp.decodeFixed 32
  let count ← decodeU64
  pure ⟨requestId, startBlockHeight, startBlockHash, count⟩

def decode : Bytes → Except CapError (GetBlocksByRangePacket × Bytes) :=
  decodeFramed .getBlocksByRange "GetBlocksByRangePacket" fun buf =>
    (Rlp.decodeStruct rlpFields buf).mapError .rlp

theorem decode_encode (req : GetBlocksByRangePacket) (rest : Bytes) :
    decode (req.encode ++ rest) = .ok (req, rest) := by
  have hlen : [encodeU64 req.requestId, encodeU64 req.startBlockHeight,
      Rlp.encodeBytes req.startBlockHash.val, encodeU64 req.count].flatten.length < 2 ^ 64 := by
    have hid := length_encodeU64_le req.requestId
    have hheight := length_encodeU64_le req.startBlockHeight
    have hhash := length_encodeFixed_le req.startBlockHash
    have hcount := length_encodeU64_le req.count
    simp only [List.flatten_cons, List.flatten_nil, List.length_append, List.length_nil]
    omega
  have hfields : Rlp.Decodes rlpFields [encodeU64 req.requestId, encodeU64 req.startBlockHeight,
      Rlp.encodeBytes req.startBlockHash.val, encodeU64 req.count].flatten req := by
    refine .bind (decodes_u64 req.requestId) ?_
    refine .bind (decodes_u64 req.startBlockHeight) ?_
    refine .bind (Rlp.decodes_fixed (by decide) req.startBlockHash) ?_
    exact .bind (decodes_u64 req.count) (.pure _)
  have hread := hfields.struct hlen rest
  rw [encode, List.cons_append, decode, decodeFramed_code, hread]
  rfl

end GetBlocksByRangePacket

/-- `Encodable` and `Decodable` of `BscBlock`, with a body of which nothing is known. -/
structure FullBlockCodec (β : Type) where
  encode : FullBlock β → Bytes
  decoder : Rlp.ItemDecoder (FullBlock β)

/-- A block is read back. -/
def FullBlockCodec.Faithful {β : Type} (codec : FullBlockCodec β) (block : FullBlock β) : Prop :=
  Rlp.Decodes codec.decoder.read (codec.encode block) block

namespace BlocksByRangePacket

variable {β : Type} (codec : FullBlockCodec β)

def rlpPayload (packet : BlocksByRangePacket β) : Bytes :=
  [encodeU64 packet.requestId, Rlp.encodeList (packet.blocks.flatMap codec.encode)].flatten

def encode (packet : BlocksByRangePacket β) : Bytes :=
  BscProtoMessageId.blocksByRange.code :: Rlp.encodeList (packet.rlpPayload codec)

def rlpFields : Rlp.Decoder (BlocksByRangePacket β) := do
  let requestId ← decodeU64
  let blocks ← codec.decoder.vec
  pure ⟨requestId, blocks⟩

def decode : Bytes → Except CapError (BlocksByRangePacket β × Bytes) :=
  decodeFramed .blocksByRange "BlocksByRangePacket" fun buf =>
    (Rlp.decodeStruct (rlpFields codec) buf).mapError .rlp

variable {codec}

theorem decode_encode {packet : BlocksByRangePacket β}
    (hlen : (packet.blocks.flatMap codec.encode).length < 2 ^ 63)
    (hblocks : ∀ block ∈ packet.blocks, codec.Faithful block) (rest : Bytes) :
    decode codec (packet.encode codec ++ rest) = .ok (packet, rest) := by
  have hpayload : (packet.rlpPayload codec).length < 2 ^ 64 := by
    have hid := length_encodeU64_le packet.requestId
    have hlist := Rlp.length_encodeList_le (packet.blocks.flatMap codec.encode)
    unfold rlpPayload
    simp only [List.flatten_cons, List.flatten_nil, List.length_append, List.length_nil]
    omega
  have hfields : Rlp.Decodes (rlpFields codec) (packet.rlpPayload codec) packet := by
    refine .bind (decodes_u64 packet.requestId) ?_
    exact .bind (Rlp.ItemDecoder.decodes_vec (by omega) hblocks) (.pure _)
  have hread := hfields.struct hpayload rest
  rw [encode, List.cons_append, decode, decodeFramed_code, hread]
  rfl

end BlocksByRangePacket

end RethBsc
