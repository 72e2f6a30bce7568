import Mathlib.Data.List.ReduceOption
import RethBsc.Parlia.ExtraData
import RethBsc.Rust.LruMap
import RethBsc.Rust.Rlp

/-!
# Seals

The RLP form of a header, the message that its proposer signs, and the recovery of the proposer:
`encode_header_with_chain_id` and `hash_with_chain_id` of `src/consensus/parlia/util.rs`, and
`recover_proposer` of `consensus.rs`.

* `Header.rlp` lists the mandatory fields and then the optional ones that are present.
* The signed message starts with the chain id, leaves out the seal, and has the optional fields
  only when the parent beacon block root is zero.
* `encodeHeaderWithChainId_eq`: the length that is announced for the message is the one written.
* `yieldsProposer_iff`: with the cache of recovered proposers a node gets what it would recover
  from the seal, as long as no two headers it was asked for have one hash.
-/

namespace RethBsc

open Rust Outcome

/-! ## Headers as RLP -/

def encodeU64 (x : UInt64) : Bytes := Rlp.encodeUint 8 x.toNat

def decodeU64 : Rlp.Decoder UInt64 := do
  let x ← Rlp.decodeUint 8
  pure (UInt64.ofNat x)

theorem decodes_u64 (x : UInt64) : Rlp.Decodes decodeU64 (encodeU64 x) x := by
  have huint : Rlp.Decodes (Rlp.decodeUint 8) (encodeU64 x) x.toNat :=
    Rlp.decodes_uint (by decide) x.toNat_lt
  have h := huint.bind_pure (g := UInt64.ofNat)
  rwa [UInt64.ofNat_toNat] at h

theorem decodeU64_eq_ok {x : UInt64} {buf rest : Bytes} (h : decodeU64 buf = .ok (x, rest)) :
    buf = encodeU64 x ++ rest := by
  obtain ⟨⟨y, buf'⟩, hread, h⟩ := except_bind_eq_ok.mp h
  cases h
  obtain ⟨hbuf, hlt⟩ := Rlp.decodeUint_eq_ok hread
  rw [hbuf, encodeU64, UInt64.toNat_ofNat_of_lt' hlt]

theorem shrinks_u64 : Rlp.Shrinks decodeU64 := (Rlp.Shrinks.uint 8).bind fun _ => .pure _

theorem length_encodeU64_le (x : UInt64) : (encodeU64 x).length ≤ 17 :=
  (Rlp.length_encodeBytes_le _).trans (Nat.add_le_add_right (Rlp.length_trimmedBe_le 8 _) 9)

def encodeU256 (x : Nat) : Bytes := Rlp.encodeUint 32 x

theorem encodeU256_ne_nil (x : Nat) : encodeU256 x ≠ [] := by
  unfold encodeU256 Rlp.encodeUint
  exact Rlp.encodeBytes_ne_nil _

/-- Turned into a `U256` before it is encoded, a `u64` is written in the same way. -/
theorem encodeU256_toNat (x : UInt64) : encodeU256 x.toNat = encodeU64 x := by
  unfold encodeU256 encodeU64 Rlp.encodeUint
  rw [← Rlp.trimmedBe_add (show x.toNat < 256 ^ 8 from x.toNat_lt) 24]

namespace Header

variable (h : Header)

def mandatoryFields : List Bytes :=
  [Rlp.encodeBytes h.parentHash.val, Rlp.encodeBytes h.ommersHash.val,
    Rlp.encodeBytes h.beneficiary.val, Rlp.encodeBytes h.stateRoot.val,
    Rlp.encodeBytes h.transactionsRoot.val, Rlp.encodeBytes h.receiptsRoot.val,
    Rlp.encodeBytes h.logsBloom.val, encodeU256 h.difficulty, encodeU256 h.number.toNat,
    encodeU256 h.gasLimit.toNat, encodeU256 h.gasUsed.toNat, encodeU64 h.timestamp,
    Rlp.encodeBytes h.extraData, Rlp.encodeBytes h.mixHash.val, Rlp.encodeBytes h.nonce.val]

def optionalFields : List Bytes :=
  [h.baseFeePerGas.map fun x => encodeU256 x.toNat,
    h.withdrawalsRoot.map fun x => Rlp.encodeBytes x.val,
    h.blobGasUsed.map fun x => encodeU256 x.toNat,
    h.excessBlobGas.map fun x => encodeU256 x.toNat,
    h.parentBeaconBlockRoot.map fun x => Rlp.encodeBytes x.val,
    h.requestsHash.map fun x => Rlp.encodeBytes x.val].reduceOption

/-- `Encodable` of `alloy_consensus::Header`. -/
def rlp : Bytes := Rlp.encodeList (h.mandatoryFields ++ h.optionalFields).flatten

/-- None of the fields that later forks added is there. -/
structure NoOptionalFields : Prop where
  baseFeePerGas : h.baseFeePerGas = none
  withdrawalsRoot : h.withdrawalsRoot = none
  blobGasUsed : h.blobGasUsed = none
  excessBlobGas : h.excessBlobGas = none
  parentBeaconBlockRoot : h.parentBeaconBlockRoot = none
  requestsHash : h.requestsHash = none

variable {h}

theorem optionalFields_eq_nil_iff : h.optionalFields = [] ↔ h.NoOptionalFields := by
  rw [optionalFields, List.reduceOption, List.filterMap_eq_nil_iff]
  simp only [List.mem_cons, List.not_mem_nil, or_false, forall_eq_or_imp, forall_eq, id_eq,
    Option.map_eq_none_iff]
  constructor
  · rintro ⟨h1, h2, h3, h4, h5, h6⟩
    exact ⟨h1, h2, h3, h4, h5, h6⟩
  · rintro ⟨h1, h2, h3, h4, h5, h6⟩
    exact ⟨h1, h2, h3, h4, h5, h6⟩

theorem ne_nil_of_map {α : Type} {f : α → Bytes} {o : Option α} {field : Bytes}
    (h : id (o.map f) = some field) (hf : ∀ x, f x ≠ []) : field ≠ [] := by
  obtain ⟨x, -, rfl⟩ := Option.map_eq_some_iff.mp h
  exact hf x

/-- Every optional field that is there adds bytes. -/
theorem flatten_optionalFields_eq_nil_iff :
    h.optionalFields.flatten = [] ↔ h.NoOptionalFields := by
  rw [← optionalFields_eq_nil_iff, List.flatten_eq_nil_iff]
  refine ⟨fun hall => List.eq_nil_iff_forall_not_mem.mpr fun field hfield => ?_,
    fun hnil field hfield => absurd (hnil ▸ hfield) List.not_mem_nil⟩
  obtain ⟨o, ho, hsome⟩ := List.mem_filterMap.mp hfield
  have hne : field ≠ [] := by
    simp only [List.mem_cons, List.not_mem_nil, or_false] at ho
    rcases ho with rfl | rfl | rfl | rfl | rfl | rfl
    · exact ne_nil_of_map hsome fun x => encodeU256_ne_nil x.toNat
    · exact ne_nil_of_map hsome fun x => Rlp.encodeBytes_ne_nil x.val
    · exact ne_nil_of_map hsome fun x => encodeU256_ne_nil x.toNat
    · exact ne_nil_of_map hsome fun x => encodeU256_ne_nil x.toNat
    · exact ne_nil_of_map hsome fun x => Rlp.encodeBytes_ne_nil x.val
    · exact ne_nil_of_map hsome fun x => Rlp.encodeBytes_ne_nil x.val
  exact hne (hall field hfield)

end Header

/-! ## The signed message -/

section Seal

variable {ε : Type} (h : Header) (chainId : UInt64)

/-- `&extra_data[..extra_data.len() - EXTRA_SEAL_LEN]`. -/
def Header.unsealedExtra : Outcome ε Bytes :=
  if h.extraData.length < extraSealLen then .panic
  else .ok (h.extraData.take (h.extraData.length - extraSealLen))

/-- The fields of the message up to the nonce. -/
def Header.sealFields (extra : Bytes) : List Bytes :=
  [encodeU256 chainId.toNat, Rlp.encodeBytes h.parentHash.val, Rlp.encodeBytes h.ommersHash.val,
    Rlp.encodeBytes h.beneficiary.val, Rlp.encodeBytes h.stateRoot.val,
    Rlp.encodeBytes h.transactionsRoot.val, Rlp.encodeBytes h.receiptsRoot.val,
    Rlp.encodeBytes h.logsBloom.val, encodeU256 h.difficulty, encodeU256 h.number.toNat,
    encodeU64 h.gasLimit, encodeU64 h.gasUsed, encodeU64 h.timestamp, Rlp.encodeBytes extra,
    Rlp.encodeBytes h.mixHash.val, Rlp.encodeBytes h.nonce.val]

/-- The fields of Cancun and later, when the parent beacon block root is zero. -/
def Header.sealOptionalFields : Outcome ε (List Bytes) :=
  if h.parentBeaconBlockRoot = some .zero then do
    let baseFee ← unwrap h.baseFeePerGas
    let withdrawalsRoot ← unwrap h.withdrawalsRoot
    let blobGasUsed ← unwrap h.blobGasUsed
    let excessBlobGas ← unwrap h.excessBlobGas
    pure ([encodeU256 baseFee.toNat, Rlp.encodeBytes withdrawalsRoot.val, encodeU64 blobGasUsed,
      encodeU64 excessBlobGas, Rlp.encodeBytes (.zero : B256).val] ++
        (h.requestsHash.map fun hash => Rlp.encodeBytes hash.val).toList)
  else pure []

/-- The lengths of the fields up to the nonce. -/
def Header.sealLengths (extra : Bytes) : List Nat :=
  [Rlp.lengthUint 32 chainId.toNat, Rlp.lengthBytes h.parentHash.val,
    Rlp.lengthBytes h.ommersHash.val, Rlp.lengthBytes h.beneficiary.val,
    Rlp.lengthBytes h.stateRoot.val, Rlp.lengthBytes h.transactionsRoot.val,
    Rlp.lengthBytes h.receiptsRoot.val, Rlp.lengthBytes h.logsBloom.val,
    Rlp.lengthUint 32 h.difficulty, Rlp.lengthUint 32 h.number.toNat,
    Rlp.lengthUint 8 h.gasLimit.toNat, Rlp.lengthUint 8 h.gasUsed.toNat,
    Rlp.lengthUint 8 h.timestamp.toNat, Rlp.lengthBytes extra, Rlp.lengthBytes h.mixHash.val,
    Rlp.lengthBytes h.nonce.val]

def Header.sealOptionalLengths : Outcome ε (List Nat) :=
  if h.parentBeaconBlockRoot = some .zero then do
    let baseFee ← unwrap h.baseFeePerGas
    let withdrawalsRoot ← unwrap h.withdrawalsRoot
    let blobGasUsed ← unwrap h.blobGasUsed
    let excessBlobGas ← unwrap h.excessBlobGas
    pure ([Rlp.lengthUint 32 baseFee.toNat, Rlp.lengthBytes withdrawalsRoot.val,
      Rlp.lengthUint 8 blobGasUsed.toNat, Rlp.lengthUint 8 excessBlobGas.toNat,
      Rlp.lengthBytes (.zero : B256).val] ++
        (h.requestsHash.map fun hash => Rlp.lengthBytes hash.val).toList)
  else pure []

/-- `rlp_header`: the payload length of the message. -/
def rlpHeader : Outcome ε Nat := do
  let extra ← h.unsealedExtra
  let optional ← h.sealOptionalLengths
  pure (h.sealLengths chainId extra ++ optional).sum

def encodeHeaderWithChainId : Outcome ε Bytes := do
  let payloadLength ← rlpHeader h chainId
  let extra ← h.unsealedExtra
  let optional ← h.sealOptionalFields
  pure (Rlp.encodeHeader true payloadLength ++ (h.sealFields chainId extra ++ optional).flatten)

/-- `keccak256` is that of another crate. -/
def hashWithChainId (keccak256 : Bytes → B256) : Outcome ε B256 := do
  let out ← encodeHeaderWithChainId h chainId
  pure (keccak256 out)

variable {h chainId}

theorem length_encodeU64 (x : UInt64) : (encodeU64 x).length = Rlp.lengthUint 8 x.toNat :=
  Rlp.length_encodeUint (by decide) x.toNat_lt

theorem length_encodeU256 {x : Nat} (hx : x < 256 ^ 32) :
    (encodeU256 x).length = Rlp.lengthUint 32 x :=
  Rlp.length_encodeUint (by decide) hx

theorem toNat_lt_u256 (x : UInt64) : x.toNat < 256 ^ 32 :=
  x.toNat_lt.trans (by decide)

theorem sealLengths_eq (hd : h.difficulty < 256 ^ 32) (extra : Bytes) :
    h.sealLengths chainId extra = (h.sealFields chainId extra).map List.length := by
  unfold Header.sealLengths Header.sealFields
  simp only [List.map_cons, List.map_nil, Rlp.length_encodeBytes, length_encodeU64,
    length_encodeU256 hd, length_encodeU256 (toNat_lt_u256 _)]

theorem sealOptionalLengths_eq :
    (h.sealOptionalLengths : Outcome ε (List Nat))
      = h.sealOptionalFields >>= fun fields => pure (fields.map List.length) := by
  unfold Header.sealOptionalLengths Header.sealOptionalFields
  split
  · simp only [bind_assoc, pure_bind, List.map_append, List.map_cons, List.map_nil,
      Rlp.length_encodeBytes, length_encodeU64, length_encodeU256 (toNat_lt_u256 _)]
    cases h.requestsHash with
    | none => rfl
    | some hash => simp only [Option.map_some, Option.toList_some, List.map_cons, List.map_nil,
        Rlp.length_encodeBytes]
  · rfl

/-- The announced length is the one written, so the message is an RLP list. -/
theorem encodeHeaderWithChainId_eq (hd : h.difficulty < 256 ^ 32) :
    (encodeHeaderWithChainId h chainId : Outcome ε Bytes) = (do
      let extra ← h.unsealedExtra
      let optional ← h.sealOptionalFields
      pure (Rlp.encodeList (h.sealFields chainId extra ++ optional).flatten)) := by
  unfold encodeHeaderWithChainId rlpHeader
  cases (h.unsealedExtra : Outcome ε Bytes) with
  | err e => rfl
  | panic => rfl
  | ok extra =>
    rw [sealOptionalLengths_eq]
    cases (h.sealOptionalFields : Outcome ε (List Bytes)) with
    | err e => rfl
    | panic => rfl
    | ok optional =>
      simp only [ok_bind, pure_eq, Rlp.encodeList, sealLengths_eq hd,
        ← List.map_append, List.length_flatten]

/-- Without optional fields the message is a list of the other fields. -/
theorem hashWithChainId_of_noOptionalFields (keccak256 : Bytes → B256)
    (hd : h.difficulty < 256 ^ 32) (hopt : h.NoOptionalFields) (hlen : 65 ≤ h.extraData.length) :
    (hashWithChainId h chainId keccak256 : Outcome ε B256) = .ok (keccak256 (Rlp.encodeList
      (h.sealFields chainId (h.extraData.take (h.extraData.length - 65))).flatten)) := by
  have hextra : (h.unsealedExtra : Outcome ε Bytes)
      = .ok (h.extraData.take (h.extraData.length - 65)) :=
    if_neg (Nat.not_lt.mpr hlen)
  have hfields : (h.sealOptionalFields : Outcome ε (List Bytes)) = .ok [] :=
    if_neg (by rw [hopt.parentBeaconBlockRoot]; exact nofun)
  rw [hashWithChainId, encodeHeaderWithChainId_eq hd, hextra, hfields]
  simp only [ok_bind, pure_eq, List.append_nil]

end Seal

/-! ## Recovering the proposer -/

/-- Hashing and signatures of other crates. -/
structure SealCrypto where
  keccak256 : Bytes → B256
  RecoverableSignature : Type
  /-- `RecoverableSignature::from_compact` with the recovery id that the byte stands for. -/
  fromCompact : Bytes → UInt8 → Option RecoverableSignature
  /-- `recover_ecdsa`: the public key, uncompressed and without its first byte. -/
  recoverEcdsa : B256 → RecoverableSignature → Option Bytes

/-- The address of a public key. -/
def SealCrypto.keyAddress (c : SealCrypto) (key : Bytes) : Address :=
  ⟨(c.keccak256 key).val.drop 12, by simp⟩

section Recover

variable (c : SealCrypto) (chainId : UInt64)

/-- `hash_slow`. -/
def SealCrypto.hashSlow (h : Header) : B256 := c.keccak256 h.rlp

/-- The 65 bytes at the end of the extra data. -/
def Header.sealBytes (h : Header) : Bytes := h.extraData.drop (h.extraData.length - extraSealLen)

/-- What `recover_proposer` does when the header is not in its cache. -/
def recoverFromSeal (h : Header) : Outcome ParliaConsensusError Address :=
  if h.extraData.length < extraVanityLen + extraSealLen then .err .extraSignatureMissing
  else do
    let signature ← okOr .recoverECDSAInnerError
      (c.fromCompact (h.sealBytes.take 64) (h.sealBytes.getD 64 0))
    let message ← hashWithChainId h chainId c.keccak256
    let key ← okOr .recoverECDSAInnerError (c.recoverEcdsa message signature)
    pure (c.keyAddress key)

/-- A failed recovery leaves the cache as it was. -/
def recoverProposer (cache : LruMap B256 Address) (h : Header) :
    Outcome ParliaConsensusError (Address × LruMap B256 Address) :=
  match cache.get (c.hashSlow h) with
  | (some proposer, cache) => pure (proposer, cache)
  | (none, _) => do
    let proposer ← recoverFromSeal c chainId h
    pure (proposer, cache.insert (c.hashSlow h) proposer)

def recoveredProposerCacheNum : Nat := 4096

/-- The cache after successful calls for `headers`, the last one first. -/
inductive RecoverRun : List Header → LruMap B256 Address → Prop
  | start : RecoverRun [] (.new recoveredProposerCacheNum)
  | call {headers : List Header} {cache cache' : LruMap B256 Address} {h : Header} {a : Address}
      (hrun : RecoverRun headers cache)
      (hcall : recoverProposer c chainId cache h = .ok (a, cache')) :
      RecoverRun (h :: headers) cache'

/-- At some time `recover_proposer` answers `a` for `h`, and no other header that it was asked for
before has the hash of `h`. -/
def YieldsProposer (h : Header) (a : Address) : Prop :=
  ∃ headers cache cache', RecoverRun c chainId headers cache ∧
    (∀ h' ∈ headers, c.hashSlow h' = c.hashSlow h → h' = h) ∧
    recoverProposer c chainId cache h = .ok (a, cache')

variable {c chainId}

theorem recoverFromSeal_eq_ok {h : Header} {a : Address} :
    recoverFromSeal c chainId h = .ok a ↔
      97 ≤ h.extraData.length ∧ ∃ signature message key,
        c.fromCompact (h.sealBytes.take 64) (h.sealBytes.getD 64 0) = some signature ∧
        hashWithChainId h chainId c.keccak256 = (.ok message : Outcome ParliaConsensusError B256) ∧
        c.recoverEcdsa message signature = some key ∧ c.keyAddress key = a := by
  unfold recoverFromSeal
  by_cases hlen : h.extraData.length < extraVanityLen + extraSealLen
  · rw [if_pos hlen]
    exact ⟨fun hok => (nomatch hok), fun hok => absurd hlen (Nat.not_lt.mpr hok.1)⟩
  · rw [if_neg hlen]
    simp only [bind_eq_ok, okOr_eq_ok, pure_eq, ok.injEq]
    refine ⟨fun ⟨signature, hsig, message, hmessage, key, hkey, haddr⟩ => ?_,
      fun ⟨_, signature, message, key, hsig, hmessage, hkey, haddr⟩ => ?_⟩
    · exact ⟨Nat.not_lt.mp hlen, signature, message, key, hsig, hmessage, hkey, haddr⟩
    · exact ⟨signature, hsig, message, hmessage, key, hkey, haddr⟩

/-- An entry of the cache was recovered from the seal of a header with this hash. -/
theorem RecoverRun.mem_entries {headers : List Header} {cache : LruMap B256 Address}
    (hrun : RecoverRun c chainId headers cache) {e : B256 × Address} (he : e ∈ cache.entries) :
    ∃ h ∈ headers, c.hashSlow h = e.1 ∧ recoverFromSeal c chainId h = .ok e.2 := by
  induction hrun with
  | start => exact absurd he List.not_mem_nil
  | @call headers cache cache' h a hrun hcall ih =>
    unfold recoverProposer at hcall
    split at hcall
    · next proposer cache₁ hget =>
      rw [pure_eq, ok.injEq, Prod.mk.injEq] at hcall
      obtain ⟨-, rfl⟩ := hcall
      have hmem : e ∈ (cache.get (c.hashSlow h)).2.entries := by rwa [hget]
      obtain ⟨h', hh', hspec⟩ := ih (LruMap.mem_of_mem_get hmem)
      exact ⟨h', List.mem_cons_of_mem _ hh', hspec⟩
    · obtain ⟨proposer, hrecover, hcall⟩ := bind_eq_ok.mp hcall
      rw [pure_eq, ok.injEq, Prod.mk.injEq] at hcall
      obtain ⟨-, rfl⟩ := hcall
      rcases LruMap.mem_of_mem_insert he with rfl | hmem
      · exact ⟨h, List.mem_cons_self, rfl, hrecover⟩
      · simp [*]

/-- The cache does not change the answer. -/
theorem yieldsProposer_iff {h : Header} {a : Address} :
    YieldsProposer c chainId h a ↔ recoverFromSeal c chainId h = .ok a := by
  constructor
  · rintro ⟨headers, cache, cache', hrun, hfresh, hcall⟩
    unfold recoverProposer at hcall
    split at hcall
    · next proposer cache₁ hget =>
      rw [pure_eq, ok.injEq, Prod.mk.injEq] at hcall
      obtain ⟨rfl, -⟩ := hcall
      have hfind : cache.find (c.hashSlow h) = some proposer := by
        rw [← LruMap.get_fst, hget]
      obtain ⟨h', hh', hhash, hrecover⟩ := hrun.mem_entries (LruMap.mem_of_find hfind)
      rwa [hfresh h' hh' hhash] at hrecover
    · obtain ⟨proposer, hrecover, hcall⟩ := bind_eq_ok.mp hcall
      simp_all
  · intro hrecover
    refine ⟨[], _, (LruMap.new recoveredProposerCacheNum).insert (c.hashSlow h) a, .start, by simp,
      ?_⟩
    unfold recoverProposer
    show (recoverFromSeal c chainId h >>= _) = _
    rw [hrecover]
    rfl

end Recover

end RethBsc
