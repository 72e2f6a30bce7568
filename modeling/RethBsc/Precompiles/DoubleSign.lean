import RethBsc.Parlia.SealHash
import RethBsc.Parlia.Validation
import RethBsc.Precompiles.Error

/-!
# Double-sign evidence

`src/evm/precompiles/double_sign.rs`: a contract call with two headers of one height, signed by one
validator, as evidence against it.  The precompile decodes the headers and hashes what was signed
with code of its own.

* `EvidenceHeader` has the fifteen fields of a header before London.
* `hashWithChainId_eq_sealHash`: on such headers the precompile hashes what the proposer signed.
* `decodeEvidenceHeader_of_optionalFields`: any other header is refused.
* `doubleSign_agrees_iff`: so the precompile accepts the evidence of consensus exactly for headers
  of the first kind.
-/

namespace RethBsc

open Rust

/-! ## Decoding the evidence -/

structure DoubleSignEvidence where
  chainId : UInt64
  headerBytes1 : Bytes
  headerBytes2 : Bytes
  deriving DecidableEq

/-- `Header` of the precompile. -/
structure EvidenceHeader where
  parentHash : B256
  uncleHash : B256
  coinbase : Address
  root : B256
  txHash : B256
  receiptHash : B256
  bloom : FixedBytes 256
  difficulty : Nat
  number : UInt64
  gasLimit : UInt64
  gasUsed : UInt64
  time : UInt64
  extra : Bytes
  mixDigest : B256
  nonce : FixedBytes 8
  deriving DecidableEq

def doubleSignEvidenceFields : Rlp.Decoder DoubleSignEvidence := do
  let chainId ← decodeU64
  let headerBytes1 ← Rlp.decodeBytes
  let headerBytes2 ← Rlp.decodeBytes
  pure ⟨chainId, headerBytes1, headerBytes2⟩

def decodeDoubleSignEvidence : Rlp.Decoder DoubleSignEvidence :=
  Rlp.decodeStruct doubleSignEvidenceFields

def evidenceHeaderFields : Rlp.Decoder EvidenceHeader := do
  let parentHash ← Rlp.decodeFixed 32
  let uncleHash ← Rlp.decodeFixed 32
  let coinbase ← Rlp.decodeFixed 20
  let root ← Rlp.decodeFixed 32
  let txHash ← Rlp.decodeFixed 32
  let receiptHash ← Rlp.decodeFixed 32
  let bloom ← Rlp.decodeFixed 256
  let difficulty ← Rlp.decodeUint 32
  let number ← decodeU64
  let gasLimit ← decodeU64
  let gasUsed ← decodeU64
  let time ← decodeU64
  let extra ← Rlp.decodeBytes
  let mixDigest ← Rlp.decodeFixed 32
  let nonce ← Rlp.decodeFixed 8
  pure { parentHash, uncleHash, coinbase, root, txHash, receiptHash, bloom, difficulty, number,
         gasLimit, gasUsed, time, extra, mixDigest, nonce }

def decodeEvidenceHeader : Rlp.Decoder EvidenceHeader := Rlp.decodeStruct evidenceHeaderFields

/-! ## The precompile -/

/-- The recovery of `revm`, which agrees with that of the consensus. -/
structure EvidenceCrypto extends SealCrypto where
  /-- `secp256k1::ecrecover`: the address, with twelve zero bytes before it. -/
  ecrecover : Bytes → UInt8 → B256 → Option B256
  ecrecover_agrees : ∀ {sig recid message signature key},
    fromCompact sig recid = some signature → recoverEcdsa message signature = some key →
      ecrecover sig recid message
        = some ⟨List.replicate 12 0 ++ (toSealCrypto.keyAddress key).val, by simp⟩

/-- `revm`'s `PrecompileOutput`. -/
structure PrecompileOutput where
  gasUsed : UInt64
  bytes : Bytes
  reverted : Bool
  deriving DecidableEq

def doubleSignEvidenceValidationBase : UInt64 := 10000

/-- The fields of `SealContent`; `extra` is without the seal. -/
def EvidenceHeader.sealContent (header : EvidenceHeader) (chainId : UInt64) (extra : Bytes) :
    List Bytes :=
  [encodeU64 chainId, Rlp.encodeBytes header.parentHash.val, Rlp.encodeBytes header.uncleHash.val,
    Rlp.encodeBytes header.coinbase.val, Rlp.encodeBytes header.root.val,
    Rlp.encodeBytes header.txHash.val, Rlp.encodeBytes header.receiptHash.val,
    Rlp.encodeBytes header.bloom.val, encodeU256 header.difficulty, encodeU64 header.number,
    encodeU64 header.gasLimit, encodeU64 header.gasUsed, encodeU64 header.time,
    Rlp.encodeBytes extra, Rlp.encodeBytes header.mixDigest.val, Rlp.encodeBytes header.nonce.val]

section Run

variable (c : EvidenceCrypto)

/-- The caller has checked that there is a seal. -/
def sealHash (header : EvidenceHeader) (chainId : UInt64) : B256 :=
  c.keccak256 (Rlp.encodeList (header.sealContent chainId
    (header.extra.take (header.extra.length - extraSealLen))).flatten)

def revertedOutput : PrecompileOutput := ⟨doubleSignEvidenceValidationBase, [], true⟩

/-- The address and the height, in 52 bytes. -/
def evidenceOutput (addr : B256) (number : UInt64) : PrecompileOutput :=
  ⟨doubleSignEvidenceValidationBase,
    addr.val.drop 12 ++ List.replicate 24 0 ++ toBeBytes number, false⟩

/-- The 65 bytes at the end of the extra data. -/
def EvidenceHeader.sealData (header : EvidenceHeader) : Bytes :=
  header.extra.drop (header.extra.length - extraSealLen)

/-- The checks on two decoded headers. -/
def checkDoubleSign (chainId : UInt64) (header1 header2 : EvidenceHeader) :
    Except PrecompileError PrecompileOutput :=
  let invalid := BscPrecompileError.doubleSignInvalidEvidence.into
  if (toBeBytes header1.number).length > 32 ∨ (toBeBytes header2.number).length > 32 then
    .error invalid
  else if header1.number ≠ header2.number then .error invalid
  else if header1.parentHash ≠ header2.parentHash then .error invalid
  else if header1.extra.length < extraSealLen ∨ header2.extra.length < extraSealLen then
    .error invalid
  else
    let sig1 := header1.sealData
    let sig2 := header2.sealData
    if sig1 = sig2 then .error invalid
    else
      let msgHash1 := sealHash c header1 chainId
      let msgHash2 := sealHash c header2 chainId
      if msgHash1 = msgHash2 then .error invalid
      else
        match c.ecrecover (sig1.take 64) (sig1.getD 64 0) msgHash1 with
        | none => .ok revertedOutput
        | some addr1 =>
          match c.ecrecover (sig2.take 64) (sig2.getD 64 0) msgHash2 with
          | none => .ok revertedOutput
          | some addr2 =>
            if addr1 ≠ addr2 then .error invalid else .ok (evidenceOutput addr1 header1.number)

def doubleSignEvidenceValidationRun (input : Bytes) (gasLimit : UInt64) :
    Except PrecompileError PrecompileOutput :=
  if doubleSignEvidenceValidationBase > gasLimit then .error .outOfGas
  else
    match decodeDoubleSignEvidence input with
    | .error _ => .ok revertedOutput
    | .ok (evidence, _) =>
      match decodeEvidenceHeader evidence.headerBytes1 with
      | .error _ => .ok revertedOutput
      | .ok (header1, _) =>
        match decodeEvidenceHeader evidence.headerBytes2 with
        | .error _ => .ok revertedOutput
        | .ok (header2, _) => checkDoubleSign c evidence.chainId header1 header2

end Run

/-! ## Headers of consensus as evidence -/

/-- A header without its optional fields. -/
def EvidenceHeader.ofHeader (h : Header) : EvidenceHeader where
  parentHash := h.parentHash
  uncleHash := h.ommersHash
  coinbase := h.beneficiary
  root := h.stateRoot
  txHash := h.transactionsRoot
  receiptHash := h.receiptsRoot
  bloom := h.logsBloom
  difficulty := h.difficulty
  number := h.number
  gasLimit := h.gasLimit
  gasUsed := h.gasUsed
  time := h.timestamp
  extra := h.extraData
  mixDigest := h.mixHash
  nonce := h.nonce

variable {h : Header} {chainId : UInt64}

theorem decodes_evidenceHeaderFields (hextra : h.extraData.length < 2 ^ 64)
    (hd : h.difficulty < 256 ^ 32) :
    Rlp.Decodes evidenceHeaderFields h.mandatoryFields.flatten (EvidenceHeader.ofHeader h) := by
  unfold Header.mandatoryFields evidenceHeaderFields
  simp only [encodeU256_toNat]
  refine .bind (Rlp.decodes_fixed (by decide) h.parentHash) ?_
  refine .bind (Rlp.decodes_fixed (by decide) h.ommersHash) ?_
  refine .bind (Rlp.decodes_fixed (by decide) h.beneficiary) ?_
  refine .bind (Rlp.decodes_fixed (by decide) h.stateRoot) ?_
  refine .bind (Rlp.decodes_fixed (by decide) h.transactionsRoot) ?_
  refine .bind (Rlp.decodes_fixed (by decide) h.receiptsRoot) ?_
  refine .bind (Rlp.decodes_fixed (by decide) h.logsBloom) ?_
  refine .bind (Rlp.decodes_uint (by decide) hd) ?_
  refine .bind (decodes_u64 h.number) ?_
  refine .bind (decodes_u64 h.gasLimit) ?_
  refine .bind (decodes_u64 h.gasUsed) ?_
  refine .bind (decodes_u64 h.timestamp) ?_
  refine .bind (Rlp.decodes_bytes hextra) ?_
  refine .bind (Rlp.decodes_fixed (by decide) h.mixHash) ?_
  exact .bind (Rlp.decodes_fixed (by decide) h.nonce) (.pure _)

theorem length_payload_lt (hlen : h.rlp.length < 2 ^ 64) :
    (h.mandatoryFields ++ h.optionalFields).flatten.length < 2 ^ 64 :=
  (Rlp.length_le_encodeList _).trans_lt hlen

theorem length_extraData_lt (hlen : h.rlp.length < 2 ^ 64) :
    h.extraData.length < 2 ^ 64 := by
  have hmem : Rlp.encodeBytes h.extraData ∈ h.mandatoryFields ++ h.optionalFields :=
    List.mem_append_left _ (by unfold Header.mandatoryFields; simp)
  calc h.extraData.length
    _ ≤ (Rlp.encodeBytes h.extraData).length := Rlp.length_le_encodeBytes _
    _ ≤ (h.mandatoryFields ++ h.optionalFields).flatten.length :=
      (List.sublist_flatten_of_mem hmem).length_le
    _ < 2 ^ 64 := length_payload_lt hlen

theorem decodeEvidenceHeader_of_noOptionalFields (hlen : h.rlp.length < 2 ^ 64)
    (hd : h.difficulty < 256 ^ 32) (hopt : h.NoOptionalFields) :
    decodeEvidenceHeader h.rlp = .ok (EvidenceHeader.ofHeader h, []) := by
  have hpayload := length_payload_lt hlen
  have hnil : h.optionalFields = [] := Header.optionalFields_eq_nil_iff.mpr hopt
  rw [hnil, List.append_nil] at hpayload
  have hdecodes := (decodes_evidenceHeaderFields (length_extraData_lt hlen) hd).struct hpayload []
  rwa [List.append_nil, ← List.append_nil h.mandatoryFields, ← hnil] at hdecodes

/-- An optional field is an item too many. -/
theorem decodeEvidenceHeader_of_optionalFields (hlen : h.rlp.length < 2 ^ 64)
    (hd : h.difficulty < 256 ^ 32) (hopt : ¬ h.NoOptionalFields) :
    ∃ e, decodeEvidenceHeader h.rlp = .error e := by
  have hsurplus := mt Header.flatten_optionalFields_eq_nil_iff.mp hopt
  have hpayload := length_payload_lt hlen
  rw [List.flatten_append] at hpayload
  have hfields := decodes_evidenceHeaderFields (length_extraData_lt hlen) hd
  have hrefused := Rlp.decodeStruct_surplus hpayload hfields hsurplus []
  rw [List.append_nil, ← List.flatten_append] at hrefused
  exact ⟨_, hrefused⟩

/-- On headers without optional fields the precompile hashes the signed message. -/
theorem hashWithChainId_eq_sealHash {ε : Type} (c : EvidenceCrypto)
    (hd : h.difficulty < 256 ^ 32) (hopt : h.NoOptionalFields) (hlen : 65 ≤ h.extraData.length) :
    (hashWithChainId h chainId c.keccak256 : Outcome ε B256)
      = .ok (sealHash c (EvidenceHeader.ofHeader h) chainId) := by
  rw [hashWithChainId_of_noOptionalFields c.keccak256 hd hopt hlen]
  unfold Header.sealFields
  simp only [encodeU256_toNat]
  rfl

/-- The precompile recovers the proposer that consensus recovers. -/
theorem ecrecover_of_yieldsProposer {a : Address}
    (c : EvidenceCrypto) (hd : h.difficulty < 256 ^ 32) (hopt : h.NoOptionalFields)
    (hproposer : YieldsProposer c.toSealCrypto chainId h a) :
    97 ≤ h.extraData.length ∧ c.ecrecover (h.sealBytes.take 64) (h.sealBytes.getD 64 0)
          (sealHash c (EvidenceHeader.ofHeader h) chainId)
        = some ⟨List.replicate 12 0 ++ a.val, by simp⟩ := by
  obtain ⟨hlen, signature, message, key, hsig, hmessage, hkey, rfl⟩ :=
    recoverFromSeal_eq_ok.mp (yieldsProposer_iff.mp hproposer)
  rw [hashWithChainId_eq_sealHash c hd hopt (by omega), Outcome.ok.injEq] at hmessage
  rw [hmessage]
  exact ⟨hlen, c.ecrecover_agrees hsig hkey⟩

/-- Two headers that pass all the checks and have one signer. -/
theorem checkDoubleSign_eq_ok {c : EvidenceCrypto}
    {header1 header2 : EvidenceHeader} {addr : B256} (hnumber : header1.number = header2.number)
    (hparent : header1.parentHash = header2.parentHash) (hlen1 : 65 ≤ header1.extra.length)
    (hlen2 : 65 ≤ header2.extra.length) (hsig : header1.sealData ≠ header2.sealData)
    (hmsg : sealHash c header1 chainId ≠ sealHash c header2 chainId)
    (hrecover1 : c.ecrecover (header1.sealData.take 64) (header1.sealData.getD 64 0)
      (sealHash c header1 chainId) = some addr)
    (hrecover2 : c.ecrecover (header2.sealData.take 64) (header2.sealData.getD 64 0)
      (sealHash c header2 chainId) = some addr) :
    checkDoubleSign c chainId header1 header2 = .ok (evidenceOutput addr header1.number) := by
  simp_all [checkDoubleSign]

theorem evidenceOutput_pad (a : Address) (number : UInt64) :
    evidenceOutput ⟨List.replicate 12 0 ++ a.val, by simp⟩ number
      = ⟨10000, a.val ++ (b256OfUInt64 number).val, false⟩ := by
  rw [evidenceOutput, List.drop_left' (by simp), List.append_assoc]
  rfl

/-! ## Agreement -/

/-- The RLP of the chain id and the RLP forms of the two headers. -/
def evidenceInput (chainId : UInt64) (h₁ h₂ : Header) : Bytes :=
  Rlp.encodeList [encodeU64 chainId, Rlp.encodeBytes h₁.rlp, Rlp.encodeBytes h₂.rlp].flatten

theorem decodeDoubleSignEvidence_evidenceInput {h₁ h₂ : Header}
    (hlen : (evidenceInput chainId h₁ h₂).length < 2 ^ 64) :
    h₁.rlp.length < 2 ^ 64 ∧ h₂.rlp.length < 2 ^ 64 ∧
      decodeDoubleSignEvidence (evidenceInput chainId h₁ h₂)
        = .ok (⟨chainId, h₁.rlp, h₂.rlp⟩, []) := by
  have hpayload := (Rlp.length_le_encodeList _).trans_lt hlen
  have hmem : ∀ b, Rlp.encodeBytes b ∈
      [encodeU64 chainId, Rlp.encodeBytes h₁.rlp, Rlp.encodeBytes h₂.rlp] → b.length < 2 ^ 64 :=
    fun b hb => ((Rlp.length_le_encodeBytes b).trans
      (List.sublist_flatten_of_mem hb).length_le).trans_lt hpayload
  have h₁len := hmem h₁.rlp (by simp)
  have h₂len := hmem h₂.rlp (by simp)
  have hfields : Rlp.Decodes doubleSignEvidenceFields
      [encodeU64 chainId, Rlp.encodeBytes h₁.rlp, Rlp.encodeBytes h₂.rlp].flatten
      ⟨chainId, h₁.rlp, h₂.rlp⟩ :=
    .bind (decodes_u64 chainId) (.bind (Rlp.decodes_bytes h₁len)
      (.bind (Rlp.decodes_bytes h₂len) (.pure _)))
  have hdecodes := hfields.struct hpayload []
  rw [List.append_nil] at hdecodes
  exact ⟨h₁len, h₂len, hdecodes⟩

/-- **The precompile agrees with consensus exactly on headers without optional fields.**  The
headers have one height and one parent, different messages and different seals, and consensus
recovers one proposer for both.  A `U256` and the length of a slice are natural numbers here, so
their bounds are hypotheses. -/
theorem doubleSign_agrees_iff (c : EvidenceCrypto) (chainId gasLimit : UInt64) (h₁ h₂ : Header)
    (a : Address) (hgas : 10000 ≤ gasLimit) (hnumber : h₁.number = h₂.number)
    (hparent : h₁.parentHash = h₂.parentHash)
    (hhash : (hashWithChainId h₁ chainId c.keccak256 : Outcome ParliaConsensusError B256)
      ≠ hashWithChainId h₂ chainId c.keccak256) (hseal : h₁.sealBytes ≠ h₂.sealBytes)
    (hproposer₁ : YieldsProposer c.toSealCrypto chainId h₁ a)
    (hproposer₂ : YieldsProposer c.toSealCrypto chainId h₂ a) (hd₁ : h₁.difficulty < 2 ^ 256)
    (hd₂ : h₂.difficulty < 2 ^ 256) (hlen : (evidenceInput chainId h₁ h₂).length < 2 ^ 64) :
    doubleSignEvidenceValidationRun c (evidenceInput chainId h₁ h₂) gasLimit
        = .ok ⟨10000, a.val ++ (b256OfUInt64 h₁.number).val, false⟩ ↔
      h₁.NoOptionalFields ∧ h₂.NoOptionalFields := by
  have hd₁ : h₁.difficulty < 256 ^ 32 := hd₁
  have hd₂ : h₂.difficulty < 256 ^ 32 := hd₂
  obtain ⟨h₁len, h₂len, hevidence⟩ := decodeDoubleSignEvidence_evidenceInput hlen
  have hgas' : ¬ doubleSignEvidenceValidationBase > gasLimit := UInt64.not_lt.mpr hgas
  rw [doubleSignEvidenceValidationRun, if_neg hgas', hevidence]
  dsimp only
  constructor
  · intro hrun
    by_cases hopt₁ : h₁.NoOptionalFields
    · by_cases hopt₂ : h₂.NoOptionalFields
      · exact ⟨hopt₁, hopt₂⟩
      · obtain ⟨e, he⟩ := decodeEvidenceHeader_of_optionalFields h₂len hd₂ hopt₂
        rw [decodeEvidenceHeader_of_noOptionalFields h₁len hd₁ hopt₁, he] at hrun
        exact absurd hrun (by simp [revertedOutput])
    · obtain ⟨e, he⟩ := decodeEvidenceHeader_of_optionalFields h₁len hd₁ hopt₁
      rw [he] at hrun
      exact absurd hrun (by simp [revertedOutput])
  · rintro ⟨hopt₁, hopt₂⟩
    obtain ⟨h₁extra, hrecover₁⟩ := ecrecover_of_yieldsProposer c hd₁ hopt₁ hproposer₁
    obtain ⟨h₂extra, hrecover₂⟩ := ecrecover_of_yieldsProposer c hd₂ hopt₂ hproposer₂
    rw [hashWithChainId_eq_sealHash c hd₁ hopt₁ (by omega),
      hashWithChainId_eq_sealHash c hd₂ hopt₂ (by omega), ne_eq, Outcome.ok.injEq] at hhash
    rw [decodeEvidenceHeader_of_noOptionalFields h₁len hd₁ hopt₁,
      decodeEvidenceHeader_of_noOptionalFields h₂len hd₂ hopt₂]
    have hextra₁ : 65 ≤ (EvidenceHeader.ofHeader h₁).extra.length := Nat.le_trans (by decide) h₁extra
    have hextra₂ : 65 ≤ (EvidenceHeader.ofHeader h₂).extra.length := Nat.le_trans (by decide) h₂extra
    have hcheck : checkDoubleSign c chainId (EvidenceHeader.ofHeader h₁) (EvidenceHeader.ofHeader h₂)
        = .ok (evidenceOutput ⟨List.replicate 12 0 ++ a.val, by simp⟩ h₁.number) :=
      checkDoubleSign_eq_ok hnumber hparent hextra₁ hextra₂ hseal hhash hrecover₁ hrecover₂
    rwa [evidenceOutput_pad] at hcheck

/-! ### Two blocks of one validator -/

/-- A polynomial hash, and signatures that start with the message they are for. -/
def polyCrypto : EvidenceCrypto where
  keccak256 bytes :=
    ⟨natToBeBytes 32 (bytes.foldl (fun acc b => acc * 257 + b.toNat + 1) 7), by simp⟩
  RecoverableSignature := Bytes
  fromCompact sig recid := if recid < 4 then some sig else none
  recoverEcdsa message sig := if sig.take 32 = message.val then some [1] else none
  ecrecover sig recid message :=
    if recid < 4 ∧ sig.take 32 = message.val then
      some ⟨List.replicate 12 0 ++
        (natToBeBytes 32 ([(1 : UInt8)].foldl (fun acc b => acc * 257 + b.toNat + 1) 7)).drop 12,
        by simp⟩
    else none
  ecrecover_agrees := by
    intro sig recid message signature key hsig hkey
    have hrecid : recid < 4 := by
      by_contra hlarge
      exact absurd hsig (by simp [hlarge])
    rw [if_pos hrecid, Option.some.injEq] at hsig
    subst hsig
    have hmessage : sig.take 32 = message.val := by
      by_contra hother
      exact absurd hkey (by simp [hother])
    rw [if_pos hmessage, Option.some.injEq] at hkey
    subst hkey
    rw [if_pos ⟨hrecid, hmessage⟩]
    rfl

def polyAddress : Address := polyCrypto.keyAddress [1]

/-- The header with a vanity and the seal of the validator. -/
def polySigned (h : Header) : Header :=
  match (hashWithChainId { h with extraData := List.replicate 97 0 } 56 polyCrypto.keccak256 :
      Outcome Unit B256) with
  | .ok message =>
    { h with extraData := List.replicate 32 0 ++ message.val ++ List.replicate 33 0 }
  | _ => h

/-- Signing changes the extra data only. -/
theorem polySigned_eq (h : Header) : ∃ extraData, polySigned h = { h with extraData } := by
  unfold polySigned
  split
  · exact ⟨_, rfl⟩
  · exact ⟨h.extraData, rfl⟩

theorem noOptionalFields_polySigned (hopt : h.NoOptionalFields) :
    (polySigned h).NoOptionalFields := by
  obtain ⟨extraData, heq⟩ := polySigned_eq h
  rw [heq]
  exact ⟨hopt.baseFeePerGas, hopt.withdrawalsRoot, hopt.blobGasUsed, hopt.excessBlobGas,
    hopt.parentBeaconBlockRoot, hopt.requestsHash⟩

/-- Block 2 with a base fee, as London wants it. -/
def londonBlock (gasLimit : UInt64) : Header :=
  polySigned { timedHeader 2 1000 0 with gasLimit }

/-- Block 2 without a base fee. -/
def frontierBlock (gasLimit : UInt64) : Header :=
  polySigned { timedHeader 2 1000 0 with gasLimit, baseFeePerGas := none }

/-- Valid evidence about two blocks after London is refused. -/
theorem london_evidence_reverts :
    (Parlia.ofSpec feynmanSpec).validateHeader 2000000 (londonBlock 1) = .ok () ∧
      (Parlia.ofSpec feynmanSpec).validateHeader 2000000 (londonBlock 2) = .ok () ∧
      (londonBlock 1).number = (londonBlock 2).number ∧
      (londonBlock 1).timestamp = (londonBlock 2).timestamp ∧
      (londonBlock 1).parentHash = (londonBlock 2).parentHash ∧
      (hashWithChainId (londonBlock 1) 56 polyCrypto.keccak256 : Outcome Unit B256)
        ≠ hashWithChainId (londonBlock 2) 56 polyCrypto.keccak256 ∧
      (londonBlock 1).sealBytes ≠ (londonBlock 2).sealBytes ∧
      YieldsProposer polyCrypto.toSealCrypto 56 (londonBlock 1) polyAddress ∧
      YieldsProposer polyCrypto.toSealCrypto 56 (londonBlock 2) polyAddress ∧
      doubleSignEvidenceValidationRun polyCrypto (evidenceInput 56 (londonBlock 1) (londonBlock 2))
        10000 = .ok revertedOutput := by
  refine ⟨by decide +kernel, by decide +kernel, by decide +kernel, by decide +kernel,
    by decide +kernel, by decide +kernel, by decide +kernel, ?_, ?_, by decide +kernel⟩
  · exact yieldsProposer_iff.mpr (by decide +kernel)
  · exact yieldsProposer_iff.mpr (by decide +kernel)

theorem frontier_evidence_accepted :
    doubleSignEvidenceValidationRun polyCrypto
        (evidenceInput 56 (frontierBlock 1) (frontierBlock 2)) 10000
      = .ok ⟨10000, polyAddress.val ++ (b256OfUInt64 (frontierBlock 1).number).val, false⟩ :=
  (doubleSign_agrees_iff polyCrypto 56 10000 (frontierBlock 1) (frontierBlock 2) polyAddress
    (by decide) (by decide +kernel) (by decide +kernel) (by decide +kernel) (by decide +kernel)
    (yieldsProposer_iff.mpr (by decide +kernel)) (yieldsProposer_iff.mpr (by decide +kernel))
    (by decide +kernel) (by decide +kernel) (by decide +kernel)).mpr
    ⟨noOptionalFields_polySigned ⟨rfl, rfl, rfl, rfl, rfl, rfl⟩,
      noOptionalFields_polySigned ⟨rfl, rfl, rfl, rfl, rfl, rfl⟩⟩

end RethBsc
