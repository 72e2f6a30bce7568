import RethBsc.Miner.ExtraSections
import RethBsc.Miner.PayloadJob
import RethBsc.Node.PreExecution

/-!
# Seals of mined blocks

`try_new_work` of `src/node/miner/bsc_miner.rs`, which decides whether to mine on a new tip, and
`seal_header` of `src/node/miner/signer.rs`.  A block that comes of this work is checked by every
other node with `verify_seal`.

* `tryNewWork_eq_some`: when work is queued.
* `sealExtraData_signs`: the seal in a finished header is over the hash of that header.
* `recoverProposer_of_run`: the cache of proposers answers what the seal recovers to.
* `mined_seal_accepted_iff`: the seal of a mined block is accepted exactly if the key that signs is
  the key of the configured validator.
-/

namespace RethBsc

open Rust Outcome

/-! ## New work -/

/-- `sealed_header_by_hash` of the provider. -/
abbrev HeaderByHash : Type := B256 → Except String (Option Header)

/-- The context to mine on `tip` with, `none` if there is a reason not to.  `now` is in seconds. -/
def tryNewWork {ε : Type} (validatorAddress : Address) (now : UInt64)
    (sealedHeaderByHash : HeaderByHash) (snapshotByHash : B256 → Option Snapshot) (tip : Header)
    (tipHash : B256) : Outcome ε (Option JobContext) :=
  -- the node may still be syncing
  if tip.timestamp < now - 3 then pure none
  else
    match sealedHeaderByHash tipHash with
    | .error _ | .ok none => pure none
    | .ok (some parentHeader) =>
      match snapshotByHash tipHash with
      | none => pure none
      | some parentSnapshot =>
        if !parentSnapshot.validators.contains validatorAddress then pure none
        else do
          let isInturn ← parentSnapshot.isInturn validatorAddress
          if parentSnapshot.signRecently validatorAddress then pure none
          else pure (some { header := none, parentHeader, parentSnapshot, isInturn })

/-- Work is queued for a validator of the parent snapshot that did not sign recently. -/
theorem tryNewWork_eq_some {ε : Type} {validatorAddress : Address} {now : UInt64}
    {sealedHeaderByHash : HeaderByHash} {snapshotByHash : B256 → Option Snapshot} {tip : Header}
    {tipHash : B256} {work : JobContext}
    (h : (tryNewWork validatorAddress now sealedHeaderByHash snapshotByHash tip tipHash
      : Outcome ε (Option JobContext)) = .ok (some work)) :
    sealedHeaderByHash tipHash = .ok (some work.parentHeader) ∧
      snapshotByHash tipHash = some work.parentSnapshot ∧
      validatorAddress ∈ work.parentSnapshot.validators ∧
      work.parentSnapshot.signRecently validatorAddress = false := by
  unfold tryNewWork at h
  split at h
  · cases h
  · split at h
    · cases h
    · cases h
    · next parentHeader hheader =>
      split at h
      · cases h
      · next parentSnapshot hsnap =>
        split at h
        · cases h
        · next hmember =>
          obtain ⟨isInturn, -, h⟩ := bind_eq_ok.mp h
          split at h
          · cases h
          · next hrecent =>
            cases h
            refine ⟨hheader, hsnap, ?_, Bool.not_eq_true _ ▸ hrecent⟩
            simpa using hmember

/-! ## Signing -/

/-- Signatures of other crates, with the two facts that make them recoverable. -/
structure SigningCrypto extends SealCrypto where
  SecretKey : Type
  /-- `SecretKey::from_slice`. -/
  secretKeyFromSlice : FixedBytes 32 → Except String SecretKey
  signEcdsaRecoverable : B256 → SecretKey → RecoverableSignature
  /-- The 64 bytes and the byte of the recovery id. -/
  serializeCompact : RecoverableSignature → FixedBytes 64 × UInt8
  /-- Uncompressed and without its first byte. -/
  publicKey : SecretKey → Bytes
  fromCompact_serializeCompact (signature : RecoverableSignature) :
    fromCompact (serializeCompact signature).1.val (serializeCompact signature).2 = some signature
  recoverEcdsa_sign (message : B256) (key : SecretKey) :
    recoverEcdsa message (signEcdsaRecoverable message key) = some (publicKey key)

/-- `get_validator_address` of a key. -/
def SigningCrypto.validatorAddress (c : SigningCrypto) (key : c.SecretKey) : Address :=
  c.keyAddress (c.publicKey key)

structure MinerSigner where
  secretBytes : FixedBytes 32

/-- `r`, `s` and the recovery id. -/
def SigningCrypto.sealBytes (c : SigningCrypto) (message : B256) (key : c.SecretKey) :
    FixedBytes extraSealLen :=
  let compact := c.serializeCompact (c.signEcdsaRecoverable message key)
  ⟨compact.1.val ++ [compact.2], by simp [extraSealLen]⟩

def MinerSigner.sealHeader (signer : MinerSigner) (c : SigningCrypto) (header : Header)
    (chainId : UInt64) : Outcome SignerError (FixedBytes extraSealLen) := do
  let message ← hashWithChainId header chainId c.keccak256
  match c.secretKeyFromSlice signer.secretBytes with
  | .error e => .err (.signingFailed ("Invalid private key: " ++ e))
  | .ok key => pure (c.sealBytes message key)

/-- The global signer is `signer`. -/
def MinerState.SealsWith (state : MinerState) (c : SigningCrypto) (signer : MinerSigner) : Prop :=
  ∀ sealHeader, state.globalSigner = some sealHeader → ∀ header chainId sealData,
    sealHeader header chainId = .ok sealData → signer.sealHeader c header chainId = .ok sealData

/-! ## What the seal is over -/

section Seal

variable {c : SigningCrypto} {signer : MinerSigner} {key : c.SecretKey} {state : MinerState}
  {chainId : UInt64} {header header' : Header}

theorem unsealedExtra_append {ε : Type} (h : Header) (extra : Bytes)
    (room : FixedBytes extraSealLen) :
    ({ h with extraData := extra ++ room.val }.unsealedExtra : Outcome ε Bytes) = .ok extra := by
  simp [Header.unsealedExtra]

/-- The signed message does not depend on what stands in the room for the seal. -/
theorem hashWithChainId_room {ε : Type} (keccak256 : Bytes → B256) (h : Header) (extra : Bytes)
    (room room' : FixedBytes extraSealLen) :
    (hashWithChainId { h with extraData := extra ++ room.val } chainId keccak256 : Outcome ε B256)
      = hashWithChainId { h with extraData := extra ++ room'.val } chainId keccak256 := by
  unfold hashWithChainId encodeHeaderWithChainId rlpHeader
  rw [unsealedExtra_append, unsealedExtra_append]
  rfl

/-- The seal is a signature over the hash of the header that carries it. -/
theorem sealExtraData_signs (hsigner : state.SealsWith c signer)
    (hkey : c.secretKeyFromSlice signer.secretBytes = .ok key)
    (h : sealExtraData state chainId header = .ok header') :
    ∃ message, (hashWithChainId header' chainId c.keccak256 : Outcome SignerError B256)
        = .ok message ∧
      header.Appends (c.sealBytes message key).val header' := by
  obtain ⟨signature, hseal, happends⟩ := sealExtraData_eq_ok h
  unfold MinerState.sealHeaderWithGlobalSigner at hseal
  obtain ⟨sealHeader, hglobal, hseal⟩ := bind_eq_ok.mp hseal
  split at hseal
  · next sealData hdata =>
    cases hseal
    have hsigned := hsigner _ (okOr_eq_ok.mp hglobal) _ _ _ hdata
    unfold MinerSigner.sealHeader at hsigned
    obtain ⟨message, hmessage, hsigned⟩ := bind_eq_ok.mp hsigned
    rw [hkey] at hsigned
    cases hsigned
    refine ⟨message, ?_, happends⟩
    -- the signer hashed the header with zeros where the seal is now
    rw [happends, ← hmessage]
    exact hashWithChainId_room c.keccak256 header header.extraData _
      ⟨List.replicate extraSealLen 0, List.length_replicate⟩
  · cases hseal

/-- Hashing fails in the same way whatever the error type is. -/
theorem hashWithChainId_eq_ok {ε δ : Type} {keccak256 : Bytes → B256} {h : Header} {message : B256}
    (hok : (hashWithChainId h chainId keccak256 : Outcome ε B256) = .ok message) :
    (hashWithChainId h chainId keccak256 : Outcome δ B256) = .ok message := by
  unfold hashWithChainId encodeHeaderWithChainId rlpHeader Header.unsealedExtra
    Header.sealOptionalLengths Header.sealOptionalFields at hok ⊢
  by_cases hlen : h.extraData.length < extraSealLen
  · simp only [if_pos hlen, panic_bind, reduceCtorEq] at hok
  · by_cases hroot : h.parentBeaconBlockRoot = some .zero
    · simp only [if_neg hlen, if_pos hroot, bind_eq_ok, unwrap_eq_ok,
        pure_eq, ok.injEq] at hok ⊢
      exact hok
    · simp only [if_neg hlen, if_neg hroot, bind_eq_ok, pure_eq,
        ok.injEq] at hok ⊢
      exact hok

/-- A seal recovers to the address of the key that made it. -/
theorem recoverFromSeal_of_appends {message : B256}
    (hlen : extraVanityLen ≤ header.extraData.length)
    (hmessage : (hashWithChainId header' chainId c.keccak256 : Outcome SignerError B256)
      = .ok message) (happends : header.Appends (c.sealBytes message key).val header') :
    recoverFromSeal c.toSealCrypto chainId header' = .ok (c.validatorAddress key) := by
  have hextra : header'.extraData = header.extraData ++ (c.sealBytes message key).val := by
    rw [happends]
  have hbytes : header'.sealBytes = (c.sealBytes message key).val := by
    rw [Header.sealBytes, hextra, List.length_append, FixedBytes.length_val, Nat.add_sub_cancel, List.drop_left]
  refine recoverFromSeal_eq_ok.mpr ⟨?_, c.signEcdsaRecoverable message key, message,
    c.publicKey key, ?_, hashWithChainId_eq_ok hmessage, c.recoverEcdsa_sign message key, rfl⟩
  · simp [*]
  · rw [hbytes]
    have hcompact := (c.serializeCompact (c.signEcdsaRecoverable message key)).1.length_val
    have htake : (c.sealBytes message key).val.take 64
        = (c.serializeCompact (c.signEcdsaRecoverable message key)).1.val :=
      List.take_left' hcompact
    have hlast : (c.sealBytes message key).val.getD 64 0
        = (c.serializeCompact (c.signEcdsaRecoverable message key)).2 := by
      show ((c.serializeCompact _).1.val ++ [_]).getD 64 0 = _
      rw [List.getD_eq_getElem?_getD, List.getElem?_append_right hcompact.le, hcompact]
      rfl
    rw [htake, hlast]
    exact c.fromCompact_serializeCompact _

end Seal

/-! ## Finished headers have room for a vanity -/

section Finish

variable {c : BscEvmConfig} {crypto : Crypto} {lookups : Lookups} {state : MinerState}
  {snap : Snapshot} {parent header header' : Header}

theorem Header.Appends.length_le {h h' : Header} {bytes : Bytes} (happends : h.Appends bytes h') :
    h.extraData.length ≤ h'.extraData.length := by
  rw [happends]
  dsimp only
  rw [List.length_append]
  exact Nat.le_add_right _ _

theorem prepareCachedValidators_length_le
    (h : prepareCachedValidators c crypto state snap parent header = .ok header') :
    header.extraData.length ≤ header'.extraData.length := by
  by_cases hepoch : isMultipleOf header.number snap.epochNum = true
  · exact (prepareCachedValidators_appends hepoch h).length_le
  · simp_all [prepareCachedValidators]

theorem prepareTurnLength_length_le {p : Parlia} {cache : B256 → Option UInt8}
    (h : p.prepareTurnLength cache snap header = .ok header') :
    header.extraData.length ≤ header'.extraData.length := by
  by_cases hepoch : isMultipleOf header.number snap.epochNum = true
  · obtain ⟨bytes, -, happends⟩ := Parlia.prepareTurnLength_appends hepoch h
    exact happends.length_le
  · simp_all [Parlia.prepareTurnLength]

/-- The last step seals a header that has at least a vanity. -/
theorem finalizeNewHeader_seals
    (h : finalizeNewHeader c crypto lookups state snap parent header = .ok header') :
    ∃ unsealed : Header, extraVanityLen ≤ unsealed.extraData.length ∧
      sealExtraData state c.chainId unsealed = .ok header' := by
  unfold finalizeNewHeader at h
  obtain ⟨difficulty, -, h⟩ := bind_eq_ok.mp h
  obtain ⟨h₁, hvalidators, h⟩ := bind_eq_ok.mp h
  obtain ⟨h₂, hturn, h⟩ := bind_eq_ok.mp h
  obtain ⟨h₃, hvote, hseal⟩ := bind_eq_ok.mp h
  have hvanity : extraVanityLen ≤ (setDifficultyAndVanity header difficulty).extraData.length := by
    grind [setDifficultyAndVanity]
  obtain ⟨bytes, hattest, -⟩ := attestIfPossible_appends hvote
  refine ⟨h₃, ?_, hseal⟩
  calc extraVanityLen
      ≤ (setDifficultyAndVanity header difficulty).extraData.length := hvanity
    _ ≤ h₁.extraData.length := prepareCachedValidators_length_le hvalidators
    _ ≤ h₂.extraData.length := prepareTurnLength_length_le (mapErr_eq_ok.mp hturn)
    _ ≤ h₃.extraData.length := hattest.length_le

end Finish

/-! ## The check of a mined block -/

/-- Being in turn does not depend on the error type of the caller. -/
theorem Snapshot.isInturn_eq_ok {ε δ : Type} {snap : Snapshot} {a : Address} {inturn : Bool}
    (h : (snap.isInturn a : Outcome ε Bool) = .ok inturn) :
    (snap.isInturn a : Outcome δ Bool) = .ok inturn := by
  grind [isInturn, inturnValidator, bind_eq_ok, unwrap_eq_ok, pure_eq]

/-- Whatever the node was asked for before, it finds the proposer that the seal recovers to. -/
theorem recoverProposer_of_run {c : SealCrypto} {chainId : UInt64} {headers : List Header}
    {cache : LruMap B256 Address} {h : Header} {a : Address}
    (hrun : RecoverRun c chainId headers cache)
    (hfresh : ∀ h' ∈ headers, c.hashSlow h' = c.hashSlow h → h' = h)
    (hrecover : recoverFromSeal c chainId h = .ok a) :
    ∃ cache', recoverProposer c chainId cache h = .ok (a, cache') := by
  unfold recoverProposer
  split
  · next proposer cache₁ hget =>
    have hfind : cache.find (c.hashSlow h) = some proposer := by rw [← LruMap.get_fst, hget]
    obtain ⟨h', hh', hhash, hcached⟩ := hrun.mem_entries (LruMap.mem_of_find hfind)
    rw [hfresh h' hh' hhash, hrecover] at hcached
    rw [ok.inj hcached]
    exact ⟨cache₁, rfl⟩
  · rw [hrecover]
    exact ⟨_, rfl⟩

section Mined

variable {c : SigningCrypto} {signer : MinerSigner} {key : c.SecretKey} {config : BscEvmConfig}
  {crypto : Crypto} {lookups : Lookups} {state : MinerState} {codec : BlockCodec}
  {input : BscBlockAssemblerInput codec} {block : BscBlock codec}

/-- An assembled header recovers to the address of the key. -/
theorem assembleBlockBsc_recovers (hsigner : state.SealsWith c signer)
    (hkey : c.secretKeyFromSlice signer.secretBytes = .ok key)
    (h : assembleBlockBsc config input crypto (some lookups) state = .ok block) :
    recoverFromSeal c.toSealCrypto config.chainId block.header = .ok (c.validatorAddress key) := by
  unfold assembleBlockBsc at h
  rw [okOr_some, ok_bind] at h
  obtain ⟨parentHeader, -, h⟩ := bind_eq_ok.mp h
  obtain ⟨snap, -, h⟩ := bind_eq_ok.mp h
  obtain ⟨header, hfinal, h⟩ := bind_eq_ok.mp h
  cases h
  obtain ⟨unsealed, hvanity, hseal⟩ := finalizeNewHeader_seals (mapErr_eq_ok.mp hfinal)
  obtain ⟨message, hmessage, happends⟩ := sealExtraData_signs hsigner hkey hseal
  exact recoverFromSeal_of_appends hvanity hmessage happends

/-- **Mined seals.**  Take work that the miner queued, and any block that is assembled for it.
Whatever headers a node was asked for before, if none of them collides with the block, its check of
the seal passes exactly if the signing key is that of the configured validator. -/
theorem mined_seal_accepted_iff {ε : Type} {validatorAddress : Address} {now : UInt64}
    {sealedHeaderByHash : HeaderByHash} {tip : Header} {tipHash : B256} {work : JobContext}
    (hwork : (tryNewWork validatorAddress now sealedHeaderByHash lookups.snapshotByHash tip tipHash
      : Outcome ε (Option JobContext)) = .ok (some work)) (hparent : input.parentHash = tipHash)
    (hbeneficiary : input.evmEnv.blockEnv.beneficiary = validatorAddress)
    (hsigner : state.SealsWith c signer) (hkey : c.secretKeyFromSlice signer.secretBytes = .ok key)
    (hblock : assembleBlockBsc config input crypto (some lookups) state = .ok block)
    {headers : List Header} {cache : LruMap B256 Address}
    (hrun : RecoverRun c.toSealCrypto config.chainId headers cache)
    (hfresh : ∀ h ∈ headers, c.hashSlow h = c.hashSlow block.header → h = block.header) :
    (∃ cache', verifySeal c.toSealCrypto config.chainId cache work.parentSnapshot block.header
        = .ok cache') ↔ c.validatorAddress key = validatorAddress := by
  obtain ⟨-, hsnap, hmember, hrecent⟩ := tryNewWork_eq_some hwork
  rw [← hparent] at hsnap
  obtain ⟨difficulty, hdifficulty, hsame⟩ := assembleBlockBsc_eq_ok hsnap hblock
  have hheader : block.header.beneficiary = validatorAddress := by rwa [hsame]
  obtain ⟨cache', hrecover⟩ :=
    recoverProposer_of_run hrun hfresh (assembleBlockBsc_recovers hsigner hkey hblock)
  constructor
  · -- the check compares the recovered address with the beneficiary
    rintro ⟨cache'', hverify⟩
    have hproposer := (verifySeal_eq_ok.mp hverify).1
    simp_all
  · intro haddress
    obtain ⟨inturn, hinturn, hdiff⟩ := bind_eq_ok.mp hdifficulty
    refine ⟨cache', verifySeal_eq_ok.mpr ⟨?_, ?_, ?_, inturn, ?_, ?_⟩⟩
    · rw [hrecover, haddress, hheader]
    · rwa [hheader]
    · rwa [hheader]
    · rw [hheader, ← hbeneficiary]
      exact Snapshot.isInturn_eq_ok hinturn
    · rw [hsame]
      exact (ok.inj hdiff).symm

end Mined

/-! ### The lone validator mines block 2 -/

/-- `seal_header` of a signer as the global one; a panic never returns. -/
def MinerSigner.asGlobal (signer : MinerSigner) (c : SigningCrypto) (header : Header)
    (chainId : UInt64) : Except SignerError (FixedBytes extraSealLen) :=
  match signer.sealHeader c header chainId with
  | .ok sealData => .ok sealData
  | .err e => .error e
  | .panic => .error .notInitialized

theorem sealsWith_asGlobal {state : MinerState} {c : SigningCrypto} {signer : MinerSigner}
    (hstate : state.globalSigner = some (signer.asGlobal c)) : state.SealsWith c signer := by
  intro sealHeader hglobal header chainId sealData hseal
  obtain rfl := Option.some.inj (hstate.symm.trans hglobal)
  grind [MinerSigner.asGlobal]

/-- One key, that of the lone validator. -/
def loneSigningCrypto : SigningCrypto :=
  { loneSealCrypto with
    SecretKey := Unit
    secretKeyFromSlice := fun _ => .ok ()
    signEcdsaRecoverable := fun _ _ => ()
    serializeCompact := fun _ => (.repeatByte 64 1, 0)
    publicKey := fun _ => []
    fromCompact_serializeCompact := fun _ => rfl
    recoverEcdsa_sign := fun _ _ => rfl }

def loneSigner : MinerSigner := ⟨.repeatByte 32 1⟩

def signingState : MinerState :=
  { idleState with globalSigner := some (loneSigner.asGlobal loneSigningCrypto) }

def loneWork : JobContext where
  header := none
  parentHeader := parentAt 0
  parentSnapshot := loneSnapshot
  isInturn := true

/-- An empty block on the parent. -/
def loneInput : BscBlockAssemblerInput emptyBlocks :=
  builderInput fermiConfig numberHash (parentAt 0) ((dueAttributes 0).nextBlock 30000000) [] [] 0
    .zero

theorem loneWork_seal_accepted :
    ∃ block, assembleBlockBsc fermiConfig loneInput markedCrypto (some (parentLookups 0))
        signingState = .ok block ∧
      ∃ cache', verifySeal loneSealCrypto 56 (.new recoveredProposerCacheNum) loneSnapshot
        block.header = .ok cache' := by
  have hwork : (tryNewWork loneValidator 1001 (fun _ => .ok (some (parentAt 0)))
      (parentLookups 0).snapshotByHash (parentAt 0) (numberHash (parentAt 0))
      : Outcome Unit (Option JobContext)) = .ok (some loneWork) := rfl
  have hsigner : signingState.SealsWith loneSigningCrypto loneSigner := sealsWith_asGlobal rfl
  have hkey : loneSigningCrypto.secretKeyFromSlice loneSigner.secretBytes = .ok () := rfl
  obtain ⟨block, hblock⟩ : ∃ block, assembleBlockBsc fermiConfig loneInput markedCrypto
      (some (parentLookups 0)) signingState = .ok block := ⟨_, rfl⟩
  have haccepted := mined_seal_accepted_iff hwork rfl rfl hsigner hkey hblock .start (by simp)
  exact ⟨block, hblock, haccepted.mpr rfl⟩

end RethBsc
