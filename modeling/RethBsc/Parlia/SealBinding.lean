import RethBsc.Parlia.SealHash

/-!
# What a seal binds

The message that a proposer signs (`encode_header_with_chain_id` of `src/consensus/parlia/util.rs`)
tells the chain and the header apart, up to the seal itself.

* All fields of the message are RLP strings: `sealFields_eq` and `sealOptionalFields_eq` give them.
* A list of strings is read in one way only, so equal messages have equal strings
  (`sealStrings_eq`).
* The first 16 strings are the chain id and the mandatory fields; what follows them tells whether
  the fields of Cancun are there, and which they are (`SealTail.stringsOf_injective`).
-/

namespace RethBsc

open Rust Outcome

/-- The headers that can be sealed.  A `U256` is below `2^256`, and no buffer has more than
`isize::MAX` bytes. -/
structure Header.Sealable (h : Header) : Prop where
  difficulty_lt : h.difficulty < 256 ^ 32
  extraData_lt : h.extraData.length < 2 ^ 63
  seal_le : 65 ≤ h.extraData.length
  optional : h.parentBeaconBlockRoot = some .zero →
    h.baseFeePerGas.isSome ∧ h.withdrawalsRoot.isSome ∧ h.blobGasUsed.isSome ∧
      h.excessBlobGas.isSome

/-- The extra data without the seal. -/
def Header.extraOf (h : Header) : Bytes := h.extraData.take (h.extraData.length - 65)

/-- The two headers agree on all that the message has of them. -/
structure Header.SameSealed (h h' : Header) : Prop where
  parentHash : h.parentHash = h'.parentHash
  ommersHash : h.ommersHash = h'.ommersHash
  beneficiary : h.beneficiary = h'.beneficiary
  stateRoot : h.stateRoot = h'.stateRoot
  transactionsRoot : h.transactionsRoot = h'.transactionsRoot
  receiptsRoot : h.receiptsRoot = h'.receiptsRoot
  logsBloom : h.logsBloom = h'.logsBloom
  difficulty : h.difficulty = h'.difficulty
  number : h.number = h'.number
  gasLimit : h.gasLimit = h'.gasLimit
  gasUsed : h.gasUsed = h'.gasUsed
  timestamp : h.timestamp = h'.timestamp
  extra : h.extraOf = h'.extraOf
  mixHash : h.mixHash = h'.mixHash
  nonce : h.nonce = h'.nonce
  present : h.parentBeaconBlockRoot = some .zero ↔
    h'.parentBeaconBlockRoot = some .zero
  optional : h.parentBeaconBlockRoot = some .zero →
    h.baseFeePerGas = h'.baseFeePerGas ∧ h.withdrawalsRoot = h'.withdrawalsRoot ∧
      h.blobGasUsed = h'.blobGasUsed ∧ h.excessBlobGas = h'.excessBlobGas ∧
      h.requestsHash = h'.requestsHash

/-! ## The strings of the message -/

section Strings

variable {ε : Type} (h : Header) (chainId : UInt64)

/-- The mandatory fields before they are encoded. -/
def Header.sealStrings : List Bytes :=
  [Rlp.trimmedBe 32 chainId.toNat, h.parentHash.val, h.ommersHash.val, h.beneficiary.val,
    h.stateRoot.val, h.transactionsRoot.val, h.receiptsRoot.val, h.logsBloom.val,
    Rlp.trimmedBe 32 h.difficulty, Rlp.trimmedBe 32 h.number.toNat,
    Rlp.trimmedBe 8 h.gasLimit.toNat, Rlp.trimmedBe 8 h.gasUsed.toNat,
    Rlp.trimmedBe 8 h.timestamp.toNat, h.extraOf, h.mixHash.val, h.nonce.val]

/-- The fields of Cancun and later. -/
@[ext]
structure SealTail where
  baseFeePerGas : UInt64
  withdrawalsRoot : B256
  blobGasUsed : UInt64
  excessBlobGas : UInt64
  requestsHash : Option B256

def SealTail.strings (tail : SealTail) : List Bytes :=
  [Rlp.trimmedBe 32 tail.baseFeePerGas.toNat, tail.withdrawalsRoot.val,
    Rlp.trimmedBe 8 tail.blobGasUsed.toNat, Rlp.trimmedBe 8 tail.excessBlobGas.toNat,
    (.zero : B256).val] ++ (tail.requestsHash.map FixedBytes.val).toList

def SealTail.stringsOf : Option SealTail → List Bytes
  | none => []
  | some tail => tail.strings

/-- `tail` is what the message has of the optional fields. -/
inductive Header.HasTail : Option SealTail → Prop
  | absent (habsent : h.parentBeaconBlockRoot ≠ some .zero) : HasTail none
  | present (tail : SealTail) (hpresent : h.parentBeaconBlockRoot = some .zero)
      (hfee : h.baseFeePerGas = some tail.baseFeePerGas)
      (hroot : h.withdrawalsRoot = some tail.withdrawalsRoot)
      (hused : h.blobGasUsed = some tail.blobGasUsed)
      (hexcess : h.excessBlobGas = some tail.excessBlobGas)
      (hhash : h.requestsHash = tail.requestsHash) : HasTail (some tail)

variable {h}

theorem Header.Sealable.exists_tail (hs : h.Sealable) : ∃ tail, h.HasTail tail := by
  by_cases hpresent : h.parentBeaconBlockRoot = some .zero
  · obtain ⟨hfee, hroot, hused, hexcess⟩ := hs.optional hpresent
    obtain ⟨fee, hfee⟩ := Option.isSome_iff_exists.mp hfee
    obtain ⟨root, hroot⟩ := Option.isSome_iff_exists.mp hroot
    obtain ⟨used, hused⟩ := Option.isSome_iff_exists.mp hused
    obtain ⟨excess, hexcess⟩ := Option.isSome_iff_exists.mp hexcess
    exact ⟨_, .present ⟨fee, root, used, excess, h.requestsHash⟩ hpresent hfee hroot hused hexcess
      rfl⟩
  · exact ⟨none, .absent hpresent⟩

theorem sealFields_eq : h.sealFields chainId h.extraOf
    = (h.sealStrings chainId).map Rlp.encodeBytes := rfl

theorem unsealedExtra_eq (hs : h.Sealable) :
    (h.unsealedExtra : Outcome ε Bytes) = .ok h.extraOf :=
  if_neg (Nat.not_lt.mpr hs.seal_le)

variable {tail : Option SealTail}

theorem sealOptionalFields_eq (ht : h.HasTail tail) :
    (h.sealOptionalFields : Outcome ε (List Bytes))
      = .ok ((SealTail.stringsOf tail).map Rlp.encodeBytes) := by
  unfold Header.sealOptionalFields
  cases ht with
  | absent habsent =>
    rw [if_neg habsent]
    rfl
  | present tail hpresent hfee hroot hused hexcess hhash =>
    rw [if_pos hpresent, hfee, hroot, hused, hexcess, hhash]
    obtain ⟨fee, root, used, excess, requests⟩ := tail
    cases requests with
    | none => rfl
    | some hash => rfl

/-- The message is the list of its strings, under the length that `rlp_header` gives. -/
theorem encodeHeaderWithChainId_eq_strings (hs : h.Sealable) (ht : h.HasTail tail) :
    (encodeHeaderWithChainId h chainId : Outcome ε Bytes) = .ok (Rlp.encodeList
      ((h.sealStrings chainId ++ SealTail.stringsOf tail).map Rlp.encodeBytes).flatten) := by
  rw [encodeHeaderWithChainId_eq hs.difficulty_lt, unsealedExtra_eq hs, ok_bind,
    sealOptionalFields_eq ht, ok_bind, sealFields_eq, ← List.map_append, pure_eq]

theorem rlpHeader_eq_strings (hs : h.Sealable) (ht : h.HasTail tail) :
    (rlpHeader h chainId : Outcome ε Nat) = .ok
      ((h.sealStrings chainId ++ SealTail.stringsOf tail).map Rlp.encodeBytes).flatten.length := by
  rw [rlpHeader, unsealedExtra_eq hs, ok_bind, sealOptionalLengths_eq, sealOptionalFields_eq ht,
    ok_bind, pure_eq, ok_bind, sealLengths_eq hs.difficulty_lt, sealFields_eq,
    ← List.map_append, ← List.map_append, ← List.length_flatten, pure_eq]

/-! ## Lengths -/

theorem length_sealStrings : (h.sealStrings chainId).length = 16 := rfl

theorem length_flatten_sealStrings_le :
    (h.sealStrings chainId).flatten.length ≤ h.extraData.length + 600 := by
  have hextra : h.extraOf.length ≤ h.extraData.length := List.length_take_le' _ _
  have hchain := Rlp.length_trimmedBe_le 32 chainId.toNat
  have hdifficulty := Rlp.length_trimmedBe_le 32 h.difficulty
  have hnumber := Rlp.length_trimmedBe_le 32 h.number.toNat
  have hlimit := Rlp.length_trimmedBe_le 8 h.gasLimit.toNat
  have hused := Rlp.length_trimmedBe_le 8 h.gasUsed.toNat
  have htime := Rlp.length_trimmedBe_le 8 h.timestamp.toNat
  simp only [Header.sealStrings, List.flatten_cons, List.flatten_nil, List.length_append,
    List.length_nil, FixedBytes.length_val]
  -- `omega` is slow on a long sum
  grind

theorem SealTail.length_flatten_stringsOf_le (tail : Option SealTail) :
    (SealTail.stringsOf tail).flatten.length ≤ 144 := by
  cases tail with
  | none => exact Nat.zero_le _
  | some tail =>
    have hfee := Rlp.length_trimmedBe_le 32 tail.baseFeePerGas.toNat
    have hused := Rlp.length_trimmedBe_le 8 tail.blobGasUsed.toNat
    have hexcess := Rlp.length_trimmedBe_le 8 tail.excessBlobGas.toNat
    have hrequests : (tail.requestsHash.map FixedBytes.val).toList.flatten.length ≤ 32 := by
      cases tail.requestsHash with
      | none => exact Nat.zero_le _
      | some hash => simp
    simp only [SealTail.stringsOf, SealTail.strings, List.flatten_append, List.flatten_cons,
      List.flatten_nil, List.length_append, List.length_nil, FixedBytes.length_val]
    omega

theorem SealTail.length_stringsOf_le (tail : Option SealTail) :
    (SealTail.stringsOf tail).length ≤ 6 := by
  cases tail with
  | none => exact Nat.zero_le _
  | some tail =>
    have hrequests := tail.requestsHash.map FixedBytes.val |>.length_toList_le
    simp only [SealTail.stringsOf, SealTail.strings, List.length_append, List.length_cons,
      List.length_nil]
    omega

/-- Neither a string nor the whole list is too long for its header. -/
theorem Header.Sealable.strings_fit (hs : h.Sealable) (tail : Option SealTail) :
    (∀ b ∈ h.sealStrings chainId ++ SealTail.stringsOf tail, b.length < 2 ^ 64) ∧
      ((h.sealStrings chainId ++ SealTail.stringsOf tail).map Rlp.encodeBytes).flatten.length
        < 2 ^ 64 := by
  have hlimit := hs.extraData_lt
  have hlength : (h.sealStrings chainId ++ SealTail.stringsOf tail).flatten.length
      ≤ h.extraData.length + 600 + 144 := by
    rw [List.flatten_append, List.length_append]
    exact Nat.add_le_add (length_flatten_sealStrings_le chainId)
      (SealTail.length_flatten_stringsOf_le tail)
  have hcount : (h.sealStrings chainId ++ SealTail.stringsOf tail).length ≤ 16 + 6 := by
    rw [List.length_append, length_sealStrings]
    exact Nat.add_le_add_left (SealTail.length_stringsOf_le tail) 16
  generalize h.sealStrings chainId ++ SealTail.stringsOf tail = strings at hlength hcount
  constructor
  · intro b hb
    have hle := (List.sublist_flatten_of_mem hb).length_le
    omega
  · have hle := Rlp.length_flatten_encodeBytes_le strings
    omega

/-! ## Binding -/

variable {chainId} {h' : Header} {chainId' : UInt64}

/-- Equal messages are made of the same strings. -/
theorem sealStrings_eq (hs : h.Sealable) (hs' : h'.Sealable) {tail' : Option SealTail}
    (ht : h.HasTail tail) (ht' : h'.HasTail tail')
    (heq : (encodeHeaderWithChainId h chainId : Outcome ε Bytes)
      = encodeHeaderWithChainId h' chainId') :
    h.sealStrings chainId = h'.sealStrings chainId' ∧
      SealTail.stringsOf tail = SealTail.stringsOf tail' := by
  rw [encodeHeaderWithChainId_eq_strings chainId hs ht,
    encodeHeaderWithChainId_eq_strings chainId' hs' ht'] at heq
  obtain ⟨hshort, hfits⟩ := hs.strings_fit chainId tail
  obtain ⟨hshort', hfits'⟩ := hs'.strings_fit chainId' tail'
  have hpayload := Rlp.encodeList_injective hfits hfits' (ok.inj heq)
  refine List.append_inj (Rlp.flatten_encodeBytes_injective hshort hshort' hpayload) ?_
  rw [length_sealStrings, length_sealStrings]

theorem toNat_injective_of_trimmedBe {n : Nat} {x y : UInt64} (hn : 8 ≤ n)
    (heq : Rlp.trimmedBe n x.toNat = Rlp.trimmedBe n y.toNat) : x = y := by
  have hpow : 256 ^ 8 ≤ 256 ^ n := Nat.pow_le_pow_right (by decide) hn
  exact UInt64.toNat_inj.mp (Rlp.trimmedBe_injective (x.toNat_lt.trans_le hpow)
    (y.toNat_lt.trans_le hpow) heq)

theorem eq_of_toList_map_val {n : Nat} {o o' : Option (FixedBytes n)}
    (heq : (o.map FixedBytes.val).toList = (o'.map FixedBytes.val).toList) : o = o' := by
  cases o with
  | none => simp_all
  | some a =>
    cases o' with
    | none => exact nomatch heq
    | some b => exact congrArg some (FixedBytes.ext (List.cons.inj heq).1)

/-- The strings after the mandatory ones tell which fields are there. -/
theorem SealTail.stringsOf_injective {tail' : Option SealTail}
    (heq : SealTail.stringsOf tail = SealTail.stringsOf tail') : tail = tail' := by
  cases tail with
  | none =>
    cases tail' with
    | none => rfl
    | some tail' => exact nomatch heq
  | some tail =>
    cases tail' with
    | none => exact nomatch heq
    | some tail' =>
      have hstrings : tail.strings = tail'.strings := heq
      unfold SealTail.strings at hstrings
      obtain ⟨hfive, hrequests⟩ := List.append_inj hstrings (by simp only [List.length_cons])
      simp only [List.cons.injEq, and_true] at hfive
      obtain ⟨hfee, hroot, hused, hexcess⟩ := hfive
      have hhash : tail.requestsHash = tail'.requestsHash := eq_of_toList_map_val hrequests
      exact congrArg some (SealTail.ext (toNat_injective_of_trimmedBe (by decide) hfee)
        (FixedBytes.ext hroot) (toNat_injective_of_trimmedBe (by decide) hused)
        (toNat_injective_of_trimmedBe (by decide) hexcess) hhash)

theorem Header.HasTail.present_iff (ht : h.HasTail tail) (ht' : h'.HasTail tail) :
    (h.parentBeaconBlockRoot = some .zero ↔
        h'.parentBeaconBlockRoot = some .zero) ∧
      (h.parentBeaconBlockRoot = some .zero →
        h.baseFeePerGas = h'.baseFeePerGas ∧ h.withdrawalsRoot = h'.withdrawalsRoot ∧
          h.blobGasUsed = h'.blobGasUsed ∧ h.excessBlobGas = h'.excessBlobGas ∧
          h.requestsHash = h'.requestsHash) := by
  cases ht with
  | absent habsent =>
    cases ht' with
    | absent habsent' =>
      exact ⟨⟨fun h => absurd h habsent, fun h => absurd h habsent'⟩, fun h => absurd h habsent⟩
  | present tail hpresent hfee hroot hused hexcess hhash =>
    cases ht' with
    | present _ hpresent' hfee' hroot' hused' hexcess' hhash' =>
      exact ⟨⟨fun _ => hpresent', fun _ => hpresent⟩, fun _ => ⟨hfee.trans hfee'.symm,
        hroot.trans hroot'.symm, hused.trans hused'.symm, hexcess.trans hexcess'.symm,
        hhash.trans hhash'.symm⟩⟩

theorem sameSealed_of_eq (hs : h.Sealable) (hs' : h'.Sealable)
    (heq : (encodeHeaderWithChainId h chainId : Outcome ε Bytes)
      = encodeHeaderWithChainId h' chainId') : chainId = chainId' ∧ h.SameSealed h' := by
  obtain ⟨tail, ht⟩ := hs.exists_tail
  obtain ⟨tail', ht'⟩ := hs'.exists_tail
  obtain ⟨hmandatory, htail⟩ := sealStrings_eq hs hs' ht ht' heq
  obtain rfl := SealTail.stringsOf_injective htail
  obtain ⟨hpresent, hoptional⟩ := ht.present_iff ht'
  simp only [Header.sealStrings, List.cons.injEq, and_true] at hmandatory
  obtain ⟨hchain, hparent, hommers, hbeneficiary, hstate, htransactions, hreceipts, hbloom,
    hdifficulty, hnumber, hlimit, hused, htime, hextra, hmix, hnonce⟩ := hmandatory
  exact ⟨toNat_injective_of_trimmedBe (by decide) hchain, {
    parentHash := FixedBytes.ext hparent
    ommersHash := FixedBytes.ext hommers
    beneficiary := FixedBytes.ext hbeneficiary
    stateRoot := FixedBytes.ext hstate
    transactionsRoot := FixedBytes.ext htransactions
    receiptsRoot := FixedBytes.ext hreceipts
    logsBloom := FixedBytes.ext hbloom
    difficulty := Rlp.trimmedBe_injective hs.difficulty_lt hs'.difficulty_lt hdifficulty
    number := toNat_injective_of_trimmedBe (by decide) hnumber
    gasLimit := toNat_injective_of_trimmedBe (by decide) hlimit
    gasUsed := toNat_injective_of_trimmedBe (by decide) hused
    timestamp := toNat_injective_of_trimmedBe (by decide) htime
    extra := hextra
    mixHash := FixedBytes.ext hmix
    nonce := FixedBytes.ext hnonce
    present := hpresent
    optional := hoptional }⟩

/-- **The signed message.**  The length announced is that of the fields, and the message binds the
chain id and all of the header but its seal. -/
theorem seal_message_binding (hs : h.Sealable) (hs' : h'.Sealable) :
    (∃ payload, (rlpHeader h chainId : Outcome ε Nat) = .ok payload.length ∧
      (encodeHeaderWithChainId h chainId : Outcome ε Bytes)
        = .ok (Rlp.encodeHeader true payload.length ++ payload)) ∧
    ((encodeHeaderWithChainId h chainId : Outcome ε Bytes) = encodeHeaderWithChainId h' chainId' →
      chainId = chainId' ∧ h.SameSealed h') := by
  refine ⟨?_, sameSealed_of_eq hs hs'⟩
  obtain ⟨tail, ht⟩ := hs.exists_tail
  exact ⟨_, rlpHeader_eq_strings chainId hs ht, encodeHeaderWithChainId_eq_strings chainId hs ht⟩

end Strings

/-- A header with the fields of Cancun and nothing but a seal as its extra data. -/
def cancunHeader (number : UInt64) : Header :=
  { (default : Header) with
    number := number
    extraData := List.replicate 65 0
    baseFeePerGas := some 0
    withdrawalsRoot := some .zero
    blobGasUsed := some 0
    excessBlobGas := some 0
    parentBeaconBlockRoot := some .zero }

theorem sealable_cancunHeader (number : UInt64) : (cancunHeader number).Sealable where
  difficulty_lt := show 0 < 256 ^ 32 by decide
  extraData_lt := show 65 < 2 ^ 63 by decide
  seal_le := Nat.le_refl 65
  optional := fun _ => ⟨rfl, rfl, rfl, rfl⟩

theorem seal_message_binding_number :
    (encodeHeaderWithChainId (cancunHeader 1) 56 : Outcome Unit Bytes)
      ≠ encodeHeaderWithChainId (cancunHeader 2) 56 := by
  intro heq
  obtain ⟨-, hsame⟩ :=
    (seal_message_binding (sealable_cancunHeader 1) (sealable_cancunHeader 2)).2 heq
  exact absurd hsame.number (by decide)

end RethBsc
