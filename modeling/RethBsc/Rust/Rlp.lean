import RethBsc.Rust.Bytes

/-!
# RLP

The recursive length prefix coding as `alloy_rlp` writes and reads it.

* A byte string below `0x80` stands for itself; any other string and every list gets a header that
  tells its length (`encodeHeader`).  Numbers are strings without leading zeros.
* `Decoder` reads from the front of a buffer.  `Decodes d x a` says that `d` reads `x` as `a`,
  whatever follows; the rules `Decodes.pure` and `Decodes.bind` put the fields of a struct together.
* `Decodes.struct` is the round trip of a derived struct, `decodeStruct_surplus` its refusal of a
  list with more items than fields.
* `flatten_encodeBytes_injective`: a sequence of strings can be read in one way only.
* `decodeHeader_eq_ok`, `decodeBytes_eq_ok`, `decodeUint_eq_ok`: what is read is canonical.
* `ItemDecoder` reads at least one byte, so that reading the items of a list ends; `decodes_vec` is
  the round trip of a sequence.
-/

namespace Rust.Rlp

inductive Error where
  | overflow
  | leadingZero
  | inputTooShort
  | nonCanonicalSingleByte
  | nonCanonicalSize
  | unexpectedLength
  | unexpectedString
  | unexpectedList
  | listLengthMismatch (expected got : Nat)
  deriving DecidableEq

/-! ## Encoding -/

/-- The last `n` bytes of `x` without leading zeros. -/
def trimmedBe (n x : Nat) : Bytes := (natToBeBytes n x).dropWhile (· == 0)

/-- `Header::encode`. -/
def encodeHeader (list : Bool) (payloadLength : Nat) : Bytes :=
  if payloadLength < 56 then
    [UInt8.ofNat ((if list then 0xc0 else 0x80) + payloadLength)]
  else
    let lenBe := trimmedBe 8 payloadLength
    UInt8.ofNat ((if list then 0xf7 else 0xb7) + lenBe.length) :: lenBe

/-- The string is its own encoding. -/
def isSingleByte : Bytes → Bool
  | [x] => x < 0x80
  | _ => false

def encodeBytes (b : Bytes) : Bytes :=
  if isSingleByte b then b else encodeHeader false b.length ++ b

/-- An integer of `n` bytes. -/
def encodeUint (n x : Nat) : Bytes := encodeBytes (trimmedBe n x)

def encodeList (payload : Bytes) : Bytes := encodeHeader true payload.length ++ payload

/-- `length_of_length`. -/
def lengthOfLength (payloadLength : Nat) : Nat :=
  if payloadLength < 56 then 1 else 1 + (trimmedBe 8 payloadLength).length

/-- `Encodable::length` of a string. -/
def lengthBytes (b : Bytes) : Nat :=
  if isSingleByte b then 1 else lengthOfLength b.length + b.length

/-- `Encodable::length` of an integer. -/
def lengthUint (n x : Nat) : Nat :=
  if x < 0x80 then 1 else 1 + (trimmedBe n x).length

theorem length_encodeHeader (list : Bool) (payloadLength : Nat) :
    (encodeHeader list payloadLength).length = lengthOfLength payloadLength := by
  grind [encodeHeader, lengthOfLength]

theorem length_encodeBytes (b : Bytes) : (encodeBytes b).length = lengthBytes b := by
  unfold encodeBytes lengthBytes
  split
  · next h =>
    match b, h with
    | [x], _ => rfl
  · rw [List.length_append, length_encodeHeader]

theorem encodeBytes_ne_nil (b : Bytes) : encodeBytes b ≠ [] := by
  intro h
  have hlen := length_encodeBytes b
  rw [h, lengthBytes, lengthOfLength, List.length_nil] at hlen
  split at hlen
  · omega
  · split at hlen <;> omega

theorem length_le_encodeBytes (b : Bytes) : b.length ≤ (encodeBytes b).length := by
  grind [encodeBytes]

theorem length_le_encodeList (payload : Bytes) : payload.length ≤ (encodeList payload).length := by
  rw [encodeList, List.length_append]
  exact Nat.le_add_left _ _

theorem lengthOfLength_le (payloadLength : Nat) : lengthOfLength payloadLength ≤ 9 := by
  have htrimmed : (trimmedBe 8 payloadLength).length ≤ 8 :=
    (List.dropWhile_sublist _).length_le.trans (length_natToBeBytes 8 payloadLength).le
  unfold lengthOfLength
  split <;> omega

theorem length_encodeBytes_le (b : Bytes) : (encodeBytes b).length ≤ b.length + 9 := by
  have hheader := lengthOfLength_le b.length
  unfold encodeBytes
  split
  · omega
  · rw [List.length_append, length_encodeHeader]
    omega

theorem length_encodeList_le (payload : Bytes) :
    (encodeList payload).length ≤ payload.length + 9 := by
  have hheader := lengthOfLength_le payload.length
  rw [encodeList, List.length_append, length_encodeHeader]
  omega

/-! ## Numbers without leading zeros -/

theorem natOfBeBytes_dropWhile_zero (bs : Bytes) :
    natOfBeBytes (bs.dropWhile (· == 0)) = natOfBeBytes bs := by
  induction bs with
  | nil => rfl
  | cons b bs ih =>
    by_cases hb : b = 0
    · rw [hb, List.dropWhile_cons_of_pos (by decide), ih]
      rfl
    · rw [List.dropWhile_cons_of_neg (by simpa using hb)]

variable {n x len lenOfLen : Nat} {buf rest payload : Bytes} {list : Bool} {b : UInt8} {α : Type}

theorem natOfBeBytes_trimmedBe (h : x < 256 ^ n) : natOfBeBytes (trimmedBe n x) = x := by
  rw [trimmedBe, natOfBeBytes_dropWhile_zero, natOfBeBytes_natToBeBytes, Nat.mod_eq_of_lt h]

theorem length_trimmedBe_le (n x : Nat) : (trimmedBe n x).length ≤ n :=
  (List.dropWhile_suffix _).length_le.trans (length_natToBeBytes n x).le

theorem head?_trimmedBe (n x : Nat) : (trimmedBe n x).head? ≠ some 0 := by
  intro h
  have := List.head?_dropWhile_not (· == 0) (natToBeBytes n x)
  simp_all [trimmedBe]

/-- The width of the integer type does not show. -/
theorem trimmedBe_add (h : x < 256 ^ n) (k : Nat) :
    trimmedBe (n + k) x = trimmedBe n x := by
  unfold trimmedBe
  rw [natToBeBytes_add h, List.dropWhile_append_of_pos (by simp)]

theorem trimmedBe_zero (n : Nat) : trimmedBe n 0 = [] := by
  rw [← Nat.zero_add n, trimmedBe_add (by decide)]
  rfl

/-- A number that fills two bytes or more is at least 256. -/
theorem le_of_length_trimmedBe (h : x < 256 ^ n) (hlen : 1 < (trimmedBe n x).length) :
    256 ≤ x := by
  have hvalue := natOfBeBytes_trimmedBe h
  have hhead := head?_trimmedBe n x
  match htrim : trimmedBe n x with
  | [] => rw [htrim] at hlen; simp at hlen
  | b :: bs =>
    rw [htrim, natOfBeBytes_cons] at hvalue
    rw [htrim, List.head?_cons, ne_eq, Option.some.injEq] at hhead
    rw [htrim, List.length_cons] at hlen
    have hb : 0 < b.toNat := Nat.pos_of_ne_zero fun hzero => hhead (UInt8.toNat_inj.mp hzero)
    have hpow : 256 ^ 1 ≤ 256 ^ bs.length := Nat.pow_le_pow_right (by decide) (by omega)
    have hmul : 256 ^ bs.length ≤ b.toNat * 256 ^ bs.length := Nat.le_mul_of_pos_left _ hb
    omega

theorem isSingleByte_trimmedBe (h : x < 256 ^ n) :
    isSingleByte (trimmedBe n x) = true ↔ x ≠ 0 ∧ x < 0x80 := by
  have hvalue := natOfBeBytes_trimmedBe h
  have hhead := head?_trimmedBe n x
  have hlarge := le_of_length_trimmedBe h
  generalize trimmedBe n x = bs at hvalue hhead hlarge ⊢
  rcases bs with _ | ⟨b, _ | ⟨c, bs⟩⟩
  · obtain rfl : x = 0 := hvalue.symm
    simp [isSingleByte]
  · obtain rfl : x = b.toNat := by simpa [natOfBeBytes] using hvalue.symm
    have hb : b.toNat ≠ 0 := fun hzero =>
      hhead (congrArg some (UInt8.toNat_inj.mp (show b.toNat = (0 : UInt8).toNat from hzero)))
    rw [isSingleByte, decide_eq_true_eq, UInt8.lt_iff_toNat_lt]
    exact (and_iff_right hb).symm
  · have hx : 256 ≤ x := hlarge (by simp)
    simp only [isSingleByte, Bool.false_eq_true, false_iff]
    omega

theorem length_encodeUint (hn : n < 56) (h : x < 256 ^ n) :
    (encodeUint n x).length = lengthUint n x := by
  have hsingle := isSingleByte_trimmedBe h
  have hle := length_trimmedBe_le n x
  rw [encodeUint, length_encodeBytes, lengthBytes, lengthUint, lengthOfLength,
    if_pos (by omega : (trimmedBe n x).length < 56)]
  by_cases hsmall : x < 0x80
  · rw [if_pos hsmall]
    by_cases hzero : x = 0
    · rw [hzero, trimmedBe_zero, if_neg (by decide)]
      rfl
    · rw [if_pos (hsingle.mpr ⟨hzero, hsmall⟩)]
  · rw [if_neg hsmall, if_neg (fun hs => hsmall (hsingle.mp hs).2)]

/-! ## Decoding -/

/-- Reads from the front of a buffer. -/
abbrev Decoder := StateT Bytes (Except Error)

/-- A header whose payload is in the buffer. -/
def checkPayload (list : Bool) (payloadLength : Nat) (buf : Bytes) :
    Except Error ((Bool × Nat) × Bytes) :=
  if buf.length < payloadLength then .error .inputTooShort else .ok ((list, payloadLength), buf)

/-- `from_be_bytes` of `static_left_pad` to `n` bytes. -/
def leftPad (n : Nat) (data : Bytes) : Except Error Nat :=
  if n < data.length then .error .overflow
  else if data.head? = some 0 then .error .leadingZero
  else .ok (natOfBeBytes data)

/-- The rest of a header whose length is given by `lenOfLen` bytes. -/
def decodeLongHeader (list : Bool) (lenOfLen : Nat) (buf : Bytes) :
    Except Error ((Bool × Nat) × Bytes) :=
  if buf.length < lenOfLen then .error .inputTooShort
  else do
    let payloadLength ← leftPad 8 (buf.take lenOfLen)
    if payloadLength < 56 then .error .nonCanonicalSize
    else checkPayload list payloadLength (buf.drop lenOfLen)

/-- `Header::decode`. -/
def decodeHeader : Decoder (Bool × Nat)
  | [] => .error .inputTooShort
  | b :: buf =>
    let code := b.toNat
    if code < 0x80 then checkPayload false 1 (b :: buf)
    else if code < 0xb8 then
      if code = 0x81 then
        match buf with
        | [] => .error .inputTooShort
        | x :: _ => if x < 0x80 then .error .nonCanonicalSingleByte else checkPayload false 1 buf
      else checkPayload false (code - 0x80) buf
    else if code < 0xc0 then decodeLongHeader false (code - 0xb7) buf
    else if code < 0xf8 then checkPayload true (code - 0xc0) buf
    else decodeLongHeader true (code - 0xf7) buf

/-- `Header::decode_bytes`. -/
def decodeBytes : Decoder Bytes := fun buf => do
  let ((list, payloadLength), buf) ← decodeHeader buf
  if list then .error .unexpectedList else .ok (buf.take payloadLength, buf.drop payloadLength)

/-- An integer of `n` bytes. -/
def decodeUint (n : Nat) : Decoder Nat := do
  let bytes ← decodeBytes
  liftM (leftPad n bytes)

def decodeFixed (n : Nat) : Decoder (FixedBytes n) := do
  let bytes ← decodeBytes
  if h : bytes.length = n then pure ⟨bytes, h⟩ else throw .unexpectedLength

/-- What `RlpDecodable` derives for a struct with these fields.  Bytes after the list are left
unread, items after the fields are not. -/
def decodeStruct {α : Type} (fields : Decoder α) : Decoder α := fun buf => do
  let ((list, payloadLength), buf) ← decodeHeader buf
  if !list then .error .unexpectedString
  else
    let (a, buf') ← fields buf
    let consumed := buf.length - buf'.length
    if consumed ≠ payloadLength then .error (.listLengthMismatch payloadLength consumed)
    else .ok (a, buf')

/-! ## Round trips -/

/-- `d` reads `x` as `a` and nothing more. -/
def Decodes {α : Type} (d : Decoder α) (x : Bytes) (a : α) : Prop :=
  ∀ rest, d (x ++ rest) = .ok (a, rest)

namespace Decodes

variable {α β : Type}

theorem pure (a : α) : Decodes (Pure.pure a) [] a := fun _ => rfl

theorem bind {d : Decoder α} {f : α → Decoder β} {x y : Bytes} {a : α} {b : β}
    (hd : Decodes d x a) (hf : Decodes (f a) y b) : Decodes (d >>= f) (x ++ y) b := by
  intro rest
  show (d (x ++ y ++ rest) >>= fun p => f p.1 p.2) = _
  rw [List.append_assoc, hd]
  exact hf rest

/-- The last field of a struct. -/
theorem bind_pure {d : Decoder α} {g : α → β} {x : Bytes} {a : α} (hd : Decodes d x a) :
    Decodes (d >>= fun a => Pure.pure (g a)) x (g a) := by
  have h := hd.bind (f := fun a => Pure.pure (g a)) (.pure (g a))
  rwa [List.append_nil] at h

end Decodes

theorem checkPayload_of_le (h : len ≤ buf.length) :
    checkPayload list len buf = .ok ((list, len), buf) :=
  if_neg (Nat.not_lt.mpr h)

theorem leftPad_trimmedBe (h : x < 256 ^ n) : leftPad n (trimmedBe n x) = .ok x := by
  rw [leftPad, if_neg (Nat.not_lt.mpr (length_trimmedBe_le n x)), if_neg (head?_trimmedBe n x),
    natOfBeBytes_trimmedBe h]

theorem length_trimmedBe_pos (h : x < 256 ^ n) (hx : x ≠ 0) :
    0 < (trimmedBe n x).length := by
  refine List.length_pos_iff.mpr fun hnil => hx ?_
  rw [← natOfBeBytes_trimmedBe h, hnil]
  rfl

theorem decodeLongHeader_trimmedBe (hlong : 56 ≤ len)
    (hlen : len < 256 ^ 8) (hrest : len ≤ rest.length) :
    decodeLongHeader list (trimmedBe 8 len).length (trimmedBe 8 len ++ rest)
      = .ok ((list, len), rest) := by
  rw [decodeLongHeader, if_neg (by rw [List.length_append]; omega), List.take_left, List.drop_left,
    leftPad_trimmedBe hlen]
  show (if len < 56 then _ else _) = _
  rw [if_neg (Nat.not_lt.mpr hlong), checkPayload_of_le hrest]

/-! The first byte of a header decides how it is read. -/

/-- A list begins with a byte from 192 on. -/
theorem head_encodeList (payload : Bytes) :
    ∃ b rest, encodeList payload = b :: rest ∧ 192 ≤ b.toNat := by
  unfold encodeList encodeHeader
  split
  · simp
    omega
  · have hlen := length_trimmedBe_le 8 payload.length
    simp
    omega

theorem decodeHeader_single (h : b.toNat < 0x80) :
    decodeHeader (b :: buf) = checkPayload false 1 (b :: buf) :=
  if_pos h

theorem decodeHeader_one {x : UInt8} (hx : ¬ x < 0x80) :
    decodeHeader (0x81 :: x :: buf) = checkPayload false 1 (x :: buf) :=
  if_neg hx

theorem decodeHeader_shortString (hlen : len < 56) (hne : len ≠ 1) :
    decodeHeader (UInt8.ofNat (0x80 + len) :: buf) = checkPayload false len buf := by
  unfold decodeHeader
  dsimp only
  rw [UInt8.toNat_ofNat_of_lt' (show _ < 256 by omega), if_neg (by omega),
    if_pos (by omega), if_neg (by omega), Nat.add_sub_cancel_left]

theorem decodeHeader_longString (hpos : 0 < lenOfLen) (hle : lenOfLen ≤ 8) :
    decodeHeader (UInt8.ofNat (0xb7 + lenOfLen) :: buf) = decodeLongHeader false lenOfLen buf := by
  unfold decodeHeader
  dsimp only
  rw [UInt8.toNat_ofNat_of_lt' (show _ < 256 by omega), if_neg (by omega),
    if_neg (by omega), if_pos (by omega), Nat.add_sub_cancel_left]

theorem decodeHeader_shortList (hlen : len < 56) :
    decodeHeader (UInt8.ofNat (0xc0 + len) :: buf) = checkPayload true len buf := by
  unfold decodeHeader
  dsimp only
  rw [UInt8.toNat_ofNat_of_lt' (show _ < 256 by omega), if_neg (by omega),
    if_neg (by omega), if_neg (by omega), if_pos (by omega), Nat.add_sub_cancel_left]

theorem decodeHeader_longList (hpos : 0 < lenOfLen) (hle : lenOfLen ≤ 8) :
    decodeHeader (UInt8.ofNat (0xf7 + lenOfLen) :: buf) = decodeLongHeader true lenOfLen buf := by
  unfold decodeHeader
  dsimp only
  rw [UInt8.toNat_ofNat_of_lt' (show _ < 256 by omega), if_neg (by omega),
    if_neg (by omega), if_neg (by omega), if_neg (by omega), Nat.add_sub_cancel_left]

/-- A header is read back when its payload follows and is not a string that needed no header. -/
theorem decodeHeader_encodeHeader (hlen : len < 2 ^ 64) (hrest : len ≤ rest.length)
    (hbyte : list = false → len = 1 → ∃ x tail, rest = x :: tail ∧ ¬ x < 0x80) :
    decodeHeader (encodeHeader list len ++ rest) = .ok ((list, len), rest) := by
  have hlen : len < 256 ^ 8 := hlen
  unfold encodeHeader
  by_cases hshort : len < 56
  · rw [if_pos hshort, List.singleton_append]
    cases list with
    | false =>
      by_cases hone : len = 1
      · obtain ⟨x, tail, rfl, hx⟩ := hbyte rfl hone
        subst hone
        exact (decodeHeader_one hx).trans (checkPayload_of_le hrest)
      · exact (decodeHeader_shortString hshort hone).trans (checkPayload_of_le hrest)
    | true => exact (decodeHeader_shortList hshort).trans (checkPayload_of_le hrest)
  · rw [if_neg hshort]
    have hle := length_trimmedBe_le 8 len
    have hpos := length_trimmedBe_pos hlen (by omega)
    have hlong : 56 ≤ len := by omega
    cases list with
    | false =>
      exact (decodeHeader_longString hpos hle).trans (decodeLongHeader_trimmedBe hlong hlen hrest)
    | true =>
      exact (decodeHeader_longList hpos hle).trans (decodeLongHeader_trimmedBe hlong hlen hrest)

theorem decodes_bytes {b : Bytes} (hlen : b.length < 2 ^ 64) :
    Decodes decodeBytes (encodeBytes b) b := by
  intro rest
  unfold encodeBytes
  by_cases hsingle : isSingleByte b = true
  · rw [if_pos hsingle]
    match b, hsingle with
    | [x], hx =>
      have hx : x < 0x80 := by simpa [isSingleByte] using hx
      show (decodeHeader (x :: rest) >>= _) = _
      rw [decodeHeader_single (UInt8.lt_iff_toNat_lt.mp hx), checkPayload_of_le (by simp)]
      rfl
  · rw [if_neg hsingle, List.append_assoc]
    have hbyte : (false : Bool) = false → b.length = 1 →
        ∃ x tail, b ++ rest = x :: tail ∧ ¬ x < 0x80 := by
      intro _ hone
      obtain ⟨x, rfl⟩ := List.length_eq_one_iff.mp hone
      exact ⟨x, rest, rfl, by simpa [isSingleByte] using hsingle⟩
    show (decodeHeader _ >>= _) = _
    rw [decodeHeader_encodeHeader hlen (by simp) hbyte]
    show Except.ok ((b ++ rest).take b.length, (b ++ rest).drop b.length) = _
    rw [List.take_left, List.drop_left]

theorem decodes_uint (hn : n < 56) (hx : x < 256 ^ n) :
    Decodes (decodeUint n) (encodeUint n x) x := by
  have hle := length_trimmedBe_le n x
  have hbytes : Decodes decodeBytes (encodeUint n x) (trimmedBe n x) := decodes_bytes (by omega)
  intro rest
  show (decodeBytes (encodeUint n x ++ rest) >>= fun p => _) = _
  rw [hbytes]
  show (liftM (leftPad n (trimmedBe n x)) : Decoder Nat) rest = _
  rw [leftPad_trimmedBe hx]
  rfl

theorem decodes_fixed (hn : n < 2 ^ 64) (a : FixedBytes n) :
    Decodes (decodeFixed n) (encodeBytes a.val) a := by
  have hbytes : Decodes decodeBytes (encodeBytes a.val) a.val :=
    decodes_bytes (by rwa [a.length_val])
  have h := hbytes.bind (f := fun bytes => if h : bytes.length = n then pure ⟨bytes, h⟩
    else throw .unexpectedLength) (y := []) (b := a) fun rest => by
      rw [dif_pos a.length_val]
      rfl
  rwa [List.append_nil] at h

variable {a : α} {fields : Decoder α}

/-- A struct is read back from the list of its fields. -/
theorem Decodes.struct (hlen : payload.length < 2 ^ 64) (hfields : Decodes fields payload a) :
    Decodes (decodeStruct fields) (encodeList payload) a := by
  intro rest
  rw [encodeList, decodeStruct, List.append_assoc, decodeHeader_encodeHeader hlen (by simp) (by simp)]
  show (fields (payload ++ rest) >>= _) = _
  rw [hfields]
  show (if (payload ++ rest).length - rest.length ≠ payload.length then _ else _) = _
  rw [if_neg (by simp)]

/-- A list with more items than the struct has fields is refused. -/
theorem decodeStruct_surplus {surplus : Bytes} (hlen : (payload ++ surplus).length < 2 ^ 64)
    (hfields : Decodes fields payload a) (hsurplus : surplus ≠ []) (rest : Bytes) :
    decodeStruct fields (encodeList (payload ++ surplus) ++ rest)
      = .error (.listLengthMismatch (payload ++ surplus).length payload.length) := by
  have hpos : 0 < surplus.length := List.length_pos_iff.mpr hsurplus
  rw [encodeList, decodeStruct, List.append_assoc, decodeHeader_encodeHeader hlen (by simp) (by simp), List.append_assoc]
  show (fields (payload ++ (surplus ++ rest)) >>= _) = _
  rw [hfields]
  have hconsumed : (payload ++ (surplus ++ rest)).length - (surplus ++ rest).length
      = payload.length := by simp
  show (if (payload ++ (surplus ++ rest)).length - (surplus ++ rest).length
    ≠ (payload ++ surplus).length then _ else _) = _
  rw [hconsumed, if_pos (by rw [List.length_append]; omega)]

/-! ## Unique reading -/

/-- What a decoder reads whatever follows is no proper part of what it reads otherwise. -/
theorem Decodes.append_inj {d : Decoder α} {x y r s : Bytes} {b : α}
    (hx : Decodes d x a) (hy : Decodes d y b) (h : x ++ r = y ++ s) : a = b ∧ r = s := by
  have hread := hx r
  rw [h, hy s] at hread
  simp_all

/-- A sequence of strings can be read in one way only. -/
theorem flatten_encodeBytes_injective {l l' : List Bytes} (hl : ∀ b ∈ l, b.length < 2 ^ 64)
    (hl' : ∀ b ∈ l', b.length < 2 ^ 64)
    (h : (l.map encodeBytes).flatten = (l'.map encodeBytes).flatten) : l = l' := by
  induction l generalizing l' with
  | nil =>
    cases l' with
    | nil => rfl
    | cons b l' => exact absurd (List.append_eq_nil_iff.mp h.symm).1 (encodeBytes_ne_nil b)
  | cons a l ih =>
    cases l' with
    | nil => exact absurd (List.append_eq_nil_iff.mp h).1 (encodeBytes_ne_nil a)
    | cons b l' =>
      obtain ⟨ha, htl⟩ := List.forall_mem_cons.mp hl
      obtain ⟨hb, htl'⟩ := List.forall_mem_cons.mp hl'
      obtain ⟨rfl, htail⟩ := (decodes_bytes ha).append_inj (decodes_bytes hb) h
      rw [ih htl htl' htail]

theorem encodeList_injective {payload' : Bytes} (hlen : payload.length < 2 ^ 64)
    (hlen' : payload'.length < 2 ^ 64) (h : encodeList payload = encodeList payload') :
    payload = payload' := by
  have hread : ∀ p : Bytes, p.length < 2 ^ 64 →
      decodeHeader (encodeList p) = .ok ((true, p.length), p) :=
    fun p hp => decodeHeader_encodeHeader hp (Nat.le_refl _) (by simp)
  grind

theorem trimmedBe_injective {y : Nat} (hx : x < 256 ^ n) (hy : y < 256 ^ n)
    (h : trimmedBe n x = trimmedBe n y) : x = y := by
  rw [← natOfBeBytes_trimmedBe hx, h, natOfBeBytes_trimmedBe hy]

theorem length_flatten_encodeBytes_le (l : List Bytes) :
    (l.map encodeBytes).flatten.length ≤ l.flatten.length + 9 * l.length := by
  induction l with
  | nil => exact Nat.le_refl _
  | cons b l ih =>
    have hhead := length_encodeBytes_le b
    simp_all
    omega

/-! ## Canonical form

Whatever is read is the encoding of what it is read as. -/

theorem trimmedBe_natOfBeBytes {data : Bytes} (hlen : data.length ≤ n)
    (hhead : data.head? ≠ some 0) : trimmedBe n (natOfBeBytes data) = data := by
  obtain ⟨k, rfl⟩ := Nat.exists_eq_add_of_le hlen
  rw [trimmedBe_add (natOfBeBytes_lt data), trimmedBe, natToBeBytes_natOfBeBytes]
  cases data with
  | nil => rfl
  | cons b data => simp_all

theorem leftPad_eq_ok {data : Bytes} (h : leftPad n data = .ok x) :
    data = trimmedBe n x ∧ x < 256 ^ n := by
  unfold leftPad at h
  obtain ⟨hlen, h⟩ := throw_if_eq_ok.mp h
  obtain ⟨hhead, h⟩ := throw_if_eq_ok.mp h
  cases h
  refine ⟨(trimmedBe_natOfBeBytes (Nat.not_lt.mp hlen) hhead).symm, ?_⟩
  exact (natOfBeBytes_lt data).trans_le (Nat.pow_le_pow_right (by decide) (Nat.not_lt.mp hlen))

theorem checkPayload_eq_ok {list' : Bool} {len' : Nat}
    (h : checkPayload list len buf = .ok ((list', len'), rest)) :
    list' = list ∧ len' = len ∧ rest = buf ∧ len ≤ buf.length := by
  grind [checkPayload]

theorem decodeLongHeader_eq_ok {list' : Bool}
    (h : decodeLongHeader list lenOfLen buf = .ok ((list', len), rest)) :
    list' = list ∧ (trimmedBe 8 len).length = lenOfLen ∧ buf = trimmedBe 8 len ++ rest ∧
      56 ≤ len ∧ len ≤ rest.length := by
  unfold decodeLongHeader at h
  obtain ⟨hshort, h⟩ := throw_if_eq_ok.mp h
  obtain ⟨payloadLength, hpad, h⟩ := except_bind_eq_ok.mp h
  obtain ⟨hsize, h⟩ := throw_if_eq_ok.mp h
  obtain ⟨rfl, rfl, rfl, hle⟩ := checkPayload_eq_ok h
  obtain ⟨htake, -⟩ := leftPad_eq_ok hpad
  refine ⟨rfl, ?_, ?_, Nat.not_lt.mp hsize, hle⟩
  · rw [← htake, List.length_take, Nat.min_eq_left (Nat.not_lt.mp hshort)]
  · rw [← htake, List.take_append_drop]

theorem encodeHeader_short (hlen : len < 56)
    (hb : b.toNat = (if list then 0xc0 else 0x80) + len) : encodeHeader list len = [b] := by
  rw [encodeHeader, if_pos hlen, ← hb, UInt8.ofNat_toNat]

theorem encodeHeader_long (hlen : 56 ≤ len)
    (hb : b.toNat = (if list then 0xf7 else 0xb7) + (trimmedBe 8 len).length) :
    encodeHeader list len = b :: trimmedBe 8 len := by
  unfold encodeHeader
  dsimp only
  rw [if_neg (Nat.not_lt.mpr hlen), ← hb, UInt8.ofNat_toNat]

/-- A header that was read is the one that `encodeHeader` writes; only a string of one byte below
`0x80` has none. -/
theorem decodeHeader_eq_ok (h : decodeHeader buf = .ok ((list, len), rest)) :
    len ≤ rest.length ∧ (buf = encodeHeader list len ++ rest ∧
          (list = false → len = 1 → ∃ x tail, rest = x :: tail ∧ ¬ x < 0x80) ∨
        list = false ∧ len = 1 ∧ buf = rest ∧ ∃ x tail, rest = x :: tail ∧ x < 0x80) := by
  match buf, h with
  | b :: buf, h =>
    have hb := b.toNat_lt
    unfold decodeHeader at h
    dsimp only at h
    by_cases hsingle : b.toNat < 0x80
    · rw [if_pos hsingle] at h
      obtain ⟨rfl, rfl, rfl, hle⟩ := checkPayload_eq_ok h
      exact ⟨hle, .inr ⟨rfl, rfl, rfl, b, buf, rfl, UInt8.lt_iff_toNat_lt.mpr hsingle⟩⟩
    rw [if_neg hsingle] at h
    by_cases hstring : b.toNat < 0xb8
    · rw [if_pos hstring] at h
      by_cases hone : b.toNat = 0x81
      · -- one byte: it has a header only from `0x80` on
        rw [if_pos hone] at h
        match buf, h with
        | x :: buf, h =>
          obtain ⟨hx, h⟩ := throw_if_eq_ok.mp h
          obtain ⟨rfl, rfl, rfl, hle⟩ := checkPayload_eq_ok h
          refine ⟨hle, .inl ⟨?_, fun _ _ => ⟨x, buf, rfl, hx⟩⟩⟩
          rw [encodeHeader_short (by decide) hone]
          rfl
      · rw [if_neg hone] at h
        obtain ⟨rfl, hlen, rfl, hle⟩ := checkPayload_eq_ok h
        refine ⟨hlen ▸ hle, .inl ⟨?_, fun _ hlen' => absurd hlen' (by omega)⟩⟩
        rw [encodeHeader_short (b := b) (by omega) (by rw [if_neg (by decide)]; omega)]
        rfl
    rw [if_neg hstring] at h
    by_cases hlong : b.toNat < 0xc0
    · rw [if_pos hlong] at h
      obtain ⟨rfl, hlen, rfl, h56, hle⟩ := decodeLongHeader_eq_ok h
      refine ⟨hle, .inl ⟨?_, fun _ hone => absurd hone (by omega)⟩⟩
      rw [encodeHeader_long (b := b) h56 (by rw [if_neg (by decide)]; omega)]
      rfl
    rw [if_neg hlong] at h
    by_cases hlist : b.toNat < 0xf8
    · rw [if_pos hlist] at h
      obtain ⟨rfl, hlen, rfl, hle⟩ := checkPayload_eq_ok h
      refine ⟨hlen ▸ hle, .inl ⟨?_, nofun⟩⟩
      rw [encodeHeader_short (b := b) (by omega) (by rw [if_pos rfl]; omega)]
      rfl
    · rw [if_neg hlist] at h
      obtain ⟨rfl, hlen, rfl, h56, hle⟩ := decodeLongHeader_eq_ok h
      refine ⟨hle, .inl ⟨?_, nofun⟩⟩
      rw [encodeHeader_long (b := b) h56 (by rw [if_pos rfl]; omega)]
      rfl

theorem isSingleByte_eq_true {b : Bytes} : isSingleByte b = true ↔ ∃ x, b = [x] ∧ x < 0x80 := by
  match b with
  | [] => simp [isSingleByte]
  | [x] => simp [isSingleByte]
  | x :: y :: b => simp [isSingleByte]

theorem decodeBytes_eq_ok {b : Bytes} (h : decodeBytes buf = .ok (b, rest)) :
    buf = encodeBytes b ++ rest := by
  unfold decodeBytes at h
  obtain ⟨⟨⟨list, len⟩, buf'⟩, hheader, h⟩ := except_bind_eq_ok.mp h
  obtain ⟨hlist, h⟩ := throw_if_eq_ok.mp h
  obtain rfl : list = false := by simpa using hlist
  obtain ⟨hb, hrest⟩ := Prod.mk.inj (Except.ok.inj h)
  have hsplit : buf' = b ++ rest := by rw [← hb, ← hrest, List.take_append_drop]
  obtain ⟨hle, ⟨rfl, hbyte⟩ | ⟨-, hlen, rfl, x, tail, htail, hx⟩⟩ := decodeHeader_eq_ok hheader
  · have hlen : b.length = len := by rw [← hb, List.length_take, Nat.min_eq_left hle]
    have hheaded : ¬ isSingleByte b = true := by
      intro hsingle
      obtain ⟨x, rfl, hx⟩ := isSingleByte_eq_true.mp hsingle
      grind
    rw [encodeBytes, if_neg hheaded, hlen, hsplit, List.append_assoc]
  · obtain rfl : b = [x] := by rw [← hb, hlen, htail]; rfl
    rw [encodeBytes, if_pos (isSingleByte_eq_true.mpr ⟨x, rfl, hx⟩), hsplit]

/-- A number is read from its encoding alone. -/
theorem decodeUint_eq_ok (h : decodeUint n buf = .ok (x, rest)) :
    buf = encodeUint n x ++ rest ∧ x < 256 ^ n := by
  obtain ⟨⟨data, buf'⟩, hdata, h⟩ := except_bind_eq_ok.mp h
  obtain ⟨y, hpad, h⟩ := except_bind_eq_ok.mp h
  cases h
  obtain ⟨rfl, hlt⟩ := leftPad_eq_ok hpad
  exact ⟨decodeBytes_eq_ok hdata, hlt⟩

/-! ## Sequences

The items of a list are read until its payload is used up, which ends because an item takes at least
one byte. -/

/-- `d` leaves no more than it was given. -/
def Shrinks {α : Type} (d : Decoder α) : Prop :=
  ∀ buf a rest, d buf = .ok (a, rest) → rest.length ≤ buf.length

namespace Shrinks

variable {α β : Type}

theorem pure (a : α) : Shrinks (Pure.pure a) := by
  intro buf b rest h
  obtain ⟨-, rfl⟩ := Prod.mk.inj (Except.ok.inj h)
  exact Nat.le_refl _

theorem bind {d : Decoder α} {f : α → Decoder β} (hd : Shrinks d) (hf : ∀ a, Shrinks (f a)) :
    Shrinks (d >>= f) := by
  intro buf b rest h
  obtain ⟨⟨a, buf'⟩, hread, h⟩ := except_bind_eq_ok.mp h
  exact (hf a buf' b rest h).trans (hd buf a buf' hread)

theorem bytes : Shrinks decodeBytes := by
  intro buf b rest h
  rw [decodeBytes_eq_ok h, List.length_append]
  exact Nat.le_add_left _ _

theorem uint (n : Nat) : Shrinks (decodeUint n) := by
  intro buf x rest h
  rw [(decodeUint_eq_ok h).1, List.length_append]
  exact Nat.le_add_left _ _

theorem fixed (n : Nat) : Shrinks (decodeFixed n) := by
  refine bytes.bind fun b buf a rest h => ?_
  split at h
  · exact pure _ buf a rest h
  · exact absurd h (by nofun)

end Shrinks

/-- A header takes at least one byte, that of a string of one byte apart. -/
theorem length_lt_of_decodeHeader
    (h : decodeHeader buf = .ok ((true, len), rest)) : rest.length < buf.length := by
  obtain ⟨-, ⟨rfl, -⟩ | ⟨hlist, -⟩⟩ := decodeHeader_eq_ok h
  · have hpos : 0 < lengthOfLength len := by
      unfold lengthOfLength
      split <;> omega
    rw [List.length_append, length_encodeHeader]
    omega
  · exact Bool.noConfusion hlist

theorem length_lt_of_decodeStruct (hfields : Shrinks fields)
    (h : decodeStruct fields buf = .ok (a, rest)) :
    rest.length < buf.length := by
  obtain ⟨⟨⟨list, len⟩, buf'⟩, hheader, h⟩ := except_bind_eq_ok.mp h
  obtain ⟨hlist, h⟩ := throw_if_eq_ok.mp h
  obtain rfl : list = true := by simpa using hlist
  obtain ⟨⟨a', rest'⟩, hread, h⟩ := except_bind_eq_ok.mp h
  obtain ⟨-, h⟩ := throw_if_eq_ok.mp h
  obtain ⟨rfl, rfl⟩ := Prod.mk.inj (Except.ok.inj h)
  exact (hfields buf' a' rest' hread).trans_lt (length_lt_of_decodeHeader hheader)

/-- Reads an item of a list. -/
structure ItemDecoder (α : Type) where
  read : Decoder α
  consumes : ∀ {buf a rest}, read buf = .ok (a, rest) → rest.length < buf.length

namespace ItemDecoder

variable {α : Type}

def struct (fields : Decoder α) (hfields : Shrinks fields) : ItemDecoder α :=
  ⟨decodeStruct fields, length_lt_of_decodeStruct hfields⟩

/-- The items of a payload that is read to its end. -/
def items (d : ItemDecoder α) (buf : Bytes) : Except Error (List α) :=
  if buf = [] then .ok []
  else
    match h : d.read buf with
    | .error e => .error e
    | .ok (a, rest) =>
      have : rest.length < buf.length := d.consumes h
      (d.items rest).map (a :: ·)
termination_by buf.length

/-- `Vec<T>::decode`. -/
def vec (d : ItemDecoder α) : Decoder (List α) := fun buf => do
  let ((list, payloadLength), buf) ← decodeHeader buf
  if !list then .error .unexpectedString
  else
    let items ← d.items (buf.take payloadLength)
    .ok (items, buf.drop payloadLength)

variable {d : ItemDecoder α} {encode : α → Bytes} {l : List α}

theorem items_nil : d.items [] = .ok [] := by
  rw [items, if_pos rfl]

theorem items_of_read {buf rest : Bytes} {a : α} (h : d.read buf = .ok (a, rest)) :
    d.items buf = (d.items rest).map (a :: ·) := by
  have hlt := d.consumes h
  have hne : buf ≠ [] := by
    rintro rfl
    exact absurd hlt (Nat.not_lt_zero _)
  rw [items, if_neg hne]
  grind

theorem items_flatMap (hl : ∀ a ∈ l, Decodes d.read (encode a) a) :
    d.items (l.flatMap encode) = .ok l := by
  induction l with
  | nil => exact items_nil
  | cons a l ih =>
    obtain ⟨ha, hl⟩ := List.forall_mem_cons.mp hl
    rw [List.flatMap_cons, items_of_read (ha (l.flatMap encode)), ih hl]
    rfl

/-- A sequence is read back from the list of its items. -/
theorem decodes_vec (hlen : (l.flatMap encode).length < 2 ^ 64)
    (hl : ∀ a ∈ l, Decodes d.read (encode a) a) :
    Decodes d.vec (encodeList (l.flatMap encode)) l := by
  intro rest
  rw [encodeList, vec, List.append_assoc, decodeHeader_encodeHeader hlen (by simp) (by simp)]
  show (d.items ((l.flatMap encode ++ rest).take (l.flatMap encode).length) >>= _) = _
  rw [List.take_left, items_flatMap hl]
  show Except.ok (l, (l.flatMap encode ++ rest).drop (l.flatMap encode).length) = _
  rw [List.drop_left]

end ItemDecoder

end Rust.Rlp
