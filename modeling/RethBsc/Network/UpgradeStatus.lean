import RethBsc.Network.CapPacket

/-!
# The upgrade status

`src/node/network/upgrade_status.rs`: after the status handshake two nodes tell each other whether
they want transactions.  The message is its id and a list with one extension; an extension is a list
with one Boolean, or empty.  The reader looks at the first byte of an extension without asking
whether there is one.

* `ItemReader.vec_singleton`, `ItemReader.vec_encodeList`: the lists of one item that are read.
* `UpgradeStatusExtension.decode_eq_ok_iff`: the two forms of an extension.
* `UpgradeStatus.returns_decode`: the reader never panics.
* `UpgradeStatus.decode_eq_ok_iff`, `upgradeStatus_reads`: the frames that are accepted, and what
  they mean.
-/

namespace RethBsc

open Rust Outcome

/-! ## Lists -/

/-- Reads an item of a list, and may panic at it. -/
structure ItemReader (α : Type) where
  read : Bytes → Outcome CapError (α × Bytes)
  consumes : ∀ {buf a rest}, read buf = .ok (a, rest) → rest.length < buf.length

namespace ItemReader

variable {α : Type}

/-- The items of a payload that is read to its end. -/
def items (d : ItemReader α) (buf : Bytes) : Outcome CapError (List α) :=
  if buf = [] then .ok []
  else
    match h : d.read buf with
    | .err e => .err e
    | .panic => .panic
    | .ok (a, rest) =>
      have : rest.length < buf.length := d.consumes h
      d.items rest >>= fun items => pure (a :: items)
termination_by buf.length

/-- `Vec<T>::decode`. -/
def vec (d : ItemReader α) (buf : Bytes) : Outcome CapError (List α × Bytes) := do
  let ((list, payloadLength), buf) ← BscCapPacket.ofRlp (Rlp.decodeHeader buf)
  if !list then .err (.rlp .unexpectedString)
  else
    let items ← d.items (buf.take payloadLength)
    pure (items, buf.drop payloadLength)

end ItemReader

theorem ofRlp_eq_ok {α : Type} {x : Except Rlp.Error α} {a : α} :
    BscCapPacket.ofRlp x = .ok a ↔ x = .ok a := by
  rw [BscCapPacket.ofRlp, mapErr_eq_ok, ofExcept_eq_ok]

theorem returns_ofRlp {α : Type} (x : Except Rlp.Error α) : (BscCapPacket.ofRlp x).Returns := by
  cases x with
  | ok a => exact returns_ok a
  | error e => exact returns_err _

namespace ItemReader

variable {α : Type} {d : ItemReader α} {buf rest payload : Bytes} {a : α}

theorem items_nil : d.items [] = .ok [] := by
  rw [items, if_pos rfl]

theorem items_of_ne_nil (hne : buf ≠ []) :
    d.items buf = d.read buf >>= fun r => d.items r.2 >>= fun items => pure (r.1 :: items) := by
  rw [items, if_neg hne]
  split
  · next e h => rw [h, err_bind]
  · next h => rw [h, panic_bind]
  · next a rest h =>
    dsimp only
    rw [h, ok_bind]

theorem items_eq_nil (h : d.items buf = .ok []) : buf = [] := by
  by_contra hne
  rw [items_of_ne_nil hne] at h
  obtain ⟨r, -, h⟩ := bind_eq_ok.mp h
  obtain ⟨items, -, h⟩ := bind_eq_ok.mp h
  cases h

theorem items_eq_singleton (h : d.items buf = .ok [a]) : d.read buf = .ok (a, []) := by
  have hne : buf ≠ [] := by
    rintro rfl
    rw [items_nil] at h
    cases h
  rw [items_of_ne_nil hne] at h
  obtain ⟨⟨a', rest⟩, hread, h⟩ := bind_eq_ok.mp h
  obtain ⟨items, hitems, h⟩ := bind_eq_ok.mp h
  cases h
  have hrest : rest = [] := items_eq_nil hitems
  rw [hread, hrest]

/-- A list of one item is a header and the item. -/
theorem vec_singleton (h : d.vec buf = .ok ([a], rest)) :
    ∃ payload, buf = Rlp.encodeList payload ++ rest ∧ d.read payload = .ok (a, []) := by
  obtain ⟨⟨⟨list, len⟩, buf'⟩, hheader, h⟩ := bind_eq_ok.mp h
  obtain ⟨hlist, h⟩ := err_if_eq_ok.mp h
  obtain rfl : list = true := by simpa using hlist
  obtain ⟨items, hitems, h⟩ := bind_eq_ok.mp h
  cases h
  obtain ⟨hle, ⟨rfl, -⟩ | ⟨hfalse, -⟩⟩ := Rlp.decodeHeader_eq_ok (ofRlp_eq_ok.mp hheader)
  · refine ⟨buf'.take len, ?_, items_eq_singleton hitems⟩
    rw [Rlp.encodeList, List.length_take, Nat.min_eq_left hle, List.append_assoc,
      List.take_append_drop]
  · cases hfalse

theorem vec_encodeList (hlen : payload.length < 2 ^ 64) (hread : d.read payload = .ok (a, []))
    (rest : Bytes) : d.vec (Rlp.encodeList payload ++ rest) = .ok ([a], rest) := by
  have hne : payload ≠ [] := List.ne_nil_of_length_pos (d.consumes hread)
  have hheader : Rlp.decodeHeader (Rlp.encodeList payload ++ rest)
      = .ok ((true, payload.length), payload ++ rest) := by
    rw [Rlp.encodeList, List.append_assoc]
    exact Rlp.decodeHeader_encodeHeader hlen (by simp) (by simp)
  have hitems : d.items payload = .ok [a] := by
    rw [items_of_ne_nil hne, hread, ok_bind, items_nil]
    rfl
  rw [vec, ofRlp_eq_ok.mpr hheader, ok_bind]
  simp [*]

/-- Items are read only where there are bytes. -/
theorem returns_items (hread : ∀ b buf, (d.read (b :: buf)).Returns) (buf : Bytes) :
    (d.items buf).Returns := by
  -- on the length of what is left to read
  induction hn : buf.length using Nat.strong_induction_on generalizing buf with
  | _ n ih =>
    cases buf with
    | nil =>
      rw [items_nil]
      exact returns_ok _
    | cons b buf =>
      rw [items_of_ne_nil (List.cons_ne_nil b buf)]
      refine returns_bind.mpr ⟨hread b buf, fun r hr => ?_⟩
      have hrest : (d.items r.2).Returns := ih _ (hn ▸ d.consumes hr) _ rfl
      exact returns_bind.mpr ⟨hrest, fun _ _ => returns_ok _⟩

theorem returns_vec (hread : ∀ b buf, (d.read (b :: buf)).Returns) (buf : Bytes) :
    (d.vec buf).Returns := by
  refine returns_bind.mpr ⟨returns_ofRlp _, fun header _ => ?_⟩
  obtain ⟨⟨list, len⟩, buf'⟩ := header
  dsimp only
  split
  · exact returns_err _
  · exact returns_bind.mpr ⟨returns_items hread _, fun _ _ => returns_ok _⟩

end ItemReader

/-! ## The message -/

def upgradeStatusMessageId : UInt8 := 0x0b

structure UpgradeStatusExtension where
  disablePeerTxBroadcast : Bool
  deriving DecidableEq

structure UpgradeStatus where
  extension : UpgradeStatusExtension
  deriving DecidableEq

def encodeBool (b : Bool) : Bytes := Rlp.encodeUint 1 b.toNat

def UpgradeStatusExtension.encode (e : UpgradeStatusExtension) : Bytes :=
  Rlp.encodeList (encodeBool e.disablePeerTxBroadcast)

def UpgradeStatus.encode (s : UpgradeStatus) : Bytes :=
  Rlp.encodeUint 1 upgradeStatusMessageId.toNat ++ Rlp.encodeList s.extension.encode

section Decode

/- The text of the error for a Boolean other than 0 and 1 is that of another crate. -/
variable (invalidBool : String)

def decodeBool (buf : Bytes) : Outcome CapError (Bool × Bytes) := do
  let (x, buf) ← BscCapPacket.ofRlp (Rlp.decodeUint 1 buf)
  if x = 0 then pure (false, buf)
  else if x = 1 then pure (true, buf)
  else .err (.custom invalidBool)

theorem decodeBool_eq_ok_iff {buf rest : Bytes} {b : Bool} :
    decodeBool invalidBool buf = .ok (b, rest) ↔ buf = encodeBool b ++ rest := by
  constructor
  · intro h
    obtain ⟨⟨x, buf'⟩, hx, hval⟩ := bind_eq_ok.mp h
    rw [(Rlp.decodeUint_eq_ok (ofRlp_eq_ok.mp hx)).1]
    dsimp only at hval
    split at hval
    · next hzero =>
      cases hval
      rw [hzero, encodeBool, Bool.toNat_false]
    · split at hval
      · next hone =>
        cases hval
        rw [hone, encodeBool, Bool.toNat_true]
      · cases hval
  · rintro rfl
    have hlt : b.toNat < 256 ^ 1 := (Bool.toNat_lt b).trans (by decide)
    have hread := Rlp.decodes_uint (by decide) hlt rest
    rw [decodeBool, encodeBool, ofRlp_eq_ok.mpr hread, ok_bind]
    cases b with
    | false => rfl
    | true => rfl

def boolReader : ItemReader Bool where
  read := decodeBool invalidBool
  consumes := by
    intro buf b rest h
    rw [(decodeBool_eq_ok_iff invalidBool).mp h, List.length_append]
    cases b with
    | false => exact Nat.lt_add_of_pos_left (by decide)
    | true => exact Nat.lt_add_of_pos_left (by decide)

def UpgradeStatusExtension.decode : Bytes → Outcome CapError (UpgradeStatusExtension × Bytes)
  -- `buf[0]`
  | [] => .panic
  | b :: buf =>
    if b = 0x80 then pure (⟨false⟩, buf)
    else do
      let (vals, rest) ← (boolReader invalidBool).vec (b :: buf)
      match vals with
      | [val] => pure (⟨val⟩, rest)
      | _ => .err (.custom "Invalid bool length")

namespace UpgradeStatusExtension

variable {buf rest : Bytes} {e : UpgradeStatusExtension}

theorem encode_eq (e : UpgradeStatusExtension) :
    e.encode = [0xc1, if e.disablePeerTxBroadcast then 0x01 else 0x80] := by
  obtain ⟨b⟩ := e
  cases b with
  | false => decide
  | true => decide

theorem length_encode (e : UpgradeStatusExtension) : e.encode.length = 2 := by
  rw [encode_eq]
  rfl

/-- An extension is the empty string, which means `false`, or a list of one Boolean. -/
theorem decode_eq_ok_iff :
    decode invalidBool buf = .ok (e, rest) ↔
      buf = 0x80 :: rest ∧ e = ⟨false⟩ ∨ buf = e.encode ++ rest := by
  constructor
  · intro h
    cases buf with
    | nil => cases h
    | cons b buf =>
      rw [decode] at h
      split at h
      · next hb =>
        cases h
        exact .inl ⟨by rw [hb], rfl⟩
      · obtain ⟨⟨vals, rest'⟩, hvals, h⟩ := bind_eq_ok.mp h
        dsimp only at h
        split at h
        · next val =>
          cases h
          obtain ⟨payload, hbuf, hread⟩ := ItemReader.vec_singleton hvals
          have hpayload := (decodeBool_eq_ok_iff invalidBool).mp hread
          rw [List.append_nil] at hpayload
          exact .inr (by rw [hbuf, hpayload, encode])
        · cases h
  · rintro (⟨rfl, rfl⟩ | rfl)
    · rfl
    · have hread : (boolReader invalidBool).read (encodeBool e.disablePeerTxBroadcast)
          = .ok (e.disablePeerTxBroadcast, []) :=
        (decodeBool_eq_ok_iff invalidBool).mpr (List.append_nil _).symm
      have hlen : (encodeBool e.disablePeerTxBroadcast).length < 2 ^ 64 := by
        cases e.disablePeerTxBroadcast with
        | false => decide
        | true => decide
      have hvec : (boolReader invalidBool).vec (e.encode ++ rest)
          = .ok ([e.disablePeerTxBroadcast], rest) :=
        ItemReader.vec_encodeList hlen hread rest
      rw [encode_eq, List.cons_append] at hvec ⊢
      have hne : ¬ (0xc1 : UInt8) = 0x80 := by decide
      rw [decode, if_neg hne, hvec]
      rfl

theorem returns_decode (b : UInt8) (buf : Bytes) : (decode invalidBool (b :: buf)).Returns := by
  have hbool : ∀ b buf, ((boolReader invalidBool).read (b :: buf)).Returns := by
    intro b buf
    refine returns_bind.mpr ⟨returns_ofRlp _, fun r _ => ?_⟩
    obtain ⟨x, buf'⟩ := r
    dsimp only
    split
    · exact returns_ok _
    · split
      · exact returns_ok _
      · exact returns_err _
  rw [decode]
  split
  · exact returns_ok _
  · refine returns_bind.mpr ⟨ItemReader.returns_vec hbool _, fun r _ => ?_⟩
    obtain ⟨vals, rest⟩ := r
    dsimp only
    split
    · exact returns_ok _
    · exact returns_err _

end UpgradeStatusExtension

def extensionReader : ItemReader UpgradeStatusExtension where
  read := UpgradeStatusExtension.decode invalidBool
  consumes := by
    intro buf e rest h
    obtain ⟨rfl, -⟩ | rfl := (UpgradeStatusExtension.decode_eq_ok_iff invalidBool).mp h
    · exact Nat.lt_succ_self _
    · rw [List.length_append, UpgradeStatusExtension.length_encode]
      omega

def UpgradeStatus.decode (buf : Bytes) : Outcome CapError (UpgradeStatus × Bytes) := do
  let (messageId, buf) ← BscCapPacket.ofRlp (Rlp.decodeUint 1 buf)
  if messageId != upgradeStatusMessageId.toNat then .err (.custom "Invalid message ID")
  else
    let (extension, rest) ← (extensionReader invalidBool).vec buf
    match extension with
    | [extension] => pure (⟨extension⟩, rest)
    | _ => .err (.custom "Invalid extension length")

namespace UpgradeStatus

variable {buf rest : Bytes} {s : UpgradeStatus}

theorem returns_decode (buf : Bytes) : (decode invalidBool buf).Returns := by
  refine returns_bind.mpr ⟨returns_ofRlp _, fun r _ => ?_⟩
  obtain ⟨messageId, buf'⟩ := r
  dsimp only
  split
  · exact returns_err _
  · have hvec := ItemReader.returns_vec (d := extensionReader invalidBool)
      (UpgradeStatusExtension.returns_decode invalidBool) buf'
    refine returns_bind.mpr ⟨hvec, fun r _ => ?_⟩
    obtain ⟨extension, rest⟩ := r
    dsimp only
    split
    · exact returns_ok _
    · exact returns_err _

/-- The frame of a node that sends no extension. -/
def emptyFrame : Bytes := [0x0b, 0xc1, 0x80]

theorem decode_eq_ok_iff :
    decode invalidBool buf = .ok (s, rest) ↔
      buf = s.encode ++ rest ∨ s = ⟨⟨false⟩⟩ ∧ buf = emptyFrame ++ rest := by
  have hempty : emptyFrame
      = Rlp.encodeUint 1 upgradeStatusMessageId.toNat ++ Rlp.encodeList [0x80] := by decide
  constructor
  · intro h
    obtain ⟨⟨messageId, buf'⟩, hid, hlist⟩ := bind_eq_ok.mp h
    obtain ⟨hne, hlist⟩ := err_if_eq_ok.mp hlist
    obtain rfl : messageId = upgradeStatusMessageId.toNat := by simpa using hne
    rw [(Rlp.decodeUint_eq_ok (ofRlp_eq_ok.mp hid)).1]
    obtain ⟨⟨extension, rest'⟩, hvec, hone⟩ := bind_eq_ok.mp hlist
    dsimp only at hone
    split at hone
    · next e =>
      cases hone
      obtain ⟨payload, rfl, hread⟩ := ItemReader.vec_singleton hvec
      rcases (UpgradeStatusExtension.decode_eq_ok_iff invalidBool).mp hread with ⟨rfl, rfl⟩ | rfl
      · exact .inr ⟨rfl, by rw [hempty, List.append_assoc]⟩
      · exact .inl (by rw [encode, List.append_nil, List.append_assoc])
    · cases hone
  · have hrun : ∀ payload, payload.length < 2 ^ 64 →
        UpgradeStatusExtension.decode invalidBool payload = .ok (s.extension, []) →
        decode invalidBool (Rlp.encodeUint 1 upgradeStatusMessageId.toNat
          ++ Rlp.encodeList payload ++ rest) = .ok (s, rest) := by
      intro payload hlen hread
      have hid := Rlp.decodes_uint (n := 1) (by decide)
        (by decide : upgradeStatusMessageId.toNat < 256 ^ 1) (Rlp.encodeList payload ++ rest)
      have hvec := ItemReader.vec_encodeList (d := extensionReader invalidBool) hlen hread rest
      rw [decode, List.append_assoc, ofRlp_eq_ok.mpr hid, ok_bind]
      simp only [bne_self_eq_false, Bool.false_eq_true, if_false, hvec, ok_bind, pure_eq]
    rintro (rfl | ⟨rfl, rfl⟩)
    · refine hrun s.extension.encode ?_ ?_
      · rw [UpgradeStatusExtension.length_encode]
        decide
      · exact (UpgradeStatusExtension.decode_eq_ok_iff invalidBool).mpr
          (.inr (List.append_nil _).symm)
    · rw [hempty]
      refine hrun [0x80] (by decide) ?_
      exact (UpgradeStatusExtension.decode_eq_ok_iff invalidBool).mpr (.inl ⟨rfl, rfl⟩)

end UpgradeStatus

/-- The reader returns on every input, and accepts the frames the program writes and that of a node
without an extension, each with anything after it. -/
theorem upgradeStatus_reads (buf : Bytes) :
    (UpgradeStatus.decode invalidBool buf).Returns ∧
      ∀ s rest, UpgradeStatus.decode invalidBool buf = .ok (s, rest) ↔ buf = s.encode ++ rest ∨
          s.extension.disablePeerTxBroadcast = false ∧ buf = [0x0b, 0xc1, 0x80] ++ rest := by
  refine ⟨UpgradeStatus.returns_decode invalidBool buf, fun s rest => ?_⟩
  obtain ⟨⟨b⟩⟩ := s
  rw [UpgradeStatus.decode_eq_ok_iff, UpgradeStatus.mk.injEq, UpgradeStatusExtension.mk.injEq]
  rfl

end Decode

example : (⟨⟨true⟩⟩ : UpgradeStatus).encode = [0x0b, 0xc2, 0xc1, 0x01] := by decide

example : (⟨⟨false⟩⟩ : UpgradeStatus).encode = [0x0b, 0xc2, 0xc1, 0x80] := by decide

end RethBsc
