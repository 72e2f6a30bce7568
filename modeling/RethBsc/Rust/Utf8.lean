import RethBsc.Rust.Bytes

/-!
# UTF-8

The bytes of Rust strings.  Characters are Lean's, which are the same Unicode scalar values, and
`String.utf8EncodeChar` encodes them.

* `Utf8Char`: the well-formed sequences of one character, by their ranges of bytes.
* `utf8Char_utf8EncodeChar`: every character is encoded as one of them.
* `IsUtf8`: the bytes of a string.
-/

namespace Rust

/-- A continuation byte. -/
structure Utf8Tail (b : UInt8) : Prop where
  low : 0x80 ≤ b.toNat
  high : b.toNat ≤ 0xBF

/-- The sequences of one character.  Among those of three and four bytes, the range of the second
byte leaves out what has a shorter encoding, surrogates and numbers above `0x10FFFF`. -/
inductive Utf8Char : Bytes → Prop where
  | one {a : UInt8} : a.toNat ≤ 0x7F → Utf8Char [a]
  | two {a b : UInt8} : 0xC2 ≤ a.toNat → a.toNat ≤ 0xDF → Utf8Tail b → Utf8Char [a, b]
  | three {a b c : UInt8} : 0xE0 ≤ a.toNat → a.toNat ≤ 0xEF → Utf8Tail b → Utf8Tail c →
      (a.toNat = 0xE0 → 0xA0 ≤ b.toNat) → (a.toNat = 0xED → b.toNat ≤ 0x9F) → Utf8Char [a, b, c]
  | four {a b c d : UInt8} : 0xF0 ≤ a.toNat → a.toNat ≤ 0xF4 → Utf8Tail b → Utf8Tail c →
      Utf8Tail d → (a.toNat = 0xF0 → 0x90 ≤ b.toNat) → (a.toNat = 0xF4 → b.toNat ≤ 0x8F) →
      Utf8Char [a, b, c, d]

theorem utf8Tail_ofNat (n : Nat) : Utf8Tail (UInt8.ofNat (n % 64 + 128)) := by
  refine ⟨?_, ?_⟩ <;> rw [UInt8.toNat_ofNat_of_lt' (show _ < 256 by omega)]
  · exact Nat.le_add_left _ _
  · omega

/-- A character has one to four bytes, by the size of its number. -/
theorem utf8Char_utf8EncodeChar (ch : Char) : Utf8Char (String.utf8EncodeChar ch) := by
  have hvalid : ch.val.toNat < 0xD800 ∨ 0xDFFF < ch.val.toNat ∧ ch.val.toNat < 0x110000 := ch.valid
  unfold String.utf8EncodeChar
  generalize ch.val.toNat = v at hvalid ⊢
  dsimp only
  split
  · refine .one ?_
    rw [UInt8.toNat_ofNat_of_lt' (show _ < 256 by omega)]
    omega
  split
  · refine .two ?_ ?_ (utf8Tail_ofNat v) <;>
      rw [UInt8.toNat_ofNat_of_lt' (show _ < 256 by omega)] <;> omega
  split
  · have hlead : (UInt8.ofNat (v / 4096 % 16 + 224)).toNat = v / 4096 + 224 := by
      rw [UInt8.toNat_ofNat_of_lt' (show _ < 256 by omega)]
      omega
    have hsecond : (UInt8.ofNat (v / 64 % 64 + 128)).toNat = v / 64 % 64 + 128 :=
      UInt8.toNat_ofNat_of_lt' (show _ < 256 by omega)
    refine .three ?_ ?_ (utf8Tail_ofNat _) (utf8Tail_ofNat v) ?_ ?_ <;> rw [hlead] <;> omega
  · have hlead : (UInt8.ofNat (v / 262144 % 8 + 240)).toNat = v / 262144 + 240 := by
      rw [UInt8.toNat_ofNat_of_lt' (show _ < 256 by omega)]
      omega
    have hsecond : (UInt8.ofNat (v / 4096 % 64 + 128)).toNat = v / 4096 % 64 + 128 :=
      UInt8.toNat_ofNat_of_lt' (show _ < 256 by omega)
    refine .four ?_ ?_ (utf8Tail_ofNat _) (utf8Tail_ofNat _) (utf8Tail_ofNat v) ?_ ?_ <;>
      rw [hlead] <;> omega

/-- The bytes of a string. -/
def IsUtf8 (bs : Bytes) : Prop := ∃ chars : List Char, bs = chars.flatMap String.utf8EncodeChar

theorem IsUtf8.append {bs bs' : Bytes} (h : IsUtf8 bs) (h' : IsUtf8 bs') : IsUtf8 (bs ++ bs') := by
  obtain ⟨chars, rfl⟩ := h
  obtain ⟨chars', rfl⟩ := h'
  exact ⟨chars ++ chars', List.flatMap_append.symm⟩

theorem isUtf8_replicate_zero (n : Nat) : IsUtf8 (List.replicate n 0) := by
  refine ⟨List.replicate n (Char.ofNat 0), ?_⟩
  induction n with
  | zero => rfl
  | succ n ih => rw [List.replicate_succ, List.replicate_succ, List.flatMap_cons, ← ih]; rfl

end Rust
