import RethBsc.Chain.Header

/-!
# The text of an address

`Address::to_string` writes the bytes in hexadecimal digits.  The case of a letter is a digit of
the checksum: a letter is upper case where the hash of the lower case text has a digit of at
least 8.

* `digitValue_checksumDigit`: the case does not change the value of a digit.
* `toChecksum_injective`: different addresses have different texts, whatever the hash is.
-/

namespace RethBsc

open Rust

namespace Address

def nibbles (bytes : Bytes) : List Nat := bytes.flatMap fun b => [b.toNat / 16, b.toNat % 16]

def hexDigits (bytes : Bytes) : List Char := (nibbles bytes).map Nat.digitChar

/-- Digit `i` of a hash. -/
def hashNibble (hash : B256) (i : Nat) : Nat := (nibbles hash.val).getD i 0

def checksumDigit (hash : B256) (c : Char) (i : Nat) : Char :=
  if 'a' ≤ c ∧ 8 ≤ hashNibble hash i then c.toUpper else c

def toChecksum (keccak256 : Bytes → B256) (a : Address) : String :=
  let digits := hexDigits a.val
  let hash := keccak256 (digits.map fun c => UInt8.ofNat c.toNat)
  String.ofList ('0' :: 'x' :: digits.zipIdx.map fun ci => checksumDigit hash ci.1 ci.2)

/-! ## Texts differ -/

def digitValue (c : Char) : Nat :=
  if c ≤ '9' then c.toNat - 48 else c.toLower.toNat - 87

theorem digitValue_digitChar (n : Fin 16) :
    digitValue n.val.digitChar = n.val ∧ digitValue n.val.digitChar.toUpper = n.val := by
  revert n
  decide

theorem digitValue_checksumDigit (hash : B256) {n : Nat} (hn : n < 16) (i : Nat) :
    digitValue (checksumDigit hash n.digitChar i) = n := by
  obtain ⟨hlower, hupper⟩ := digitValue_digitChar ⟨n, hn⟩
  unfold checksumDigit
  split
  · exact hupper
  · exact hlower

theorem nibble_lt {bytes : Bytes} {n : Nat} (hn : n ∈ nibbles bytes) : n < 16 := by
  obtain ⟨b, -, hb⟩ := List.mem_flatMap.mp hn
  have hlt := b.toNat_lt
  rcases List.mem_pair.mp hb with rfl | rfl
  · omega
  · omega

theorem nibbles_injective : Function.Injective nibbles := by
  intro bytes
  induction bytes with
  | nil =>
    rintro (_ | ⟨b, bytes'⟩) h
    · rfl
    · exact absurd h (by simp [nibbles])
  | cons a bytes ih =>
    rintro (_ | ⟨b, bytes'⟩) h
    · exact absurd h (by simp [nibbles])
    · unfold nibbles at h
      rw [List.flatMap_cons, List.flatMap_cons] at h
      obtain ⟨hhigh, h⟩ := List.cons.inj h
      obtain ⟨hlow, h⟩ := List.cons.inj h
      rw [ih h, UInt8.toNat_inj.mp (by omega : a.toNat = b.toNat)]

/-- The digits can be read back. -/
theorem digitValues_checksum (hash : B256) (bytes : Bytes) :
    ((hexDigits bytes).zipIdx.map fun ci => checksumDigit hash ci.1 ci.2).map digitValue
      = nibbles bytes := by
  rw [hexDigits, List.map_map]
  refine List.ext_getElem (by simp) fun i hi hi' => ?_
  have hlt : (nibbles bytes)[i] < 16 := nibble_lt (List.getElem_mem hi')
  simp only [List.getElem_map, List.getElem_zipIdx, Function.comp_apply]
  exact digitValue_checksumDigit hash hlt _

theorem toChecksum_injective (keccak256 : Bytes → B256) :
    Function.Injective (toChecksum keccak256) := by
  intro a b h
  have hdigits := (List.cons.inj (List.cons.inj (String.ofList_injective h)).2).2
  have hnibbles := congrArg (List.map digitValue) hdigits
  rw [digitValues_checksum, digitValues_checksum] at hnibbles
  exact FixedBytes.ext (nibbles_injective hnibbles)

/-- An address of letters and digits, under a hash that asks for upper case. -/
example : toChecksum (fun _ => .repeatByte 32 0xf0) (.repeatByte 20 0xa9)
    = "0xA9A9A9A9A9A9A9A9A9A9A9A9A9A9A9A9A9A9A9A9" := by decide

end Address

end RethBsc
