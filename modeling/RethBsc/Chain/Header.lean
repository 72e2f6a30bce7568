import RethBsc.Rust.Bytes

/-!
# Block headers

The header type of `alloy_consensus`, with the two functions of `src/consensus/parlia/util.rs`
that read and write a block time in milliseconds.

BSC keeps the milliseconds of a block time in the last 8 bytes of `mix_hash`.  Nothing in
`calculateMillisecondTimestamp` keeps them below a second, and the sum wraps.
`le_of_calculateMillisecondTimestamp_lt` says when the order of two such sums is the order of
the seconds.
-/

namespace RethBsc

open Rust

abbrev Address := FixedBytes 20
abbrev B256 := FixedBytes 32

/-- Looking a hash up in a list is deciding membership. -/
instance : LawfulBEq B256 := inferInstance

/-- `alloy_consensus::Header`; a `U256` is a natural number. -/
structure Header where
  parentHash : B256
  ommersHash : B256
  beneficiary : Address
  stateRoot : B256
  transactionsRoot : B256
  receiptsRoot : B256
  logsBloom : FixedBytes 256
  difficulty : Nat
  number : UInt64
  gasLimit : UInt64
  gasUsed : UInt64
  timestamp : UInt64
  extraData : Bytes
  mixHash : B256
  nonce : FixedBytes 8
  baseFeePerGas : Option UInt64
  withdrawalsRoot : Option B256
  blobGasUsed : Option UInt64
  excessBlobGas : Option UInt64
  parentBeaconBlockRoot : Option B256
  requestsHash : Option B256
  deriving DecidableEq, Inhabited

/-- `u64::is_multiple_of`, which holds of `0` alone when the divisor is `0`. -/
def isMultipleOf (n d : UInt64) : Bool := n % d == 0

theorem isMultipleOf_iff {n d : UInt64} : isMultipleOf n d = true ↔ n.toNat % d.toNat = 0 := by
  rw [isMultipleOf, beq_iff_eq, ← UInt64.toNat_inj, UInt64.toNat_mod]
  rfl

/-! ## Block times in milliseconds -/

/-- The last 8 bytes of `mix_hash`, big-endian. -/
def Header.millisecondPart (h : Header) : UInt64 :=
  if h.mixHash ≠ .zero then fromBeBytes ((h.mixHash.val.drop 24).take 8) else 0

def calculateMillisecondTimestamp (h : Header) : UInt64 :=
  h.timestamp * 1000 + h.millisecondPart

/-- 32 bytes that end in the 8 bytes of `x`. -/
def b256OfUInt64 (x : UInt64) : B256 := ⟨List.replicate 24 0 ++ toBeBytes x, by simp⟩

def setMillisecondPartOfTimestamp (timestampMs : UInt64) (h : Header) : Header :=
  { h with mixHash := b256OfUInt64 (timestampMs % 1000) }

/-- The block time fits in a `u64`. -/
def Header.NoWrap (h : Header) : Prop :=
  h.timestamp.toNat * 1000 + h.millisecondPart.toNat < 2 ^ 64

instance (h : Header) : Decidable h.NoWrap := by unfold Header.NoWrap; infer_instance

theorem toNat_calculateMillisecondTimestamp (h : Header) :
    (calculateMillisecondTimestamp h).toNat
      = (h.timestamp.toNat * 1000 + h.millisecondPart.toNat) % 2 ^ 64 := by
  rw [calculateMillisecondTimestamp, UInt64.toNat_add, UInt64.toNat_mul, show (1000 : UInt64).toNat = 1000 from rfl]
  omega

/-- A later block time has later seconds when the later block keeps its milliseconds below a
second and the earlier block time did not wrap.  The milliseconds of the earlier block, and a
wrap of the later one, do no harm. -/
theorem le_of_calculateMillisecondTimestamp_lt {parent header : Header} (hwrap : parent.NoWrap)
    (hms : header.millisecondPart.toNat < 1000)
    (hlt : calculateMillisecondTimestamp parent < calculateMillisecondTimestamp header) :
    parent.timestamp ≤ header.timestamp := by
  have hlt' := UInt64.lt_iff_toNat_lt.mp hlt
  rw [toNat_calculateMillisecondTimestamp, toNat_calculateMillisecondTimestamp,
    Nat.mod_eq_of_lt hwrap] at hlt'
  have hle : (header.timestamp.toNat * 1000 + header.millisecondPart.toNat) % 2 ^ 64
      ≤ header.timestamp.toNat * 1000 + header.millisecondPart.toNat := Nat.mod_le _ _
  rw [UInt64.le_iff_toNat_le]
  omega

/-- A stand-in for the header hash that tells headers of different heights apart. -/
def numberHash (h : Header) : B256 := b256OfUInt64 h.number

end RethBsc
