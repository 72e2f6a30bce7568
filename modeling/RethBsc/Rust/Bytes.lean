import Mathlib.Algebra.GroupWithZero.Nat
import Mathlib.Data.List.Induction
import Mathlib.Data.List.Lex
import RethBsc.Rust.Outcome

/-!
# Byte strings, slices and fixed-width integers

The part of Rust's primitive types that byte-level code relies on.

* `FixedBytes n` is `[u8; n]` with the lexicographic order arrays have; the length is part of
  the value, so a byte string of another length cannot stand in for one.
* `slice`, `sliceFrom` and `copyFromSlice` panic exactly when the Rust operations do: a range
  outside the buffer, or source and destination of different lengths.  `copyFromSlice_append` and
  `slice_append` are their rules for a cursor.
* `fromBeSlice` / `toBeBytes` are the big-endian conversions of `u64`.
-/

namespace Rust

abbrev Bytes := List UInt8

/-! ## Fixed-width byte arrays -/

/-- `[u8; n]`. -/
@[ext]
structure FixedBytes (n : Nat) where
  val : Bytes
  length_val : val.length = n
  deriving DecidableEq

namespace FixedBytes

variable {n : Nat}

attribute [simp] length_val

instance : Repr (FixedBytes n) := ⟨fun a k => reprPrec a.val k⟩

/-- All bytes equal to `b`. -/
def repeatByte (n : Nat) (b : UInt8) : FixedBytes n := ⟨List.replicate n b, by simp⟩

/-- The all-zero array, also the `Default` value. -/
def zero : FixedBytes n := repeatByte n 0

instance : Inhabited (FixedBytes n) := ⟨zero⟩

/-- The `Display` form of the array. -/
def toHex (a : FixedBytes n) : String :=
  "0x" ++ String.ofList (a.val.flatMap fun b =>
    [Nat.digitChar (b.toNat / 16), Nat.digitChar (b.toNat % 16)])

/-- The byte values, which arrays are compared by. -/
def digits (a : FixedBytes n) : List Nat := a.val.map UInt8.toNat

theorem digits_injective : Function.Injective (digits (n := n)) := by
  intro a b h
  exact FixedBytes.ext (List.map_injective_iff.mpr (fun _ _ hxy => UInt8.toNat_inj.mp hxy) h)

instance : LinearOrder (FixedBytes n) := LinearOrder.lift' digits digits_injective

end FixedBytes

/-! ## Slices -/

section Slices

variable {ε α : Type}

/-- `xs[lo..hi]`. -/
def slice (xs : List α) (lo hi : Nat) : Outcome ε (List α) :=
  if lo ≤ hi ∧ hi ≤ xs.length then .ok ((xs.take hi).drop lo) else .panic

/-- `xs[lo..]`. -/
def sliceFrom (xs : List α) (lo : Nat) : Outcome ε (List α) :=
  if lo ≤ xs.length then .ok (xs.drop lo) else .panic

/-- `out[lo..hi].copy_from_slice(src)`, returning the written buffer. -/
def copyFromSlice (out : List α) (lo hi : Nat) (src : List α) : Outcome ε (List α) :=
  if lo ≤ hi ∧ hi ≤ out.length ∧ src.length = hi - lo then
    .ok (out.take lo ++ src ++ out.drop hi)
  else .panic

variable {hi lo w : Nat} {xs src done rest : List α} {f : ι → List α} {l : List ι} {ι : Type}

theorem slice_of_le (h : lo ≤ hi) (hlen : hi ≤ xs.length) :
    (slice xs lo hi : Outcome ε (List α)) = .ok ((xs.take hi).drop lo) :=
  if_pos ⟨h, hlen⟩

theorem sliceFrom_of_le (h : lo ≤ xs.length) :
    (sliceFrom xs lo : Outcome ε (List α)) = .ok (xs.drop lo) :=
  if_pos h

theorem length_take_drop (hlen : hi ≤ xs.length) :
    ((xs.take hi).drop lo).length = hi - lo := by
  rw [List.length_drop, List.length_take]; omega

theorem copyFromSlice_of_le {out : List α} (h : lo ≤ hi)
    (hlen : hi ≤ out.length) (hsrc : src.length = hi - lo) :
    (copyFromSlice out lo hi src : Outcome ε (List α)) = .ok (out.take lo ++ src ++ out.drop hi) :=
  if_pos ⟨h, hlen, hsrc⟩

/-- **Writing at a cursor.** With `done` already written and `rest` still to write, copying
`src` at the cursor advances it past `src`. -/
theorem copyFromSlice_append
    (hlo : lo = done.length) (hhi : hi = lo + src.length) (hfit : src.length ≤ rest.length) :
    (copyFromSlice (done ++ rest) lo hi src : Outcome ε (List α))
      = .ok ((done ++ src) ++ rest.drop src.length) := by
  subst hlo hhi
  rw [copyFromSlice_of_le (by omega) (by rw [List.length_append]; omega) (by omega)]
  rw [List.take_left, List.drop_append, List.drop_eq_nil_of_le (by omega), List.nil_append,
    Nat.add_sub_cancel_left]

/-- Writing at the start of a buffer. -/
theorem copyFromSlice_zero (hhi : hi = src.length) (hfit : src.length ≤ rest.length) :
    (copyFromSlice rest 0 hi src : Outcome ε (List α)) = .ok (src ++ rest.drop src.length) :=
  copyFromSlice_append (show 0 = ([] : List α).length from rfl) (by omega) hfit

/-- A copy between lengths that differ panics, wherever the cursor stands. -/
theorem copyFromSlice_of_length_ne {out : List α} (h : src.length ≠ hi - lo) :
    (copyFromSlice out lo hi src : Outcome ε (List α)) = .panic :=
  if_neg (fun hc => h hc.2.2)

/-- A concatenation of parts of one width, cut between two parts. -/
theorem drop_flatMap_of_length (hf : ∀ x ∈ l, (f x).length = w) (i : Nat) :
    (l.flatMap f).drop (i * w) = (l.drop i).flatMap f := by
  induction i generalizing l with
  | zero => simp
  | succ i ih =>
    cases l with
    | nil => simp
    | cons x l =>
      have hx := hf x List.mem_cons_self
      rw [List.flatMap_cons, Nat.succ_mul, Nat.add_comm, List.drop_append,
        List.drop_eq_nil_of_le (by omega), List.nil_append, hx, Nat.add_sub_cancel_left,
        ih fun y hy => hf y (List.mem_cons_of_mem _ hy), List.drop_succ_cons]

theorem length_flatMap_of_length
    (hf : ∀ x ∈ l, (f x).length = w) : (l.flatMap f).length = l.length * w := by
  induction l with
  | nil => simp
  | cons x l ih => grind

/-- **Reading at a cursor.** What was written behind `done` is read back. -/
theorem slice_append (hlo : lo = done.length) (hhi : hi = lo + src.length) :
    (slice (done ++ (src ++ rest)) lo hi : Outcome ε (List α)) = .ok src := by
  subst hlo hhi
  rw [slice_of_le (Nat.le_add_right _ _) (by simp only [List.length_append]; omega),
    List.drop_take, List.drop_left, Nat.add_sub_cancel_left, List.take_left]

theorem sliceFrom_append (hlo : lo = done.length) :
    (sliceFrom (done ++ rest) lo : Outcome ε (List α)) = .ok rest := by
  subst hlo
  rw [sliceFrom_of_le (by rw [List.length_append]; omega), List.drop_left]

/-- One part of a concatenation of parts of one width. -/
theorem slice_flatMap_of_length (hf : ∀ x ∈ l, (f x).length = w) {i : Nat} (hi : i < l.length) :
    (slice (l.flatMap f) (i * w) ((i + 1) * w) : Outcome ε (List α)) = .ok (f l[i]) := by
  have hfits : (i + 1) * w ≤ (l.flatMap f).length := by
    rw [length_flatMap_of_length hf]
    exact Nat.mul_le_mul_right _ hi
  rw [slice_of_le (Nat.mul_le_mul_right _ (Nat.le_succ i)) hfits, List.drop_take,
    drop_flatMap_of_length hf, List.drop_eq_getElem_cons hi, List.flatMap_cons,
    List.take_left' (by rw [hf _ (List.getElem_mem hi), Nat.succ_mul, Nat.add_sub_cancel_left])]

end Slices

/-! ## `u64` -/

/-- `u64::checked_add`. -/
def checkedAdd (a b : UInt64) : Option UInt64 :=
  if a.toNat + b.toNat < 2 ^ 64 then some (a + b) else none

theorem checkedAdd_eq_some {a b c : UInt64} (h : checkedAdd a b = some c) :
    c.toNat = a.toNat + b.toNat := by
  unfold checkedAdd at h
  split at h
  · next hlt =>
    rw [Option.some.injEq] at h
    rw [← h, UInt64.toNat_add, Nat.mod_eq_of_lt hlt]
  · simp at h

/-- `u64::saturating_add`. -/
def saturatingAdd (a b : UInt64) : UInt64 := (checkedAdd a b).getD 0xffffffffffffffff

/-- `u64::saturating_sub`. -/
def saturatingSub (a b : UInt64) : UInt64 := if a < b then 0 else a - b

theorem toNat_saturatingSub (a b : UInt64) :
    (saturatingSub a b).toNat = a.toNat - b.toNat := by
  unfold saturatingSub
  split
  · next hlt =>
    have hlt' := UInt64.lt_iff_toNat_lt.mp hlt
    show 0 = a.toNat - b.toNat
    omega
  · next hlt => exact UInt64.toNat_sub_of_le _ _ (UInt64.not_lt.mp hlt)

/-- `u64::from_be_bytes` on the bytes given. -/
def fromBeBytes (bs : Bytes) : UInt64 :=
  bs.foldl (fun acc b => (acc <<< 8) ||| b.toUInt64) 0

/-- `u64::from_be_bytes(bs.try_into().unwrap())`. -/
def fromBeSlice {ε : Type} (bs : Bytes) : Outcome ε UInt64 :=
  if bs.length = 8 then .ok (fromBeBytes bs) else .panic

theorem fromBeSlice_of_length {ε : Type} {bs : Bytes} (h : bs.length = 8) :
    (fromBeSlice bs : Outcome ε UInt64) = .ok (fromBeBytes bs) :=
  if_pos h

/-- `u64::to_be_bytes`. -/
def toBeBytes (x : UInt64) : Bytes :=
  [(x >>> 56).toUInt8, (x >>> 48).toUInt8, (x >>> 40).toUInt8, (x >>> 32).toUInt8,
   (x >>> 24).toUInt8, (x >>> 16).toUInt8, (x >>> 8).toUInt8, x.toUInt8]

@[simp] theorem length_toBeBytes (x : UInt64) : (toBeBytes x).length = 8 := rfl

/-! ## Natural numbers as bytes -/

/-- `from_be_bytes` of a wide integer. -/
def natOfBeBytes (bs : Bytes) : Nat := bs.foldl (fun acc b => acc * 256 + b.toNat) 0

/-- `to_be_bytes` of a wide integer: the last `n` bytes of `x`. -/
def natToBeBytes : Nat → Nat → Bytes
  | 0, _ => []
  | n + 1, x => natToBeBytes n (x / 256) ++ [UInt8.ofNat x]

@[simp] theorem length_natToBeBytes (n x : Nat) : (natToBeBytes n x).length = n := by
  induction n generalizing x with
  | zero => rfl
  | succ n ih => rw [natToBeBytes, List.length_append, ih, List.length_singleton]

theorem natOfBeBytes_natToBeBytes (n x : Nat) :
    natOfBeBytes (natToBeBytes n x) = x % 256 ^ n := by
  induction n generalizing x with
  | zero => simp [natToBeBytes, natOfBeBytes, Nat.mod_one]
  | succ n ih =>
    have hinit : natOfBeBytes (natToBeBytes n (x / 256)) = x / 256 % 256 ^ n := ih (x / 256)
    rw [natToBeBytes, natOfBeBytes, List.foldl_append]
    rw [natOfBeBytes] at hinit
    rw [hinit, List.foldl_cons, List.foldl_nil, UInt8.toNat_ofNat',
      show 256 ^ (n + 1) = 256 * 256 ^ n from Nat.pow_succ', Nat.mod_mul]
    omega

/-- The bytes of a `u64` are the last eight of the number. -/
theorem toBeBytes_eq_natToBeBytes (x : UInt64) : toBeBytes x = natToBeBytes 8 x.toNat := by
  have hbyte : ∀ k : UInt64, k.toNat < 64 →
      (x >>> k).toUInt8 = UInt8.ofNat (x.toNat / 2 ^ k.toNat) := by
    intro k hk
    rw [← UInt8.toNat_inj, UInt64.toNat_toUInt8, UInt64.toNat_shiftRight, UInt8.toNat_ofNat',
      Nat.mod_eq_of_lt hk, Nat.shiftRight_eq_div_pow]
  simp_all [toBeBytes, natToBeBytes, Nat.div_div_eq_div_mul, List.nil_append, List.cons_append]

theorem natOfBeBytes_toBeBytes (x : UInt64) : natOfBeBytes (toBeBytes x) = x.toNat := by
  rw [toBeBytes_eq_natToBeBytes, natOfBeBytes_natToBeBytes]
  exact Nat.mod_eq_of_lt x.toNat_lt

theorem toBeBytes_injective : Function.Injective toBeBytes := by
  intro x y h
  rw [← UInt64.toNat_inj, ← natOfBeBytes_toBeBytes x, h, natOfBeBytes_toBeBytes]

theorem foldl_natOfBeBytes (acc : Nat) (bs : Bytes) :
    bs.foldl (fun acc b => acc * 256 + b.toNat) acc = acc * 256 ^ bs.length + natOfBeBytes bs := by
  induction bs generalizing acc with
  | nil => simp [natOfBeBytes]
  | cons b bs ih =>
    rw [natOfBeBytes, List.foldl_cons, List.foldl_cons, ih, ih (0 * 256 + b.toNat), List.length_cons,
      Nat.pow_succ', Nat.zero_mul, Nat.zero_add, Nat.add_mul, Nat.mul_assoc, Nat.add_assoc]

theorem natOfBeBytes_cons (b : UInt8) (bs : Bytes) :
    natOfBeBytes (b :: bs) = b.toNat * 256 ^ bs.length + natOfBeBytes bs := by
  rw [natOfBeBytes, List.foldl_cons, foldl_natOfBeBytes, Nat.zero_mul, Nat.zero_add]

theorem natOfBeBytes_lt (bs : Bytes) : natOfBeBytes bs < 256 ^ bs.length := by
  induction bs with
  | nil => decide
  | cons b bs ih =>
    have hb : b.toNat ≤ 255 := Nat.le_of_lt_succ b.toNat_lt
    have hmul : b.toNat * 256 ^ bs.length ≤ 255 * 256 ^ bs.length := Nat.mul_le_mul_right _ hb
    rw [natOfBeBytes_cons, List.length_cons, Nat.pow_succ]
    omega

/-- Every byte string is the number that it stands for, with its length. -/
theorem natToBeBytes_natOfBeBytes (bs : Bytes) : natToBeBytes bs.length (natOfBeBytes bs) = bs := by
  induction bs using List.reverseRecOn with
  | nil => rfl
  | append_singleton bs b ih =>
    have hvalue : natOfBeBytes (bs ++ [b]) = natOfBeBytes bs * 256 + b.toNat := by
      rw [natOfBeBytes, List.foldl_append]
      rfl
    have hlast : UInt8.ofNat (natOfBeBytes bs * 256 + b.toNat) = b := by
      rw [← UInt8.toNat_inj, UInt8.toNat_ofNat', Nat.mul_add_mod_of_lt b.toNat_lt]
    have hinit : (natOfBeBytes bs * 256 + b.toNat) / 256 = natOfBeBytes bs := by
      have := b.toNat_lt
      omega
    rw [List.length_append, List.length_singleton, natToBeBytes, hvalue, hlast, hinit, ih]

/-- More bytes than a number needs start with zeros. -/
theorem natToBeBytes_add {n x : Nat} (h : x < 256 ^ n) (k : Nat) :
    natToBeBytes (n + k) x = List.replicate k 0 ++ natToBeBytes n x := by
  induction n generalizing x with
  | zero =>
    obtain rfl : x = 0 := by simpa using h
    rw [natToBeBytes, List.append_nil, Nat.zero_add]
    induction k with
    | zero => rfl
    | succ k ih => rw [natToBeBytes, Nat.zero_div, ih, List.replicate_succ']; rfl
  | succ n ih =>
    have hdiv : x / 256 < 256 ^ n := by
      rw [Nat.pow_succ] at h
      omega
    rw [show n + 1 + k = n + k + 1 by omega, natToBeBytes, natToBeBytes, ih hdiv, List.append_assoc]

/-- Leading zero bytes do not change the value. -/
theorem natOfBeBytes_replicate_zero_append (n : Nat) (bs : Bytes) :
    natOfBeBytes (List.replicate n 0 ++ bs) = natOfBeBytes bs := by
  induction n with
  | zero => rfl
  | succ n ih => rwa [List.replicate_succ, List.cons_append, natOfBeBytes, List.foldl_cons]

/-- One byte more of a `u64`; the topmost byte drops out. -/
theorem toNat_shiftLeft_or (x : UInt64) (b : UInt8) :
    ((x <<< 8) ||| b.toUInt64).toNat = (x.toNat * 256 + b.toNat) % 2 ^ 64 := by
  have hb := b.toNat_lt
  have hshift : (x <<< 8).toNat = (x.toNat % 2 ^ 56) <<< 8 := by
    simp
    omega
  rw [UInt64.toNat_or, hshift, UInt8.toNat_toUInt64, ← Nat.shiftLeft_add_eq_or_of_lt hb,
    Nat.shiftLeft_eq]
  omega

theorem toNat_fromBeBytes (bs : Bytes) : (fromBeBytes bs).toNat = natOfBeBytes bs % 2 ^ 64 := by
  have hfold : ∀ (acc : UInt64) (n : Nat), acc.toNat = n % 2 ^ 64 →
      (bs.foldl (fun (acc : UInt64) b => (acc <<< 8) ||| b.toUInt64) acc).toNat
        = bs.foldl (fun acc b => acc * 256 + b.toNat) n % 2 ^ 64 := by
    induction bs with
    | nil => exact fun acc n h => h
    | cons b bs ih =>
      intro acc n h
      refine ih _ _ ?_
      show _ = (n * 256 + b.toNat) % 2 ^ 64
      rw [toNat_shiftLeft_or, h]
      omega
  exact hfold 0 0 rfl

theorem fromBeBytes_toBeBytes (x : UInt64) : fromBeBytes (toBeBytes x) = x := by
  rw [← UInt64.toNat_inj, toNat_fromBeBytes, natOfBeBytes_toBeBytes]
  exact Nat.mod_eq_of_lt x.toNat_lt

end Rust
