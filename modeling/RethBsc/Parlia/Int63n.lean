import Mathlib.Data.Nat.Find
import Mathlib.Data.Nat.Prime.Basic
import RethBsc.Parlia.RngStream
import RethBsc.Parlia.Shuffle

/-!
# Bounded draws of 63 bits

`RngSource::int63n` of `src/consensus/parlia/go_rng.rs` next to Go's `Int63n`, which takes the first
draw up to `2^63 - 1 - 2^63 % n` and reduces it modulo `n`.

* `exists_goInt63n`: Go's function returns in every state, as no stream stays above its bound.
* `conforms_of_pow`: for a power of two the two agree.
* `int63n_diverges`: for any other bound `(1_i64 << 63) % n` is a negative number.  Taking it away
  from `i64::MAX` wraps, all draws are above the result, and the loop does not end.
-/

namespace RethBsc.GoRng.RngSource

open Rust

variable (rng : RngSource) (n : Int64)

/-- Draw `k` of `int63`. -/
def draw (k : Nat) : Int64 := (rng.after k).int63.1

/-! ## Go's function -/

/-- The largest draw that does not favour the small remainders. -/
def goMax : Int := 2 ^ 63 - 1 - 2 ^ 63 % n.toInt

/-- `Int63n(n)` of Go returns `j` and leaves the generator in `rng'`. -/
def GoInt63n (j : Int64) (rng' : RngSource) : Prop :=
  ∃ k, (∀ i < k, goMax n < (rng.draw i).toInt) ∧ (rng.draw k).toInt ≤ goMax n ∧
    j.toInt = (rng.draw k).toInt % n.toInt ∧ rng' = rng.after (k + 1)

/-- `int63n(n)` returns exactly when Go's function does, with the same number. -/
def Int63nConforms : Prop :=
  ∀ j rng', (∃ fuel, rng.int63n fuel n = .ok (j, rng')) ↔ rng.GoInt63n n j rng'

theorem toInt_draw (k : Nat) : (rng.draw k).toInt = ((rng.output k).toNat % 2 ^ 63 : Nat) :=
  toInt_int63

theorem draw_nonneg (k : Nat) : 0 ≤ (rng.draw k).toInt := int63_nonneg

/-- The draws come down to half of the range, however the generator was seeded. -/
theorem exists_draw_le {max : Int} (hmax : 2 ^ 62 ≤ max) : ∃ k, (rng.draw k).toInt ≤ max := by
  obtain ⟨lag, hpos, hle, hlag⟩ := rng.register.exists_lag
  have hadd : ∀ k, (rng.output (k + 607)).toNat % 2 ^ 63
      = ((rng.output k).toNat % 2 ^ 63 + (rng.output (k + 607 - lag)).toNat % 2 ^ 63) % 2 ^ 63 := by
    intro k
    rw [rng.output_add hpos hle hlag, UInt64.toNat_add]
    omega
  have hlt : ∀ k, (rng.output k).toNat % 2 ^ 63 < 2 ^ 63 :=
    fun k => Nat.mod_lt _ (Nat.two_pow_pos 63)
  obtain ⟨k, hk⟩ := LaggedRegister.exists_two_mul_le hlt hadd
  refine ⟨k, ?_⟩
  rw [toInt_draw]
  omega

variable {n}

/-- A remainder of `2^63` is less than half of it. -/
theorem two_pow_le_goMax (hn : 0 < n.toInt) : 2 ^ 62 ≤ goMax n := by
  have hlt := n.toInt_lt
  have hmod := Int.emod_lt_of_pos (2 ^ 63) hn
  have hdiv := Int.mul_ediv_add_emod (2 ^ 63) n.toInt
  unfold goMax
  by_cases hsmall : n.toInt ≤ 2 ^ 62
  · omega
  · -- the quotient is 1
    have hone : (2 ^ 63 : Int) / n.toInt = 1 := by
      apply Int.le_antisymm
      · exact Int.lt_add_one_iff.mp ((Int.ediv_lt_iff_lt_mul hn).mpr (by omega))
      · exact (Int.le_ediv_iff_mul_le hn).mpr (by omega)
    rw [hone, Int.mul_one] at hdiv
    omega

theorem exists_goInt63n (hn : 0 < n.toInt) : ∃ j rng', rng.GoInt63n n j rng' := by
  have hexists := rng.exists_draw_le (two_pow_le_goMax hn)
  refine ⟨rng.draw (Nat.find hexists) % n, _, Nat.find hexists,
    fun i hi => Int.not_le.mp (Nat.find_min hexists hi), Nat.find_spec hexists, ?_, rfl⟩
  rw [Int64.toInt_mod, Int.tmod_eq_emod_of_nonneg (rng.draw_nonneg _)]

/-! ## Powers of two -/

theorem toNat_toUInt64_pred (hn : 0 < n.toInt) :
    (n - 1).toUInt64.toNat = n.toUInt64.toNat - 1 := by
  have hpred := toInt_eq_toNat (v := n - 1) (by rw [toInt_pred hn]; omega)
  have hself := toInt_eq_toNat hn.le
  rw [toInt_pred hn] at hpred
  omega

theorem toNat_toUInt64_and_pred (hn : 0 < n.toInt) (v : Int64) :
    (v &&& (n - 1)).toUInt64.toNat = v.toUInt64.toNat &&& (n.toUInt64.toNat - 1) := by
  rw [Int64.toUInt64_and, UInt64.toNat_and, toNat_toUInt64_pred hn]

/-- The test of the source finds the powers of two. -/
theorem and_pred_eq_zero_iff (hn : 0 < n.toInt) :
    n &&& (n - 1) = 0 ↔ ∃ k : Nat, n.toInt = 2 ^ k := by
  have hself := toInt_eq_toNat hn.le
  have hzero : n &&& (n - 1) = 0 ↔ (n &&& (n - 1)).toUInt64.toNat = 0 := by
    constructor
    · intro h
      rw [h]
      rfl
    · intro h
      exact Int64.toBitVec_inj.mp (BitVec.eq_of_toNat_eq h)
  rw [hzero, toNat_toUInt64_and_pred hn, Nat.and_sub_one_eq_zero_iff_isPowerOfTwo (by omega), hself]
  exact exists_congr fun k => by exact_mod_cast Iff.rfl

theorem int63n_of_and_eq (hn : 0 < n) (hand : n &&& (n - 1) = 0) (fuel : Nat) :
    rng.int63n fuel n = .ok (rng.draw 0 &&& (n - 1), rng.after 1) := by
  rw [int63n, if_neg (not_not.mpr hn), if_pos hand]
  rfl

/-- Masking is reducing. -/
theorem toInt_and_pred (hn : 0 < n.toInt) {e : Nat} (he : n.toInt = 2 ^ e) {v : Int64}
    (hv : 0 ≤ v.toInt) : (v &&& (n - 1)).toInt = v.toInt % n.toInt := by
  have hself := toInt_eq_toNat hn.le
  have hpow : n.toUInt64.toNat = 2 ^ e := by
    rw [he] at hself
    exact_mod_cast hself.symm
  have hnat := toNat_toUInt64_and_pred hn v
  rw [hpow, Nat.and_two_pow_sub_one_eq_mod, ← hpow] at hnat
  have hlt : v.toUInt64.toNat % n.toUInt64.toNat < n.toUInt64.toNat := Nat.mod_lt _ (by omega)
  have hn63 := n.toInt_lt
  have hmask : (v &&& (n - 1)).toInt = (v &&& (n - 1)).toUInt64.toNat :=
    BitVec.toInt_eq_toNat_of_lt (show 2 * (v &&& (n - 1)).toUInt64.toNat < 2 ^ 64 by omega)
  rw [hmask, hnat, Int.natCast_emod, ← toInt_eq_toNat hv, ← hself]

theorem goMax_of_pow {e : Nat} (he : n.toInt = 2 ^ e) : goMax n = 2 ^ 63 - 1 := by
  have hlt := n.toInt_lt
  rw [he] at hlt
  have hle : e ≤ 63 := by
    by_contra! hgt
    exact absurd (pow_le_pow_right₀ (by decide : (1 : Int) ≤ 2) hgt.le) (Int.not_le.mpr hlt)
  rw [goMax, he, Int.emod_eq_zero_of_dvd (pow_dvd_pow 2 hle), Int.sub_zero]

/-- Every draw is accepted, so that Go's function takes the first one. -/
theorem goInt63n_iff_of_pow {e : Nat} (he : n.toInt = 2 ^ e) {j : Int64} {rng' : RngSource} :
    rng.GoInt63n n j rng' ↔ j.toInt = (rng.draw 0).toInt % n.toInt ∧ rng' = rng.after 1 := by
  have hmax : ∀ k, (rng.draw k).toInt ≤ goMax n := by
    intro k
    rw [goMax_of_pow he]
    exact Int.le_sub_one_of_lt (rng.draw k).toInt_lt
  constructor
  · rintro ⟨k, hrejected, -, hj, hrng⟩
    grind
  · rintro ⟨hj, hrng⟩
    exact ⟨0, fun i hi => absurd hi (Nat.not_lt_zero i), hmax 0, hj, hrng⟩

theorem conforms_of_pow (hn : 0 < n) {e : Nat} (he : n.toInt = 2 ^ e) : rng.Int63nConforms n := by
  have hpos : 0 < n.toInt := Int64.lt_iff_toInt_lt.mp hn
  have hand : n &&& (n - 1) = 0 := (and_pred_eq_zero_iff hpos).mpr ⟨e, he⟩
  intro j rng'
  rw [goInt63n_iff_of_pow rng he, ← toInt_and_pred hpos he (rng.draw_nonneg 0), Int64.toInt_inj]
  constructor
  · rintro ⟨fuel, hok⟩
    rw [int63n_of_and_eq rng hn hand] at hok
    simp_all
  · rintro ⟨rfl, rfl⟩
    exact ⟨0, int63n_of_and_eq rng hn hand 0⟩

/-! ## Other bounds -/

/-- The bound that the source computes wraps to a negative number. -/
theorem toInt_max_neg (hn : 0 < n.toInt) (hpow : ¬ ∃ e : Nat, n.toInt = 2 ^ e) :
    (Int64.minValue - 1 - Int64.minValue % n).toInt < 0 := by
  have hlt := n.toInt_lt
  have hmod := Int.emod_lt_of_pos (2 ^ 63) hn
  have hnonneg := Int.emod_nonneg (2 ^ 63) hn.ne'
  -- a divisor of `2^63` would be a power of two
  have hne : (2 ^ 63 : Int) % n.toInt ≠ 0 := by
    intro hzero
    have hdvd : n.toInt.toNat ∣ 2 ^ 63 := by
      have := Int.dvd_of_emod_eq_zero hzero
      rw [← Int.toNat_of_nonneg hn.le] at this
      exact_mod_cast this
    obtain ⟨e, -, he⟩ := (Nat.dvd_prime_pow Nat.prime_two).mp hdvd
    grind
  have hrem : (Int64.minValue % n).toInt = -(2 ^ 63 % n.toInt) := by
    rw [Int64.toInt_mod, Int64.toInt_minValue, Int.neg_tmod, Int.tmod_eq_emod_of_nonneg (by decide)]
  rw [Int64.toInt_sub, hrem, show (Int64.minValue - 1).toInt = 2 ^ 63 - 1 by decide, Int.bmod_def]
  split <;> omega

theorem int63Upto_eq_none {max : Int64} (hmax : max.toInt < 0) (fuel : Nat) :
    int63Upto fuel rng max = none := by
  induction fuel generalizing rng with
  | zero => rfl
  | succ fuel ih =>
    have hgt : rng.int63.1 > max := Int64.lt_iff_toInt_lt.mpr (Int.lt_of_lt_of_le hmax int63_nonneg)
    show (if rng.int63.1 > max then int63Upto fuel rng.int63.2 max else _) = none
    rw [if_pos hgt, ih]

/-- No draw is accepted: the call does not return. -/
theorem int63n_diverges (hn : 0 < n) (hpow : ¬ ∃ e : Nat, n.toInt = 2 ^ e) (fuel : Nat) :
    rng.int63n fuel n = .err () := by
  have hpos : 0 < n.toInt := Int64.lt_iff_toInt_lt.mp hn
  rw [int63n, if_neg (not_not.mpr hn), if_neg fun hand => hpow ((and_pred_eq_zero_iff hpos).mp hand)]
  dsimp only
  rw [int63Upto_eq_none rng (toInt_max_neg hpos hpow)]

/-- `int63n` is Go's function for powers of two only; for any other bound it does not return. -/
theorem int63n_conforms_iff (hn : 0 < n) :
    (rng.Int63nConforms n ↔ ∃ e : Nat, n.toInt = 2 ^ e) ∧
      ((¬ ∃ e : Nat, n.toInt = 2 ^ e) → ∀ fuel, rng.int63n fuel n = .err ()) := by
  refine ⟨⟨fun hconforms => ?_, fun ⟨e, he⟩ => conforms_of_pow rng hn he⟩,
    fun hpow => int63n_diverges rng hn hpow⟩
  by_contra hpow
  obtain ⟨j, rng', hgo⟩ := rng.exists_goInt63n (Int64.lt_iff_toInt_lt.mp hn)
  obtain ⟨fuel, hok⟩ := (hconforms j rng').mpr hgo
  rw [int63n_diverges rng hn hpow] at hok
  exact nomatch hok

theorem int63n_conforms_sixteen : (new 51).Int63nConforms 16 :=
  (int63n_conforms_iff (new 51) (by decide)).1.mpr ⟨4, by decide⟩

/-- A generator with the seed of the source's own test, asked for a number below 3. -/
theorem int63n_three_diverges :
    (∃ j rng', (new 51).GoInt63n 3 j rng') ∧ ∀ fuel, (new 51).int63n fuel 3 = .err () := by
  have hpow : ¬ ∃ e : Nat, (3 : Int64).toInt = 2 ^ e := by
    rw [← and_pred_eq_zero_iff (by decide)]
    decide
  exact ⟨(new 51).exists_goInt63n (by decide), int63n_diverges (new 51) (by decide) hpow⟩

end RethBsc.GoRng.RngSource
