import Mathlib.Data.ZMod.Basic
import Mathlib.Logic.Function.Iterate
import Mathlib.Tactic.Ring

/-!
# Lagged registers

A register of `n` slots on a circle, with two indices that move back by one in each step.  A step
combines the slots that they then point to, and overwrites the one at `feed` with the result.

* `slot_after`: the last `n` values written are all in the register.
* `written_add`: so each value is combined from the one `n` steps ago and the one `lag` steps ago,
  where `lag` is the distance of the indices.
* `exists_two_mul_le`: a sequence that adds two of its earlier terms modulo `m` comes down to `m / 2`.
-/

/-- The slots are numbered round the circle. -/
@[ext]
structure LaggedRegister (n : ℕ) (α : Type*) where
  tap : ZMod n
  feed : ZMod n
  slot : ZMod n → α

namespace LaggedRegister

variable {n : ℕ} {α : Type*} (f : α → α → α) (r : LaggedRegister n α)

/-- The value that the next step writes. -/
def next : α := f (r.slot (r.feed - 1)) (r.slot (r.tap - 1))

def step : LaggedRegister n α where
  tap := r.tap - 1
  feed := r.feed - 1
  slot := Function.update r.slot (r.feed - 1) (r.next f)

def after (k : ℕ) : LaggedRegister n α := (step f)^[k] r

/-- The value that step `k` writes. -/
def written (k : ℕ) : α := (r.after f k).next f

theorem after_succ (k : ℕ) : r.after f (k + 1) = (r.after f k).step f :=
  Function.iterate_succ_apply' (step f) k r

theorem feed_after (k : ℕ) : (r.after f k).feed = r.feed - k := by
  induction k with
  | zero => rw [Nat.cast_zero, sub_zero]; rfl
  | succ k ih =>
    rw [after_succ]
    show (r.after f k).feed - 1 = _
    rw [ih, Nat.cast_succ, sub_sub]

theorem tap_after (k : ℕ) : (r.after f k).tap = r.tap - k := by
  induction k with
  | zero => rw [Nat.cast_zero, sub_zero]; rfl
  | succ k ih =>
    rw [after_succ]
    show (r.after f k).tap - 1 = _
    rw [ih, Nat.cast_succ, sub_sub]

/-- Steps that are less than a round apart write to different slots. -/
theorem sub_natCast_ne {j k : ℕ} (a : ZMod n) (hlt : j < k) (hround : k < j + n) :
    a - (j : ZMod n) ≠ a - (k : ZMod n) := by
  intro h
  have hmod : j ≡ k [MOD n] := (ZMod.natCast_eq_natCast_iff _ _ _).mp (sub_right_injective h)
  have hdvd : n ∣ k - j := (Nat.modEq_iff_dvd' hlt.le).mp hmod
  have hle : n ≤ k - j := Nat.le_of_dvd (by omega) hdvd
  omega

/-- The register holds the last `n` values written. -/
theorem slot_after {j k : ℕ} (hlt : j < k) (hround : k ≤ j + n) :
    (r.after f k).slot (r.feed - (j + 1 : ℕ)) = r.written f j := by
  induction k with
  | zero => exact absurd hlt (Nat.not_lt_zero j)
  | succ k ih =>
    have hwrites : (r.after f k).feed - 1 = r.feed - (k + 1 : ℕ) := by
      rw [feed_after, Nat.cast_succ, sub_sub]
    rw [after_succ]
    show Function.update (r.after f k).slot ((r.after f k).feed - 1) (r.written f k) _ = _
    rw [hwrites]
    rcases Nat.lt_succ_iff_lt_or_eq.mp hlt with hearlier | rfl
    · rw [Function.update_of_ne (sub_natCast_ne _ (by omega) (by omega))]
      exact ih hearlier (by omega)
    · rw [Function.update_self]

/-- From the second round on, a step combines two values that earlier steps wrote. -/
theorem written_add {lag : ℕ} (hpos : 0 < lag) (hle : lag ≤ n) (hlag : r.tap = r.feed + lag)
    (k : ℕ) : r.written f (k + n) = f (r.written f k) (r.written f (k + n - lag)) := by
  have hfeed : (r.after f (k + n)).feed - 1 = r.feed - (k + 1 : ℕ) := by
    rw [feed_after, Nat.cast_add, ZMod.natCast_self, add_zero, Nat.cast_succ, sub_sub]
  have htap : (r.after f (k + n)).tap - 1 = r.feed - (k + n - lag + 1 : ℕ) := by
    rw [tap_after, hlag, Nat.cast_succ, Nat.cast_sub (by omega)]
    ring
  show f _ _ = _
  rw [hfeed, htap, slot_after f r (by omega) (by omega), slot_after f r (by omega) (by omega)]

/-- Some lag fits any two indices. -/
theorem exists_lag [NeZero n] : ∃ lag, 0 < lag ∧ lag ≤ n ∧ r.tap = r.feed + lag := by
  have hcast : r.tap = r.feed + (r.tap - r.feed).val := by
    rw [ZMod.natCast_zmod_val, add_sub_cancel]
  by_cases hzero : (r.tap - r.feed).val = 0
  · -- one index: the value of a whole round ago
    refine ⟨n, Nat.pos_of_neZero n, le_rfl, ?_⟩
    rw [hcast, hzero, ZMod.natCast_self, Nat.cast_zero]
  · exact ⟨_, Nat.pos_of_ne_zero hzero, (ZMod.val_lt _).le, hcast⟩

/-- While all terms are above `m / 2` each sum wraps, and the terms `n` apart go down. -/
theorem exists_two_mul_le {v : ℕ → ℕ} {m lag : ℕ} (hlt : ∀ k, v k < m)
    (hadd : ∀ k, v (k + n) = (v k + v (k + n - lag)) % m) : ∃ k, 2 * v k ≤ m := by
  by_contra! hhigh
  have hdown : ∀ k, v (k + n) < v k := by
    intro k
    have hother := hlt (k + n - lag)
    have hwrap := hhigh (k + n - lag)
    have hhigh := hhigh k
    have hlt := hlt k
    rw [hadd k, Nat.mod_eq_sub_mod (by omega), Nat.mod_eq_of_lt (by omega)]
    omega
  have hdescent : ∀ j, v (j * n) + j ≤ v 0 := by
    intro j
    induction j with
    | zero => rw [Nat.zero_mul, Nat.add_zero]
    | succ j ih =>
      have hstep := hdown (j * n)
      rw [Nat.succ_mul]
      omega
  have hlast := hdescent (v 0 + 1)
  omega

end LaggedRegister
