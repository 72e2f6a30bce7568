import Mathlib.Algebra.Order.Ring.Int
import Mathlib.Data.Int.GCD
import Mathlib.Tactic.Ring

/-!
# Schrage's method

A product `a * x` modulo `m` without a number beyond `m` on the way.  With `m = a * q + r` it is
`a * (x % q) - r * (x / q)`, plus `m` if that is negative.

* `Schrage.sub_eq`: the difference is congruent to the product.
* `Schrage.mul_mod_lt`, `Schrage.mul_div_lt`: both products stay below `m` if `r < q`.
* `Schrage.correct`: so the method computes the remainder, which `Schrage.emod_pos` keeps from being
  zero.
-/

/-- The multiplier `a` and the modulus `m` with the quotient and the remainder of `m` by `a`. -/
structure Schrage (a q r m : ℤ) : Prop where
  eq : m = a * q + r
  pos : 0 < a
  nonneg : 0 ≤ r
  lt : r < q

namespace Schrage

variable {a q r m x : ℤ} (h : Schrage a q r m)

include h

theorem q_pos : 0 < q := h.nonneg.trans_lt h.lt

theorem sub_eq (x : ℤ) : a * (x % q) - r * (x / q) = a * x - m * (x / q) := by
  have hx : q * (x / q) + x % q = x := Int.mul_ediv_add_emod x q
  calc a * (x % q) - r * (x / q)
      = a * (q * (x / q) + x % q) - (a * q + r) * (x / q) := by ring
    _ = a * x - m * (x / q) := by rw [hx, ← h.eq]

theorem mul_mod_nonneg (x : ℤ) : 0 ≤ a * (x % q) :=
  mul_nonneg h.pos.le (Int.emod_nonneg x h.q_pos.ne')

theorem mul_mod_lt (x : ℤ) : a * (x % q) < m := by
  have hmod : x % q < q := Int.emod_lt_of_pos x h.q_pos
  calc a * (x % q) < a * q := mul_lt_mul_of_pos_left hmod h.pos
    _ ≤ a * q + r := le_add_of_nonneg_right h.nonneg
    _ = m := h.eq.symm

theorem mul_div_nonneg (hx : 0 ≤ x) : 0 ≤ r * (x / q) :=
  mul_nonneg h.nonneg (Int.ediv_nonneg hx h.q_pos.le)

theorem mul_div_lt (hx : x < m) : r * (x / q) < m := by
  -- the quotient is at most `a`, as `r` is less than another `q`
  have hdiv : x / q ≤ a := by
    have hlt : x < (a + 1) * q := by
      calc x < m := hx
        _ = a * q + r := h.eq
        _ < a * q + q := add_lt_add_right h.lt _
        _ = (a + 1) * q := by ring
    exact Int.lt_add_one_iff.mp ((Int.ediv_lt_iff_lt_mul h.q_pos).mpr hlt)
  calc r * (x / q) ≤ r * a := mul_le_mul_of_nonneg_left hdiv h.nonneg
    _ < q * a := mul_lt_mul_of_pos_right h.lt h.pos
    _ ≤ a * q + r := by rw [mul_comm]; exact le_add_of_nonneg_right h.nonneg
    _ = m := h.eq.symm

/-- The remainder, by the sign of the difference. -/
theorem correct (hx : 0 ≤ x) (hlt : x < m) :
    (if a * (x % q) - r * (x / q) < 0 then a * (x % q) - r * (x / q) + m
      else a * (x % q) - r * (x / q)) = a * x % m := by
  have hmod := h.mul_mod_lt x
  have hmodNonneg := h.mul_mod_nonneg x
  have hdiv := h.mul_div_lt hlt
  have hdivNonneg := h.mul_div_nonneg hx
  have hcongr : (a * (x % q) - r * (x / q)) % m = a * x % m := by
    rw [h.sub_eq, Int.sub_mul_emod_self_left]
  rw [← hcongr]
  generalize a * (x % q) = s at hmod hmodNonneg ⊢
  generalize r * (x / q) = t at hdiv hdivNonneg ⊢
  split
  · rw [← Int.add_emod_right, Int.emod_eq_of_lt (by omega) (by omega)]
  · rw [Int.emod_eq_of_lt (by omega) (by omega)]

omit h in
/-- The modulus divides no product of a number coprime to it with a smaller one. -/
theorem emod_pos (hcoprime : Int.gcd m a = 1) (hx : 0 < x) (hlt : x < m) : 0 < a * x % m := by
  refine lt_of_le_of_ne (Int.emod_nonneg _ (hx.trans hlt).ne') fun hzero => ?_
  have hdvd : m ∣ x :=
    Int.dvd_of_dvd_mul_right_of_gcd_one (Int.dvd_of_emod_eq_zero hzero.symm) hcoprime
  exact absurd (Int.le_of_dvd hx hdvd) (not_le.mpr hlt)

end Schrage
