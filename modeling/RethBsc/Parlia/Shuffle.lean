import Mathlib.Data.List.Perm.Basic
import RethBsc.Parlia.GoRng

/-!
# What the shuffle returns

The Fisher-Yates loop of `src/consensus/parlia/go_rng.rs`, whatever the generator draws: the
result has the elements of the list, and no swap is out of bounds.

* `int31n_lt`, `int63n_lt`: a draw is below its bound.
* `shuffle_perm`: a shuffle that returns has permuted the list.
* `shuffle_returns`: it does not panic, so that it can only fail to return by drawing for ever.
-/

namespace RethBsc.GoRng

open Rust Outcome

/-! ## Draws -/

namespace RngSource

variable {rng rng' : RngSource} {fuel : Nat}

theorem toNat_toInt64_toUInt64 {x : UInt32} (h : x.toNat < 2 ^ 31) :
    x.toInt32.toInt64.toUInt64.toNat = x.toNat := by
  show (BitVec.signExtend 64 x.toBitVec).toNat = x.toBitVec.toNat
  rw [BitVec.signExtend_eq_setWidth_of_msb_false]
  · simp
  · rw [BitVec.msb_eq_false_iff_two_mul_lt]
    show 2 * x.toNat < _
    omega

variable {k : Nat} {v n : Int64}

theorem toNat_ofNat_toUInt64 (hk : k < 2 ^ 31) :
    (Int32.ofNat k).toInt64.toUInt64.toNat = k := by
  show (BitVec.signExtend 64 (BitVec.ofNat 32 k)).toNat = k
  grind

/-- A product of 32 bit words. -/
theorem toNat_mul_lt {v : UInt32} {n : UInt64} (hpos : 0 < n.toNat) (hn : n.toNat < 2 ^ 31) :
    (v.toUInt64 * n).toNat < 2 ^ 32 * n.toNat := by
  have hv := v.toNat_lt
  have hlt : v.toNat * n.toNat < 2 ^ 32 * n.toNat := Nat.mul_lt_mul_of_pos_right hv hpos
  rwa [UInt64.toNat_mul, UInt32.toNat_toUInt64, Nat.mod_eq_of_lt (by omega)]

/-- What bounds every product bounds the one that the loop ends with. -/
theorem int31nLoop_lt {n : Int32} {thresh : UInt32} {prod prod' : UInt64} {bound : Nat}
    (hbound : ∀ v : UInt32, (v.toUInt64 * n.toInt64.toUInt64).toNat < bound)
    (hprod : prod.toNat < bound) (h : int31nLoop fuel rng n thresh prod = some (prod', rng')) :
    prod'.toNat < bound := by
  induction fuel generalizing rng prod with
  | zero => simp_all [int31nLoop]
  | succ fuel ih => grind [int31nLoop]

/-- The high word of a product by `k` is below `k`. -/
theorem high_word_lt {prod : UInt64} (hk : k < 2 ^ 31) (h : prod.toNat < 2 ^ 32 * k) :
    (prod >>> 32).toUInt32.toInt32.toInt64.toUInt64.toNat < k := by
  have hshift : (prod >>> 32).toNat = prod.toNat / 2 ^ 32 := by
    simp
    omega
  have hlt : prod.toNat / 2 ^ 32 < k := (Nat.div_lt_iff_lt_mul (by decide)).mpr (by omega)
  have hword : (prod >>> 32).toUInt32.toNat = prod.toNat / 2 ^ 32 := by
    rw [UInt64.toNat_toUInt32, hshift, Nat.mod_eq_of_lt (by omega)]
  rwa [toNat_toInt64_toUInt64 (by omega), hword]

theorem int31n_lt {j : Int32} (hpos : 0 < k) (hk : k < 2 ^ 31)
    (h : rng.int31n fuel (Int32.ofNat k) = some (j, rng')) : j.toInt64.toUInt64.toNat < k := by
  have hn := toNat_ofNat_toUInt64 hk
  have hprod : ∀ v : UInt32, (v.toUInt64 * (Int32.ofNat k).toInt64.toUInt64).toNat < 2 ^ 32 * k := by
    intro v
    rw [← hn] at hpos hk
    exact Nat.lt_of_lt_of_eq (toNat_mul_lt hpos hk) (by rw [hn])
  unfold int31n at h
  dsimp only at h
  split at h
  · -- the first product is small, so that it may be biased
    obtain ⟨⟨prod, rng''⟩, hloop, hj⟩ := Option.bind_eq_some_iff.mp h
    obtain ⟨rfl, -⟩ := Prod.mk.inj (Option.some.inj hj)
    exact high_word_lt hk (int31nLoop_lt hprod (hprod _) hloop)
  · obtain ⟨rfl, -⟩ := Prod.mk.inj (Option.some.inj h)
    exact high_word_lt hk (hprod _)

/-! A draw of 63 bits is not negative, and neither is what `int63n` makes of it. -/

/-- A draw is the word without its highest bit. -/
theorem toInt_int63 : rng.int63.1.toInt = (rng.uint64.1.toNat % 2 ^ 63 : Nat) := by
  have hmask : (rng.uint64.1 &&& rngMask).toNat = rng.uint64.1.toNat % 2 ^ 63 := by
    rw [UInt64.toNat_and]
    exact Nat.and_two_pow_sub_one_eq_mod _ 63
  have hlt : rng.uint64.1.toNat % 2 ^ 63 < 2 ^ 63 := Nat.mod_lt _ (by decide)
  show (rng.uint64.1 &&& rngMask).toBitVec.toInt = _
  rw [← hmask, BitVec.toInt_eq_toNat_of_lt]
  · rfl
  · show 2 * (rng.uint64.1 &&& rngMask).toNat < _
    omega

theorem int63_nonneg : 0 ≤ rng.int63.1.toInt := by
  rw [toInt_int63]
  exact Int.natCast_nonneg _

theorem int63Upto_nonneg {max : Int64} (h : int63Upto fuel rng max = some (v, rng')) :
    0 ≤ v.toInt := by
  induction fuel generalizing rng with
  | zero => exact nomatch h
  | succ fuel ih =>
    unfold int63Upto at h
    dsimp only at h
    split at h
    · exact ih h
    · obtain ⟨rfl, -⟩ := Prod.mk.inj (Option.some.inj h)
      exact int63_nonneg

theorem toInt_eq_toNat (hv : 0 ≤ v.toInt) : v.toInt = v.toUInt64.toNat := by
  have hnonneg : 0 ≤ v.toBitVec.toInt := hv
  show v.toBitVec.toInt = (v.toBitVec.toNat : Int)
  rw [BitVec.toInt_eq_toNat_cond] at hnonneg ⊢
  split
  · rfl
  · omega

/-- A number from 0 up to `n`, as an index. -/
theorem toNat_toUInt64_lt (hv : 0 ≤ v.toInt) (hlt : v.toInt < n.toInt) :
    v.toUInt64.toNat < n.toInt.toNat := by
  have hnat := toInt_eq_toNat hv
  omega

theorem toInt_pred (hn : 0 < n.toInt) : (n - 1).toInt = n.toInt - 1 := by
  have hlt := n.toInt_lt
  rw [Int64.toInt_sub, show (1 : Int64).toInt = 1 from rfl, Int.bmod_eq_of_le (by omega) (by omega)]

theorem int63n_lt {j : Int64} (h : rng.int63n fuel n = .ok (j, rng')) :
    j.toUInt64.toNat < n.toInt.toNat := by
  unfold int63n at h
  split at h
  · exact nomatch h
  · next hpos =>
    have hn : 0 < n.toInt := by
      have := Int64.lt_iff_toInt_lt.mp (not_not.mp hpos)
      simpa using this
    split at h
    · -- the power of two keeps the low bits
      obtain ⟨rfl, -⟩ := Prod.mk.inj (ok.inj h)
      refine Nat.lt_of_le_of_lt (m := (n - 1).toUInt64.toNat) ?_ (toNat_toUInt64_lt ?_ ?_)
      · show (rng.int63.1.toBitVec &&& (n - 1).toBitVec).toNat ≤ (n - 1).toBitVec.toNat
        rw [BitVec.toNat_and]
        exact Nat.and_le_right
      · rw [toInt_pred hn]
        omega
      · rw [toInt_pred hn]
        omega
    · dsimp only at h
      split at h
      · exact nomatch h
      · next v rng'' hdraw =>
        obtain ⟨rfl, -⟩ := Prod.mk.inj (ok.inj h)
        have hv := int63Upto_nonneg hdraw
        refine toNat_toUInt64_lt ?_ ?_
        · rw [Int64.toInt_mod]
          exact Int.tmod_nonneg _ hv
        · rw [Int64.toInt_mod]
          exact Int.tmod_lt_of_pos _ hn

theorem int63n_returns (hn : 0 < n) : (rng.int63n fuel n).Returns := by
  rw [int63n, if_neg (not_not.mpr hn)]
  split
  · exact returns_ok _
  · dsimp only
    split
    · exact returns_err _
    · exact returns_ok _

end RngSource

/-! ## Swaps -/

variable {α : Type} {l l' : List α} {i j : Nat}

theorem swap_perm (h : swap l i j = .ok l') : l'.Perm l := by
  unfold swap at h
  split at h
  · next a b ha hb =>
    cases h
    -- put `b` in the place of `a`, then `a` in the place of `b`
    have hfirst : (a :: l.set i b).Perm (b :: l) := by
      have hset := l.getD_set_perm_cons i b
      rwa [ha, Option.getD_some] at hset
    have hb' : (l.set i b)[j]? = some b := by grind
    have hsecond : (b :: (l.set i b).set j a).Perm (a :: l.set i b) := by
      have hset := (l.set i b).getD_set_perm_cons j a
      rwa [hb', Option.getD_some] at hset
    exact (List.perm_cons b).mp (hsecond.trans hfirst)
  · exact nomatch h

theorem swap_returns (hi : i < l.length) (hj : j < l.length) : (swap l i j).Returns := by
  rw [swap, List.getElem?_eq_getElem hi, List.getElem?_eq_getElem hj]
  exact returns_ok _

/-! ## The loop -/

variable {fuel : Nat} {rng : RngSource}

theorem shuffleFrom_perm (h : shuffleFrom fuel rng l i = .ok l') : l'.Perm l := by
  induction i generalizing rng l with
  | zero => exact ok.inj h ▸ .refl _
  | succ i ih =>
    unfold shuffleFrom at h
    split at h
    · obtain ⟨⟨j, rng'⟩, -, h⟩ := bind_eq_ok.mp h
      obtain ⟨swapped, hswap, h⟩ := bind_eq_ok.mp h
      exact (ih h).trans (swap_perm hswap)
    · obtain ⟨⟨j, rng'⟩, -, h⟩ := bind_eq_ok.mp h
      obtain ⟨swapped, hswap, h⟩ := bind_eq_ok.mp h
      exact (ih h).trans (swap_perm hswap)

theorem shuffle_perm (h : shuffle fuel rng l = .ok l') : l'.Perm l := by
  unfold shuffle at h
  split at h
  · exact ok.inj h ▸ .refl _
  · exact shuffleFrom_perm h

/-- Every index drawn is at most the index of the turn. -/
theorem shuffleFrom_returns (hi : i < l.length) (hlength : l.length < 2 ^ 63) :
    (shuffleFrom fuel rng l i).Returns := by
  induction i generalizing rng l with
  | zero => exact returns_ok _
  | succ i ih =>
    -- after a swap at two indices of the list, the rest of the loop
    have hrest : ∀ (j : Nat) (rng : RngSource), j < i + 2 →
        (swap l (i + 1) j >>= fun swapped => shuffleFrom fuel rng swapped i).Returns := by
      intro j rng hj
      refine returns_bind.mpr ⟨swap_returns hi (by omega), fun swapped hswap => ?_⟩
      have hsame : swapped.length = l.length := (swap_perm hswap).length_eq
      exact ih (by omega) (by omega)
    unfold shuffleFrom
    split
    · have hn : (Int64.ofNat (i + 2)).toInt = (i + 2 : Nat) :=
        Int64.toInt_ofNat_of_lt (by omega)
      have hpos : 0 < Int64.ofNat (i + 2) := by
        rw [Int64.lt_iff_toInt_lt, hn]
        exact Int.natCast_pos.mpr (by omega)
      refine returns_bind.mpr ⟨RngSource.int63n_returns hpos, fun draw hdraw => hrest _ _ ?_⟩
      have hlt := RngSource.int63n_lt hdraw
      rwa [hn] at hlt
    · next hsmall =>
      refine returns_bind.mpr ⟨returns_okOr _ _, fun draw hdraw => hrest _ _ ?_⟩
      exact RngSource.int31n_lt (by omega) (by omega) (okOr_eq_ok.mp hdraw)

/-- The shuffle of a list whose indices fit in an `i64` does not panic. -/
theorem shuffle_returns (hlength : l.length < 2 ^ 63) : (shuffle fuel rng l).Returns := by
  unfold shuffle
  split
  · exact returns_ok _
  · next hne =>
    exact shuffleFrom_returns (Nat.sub_lt (List.length_pos_iff.mpr hne) Nat.one_pos) hlength

/-- Two elements take one draw, which is never repeated: 2 divides the number of words. -/
theorem shuffle_pair_eq_ok (fuel : Nat) (rng : RngSource) (a b : α) :
    ∃ l', shuffle fuel rng [a, b] = .ok l' := by
  have hdraw : ∃ draw, rng.int31n fuel 2 = some draw := by
    have hloop : ∀ (rng : RngSource) (prod : UInt64),
        RngSource.int31nLoop fuel rng 2 ((-2 : Int32).toUInt32 % (2 : Int32).toUInt32) prod
          = some (prod, rng) := by
      intro rng prod
      rw [show (-2 : Int32).toUInt32 % (2 : Int32).toUInt32 = 0 by decide]
      unfold RngSource.int31nLoop
      rw [if_neg UInt32.not_lt_zero]
    simp_all [RngSource.int31n]
  obtain ⟨⟨j, rng'⟩, hdraw⟩ := hdraw
  have hj : j.toInt64.toUInt64.toNat < 2 := RngSource.int31n_lt (by decide) (by decide) hdraw
  obtain ⟨l', hswap⟩ : ∃ l', swap [a, b] 1 j.toInt64.toUInt64.toNat = .ok l' := by
    rcases Nat.lt_succ_iff_lt_or_eq.mp hj with hzero | hone
    · rw [Nat.lt_one_iff.mp hzero]
      exact ⟨_, rfl⟩
    · rw [hone]
      exact ⟨_, rfl⟩
  refine ⟨l', ?_⟩
  show (okOr () (rng.int31n fuel 2) >>= _) = _
  rw [hdraw, okOr_some, ok_bind]
  show (swap [a, b] 1 j.toInt64.toUInt64.toNat >>= _) = _
  rw [hswap]
  rfl

end RethBsc.GoRng
