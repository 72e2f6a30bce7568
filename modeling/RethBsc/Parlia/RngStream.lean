import RethBsc.Parlia.GoRng
import RethBsc.Random.LaggedRegister

/-!
# The stream of a generator

What `RngSource::uint64` of `src/consensus/parlia/go_rng.rs` returns, call after call.

* `register_uint64`: one call is one step of a lagged register of 607 words.
* `output_add`: so from the second round on each word is the sum of two earlier ones, for the
  register and the indices that the generator happens to have.
* `Aligned` is what a seeded generator keeps of its indices; it fixes the lag to 273.
-/

namespace RethBsc.GoRng.RngSource

variable (rng : RngSource)

/-- The generator after `k` calls of `uint64`. -/
def after (k : Nat) : RngSource := (fun rng => rng.uint64.2)^[k] rng

/-- What call `k` returns. -/
def output (k : Nat) : UInt64 := (rng.after k).uint64.1

theorem after_succ (k : Nat) : rng.after (k + 1) = (rng.after k).uint64.2 :=
  Function.iterate_succ_apply' _ k rng

/-! ## The generator as a lagged register -/

def register : LaggedRegister 607 Int64 where
  tap := rng.tap
  feed := rng.feed
  slot i := rng.vec.getD i.val 0

theorem natCast_pred (i : Nat) : (((i + rngLen - 1) % rngLen : Nat) : ZMod 607) = i - 1 := by
  show (((i + 606) % 607 : Nat) : ZMod 607) = i - 1
  rw [ZMod.natCast_mod, Nat.cast_add, sub_eq_add_neg]
  rfl

theorem val_pred (i : Nat) : ((i : ZMod 607) - 1).val = (i + rngLen - 1) % rngLen := by
  rw [← natCast_pred]
  exact ZMod.val_natCast_of_lt (Nat.mod_lt _ (by decide))

theorem getD_setIfInBounds {vec : Vector Int64 607} {i j : Nat} (hj : j < 607) (x : Int64) :
    (vec.setIfInBounds i x).getD j 0 = if i = j then x else vec.getD j 0 := by
  have hget : ∀ vec : Vector Int64 607, vec.getD j 0 = vec[j] := by
    intro vec
    rw [Vector.getD, Array.getD, dif_pos (by simpa using hj)]
    rfl
  rw [hget, hget, Vector.getElem_setIfInBounds hj]

/-- The sum is that of the register. -/
theorem uint64_eq_next : rng.uint64.1 = (rng.register.next (· + ·)).toUInt64 := by
  show (rng.vec.getD _ 0 + rng.vec.getD _ 0).toUInt64
    = (rng.vec.getD ((rng.feed : ZMod 607) - 1).val 0
      + rng.vec.getD ((rng.tap : ZMod 607) - 1).val 0).toUInt64
  rw [val_pred, val_pred]

/-- One call is one step. -/
theorem register_uint64 : rng.uint64.2.register = rng.register.step (· + ·) := by
  have hnext : rng.register.next (· + ·) = rng.vec.getD ((rng.feed + rngLen - 1) % rngLen) 0
      + rng.vec.getD ((rng.tap + rngLen - 1) % rngLen) 0 := by
    rw [← val_pred, ← val_pred]
    rfl
  apply LaggedRegister.ext
  · exact natCast_pred rng.tap
  · exact natCast_pred rng.feed
  · funext i
    show (rng.vec.setIfInBounds _ _).getD i.val 0
      = Function.update rng.register.slot ((rng.feed : ZMod 607) - 1) (rng.register.next (· + ·)) i
    rw [getD_setIfInBounds i.val_lt, hnext]
    by_cases hwritten : i = (rng.feed : ZMod 607) - 1
    · rw [hwritten, Function.update_self, val_pred, if_pos rfl]
    · rw [Function.update_of_ne hwritten, ← val_pred,
        if_neg fun hval => hwritten (ZMod.val_injective 607 hval.symm)]
      rfl

theorem register_after (k : Nat) : (rng.after k).register = rng.register.after (· + ·) k := by
  induction k with
  | zero => rfl
  | succ k ih => rw [after_succ, register_uint64, ih, LaggedRegister.after_succ]

theorem output_eq_written (k : Nat) :
    rng.output k = (rng.register.written (· + ·) k).toUInt64 := by
  rw [output, uint64_eq_next, register_after]
  rfl

/-- From the second round on, a word is the sum of the one of a round ago and the one `lag` calls
ago. -/
theorem output_add {lag : Nat} (hpos : 0 < lag) (hle : lag ≤ 607)
    (hlag : (rng.tap : ZMod 607) = rng.feed + lag) (k : Nat) :
    rng.output (k + 607) = rng.output k + rng.output (k + 607 - lag) := by
  rw [output_eq_written, LaggedRegister.written_add _ rng.register hpos hle hlag,
    Int64.toUInt64_add, ← output_eq_written, ← output_eq_written]

/-! ## The indices -/

/-- What a generator keeps of its two indices. -/
structure Aligned : Prop where
  tap_lt : rng.tap < 607
  feed_eq : rng.feed = (rng.tap + 334) % 607

theorem aligned_new (seed : Int64) : (new seed).Aligned := ⟨show 0 < 607 by decide, rfl⟩

variable {rng}

theorem Aligned.uint64 (h : rng.Aligned) : rng.uint64.2.Aligned := by
  refine ⟨Nat.mod_lt _ (by decide), ?_⟩
  show (rng.feed + 607 - 1) % 607 = ((rng.tap + 607 - 1) % 607 + 334) % 607
  have hfeed := h.feed_eq
  omega

theorem Aligned.after (h : rng.Aligned) (k : Nat) : (rng.after k).Aligned := by
  induction k with
  | zero => exact h
  | succ k ih =>
    rw [after_succ]
    exact ih.uint64

theorem Aligned.tap_eq (h : rng.Aligned) : (rng.tap : ZMod 607) = rng.feed + (273 : Nat) := by
  rw [h.feed_eq, ← Nat.cast_add, ZMod.natCast_eq_natCast_iff']
  omega

/-- A seeded generator is the additive lagged generator with the lags 607 and 273. -/
theorem new_recurrence (seed : Int64) :
    (∀ k, 607 ≤ k → ((new seed).output k).toNat
      = (((new seed).output (k - 607)).toNat + ((new seed).output (k - 273)).toNat) % 2 ^ 64) ∧
    ∀ k, ((new seed).after k).tap < 607 ∧ ((new seed).after k).feed < 607 ∧
      ((new seed).after k).feed = (((new seed).after k).tap + 334) % 607 := by
  constructor
  · intro k hk
    obtain ⟨k, rfl⟩ := Nat.exists_eq_add_of_le' hk
    rw [output_add _ (by decide) (by decide) (aligned_new seed).tap_eq, UInt64.toNat_add,
      Nat.add_sub_cancel]
  · intro k
    obtain ⟨htap, hfeed⟩ := (aligned_new seed).after k
    refine ⟨htap, ?_, hfeed⟩
    rw [hfeed]
    exact Nat.mod_lt _ (by decide)

theorem new_recurrence_first : ((new 51).output 607).toNat
    = (((new 51).output 0).toNat + ((new 51).output 334).toNat) % 2 ^ 64 := by
  have hfirst := (new_recurrence 51).1 607 (Nat.le_refl 607)
  rwa [Nat.sub_self, show 607 - 273 = 334 from rfl] at hfirst

end RethBsc.GoRng.RngSource
