import Mathlib.Logic.Function.Iterate
import RethBsc.Parlia.GoRng
import RethBsc.Random.Schrage

/-!
# Seeding without overflow

`seed_rand` and the loop of `RngSource::seed` (`src/consensus/parlia/go_rng.rs`) with the overflow
checks that a debug build has.

* `seedRandChecked_spec`: on the numbers from 1 to `2^31 - 2` no operation of `seed_rand` overflows,
  and by Schrage's method the result is `48271 * x` modulo the prime `2^31 - 1`.
* `SeedRange.seedRand`: so it stays among these numbers, and with it all of the loop.
* `seedChecked_eq`: the loop with its checks seeds the register that `RngSource::new` has.
-/

namespace RethBsc.GoRng

open Rust Outcome

/-! ## `i32` operations with overflow checks -/

def FitsI32 (v : Int) : Prop := -2 ^ 31 ≤ v ∧ v < 2 ^ 31

instance (v : Int) : Decidable (FitsI32 v) := by unfold FitsI32; infer_instance

section Checked

variable {ε : Type}

def checkedI32 (v : Int) : Outcome ε Int32 := if FitsI32 v then .ok (Int32.ofInt v) else .panic

def mulI32 (a b : Int32) : Outcome ε Int32 := checkedI32 (a.toInt * b.toInt)

def subI32 (a b : Int32) : Outcome ε Int32 := checkedI32 (a.toInt - b.toInt)

def addI32 (a b : Int32) : Outcome ε Int32 := checkedI32 (a.toInt + b.toInt)

/-- `seed_rand`.  The quotient and the remainder by a positive constant do not overflow. -/
def seedRandChecked (x : Int32) : Outcome ε Int32 := do
  let hi := x / 44488
  let lo := x % 44488
  let x ← subI32 (← mulI32 48271 lo) (← mulI32 3399 hi)
  if x < 0 then addI32 x 2147483647 else pure x

/-- One turn of the seeding loop at register index `i`. -/
def seedStepChecked (state : Int32 × Vector Int64 607) (i : Nat) :
    Outcome ε (Int32 × Vector Int64 607) := do
  let x ← seedRandChecked state.1
  let u := x.toInt64 <<< 40
  let x ← seedRandChecked x
  let u := u ^^^ (x.toInt64 <<< 20)
  let x ← seedRandChecked x
  let u := u ^^^ x.toInt64
  let u := u ^^^ rngCooked.getD i 0
  pure (x, state.2.setIfInBounds i u)

/-- The loop of `RngSource::seed`. -/
def seedChecked (seed : Int64) : Outcome ε (Int32 × Vector Int64 607) := do
  let x ← (List.range 20).foldlM (fun x _ => seedRandChecked x) (RngSource.reduceSeed seed)
  (List.range rngLen).foldlM seedStepChecked (x, Vector.replicate 607 0)

variable {a b : Int32} {v : Int}

/-- A word that is the exact result, when that fits. -/
theorem checkedI32_eq {w : Int32} (hw : Int32.ofInt v = w) (h : FitsI32 v) :
    (checkedI32 v : Outcome ε Int32) = .ok w ∧ w.toInt = v := by
  rw [← hw]
  exact ⟨if_pos h, Int32.toInt_ofInt_of_le h.1 h.2⟩

theorem mulI32_eq (hv : a.toInt * b.toInt = v) (h : FitsI32 v) :
    (mulI32 a b : Outcome ε Int32) = .ok (a * b) ∧ (a * b).toInt = v := by
  rw [mulI32, hv]
  refine checkedI32_eq ?_ h
  rw [← hv, Int32.ofInt_mul, Int32.ofInt_toInt, Int32.ofInt_toInt]

theorem subI32_eq (hv : a.toInt - b.toInt = v) (h : FitsI32 v) :
    (subI32 a b : Outcome ε Int32) = .ok (a - b) ∧ (a - b).toInt = v := by
  rw [subI32, hv]
  refine checkedI32_eq ?_ h
  rw [← hv, Int32.ofInt_sub, Int32.ofInt_toInt, Int32.ofInt_toInt]

theorem addI32_eq (hv : a.toInt + b.toInt = v) (h : FitsI32 v) :
    (addI32 a b : Outcome ε Int32) = .ok (a + b) ∧ (a + b).toInt = v := by
  rw [addI32, hv]
  refine checkedI32_eq ?_ h
  rw [← hv, Int32.ofInt_add, Int32.ofInt_toInt, Int32.ofInt_toInt]

end Checked

/-! ## `seed_rand` -/

/-- The numbers that `seed_rand` is for. -/
structure SeedRange (x : Int32) : Prop where
  pos : 1 ≤ x.toInt
  le : x.toInt ≤ 2 ^ 31 - 2

variable {ε : Type} {x : Int32}

theorem schrage : Schrage 48271 44488 3399 2147483647 where
  eq := by decide
  pos := by decide
  nonneg := by decide
  lt := by decide

theorem toInt_hi (hx : 0 ≤ x.toInt) : (x / 44488).toInt = x.toInt / 44488 := by
  have hne : x ≠ Int32.minValue := by
    rintro rfl
    exact absurd hx (by decide)
  rw [Int32.toInt_div_of_ne_left _ _ hne, Int.tdiv_eq_ediv_of_nonneg hx]
  rfl

theorem toInt_lo (hx : 0 ≤ x.toInt) : (x % 44488).toInt = x.toInt % 44488 := by
  rw [Int32.toInt_mod, Int.tmod_eq_emod_of_nonneg hx]
  rfl

theorem seedRandChecked_spec (h : SeedRange x) :
    (seedRandChecked x : Outcome ε Int32) = .ok (seedRand x) ∧
      (seedRand x).toInt = 48271 * x.toInt % (2 ^ 31 - 1) := by
  obtain ⟨hpos, hle⟩ := h
  have hnonneg : 0 ≤ x.toInt := by omega
  have hlt : x.toInt < 2147483647 := by omega
  -- Schrage's bounds: both products are below the modulus, which is `i32::MAX`
  have hlo := schrage.mul_mod_lt x.toInt
  have hlo' := schrage.mul_mod_nonneg x.toInt
  have hhi := schrage.mul_div_lt hlt
  have hhi' := schrage.mul_div_nonneg hnonneg
  have hcorrect := schrage.correct hnonneg hlt
  generalize hs : 48271 * (x.toInt % 44488) = s at hlo hlo' hcorrect
  generalize ht : 3399 * (x.toInt / 44488) = t at hhi hhi' hcorrect
  obtain ⟨hmulLo, hsInt⟩ := mulI32_eq (ε := ε) (a := 48271) (b := x % 44488) (v := s)
    (by rw [toInt_lo hnonneg, ← hs]; rfl) ⟨by omega, by omega⟩
  obtain ⟨hmulHi, htInt⟩ := mulI32_eq (ε := ε) (a := 3399) (b := x / 44488) (v := t)
    (by rw [toInt_hi hnonneg, ← ht]; rfl) ⟨by omega, by omega⟩
  obtain ⟨hsub, hdiff⟩ := subI32_eq (ε := ε) (a := 48271 * (x % 44488)) (b := 3399 * (x / 44488))
    (v := s - t) (by rw [hsInt, htInt]) ⟨by omega, by omega⟩
  unfold seedRandChecked seedRand
  dsimp only
  rw [hmulLo, ok_bind, hmulHi, ok_bind, hsub, ok_bind]
  generalize 48271 * (x % 44488) - 3399 * (x / 44488) = d at hdiff
  have hneg : d < 0 ↔ s - t < 0 := by
    rw [Int32.lt_iff_toInt_lt, hdiff]
    rfl
  by_cases hlow : s - t < 0
  · obtain ⟨hadd, hsum⟩ := addI32_eq (ε := ε) (a := d) (b := 2147483647) (v := s - t + 2147483647)
      (by rw [hdiff]; rfl) ⟨by omega, by omega⟩
    simp_all
  · rw [if_neg (fun h => hlow (hneg.mp h)), if_neg (fun h => hlow (hneg.mp h)), hdiff]
    rw [if_neg hlow] at hcorrect
    exact ⟨rfl, hcorrect⟩

/-- The modulus is coprime to the multiplier, so that zero is not reached. -/
theorem SeedRange.seedRand (h : SeedRange x) : SeedRange (seedRand x) := by
  obtain ⟨-, hvalue⟩ := seedRandChecked_spec (ε := Unit) h
  obtain ⟨hpos, hle⟩ := h
  have hgcd : Int.gcd (2 ^ 31 - 1) 48271 = 1 := by decide
  have hlow := Schrage.emod_pos hgcd (x := x.toInt) (by omega) (by omega)
  have hhigh : 48271 * x.toInt % (2 ^ 31 - 1) < 2 ^ 31 - 1 := Int.emod_lt_of_pos _ (by decide)
  rw [← hvalue] at hlow hhigh
  exact ⟨by omega, by omega⟩

/-! ## The loop -/

/-- The seed is reduced to a number other than zero. -/
theorem seedRange_reduceSeed (seed : Int64) : SeedRange (RngSource.reduceSeed seed) := by
  have hmodulus : int32Max.toInt = 2147483647 := by decide
  have hmod : (seed % int32Max).toInt = seed.toInt.tmod 2147483647 := by
    rw [Int64.toInt_mod, hmodulus]
  have hlow := Int.lt_tmod_of_pos seed.toInt (by decide : (0 : Int) < 2147483647)
  have hhigh := Int.tmod_lt_of_pos seed.toInt (by decide : (0 : Int) < 2147483647)
  rw [← hmod] at hlow hhigh
  unfold RngSource.reduceSeed
  dsimp only
  generalize seed % int32Max = r at hlow hhigh
  -- a negative remainder is made positive
  have hpositive : 0 ≤ (if r < 0 then r + int32Max else r).toInt ∧
      (if r < 0 then r + int32Max else r).toInt < 2147483647 := by
    split
    · next hneg =>
      have hneg : r.toInt < 0 := Int64.lt_iff_toInt_lt.mp hneg
      rw [Int64.toInt_add, hmodulus, Int.bmod_eq_of_le (by omega) (by omega)]
      omega
    · next hnonneg =>
      have hnonneg : ¬ r.toInt < 0 := fun hneg => hnonneg (Int64.lt_iff_toInt_lt.mpr hneg)
      omega
  generalize (if r < 0 then r + int32Max else r) = s at hpositive
  -- zero is replaced
  have hrange : 1 ≤ (if s = 0 then 89482311 else s).toInt ∧
      (if s = 0 then 89482311 else s).toInt < 2147483647 := by
    split
    · decide
    · next hne =>
      have hne : s.toInt ≠ 0 := fun hzero => hne (Int64.toInt_inj.mp hzero)
      omega
  generalize (if s = 0 then 89482311 else s) = t at hrange
  have hword : t.toInt32.toInt = t.toInt := by
    rw [Int64.toInt_toInt32, Int.bmod_eq_of_le (by omega) (by omega)]
  exact ⟨by omega, by omega⟩

theorem SeedRange.iterate (h : SeedRange x) (k : Nat) : SeedRange (GoRng.seedRand^[k] x) := by
  induction k with
  | zero => exact h
  | succ k ih =>
    rw [Function.iterate_succ_apply']
    exact ih.seedRand

/-- What the loop of `RngSource::seed` has after the first 20 turns and `i` more. -/
def seedState (seed : Int64) (i : Nat) : Int32 × Vector Int64 607 :=
  (List.range i).foldl RngSource.seedStep
    ((List.range 20).foldl (fun x _ => seedRand x) (RngSource.reduceSeed seed),
      Vector.replicate 607 0)

theorem vec_new (seed : Int64) : (RngSource.new seed).vec = (seedState seed rngLen).2 := by
  simp only [RngSource.new, seedState]

/-- A turn for the register calls `seed_rand` three times. -/
theorem seedState_fst (seed : Int64) (i : Nat) :
    (seedState seed i).1 = seedRand^[20 + 3 * i] (RngSource.reduceSeed seed) := by
  induction i with
  | zero => rfl
  | succ i ih =>
    unfold seedState at ih ⊢
    rw [List.range_succ (n := i), List.foldl_append]
    show seedRand^[3] (List.foldl RngSource.seedStep _ (List.range i)).1 = _
    rw [ih, ← Function.iterate_add_apply]
    congr 1
    omega

theorem seedStepChecked_eq {state : Int32 × Vector Int64 607} (h : SeedRange state.1) (i : Nat) :
    (seedStepChecked state i : Outcome ε _) = .ok (RngSource.seedStep state i) ∧
      SeedRange (RngSource.seedStep state i).1 := by
  refine ⟨?_, h.seedRand.seedRand.seedRand⟩
  rw [seedStepChecked, (seedRandChecked_spec h).1, ok_bind, (seedRandChecked_spec h.seedRand).1,
    ok_bind, (seedRandChecked_spec h.seedRand.seedRand).1]
  rfl

theorem seedChecked_eq (seed : Int64) :
    (seedChecked seed : Outcome ε _) = .ok (seedState seed rngLen) := by
  have hfirst : (List.range 20).foldlM (fun x _ => (seedRandChecked x : Outcome ε Int32))
      (RngSource.reduceSeed seed)
      = .ok ((List.range 20).foldl (fun x _ => seedRand x) (RngSource.reduceSeed seed)) :=
    foldlM_eq_ok_foldl (P := SeedRange)
      (fun x _ hx => ⟨(seedRandChecked_spec hx).1, hx.seedRand⟩) _ (seedRange_reduceSeed seed)
  have hstart : SeedRange ((List.range 20).foldl (fun x _ => seedRand x)
      (RngSource.reduceSeed seed)) := by
    rw [List.foldl_const]
    exact (seedRange_reduceSeed seed).iterate _
  rw [seedChecked, hfirst, ok_bind]
  exact foldlM_eq_ok_foldl (P := fun state => SeedRange state.1)
    (fun state i hstate => seedStepChecked_eq hstate i) _ hstart

/-- **Seeding.**  `seed_rand` is the generator `48271 * x` modulo `2^31 - 1` and no operation of it
overflows.  All values of the loop are iterates of it, in its range, and a build with overflow checks
seeds the same register. -/
theorem seeding_exact :
    (∀ x, SeedRange x → (seedRandChecked x : Outcome ε Int32) = .ok (seedRand x) ∧
      (seedRand x).toInt = 48271 * x.toInt % (2 ^ 31 - 1) ∧ SeedRange (seedRand x)) ∧
    ∀ seed, (∀ k, SeedRange (seedRand^[k] (RngSource.reduceSeed seed))) ∧
      (∀ i, (seedState seed i).1 = seedRand^[20 + 3 * i] (RngSource.reduceSeed seed)) ∧
      (seedChecked seed : Outcome ε _) = .ok (seedState seed rngLen) ∧
      (RngSource.new seed).vec = (seedState seed rngLen).2 := by
  constructor
  · intro x hx
    obtain ⟨hchecked, hvalue⟩ := seedRandChecked_spec (ε := ε) hx
    exact ⟨hchecked, hvalue, hx.seedRand⟩
  · intro seed
    exact ⟨(seedRange_reduceSeed seed).iterate, seedState_fst seed, seedChecked_eq seed, vec_new seed⟩

theorem seeding_exact_one : (seedRandChecked 1 : Outcome Unit Int32) = .ok 48271 :=
  (seeding_exact.1 1 ⟨by decide, by decide⟩).1.trans (by decide)

end RethBsc.GoRng
