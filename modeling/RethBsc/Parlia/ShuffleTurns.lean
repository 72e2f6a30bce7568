import RethBsc.Parlia.Shuffle

/-!
# The turns of a shuffle

Which calls `Shuffle::shuffle` of `src/consensus/parlia/go_rng.rs` makes while it permutes a vector,
and what they return.

* `ShuffleTurns` is the run of the two loops with its turns written down;
  `exists_turns_of_shuffleFrom` says that a shuffle which returns has such a run.
* `ShuffleTurns.inBounds`: no turn has an index out of bounds.
* `ShuffleTurns.narrow`: from an index below `2^31 - 1` on, all turns draw with `int31n`, and each
  draw is in its range.
-/

namespace RethBsc.GoRng

open Rust Outcome

/-- A call that draws an index, with what it returned. -/
inductive IndexCall where
  | int63n (n j : Int64)
  | int31n (n j : Int32)

/-- The number returned, as a `usize`. -/
def IndexCall.index : IndexCall → Nat
  | .int63n _ j => j.toUInt64.toNat
  | .int31n _ j => j.toInt64.toUInt64.toNat

/-- One turn of the loops: the elements at `i` and at the index drawn are swapped. -/
structure ShuffleTurn where
  i : Nat
  call : IndexCall

variable {α : Type}

/-- The loops from index `i` down make these turns and leave `l'`. -/
inductive ShuffleTurns (fuel : Nat) :
    RngSource → List α → Nat → List ShuffleTurn → List α → Prop
  | done {rng : RngSource} {l : List α} : ShuffleTurns fuel rng l 0 [] l
  | int63n {rng rng' : RngSource} {l swapped l' : List α} {i : Nat} {turns : List ShuffleTurn}
      {j : Int64} (hi : i + 1 > 2 ^ 31 - 1 - 1)
      (hdraw : rng.int63n fuel (Int64.ofNat (i + 2)) = .ok (j, rng'))
      (hswap : swap l (i + 1) j.toUInt64.toNat = .ok swapped)
      (hrest : ShuffleTurns fuel rng' swapped i turns l') :
      ShuffleTurns fuel rng l (i + 1) (⟨i + 1, .int63n (Int64.ofNat (i + 2)) j⟩ :: turns) l'
  | int31n {rng rng' : RngSource} {l swapped l' : List α} {i : Nat} {turns : List ShuffleTurn}
      {j : Int32} (hi : ¬ i + 1 > 2 ^ 31 - 1 - 1)
      (hdraw : rng.int31n fuel (Int32.ofNat (i + 2)) = some (j, rng'))
      (hswap : swap l (i + 1) j.toInt64.toUInt64.toNat = .ok swapped)
      (hrest : ShuffleTurns fuel rng' swapped i turns l') :
      ShuffleTurns fuel rng l (i + 1) (⟨i + 1, .int31n (Int32.ofNat (i + 2)) j⟩ :: turns) l'

variable {fuel : Nat} {rng rng' : RngSource} {l l' : List α} {i j : Nat} {turns : List ShuffleTurn}

theorem exists_turns_of_shuffleFrom (h : shuffleFrom fuel rng l i = .ok l') :
    ∃ turns, ShuffleTurns fuel rng l i turns l' := by
  induction i generalizing rng l with
  | zero =>
    cases h
    exact ⟨[], .done⟩
  | succ i ih =>
    unfold shuffleFrom at h
    split at h
    · next hi =>
      obtain ⟨⟨j, rng'⟩, hdraw, h⟩ := bind_eq_ok.mp h
      obtain ⟨swapped, hswap, h⟩ := bind_eq_ok.mp h
      obtain ⟨turns, hrest⟩ := ih h
      exact ⟨_, .int63n hi hdraw hswap hrest⟩
    · next hi =>
      obtain ⟨⟨j, rng'⟩, hdraw, h⟩ := bind_eq_ok.mp h
      obtain ⟨swapped, hswap, h⟩ := bind_eq_ok.mp h
      obtain ⟨turns, hrest⟩ := ih h
      exact ⟨_, .int31n hi (okOr_eq_ok.mp hdraw) hswap hrest⟩

/-! ## Bounds -/

theorem lt_length_of_swap {swapped : List α} (h : swap l i j = .ok swapped) :
    i < l.length ∧ j < l.length := by
  grind [swap]

/-- Both indices of a turn are in the list. -/
def ShuffleTurn.InBounds (t : ShuffleTurn) (length : Nat) : Prop :=
  t.i < length ∧ t.call.index < length

/-- The swaps keep the length, so that the bounds are those of the list at the start. -/
theorem ShuffleTurns.inBounds (h : ShuffleTurns fuel rng l i turns l') :
    ∀ t ∈ turns, t.InBounds l.length := by
  induction h with
  | done => exact fun t ht => absurd ht List.not_mem_nil
  | int63n hi hdraw hswap hrest ih =>
    rw [(swap_perm hswap).length_eq] at ih
    exact List.forall_mem_cons.mpr ⟨lt_length_of_swap hswap, ih⟩
  | int31n hi hdraw hswap hrest ih =>
    rw [(swap_perm hswap).length_eq] at ih
    exact List.forall_mem_cons.mpr ⟨lt_length_of_swap hswap, ih⟩

/-- A number whose bits are below `2^31` is not negative. -/
theorem toInt_lt_of_index_lt {k : Nat} {j : Int32} (hk : k < 2 ^ 31)
    (h : j.toInt64.toUInt64.toNat < k) : 0 ≤ j.toInt ∧ j.toInt < k := by
  have hint : j.toInt64.toInt = j.toInt64.toUInt64.toNat :=
    BitVec.toInt_eq_toNat_of_lt (show 2 * j.toInt64.toUInt64.toNat < 2 ^ 64 by omega)
  rw [Int32.toInt_toInt64] at hint
  omega

/-- The call is one of `int31n` with a positive bound, and its result is from 0 up to the bound. -/
def IndexCall.InRange (call : IndexCall) : Prop :=
  ∃ n j : Int32, call = .int31n n j ∧ 0 < n ∧ 0 ≤ j ∧ j < n

theorem inRange_of_int31n {k : Nat} {j : Int32} (hpos : 0 < k) (hk : k < 2 ^ 31)
    (h : rng.int31n fuel (Int32.ofNat k) = some (j, rng')) :
    (IndexCall.int31n (Int32.ofNat k) j).InRange := by
  have hbound : (Int32.ofNat k).toInt = k := Int32.toInt_ofNat_of_lt hk
  obtain ⟨hnonneg, hlt⟩ := toInt_lt_of_index_lt hk (RngSource.int31n_lt hpos hk h)
  refine ⟨_, j, rfl, Int32.lt_iff_toInt_lt.mpr ?_, Int32.le_iff_toInt_le.mpr hnonneg,
    Int32.lt_iff_toInt_lt.mpr ?_⟩
  · rw [hbound]
    exact Int.natCast_pos.mpr hpos
  · rwa [hbound]

/-- The first loop is for indices that a vector of less than `2^31` elements does not have. -/
theorem ShuffleTurns.narrow (h : ShuffleTurns fuel rng l i turns l') (hi : i < 2 ^ 31 - 1) :
    ∀ t ∈ turns, t.call.InRange := by
  induction h with
  | done => exact fun t ht => absurd ht List.not_mem_nil
  | int63n hwide hdraw hswap hrest ih => omega
  | int31n hnarrow hdraw hswap hrest ih =>
    exact List.forall_mem_cons.mpr ⟨inRange_of_int31n (by omega) (by omega) hdraw, ih (by omega)⟩

/-- **The shuffle.**  It does not panic.  What it returns is a permutation of the vector, made by
turns whose indices are in bounds and whose draws are in range. -/
theorem shuffle_turns (fuel : Nat) (rng : RngSource) {l : List α} (hlength : l.length ≤ 2 ^ 31 - 1) :
    (shuffle fuel rng l).Returns ∧ ∀ l', shuffle fuel rng l = .ok l' → l'.Perm l ∧
      (∃ turns, ShuffleTurns fuel rng l (l.length - 1) turns l') ∧
      ∀ turns, ShuffleTurns fuel rng l (l.length - 1) turns l' →
        ∀ t ∈ turns, t.InBounds l.length ∧ t.call.InRange := by
  refine ⟨shuffle_returns (by omega), fun l' h => ⟨shuffle_perm h, ?_, fun turns hturns t ht =>
    ⟨hturns.inBounds t ht, hturns.narrow (by omega) t ht⟩⟩⟩
  unfold shuffle at h
  split at h
  · next hnil =>
    cases h
    rw [hnil]
    exact ⟨[], .done⟩
  · exact exists_turns_of_shuffleFrom h

theorem shuffle_turns_pair :
    ∃ l', shuffle 0 (.new 51) [10, 20] = .ok l' ∧ l'.Perm [10, 20] ∧
      ∃ turns, ShuffleTurns 0 (.new 51) [10, 20] 1 turns l' ∧
        ∀ t ∈ turns, t.InBounds 2 ∧ t.call.InRange := by
  obtain ⟨l', h⟩ := shuffle_pair_eq_ok 0 (.new 51) 10 20
  obtain ⟨hperm, ⟨turns, hturns⟩, hall⟩ := (shuffle_turns 0 (.new 51) (by decide)).2 l' h
  exact ⟨l', h, hperm, turns, hturns, hall turns hturns⟩

end RethBsc.GoRng
