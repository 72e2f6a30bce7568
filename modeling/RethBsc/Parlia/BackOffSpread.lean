import Mathlib.Data.List.Nodup
import RethBsc.Parlia.BackOff
import RethBsc.Parlia.Schedule
import RethBsc.Parlia.Shuffle

/-!
# Back-off times keep proposers apart

Each validator computes its own back-off time.  All of them shuffle the same steps with the same
seed, so that no two get the same step, and steps are a second apart.

* `BackOff`, `backOffTime_eq_ok`: how a back-off time comes about.
* `backOffOfStep_spaced`: larger steps wait a second longer, in each of the two ways of counting.
* `delayOf`: the time of every proposer at once, with `delayOf_spaced` for any two of them.
* **`backOff_separated`**: the times of any two validators that may propose.
-/

namespace RethBsc

open Rust Outcome

/-! ## Waiting for a step -/

namespace Parlia

/-- The largest step.  More addresses, of 20 bytes each, do not fit in the 57 bits that a pointer
can address. -/
def maxSteps : Nat := 2 ^ 54

section Step

variable {isParentLorentz : Bool} {delay step step' : UInt64}

theorem toNat_backOffOfStep (hdelay : delay.toNat ≤ 2000) (hstep : step.toNat ≤ maxSteps) :
    (backOffOfStep isParentLorentz delay step).toNat = if delay = 0 ∧ isParentLorentz = true then
        if step.toNat = 0 then 0 else 2000 + (step.toNat - 1) * 1000
      else delay.toNat + step.toNat * 1000 := by
  unfold maxSteps at hstep
  unfold backOffOfStep backoffTimeOfWiggle lorentzBackoffTimeOfInitial
  split
  · by_cases hzero : step = 0
    · rw [if_pos hzero, if_pos (by rw [hzero]; rfl)]
      rfl
    · have hne : step.toNat ≠ 0 := fun h => hzero (UInt64.toNat_inj.mp h)
      have hpred : (step - 1).toNat = step.toNat - 1 := by
        rw [UInt64.toNat_sub_of_le]
        · rfl
        · rw [UInt64.le_iff_toNat_le]
          simp only [UInt64.reduceToNat]
          omega
      rw [if_neg hzero, if_neg hne, UInt64.toNat_add, UInt64.toNat_mul, hpred]
      simp only [UInt64.reduceToNat]
      omega
  · rw [UInt64.toNat_add, UInt64.toNat_mul]
    simp only [UInt64.reduceToNat]
    omega

theorem backOffOfStep_spaced (hdelay : delay.toNat ≤ 2000) (hstep : step'.toNat ≤ maxSteps)
    (hlt : step.toNat < step'.toNat) :
    (backOffOfStep isParentLorentz delay step).toNat + 1000
      ≤ (backOffOfStep isParentLorentz delay step').toNat := by
  rw [toNat_backOffOfStep hdelay (by omega), toNat_backOffOfStep hdelay hstep]
  split
  · rw [if_neg (show step'.toNat ≠ 0 by omega)]
    split <;> omega
  · omega

theorem le_backOffOfStep (hdelay : delay.toNat ≤ 2000) (hpos : 1000 ≤ delay.toNat)
    (hstep : step.toNat ≤ maxSteps) :
    1000 ≤ (backOffOfStep isParentLorentz delay step).toNat := by
  have hne : delay ≠ 0 := by
    rintro rfl
    exact absurd hpos (by decide)
  rw [toNat_backOffOfStep hdelay hstep, if_neg fun h => hne h.1]
  omega

end Step

/-! ## The back-off time of a validator -/

variable {ε : Type} (p : Parlia) (snap : Snapshot) (header : Header)

/-- The validators that a back-off time is asked for. -/
structure MayPropose (v : Address) : Prop where
  mem : v ∈ snap.validators
  notRecent : p.spec.isPlanckActiveAtBlock header.number = true → snap.signRecently v = false

/-- The validators that wait for a step, if `inturn` is in turn. -/
def waiting (inturn : Address) : List Address :=
  if p.spec.isPlanckActiveAtBlock header.number then
    snap.validators.filter fun v => !(snap.signRecently v ||
      (p.spec.isBohrActiveAtTimestamp header.number header.timestamp && v == inturn))
  else snap.validators

/-- The delay of step 0. -/
def firstDelay (parent : Header) (inturn : Address) : UInt64 :=
  if p.spec.isPlanckActiveAtBlock header.number && snap.signRecently inturn then 0
  else if p.spec.isLorentzActiveAtTimestamp parent.number parent.timestamp then
    lorentzBackoffTimeOfInitial
  else backoffTimeOfInitial

/-- The shuffled steps.  The proposer of the header is not read, so that every validator gets the
same. -/
def backOffSteps (fuel : Nat) : Outcome Unit (List UInt64) := do
  let (_, validators) ← p.backOffCandidates snap header 0
  let seed ← p.backOffSeed snap header
  GoRng.shuffle fuel (GoRng.RngSource.new seed) ((List.range validators.length).map UInt64.ofNat)

variable {p snap header} {inturn v w : Address}

theorem backOffCandidates_eq (hinturn : (snap.inturnValidator : Outcome ε Address) = .ok inturn)
    (delay : UInt64) :
    (p.backOffCandidates snap header delay : Outcome ε _) =
      .ok (if p.spec.isPlanckActiveAtBlock header.number && snap.signRecently inturn then 0
        else delay, p.waiting snap header inturn) := by
  unfold backOffCandidates waiting
  cases p.spec.isPlanckActiveAtBlock header.number with
  | true =>
    rw [if_pos rfl, if_pos rfl, hinturn, ok_bind, Bool.true_and]
    rfl
  | false => rfl

theorem length_waiting_le : (p.waiting snap header inturn).length ≤ snap.validators.length := by
  grind [waiting]

theorem MayPropose.recent_eq_false (h : p.MayPropose snap header v) :
    (p.spec.isPlanckActiveAtBlock header.number && snap.signRecently v) = false := by
  cases hplanck : p.spec.isPlanckActiveAtBlock header.number with
  | true => exact h.notRecent hplanck
  | false => rfl

/-- Whoever may propose and is not in turn waits. -/
theorem MayPropose.mem_waiting (h : p.MayPropose snap header v) (hne : v ≠ inturn) :
    v ∈ p.waiting snap header inturn := by
  unfold waiting
  split
  · next hplanck =>
    refine List.mem_filter.mpr ⟨h.mem, ?_⟩
    rw [h.notRecent hplanck, beq_eq_false_iff_ne.mpr hne, Bool.and_false]
    rfl
  · exact h.mem

variable {fuel : Nat} {steps : List UInt64}

/-- How a back-off time comes about. -/
inductive BackOff (p : Parlia) (fuel : Nat) (snap : Snapshot) (parent header : Header) :
    UInt64 → Prop
  | inturn (hinturn : (snap.inturnValidator : Outcome Unit Address) = .ok header.beneficiary) :
      BackOff p fuel snap parent header 0
  | recent {inturn : Address}
      (hinturn : (snap.inturnValidator : Outcome Unit Address) = .ok inturn)
      (hrecent : (p.spec.isPlanckActiveAtBlock header.number &&
        snap.signRecently header.beneficiary) = true) :
      BackOff p fuel snap parent header 0
  | waits {inturn : Address} {steps : List UInt64} {i : Nat} {step : UInt64}
      (hinturn : (snap.inturnValidator : Outcome Unit Address) = .ok inturn)
      (hne : inturn ≠ header.beneficiary)
      (hrecent : (p.spec.isPlanckActiveAtBlock header.number &&
        snap.signRecently header.beneficiary) = false)
      (hsteps : p.backOffSteps snap header fuel = .ok steps)
      (hi : (p.waiting snap header inturn).findIdx? (· == header.beneficiary) = some i)
      (hstep : steps[i]? = some step) :
      BackOff p fuel snap parent header (backOffOfStep
        (p.spec.isLorentzActiveAtTimestamp parent.number parent.timestamp)
        (p.firstDelay snap header parent inturn) step)
  -- not a validator
  | unknown {inturn : Address} {steps : List UInt64}
      (hinturn : (snap.inturnValidator : Outcome Unit Address) = .ok inturn)
      (hne : inturn ≠ header.beneficiary)
      (hrecent : (p.spec.isPlanckActiveAtBlock header.number &&
        snap.signRecently header.beneficiary) = false)
      (hsteps : p.backOffSteps snap header fuel = .ok steps)
      (hi : (p.waiting snap header inturn).findIdx? (· == header.beneficiary) = none) :
      BackOff p fuel snap parent header 0

/-- The functions that cannot fail do so whatever the errors are. -/
theorem inturnValidator_ok {ε ε' : Type}
    (h : (snap.inturnValidator : Outcome ε Address) = .ok inturn) :
    (snap.inturnValidator : Outcome ε' Address) = .ok inturn := by
  unfold Snapshot.inturnValidator at h ⊢
  dsimp only at h ⊢
  split at h
  · exact nomatch h
  · next hzero =>
    rw [if_neg hzero]
    exact unwrap_eq_ok.mpr (unwrap_eq_ok.mp h)

/-- The steps are those of a seed. -/
theorem backOffSteps_eq_ok (hinturn : (snap.inturnValidator : Outcome Unit Address) = .ok inturn) :
    p.backOffSteps snap header fuel = .ok steps ↔
      ∃ seed, (p.backOffSeed snap header : Outcome Unit Int64) = .ok seed ∧
        GoRng.shuffle fuel (GoRng.RngSource.new seed)
          ((List.range (p.waiting snap header inturn).length).map UInt64.ofNat) = .ok steps := by
  rw [backOffSteps, backOffCandidates_eq hinturn, ok_bind]
  exact bind_eq_ok

/-- The back-off time once the validator in turn is known. -/
theorem backOffTime_eq (outOfFuel : ε) (parent : Header)
    (hinturn : (snap.inturnValidator : Outcome Unit Address) = .ok inturn) :
    p.backOffTime outOfFuel fuel snap parent header = if inturn = header.beneficiary then .ok 0
      else if p.spec.isPlanckActiveAtBlock header.number &&
        snap.signRecently header.beneficiary then .ok 0
      else (p.backOffSteps snap header fuel).mapErr (fun _ => outOfFuel) >>= fun steps =>
        match (p.waiting snap header inturn).findIdx? (· == header.beneficiary) with
        | some i => unwrap steps[i]? >>= fun step =>
          .ok (backOffOfStep (p.spec.isLorentzActiveAtTimestamp parent.number parent.timestamp)
            (p.firstDelay snap header parent inturn) step)
        | none => .ok 0 := by
  have hinturn' : (snap.inturnValidator : Outcome ε Address) = .ok inturn :=
    inturnValidator_ok hinturn
  unfold backOffTime Snapshot.isInturn backOffSteps
  simp only [hinturn', backOffCandidates_eq hinturn, backOffCandidates_eq hinturn',
    ok_bind, pure_eq, beq_iff_eq]
  refine if_congr .rfl rfl (if_congr .rfl rfl ?_)
  -- the seed is found in both, or panics in both
  unfold backOffSeed
  dsimp only
  split
  · split
    · rfl
    · rfl
  · rfl

variable {b : UInt64} {parent : Header}

/-- The back-off is defined exactly where `BackOff` relates it to the snapshot, by the same four
cases. -/
theorem backOffTime_eq_ok {outOfFuel : ε} :
    p.backOffTime outOfFuel fuel snap parent header = .ok b ↔
      BackOff p fuel snap parent header b := by
  constructor
  · intro h
    -- a delay is computed only if some validator is in turn
    obtain ⟨inturn, hinturn⟩ : ∃ inturn, (snap.inturnValidator : Outcome Unit Address)
        = .ok inturn := by
      unfold backOffTime Snapshot.isInturn at h
      obtain ⟨_, hisInturn, _⟩ := bind_eq_ok.mp h
      obtain ⟨inturn, hinturn, _⟩ := bind_eq_ok.mp hisInturn
      exact ⟨inturn, inturnValidator_ok hinturn⟩
    rw [backOffTime_eq outOfFuel parent hinturn] at h
    split at h
    · next heq =>
      cases h
      exact .inturn (heq ▸ hinturn)
    · next hne =>
      split at h
      · next hrecent =>
        cases h
        exact .recent hinturn hrecent
      · next hrecent =>
        have hrecent := Bool.eq_false_iff.mpr hrecent
        -- the shuffled delays, and the place of the signer in them
        obtain ⟨steps, hsteps, h⟩ := bind_eq_ok.mp h
        have hsteps := mapErr_eq_ok.mp hsteps
        split at h
        · next i hi =>
          obtain ⟨step, hstep, h⟩ := bind_eq_ok.mp h
          cases h
          exact .waits hinturn hne hrecent hsteps hi (unwrap_eq_ok.mp hstep)
        · next hi =>
          cases h
          exact .unknown hinturn hne hrecent hsteps hi
  · intro h
    cases h with
    | inturn hinturn => rw [backOffTime_eq outOfFuel parent hinturn, if_pos rfl]
    | recent hinturn hrecent =>
      rw [backOffTime_eq outOfFuel parent hinturn, if_pos hrecent, ite_self]
    | waits hinturn hne hrecent hsteps hi hstep =>
      rw [backOffTime_eq outOfFuel parent hinturn, if_neg hne, hrecent, hsteps, hi]
      simp only [Bool.false_eq_true, if_false, mapErr, ok_bind, hstep, unwrap_some]
    | unknown hinturn hne hrecent hsteps hi =>
      rw [backOffTime_eq outOfFuel parent hinturn, if_neg hne, hrecent, hsteps, hi]
      rfl

/-! ## The steps -/

theorem perm_steps (hinturn : (snap.inturnValidator : Outcome Unit Address) = .ok inturn)
    (hsteps : p.backOffSteps snap header fuel = .ok steps) :
    steps.Perm ((List.range (p.waiting snap header inturn).length).map UInt64.ofNat) := by
  obtain ⟨seed, -, hshuffle⟩ := (backOffSteps_eq_ok hinturn).mp hsteps
  exact GoRng.shuffle_perm hshuffle

theorem toNat_lt_of_mem_range {n : Nat} {step : UInt64}
    (h : step ∈ (List.range n).map UInt64.ofNat) : step.toNat < n := by
  obtain ⟨k, hk, rfl⟩ := List.mem_map.mp h
  simp_all
  omega

theorem nodup_range_ofNat {n : Nat} (hn : n ≤ maxSteps) :
    ((List.range n).map UInt64.ofNat).Nodup := by
  refine List.Nodup.map_on (fun a ha b hb hab => ?_) List.nodup_range
  have halt := List.mem_range.mp ha
  have hblt := List.mem_range.mp hb
  unfold maxSteps at hn
  rwa [← UInt64.toNat_inj, UInt64.toNat_ofNat_of_lt' (show a < 2 ^ 64 by omega),
    UInt64.toNat_ofNat_of_lt' (show b < 2 ^ 64 by omega)] at hab

/-- The step of a waiting validator is the one at its place. -/
def stepOf (steps : List UInt64) (waiting : List Address) (v : Address) : UInt64 :=
  steps[waiting.idxOf v]?.getD 0

section Steps

variable {waiting : List Address}
  (hsteps : steps.Perm ((List.range waiting.length).map UInt64.ofNat))
include hsteps

theorem getElem?_stepOf (hv : v ∈ waiting) :
    steps[waiting.idxOf v]? = some (stepOf steps waiting v) := by
  have hlt : waiting.idxOf v < steps.length := by
    rw [hsteps.length_eq, List.length_map, List.length_range]
    exact List.idxOf_lt_length_iff.mpr hv
  rw [stepOf, List.getElem?_eq_getElem hlt, Option.getD_some]

theorem toNat_stepOf_lt (hv : v ∈ waiting) :
    (stepOf steps waiting v).toNat < waiting.length :=
  toNat_lt_of_mem_range (hsteps.mem_iff.mp (List.mem_of_getElem? (getElem?_stepOf hsteps hv)))

/-- No two validators wait for the same step. -/
theorem toNat_stepOf_ne (hlength : waiting.length ≤ maxSteps) (hv : v ∈ waiting) (hw : w ∈ waiting)
    (hne : v ≠ w) : (stepOf steps waiting v).toNat ≠ (stepOf steps waiting w).toNat := by
  intro hsame
  have hnodup : steps.Nodup := hsteps.nodup_iff.mpr (nodup_range_ofNat hlength)
  have hstepv := getElem?_stepOf hsteps hv
  obtain ⟨hlt, -⟩ := List.getElem?_eq_some_iff.mp hstepv
  rw [UInt64.toNat_inj.mp hsame, ← getElem?_stepOf hsteps hw] at hstepv
  exact hne ((List.idxOf_inj hv).mp ((List.getElem?_inj hlt hnodup).mp hstepv))

end Steps

theorem toNat_firstDelay_le (parent : Header) :
    (p.firstDelay snap header parent inturn).toNat ≤ 2000 := by
  unfold firstDelay
  split
  · exact Nat.zero_le _
  · split
    · exact Nat.le_refl _
    · decide

/-- The first delay is not waived for a validator in turn that may propose. -/
theorem le_toNat_firstDelay (parent : Header) (h : p.MayPropose snap header inturn) :
    1000 ≤ (p.firstDelay snap header parent inturn).toNat := by
  rw [firstDelay, h.recent_eq_false, if_neg Bool.false_ne_true]
  split
  · decide
  · exact Nat.le_refl _

/-! ## Any proposer -/

/-- Of the header only the proposer, the number and whether Bohr is active count. -/
theorem BackOff.congr {header' : Header}
    (h : BackOff p fuel snap parent header b) (hproposer : header'.beneficiary = header.beneficiary)
    (hnumber : header'.number = header.number)
    (hbohr : p.spec.isBohrActiveAtTimestamp header'.number header'.timestamp
      = p.spec.isBohrActiveAtTimestamp header.number header.timestamp) :
    BackOff p fuel snap parent header' b := by
  have hwaiting : ∀ inturn, p.waiting snap header' inturn = p.waiting snap header inturn := by
    intro inturn
    unfold waiting
    rw [hbohr, hnumber]
  have hdelay : ∀ inturn, p.firstDelay snap header' parent inturn
      = p.firstDelay snap header parent inturn := by
    intro inturn
    unfold firstDelay
    rw [hnumber]
  have hsame : p.backOffSteps snap header' fuel = p.backOffSteps snap header fuel := by
    unfold backOffSteps backOffCandidates backOffSeed
    rw [hbohr, hnumber]
  cases h with
  | inturn hinturn => exact .inturn (hproposer ▸ hinturn)
  | recent hinturn hrecent => exact .recent hinturn (by rw [hnumber, hproposer]; exact hrecent)
  | waits hinturn hne hrecent hsteps hi hstep =>
    rw [← hdelay]
    exact .waits hinturn (hproposer ▸ hne) (by rw [hnumber, hproposer]; exact hrecent)
      (hsame.trans hsteps) (by rw [hwaiting, hproposer]; exact hi) hstep
  | unknown hinturn hne hrecent hsteps hi =>
    exact .unknown hinturn (hproposer ▸ hne) (by rw [hnumber, hproposer]; exact hrecent)
      (hsame.trans hsteps) (by rw [hwaiting, hproposer]; exact hi)

/-- Back-off times are whole seconds and do not wrap. -/
theorem BackOff.bounded (h : BackOff p fuel snap parent header b)
    (hlength : snap.validators.length ≤ maxSteps) :
    b.toNat % 1000 = 0 ∧ b.toNat ≤ 2000 + maxSteps * 1000 := by
  cases h with
  | inturn => exact ⟨rfl, Nat.zero_le _⟩
  | recent => exact ⟨rfl, Nat.zero_le _⟩
  | @waits inturn steps i step hinturn hne hrecent hsteps hi hstep =>
    have hcount : (p.waiting snap header inturn).length ≤ maxSteps :=
      Nat.le_trans length_waiting_le hlength
    have hmem := (perm_steps hinturn hsteps).mem_iff.mp (List.mem_of_getElem? hstep)
    have hlt : step.toNat < _ := toNat_lt_of_mem_range hmem
    have hdelay : (p.firstDelay snap header parent inturn).toNat % 1000 = 0 := by
      unfold firstDelay
      split
      · rfl
      · split <;> rfl
    have hdelay' : (p.firstDelay snap header parent inturn).toNat ≤ 2000 :=
      toNat_firstDelay_le parent
    rw [toNat_backOffOfStep hdelay' (by omega)]
    split
    · split <;> omega
    · omega
  | unknown => exact ⟨rfl, Nat.zero_le _⟩

/-- If the shuffle returns, everybody has a back-off time. -/
theorem exists_backOff (parent : Header)
    (hinturn : (snap.inturnValidator : Outcome Unit Address) = .ok inturn)
    (hsteps : p.backOffSteps snap header fuel = .ok steps) :
    ∃ b, BackOff p fuel snap parent header b := by
  by_cases hne : inturn = header.beneficiary
  · exact ⟨0, .inturn (hne ▸ hinturn)⟩
  · cases hrecent : p.spec.isPlanckActiveAtBlock header.number &&
      snap.signRecently header.beneficiary with
    | true => exact ⟨0, .recent hinturn hrecent⟩
    | false =>
      cases hi : (p.waiting snap header inturn).findIdx? (· == header.beneficiary) with
      | none => exact ⟨0, .unknown hinturn hne hrecent hsteps hi⟩
      | some i =>
        have hlt : i < steps.length := by
          rw [(perm_steps hinturn hsteps).length_eq, List.length_map, List.length_range]
          exact (List.findIdx?_eq_some_iff_findIdx_eq.mp hi).1
        exact ⟨_, .waits hinturn hne hrecent hsteps hi (List.getElem?_eq_getElem hlt)⟩

/-- Drawing for ever is the only way not to return. -/
theorem backOffSteps_returns (hturns : 1 ≤ snap.turns) (hlength : snap.validators.length ≤ maxSteps)
    (hinturn : (snap.inturnValidator : Outcome Unit Address) = .ok inturn) :
    (p.backOffSteps snap header fuel).Returns := by
  have hseed : (p.backOffSeed snap header : Outcome Unit Int64).Returns := by
    have hne : snap.turnLength.getD defaultTurnLength ≠ 0 := by
      intro h
      have hzero : snap.turns = 0 := congrArg UInt8.toNat h
      omega
    unfold backOffSeed
    dsimp only
    rw [if_neg hne]
    split
    · exact returns_ok _
    · exact returns_ok _
  rw [backOffSteps, backOffCandidates_eq hinturn, ok_bind]
  refine returns_bind.mpr ⟨hseed, fun seed _ => GoRng.shuffle_returns ?_⟩
  have hcount : (p.waiting snap header inturn).length ≤ snap.validators.length := length_waiting_le
  grind [maxSteps]

/-! ## The delays of all proposers -/

variable (p snap header steps) in
/-- The delay of a proposer: none for the validator in turn, and for the others that of their
step. -/
def delayOf (parent : Header) (inturn v : Address) : UInt64 :=
  if v = inturn then 0
  else backOffOfStep (p.spec.isLorentzActiveAtTimestamp parent.number parent.timestamp)
    (p.firstDelay snap header parent inturn) (stepOf steps (p.waiting snap header inturn) v)

section Delays

variable {parent : Header} (hinturn : (snap.inturnValidator : Outcome Unit Address) = .ok inturn)
  (hsteps : p.backOffSteps snap header fuel = .ok steps)
include hinturn hsteps

theorem backOffTime_eq_delayOf (outOfFuel : ε) (hv : p.MayPropose snap header v) :
    p.backOffTime outOfFuel fuel snap parent { header with beneficiary := v }
      = .ok (p.delayOf snap header steps parent inturn v) := by
  refine backOffTime_eq_ok.mpr ?_
  unfold delayOf
  split
  · next heq => exact .inturn (heq ▸ hinturn)
  · next hne =>
    have hwaits := hv.mem_waiting hne
    have hplace := List.findIdx?_eq_some_iff_findIdx_eq.mpr
      ⟨List.idxOf_lt_length_iff.mpr hwaits, rfl⟩
    exact .waits hinturn (Ne.symm hne) hv.recent_eq_false hsteps hplace
      (getElem?_stepOf (perm_steps hinturn hsteps) hwaits)

variable (hlength : snap.validators.length ≤ maxSteps)
include hlength

theorem toNat_stepOf_le (hv : p.MayPropose snap header v) (hne : v ≠ inturn) :
    (stepOf steps (p.waiting snap header inturn) v).toNat ≤ maxSteps := by
  have hcount : (p.waiting snap header inturn).length ≤ maxSteps :=
    Nat.le_trans length_waiting_le hlength
  have hlt := toNat_stepOf_lt (perm_steps hinturn hsteps) (hv.mem_waiting hne)
  exact Nat.le_trans (Nat.le_of_lt hlt) hcount

/-- Next to the validator in turn everybody waits. -/
theorem le_toNat_delayOf (hmay : p.MayPropose snap header inturn)
    (hv : p.MayPropose snap header v) (hne : v ≠ inturn) :
    1000 ≤ (p.delayOf snap header steps parent inturn v).toNat := by
  rw [delayOf, if_neg hne]
  exact le_backOffOfStep (toNat_firstDelay_le parent) (le_toNat_firstDelay parent hmay)
    (toNat_stepOf_le hinturn hsteps hlength hv hne)

theorem delayOf_spaced (hv : p.MayPropose snap header v) (hw : p.MayPropose snap header w)
    (hne : v ≠ w) :
    (p.delayOf snap header steps parent inturn v).toNat + 1000
        ≤ (p.delayOf snap header steps parent inturn w).toNat ∨
      (p.delayOf snap header steps parent inturn w).toNat + 1000
        ≤ (p.delayOf snap header steps parent inturn v).toNat := by
  have hzero : (p.delayOf snap header steps parent inturn inturn).toNat = 0 := by
    rw [delayOf, if_pos rfl]
    rfl
  by_cases hvin : v = inturn
  · subst hvin
    rw [hzero, Nat.zero_add]
    exact .inl (le_toNat_delayOf hinturn hsteps hlength hv hw (Ne.symm hne))
  by_cases hwin : w = inturn
  · subst hwin
    rw [hzero, Nat.zero_add]
    exact .inr (le_toNat_delayOf hinturn hsteps hlength hw hv hne)
  -- neither is in turn: they wait for different steps
  have hcount : (p.waiting snap header inturn).length ≤ maxSteps :=
    Nat.le_trans length_waiting_le hlength
  have hdifferent := toNat_stepOf_ne (perm_steps hinturn hsteps) hcount (hv.mem_waiting hvin)
    (hw.mem_waiting hwin) hne
  have hdelay : (p.firstDelay snap header parent inturn).toNat ≤ 2000 := toNat_firstDelay_le parent
  unfold delayOf
  rw [if_neg hvin, if_neg hwin]
  rcases Nat.lt_or_gt_of_ne hdifferent with hlt | hlt
  · exact .inl (backOffOfStep_spaced hdelay
      (toNat_stepOf_le hinturn hsteps hlength hw hwin) hlt)
  · exact .inr (backOffOfStep_spaced hdelay
      (toNat_stepOf_le hinturn hsteps hlength hv hvin) hlt)

end Delays

/-- **Proposers are a second apart.**  The headers differ in their proposer only.  Before Planck
every validator may propose, from then on those that have not signed recently; if the shuffle
returns, so does each of their calls.  The validator in turn, if it is one of them, does not wait,
and everybody else waits for at least a second. -/
theorem backOff_separated (p : Parlia) (snap : Snapshot) (parent header : Header) (outOfFuel : ε)
    (fuel : Nat) (steps : List UInt64) (hturns : 1 ≤ snap.turns)
    (hlength : snap.validators.length ≤ maxSteps)
    (hsteps : p.backOffSteps snap header fuel = .ok steps) :
    ∃ delay : Address → UInt64, (∀ v, p.MayPropose snap header v →
        p.backOffTime outOfFuel fuel snap parent { header with beneficiary := v }
          = .ok (delay v)) ∧
      (∀ v w, p.MayPropose snap header v → p.MayPropose snap header w → v ≠ w →
        (delay v).toNat + 1000 ≤ (delay w).toNat ∨ (delay w).toNat + 1000 ≤ (delay v).toNat) ∧
      (∀ v, (snap.inturnValidator : Outcome Unit Address) = .ok v → p.MayPropose snap header v →
        delay v = 0 ∧ ∀ w, p.MayPropose snap header w → w ≠ v → 1000 ≤ (delay w).toNat) := by
  by_cases hempty : snap.validators = []
  · -- nobody may propose
    have hnobody : ∀ v, ¬ p.MayPropose snap header v := by
      intro v h
      have hmem := h.mem
      rw [hempty] at hmem
      exact absurd hmem List.not_mem_nil
    exact ⟨fun _ => 0, fun v h => absurd h (hnobody v), fun v _ h => absurd h (hnobody v),
      fun v _ h => absurd h (hnobody v)⟩
  · obtain ⟨inturn, -, hplace⟩ := Snapshot.exists_inturn hempty (snap.blockNumber + 1).toNat
    have hinturn : (snap.inturnValidator : Outcome Unit Address) = .ok inturn :=
      (Snapshot.inturnValidator_eq_ok hturns).mpr hplace
    refine ⟨p.delayOf snap header steps parent inturn,
      fun v hv => backOffTime_eq_delayOf hinturn hsteps outOfFuel hv,
      fun v w hv hw hne => delayOf_spaced hinturn hsteps hlength hv hw hne, fun v hv hmay => ?_⟩
    obtain rfl := ok.inj (hinturn.symm.trans hv)
    exact ⟨if_pos rfl, fun w hw hne => le_toNat_delayOf hinturn hsteps hlength hmay hw hne⟩

/-- Two validators before Planck, the second in turn. -/
theorem backOff_separated_pair :
    ∃ delay : Address → UInt64,
      (Parlia.ofSpec bohrSpec).backOffTime () 0 (Snapshot.pairSnapshot 0 ∅)
        (Snapshot.emptyHeader 0)
        { Snapshot.emptyHeader 1 with beneficiary := Snapshot.nthValidator 1 }
          = .ok (delay (Snapshot.nthValidator 1)) ∧
      delay (Snapshot.nthValidator 2) = 0 ∧ 1000 ≤ (delay (Snapshot.nthValidator 1)).toNat := by
  obtain ⟨steps, hsteps⟩ : ∃ steps, (Parlia.ofSpec bohrSpec).backOffSteps
      (Snapshot.pairSnapshot 0 ∅) (Snapshot.emptyHeader 1) 0 = .ok steps := by
    have hinturn : ((Snapshot.pairSnapshot 0 ∅).inturnValidator : Outcome Unit Address)
        = .ok (Snapshot.nthValidator 2) := by decide +kernel
    have hwaiting : (Parlia.ofSpec bohrSpec).waiting (Snapshot.pairSnapshot 0 ∅)
        (Snapshot.emptyHeader 1) (Snapshot.nthValidator 2)
          = [Snapshot.nthValidator 1, Snapshot.nthValidator 2] := by decide +kernel
    have hseed : ((Parlia.ofSpec bohrSpec).backOffSeed (Snapshot.pairSnapshot 0 ∅)
        (Snapshot.emptyHeader 1) : Outcome Unit Int64) = .ok 1 := by decide +kernel
    rw [backOffSteps, backOffCandidates_eq hinturn, ok_bind, hwaiting]
    dsimp only
    rw [hseed, ok_bind]
    exact GoRng.shuffle_pair_eq_ok 0 _ 0 1
  have hfirst : (Parlia.ofSpec bohrSpec).MayPropose (Snapshot.pairSnapshot 0 ∅)
      (Snapshot.emptyHeader 1) (Snapshot.nthValidator 1) :=
    ⟨by decide +kernel, fun _ => by decide +kernel⟩
  have hsecond : (Parlia.ofSpec bohrSpec).MayPropose (Snapshot.pairSnapshot 0 ∅)
      (Snapshot.emptyHeader 1) (Snapshot.nthValidator 2) :=
    ⟨by decide +kernel, fun _ => by decide +kernel⟩
  obtain ⟨delay, hdelay, -, hinturn⟩ := backOff_separated (Parlia.ofSpec bohrSpec)
    (Snapshot.pairSnapshot 0 ∅) (Snapshot.emptyHeader 0) (Snapshot.emptyHeader 1) () 0 steps
    (by decide +kernel) (by decide +kernel) hsteps
  obtain ⟨hzero, hothers⟩ := hinturn _ (by decide +kernel) hsecond
  exact ⟨delay, hdelay _ hfirst, hzero, hothers _ hfirst (by decide +kernel)⟩

end Parlia

end RethBsc
