import RethBsc.Parlia.ExtraData

/-!
# Epoch headers: the header check against the validator check

After executing an epoch block, `verify_validators` (`src/node/evm/post_execution.rs`) compares the
validators of the system contract with those in the header, and unwraps the header's validator
bytes.  The header check that ran before should have made sure that they are there.

* `checkHeaderExtra_eq_ok`: what the header check guarantees.  It takes the epoch length from the
  forks of the header, and it leaves no room for the turn length that Bohr added.
* `getValidatorBytesFromHeader_isSome`: what the unwrap needs.  The epoch length comes from the
  snapshot.
* `verifyValidators_unwrap_iff`: the difference between the two.
-/

namespace RethBsc

open Rust Outcome

namespace Parlia

variable (p : Parlia) (h : Header)

/-- `BscBlockExecutor::verify_validators`. -/
def verifyValidators (snap : Option Snapshot)
    (currentValidators : Option (List Address × Map Address VoteAddress))
    (header : Option Header) : Outcome String Unit := do
  let h ← unwrap header
  let s ← unwrap snap
  if !isMultipleOf h.number s.epochNum then pure ()
  else
    let (validators, voteAddrsMap) ←
      okOr "Invalid current validators data" currentValidators
    let validators := validators.insertionSort (· ≤ ·)
    let voteAddrsMap :=
      if p.spec.isLubanTransitionAtBlock h.number then
        Map.insertAll id (fun _ => .zero) validators ∅
      else voteAddrsMap
    let validatorBytes ← validators.mapM fun v =>
      if p.spec.isLubanActiveAtBlock h.number then do
        let voteAddr ← unwrap (voteAddrsMap.lookup v)
        pure (v.val ++ voteAddr.val)
      else pure v.val
    let expected ← unwrap (p.getValidatorBytesFromHeader h s.epochNum)
    if validatorBytes.flatten ≠ expected then .err "Invalid validators" else pure ()

/-! ## The two checks -/

/-- Vanity, seal and the validators an epoch header announces fit in its extra data, with
`turnLengthLen` bytes for a turn length. -/
def ValidatorsFit (turnLengthLen : Nat) : Prop :=
  if p.spec.isLubanActiveAtBlock h.number then
    h.validatorCount ≠ 0 ∧
      98 + h.validatorCount * validatorBytesLenAfterLuban + turnLengthLen ≤ h.extraData.length
  else
    97 < h.extraData.length ∧ (h.extraData.length - 97) % validatorBytesLenBeforeLuban = 0

/-- From Bohr on an epoch header has a turn length. -/
def turnLengthLen : Nat :=
  if p.spec.isBohrActiveAtTimestamp h.number h.timestamp then turnLengthSize else 0

/-- By its own forks the header is an epoch header. -/
def IsEpochHeader : Prop := isMultipleOf h.number (p.getEpochLength h) = true

variable {p h}

theorem checkHeaderExtraLen_eq_ok :
    p.checkHeaderExtraLen h = .ok () ↔
      97 ≤ h.extraData.length ∧ (p.IsEpochHeader h → p.ValidatorsFit h 0) := by
  unfold checkHeaderExtraLen IsEpochHeader ValidatorsFit
  simp only [extraVanityLen, extraSealLen, validatorNumberSize]
  by_cases hshort : h.extraData.length < 97
  · have herr : ¬ 97 ≤ h.extraData.length := by omega
    by_cases hvanity : h.extraData.length < 32
    · simp [hvanity, herr]
    · simp [hvanity, hshort, herr]
  · have hvanity : ¬ h.extraData.length < 32 := by omega
    rw [if_neg hvanity, if_neg (by omega)]
    cases isMultipleOf h.number (p.getEpochLength h) with
    | false => simp; omega
    | true =>
      cases p.spec.isLubanActiveAtBlock h.number with
      | true => simp; omega
      | false =>
        simp only [validatorBytesLenBeforeLuban]
        simp
        omega

/-- The second half of the header check adds nothing to the first. -/
theorem checkHeaderExtra_eq_ok :
    p.checkHeaderExtra h = .ok () ↔
      97 ≤ h.extraData.length ∧ (p.IsEpochHeader h → p.ValidatorsFit h 0) := by
  rw [← checkHeaderExtraLen_eq_ok]
  refine ⟨fun hok => ?_, fun hlen => ?_⟩
  · unfold checkHeaderExtra at hok
    cases hlen : p.checkHeaderExtraLen h with
    | ok u => rfl
    | error e => rw [hlen] at hok; exact absurd hok (by simp [bind, Except.bind])
  · have hfits := (checkHeaderExtraLen_eq_ok.mp hlen).2
    rw [checkHeaderExtra, getValidatorLenFromHeader, hlen]
    unfold IsEpochHeader ValidatorsFit at hfits
    cases hepoch : isMultipleOf h.number (p.getEpochLength h) with
    | false => rfl
    | true =>
      have hfits := hfits hepoch
      cases hluban : p.spec.isLubanActiveAtBlock h.number with
      | true =>
        rw [if_pos hluban] at hfits
        have hne : (h.validatorCount * validatorBytesLenAfterLuban == 0) = false :=
          beq_eq_false_iff_ne.mpr (Nat.mul_ne_zero hfits.1 (by decide))
        show (if (h.validatorCount * validatorBytesLenAfterLuban == 0) = true then
          Except.error _ else Except.ok ()) = Except.ok ()
        rw [hne]
        rfl
      | false =>
        rw [if_neg (by simp [hluban])] at hfits
        have hne : h.extraData.length - 32 - 65 ≠ 0 := by omega
        simp [bind, Except.bind, hne]

theorem getValidatorBytesFromHeader_isSome {epochLength : UInt64}
    (hepoch : isMultipleOf h.number epochLength = true) :
    (p.getValidatorBytesFromHeader h epochLength).isSome = true ↔
      p.ValidatorsFit h (p.turnLengthLen h) := by
  unfold getValidatorBytesFromHeader ValidatorsFit
  simp only [hepoch, extraVanityLen, extraSealLen, validatorNumberSize, validatorBytesLenAfterLuban]
  rw [show (if p.spec.isBohrActiveAtTimestamp h.number h.timestamp = true then turnLengthSize
    else 0) = p.turnLengthLen h from rfl]
  by_cases hshort : h.extraData.length ≤ 32 + 65
  · rw [if_pos hshort]
    split
    · simp; omega
    · simp; omega
  · rw [if_neg hshort]
    cases hluban : p.spec.isLubanActiveAtBlock h.number with
    | true =>
      by_cases hfit : h.validatorCount = 0 ∨
          h.extraData.length < 32 + 1 + h.validatorCount * 68 + 65 + p.turnLengthLen h
      · simp [hfit]; omega
      · simp [hfit]; omega
    | false =>
      have hsub : h.extraData.length - 32 - 65 = h.extraData.length - 97 := by omega
      by_cases hmod : (h.extraData.length - 97) % validatorBytesLenBeforeLuban = 0
      · simp [hsub, hmod]; omega
      · simp [hsub, hmod]

/-! ## The difference -/

variable (p h) in
/-- What the header check leaves open.  By its own forks the header is an epoch header: from Bohr
on it must still have a byte for the turn length.  By its own forks it is not one, so that its
extra data was not looked at: everything must fit. -/
def CarriesValidators : Prop :=
  if isMultipleOf h.number (p.getEpochLength h) then
    p.spec.isLubanActiveAtBlock h.number = true →
      p.spec.isBohrActiveAtTimestamp h.number h.timestamp = true →
      h.extraData.length ≠ 98 + h.validatorCount * validatorBytesLenAfterLuban
  else p.ValidatorsFit h (p.turnLengthLen h)

instance : Decidable (p.CarriesValidators h) := by
  unfold CarriesValidators ValidatorsFit; infer_instance

theorem carriesValidators_iff (hcheck : p.checkHeaderExtra h = .ok ()) :
    p.CarriesValidators h ↔ p.ValidatorsFit h (p.turnLengthLen h) := by
  unfold CarriesValidators
  split
  · next hepoch =>
    have hfits := (checkHeaderExtra_eq_ok.mp hcheck).2 hepoch
    grind [ValidatorsFit, turnLengthLen]
  · exact .rfl

/-! ## The unwrap -/

section Unwrap

variable {s : Snapshot} {validators : List Address}
  {voteAddrsMap : Map Address VoteAddress}

/-- With a vote address for every current validator, the only panic left in `verify_validators` is
the unwrap of the header's validator bytes. -/
theorem verifyValidators_returns (hepoch : isMultipleOf h.number s.epochNum = true)
    (hmap : ∀ v ∈ validators, v ∈ voteAddrsMap) :
    (p.verifyValidators (some s) (some (validators, voteAddrsMap)) (some h)).Returns ↔
      (p.getValidatorBytesFromHeader h s.epochNum).isSome = true := by
  unfold verifyValidators
  simp only [unwrap_some, ok_bind, hepoch, okOr_some]
  rw [if_neg (by simp)]
  -- the bytes of the current validators are computed without a panic
  have hbytes : ∀ m : Map Address VoteAddress, (∀ v ∈ validators.insertionSort (· ≤ ·), v ∈ m) →
      ∃ bytes, (validators.insertionSort (· ≤ ·)).mapM (fun v =>
        if p.spec.isLubanActiveAtBlock h.number = true then do
          let voteAddr ← (unwrap (m.lookup v) : Outcome String VoteAddress)
          pure (v.val ++ voteAddr.val)
        else pure v.val) = .ok bytes := by
    intro m hm
    refine mapM_eq_ok fun v hv => ?_
    split
    · obtain ⟨voteAddr, hlookup⟩ := Option.isSome_iff_exists.mp (AList.lookup_isSome.mpr (hm v hv))
      exact ⟨_, by rw [hlookup]; rfl⟩
    · exact ⟨_, rfl⟩
  obtain ⟨bytes, hbytes⟩ := hbytes
    (if p.spec.isLubanTransitionAtBlock h.number = true then
      Map.insertAll id (fun _ => .zero) (validators.insertionSort (· ≤ ·)) ∅
    else voteAddrsMap) (by
      intro v hv
      split
      · exact Map.mem_insertAll.mpr (.inl (by rwa [List.map_id]))
      · exact hmap v ((List.mem_insertionSort _).mp hv))
  rw [hbytes, ok_bind, returns_bind, returns_unwrap, Option.isSome_iff_exists]
  refine and_iff_left fun expected _ => ?_
  split
  · exact returns_err _
  · exact returns_ok _

/-- **When the unwrap in `verify_validators` is safe.** Take any snapshot and any header that the
header check accepts, at a multiple of the snapshot's epoch length.  The header's validator bytes
are there, and `verify_validators` returns, exactly when the header carries validators. -/
theorem verifyValidators_unwrap_iff (p : Parlia) (s : Snapshot) (h : Header)
    (hcheck : p.checkHeaderExtra h = .ok ()) (hepoch : isMultipleOf h.number s.epochNum = true) :
    ((p.getValidatorBytesFromHeader h s.epochNum).isSome = true ↔ p.CarriesValidators h) ∧
      ∀ (validators : List Address) (voteAddrsMap : Map Address VoteAddress),
        (∀ v ∈ validators, v ∈ voteAddrsMap) →
        ((p.verifyValidators (some s) (some (validators, voteAddrsMap)) (some h)).Returns ↔
          p.CarriesValidators h) := by
  have hsome : (p.getValidatorBytesFromHeader h s.epochNum).isSome = true ↔
      p.CarriesValidators h := by
    rw [carriesValidators_iff hcheck]
    exact getValidatorBytesFromHeader_isSome hepoch
  exact ⟨hsome, fun validators voteAddrsMap hmap => (verifyValidators_returns hepoch hmap).trans hsome⟩

end Unwrap

/-! ### An accepted header without a turn length

Bohr is active from the genesis block on and Lorentz is not scheduled, so that header and snapshot
agree on the epoch length 200. -/

/-- Block 200 with one validator, and `turnLength` between the validator and the seal. -/
def epochHeader (turnLength : Bytes) : Header :=
  { (default : Header) with
    number := 200
    extraData := List.replicate 32 0 ++ [1] ++ List.replicate 68 7 ++ turnLength ++
      List.replicate 65 0 }

def loneVoteAddrs : Map Address VoteAddress :=
  AList.insert loneValidator (.repeatByte 48 7) ∅

theorem epochHeader_without_turnLength_panics :
    ∃ s, Snapshot.Reachable numberHash bohrSpec s ∧ s.blockNumber + 1 = (epochHeader []).number ∧
      (ofSpec bohrSpec).checkHeaderExtra (epochHeader []) = .ok () ∧
      isMultipleOf (epochHeader []).number s.epochNum = true ∧
      (ofSpec bohrSpec).getValidatorBytesFromHeader (epochHeader []) s.epochNum = none ∧
      (ofSpec bohrSpec).verifyValidators (some s) (some ([loneValidator], loneVoteAddrs))
        (some (epochHeader [])) = .panic := by
  have hrun : Snapshot.soloRun bohrSpec 199 = .ok (.soloSnapshot 199) := by decide +kernel
  exact ⟨_, Snapshot.reachable_soloRun hrun, by decide, by decide +kernel, by decide,
    by decide +kernel, by decide +kernel⟩

/-- With a turn length the same header passes. -/
theorem epochHeader_with_turnLength_returns :
    ((ofSpec bohrSpec).verifyValidators (some ⟨200, 199, default, [loneValidator], ∅, ∅, default,
        some 1, 3000⟩) (some ([loneValidator], loneVoteAddrs)) (some (epochHeader [1]))).Returns :=
  ((verifyValidators_unwrap_iff (ofSpec bohrSpec) ⟨200, 199, default, [loneValidator], ∅, ∅,
    default, some 1, 3000⟩ (epochHeader [1]) (by decide +kernel) (by decide)).2 [loneValidator]
    loneVoteAddrs (by decide)).mpr (by decide +kernel)

end Parlia

end RethBsc
