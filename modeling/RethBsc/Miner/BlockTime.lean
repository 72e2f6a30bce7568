import RethBsc.Miner.SameEnv
import RethBsc.Parlia.BackOffSpread

/-!
# The block time of a mined block

A miner takes the back-off time of a provisional header, whose timestamp is the clock's, and the
verifier that of the final one.  Before Lorentz a block time is cut to whole seconds.  Neither makes
a block early.

* `blockTime_eq_ok`: the block time is the earliest one allowed or, if this is over, the clock
  rounded up.
* `toNat_calculate_stamp`: what the final header keeps of it.
* `MinableParent.backOff_stamp`: both headers have the same back-off time, as Bohr is active for
  both.
* **`mined_timestamp_verifies`**: the mined block passes the check and is later than its parent.
-/

namespace RethBsc

open Rust Outcome

/-! ## Reachable block intervals -/

namespace Snapshot

/-- The block intervals in use. -/
def BlockInterval (n : UInt64) : Prop :=
  n = defaultBlockInterval ∨ n = lorentzBlockInterval ∨ n = maxwellBlockInterval ∨
    n = fermiBlockInterval

theorem BlockInterval.bounds {n : UInt64} (h : BlockInterval n) :
    1 ≤ n.toNat ∧ n.toNat ≤ 3000 := by
  rcases h with rfl | rfl | rfl | rfl <;> decide

section Step

variable {s s' : Snapshot} {hashSlow : Header → B256} {spec : ChainSpec} {validator : Address}
  {header : Header} {newValidators : List Address} {voteAddrs : Option (List VoteAddress)}
  {attestation : Option VoteAttestation} {turnLength : Option UInt8}

theorem setBlockInterval_blockInterval {isLorentz isMaxwell isFermi : Bool}
    (h : BlockInterval s.blockInterval) :
    BlockInterval (s.setBlockInterval isLorentz isMaxwell isFermi).blockInterval := by
  unfold setBlockInterval
  dsimp only
  split
  · exact .inr (.inr (.inr rfl))
  · split
    · exact .inr (.inr (.inl rfl))
    · split
      · exact .inr (.inl rfl)
      · exact h

theorem record_blockInterval (h : BlockInterval s.blockInterval) :
    BlockInterval (s.record spec validator header attestation).blockInterval := by
  rw [record, updateAttestation_eq]
  dsimp only
  split
  · exact setBlockInterval_blockInterval h
  · exact setBlockInterval_blockInterval h

theorem apply_blockInterval (h : BlockInterval s.blockInterval)
    (happly : s.apply hashSlow spec validator header newValidators voteAddrs attestation turnLength
      = .ok s') : BlockInterval s'.blockInterval := by
  have hrecord : BlockInterval
      ((s.advance hashSlow header).record spec validator header attestation).blockInterval :=
    record_blockInterval h
  obtain ⟨-, -, -, hswitch⟩ := apply_eq_ok.mp happly
  rcases switchValidators_eq_ok hswitch with ⟨-, rfl⟩ | ⟨-, validators, map, -, rfl⟩
  · exact hrecord
  · exact hrecord

theorem Reachable.blockInterval (h : Reachable hashSlow spec s) : BlockInterval s.blockInterval := by
  induction h with
  | genesis h =>
    obtain ⟨⟨validators, map⟩, -, hs⟩ := bind_eq_ok.mp h
    cases hs
    exact .inl rfl
  | apply hs happly ih => exact apply_blockInterval ih happly

end Step

end Snapshot

/-! ## Milliseconds in the mix hash -/

theorem millisecondPart_of_mixHash {h : Header} {x : UInt64} (hmix : h.mixHash = b256OfUInt64 x) :
    h.millisecondPart = x := by
  rw [Header.millisecondPart, hmix]
  split
  · show fromBeBytes (((List.replicate 24 0 ++ toBeBytes x).drop 24).take 8) = x
    rw [List.drop_left' (by rw [List.length_replicate]), List.take_of_length_le (by simp),
      fromBeBytes_toBeBytes]
  · next hzero =>
    -- only the number 0 makes a zero hash
    have hbytes : List.replicate 24 0 ++ toBeBytes x = List.replicate 24 0 ++ toBeBytes 0 :=
      congrArg FixedBytes.val (not_not.mp hzero)
    exact (toBeBytes_injective (List.append_cancel_left hbytes)).symm

theorem millisecondPart_of_zero {h : Header} (hmix : h.mixHash = .zero) :
    h.millisecondPart = 0 := by
  rw [Header.millisecondPart, if_neg (not_not.mpr hmix)]

/-- The seconds and the milliseconds of `ms` are `ms`. -/
theorem calculate_exact {h : Header} {ms : UInt64} (htime : h.timestamp = ms / 1000)
    (hmix : h.mixHash = b256OfUInt64 (ms % 1000)) :
    (calculateMillisecondTimestamp h).toNat = ms.toNat := by
  rw [toNat_calculateMillisecondTimestamp, htime, millisecondPart_of_mixHash hmix,
    UInt64.toNat_div, UInt64.toNat_mod, show (1000 : UInt64).toNat = 1000 from rfl]
  have := ms.toNat_lt
  omega

theorem calculate_truncated {h : Header} {ms : UInt64} (htime : h.timestamp = ms / 1000)
    (hmix : h.mixHash = .zero) :
    (calculateMillisecondTimestamp h).toNat = ms.toNat / 1000 * 1000 := by
  rw [toNat_calculateMillisecondTimestamp, htime, millisecondPart_of_zero hmix, UInt64.toNat_div,
    show (1000 : UInt64).toNat = 1000 from rfl, show (0 : UInt64).toNat = 0 from rfl]
  have := ms.toNat_lt
  omega

/-! ## Block times -/

/-- The earliest block time for a back-off of `backOff`. -/
def earliestTime (snap : Snapshot) (parent : Header) (backOff : UInt64) : UInt64 :=
  calculateMillisecondTimestamp parent + snap.blockInterval + backOff

/-- A time that is over is replaced by the clock, rounded up. -/
def alignedTime (now due : UInt64) : UInt64 :=
  if due < now then
    (now / millisecondsUnit + if now % millisecondsUnit = 0 then 0 else 1) * millisecondsUnit
  else due

theorem le_alignedTime {now due : UInt64} (hnow : now.toNat < 2 ^ 50) :
    due.toNat ≤ (alignedTime now due).toNat := by
  unfold alignedTime
  split
  · next hlt =>
    rw [UInt64.lt_iff_toNat_lt] at hlt
    have hunit : millisecondsUnit.toNat = 50 := rfl
    rw [UInt64.toNat_mul, UInt64.toNat_add, UInt64.toNat_div, hunit]
    split
    · next hzero =>
      have hmod : now.toNat % 50 = 0 := by
        rw [← hunit, ← UInt64.toNat_mod, hzero]
        rfl
      simp only [UInt64.reduceToNat]
      omega
    · simp only [UInt64.reduceToNat]
      omega
  · exact Nat.le_refl _

namespace Parlia

variable {ε : Type} {p : Parlia} {snap : Snapshot} {parent header header' : Header}
  {outOfFuel : ε} {fuel : Nat} {now ms b : UInt64}

theorem blockTime_eq_ok (hramanujan : p.spec.isRamanujanActiveAtBlock header.number = true) :
    p.blockTimeForRamanujanFork outOfFuel fuel now snap parent header = .ok ms ↔
      ∃ b, BackOff p fuel snap parent header b ∧
        ms = alignedTime now (earliestTime snap parent b) := by
  rw [blockTimeForRamanujanFork, if_pos hramanujan]
  simp only [bind_eq_ok, backOffTime_eq_ok, pure_eq, ok_bind, ok.injEq]
  exact ⟨fun ⟨b, hb, hms⟩ => ⟨b, hb, hms.symm⟩, fun ⟨b, hb, hms⟩ => ⟨b, hb, hms.symm⟩⟩

/-- The header with the block time `ms`. -/
def stamp (p : Parlia) (ms : UInt64) (header : Header) : Header :=
  { header with
    timestamp := ms / 1000
    mixHash :=
      if p.spec.isLorentzActiveAtTimestamp header.number (ms / 1000) then b256OfUInt64 (ms % 1000)
      else .zero }

theorem prepareTimestamp_eq_ok :
    p.prepareTimestamp outOfFuel fuel now snap parent header = .ok header' ↔
      ∃ ms, p.blockTimeForRamanujanFork outOfFuel fuel now snap parent header = .ok ms ∧
        header' = p.stamp ms header := by
  have hstamp : ∀ ms : UInt64, (if p.spec.isLorentzActiveAtTimestamp header.number (ms / 1000) then
        setMillisecondPartOfTimestamp ms { header with timestamp := ms / 1000 }
      else { header with timestamp := ms / 1000, mixHash := .zero })
        = p.stamp ms header := by
    intro ms
    unfold stamp
    split <;> rfl
  unfold prepareTimestamp
  simp only [bind_eq_ok, pure_eq, ok.injEq, hstamp]
  exact ⟨fun ⟨ms, hms, h⟩ => ⟨ms, hms, h.symm⟩, fun ⟨ms, hms, h⟩ => ⟨ms, hms, h.symm⟩⟩

/-- The stamped header has the whole block time from Lorentz on, and its seconds before. -/
theorem toNat_calculate_stamp :
    (calculateMillisecondTimestamp (p.stamp ms header)).toNat =
      if p.spec.isLorentzActiveAtTimestamp header.number (ms / 1000) then ms.toNat
      else ms.toNat / 1000 * 1000 := by
  split
  · next hlorentz => exact calculate_exact rfl (if_pos hlorentz)
  · next hlorentz => exact calculate_truncated rfl (if_neg hlorentz)

/-- A header passes the check if its time is not before the earliest. -/
theorem blockTimeVerify_eq_ok {hashSlow : Header → B256} (hb : BackOff p fuel snap parent header b)
    (hle : earliestTime snap parent b ≤ calculateMillisecondTimestamp header) :
    p.blockTimeVerifyForRamanujanFork hashSlow fuel snap header parent = .ok () := by
  unfold blockTimeVerifyForRamanujanFork
  split
  · dsimp only
    rw [backOffTime_eq_ok.mpr hb, ok_bind]
    exact if_neg (UInt64.not_lt.mpr hle)
  · rfl

end Parlia

/-! ## Mined blocks -/

/-- The parents that a block is mined on: Ramanujan and Bohr are active, the block time is below
`2 ^ 50` milliseconds, and before Lorentz it is in whole seconds, as the block interval is. -/
structure MinableParent (spec : ChainSpec) (snap : Snapshot) (parent : Header) : Prop where
  ramanujan : spec.isRamanujanActiveAtBlock parent.number = true
  bohr : spec.isBohrActiveAtTimestamp parent.number parent.timestamp = true
  number : parent.number.toNat + 1 < 2 ^ 64
  time : parent.timestamp.toNat * 1000 + parent.millisecondPart.toNat < 2 ^ 50
  lorentz : spec.isLorentzActiveAtTimestamp parent.number parent.timestamp = true ∧
      parent.millisecondPart.toNat < 1000 ∨
    spec.isLorentzActiveAtTimestamp parent.number parent.timestamp = false ∧
      parent.mixHash = .zero ∧ snap.blockInterval.toNat % 1000 = 0

section Mined

variable {c : BscEvmConfig} {hashSlow : Header → B256} {snap : Snapshot} {parent : Header}
  {signer : Address} {now later b ms : UInt64} {fuel : Nat}

theorem MinableParent.number_le (h : MinableParent c.chainSpec snap parent) :
    parent.number ≤ parent.number + 1 := by
  have hnumber := h.number
  rw [UInt64.le_iff_toNat_le, UInt64.toNat_add]
  simp only [UInt64.reduceToNat]
  omega

/-- The timestamp of the provisional header is after the parent's. -/
theorem MinableParent.le_provisional (h : MinableParent c.chainSpec snap parent) :
    parent.timestamp ≤ (prepareNewHeader c hashSlow now parent signer).timestamp := by
  have htime := h.time
  show parent.timestamp ≤ if now / 1000 ≤ parent.timestamp then parent.timestamp + 1 else now / 1000
  split
  · rw [UInt64.le_iff_toNat_le, UInt64.toNat_add]
    simp only [UInt64.reduceToNat]
    omega
  · next hlt => exact UInt64.le_of_lt (UInt64.not_le.mp hlt)

/-- The earliest time as a number: nothing wraps. -/
theorem MinableParent.toNat_earliestTime (h : MinableParent c.chainSpec snap parent)
    (hinterval : Snapshot.BlockInterval snap.blockInterval)
    (hb : b.toNat ≤ 2000 + Parlia.maxSteps * 1000) :
    (earliestTime snap parent b).toNat
      = parent.timestamp.toNat * 1000 + parent.millisecondPart.toNat + snap.blockInterval.toNat
        + b.toNat := by
  have htime := h.time
  have hbounds := hinterval.bounds
  unfold Parlia.maxSteps at hb
  rw [earliestTime, UInt64.toNat_add, UInt64.toNat_add, toNat_calculateMillisecondTimestamp]
  omega

/-- The final header is not before the earliest time.  From Lorentz on it has the whole block time,
and before that the earliest time is in whole seconds. -/
theorem MinableParent.earliest_le_stamp (h : MinableParent c.chainSpec snap parent)
    (hinterval : Snapshot.BlockInterval snap.blockInterval) (hwhole : b.toNat % 1000 = 0)
    (hb : b.toNat ≤ 2000 + Parlia.maxSteps * 1000)
    (hms : (earliestTime snap parent b).toNat ≤ ms.toNat) {header : Header}
    (hnumber : header.number = parent.number + 1) :
    (earliestTime snap parent b).toNat
      ≤ (calculateMillisecondTimestamp (c.parlia.stamp ms header)).toNat := by
  have hdue := h.toNat_earliestTime hinterval hb
  rw [Parlia.toNat_calculate_stamp]
  split
  · exact hms
  · next hnew =>
    rcases h.lorentz with ⟨hparent, -⟩ | ⟨-, hmix, hseconds⟩
    · -- the parent is Lorentz-active and the block is not earlier, so it is active as well
      refine absurd (ChainSpec.isActiveAtTimestamp_mono ?_ ?_ hparent) hnew
      · rw [hnumber]
        exact h.number_le
      · rw [UInt64.le_iff_toNat_le, UInt64.toNat_div]
        simp only [UInt64.reduceToNat]
        omega
    · have hpart : parent.millisecondPart.toNat = 0 := by
        rw [millisecondPart_of_zero hmix]
        rfl
      omega

/-- The miner's back-off time is that of the final header. -/
theorem MinableParent.backOff_stamp (h : MinableParent c.chainSpec snap parent)
    (hinterval : Snapshot.BlockInterval snap.blockInterval)
    (hbound : b.toNat ≤ 2000 + Parlia.maxSteps * 1000)
    (hms : (earliestTime snap parent b).toNat ≤ ms.toNat)
    (hb : c.parlia.BackOff fuel snap parent (prepareNewHeader c hashSlow now parent signer) b) :
    c.parlia.BackOff fuel snap parent
      (c.parlia.stamp ms (prepareNewHeader c hashSlow now parent signer)) b := by
  have hdue := h.toNat_earliestTime hinterval hbound
  have hbohr : ∀ timestamp, parent.timestamp ≤ timestamp →
      c.chainSpec.isBohrActiveAtTimestamp (parent.number + 1) timestamp = true :=
    fun timestamp hle => ChainSpec.isActiveAtTimestamp_mono h.number_le hle h.bohr
  refine hb.congr rfl rfl ?_
  show c.chainSpec.isBohrActiveAtTimestamp (parent.number + 1) (ms / 1000)
    = c.chainSpec.isBohrActiveAtTimestamp (parent.number + 1)
      (prepareNewHeader c hashSlow now parent signer).timestamp
  rw [hbohr _ h.le_provisional, hbohr]
  rw [UInt64.le_iff_toNat_le, UInt64.toNat_div]
  simp only [UInt64.reduceToNat]
  omega

end Mined

/-- **A mined block keeps to its time.**  Whatever the clock shows, the prepared header passes the
check of the verifier and is later than its parent.  Preparing it returns unless the shuffle draws
for ever. -/
theorem mined_timestamp_verifies {ε : Type} (c : BscEvmConfig) (hashSlow : Header → B256)
    (snap : Snapshot) (parent : Header) (signer : Address) (now later : UInt64) (fuel : Nat)
    (outOfFuel : ε) (hreachable : Snapshot.Reachable hashSlow c.chainSpec snap)
    (hlength : snap.validators.length ≤ Parlia.maxSteps)
    (hparent : MinableParent c.chainSpec snap parent) (hlater : later.toNat < 2 ^ 50) :
    (∀ header, c.parlia.prepareTimestamp outOfFuel fuel later snap parent
        (prepareNewHeader c hashSlow now parent signer) = .ok header →
      c.parlia.blockTimeVerifyForRamanujanFork hashSlow fuel snap header parent = .ok () ∧
        calculateMillisecondTimestamp parent < calculateMillisecondTimestamp header) ∧
    (1 ≤ snap.turns → snap.validators ≠ [] →
      c.parlia.backOffSteps snap (prepareNewHeader c hashSlow now parent signer) fuel ≠ .err () →
      ∃ header, c.parlia.prepareTimestamp outOfFuel fuel later snap parent
        (prepareNewHeader c hashSlow now parent signer) = .ok header) := by
  have hinterval := hreachable.blockInterval
  have hramanujan : c.parlia.spec.isRamanujanActiveAtBlock
      (prepareNewHeader c hashSlow now parent signer).number = true :=
    ForkCondition.activeAtBlock_mono hparent.number_le hparent.ramanujan
  constructor
  · intro header hheader
    obtain ⟨ms, htime, rfl⟩ := Parlia.prepareTimestamp_eq_ok.mp hheader
    obtain ⟨b, hb, rfl⟩ := (Parlia.blockTime_eq_ok hramanujan).mp htime
    obtain ⟨hwhole, hbound⟩ := hb.bounded hlength
    have hms : (earliestTime snap parent b).toNat
        ≤ (alignedTime later (earliestTime snap parent b)).toNat := le_alignedTime hlater
    have hnext : (prepareNewHeader c hashSlow now parent signer).number = parent.number + 1 := rfl
    have hle := hparent.earliest_le_stamp hinterval hwhole hbound hms hnext
    refine ⟨Parlia.blockTimeVerify_eq_ok (hparent.backOff_stamp hinterval hbound hms hb)
      (UInt64.le_iff_toNat_le.mpr hle), ?_⟩
    have hdue := hparent.toNat_earliestTime hinterval hbound
    have hpositive := hinterval.bounds.1
    rw [UInt64.lt_iff_toNat_lt, toNat_calculateMillisecondTimestamp parent]
    omega
  · intro hturns hne hfuel
    obtain ⟨inturn, -, hplace⟩ := Snapshot.exists_inturn hne (snap.blockNumber + 1).toNat
    have hinturn : (snap.inturnValidator : Outcome Unit Address) = .ok inturn :=
      (Snapshot.inturnValidator_eq_ok hturns).mpr hplace
    have hreturns : (c.parlia.backOffSteps snap
        (prepareNewHeader c hashSlow now parent signer) fuel).Returns :=
      Parlia.backOffSteps_returns hturns hlength hinturn
    cases hsteps : c.parlia.backOffSteps snap (prepareNewHeader c hashSlow now parent signer) fuel with
    | err e => exact absurd hsteps hfuel
    | panic => exact absurd hsteps hreturns
    | ok steps =>
      obtain ⟨b, hb⟩ := Parlia.exists_backOff parent hinturn hsteps
      exact ⟨_, Parlia.prepareTimestamp_eq_ok.mpr
        ⟨_, (Parlia.blockTime_eq_ok hramanujan).mpr ⟨b, hb, rfl⟩, rfl⟩⟩

/-- The first block of two validators, mined at second 5 by the one that is not in turn. -/
theorem mined_timestamp_verifies_pair :
    ((Snapshot.pairSnapshot 0 ∅).inturnValidator : Outcome Unit Address)
        = .ok (Snapshot.nthValidator 2) ∧
    ∃ header, fermiConfig.parlia.prepareTimestamp () 0 5020 (Snapshot.pairSnapshot 0 ∅)
        (Snapshot.tickHeader 0) (prepareNewHeader fermiConfig numberHash 5010 (Snapshot.tickHeader 0)
          (Snapshot.nthValidator 1)) = .ok header ∧
      fermiConfig.parlia.blockTimeVerifyForRamanujanFork numberHash 0
        (Snapshot.pairSnapshot 0 ∅) header (Snapshot.tickHeader 0) = .ok () := by
  have hnew : Snapshot.new [Snapshot.nthValidator 1, Snapshot.nthValidator 2] 0
      (numberHash (Snapshot.tickHeader 0)) defaultEpochLength none
        = .ok (Snapshot.pairSnapshot 0 ∅) := by decide +kernel
  have hparent : MinableParent fermiSpec (Snapshot.pairSnapshot 0 ∅) (Snapshot.tickHeader 0) :=
    ⟨by decide +kernel, by decide +kernel, by decide +kernel, by decide +kernel,
      .inl (by decide +kernel)⟩
  obtain ⟨hverifies, hreturns⟩ := mined_timestamp_verifies fermiConfig numberHash
    (Snapshot.pairSnapshot 0 ∅) (Snapshot.tickHeader 0) (Snapshot.nthValidator 1) 5010 5020 0 ()
    (.genesis hnew) (by decide +kernel) hparent (by decide +kernel)
  obtain ⟨header, hheader⟩ := hreturns (by decide +kernel) (by decide +kernel) (by decide +kernel)
  exact ⟨by decide +kernel, header, hheader, (hverifies header hheader).1⟩

end RethBsc
