import RethBsc.Parlia.Rotation
import RethBsc.Parlia.Schedule

/-!
# Validators in turn are never held up

If every block is proposed by the validator in turn, then the recency rule refuses none of them,
neither where `verify_seal` asks it nor inside `Snapshot::apply`.  The window that the rule looks
back over is shorter than a cycle of the round robin, and in less than a cycle the validator in turn
has had less than a full turn.

* `InturnHistory`: what a run keeps.  Every recent proposer was in turn for its block, and blocks
  that have left the window are no longer listed.
* `countEntries_inturn_lt`: the count for the validator in turn.
* **`inturn_never_refused`**: the run can always go on.
-/

namespace RethBsc.Snapshot

open Rust RoundRobin

/-! ## Runs -/

/-- A next block by the validator in turn.  Before Bohr a turn is one block, and the block does not
make `apply` switch the validator set. -/
structure InturnBlock (hashSlow : Header → B256) (spec : ChainSpec) (s : Snapshot) (v : Address)
    (header : Header) (newValidators : List Address) (attestation : Option VoteAttestation) :
    Prop where
  number : header.number.toNat = s.blockNumber.toNat + 1
  turns : spec.isBohrActiveAtTimestamp header.number header.timestamp = false → s.turns = 1
  proposer : (s.inturnValidator : Outcome Unit Address) = .ok v
  noSwitch : ¬ s.Installs v hashSlow spec header newValidators attestation

/-- The snapshots of a run of such blocks. -/
inductive InturnRun (hashSlow : Header → B256) (spec : ChainSpec) (start : Snapshot) :
    Snapshot → Prop
  | start : InturnRun hashSlow spec start start
  | block {s s' : Snapshot} {v : Address} {header : Header} {newValidators : List Address}
      {voteAddrs : Option (List VoteAddress)} {attestation : Option VoteAttestation}
      {turnLength : Option UInt8} (hrun : InturnRun hashSlow spec start s)
      (hblock : InturnBlock hashSlow spec s v header newValidators attestation)
      (happly : s.apply hashSlow spec v header newValidators voteAddrs attestation turnLength
        = .ok s') :
      InturnRun hashSlow spec start s'

/-! ## The window and the cycle -/

section Window

variable {s : Snapshot} {v : Address} {hashSlow : Header → B256} {header : Header}

variable (s) in
/-- How many blocks stay listed. -/
def span : Nat := (s.validators.length / 2 + 1) * s.turns

variable (s) in
/-- The blocks of one cycle of the round robin. -/
def cycle : Nat := s.validators.length * s.turns

theorem span_le_cycle (hne : s.validators ≠ []) : s.span ≤ s.cycle := by
  have hpos := List.length_pos_iff.mpr hne
  exact Nat.mul_le_mul_right _ (by omega)

/-- `w` was in turn for the block `k`. -/
def WasInturn (s : Snapshot) (k : UInt64) (w : Address) : Prop :=
  s.validators[s.inturnIndex k.toNat]? = some w

/-- Counting blocks of the validator in turn for `next` over less than a cycle before it. -/
theorem countEntries_inturn_lt (hne : s.validators ≠ []) (hnodup : s.validators.Nodup)
    (hturns : 1 ≤ s.turns) {next : Nat} (hv : s.validators[s.inturnIndex next]? = some v)
    {m : RecentProposers} {p : UInt64 → Address → Bool} (hp : ∀ e ∈ m.entries, p e.1 e.2 = true →
      e.2 = v ∧ WasInturn s e.1 e.2 ∧ e.1.toNat < next ∧ next < e.1.toNat + s.cycle) :
    Map.countEntries p m < s.turns := by
  have hlength := List.length_pos_iff.mpr hne
  have hcycle : 0 < s.cycle := Nat.mul_pos hlength hturns
  have hle : Map.countEntries p m
      ≤ ((Finset.Ico (next + 1 - s.cycle) next).filter fun k =>
        player s.validators.length s.turns k = player s.validators.length s.turns next).card := by
    refine Map.countEntries_le_card (fun a b hab => UInt64.toNat_inj.mp hab) fun e he hpe => ?_
    obtain ⟨rfl, hwas, hbefore, hwithin⟩ := hp e he hpe
    refine Finset.mem_filter.mpr ⟨Finset.mem_Ico.mpr ⟨by omega, hbefore⟩, ?_⟩
    exact inturnIndex_eq hnodup hwas hv
  refine Nat.lt_of_le_of_lt hle (card_player_before_lt hturns hlength (by omega) ?_)
  show next < next + 1 - s.cycle + s.cycle
  omega

/-- What the rule counts on a snapshot is less than a cycle back. -/
theorem lt_add_cycle_of_leftBound_lt (hne : s.validators ≠ []) (hturns : 1 ≤ s.turns)
    (hnext : s.blockNumber.toNat + 1 < 2 ^ 64) {k : UInt64} (hk : s.leftBound < k) :
    s.blockNumber.toNat + 1 < k.toNat + s.cycle := by
  have hcycle := span_le_cycle hne
  by_cases hspan : s.span < 2 ^ 64
  · have hlen : s.minerHistoryCheckLen.toNat + 1 = s.span := toNat_minerHistoryCheckLen hturns hspan
    rw [UInt64.lt_iff_toNat_lt, toNat_leftBound] at hk
    omega
  · -- the length of the window wrapped, but there are fewer blocks than a cycle has
    omega

/-- What stays listed when the next block comes. -/
theorem lt_add_span_of_advance (hturns : 1 ≤ s.turns) {k : UInt64} {w : Address}
    (hnumber : header.number.toNat = s.blockNumber.toNat + 1)
    (hk : s.blockNumber.toNat < k.toNat + s.span)
    (h : (s.advance hashSlow header).recentProposers.lookup k = some w) :
    header.number.toNat < k.toNat + s.span := by
  have hlt := header.number.toNat_lt
  by_cases hspan : s.span < 2 ^ 64
  · have hlen : s.minerHistoryCheckLen.toNat + 1 = s.span := toNat_minerHistoryCheckLen hturns hspan
    have hlimit : (s.minerHistoryCheckLen + 1).toNat = s.span := by simp_all
    by_cases hle : s.minerHistoryCheckLen + 1 ≤ header.number
    · -- the block that leaves the window is dropped
      have hrecent : (s.advance hashSlow header).recentProposers
          = s.recentProposers.erase (header.number - (s.minerHistoryCheckLen + 1)) := if_pos hle
      rw [hrecent] at h
      have hkept := (Map.lookup_erase_eq_some.mp h).1
      rw [ne_eq, ← UInt64.toNat_inj, UInt64.toNat_sub_of_le _ _ hle, hlimit] at hkept
      omega
    · rw [UInt64.le_iff_toNat_le, hlimit] at hle
      omega
  · omega

end Window

/-! ## The invariant of a run -/

section Run

variable {hashSlow : Header → B256} {spec : ChainSpec} {start s s' : Snapshot} {v : Address}
  {header : Header} {newValidators : List Address} {voteAddrs : Option (List VoteAddress)}
  {attestation : Option VoteAttestation} {turnLength : Option UInt8}

structure InturnHistory (s : Snapshot) : Prop where
  nonempty : s.validators ≠ []
  nodup : s.validators.Nodup
  turns : 1 ≤ s.turns
  epochNum : s.epochNum ≠ 0
  listed : ∀ k w, s.recentProposers.lookup k = some w →
    WasInturn s k w ∧ k.toNat ≤ s.blockNumber.toNat ∧ s.blockNumber.toNat < k.toNat + s.span

theorem InturnHistory.of_empty (hempty : s.recentProposers = ∅) (hne : s.validators ≠ [])
    (hnodup : s.validators.Nodup) (hturns : 1 ≤ s.turns) (hepoch : s.epochNum ≠ 0) :
    InturnHistory s := by
  refine ⟨hne, hnodup, hturns, hepoch, fun k w h => ?_⟩
  rw [hempty] at h
  simp at h

theorem InturnBlock.inturn (h : InturnHistory s)
    (hblock : InturnBlock hashSlow spec s v header newValidators attestation) :
    s.validators[s.inturnIndex header.number.toNat]? = some v := by
  have hproposer := (inturnValidator_eq_ok h.turns).mp hblock.proposer
  rwa [← number_eq_succ hblock.number] at hproposer

/-- The entries that `apply` looks at are the validators in turn of less than a cycle. -/
theorem InturnHistory.advance (h : InturnHistory s)
    (hblock : InturnBlock hashSlow spec s v header newValidators attestation) {k : UInt64}
    {w : Address} (hk : (s.advance hashSlow header).recentProposers.lookup k = some w) :
    WasInturn s k w ∧ k.toNat < header.number.toNat ∧ header.number.toNat < k.toNat + s.span := by
  obtain ⟨hwas, hle, hspan⟩ := h.listed k w (advance_sub k w hk)
  have hnumber := hblock.number
  exact ⟨hwas, by omega, lt_add_span_of_advance h.turns hnumber hspan hk⟩

/-- In what `apply` looks at, the proposer has less than a full turn. -/
theorem InturnHistory.listed_lt (h : InturnHistory s)
    (hblock : InturnBlock hashSlow spec s v header newValidators attestation) :
    Snapshot.listed v (s.advance hashSlow header).recentProposers < s.turns := by
  refine countEntries_inturn_lt h.nonempty h.nodup h.turns (hblock.inturn h) fun e he hp => ?_
  obtain ⟨hwas, hlt, hspan⟩ := h.advance hblock (Map.lookup_eq_some_iff.mpr he)
  exact ⟨beq_iff_eq.mp hp, hwas, hlt, Nat.lt_of_lt_of_le hspan
    (Nat.add_le_add_left (span_le_cycle h.nonempty) _)⟩

/-- A counter below the turn length lets its validator pass. -/
theorem signRecently_eq_false (h : s.windowCount v < s.turns) : s.signRecently v = false := by
  rw [← Bool.not_eq_true, signRecently_iff]
  omega

theorem InturnHistory.not_overProposed (h : InturnHistory s)
    (hblock : InturnBlock hashSlow spec s v header newValidators attestation) :
    (s.advance hashSlow header).overProposed
      (spec.isBohrActiveAtTimestamp header.number header.timestamp) v = false := by
  have hlisted := h.listed_lt hblock
  cases hbohr : spec.isBohrActiveAtTimestamp header.number header.timestamp with
  | true =>
    show (s.advance hashSlow header).signRecently v = false
    exact signRecently_eq_false (Nat.lt_of_le_of_lt windowCount_le_listed hlisted)
  | false =>
    -- before Bohr a turn is one block, so the proposer is not listed at all
    rw [hblock.turns hbohr] at hlisted
    have hnone := List.countP_eq_zero.mp (Nat.lt_one_iff.mp hlisted)
    show ((s.advance hashSlow header).recentProposers.entries.any fun e => e.2 == v) = false
    rwa [List.any_eq_false]

/-- The validator in turn passes the check on the parent snapshot too. -/
theorem InturnHistory.signRecently (h : InturnHistory s) (hnext : s.blockNumber.toNat + 1 < 2 ^ 64)
    (hv : (s.inturnValidator : Outcome Unit Address) = .ok v) : s.signRecently v = false := by
  have hinturn : s.validators[s.inturnIndex (s.blockNumber.toNat + 1)]? = some v := by
    have hsucc : (s.blockNumber + 1).toNat = s.blockNumber.toNat + 1 := by simp_all
    rw [← hsucc]
    exact (inturnValidator_eq_ok h.turns).mp hv
  refine signRecently_eq_false ?_
  unfold windowCount
  split
  · exact h.turns
  · refine countEntries_inturn_lt h.nonempty h.nodup h.turns hinturn fun e he hp => ?_
    obtain ⟨hleft, hw⟩ := of_decide_eq_true hp
    obtain ⟨hwas, hle, -⟩ := h.listed e.1 e.2 (Map.lookup_eq_some_iff.mpr he)
    exact ⟨hw, hwas, by omega, lt_add_cycle_of_leftBound_lt h.nonempty h.turns hnext hleft⟩

/-- **One block**: `apply` accepts it, and returns what `record` makes of the advanced copy. -/
theorem InturnHistory.apply_eq (h : InturnHistory s)
    (hblock : InturnBlock hashSlow spec s v header newValidators attestation)
    (voteAddrs : Option (List VoteAddress)) (turnLength : Option UInt8) :
    s.apply hashSlow spec v header newValidators voteAddrs attestation turnLength
      = .ok ((s.advance hashSlow header).record spec v header attestation) := by
  refine apply_eq_ok.mpr ⟨(number_eq_succ hblock.number).symm,
    List.mem_of_getElem? (hblock.inturn h), h.not_overProposed hblock, ?_⟩
  rw [switchValidators, if_neg h.epochNum]
  refine if_neg fun hswitch => hblock.noSwitch ⟨hswitch.1, ?_⟩
  simpa using hswitch.2

theorem switchEpochNum_ne_zero {isLorentz isMaxwell : Bool} {blockNumber : UInt64}
    (h : s.epochNum ≠ 0) : (s.switchEpochNum isLorentz isMaxwell blockNumber).epochNum ≠ 0 := by
  have hlorentz : lorentzEpochLength ≠ 0 := by decide
  have hmaxwell : maxwellEpochLength ≠ 0 := by decide
  grind [switchEpochNum]

theorem InturnHistory.block (h : InturnHistory s)
    (hblock : InturnBlock hashSlow spec s v header newValidators attestation) :
    InturnHistory ((s.advance hashSlow header).record spec v header attestation) := by
  obtain ⟨recents, hrecord⟩ := record_eq (s.advance hashSlow header) spec v header attestation
  have hsub : Map.Sub ((s.advance hashSlow header).record spec v header attestation).recentProposers
      ((s.advance hashSlow header).recentProposers.insert header.number v) := record_sub
  rw [hrecord] at hsub ⊢
  refine ⟨h.nonempty, h.nodup, h.turns, switchEpochNum_ne_zero h.epochNum, fun k w hk => ?_⟩
  have hinsert := hsub k w hk
  show WasInturn s k w ∧ k.toNat ≤ header.number.toNat ∧ header.number.toNat < k.toNat + s.span
  by_cases hkey : k = header.number
  · subst hkey
    rw [AList.lookup_insert, Option.some.injEq] at hinsert
    subst hinsert
    have hspan : 0 < s.span := Nat.mul_pos (by omega) h.turns
    exact ⟨hblock.inturn h, Nat.le_refl _, by omega⟩
  · rw [AList.lookup_insert_ne hkey] at hinsert
    obtain ⟨hwas, hlt, hspan⟩ := h.advance hblock hinsert
    exact ⟨hwas, Nat.le_of_lt hlt, hspan⟩

/-- The invariant along a run. -/
theorem InturnRun.history (hrun : InturnRun hashSlow spec start s) (hstart : InturnHistory start) :
    InturnHistory s := by
  induction hrun with
  | start => exact hstart
  | block hrun hblock happly ih =>
    rw [ih.apply_eq hblock, Outcome.ok.injEq] at happly
    subst happly
    exact ih.block hblock

end Run

/-- **The validator in turn is never refused.**  From a snapshot without recent proposers, through
any run of blocks by the validators in turn, the validator in turn for the next block has not
signed recently, and `apply` accepts every next block by it. -/
theorem inturn_never_refused (hashSlow : Header → B256) (spec : ChainSpec) (start s : Snapshot)
    (hempty : start.recentProposers = ∅) (hne : start.validators ≠ [])
    (hnodup : start.validators.Nodup) (hturns : 1 ≤ start.turns) (hepoch : start.epochNum ≠ 0)
    (hrun : InturnRun hashSlow spec start s) :
    (s.blockNumber.toNat + 1 < 2 ^ 64 → ∃ v ∈ s.validators,
      (s.inturnValidator : Outcome Unit Address) = .ok v ∧ s.signRecently v = false) ∧
    ∀ (v : Address) (header : Header) (newValidators : List Address)
      (voteAddrs : Option (List VoteAddress)) (attestation : Option VoteAttestation)
      (turnLength : Option UInt8),
      InturnBlock hashSlow spec s v header newValidators attestation →
      ∃ s', s.apply hashSlow spec v header newValidators voteAddrs attestation turnLength
        = .ok s' := by
  have h : InturnHistory s := hrun.history (.of_empty hempty hne hnodup hturns hepoch)
  refine ⟨fun hnext => ?_, fun v header newValidators voteAddrs attestation turnLength hblock =>
    ⟨_, h.apply_eq hblock voteAddrs turnLength⟩⟩
  obtain ⟨v, hmem, hv⟩ := exists_inturn h.nonempty (s.blockNumber + 1).toNat
  have hinturn := (inturnValidator_eq_ok (ε := Unit) h.turns).mpr hv
  exact ⟨v, hmem, hinturn, h.signRecently hnext hinturn⟩

/-- The first block of three validators, by the one in turn. -/
theorem trioSnapshot_inturn :
    InturnRun numberHash bohrSpec (trioSnapshot 0 ∅)
      (trioSnapshot 1 (AList.insert 1 (nthValidator 2) ∅)) := by
  have hblock : InturnBlock numberHash bohrSpec (trioSnapshot 0 ∅) (nthValidator 2) (emptyHeader 1)
      [] none := ⟨by decide +kernel, fun _ => by decide +kernel, by decide +kernel, fun h => h.1 rfl⟩
  have happly : (trioSnapshot 0 ∅).apply numberHash bohrSpec (nthValidator 2) (emptyHeader 1) []
      none none none = .ok (trioSnapshot 1 (AList.insert 1 (nthValidator 2) ∅)) := by
    decide +kernel
  exact .block .start hblock happly

theorem inturn_never_refused_trio :
    ∃ v ∈ (trioSnapshot 1 (AList.insert 1 (nthValidator 2) ∅)).validators,
      ((trioSnapshot 1 (AList.insert 1 (nthValidator 2) ∅)).inturnValidator : Outcome Unit Address)
        = .ok v ∧
      (trioSnapshot 1 (AList.insert 1 (nthValidator 2) ∅)).signRecently v = false :=
  (inturn_never_refused numberHash bohrSpec (trioSnapshot 0 ∅) _ rfl (by decide +kernel)
    (by decide +kernel) (by decide +kernel) (by decide +kernel) trioSnapshot_inturn).1
    (by decide +kernel)

end RethBsc.Snapshot
