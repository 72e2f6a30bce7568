import RethBsc.Parlia.RecentProposers

/-!
# Rotation of proposers

From Bohr on a validator may propose several blocks in a row, and `sign_recently` is what makes the
others get their turn.  This file takes the check of one step to the whole run: in a run without a
switch of the validator set, no window of `(n / 2 + 1) * T` blocks has more than `T` blocks by one
validator.

* `RotationRun`: the blocks after a start, each accepted by the recency rule and applied.
* `Rotating`: what the run keeps.  Above the left bound, `recent_proposers` is the run; no counter
  reaches 256; each proposer so far was rare among the blocks before.
* `rotation_bound`: the bound on a window.

The zero address is not counted, since it marks epochs, and block 0 is not counted, which matters
when block numbers wrap.  Both escape the rule (`rotation_evaded`).
-/

namespace RethBsc.Snapshot

open Rust

/-! ## Runs -/

/-- The proposers of the blocks applied after `start`, and the snapshot they lead to.  Every block
is Bohr-active, its proposer passes the two tests of `verify_seal` on the parent snapshot, and
`apply` neither switches the validator set nor clears proposers of finalized blocks. -/
inductive RotationRun (hashSlow : Header → B256) (spec : ChainSpec) (start : Snapshot) :
    List Address → Snapshot → Prop
  | start : RotationRun hashSlow spec start [] start
  | block {proposers : List Address} {s s' : Snapshot} {v : Address} {header : Header}
      {newValidators : List Address} {voteAddrs : Option (List VoteAddress)}
      {attestation : Option VoteAttestation} {turnLength : Option UInt8}
      (hrun : RotationRun hashSlow spec start proposers s)
      (hmem : v ∈ s.validators) (hsign : s.signRecently v = false)
      (hbohr : spec.isBohrActiveAtTimestamp header.number header.timestamp = true)
      (hswitch : ¬ s.Installs v hashSlow spec header newValidators attestation)
      (hclear : ¬ s.Clears v hashSlow spec header attestation)
      (happly : s.apply hashSlow spec v header newValidators voteAddrs attestation turnLength
        = .ok s') :
      RotationRun hashSlow spec start (proposers ++ [v]) s'

/-- Snapshots that blocks before Bohr lead to. -/
inductive BeforeBohr (hashSlow : Header → B256) (spec : ChainSpec) : Snapshot → Prop
  | genesis {validators : List Address} {blockNumber epochNum : UInt64} {blockHash : B256}
      {voteAddrs : Option (List VoteAddress)} {s : Snapshot}
      (h : new validators blockNumber blockHash epochNum voteAddrs = .ok s) :
      BeforeBohr hashSlow spec s
  | apply {s s' : Snapshot} {v : Address} {header : Header} {newValidators : List Address}
      {voteAddrs : Option (List VoteAddress)} {attestation : Option VoteAttestation}
      {turnLength : Option UInt8} (hs : BeforeBohr hashSlow spec s)
      (hbohr : spec.isBohrActiveAtTimestamp header.number header.timestamp = false)
      (hnumber : header.number.toNat = s.blockNumber.toNat + 1)
      (h : s.apply hashSlow spec v header newValidators voteAddrs attestation turnLength
        = .ok s') :
      BeforeBohr hashSlow spec s'

/-- Where a run may start: without recent proposers, right after a switch, or where Bohr begins. -/
inductive RotationStart (hashSlow : Header → B256) (spec : ChainSpec) (s : Snapshot) : Prop
  | empty (h : s.recentProposers = ∅)
  | switched {parent : Snapshot} {v : Address} {header : Header} {newValidators : List Address}
      {voteAddrs : Option (List VoteAddress)} {attestation : Option VoteAttestation}
      {turnLength : Option UInt8}
      (hbohr : spec.isBohrActiveAtTimestamp header.number header.timestamp = true)
      (hinstalls : parent.Installs v hashSlow spec header newValidators attestation)
      (h : parent.apply hashSlow spec v header newValidators voteAddrs attestation turnLength
        = .ok s)
  | beforeBohr (h : BeforeBohr hashSlow spec s)

/-! ## Starting -/

section Start

variable {hashSlow : Header → B256} {spec : ChainSpec} {s s' : Snapshot} {v : Address}
  {header : Header} {newValidators : List Address} {voteAddrs : Option (List VoteAddress)}
  {attestation : Option VoteAttestation} {turnLength : Option UInt8}

/-- Every proposer listed, the marker of an epoch apart, is that of a block up to this one. -/
def PastOnly (s : Snapshot) : Prop :=
  ∀ n v, s.recentProposers.lookup n = some v → v ≠ .zero → n ≤ s.blockNumber

/-- No counter of the recency rule has wrapped. -/
def SmallCounts (s : Snapshot) : Prop := ∀ v, s.windowCount v < 256

/-- The number of blocks a map of recent proposers has from `v`. -/
def listed (v : Address) (m : RecentProposers) : Nat := Map.countEntries (fun _ w => w == v) m

theorem windowCount_le_listed : s.windowCount v ≤ listed v s.recentProposers := by
  unfold windowCount
  split
  · exact Nat.zero_le _
  · exact Map.countEntries_mono fun n w h => by simp_all

theorem smallCounts_of_listed (h : ∀ v, v ≠ .zero → listed v s.recentProposers ≤ 1) :
    s.SmallCounts := by
  intro v
  by_cases hv : v = .zero
  · rw [hv, windowCount_zero]
    decide
  · have := windowCount_le_listed (s := s) (v := v)
    have := h v hv
    omega

theorem advance_sub :
    Map.Sub (s.advance hashSlow header).recentProposers s.recentProposers := by
  unfold advance
  dsimp only
  split
  · exact Map.erase_sub
  · exact .refl _

theorem record_sub :
    Map.Sub (s.record spec v header attestation).recentProposers
      (s.recentProposers.insert header.number v) := by
  rw [record, updateAttestation_eq]
  dsimp only [setBlockInterval, switchEpochNum]
  split
  · exact Map.foldl_erase_sub _ _ _
  · exact .refl _

/-- Before Bohr a step enters the new block and otherwise drops proposers only. -/
theorem apply_sub
    (happly : s.apply hashSlow spec v header newValidators voteAddrs attestation turnLength
      = .ok s') (hbohr : spec.isBohrActiveAtTimestamp header.number header.timestamp = false) :
    Map.Sub s'.recentProposers
      ((s.advance hashSlow header).recentProposers.insert header.number v) := by
  obtain ⟨-, -, -, hswitch⟩ := apply_eq_ok.mp happly
  rcases switchValidators_eq_ok hswitch with ⟨-, hs'⟩ | ⟨-, validators, map, -, hs'⟩
  · rw [hs']
    exact record_sub
  · have hrecent := congrArg Snapshot.recentProposers hs'
    rw [hbohr] at hrecent
    rw [hrecent]
    exact (Map.foldl_erase_sub _ _ _).trans record_sub

theorem BeforeBohr.pastOnly (h : BeforeBohr hashSlow spec s) : s.PastOnly := by
  induction h with
  | genesis h =>
    obtain ⟨⟨validators, map⟩, -, hs⟩ := Outcome.bind_eq_ok.mp h
    cases hs
    intro n v hn
    simp at hn
  | @apply s s' v header _ _ _ _ _ hbohr hnumber happly ih =>
    intro n w hn hw
    rw [(apply_spec happly).blockNumber]
    have hinsert := apply_sub happly hbohr n w hn
    by_cases hkey : n = header.number
    · rw [hkey]
      exact UInt64.le_rfl
    · rw [AList.lookup_insert_ne hkey] at hinsert
      have hle := ih n w (advance_sub n w hinsert) hw
      rw [UInt64.le_iff_toNat_le] at hle ⊢
      omega

/-- Before Bohr no validator is listed twice, since `apply` looks for it in the whole map. -/
theorem BeforeBohr.listed_le (h : BeforeBohr hashSlow spec s) (v : Address) :
    listed v s.recentProposers ≤ 1 := by
  induction h with
  | genesis h =>
    obtain ⟨⟨validators, map⟩, -, hs⟩ := Outcome.bind_eq_ok.mp h
    cases hs
    exact Nat.zero_le _
  | @apply s s' w header _ _ _ _ _ hbohr hnumber happly ih =>
    obtain ⟨-, -, hover, -⟩ := apply_eq_ok.mp happly
    have hadvance : listed v (s.advance hashSlow header).recentProposers ≤ 1 :=
      advance_sub.countEntries_le.trans ih
    have hsub : listed v s'.recentProposers
        ≤ listed v ((s.advance hashSlow header).recentProposers.insert header.number w) :=
      (apply_sub happly hbohr).countEntries_le
    have hinsert : listed v ((s.advance hashSlow header).recentProposers.insert header.number w)
        ≤ listed v (s.advance hashSlow header).recentProposers + if w == v then 1 else 0 :=
      Map.countEntries_insert_le
    by_cases hwv : w = v
    · -- the new block's proposer was not in the map
      have hnone : listed v (s.advance hashSlow header).recentProposers = 0 := by
        rw [hbohr] at hover
        simp only [overProposed, Bool.false_eq_true, if_false, List.any_eq_false] at hover
        rw [listed, Map.countEntries, List.countP_eq_zero]
        exact fun e he => hwv ▸ hover e he
      split at hinsert <;> omega
    · rw [if_neg (by simpa using hwv)] at hinsert
      omega

theorem RotationStart.sound (h : RotationStart hashSlow spec s) : s.PastOnly ∧ s.SmallCounts := by
  have hzero : ∀ key : UInt64, s.recentProposers = ∅ ∨
      s.recentProposers = (∅ : RecentProposers).insert key .zero →
      s.PastOnly ∧ s.SmallCounts := by
    intro key hm
    refine ⟨fun n v hn hv => absurd (zero_only hm hn) hv, smallCounts_of_listed fun v hv => ?_⟩
    have hnone : ¬ 0 < listed v s.recentProposers := by
      intro hpos
      obtain ⟨n, w, hn, hw⟩ := Map.countEntries_pos.mp hpos
      exact hv ((beq_iff_eq.mp hw) ▸ zero_only hm hn)
    omega
  cases h with
  | empty h => exact hzero 0 (.inl h)
  | switched hbohr hinstalls h =>
    exact hzero _ (.inr ((apply_of_installs h hinstalls).2.2 hbohr))
  | beforeBohr h => exact ⟨h.pastOnly, smallCounts_of_listed fun v _ => h.listed_le v⟩

end Start

/-! ## The invariant of a run -/

section Run

variable {hashSlow : Header → B256} {spec : ChainSpec} {start s s' : Snapshot}
  {proposers : List Address} {v w : Address} {header : Header} {newValidators : List Address}
  {voteAddrs : Option (List VoteAddress)} {attestation : Option VoteAttestation}
  {turnLength : Option UInt8}

structure Rotating (start : Snapshot) (proposers : List Address) (s : Snapshot) : Prop where
  validators : s.validators = start.validators
  turnLength : s.turnLength = start.turnLength
  blockNumber : s.blockNumber.toNat = start.blockNumber.toNat + proposers.length
  pastOnly : s.PastOnly
  smallCounts : s.SmallCounts
  /-- After the left bound and the start, the map lists the blocks of the run. -/
  window : ∀ v, v ≠ .zero → ∀ left, s.leftBound ≤ left → start.blockNumber ≤ left →
    proposedAfter left v s.recentProposers
      = (proposers.drop (left.toNat - start.blockNumber.toNat)).count v
  spaced : ∀ v, v ≠ .zero →
    Spaced start.minerHistoryCheckLen.toNat start.turns v proposers

theorem Rotating.minerHistoryCheckLen (h : Rotating start proposers s) :
    s.minerHistoryCheckLen = start.minerHistoryCheckLen := by
  unfold Snapshot.minerHistoryCheckLen
  rw [h.validators, h.turnLength]

theorem Rotating.turns (h : Rotating start proposers s) : s.turns = start.turns := by
  unfold Snapshot.turns
  rw [h.turnLength]

theorem RotationStart.rotating (h : RotationStart hashSlow spec start) :
    Rotating start [] start where
  validators := rfl
  turnLength := rfl
  blockNumber := rfl
  pastOnly := h.sound.1
  smallCounts := h.sound.2
  window := by
    intro v hv left _ hle
    have hnone : ¬ 0 < proposedAfter left v start.recentProposers := by
      intro hpos
      obtain ⟨n, w, hn, hw⟩ := Map.countEntries_pos.mp hpos
      obtain ⟨hlt, rfl⟩ := of_decide_eq_true hw
      have hpast := h.sound.1 n w hn hv
      grind
    rw [List.drop_nil, List.count_nil]
    omega
  spaced := fun v _ => spaced_nil

theorem proposedAfter_anti {left left' : UInt64} {m : RecentProposers} (h : left ≤ left') :
    proposedAfter left' v m ≤ proposedAfter left v m := by
  refine Map.countEntries_mono fun n w hw => ?_
  grind

/-- The last blocks of the run, as many as the rule looks back, are counted. -/
theorem Rotating.count_le_windowCount (h : Rotating start proposers s) (hv : v ≠ .zero) :
    (proposers.drop (proposers.length - start.minerHistoryCheckLen.toNat)).count v
      ≤ s.windowCount v := by
  have hleft := toNat_leftBound (s := s)
  rw [h.minerHistoryCheckLen, h.blockNumber] at hleft
  rw [windowCount_of_ne hv]
  rcases UInt64.le_total s.leftBound start.blockNumber with hle | hle
  · -- the window reaches back to the start or beyond it
    have hcount := h.window v hv start.blockNumber hle UInt64.le_rfl
    rw [UInt64.le_iff_toNat_le] at hle
    rw [Nat.sub_self, List.drop_zero] at hcount
    rw [show proposers.length - start.minerHistoryCheckLen.toNat = 0 by omega, List.drop_zero,
      ← hcount]
    exact proposedAfter_anti (UInt64.le_iff_toNat_le.mpr hle)
  · have hcount := h.window v hv s.leftBound UInt64.le_rfl hle
    rw [UInt64.le_iff_toNat_le] at hle
    rw [hcount, show s.leftBound.toNat - start.blockNumber.toNat
      = proposers.length - start.minerHistoryCheckLen.toNat by omega]

/-- A proposer that the rule lets pass has fewer blocks in the window than the turn length. -/
theorem Rotating.windowCount_lt (h : Rotating start proposers s) (hturns : 1 ≤ start.turns)
    (hsign : s.signRecently v = false) : s.windowCount v < start.turns := by
  have hsmall := h.smallCounts v
  have hrule : ¬ (0 < s.windowCount v ∧ s.turns ≤ s.windowCount v % 256) := by
    rw [← signRecently_iff, hsign]
    exact Bool.false_ne_true
  rw [h.turns, Nat.mod_eq_of_lt hsmall] at hrule
  omega

/-! ### One block -/

theorem proposedAfter_insert {left k : UInt64} {m : RecentProposers} (h : m.lookup k ≠ some w) :
    proposedAfter left w (m.insert k v)
      = proposedAfter left w m + if left < k ∧ v = w then 1 else 0 := by
  unfold proposedAfter
  rw [Map.countEntries_insert]
  · simp only [decide_eq_true_eq]
  · intro x hx
    refine decide_eq_false ?_
    rintro ⟨-, rfl⟩
    exact h hx

/-- The copy counts from its left bound on what the parent counts. -/
theorem proposedAfter_advance {left : UInt64} (hpast : s.PastOnly)
    (hnumber : header.number.toNat = s.blockNumber.toNat + 1) (hw : w ≠ .zero)
    (hleft : (s.advance hashSlow header).leftBound ≤ left) :
    proposedAfter left w (s.advance hashSlow header).recentProposers
      = proposedAfter left w s.recentProposers := by
  have hlen := s.minerHistoryCheckLen.toNat_lt
  rw [UInt64.le_iff_toNat_le, toNat_leftBound_advance] at hleft
  by_cases hlimit : s.minerHistoryCheckLen + 1 ≤ header.number
  · have hrecent : (s.advance hashSlow header).recentProposers
        = s.recentProposers.erase (header.number - (s.minerHistoryCheckLen + 1)) := if_pos hlimit
    have hkey := UInt64.toNat_sub_of_le _ _ hlimit
    rw [UInt64.toNat_add] at hkey
    simp only [UInt64.reduceToNat] at hkey
    rw [hrecent]
    refine Map.countEntries_erase_of_not fun x hx => decide_eq_false ?_
    rintro ⟨hlt, rfl⟩
    -- the pruned key is below the bound, unless `limit` wrapped and it is that of a future block
    have hle := hpast _ _ hx hw
    rw [UInt64.le_iff_toNat_le] at hle
    rw [UInt64.lt_iff_toNat_lt] at hlt
    omega
  · rw [show (s.advance hashSlow header).recentProposers = s.recentProposers from if_neg hlimit]

theorem QuietStep.leftBound (h : QuietStep s v s' hashSlow header) :
    s'.leftBound = (s.advance hashSlow header).leftBound := by
  rw [Snapshot.leftBound, minerHistoryCheckLen, h.blockNumber, h.validators, h.turnLength]
  rfl

theorem QuietStep.pastOnly (h : QuietStep s v s' hashSlow header) (hpast : s.PastOnly)
    (hnumber : header.number.toNat = s.blockNumber.toNat + 1) : s'.PastOnly := by
  intro n w hn hw
  rw [h.recentProposers] at hn
  rw [h.blockNumber]
  by_cases hkey : n = header.number
  · rw [hkey]
    exact UInt64.le_rfl
  · rw [AList.lookup_insert_ne hkey] at hn
    have hle := hpast n w (advance_sub n w hn) hw
    rw [UInt64.le_iff_toNat_le] at hle ⊢
    omega

/-- Counting after a step: what the copy counts, and the new block. -/
theorem QuietStep.proposedAfter (h : QuietStep s v s' hashSlow header) (hpast : s.PastOnly)
    (hnumber : header.number.toNat = s.blockNumber.toNat + 1) (hw : w ≠ .zero)
    (left : UInt64) :
    Snapshot.proposedAfter left w s'.recentProposers
      = Snapshot.proposedAfter left w (s.advance hashSlow header).recentProposers
        + if left < header.number ∧ v = w then 1 else 0 := by
  rw [h.recentProposers]
  refine proposedAfter_insert fun hlookup => ?_
  have hle := hpast _ _ (advance_sub _ _ hlookup) hw
  rw [UInt64.le_iff_toNat_le] at hle
  omega

/-- A step keeps the counters small, since the new proposer's was below the turn length. -/
theorem QuietStep.smallCounts (h : QuietStep s v s' hashSlow header) (hpast : s.PastOnly)
    (hnumber : header.number.toNat = s.blockNumber.toNat + 1) (hsmall : s.SmallCounts)
    (hlt : s.windowCount v < s.turns) : s'.SmallCounts := by
  intro w
  by_cases hw : w = .zero
  · rw [hw, windowCount_zero]
    decide
  · have hadvance : (s.advance hashSlow header).windowCount w ≤ s.windowCount w := by
      rw [windowCount_advance hnumber hw]
      exact Nat.le_add_right _ _
    have hcount : s'.windowCount w ≤ s.windowCount w + if v = w then 1 else 0 := by
      rw [windowCount_of_ne hw, h.proposedAfter hpast hnumber hw, h.leftBound,
        ← windowCount_of_ne hw]
      grind
    have hcounter := hsmall w
    have hlimit := s.turns_lt
    grind

/-- **One block of the run.** -/
theorem Rotating.block (h : Rotating start proposers s) (hturns : 1 ≤ start.turns)
    (hnowrap : start.blockNumber.toNat + (proposers.length + 1) < 2 ^ 64)
    (hsign : s.signRecently v = false) (hstep : QuietStep s v s' hashSlow header) :
    Rotating start (proposers ++ [v]) s' := by
  have hblockNumber := h.blockNumber
  have hnumber : header.number.toNat = s.blockNumber.toNat + 1 := by
    rw [← hstep.number, UInt64.toNat_add]
    simp only [UInt64.reduceToNat]
    omega
  have hlt := h.windowCount_lt hturns hsign
  refine ⟨hstep.validators.trans h.validators, hstep.turnLength.trans h.turnLength, ?_,
    hstep.pastOnly h.pastOnly hnumber,
    hstep.smallCounts h.pastOnly hnumber h.smallCounts (h.turns ▸ hlt), ?_, ?_⟩
  · rw [hstep.blockNumber, hnumber, List.length_append, List.length_singleton]
    omega
  · intro w hw left hle hstart
    rw [hstep.leftBound] at hle
    have hprev : s.leftBound ≤ left := by
      rw [UInt64.le_iff_toNat_le, toNat_leftBound_advance] at hle
      rw [UInt64.le_iff_toNat_le, toNat_leftBound]
      omega
    rw [hstep.proposedAfter h.pastOnly hnumber hw,
      proposedAfter_advance h.pastOnly hnumber hw hle, h.window w hw left hprev hstart]
    rw [UInt64.le_iff_toNat_le] at hstart
    by_cases hnew : left < header.number
    · grind [UInt64.lt_iff_toNat_lt]
    · rw [if_neg fun hand => hnew hand.1]
      rw [UInt64.lt_iff_toNat_lt] at hnew
      rw [List.drop_eq_nil_of_le (by omega), List.drop_eq_nil_of_le (by simp; omega)]
      rfl
  · intro w hw
    refine (h.spaced w hw).append fun hvw => ?_
    subst hvw
    exact Nat.lt_of_le_of_lt (h.count_le_windowCount hw) hlt

/-- The invariant along a run whose block numbers do not wrap. -/
theorem RotationRun.rotating (hrun : RotationRun hashSlow spec start proposers s)
    (hstart : RotationStart hashSlow spec start) (hturns : 1 ≤ start.turns)
    (hnowrap : start.blockNumber.toNat + proposers.length < 2 ^ 64) :
    Rotating start proposers s := by
  induction hrun with
  | start => exact hstart.rotating
  | block _ _ hsign _ hswitch hclear happly ih =>
    rw [List.length_append, List.length_singleton] at hnowrap
    exact (ih (by omega)).block hturns hnowrap hsign (apply_quiet happly hswitch hclear)

end Run

/-! ## The bound -/

/-- How far the rule looks back, without the wrap. -/
theorem toNat_minerHistoryCheckLen {s : Snapshot} (hturns : 1 ≤ s.turns)
    (hlen : (s.validators.length / 2 + 1) * s.turns < 2 ^ 64) :
    s.minerHistoryCheckLen.toNat + 1 = (s.validators.length / 2 + 1) * s.turns := by
  have hturn : (s.turnLength.getD 1).toUInt64.toNat = s.turns := by simp [turns]
  have hn : s.validators.length / 2 + 1 < 2 ^ 64 :=
    Nat.lt_of_le_of_lt (Nat.le_mul_of_pos_right _ hturns) hlen
  have hpos : 0 < (s.validators.length / 2 + 1) * s.turns := Nat.mul_pos (by omega) hturns
  rw [minerHistoryCheckLen, UInt64.toNat_sub_of_le, UInt64.toNat_mul, hturn, UInt64.toNat_ofNat', Nat.mod_eq_of_lt hn,
    Nat.mod_eq_of_lt hlen]
  · simp only [UInt64.reduceToNat]
    omega
  · rwa [UInt64.le_iff_toNat_le, UInt64.toNat_mul, hturn, UInt64.toNat_ofNat', Nat.mod_eq_of_lt hn,
      Nat.mod_eq_of_lt hlen]

/-- **Rotation bound.**  Every window of `(n / 2 + 1) * T` consecutive blocks of a run has at most
`T` blocks by one validator. -/
theorem rotation_bound (hashSlow : Header → B256) (spec : ChainSpec) (start s : Snapshot)
    (proposers window : List Address) (v : Address) (hstart : RotationStart hashSlow spec start)
    (hturns : 1 ≤ start.turns) (hrun : RotationRun hashSlow spec start proposers s)
    (hnowrap : start.blockNumber.toNat + proposers.length < 2 ^ 64)
    (hwindow : window <:+: proposers)
    (hlength : window.length = (start.validators.length / 2 + 1) * start.turns)
    (hv : v ≠ .zero) :
    window.count v ≤ start.turns := by
  have hinv := hrun.rotating hstart hturns hnowrap
  have hlen := toNat_minerHistoryCheckLen hturns (by
    rw [← hlength]
    have := hwindow.length_le
    omega)
  obtain ⟨before, after, rfl⟩ := hwindow
  have hcut : window = ((before ++ window ++ after).drop before.length).take window.length := by
    simp
  rw [hcut]
  exact count_window_le (hinv.spaced v hv) _ (by omega)

/-! ### Blocks that are not counted -/

/-- An empty block of `bohrSpec` in a run. -/
theorem RotationRun.emptyBlock {start s s' : Snapshot} {proposers : List Address} {v : Address}
    (number : UInt64) (hrun : RotationRun numberHash bohrSpec start proposers s)
    (hmem : v ∈ s.validators) (hsign : s.signRecently v = false)
    (happly : s.apply numberHash bohrSpec v (emptyHeader number) [] none none none = .ok s') :
    RotationRun numberHash bohrSpec start (proposers ++ [v]) s' := by
  refine .block hrun hmem hsign ?_ (fun h => h.1 rfl) (fun h => ?_) happly
  · rfl
  · have hmaxwell := h.1
    simp [ChainSpec.isMaxwellActiveAtTimestamp, ChainSpec.isActiveAtTimestamp,
      ForkCondition.activeAtTimestamp, bohrSpec] at hmaxwell

/-- One of the two validators is the zero address. -/
def zeroSnapshot : UInt64 → RecentProposers → Snapshot :=
  emptySnapshot [.zero, nthValidator 1]

def trioSnapshot : UInt64 → RecentProposers → Snapshot :=
  emptySnapshot [nthValidator 1, nthValidator 2, nthValidator 3]

/-- Two blocks of the zero address. -/
theorem zeroSnapshot_run :
    RotationRun numberHash bohrSpec (zeroSnapshot 0 ∅) [.zero, .zero]
      (zeroSnapshot 2 (AList.insert 2 .zero (AList.insert 1 .zero ∅))) := by
  have hfirst : RotationRun numberHash bohrSpec (zeroSnapshot 0 ∅) ([] ++ [.zero])
      (zeroSnapshot 1 (AList.insert 1 .zero ∅)) :=
    RotationRun.start.emptyBlock 1 (by decide +kernel) (by decide +kernel) (by decide +kernel)
  exact hfirst.emptyBlock 2 (by decide +kernel) (by decide +kernel) (by decide +kernel)

/-- The last block before the wrap, and two blocks by the second validator after it. -/
theorem trioSnapshot_run :
    RotationRun numberHash bohrSpec (trioSnapshot 0xFFFFFFFFFFFFFFFE ∅)
      [nthValidator 1, nthValidator 2, nthValidator 2]
      (trioSnapshot 1 (AList.insert 1 (nthValidator 2) (AList.insert 0 (nthValidator 2)
        (AList.insert 0xFFFFFFFFFFFFFFFF (nthValidator 1) ∅)))) := by
  have hfirst : RotationRun numberHash bohrSpec (trioSnapshot 0xFFFFFFFFFFFFFFFE ∅)
      ([] ++ [nthValidator 1])
      (trioSnapshot 0xFFFFFFFFFFFFFFFF (AList.insert 0xFFFFFFFFFFFFFFFF (nthValidator 1) ∅)) :=
    RotationRun.start.emptyBlock 0xFFFFFFFFFFFFFFFF (by decide +kernel) (by decide +kernel)
      (by decide +kernel)
  have hsecond : RotationRun numberHash bohrSpec (trioSnapshot 0xFFFFFFFFFFFFFFFE ∅)
      ([nthValidator 1] ++ [nthValidator 2])
      (trioSnapshot 0 (AList.insert 0 (nthValidator 2)
        (AList.insert 0xFFFFFFFFFFFFFFFF (nthValidator 1) ∅))) :=
    hfirst.emptyBlock 0 (by decide +kernel) (by decide +kernel) (by decide +kernel)
  exact hsecond.emptyBlock 1 (by decide +kernel) (by decide +kernel) (by decide +kernel)

/-- Both conditions of the bound are needed: the zero address proposes twice in a row, and so does
the validator that proposes block 0 after the block numbers have wrapped. -/
theorem rotation_evaded :
    (RotationStart numberHash bohrSpec (zeroSnapshot 0 ∅) ∧
      (∃ s, RotationRun numberHash bohrSpec (zeroSnapshot 0 ∅)
        [.zero, .zero] s) ∧
      ((zeroSnapshot 0 ∅).validators.length / 2 + 1) * (zeroSnapshot 0 ∅).turns = 2 ∧
      (zeroSnapshot 0 ∅).turns < [.zero, .zero].count
        (.zero : Address)) ∧
    (RotationStart numberHash bohrSpec (trioSnapshot 0xFFFFFFFFFFFFFFFE ∅) ∧
      (∃ s, RotationRun numberHash bohrSpec (trioSnapshot 0xFFFFFFFFFFFFFFFE ∅)
        [nthValidator 1, nthValidator 2, nthValidator 2] s) ∧
      ((trioSnapshot 0xFFFFFFFFFFFFFFFE ∅).validators.length / 2 + 1) *
        (trioSnapshot 0xFFFFFFFFFFFFFFFE ∅).turns = 2 ∧
      (trioSnapshot 0xFFFFFFFFFFFFFFFE ∅).turns
        < [nthValidator 2, nthValidator 2].count (nthValidator 2)) :=
  ⟨⟨.empty rfl, ⟨_, zeroSnapshot_run⟩, by decide +kernel, by decide +kernel⟩,
    ⟨.empty rfl, ⟨_, trioSnapshot_run⟩, by decide +kernel, by decide +kernel⟩⟩

/-- Three validators in turn. -/
theorem trioSnapshot_turns :
    RotationRun numberHash bohrSpec (trioSnapshot 0 ∅) [nthValidator 1, nthValidator 2]
      (trioSnapshot 2 (AList.insert 2 (nthValidator 2) (AList.insert 1 (nthValidator 1) ∅))) := by
  have hfirst : RotationRun numberHash bohrSpec (trioSnapshot 0 ∅) ([] ++ [nthValidator 1])
      (trioSnapshot 1 (AList.insert 1 (nthValidator 1) ∅)) :=
    RotationRun.start.emptyBlock 1 (by decide +kernel) (by decide +kernel) (by decide +kernel)
  exact hfirst.emptyBlock 2 (by decide +kernel) (by decide +kernel) (by decide +kernel)

theorem rotation_bound_trio :
    [nthValidator 1, nthValidator 2].count (nthValidator 2) ≤ (trioSnapshot 0 ∅).turns :=
  rotation_bound numberHash bohrSpec (trioSnapshot 0 ∅) _ [nthValidator 1, nthValidator 2]
    [nthValidator 1, nthValidator 2] (nthValidator 2) (.empty rfl) (by decide +kernel)
    trioSnapshot_turns (by decide +kernel) (List.infix_refl _) (by decide +kernel)
    (by decide +kernel)

end RethBsc.Snapshot
