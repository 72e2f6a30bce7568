import RethBsc.Rust.Counting
import RethBsc.Parlia.Snapshot

/-!
# The recency rule

Two places of the source ask whether a validator has proposed too often: `verify_seal` asks the
snapshot of the parent, `Snapshot::apply` asks its own copy, in which the block number has moved on
and one proposer has been pruned.  The question is the same function `sign_recently`, which counts
the entries of `recent_proposers` above a left bound in `u8` counters.

* `signRecently_iff`: the rule as a count.
* `windowCount_advance`: the copy counts one block fewer than the parent, the `leavingBlock`.
* `apply_eq_err_iff`: for a member of the validator set, `apply` rejects on the recency rule only.
-/

namespace RethBsc.Snapshot

open Rust

variable (s : Snapshot)

/-- Blocks up to this number are not counted. -/
def leftBound : UInt64 :=
  if s.blockNumber > s.minerHistoryCheckLen then s.blockNumber - s.minerHistoryCheckLen else 0

/-- The turn length the recency rule compares with. -/
def turns : Nat := (s.turnLength.getD 1).toNat

theorem turns_lt : s.turns < 256 := (s.turnLength.getD 1).toNat_lt

/-- How many blocks after `left` a map of recent proposers has from `v`. -/
def proposedAfter (left : UInt64) (v : Address) (m : RecentProposers) : Nat :=
  Map.countEntries (fun n w => decide (left < n ∧ w = v)) m

/-- How many blocks by `v` the rule counts.  The zero address marks epochs and is skipped. -/
def windowCount (v : Address) : Nat :=
  if v = .zero then 0 else proposedAfter s.leftBound v s.recentProposers

variable {s} {v : Address}

theorem windowCount_zero : s.windowCount .zero = 0 := if_pos rfl

theorem windowCount_of_ne (hv : v ≠ .zero) :
    s.windowCount v = proposedAfter s.leftBound v s.recentProposers := if_neg hv

/-! ## The counters -/

/-- The proposers the rule counts, one for each block. -/
def countedProposers (s : Snapshot) : List Address :=
  (s.recentProposers.entries.filter fun e =>
    !decide (e.1 ≤ s.leftBound ∨ e.2 = .zero)).map Sigma.snd

theorem countRecentProposers_eq : s.countRecentProposers = tally s.countedProposers := by
  rw [tally, countedProposers, List.foldl_map, List.foldl_filter]
  unfold countRecentProposers
  refine congrArg (fun f => List.foldl f _ _) ?_
  funext counts e
  show (if e.1 ≤ s.leftBound ∨ e.2 = .zero then counts else _) = _
  grind

theorem count_countedProposers : s.countedProposers.count v = s.windowCount v := by
  rw [countedProposers, List.count_eq_countP, List.countP_map, List.countP_filter]
  by_cases hv : v = .zero
  · subst hv
    rw [windowCount_zero, List.countP_eq_zero]
    simp_all
  · rw [windowCount_of_ne hv, proposedAfter, Map.countEntries]
    grind

/-- **The recency rule as a count**: `v` has a block in the window, and the `u8` counter of its
blocks has reached the turn length. -/
theorem signRecently_iff :
    s.signRecently v = true ↔ 0 < s.windowCount v ∧ s.turns ≤ s.windowCount v % 256 := by
  rw [signRecently, signRecentlyByCounts, countRecentProposers_eq, lookup_tally, count_countedProposers]
  by_cases hmem : v ∈ s.countedProposers
  · have hpos : 0 < s.windowCount v := by
      rw [← count_countedProposers]
      exact List.count_pos_iff.mpr hmem
    simp only [if_pos hmem, decide_eq_true_eq, hpos, true_and]
    rw [UInt64.le_iff_toNat_le]
    simp [turns]
  · have hzero : s.windowCount v = 0 := by
      rw [← count_countedProposers]
      exact List.count_eq_zero_of_not_mem hmem
    simp [hmem, hzero]

/-! ## The copy that `apply` asks -/

section Advance

variable {hashSlow : Header → B256} {header : Header}

variable (s) in
/-- The block that the parent snapshot counts and the copy does not.  If `limit` wraps to 0, the
pruned proposer is that of the new block number. -/
def leavingBlock : Option UInt64 :=
  if s.minerHistoryCheckLen + 1 = 0 then some (s.blockNumber + 1)
  else if s.minerHistoryCheckLen ≤ s.blockNumber then
    some (s.blockNumber + 1 - s.minerHistoryCheckLen)
  else none

variable (s) in
def leavingProposer : Option Address := s.leavingBlock.bind s.recentProposers.lookup

theorem toNat_leftBound :
    s.leftBound.toNat = s.blockNumber.toNat - s.minerHistoryCheckLen.toNat := by
  unfold leftBound
  split
  · next h => exact UInt64.toNat_sub_of_le _ _ (UInt64.le_of_lt h)
  · next h =>
    rw [gt_iff_lt, UInt64.lt_iff_toNat_lt] at h
    show 0 = _
    omega

theorem toNat_leftBound_advance :
    (s.advance hashSlow header).leftBound.toNat
      = header.number.toNat - s.minerHistoryCheckLen.toNat := toNat_leftBound

variable {k left : UInt64} {m : RecentProposers}

theorem proposedAfter_erase (hk : left < k) :
    proposedAfter left v m
      = proposedAfter left v (m.erase k) + if m.lookup k = some v then 1 else 0 := by
  have hone : (m.lookup k).any (fun w => decide (left < k ∧ w = v))
      = decide (m.lookup k = some v) := by
    cases m.lookup k with
    | none => rfl
    | some w => simp [hk]
  unfold proposedAfter
  rw [Map.countEntries_erase (k := k), hone]
  simp only [decide_eq_true_eq]

theorem proposedAfter_erase_of_le (hk : k ≤ left) :
    proposedAfter left v (m.erase k) = proposedAfter left v m :=
  Map.countEntries_erase_of_not fun w _ => by simp [UInt64.not_lt.mpr hk]

/-- Moving the bound over one block. -/
theorem proposedAfter_succ (hk : k.toNat = left.toNat + 1) :
    proposedAfter left v m = proposedAfter k v m + if m.lookup k = some v then 1 else 0 := by
  have hlt : ∀ n, n ≠ k → (left < n ↔ k < n) := by
    intro n hn
    rw [ne_eq, ← UInt64.toNat_inj] at hn
    simp only [UInt64.lt_iff_toNat_lt]
    omega
  have herase : proposedAfter left v (m.erase k) = proposedAfter k v (m.erase k) := by
    refine Map.countEntries_congr fun n w hlookup => ?_
    have hne : n ≠ k := (Map.lookup_erase_eq_some.mp hlookup).1
    simp only [hlt n hne]
  rw [proposedAfter_erase (k := k) (UInt64.lt_iff_toNat_lt.mpr (by omega)), herase,
    proposedAfter_erase_of_le UInt64.le_rfl]

theorem number_eq_succ (hnumber : header.number.toNat = s.blockNumber.toNat + 1) :
    header.number = s.blockNumber + 1 := by
  have hlt := header.number.toNat_lt
  rw [← UInt64.toNat_inj, UInt64.toNat_add, hnumber]
  simp only [UInt64.reduceToNat]
  omega

theorem toNat_limit (hwrap : s.minerHistoryCheckLen + 1 ≠ 0) :
    (s.minerHistoryCheckLen + 1).toNat = s.minerHistoryCheckLen.toNat + 1 := by
  have hlen := s.minerHistoryCheckLen.toNat_lt
  have hne : s.minerHistoryCheckLen.toNat + 1 ≠ 2 ^ 64 := by
    intro h
    apply hwrap
    rw [← UInt64.toNat_inj, UInt64.toNat_add]
    show (s.minerHistoryCheckLen.toNat + 1) % 2 ^ 64 = 0
    omega
  rw [UInt64.toNat_add]
  simp only [UInt64.reduceToNat]
  omega

/-- `limit` is 0: the window reaches back to the start, and the new number is pruned. -/
theorem windowCount_advance_of_wrap (hnumber : header.number.toNat = s.blockNumber.toNat + 1)
    (hv : v ≠ .zero) (hwrap : s.minerHistoryCheckLen + 1 = 0) :
    s.windowCount v = (s.advance hashSlow header).windowCount v
      + if s.leavingProposer = some v then 1 else 0 := by
  have hnext := number_eq_succ hnumber
  have hleft := toNat_leftBound (s := s)
  have hleft' : (s.advance hashSlow header).leftBound.toNat
      = header.number.toNat - s.minerHistoryCheckLen.toNat := toNat_leftBound_advance
  have hlt := header.number.toNat_lt
  have hrecent : (s.advance hashSlow header).recentProposers
      = s.recentProposers.erase (s.blockNumber + 1) := by
    simp [advance, hwrap, hnext]
  have hmax : s.minerHistoryCheckLen.toNat = 2 ^ 64 - 1 := by
    have hlen := s.minerHistoryCheckLen.toNat_lt
    have := congrArg UInt64.toNat hwrap
    rw [UInt64.toNat_add] at this
    simp only [UInt64.reduceToNat] at this
    omega
  have hbounds : (s.advance hashSlow header).leftBound = s.leftBound := by
    rw [← UInt64.toNat_inj]
    omega
  have hcounted : s.leftBound < s.blockNumber + 1 := by
    rw [UInt64.lt_iff_toNat_lt, ← hnext]
    omega
  rw [windowCount_of_ne hv, windowCount_of_ne hv]
  rw [leavingProposer, leavingBlock, if_pos hwrap, Option.bind_some, hrecent, hbounds]
  exact proposedAfter_erase hcounted

/-- The window of the copy is one block shorter; what is pruned was not counted before. -/
theorem windowCount_advance_of_le (hnumber : header.number.toNat = s.blockNumber.toNat + 1)
    (hv : v ≠ .zero) (hwrap : s.minerHistoryCheckLen + 1 ≠ 0)
    (hle : s.minerHistoryCheckLen ≤ s.blockNumber) :
    s.windowCount v = (s.advance hashSlow header).windowCount v
      + if s.leavingProposer = some v then 1 else 0 := by
  have hleft := toNat_leftBound (s := s)
  have hleft' : (s.advance hashSlow header).leftBound.toNat
      = header.number.toNat - s.minerHistoryCheckLen.toNat := toNat_leftBound_advance
  have hlimit := toNat_limit hwrap
  have hle' := UInt64.le_iff_toNat_le.mp hle
  have hkey : (s.blockNumber + 1 - s.minerHistoryCheckLen).toNat
      = s.blockNumber.toNat + 1 - s.minerHistoryCheckLen.toNat := by
    rw [← number_eq_succ hnumber,
      UInt64.toNat_sub_of_le _ _ (UInt64.le_iff_toNat_le.mpr (by omega)), hnumber]
  have hpruned : (header.number - (s.minerHistoryCheckLen + 1)).toNat
      = s.blockNumber.toNat - s.minerHistoryCheckLen.toNat := by
    rw [UInt64.toNat_sub_of_le _ _ (UInt64.le_iff_toNat_le.mpr (by omega)), hnumber, hlimit]
    omega
  have hrecent : (s.advance hashSlow header).recentProposers
      = s.recentProposers.erase (header.number - (s.minerHistoryCheckLen + 1)) :=
    if_pos (UInt64.le_iff_toNat_le.mpr (by omega))
  have hbound : (s.advance hashSlow header).leftBound
      = s.blockNumber + 1 - s.minerHistoryCheckLen := by
    rw [← UInt64.toNat_inj, hleft', hkey, hnumber]
  rw [windowCount_of_ne hv, windowCount_of_ne hv]
  rw [leavingProposer, leavingBlock, if_neg hwrap, if_pos hle, Option.bind_some, hrecent, hbound,
    proposedAfter_erase_of_le (UInt64.le_iff_toNat_le.mpr (by omega))]
  exact proposedAfter_succ (by omega)

/-- The window reaches back to the start and nothing is pruned. -/
theorem windowCount_advance_of_not_le (hnumber : header.number.toNat = s.blockNumber.toNat + 1)
    (hv : v ≠ .zero) (hwrap : s.minerHistoryCheckLen + 1 ≠ 0)
    (hle : ¬ s.minerHistoryCheckLen ≤ s.blockNumber) :
    s.windowCount v = (s.advance hashSlow header).windowCount v
      + if s.leavingProposer = some v then 1 else 0 := by
  have hleft := toNat_leftBound (s := s)
  have hleft' : (s.advance hashSlow header).leftBound.toNat
      = header.number.toNat - s.minerHistoryCheckLen.toNat := toNat_leftBound_advance
  have hlimit := toNat_limit hwrap
  have hlt : s.blockNumber.toNat < s.minerHistoryCheckLen.toNat := by
    rw [UInt64.le_iff_toNat_le] at hle
    omega
  have hrecent : (s.advance hashSlow header).recentProposers = s.recentProposers :=
    if_neg (by rw [UInt64.le_iff_toNat_le]; omega)
  have hbounds : (s.advance hashSlow header).leftBound = s.leftBound := by
    rw [← UInt64.toNat_inj]
    omega
  rw [windowCount_of_ne hv, windowCount_of_ne hv]
  rw [leavingProposer, leavingBlock, if_neg hwrap, if_neg hle, hrecent, hbounds]
  simp

/-- **The copy counts the leaving block no more.** -/
theorem windowCount_advance (hnumber : header.number.toNat = s.blockNumber.toNat + 1)
    (hv : v ≠ .zero) :
    s.windowCount v = (s.advance hashSlow header).windowCount v
      + if s.leavingProposer = some v then 1 else 0 := by
  by_cases hwrap : s.minerHistoryCheckLen + 1 = 0
  · exact windowCount_advance_of_wrap hnumber hv hwrap
  · by_cases hle : s.minerHistoryCheckLen ≤ s.blockNumber
    · exact windowCount_advance_of_le hnumber hv hwrap hle
    · exact windowCount_advance_of_not_le hnumber hv hwrap hle

end Advance

/-! ## A step that only enters the new block -/

section Step

variable {s' : Snapshot} {hashSlow : Header → B256} {spec : ChainSpec} {header : Header}
  {newValidators : List Address} {voteAddrs : Option (List VoteAddress)}
  {attestation : Option VoteAttestation} {turnLength : Option UInt8}

variable (s v) in
/-- The block makes `apply` install its new validator set: the set is not empty and, from Bohr on,
the epoch has no marker yet. -/
def Installs (hashSlow : Header → B256) (spec : ChainSpec) (header : Header)
    (newValidators : List Address) (attestation : Option VoteAttestation) : Prop :=
  newValidators ≠ [] ∧
    (spec.isBohrActiveAtTimestamp header.number header.timestamp = false ∨
      ((s.advance hashSlow header).record spec v header attestation).recentProposers.lookup
        (0xFFFFFFFFFFFFFFFF - header.number / s.epochNum) = none)

variable (s v) in
/-- The block makes `apply` drop recent proposers of finalized blocks. -/
def Clears (hashSlow : Header → B256) (spec : ChainSpec) (header : Header)
    (attestation : Option VoteAttestation) : Prop :=
  spec.isMaxwellActiveAtTimestamp header.number header.timestamp = true ∧
    ∃ n ∈ (s.advance hashSlow header).recentProposers.insert header.number v,
      n ≤ ((s.advance hashSlow header).updateAttestation spec header
        attestation).getFinalizedNumber

theorem clearFinalized_of_forall_lt (h : ∀ n ∈ s.recentProposers, ¬ n ≤ s.getFinalizedNumber) :
    s.clearFinalized = s := by
  have hnone : (s.recentProposers.keys.filter fun n => n ≤ s.getFinalizedNumber) = [] := by
    simp_all
    omega
  rw [clearFinalized, hnone]
  rfl

theorem record_recentProposers (h : ¬ s.Clears v hashSlow spec header attestation) :
    ((s.advance hashSlow header).record spec v header attestation).recentProposers
      = (s.advance hashSlow header).recentProposers.insert header.number v := by
  have hfields : ((s.advance hashSlow header).updateAttestation spec header
      attestation).recentProposers = (s.advance hashSlow header).recentProposers := by
    rw [updateAttestation_eq]
  unfold record
  dsimp only [setBlockInterval, switchEpochNum]
  split
  · next hmaxwell =>
    rw [clearFinalized_of_forall_lt]
    · show ((s.advance hashSlow header).updateAttestation spec header
        attestation).recentProposers.insert _ _ = _
      rw [hfields]
    · intro n hn hle
      refine h ⟨hmaxwell, n, ?_, hle⟩
      rwa [← hfields]
  · show ((s.advance hashSlow header).updateAttestation spec header
      attestation).recentProposers.insert _ _ = _
    rw [hfields]

/-- Without a switch, `apply` returns what `record` makes of the advanced copy. -/
theorem apply_of_not_installs
    (happly : s.apply hashSlow spec v header newValidators voteAddrs attestation turnLength
      = .ok s') (h : ¬ s.Installs v hashSlow spec header newValidators attestation) :
    s' = (s.advance hashSlow header).record spec v header attestation := by
  obtain ⟨-, -, -, hswitch⟩ := apply_eq_ok.mp happly
  rcases switchValidators_eq_ok hswitch with ⟨-, hs'⟩ | ⟨hinstalls, -⟩
  · exact hs'
  · exact absurd hinstalls h

variable (hashSlow s v header s') in
/-- A step that enters the new block and changes nothing else the recency rule reads. -/
structure QuietStep : Prop where
  number : s.blockNumber + 1 = header.number
  blockNumber : s'.blockNumber = header.number
  validators : s'.validators = s.validators
  turnLength : s'.turnLength = s.turnLength
  recentProposers :
    s'.recentProposers = (s.advance hashSlow header).recentProposers.insert header.number v

/-- `apply` takes such a step when it neither switches nor clears. -/
theorem apply_quiet
    (happly : s.apply hashSlow spec v header newValidators voteAddrs attestation turnLength
      = .ok s') (hswitch : ¬ s.Installs v hashSlow spec header newValidators attestation)
    (hclear : ¬ s.Clears v hashSlow spec header attestation) :
    QuietStep s v s' hashSlow header := by
  obtain ⟨recents, hrecord⟩ := record_eq (s.advance hashSlow header) spec v header attestation
  have hs' := apply_of_not_installs happly hswitch
  refine ⟨(apply_spec happly).number, (apply_spec happly).blockNumber, ?_, ?_, ?_⟩
  · rw [hs', hrecord]; rfl
  · rw [hs', hrecord]; rfl
  · rw [hs', record_recentProposers hclear]

/-- A switch installs the new set and the turn length given with it and, from Bohr on, leaves
nothing but the marker of the epoch of the recent proposers. -/
theorem apply_of_installs
    (happly : s.apply hashSlow spec v header newValidators voteAddrs attestation turnLength
      = .ok s') (h : s.Installs v hashSlow spec header newValidators attestation) :
    buildValidators newValidators voteAddrs = .ok (s'.validators, s'.validatorsMap) ∧
      s'.turnLength = (turnLength <|> s.turnLength) ∧
      (spec.isBohrActiveAtTimestamp header.number header.timestamp = true →
        s'.recentProposers = (∅ : RecentProposers).insert
          (0xFFFFFFFFFFFFFFFF - header.number / s.epochNum) .zero) := by
  obtain ⟨-, -, -, hswitch⟩ := apply_eq_ok.mp happly
  obtain ⟨recents, hrecord⟩ := record_eq (s.advance hashSlow header) spec v header attestation
  rcases switchValidators_eq_ok hswitch with ⟨hkept, -⟩ | ⟨-, validators, map, hbuild, rfl⟩
  · exact absurd h hkept
  · refine ⟨hbuild, ?_, fun hbohr => ?_⟩
    · rw [hrecord]
      rfl
    · rw [hbohr]
      rfl

/-- A marker stands for no proposer. -/
theorem zero_only {m : RecentProposers} {key n : UInt64}
    (hm : m = ∅ ∨ m = (∅ : RecentProposers).insert key .zero)
    (h : m.lookup n = some v) : v = .zero := by
  rcases hm with rfl | rfl
  · simp at h
  · by_cases hkey : n = key
    · subst hkey
      rw [AList.lookup_insert] at h
      exact (Option.some.inj h).symm
    · rw [AList.lookup_insert_ne hkey] at h
      simp at h

end Step

/-! ## Replaying headers and verifying blocks -/

section Replay

variable {hashSlow : Header → B256} {spec : ChainSpec} {header : Header}
  {newValidators : List Address} {voteAddrs : Option (List VoteAddress)}
  {attestation : Option VoteAttestation} {turnLength : Option UInt8}

theorem switchValidators_ne_err {isBohr : Bool} {blockNumber epochLength : UInt64} :
    s.switchValidators isBohr blockNumber epochLength newValidators voteAddrs turnLength
      ≠ .err () := by
  unfold switchValidators buildValidators
  cases voteAddrs with
  | none =>
    dsimp only
    split
    · simp
    · split <;> simp
  | some voteAddrs =>
    dsimp only
    split
    · simp
    · split
      · split <;> simp
      · simp

/-- From Bohr on, the next header of a member of the validator set is rejected on the recency rule
only. -/
theorem apply_eq_err_iff (hnumber : s.blockNumber + 1 = header.number) (hv : v ∈ s.validators)
    (hbohr : spec.isBohrActiveAtTimestamp header.number header.timestamp = true) :
    s.apply hashSlow spec v header newValidators voteAddrs attestation turnLength = .err () ↔
      (s.advance hashSlow header).signRecently v = true := by
  rw [apply, if_neg (by simpa using hnumber)]
  dsimp only
  rw [if_neg (by simpa [advance] using hv), hbohr]
  show (if (s.advance hashSlow header).signRecently v = true then _ else _) = _ ↔ _
  split
  · next h => simp [h]
  · next h => simp [h, switchValidators_ne_err]

variable (s v) in
/-- The leaving block is `v`'s, and with it `v`'s counter is at the turn length (or has just
wrapped), so that the rule depends on that block. -/
def AtLimit : Prop :=
  v ≠ .zero ∧ s.leavingProposer = some v ∧
    if s.turns = 0 then s.windowCount v = 1
    else s.windowCount v % 256 = s.turns ∨ s.windowCount v % 256 = 0

instance : Decidable (s.AtLimit v) := by unfold AtLimit; infer_instance

/-- A counter and the counter without one block are on the same side of the turn length unless the
counter is at it. -/
theorem counter_agrees_iff {count turns : Nat} (hturns : turns < 256) :
    ((0 < count ∧ turns ≤ count % 256) ↔ (0 < count + 1 ∧ turns ≤ (count + 1) % 256)) ↔
      ¬ if turns = 0 then count + 1 = 1 else (count + 1) % 256 = turns ∨ (count + 1) % 256 = 0 := by
  split <;> omega

/-- **The two uses of the recency rule.**  Replaying the next header of `v` rejects it exactly when
`verify_seal` does, except at the limit. -/
theorem replay_agrees_iff (hashSlow : Header → B256) (spec : ChainSpec) (s : Snapshot)
    (header : Header) (v : Address) (newValidators : List Address)
    (voteAddrs : Option (List VoteAddress)) (attestation : Option VoteAttestation)
    (turnLength : Option UInt8) (hnumber : header.number.toNat = s.blockNumber.toNat + 1)
    (hbohr : spec.isBohrActiveAtTimestamp header.number header.timestamp = true)
    (hv : v ∈ s.validators) :
    (s.apply hashSlow spec v header newValidators voteAddrs attestation turnLength = .err () ↔
        s.signRecently v = true) ↔
      ¬ s.AtLimit v := by
  have hnext : s.blockNumber + 1 = header.number := by
    rw [← UInt64.toNat_inj, UInt64.toNat_add, hnumber]
    have := header.number.toNat_lt
    simp only [UInt64.reduceToNat]
    omega
  have hturns : (s.advance hashSlow header).turns = s.turns := rfl
  rw [apply_eq_err_iff hnext hv hbohr, signRecently_iff, signRecently_iff, hturns]
  by_cases hzero : v = .zero
  · subst hzero
    simp [windowCount_zero, AtLimit]
  · have hcount : s.windowCount v = (s.advance hashSlow header).windowCount v + _ :=
      windowCount_advance hnumber hzero
    by_cases hleaving : s.leavingProposer = some v
    · rw [if_pos hleaving] at hcount
      rw [AtLimit, hcount, counter_agrees_iff s.turns_lt]
      simp only [ne_eq, hzero, not_false_eq_true, hleaving, true_and]
    · simp_all [AtLimit]

end Replay

/-! ### Two validators

Their window is the latest block only, and the copy that `apply` asks counts no block at all. -/

def nthValidator (i : UInt8) : Address := .repeatByte 20 i

def pairSnapshot : UInt64 → RecentProposers → Snapshot :=
  emptySnapshot [nthValidator 1, nthValidator 2]

/-- Block 1 was proposed by the first validator. -/
def pairFirst : Snapshot := pairSnapshot 1 (AList.insert 1 (nthValidator 1) ∅)

theorem pairFirst_reachable : Reachable numberHash bohrSpec pairFirst := by
  have hnew : new [nthValidator 1, nthValidator 2] 0 (numberHash (emptyHeader 0))
      defaultEpochLength none = .ok (pairSnapshot 0 ∅) := by decide +kernel
  have happly : (pairSnapshot 0 ∅).apply numberHash bohrSpec (nthValidator 1) (emptyHeader 1) []
      none none none = .ok pairFirst := by decide +kernel
  exact .apply (.genesis hnew) happly

/-- The first validator proposes twice in a row: `verify_seal` rejects its block 2, and `apply`
accepts it. -/
theorem repeated_proposer_replayed :
    Reachable numberHash bohrSpec pairFirst ∧ nthValidator 1 ∈ pairFirst.validators ∧
      (emptyHeader 2).number.toNat = pairFirst.blockNumber.toNat + 1 ∧
      bohrSpec.isBohrActiveAtTimestamp (emptyHeader 2).number (emptyHeader 2).timestamp = true ∧
      pairFirst.signRecently (nthValidator 1) = true ∧
      pairFirst.apply numberHash bohrSpec (nthValidator 1) (emptyHeader 2) [] none none none
        = .ok (pairSnapshot 2 (AList.insert 2 (nthValidator 1)
            (AList.insert 1 (nthValidator 1) ∅))) :=
  ⟨pairFirst_reachable, by decide +kernel, by decide +kernel, by decide +kernel, by decide +kernel,
    by decide +kernel⟩

/-- The second validator may propose block 2, for both. -/
theorem other_proposer_replayed :
    (pairFirst.apply numberHash bohrSpec (nthValidator 2) (emptyHeader 2) [] none none none
        = .err () ↔ pairFirst.signRecently (nthValidator 2) = true) :=
  (replay_agrees_iff numberHash bohrSpec pairFirst (emptyHeader 2) (nthValidator 2) [] none none none
    (by decide +kernel) (by decide +kernel) (by decide +kernel)).mpr (by decide +kernel)

end RethBsc.Snapshot
