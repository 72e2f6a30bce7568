import RethBsc.Parlia.WellFormed

/-!
# One validator set an epoch

From Bohr on `apply` remembers that an epoch has had its validator set by a marker among the recent
proposers: the key `u64::MAX - number / epoch_num`.  A switch drops all other entries, so there is
one marker, that of the last switch.  The marker names the epoch by the quotient alone, and epochs
of different lengths share quotients.

* `EpochBlock` is a block of a run with the snapshots before and after it; `BohrRun` is a run.
* `LowNumbers`: block numbers and attested sources stay below the keys of markers.
* `marker_iff`: the only marker is that of the last block that announced validators.
* `oncePerEpoch_of_apart`: if successive announcements with one quotient are of one epoch length,
  each epoch installs its first announcement and no other.
-/

namespace RethBsc

open Rust

namespace Snapshot

/-! ## Blocks and runs -/

/-- A block as `apply` saw it. -/
structure EpochBlock where
  before : Snapshot
  header : Header
  validators : List Address
  voteAddrs : Option (List VoteAddress)
  attestation : Option VoteAttestation
  turnLength : Option UInt8
  after : Snapshot

namespace EpochBlock

variable (b : EpochBlock)

/-- The quotient that the marker is made of. -/
def quotient : UInt64 := b.header.number / b.before.epochNum

/-- The epoch of a block: the epoch length before it, and the quotient. -/
def epoch : UInt64 × UInt64 := (b.before.epochNum, b.quotient)

def marker : UInt64 := 0xFFFFFFFFFFFFFFFF - b.quotient

/-- The block was given validators. -/
def announces : Bool := !b.validators.isEmpty

/-- The announced set is in force after the block, with the turn length if one was given. -/
structure Installed : Prop where
  validators : buildValidators b.validators b.voteAddrs = .ok (b.after.validators, b.after.validatorsMap)
  turnLength : b.after.turnLength = (b.turnLength <|> b.before.turnLength)

/-- The block changed neither the validators nor the turn length. -/
structure Kept : Prop where
  validators : b.after.validators = b.before.validators
  validatorsMap : b.after.validatorsMap = b.before.validatorsMap
  turnLength : b.after.turnLength = b.before.turnLength

/-- A block before `b` has announced validators for the epoch of `b`. -/
def Served (earlier : List EpochBlock) : Prop :=
  ∃ b' ∈ earlier, b'.announces = true ∧ b'.epoch = b.epoch

end EpochBlock

/-- Blocks with Bohr active, applied one after the other from `start`; the latest comes first. -/
inductive BohrRun (hashSlow : Header → B256) (spec : ChainSpec) (start : Snapshot) :
    List EpochBlock → Snapshot → Prop
  | start : BohrRun hashSlow spec start [] start
  | step {b : EpochBlock} {run : List EpochBlock} {proposer : Address}
      (hrun : BohrRun hashSlow spec start run b.before)
      (hbohr : spec.isBohrActiveAtTimestamp b.header.number b.header.timestamp = true)
      (h : b.before.apply hashSlow spec proposer b.header b.validators b.voteAddrs b.attestation
        b.turnLength = .ok b.after) :
      BohrRun hashSlow spec start (b :: run) b.after

/-- Each epoch installs the first validators announced in it, and later blocks of the epoch change
nothing. -/
def OncePerEpoch (run : List EpochBlock) : Prop :=
  ∀ b earlier, b :: earlier <:+ run →
    (b.announces = true → ¬ b.Served earlier → b.Installed) ∧ (b.Served earlier → b.Kept)

/-- An announcement with the quotient of the last one before it is of the same epoch length; the
first one has no marker yet. -/
def Apart (start : Snapshot) (run : List EpochBlock) : Prop :=
  ∀ b earlier, b :: earlier <:+ run → b.announces = true →
    match earlier.find? EpochBlock.announces with
    | some b' => b'.quotient = b.quotient → b'.before.epochNum = b.before.epochNum
    | none => b.marker ∉ start.recentProposers

/-- Below every marker. -/
def Low (n : UInt64) : Prop := n.toNat < 2 ^ 63

instance (n : UInt64) : Decidable (Low n) := inferInstanceAs (Decidable (n.toNat < 2 ^ 63))

/-- Block numbers and the sources of attestations are below the markers. -/
structure LowNumbers (start : Snapshot) (run : List EpochBlock) : Prop where
  block : Low start.blockNumber
  source : Low start.voteData.sourceNumber
  number : ∀ b ∈ run, Low b.header.number
  attested : ∀ b ∈ run, ∀ att, b.attestation = some att → Low att.data.sourceNumber

/-! ## Markers and other keys -/

section Keys

variable {s : Snapshot} {hashSlow : Header → B256} {spec : ChainSpec} {v : Address}
  {header : Header} {attestation : Option VoteAttestation} {key : UInt64}

/-- The block before pruning leaves the window; its number is not a marker. -/
theorem mem_advance_of_high (hnumber : Low header.number) (hkey : ¬ Low key) :
    key ∈ (s.advance hashSlow header).recentProposers ↔ key ∈ s.recentProposers := by
  unfold advance
  dsimp only
  split
  · next hlimit =>
    rw [AList.mem_erase]
    refine and_iff_right fun heq => hkey ?_
    unfold Low at hnumber ⊢
    rw [heq, UInt64.toNat_sub_of_le _ _ hlimit]
    omega
  · exact .rfl

/-- Clearing finalized blocks leaves what is above the finalized number. -/
theorem mem_clearFinalized_of_lt (hkey : ¬ key ≤ s.getFinalizedNumber) :
    key ∈ s.clearFinalized.recentProposers ↔ key ∈ s.recentProposers := by
  have hfold : ∀ (l : List UInt64) (m : RecentProposers), key ∉ l →
      (key ∈ l.foldl (fun m k => m.erase k) m ↔ key ∈ m) := by
    intro l
    induction l with
    | nil => exact fun _ _ => .rfl
    | cons k l ih => simp_all
  refine hfold _ _ fun hmem => ?_
  exact hkey (by simpa using (List.mem_filter.mp hmem).2)

/-- Recording a block leaves the markers as they are. -/
theorem mem_record_of_high (hnumber : Low header.number)
    (hsource : Low (s.updateAttestation spec header attestation).voteData.sourceNumber)
    (hkey : ¬ Low key) :
    key ∈ ((s.advance hashSlow header).record spec v header attestation).recentProposers ↔
      key ∈ s.recentProposers := by
  have hvote : ((s.advance hashSlow header).updateAttestation spec header attestation).voteData
      = (s.updateAttestation spec header attestation).voteData := updateAttestation_voteData_congr rfl
  have hinsert : key ∈ (s.advance hashSlow header).recentProposers.insert header.number v ↔
      key ∈ s.recentProposers := by
    rw [AList.mem_insert, mem_advance_of_high hnumber hkey]
    exact or_iff_right fun heq => hkey (heq ▸ hnumber)
  have hfinal : ∀ n : UInt64, Low n → ¬ key ≤ if n > 0 then n else 0 := by
    intro n hn hle
    unfold Low at hn hkey
    split at hle
    · exact hkey (Nat.lt_of_le_of_lt (UInt64.le_iff_toNat_le.mp hle) hn)
    · exact hkey (Nat.lt_of_le_of_lt (UInt64.le_iff_toNat_le.mp hle) (by decide))
  rw [record, updateAttestation_eq, hvote]
  dsimp only [setBlockInterval, switchEpochNum]
  split
  · rw [mem_clearFinalized_of_lt]
    · exact hinsert
    · exact hfinal _ hsource
  · exact hinsert

/-- The source of the vote data is that of an earlier attestation. -/
theorem low_updateAttestation (hs : Low s.voteData.sourceNumber)
    (hatt : ∀ att, attestation = some att → Low att.data.sourceNumber) :
    Low (s.updateAttestation spec header attestation).voteData.sourceNumber := by
  cases attestation with
  | none => exact hs
  | some att => grind [updateAttestation]

end Keys

/-! ## One block -/

namespace EpochBlock

variable {b : EpochBlock} {hashSlow : Header → B256} {spec : ChainSpec} {v : Address}

theorem announces_iff : b.announces = true ↔ b.validators ≠ [] := by
  simp [announces]

/-- What Bohr-active applies have in common, with the numbers below the markers. -/
structure Applies (hashSlow : Header → B256) (spec : ChainSpec) (v : Address) (b : EpochBlock) :
    Prop where
  bohr : spec.isBohrActiveAtTimestamp b.header.number b.header.timestamp = true
  apply : b.before.apply hashSlow spec v b.header b.validators b.voteAddrs b.attestation
    b.turnLength = .ok b.after
  epochLength : EpochLength b.before.epochNum
  number : Low b.header.number
  source : Low (b.before.updateAttestation spec b.header b.attestation).voteData.sourceNumber

theorem two_hundred_le (h : EpochLength b.before.epochNum) : 200 ≤ b.before.epochNum.toNat := by
  rcases h with h | h | h <;> rw [h] <;> decide

theorem toNat_quotient : b.quotient.toNat = b.header.number.toNat / b.before.epochNum.toNat :=
  UInt64.toNat_div _ _

/-- Quotients are far below the largest number. -/
theorem toNat_marker (h : EpochLength b.before.epochNum) (hnumber : Low b.header.number) :
    b.quotient.toNat < 2 ^ 62 ∧ b.marker.toNat = 2 ^ 64 - 1 - b.quotient.toNat := by
  have hlen := two_hundred_le h
  have hquotient : b.quotient.toNat ≤ b.header.number.toNat / 200 := by
    rw [toNat_quotient]
    exact Nat.div_le_div_left hlen (by decide)
  unfold Low at hnumber
  have hlt : b.quotient.toNat < 2 ^ 62 := by omega
  refine ⟨hlt, ?_⟩
  rw [marker, UInt64.toNat_sub_of_le]
  · rfl
  · grind

theorem not_low_marker (h : EpochLength b.before.epochNum) (hnumber : Low b.header.number) :
    ¬ Low b.marker := by
  obtain ⟨hlt, hmarker⟩ := toNat_marker h hnumber
  unfold Low
  omega

theorem marker_inj {b' : EpochBlock} (h : EpochLength b.before.epochNum)
    (hnumber : Low b.header.number) (h' : EpochLength b'.before.epochNum)
    (hnumber' : Low b'.header.number) : b.marker = b'.marker ↔ b.quotient = b'.quotient := by
  obtain ⟨hlt, hmarker⟩ := toNat_marker h hnumber
  obtain ⟨hlt', hmarker'⟩ := toNat_marker h' hnumber'
  rw [← UInt64.toNat_inj, ← UInt64.toNat_inj, hmarker, hmarker']
  omega

/-- A block installs its validators when its marker is not there yet. -/
theorem Applies.installs_iff (h : b.Applies hashSlow spec v) :
    b.before.Installs v hashSlow spec b.header b.validators b.attestation ↔
      b.announces = true ∧ b.marker ∉ b.before.recentProposers := by
  have hmem : b.marker ∈ ((b.before.advance hashSlow b.header).record spec v b.header
      b.attestation).recentProposers ↔ b.marker ∈ b.before.recentProposers :=
    mem_record_of_high h.number h.source (not_low_marker h.epochLength h.number)
  rw [announces_iff, ← hmem, ← AList.lookup_eq_none]
  unfold Installs
  simp only [h.bohr, Bool.true_eq_false, false_or]
  exact .rfl

theorem Applies.installed (h : b.Applies hashSlow spec v) (hannounces : b.announces = true)
    (hmarker : b.marker ∉ b.before.recentProposers) :
    b.Installed ∧ b.after.recentProposers = AList.insert b.marker .zero ∅ := by
  have hinstalls := h.installs_iff.mpr ⟨hannounces, hmarker⟩
  obtain ⟨hbuild, hturn, hrecents⟩ := apply_of_installs h.apply hinstalls
  exact ⟨⟨hbuild, hturn⟩, hrecents h.bohr⟩

theorem Applies.kept (h : b.Applies hashSlow spec v)
    (hkeep : b.announces = false ∨ b.marker ∈ b.before.recentProposers) :
    b.Kept ∧ ∀ key, ¬ Low key →
      (key ∈ b.after.recentProposers ↔ key ∈ b.before.recentProposers) := by
  have hinstalls : ¬ b.before.Installs v hashSlow spec b.header b.validators b.attestation := by
    rw [h.installs_iff]
    grind
  have hafter := apply_of_not_installs h.apply hinstalls
  obtain ⟨recents, hrecord⟩ :=
    record_eq (b.before.advance hashSlow b.header) spec v b.header b.attestation
  refine ⟨⟨?_, ?_, ?_⟩, fun key hkey => ?_⟩
  · rw [hafter, hrecord]; rfl
  · rw [hafter, hrecord]; rfl
  · rw [hafter, hrecord]; rfl
  · rw [hafter]
    exact mem_record_of_high h.number h.source hkey

end EpochBlock

/-! ## Runs -/

section Run

variable {hashSlow : Header → B256} {spec : ChainSpec} {start s : Snapshot} {b : EpochBlock}
  {run earlier : List EpochBlock}

theorem LowNumbers.of_suffix (h : LowNumbers start run)
    (hsuffix : earlier <:+ run) : LowNumbers start earlier where
  block := h.block
  source := h.source
  number b hb := h.number b (hsuffix.subset hb)
  attested b hb := h.attested b (hsuffix.subset hb)

/-- Later blocks have larger numbers and no shorter epochs. -/
structure Ordered (run : List EpochBlock) (s : Snapshot) : Prop where
  epochLength : EpochLength s.epochNum
  block : Low s.blockNumber
  source : Low s.voteData.sourceNumber
  valid : ∀ b ∈ run, EpochLength b.before.epochNum
  below : ∀ b ∈ run, b.before.epochNum ≤ s.epochNum ∧ b.header.number ≤ s.blockNumber
  sorted : run.Pairwise fun later earlier =>
    earlier.before.epochNum ≤ later.before.epochNum ∧ earlier.header.number ≤ later.header.number

/-- The number before a block is low, so that the next one does not wrap. -/
theorem EpochBlock.blockNumber_le {v : Address} (hblock : Low b.before.blockNumber)
    (h : b.before.apply hashSlow spec v b.header b.validators b.voteAddrs b.attestation b.turnLength
      = .ok b.after) : b.before.blockNumber ≤ b.header.number := by
  unfold Low at hblock
  rw [← (apply_spec h).number, UInt64.le_iff_toNat_le, UInt64.toNat_add]
  simp only [UInt64.reduceToNat]
  omega

variable (hrun : BohrRun hashSlow spec start run s) (hstart : EpochLength start.epochNum)
  (hlow : LowNumbers start run)

include hrun hstart hlow in
theorem BohrRun.ordered : Ordered run s := by
  induction hrun with
  | start => exact ⟨hstart, hlow.block, hlow.source, by simp, by simp, .nil⟩
  | @step b run v hrun hbohr h ih =>
    have ih := ih (hlow.of_suffix (List.suffix_cons b run))
    have hspec := apply_spec h
    have hgrows : b.before.epochNum ≤ b.after.epochNum := by
      rw [hspec.epochNum]
      exact (b.before.switchEpochNum_spec _ _ _).1
    have hnext := EpochBlock.blockNumber_le ih.block h
    refine ⟨ih.epochLength.apply h, ?_, ?_, ?_, ?_, ?_⟩
    · rw [hspec.blockNumber]
      exact hlow.number b (List.mem_cons_self ..)
    · rw [hspec.voteData]
      exact low_updateAttestation ih.source (hlow.attested b (List.mem_cons_self ..))
    · exact List.forall_mem_cons.mpr ⟨ih.epochLength, ih.valid⟩
    · refine List.forall_mem_cons.mpr ⟨⟨hgrows, hspec.blockNumber ▸ UInt64.le_rfl⟩, fun b' hb' => ?_⟩
      obtain ⟨hepoch, hnumber⟩ := ih.below b' hb'
      rw [hspec.blockNumber]
      exact ⟨UInt64.le_trans hepoch hgrows, UInt64.le_trans hnumber hnext⟩
    · refine List.pairwise_cons.mpr ⟨fun b' hb' => ?_, ih.sorted⟩
      obtain ⟨hepoch, hnumber⟩ := ih.below b' hb'
      exact ⟨hepoch, UInt64.le_trans hnumber hnext⟩

include hrun hstart hlow

/-- A block of a run, applied after the blocks before it. -/
theorem BohrRun.applies (hsuffix : b :: earlier <:+ run) :
    BohrRun hashSlow spec start earlier b.before ∧ ∃ v, b.Applies hashSlow spec v := by
  induction hrun with
  | start => exact absurd (List.suffix_nil.mp hsuffix) (by simp)
  | @step b' run v hrun hbohr h ih =>
    rcases List.suffix_cons_iff.mp hsuffix with heq | hsuffix
    · cases heq
      have hordered := hrun.ordered hstart (hlow.of_suffix (List.suffix_cons b earlier))
      have hmem : b ∈ b :: earlier := List.mem_cons_self ..
      refine ⟨hrun, v, hbohr, h, hordered.epochLength, hlow.number b hmem, ?_⟩
      exact low_updateAttestation hordered.source (hlow.attested b hmem)
    · exact ih (hlow.of_suffix (List.suffix_cons b' run)) hsuffix

/-! ## The marker of the last announcement -/

omit hrun hstart hlow

/-- The markers after a run: that of the last announcement or, before the first one, those that the
run started with. -/
def IsMarker (start : Snapshot) (run : List EpochBlock) (key : UInt64) : Prop :=
  match run.find? EpochBlock.announces with
  | some b' => key = b'.marker
  | none => key ∈ start.recentProposers

/-- The first announcement of a run has no marker yet. -/
def FirstUnmarked (start : Snapshot) (run : List EpochBlock) : Prop :=
  ∀ b earlier, b :: earlier <:+ run → b.announces = true →
    earlier.find? EpochBlock.announces = none → b.marker ∉ start.recentProposers

theorem FirstUnmarked.of_suffix (h : FirstUnmarked start run)
    (hsuffix : earlier <:+ run) : FirstUnmarked start earlier :=
  fun b rest hrest => h b rest (hrest.trans hsuffix)

theorem Apart.firstUnmarked (h : Apart start run) : FirstUnmarked start run := by
  intro b earlier hsuffix hannounces hnone
  have hb := h b earlier hsuffix hannounces
  rwa [hnone] at hb

include hrun hstart hlow in
/-- **There is one marker**, and it is that of the last announcement, installed or not: an
announcement is passed over only if its marker is there already. -/
theorem marker_iff (hfirst : FirstUnmarked start run) {key : UInt64} (hkey : ¬ Low key) :
    key ∈ s.recentProposers ↔ IsMarker start run key := by
  induction hrun generalizing key with
  | start => exact .rfl
  | @step b run v hrun hbohr h ih =>
    have hsuffix : run <:+ b :: run := List.suffix_cons b run
    have ih : ∀ key, ¬ Low key → (key ∈ b.before.recentProposers ↔ IsMarker start run key) :=
      fun key => ih (hlow.of_suffix hsuffix) (hfirst.of_suffix hsuffix)
    obtain ⟨-, v, happlies⟩ :=
      (BohrRun.step hrun hbohr h).applies hstart hlow (List.suffix_refl (b :: run))
    have hnot := EpochBlock.not_low_marker happlies.epochLength happlies.number
    cases hannounces : b.announces with
    -- nothing is announced: the last announcement is that of the blocks before
    | false =>
      have hmarker : IsMarker start (b :: run) key ↔ IsMarker start run key := by
        simp [IsMarker, hannounces]
      rw [hmarker, (happlies.kept (.inl hannounces)).2 key hkey]
      exact ih key hkey
    | true =>
      have hmarker : IsMarker start (b :: run) key ↔ key = b.marker := by
        simp [IsMarker, hannounces]
      rw [hmarker]
      by_cases hmem : b.marker ∈ b.before.recentProposers
      -- passed over: the marker that is there is the one that the block would have put there
      · rw [(happlies.kept (.inr hmem)).2 key hkey, ih key hkey]
        have hold := (ih b.marker hnot).mp hmem
        unfold IsMarker at hold ⊢
        split at hold
        · next b' hfind => rw [hold]
        · next hnone =>
          exact absurd hold (hfirst b run (List.suffix_refl _) hannounces hnone)
      -- installed: all other entries are dropped
      · rw [(happlies.installed hannounces hmem).2, AList.mem_insert]
        exact or_iff_left (AList.notMem_empty key)

/-! ## Epochs -/

/-- The blocks of an epoch stand together: whether it has been announced is decided by the last
announcement. -/
theorem served_iff (hordered : Ordered earlier b.before)
    (hnumber : b.before.blockNumber ≤ b.header.number) :
    b.Served earlier ↔ ∃ b', earlier.find? EpochBlock.announces = some b' ∧ b'.epoch = b.epoch := by
  constructor
  · rintro ⟨c, hc, hannounces, hepoch⟩
    obtain ⟨hlength, hquotient⟩ := Prod.mk.inj hepoch
    have hsome : (earlier.find? EpochBlock.announces).isSome = true :=
      List.find?_isSome.mpr ⟨c, hc, hannounces⟩
    obtain ⟨b', hfind⟩ := Option.isSome_iff_exists.mp hsome
    refine ⟨b', hfind, ?_⟩
    -- `b'` is the newest announcement, so `c` is `b'` or older
    obtain ⟨-, newer, older, hsplit, hnewer⟩ := List.find?_eq_some_iff_append.mp hfind
    have hb' := hordered.below b' (List.mem_of_find?_eq_some hfind)
    have hsorted := hordered.sorted
    rw [hsplit] at hc hsorted
    rcases List.mem_append.mp hc with hc | hc
    · exact absurd hannounces (by simpa using hnewer c hc)
    rcases List.mem_cons.mp hc with rfl | hc
    · exact hepoch
    · -- `b'` lies between `c` and `b`, which are of one epoch
      have hcb' := (List.pairwise_cons.mp (List.pairwise_append.mp hsorted).2.1).1 c hc
      have hlength' : b'.before.epochNum = b.before.epochNum :=
        UInt64.le_antisymm hb'.1 (hlength ▸ hcb'.1)
      have hle := UInt64.le_iff_toNat_le.mp hcb'.2
      have hle' := UInt64.le_iff_toNat_le.mp (UInt64.le_trans hb'.2 hnumber)
      have hdiv := Nat.div_le_div_right (c := b.before.epochNum.toNat) hle
      have hdiv' := Nat.div_le_div_right (c := b.before.epochNum.toNat) hle'
      have hends := congrArg UInt64.toNat hquotient
      rw [EpochBlock.toNat_quotient, EpochBlock.toNat_quotient, hlength] at hends
      refine Prod.ext hlength' (UInt64.toNat_inj.mp ?_)
      show b'.quotient.toNat = b.quotient.toNat
      rw [EpochBlock.toNat_quotient, EpochBlock.toNat_quotient, hlength']
      omega
  · rintro ⟨b', hfind, hepoch⟩
    exact ⟨b', List.mem_of_find?_eq_some hfind, List.find?_some hfind, hepoch⟩

variable (hashSlow spec b) in
/-- A block of a run after the blocks before it, with what the run knows of its marker. -/
structure InRun (start : Snapshot) (earlier : List EpochBlock) : Prop where
  applies : ∃ v, b.Applies hashSlow spec v
  marker : b.marker ∈ b.before.recentProposers ↔ IsMarker start earlier b.marker
  served : b.Served earlier ↔
    ∃ b', earlier.find? EpochBlock.announces = some b' ∧ b'.epoch = b.epoch
  quotient : ∀ b', earlier.find? EpochBlock.announces = some b' →
    (b.marker = b'.marker ↔ b.quotient = b'.quotient)

include hrun hstart hlow

theorem BohrRun.inRun (hsuffix : b :: earlier <:+ run) (hfirst : FirstUnmarked start earlier) :
    InRun hashSlow spec b start earlier := by
  obtain ⟨hearlier, v, happlies⟩ := hrun.applies hstart hlow hsuffix
  have htail : earlier <:+ run := (List.suffix_cons b earlier).trans hsuffix
  have hlow' := hlow.of_suffix htail
  have hordered := hearlier.ordered hstart hlow'
  have hnot := EpochBlock.not_low_marker happlies.epochLength happlies.number
  have hnumber := EpochBlock.blockNumber_le hordered.block happlies.apply
  refine ⟨⟨v, happlies⟩, marker_iff hearlier hstart hlow' hfirst hnot,
    served_iff hordered hnumber, fun b' hfind => ?_⟩
  have hmem := List.mem_of_find?_eq_some hfind
  exact EpochBlock.marker_inj happlies.epochLength happlies.number (hordered.valid b' hmem)
    (hlow'.number b' hmem)

theorem oncePerEpoch_of_apart (hapart : Apart start run) : OncePerEpoch run := by
  intro b earlier hsuffix
  have htail : earlier <:+ run := (List.suffix_cons b earlier).trans hsuffix
  have hin := hrun.inRun hstart hlow hsuffix (hapart.firstUnmarked.of_suffix htail)
  obtain ⟨v, happlies⟩ := hin.applies
  constructor
  · intro hannounces hnot
    refine (happlies.installed hannounces fun hmem => ?_).1
    have hmarker := hin.marker.mp hmem
    have hb := hapart b earlier hsuffix hannounces
    unfold IsMarker at hmarker
    split at hmarker
    · next b' hfind =>
      rw [hfind] at hb
      have hquotient := ((hin.quotient b' hfind).mp hmarker).symm
      exact hnot (hin.served.mpr ⟨b', hfind, Prod.ext (hb hquotient) hquotient⟩)
    · next hfind =>
      rw [hfind] at hb
      exact hb hmarker
  · intro hserved
    obtain ⟨b', hfind, hepoch⟩ := hin.served.mp hserved
    refine (happlies.kept (.inr (hin.marker.mpr ?_))).1
    rw [IsMarker, hfind]
    exact (hin.quotient b' hfind).mpr (congrArg Prod.snd hepoch).symm

/-- The first announcement of its epoch, passed over. -/
def Ignored (run : List EpochBlock) : Prop :=
  ∃ b earlier, b :: earlier <:+ run ∧ b.announces = true ∧ ¬ b.Served earlier ∧ b.Kept

/-- An announcement that is the first of its epoch is passed over if its marker is there. -/
theorem ignored_of_marker (hsuffix : b :: earlier <:+ run) (hfirst : FirstUnmarked start earlier)
    (hannounces : b.announces = true) (hmarker : IsMarker start earlier b.marker)
    (hother : ∀ b', earlier.find? EpochBlock.announces = some b' → b'.epoch ≠ b.epoch) :
    Ignored run := by
  have hin := hrun.inRun hstart hlow hsuffix hfirst
  obtain ⟨v, happlies⟩ := hin.applies
  refine ⟨b, earlier, hsuffix, hannounces, fun hserved => ?_,
    (happlies.kept (.inr (hin.marker.mpr hmarker))).1⟩
  obtain ⟨b', hfind, hepoch⟩ := hin.served.mp hserved
  exact hother b' hfind hepoch

theorem ignored_of_not_firstUnmarked (h : ¬ FirstUnmarked start run) : Ignored run := by
  unfold FirstUnmarked at h
  push Not at h
  obtain ⟨b, earlier, hsuffix, hannounces, hnone, hmem⟩ := h
  -- nothing was announced before `b`, so that nothing is asked of the blocks before it
  have hfirst : FirstUnmarked start earlier := by
    intro c rest hrest hc
    exact absurd hc (List.find?_eq_none.mp hnone c (hrest.subset (List.mem_cons_self ..)))
  refine ignored_of_marker hrun hstart hlow hsuffix hfirst hannounces ?_ (by simp [hnone])
  rwa [IsMarker, hnone]

theorem ignored_of_not_apart (hapart : ¬ Apart start run) : Ignored run := by
  by_cases hfirst : FirstUnmarked start run
  · unfold Apart at hapart
    push Not at hapart
    obtain ⟨b, earlier, hsuffix, hannounces, hb⟩ := hapart
    have hfirst' := hfirst.of_suffix ((List.suffix_cons b earlier).trans hsuffix)
    split at hb
    · -- the last announcement has the quotient of `b` and another epoch length
      next b' hfind =>
      push Not at hb
      have hin := hrun.inRun hstart hlow hsuffix hfirst'
      refine ignored_of_marker hrun hstart hlow hsuffix hfirst' hannounces ?_ fun c hc hepoch => ?_
      · rw [IsMarker, hfind]
        exact (hin.quotient b' hfind).mpr hb.1.symm
      · obtain rfl := Option.some.inj (hfind.symm.trans hc)
        exact hb.2 (congrArg Prod.fst hepoch)
    · next hfind => exact absurd (hfirst b earlier hsuffix hannounces hfind) hb
  · exact ignored_of_not_firstUnmarked hrun hstart hlow hfirst

omit hrun hstart hlow

/-- **One switch an epoch.**  In a run of Bohr-active blocks from a reachable snapshot, with numbers
below the markers, each epoch installs its first announcement and no other if announcements are
apart; if they are not, the first announcement of some epoch is passed over. -/
theorem switch_once_per_epoch_iff (hashSlow : Header → B256) (spec : ChainSpec)
    (start s : Snapshot) (run : List EpochBlock) (hreach : Reachable hashSlow spec start)
    (hrun : BohrRun hashSlow spec start run s) (hlow : LowNumbers start run) :
    (Apart start run → OncePerEpoch run) ∧ (¬ Apart start run → Ignored run) :=
  ⟨oncePerEpoch_of_apart hrun hreach.epochLength hlow,
    ignored_of_not_apart hrun hreach.epochLength hlow⟩

end Run

/-! ### The step from 500 to 1000

Block 999 announces validators in epoch 1 of length 500 and makes the epoch length 1000.  Block 1000
is in epoch 1 of length 1000, and what it announces is passed over. -/

def maxwellSpec : ChainSpec where
  bscForkActivation
    | .luban => .block 0
    | .bohr | .lorentz => .timestamp 0
    | .maxwell => .timestamp 999
    | _ => .never
  ethereumForkActivation
    | .london => .block 0
    | _ => .never

/-- The snapshot of block `n`, between Lorentz and Maxwell. -/
def lorentzSnapshot (n : Nat) : Snapshot :=
  { soloSnapshot n with epochNum := lorentzEpochLength, blockInterval := lorentzBlockInterval }

theorem lorentzSnapshot_reachable {n : Nat} (hn : n = 997 ∨ n = 998) :
    Reachable numberHash maxwellSpec (lorentzSnapshot n) := by
  have hrun : soloRun maxwellSpec 997 = .ok (lorentzSnapshot 997) := by decide +kernel
  have hnext : (lorentzSnapshot 997).apply numberHash maxwellSpec loneValidator (tickHeader 998) []
      none none none = .ok (lorentzSnapshot 998) := by decide +kernel
  rcases hn with rfl | rfl
  · exact reachable_soloRun hrun
  · exact (reachable_soloRun hrun).apply hnext

/-- Block `n`, in which the lone validator announces others. -/
def announcing (before : Snapshot) (n : Nat) (validators : List Address) : EpochBlock :=
  ⟨before, tickHeader n, validators, none, none, none,
    match before.apply numberHash maxwellSpec loneValidator (tickHeader n) validators none none
      none with
    | .ok after => after
    | _ => before⟩

def firstAnnouncing (n : Nat) : EpochBlock :=
  announcing (lorentzSnapshot n) (n + 1) [loneValidator, nthValidator 1]

def secondAnnouncing (n : Nat) : EpochBlock :=
  announcing (firstAnnouncing n).after (n + 2) [nthValidator 9]

section Announcing

variable {n : Nat} (hn : n = 997 ∨ n = 998)

include hn

theorem announcing_run : BohrRun numberHash maxwellSpec (lorentzSnapshot n)
    [secondAnnouncing n, firstAnnouncing n] (secondAnnouncing n).after := by
  have hfirst : (lorentzSnapshot n).apply numberHash maxwellSpec loneValidator (tickHeader (n + 1))
      [loneValidator, nthValidator 1] none none none = .ok (firstAnnouncing n).after := by
    rcases hn with rfl | rfl <;> decide +kernel
  have hsecond : (firstAnnouncing n).after.apply numberHash maxwellSpec loneValidator
      (tickHeader (n + 2)) [nthValidator 9] none none none = .ok (secondAnnouncing n).after := by
    rcases hn with rfl | rfl <;> decide +kernel
  exact .step (b := secondAnnouncing n) (.step (b := firstAnnouncing n) .start rfl hfirst) rfl hsecond

theorem announcing_low :
    LowNumbers (lorentzSnapshot n) [secondAnnouncing n, firstAnnouncing n] := by
  rcases hn with rfl | rfl <;>
    exact ⟨by decide, by decide, by decide +kernel, by simp [secondAnnouncing, firstAnnouncing, announcing]⟩

/-- The first announcement finds no marker. -/
theorem announcing_unmarked : (firstAnnouncing n).marker ∉ (lorentzSnapshot n).recentProposers := by
  rcases hn with rfl | rfl <;> decide +kernel

end Announcing

/-- Announcements that are apart: block 998, and block 999 of the same epoch. -/
theorem block998_switches_once :
    (secondAnnouncing 997).Served [firstAnnouncing 997] ∧
      Apart (lorentzSnapshot 997) [secondAnnouncing 997, firstAnnouncing 997] ∧
      OncePerEpoch [secondAnnouncing 997, firstAnnouncing 997] := by
  have hapart : Apart (lorentzSnapshot 997) [secondAnnouncing 997, firstAnnouncing 997] := by
    intro b earlier hsuffix _
    rcases List.suffix_cons_iff.mp hsuffix with heq | hsuffix
    · cases heq
      exact fun _ => by decide +kernel
    · rcases List.suffix_cons_iff.mp hsuffix with heq | hsuffix
      · cases heq
        exact announcing_unmarked (.inl rfl)
      · exact absurd (List.suffix_nil.mp hsuffix) (by simp)
  exact ⟨⟨_, List.mem_singleton_self _, rfl, by decide +kernel⟩, hapart,
    (switch_once_per_epoch_iff numberHash maxwellSpec _ _ _ (lorentzSnapshot_reachable (.inl rfl))
      (announcing_run (.inl rfl)) (announcing_low (.inl rfl))).1 hapart⟩

/-- Block 1000 is the first to announce validators in its epoch, and the validators announced in
block 999 stay. -/
theorem block1000_announcement_ignored :
    ∃ start b b', Reachable numberHash maxwellSpec start ∧
      BohrRun numberHash maxwellSpec start [b', b] b'.after ∧ LowNumbers start [b', b] ∧
      b.header = tickHeader 999 ∧ b.epoch = (500, 1) ∧
      b'.header = tickHeader 1000 ∧ b'.epoch = (1000, 1) ∧ b'.validators = [nthValidator 9] ∧
      ¬ b'.Served [b] ∧ b'.Kept ∧ ¬ b'.Installed ∧ ¬ OncePerEpoch [b', b] := by
  -- the epochs differ in their lengths, and the markers do not differ
  have hserved : ¬ (secondAnnouncing 998).Served [firstAnnouncing 998] := by
    rintro ⟨b, hb, -, heq⟩
    rw [List.mem_singleton.mp hb] at heq
    exact absurd heq (by decide +kernel)
  have hkept : (secondAnnouncing 998).Kept :=
    ⟨by decide +kernel, by decide +kernel, by decide +kernel⟩
  have hinstalled : ¬ (secondAnnouncing 998).Installed :=
    fun h => absurd h.validators (by decide +kernel)
  exact ⟨_, _, _, lorentzSnapshot_reachable (.inr rfl), announcing_run (.inr rfl),
    announcing_low (.inr rfl), rfl, by decide +kernel, rfl, by decide +kernel, rfl, hserved, hkept,
    hinstalled, fun honce => hinstalled ((honce _ _ (List.suffix_refl _)).1 rfl hserved)⟩

end Snapshot

end RethBsc
