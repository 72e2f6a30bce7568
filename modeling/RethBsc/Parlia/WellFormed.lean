import RethBsc.Parlia.ValidatorsMap
import RethBsc.Parlia.RecentProposers

/-!
# Well-formed snapshots

The consensus code relies on the shape of a snapshot: the validator list is sorted without
duplicates, the map pairs each validator with its position and with the vote address it was
announced with, and the epoch length is one of three.  `Snapshot::new` establishes this and `apply`
keeps it, as long as the lists it is given have no duplicates.

* `Announced`: the lists that a validator set was installed from.
* `SnapshotRun`: the snapshots of a run, each with the lists that installed its set.
* `buildValidators_spec`: one construction, with the pairing of vote addresses across the sort.
* `snapshotRun_wellFormed`: the whole run.
-/

namespace RethBsc.Snapshot

open Rust Outcome

/-- What `Snapshot::new` or a switch is given. -/
structure Announced where
  validators : List Address
  voteAddrs : Option (List VoteAddress)

/-- The vote address that stands next to `v` in the lists, or zero if no vote addresses were
given. -/
def Announced.Pairs (a : Announced) (v : Address) (voteAddr : VoteAddress) : Prop :=
  match a.voteAddrs with
  | some voteAddrs => (v, voteAddr) ∈ a.validators.zip voteAddrs
  | none => v ∈ a.validators ∧ voteAddr = .zero

structure WellFormed (a : Announced) (s : Snapshot) : Prop where
  nonempty : s.validators ≠ []
  sorted : s.validators.Pairwise (· < ·)
  mem_map : ∀ v, v ∈ s.validatorsMap ↔ v ∈ s.validators
  entry : ∀ i v, s.validators[i]? = some v →
    ∃ voteAddr, s.validatorsMap.lookup v = some ⟨UInt64.ofNat i + 1, voteAddr⟩ ∧
      a.Pairs v voteAddr
  epochNum : EpochLength s.epochNum

/-! ## One construction -/

section Build

variable {validators sorted : List Address} {voteAddrs : Option (List VoteAddress)}
  {map : ValidatorsMap}

theorem buildValidators_sorted (h : buildValidators validators voteAddrs = .ok (sorted, map)) :
    sorted = validators.insertionSort (· ≤ ·) := by
  unfold buildValidators at h
  grind

theorem pairwise_lt_insertionSort (hnodup : validators.Nodup) :
    (validators.insertionSort (· ≤ ·)).Pairwise (· < ·) := by
  have hle := List.pairwise_insertionSort (· ≤ ·) validators
  have hne : (validators.insertionSort (· ≤ ·)).Nodup :=
    (List.perm_insertionSort (· ≤ ·) validators).nodup_iff.mpr hnodup
  exact (hle.and hne).imp fun h => lt_of_le_of_ne h.1 h.2

/-- The entry of a validator has the vote address that was announced with it. -/
theorem buildValidators_pairs (hnodup : validators.Nodup)
    (h : buildValidators validators voteAddrs = .ok (sorted, map)) {v : Address}
    {info : ValidatorInfo} (hinfo : map.lookup v = some info) :
    (Announced.mk validators voteAddrs).Pairs v info.voteAddr := by
  have hsorted := buildValidators_sorted h
  have hv : v ∈ sorted :=
    ((buildValidators_wellIndexed h).1 v).mp (AList.lookup_isSome.mp (by rw [hinfo]; rfl))
  have hnodup' : sorted.Nodup := by
    rw [hsorted]
    exact (List.perm_insertionSort (· ≤ ·) validators).nodup_iff.mpr hnodup
  have hidx : ∃ vi ∈ sorted.zipIdx, vi.1 = v := by
    rw [← List.zipIdx_map_fst 0 sorted] at hv
    exact List.mem_map.mp hv
  obtain ⟨vi, hvi, rfl⟩ := hidx
  unfold buildValidators at h
  cases voteAddrs with
  | none =>
    simp only [ok.injEq, Prod.mk.injEq] at h
    obtain ⟨rfl, rfl⟩ := h
    rw [Map.lookup_insertAll (zipIdx_map_fst_nodup hnodup') hvi] at hinfo
    rw [← Option.some.inj hinfo]
    exact ⟨(List.mem_insertionSort _).mp hv, rfl⟩
  | some voteAddrs =>
    dsimp only at h
    split at h
    · simp at h
    · next hlen =>
      simp only [ok.injEq, Prod.mk.injEq] at h
      obtain ⟨rfl, rfl⟩ := h
      -- the entry was made before the sort; setting the indices leaves the vote address alone
      rw [setIndices, Map.lookup_updateAll (zipIdx_map_fst_nodup hnodup') hvi] at hinfo
      have hzip : (validators.zip voteAddrs).map Prod.fst = validators :=
        List.map_fst_zip (by omega)
      have hmem : vi.1 ∈ (validators.zip voteAddrs).map Prod.fst := by
        rw [hzip]
        exact (List.mem_insertionSort _).mp hv
      obtain ⟨va, hva, hfst⟩ := List.mem_map.mp hmem
      rw [← hfst, Map.lookup_insertAll (by rw [hzip]; exact hnodup) hva] at hinfo
      rwa [← hfst, ← Option.some.inj hinfo]

theorem buildValidators_spec (hne : validators ≠ []) (hnodup : validators.Nodup)
    (h : buildValidators validators voteAddrs = .ok (sorted, map)) :
    sorted ≠ [] ∧ sorted.Pairwise (· < ·) ∧ (∀ v, v ∈ map ↔ v ∈ sorted) ∧
      ∀ i v, sorted[i]? = some v → ∃ voteAddr, map.lookup v = some ⟨UInt64.ofNat i + 1, voteAddr⟩ ∧
          (Announced.mk validators voteAddrs).Pairs v voteAddr := by
  have hsorted := buildValidators_sorted h
  have hlt : sorted.Pairwise (· < ·) := hsorted ▸ pairwise_lt_insertionSort hnodup
  obtain ⟨hmem, hindex⟩ := buildValidators_wellIndexed h
  refine ⟨?_, hlt, hmem, fun i v hi => ?_⟩
  · intro hnil
    have hlength := congrArg List.length (hsorted.symm.trans hnil)
    rw [List.length_insertionSort] at hlength
    exact hne (List.length_eq_zero_iff.mp hlength)
  · have hvi : (v, i) ∈ sorted.zipIdx := List.mem_zipIdx_iff_getElem?.mpr hi
    obtain ⟨voteAddr, hlookup⟩ := hindex (hlt.imp ne_of_lt) (v, i) hvi
    exact ⟨voteAddr, hlookup, buildValidators_pairs hnodup h hlookup⟩

end Build

/-! ## Epoch lengths -/

section Epoch

variable (s : Snapshot) (isLorentz isMaxwell : Bool) (blockNumber : UInt64)

/-- An epoch length that changes grows, and the next block is a multiple of the new one. -/
theorem switchEpochNum_spec :
    s.epochNum ≤ (s.switchEpochNum isLorentz isMaxwell blockNumber).epochNum ∧
      ((s.switchEpochNum isLorentz isMaxwell blockNumber).epochNum ≠ s.epochNum →
        isMultipleOf (blockNumber + 1)
          (s.switchEpochNum isLorentz isMaxwell blockNumber).epochNum = true) := by
  unfold switchEpochNum
  dsimp only
  by_cases hlorentz : s.epochNum = defaultEpochLength ∧ isLorentz = true ∧
      isMultipleOf (blockNumber + 1) lorentzEpochLength = true
  · rw [if_pos hlorentz]
    split
    · next hmaxwell =>
      rw [hlorentz.1]
      exact ⟨by decide, fun _ => hmaxwell.2.2⟩
    · rw [hlorentz.1]
      exact ⟨by decide, fun _ => hlorentz.2.2⟩
  · rw [if_neg hlorentz]
    split
    · next hmaxwell =>
      rw [hmaxwell.1]
      exact ⟨by decide, fun _ => hmaxwell.2.2⟩
    · exact ⟨UInt64.le_rfl, fun hne => absurd rfl hne⟩

end Epoch

/-! ## Runs -/

/-- The snapshots of a run, the latest first, each with the lists that installed its validator set.
No list that the run is given has duplicates. -/
inductive SnapshotRun (hashSlow : Header → B256) (spec : ChainSpec) :
    List (Announced × Snapshot) → Prop
  | new {a : Announced} {blockNumber : UInt64} {blockHash : B256} {s : Snapshot}
      (hne : a.validators ≠ []) (hnodup : a.validators.Nodup)
      (h : new a.validators blockNumber blockHash defaultEpochLength a.voteAddrs = .ok s) :
      SnapshotRun hashSlow spec [(a, s)]
  | keep {a a' : Announced} {s s' : Snapshot} {run : List (Announced × Snapshot)} {v : Address}
      {header : Header} {attestation : Option VoteAttestation} {turnLength : Option UInt8}
      (hrun : SnapshotRun hashSlow spec ((a, s) :: run)) (hnodup : a'.validators.Nodup)
      (hkeep : ¬ s.Installs v hashSlow spec header a'.validators attestation)
      (h : s.apply hashSlow spec v header a'.validators a'.voteAddrs attestation turnLength
        = .ok s') :
      SnapshotRun hashSlow spec ((a, s') :: (a, s) :: run)
  | install {a a' : Announced} {s s' : Snapshot} {run : List (Announced × Snapshot)} {v : Address}
      {header : Header} {attestation : Option VoteAttestation} {turnLength : Option UInt8}
      (hrun : SnapshotRun hashSlow spec ((a, s) :: run)) (hnodup : a'.validators.Nodup)
      (hinstall : s.Installs v hashSlow spec header a'.validators attestation)
      (h : s.apply hashSlow spec v header a'.validators a'.voteAddrs attestation turnLength
        = .ok s') :
      SnapshotRun hashSlow spec ((a', s') :: (a, s) :: run)

section Run

variable {hashSlow : Header → B256} {spec : ChainSpec} {a a' : Announced} {s s' : Snapshot}
  {v : Address} {header : Header} {voteAddrs : Option (List VoteAddress)}
  {newValidators : List Address} {attestation : Option VoteAttestation} {turnLength : Option UInt8}

theorem wellFormed_of_build (hne : a.validators ≠ []) (hnodup : a.validators.Nodup)
    (h : buildValidators a.validators a.voteAddrs = .ok (s.validators, s.validatorsMap))
    (hepoch : EpochLength s.epochNum) : WellFormed a s := by
  obtain ⟨hnonempty, hsorted, hmem, hentry⟩ := buildValidators_spec hne hnodup h
  exact ⟨hnonempty, hsorted, hmem, hentry, hepoch⟩

theorem wellFormed_new {blockNumber : UInt64} {blockHash : B256} (hne : a.validators ≠ [])
    (hnodup : a.validators.Nodup)
    (h : new a.validators blockNumber blockHash defaultEpochLength a.voteAddrs = .ok s) :
    WellFormed a s := by
  obtain ⟨⟨validators, map⟩, hbuild, hs⟩ := bind_eq_ok.mp h
  cases hs
  exact wellFormed_of_build hne hnodup hbuild (.inl rfl)

theorem EpochLength.apply (hs : EpochLength s.epochNum)
    (h : s.apply hashSlow spec v header newValidators voteAddrs attestation turnLength = .ok s') :
    EpochLength s'.epochNum := by
  rw [(apply_spec h).epochNum]
  exact switchEpochNum_epochLength hs

theorem WellFormed.keep (hs : WellFormed a s)
    (hkeep : ¬ s.Installs v hashSlow spec header newValidators attestation)
    (h : s.apply hashSlow spec v header newValidators voteAddrs attestation turnLength = .ok s') :
    WellFormed a s' := by
  obtain ⟨recents, hrecord⟩ := record_eq (s.advance hashSlow header) spec v header attestation
  have hvalidators : s'.validators = s.validators := by
    rw [apply_of_not_installs h hkeep, hrecord]
    rfl
  have hmap : s'.validatorsMap = s.validatorsMap := by
    rw [apply_of_not_installs h hkeep, hrecord]
    rfl
  refine ⟨?_, ?_, ?_, ?_, hs.epochNum.apply h⟩
  · rw [hvalidators]; exact hs.nonempty
  · rw [hvalidators]; exact hs.sorted
  · rw [hvalidators, hmap]; exact hs.mem_map
  · rw [hvalidators, hmap]; exact hs.entry

theorem WellFormed.install (hs : WellFormed a s) (hnodup : a'.validators.Nodup)
    (hinstall : s.Installs v hashSlow spec header a'.validators attestation)
    (h : s.apply hashSlow spec v header a'.validators a'.voteAddrs attestation turnLength
      = .ok s') :
    WellFormed a' s' :=
  wellFormed_of_build hinstall.1 hnodup (apply_of_installs h hinstall).1 (hs.epochNum.apply h)

/-- The epoch length did not shrink from one snapshot to a later one. -/
def EpochGrows (later earlier : Announced × Snapshot) : Prop :=
  earlier.2.epochNum ≤ later.2.epochNum

/-- If the epoch length has just changed, the next block is a multiple of it. -/
def EpochAligned (later earlier : Announced × Snapshot) : Prop :=
  later.2.epochNum ≠ earlier.2.epochNum →
    isMultipleOf (later.2.blockNumber + 1) later.2.epochNum = true ∧
    (later.2.blockNumber.toNat + 1 < 2 ^ 64 →
      later.2.epochNum.toNat ∣ later.2.blockNumber.toNat + 1)

theorem toNat_dvd_of_isMultipleOf {n d : UInt64} (h : isMultipleOf (n + 1) d = true)
    (hn : n.toNat + 1 < 2 ^ 64) : d.toNat ∣ n.toNat + 1 := by
  have hmod := congrArg UInt64.toNat (beq_iff_eq.mp h)
  rw [UInt64.toNat_mod, UInt64.toNat_add] at hmod
  simp only [UInt64.reduceToNat] at hmod
  rw [Nat.mod_eq_of_lt hn] at hmod
  exact Nat.dvd_of_mod_eq_zero hmod

theorem epoch_step
    (h : s.apply hashSlow spec v header newValidators voteAddrs attestation turnLength = .ok s') :
    EpochGrows (a', s') (a, s) ∧ EpochAligned (a', s') (a, s) := by
  have hspec := apply_spec h
  obtain ⟨hgrows, haligned⟩ := s.switchEpochNum_spec
    (spec.isLorentzActiveAtTimestamp header.number header.timestamp)
    (spec.isMaxwellActiveAtTimestamp header.number header.timestamp) header.number
  rw [← hspec.epochNum] at hgrows haligned
  rw [← hspec.blockNumber] at haligned
  exact ⟨hgrows, fun hne => ⟨haligned hne, toNat_dvd_of_isMultipleOf (haligned hne)⟩⟩

/-- Adding a snapshot to a run whose epoch lengths grow. -/
theorem epochGrows_cons {p q : Announced × Snapshot} {run : List (Announced × Snapshot)}
    (hrun : (q :: run).Pairwise EpochGrows) (h : EpochGrows p q) :
    (p :: q :: run).Pairwise EpochGrows := by
  refine List.pairwise_cons.mpr ⟨fun r hr => ?_, hrun⟩
  rcases List.mem_cons.mp hr with rfl | hr
  · exact h
  · exact UInt64.le_trans ((List.pairwise_cons.mp hrun).1 r hr) h

/-- **Well-formedness is inductive.**  Every snapshot of a run is well-formed for the lists that
installed its validator set, the epoch length never shrinks, and it changes in the block before a
multiple of the new one. -/
theorem snapshotRun_wellFormed (hashSlow : Header → B256) (spec : ChainSpec)
    (run : List (Announced × Snapshot)) (hrun : SnapshotRun hashSlow spec run) :
    (∀ p ∈ run, WellFormed p.1 p.2) ∧ run.Pairwise EpochGrows ∧ run.IsChain EpochAligned := by
  induction hrun with
  | new hne hnodup h =>
    refine ⟨fun p hp => ?_, List.pairwise_singleton _ _, List.IsChain.singleton _⟩
    rw [List.mem_singleton.mp hp]
    exact wellFormed_new hne hnodup h
  | keep hrun hnodup hkeep h ih =>
    obtain ⟨hwf, hgrows, haligned⟩ := ih
    obtain ⟨hstep, hstep'⟩ := epoch_step h
    refine ⟨?_, epochGrows_cons hgrows hstep, haligned.cons_cons hstep'⟩
    refine List.forall_mem_cons.mpr ⟨?_, hwf⟩
    exact (hwf _ (List.mem_cons_self ..)).keep hkeep h
  | install hrun hnodup hinstall h ih =>
    obtain ⟨hwf, hgrows, haligned⟩ := ih
    obtain ⟨hstep, hstep'⟩ := epoch_step h
    refine ⟨?_, epochGrows_cons hgrows hstep, haligned.cons_cons hstep'⟩
    refine List.forall_mem_cons.mpr ⟨?_, hwf⟩
    exact (hwf _ (List.mem_cons_self ..)).install hnodup hinstall h

end Run

/-! ### A switch in block 1 -/

def switchAnnounced : Announced where
  validators := [nthValidator 3, nthValidator 2]
  voteAddrs := some [.repeatByte 48 3, .repeatByte 48 2]

/-- The set of the switch, with the vote address of each validator next to it. -/
def switchedSnapshot : Snapshot :=
  { emptySnapshot [nthValidator 2, nthValidator 3] 1
      (AList.insert 0xFFFFFFFFFFFFFFFF .zero ∅) with
    validatorsMap := setIndices [nthValidator 2, nthValidator 3]
      (Map.insertAll Prod.fst (fun va => ⟨0, va.2⟩)
        [(nthValidator 3, .repeatByte 48 3),
          (nthValidator 2, .repeatByte 48 2)] ∅) }

theorem switchedSnapshot_run :
    SnapshotRun numberHash bohrSpec
      [(switchAnnounced, switchedSnapshot),
        (⟨[nthValidator 1, nthValidator 2], none⟩, pairSnapshot 0 ∅)] := by
  have hnew : new [nthValidator 1, nthValidator 2] 0 (numberHash (emptyHeader 0))
      defaultEpochLength none = .ok (pairSnapshot 0 ∅) := by decide +kernel
  have happly : (pairSnapshot 0 ∅).apply numberHash bohrSpec (nthValidator 1) (emptyHeader 1)
      switchAnnounced.validators switchAnnounced.voteAddrs none none = .ok switchedSnapshot := by
    decide +kernel
  refine .install (.new (by decide +kernel) (by decide +kernel) hnew) (by decide +kernel)
    ⟨by decide +kernel, .inr ?_⟩ happly
  decide +kernel

theorem switchedSnapshot_wellFormed : WellFormed switchAnnounced switchedSnapshot :=
  (snapshotRun_wellFormed numberHash bohrSpec _ switchedSnapshot_run).1 _ (List.mem_cons_self ..)

end RethBsc.Snapshot
