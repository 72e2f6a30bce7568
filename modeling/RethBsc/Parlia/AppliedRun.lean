import RethBsc.Parlia.Snapshot

/-!
# Chains with their snapshots

A chain of headers from genesis, the newest first, each applied to the snapshot of its parent.  What
else was checked of a header before it was applied is left to other modules; this one is about the
shape of such chains.  A block with its ancestors is a suffix of the chain.

* `AppliedRun.numbers`: the number of a block is the number of blocks before it.
* `AppliedRun.mem_take_iff`: which blocks are among the last ones.
-/

namespace RethBsc

open Rust

/-- The headers and their snapshots down to genesis. -/
inductive AppliedRun (hashSlow : Header → B256) (spec : ChainSpec) (genesis : Header) :
    List (Header × Snapshot) → Prop
  | genesis {validators : List Address} {voteAddrs : Option (List VoteAddress)} {s : Snapshot}
      (hnumber : genesis.number = 0)
      (h : Snapshot.new validators 0 (hashSlow genesis) defaultEpochLength voteAddrs = .ok s) :
      AppliedRun hashSlow spec genesis [(genesis, s)]
  | block {parent header : Header} {run : List (Header × Snapshot)} {s s' : Snapshot}
      {validator : Address} {newValidators : List Address} {voteAddrs : Option (List VoteAddress)}
      {attestation : Option VoteAttestation} {turnLength : Option UInt8}
      (before : AppliedRun hashSlow spec genesis ((parent, s) :: run))
      (hparent : header.parentHash = hashSlow parent)
      (happly : s.apply hashSlow spec validator header newValidators voteAddrs attestation
        turnLength = .ok s') :
      AppliedRun hashSlow spec genesis ((header, s') :: (parent, s) :: run)

namespace AppliedRun

variable {hashSlow : Header → B256} {spec : ChainSpec} {genesis header : Header} {s : Snapshot}
  {run before : List (Header × Snapshot)} {b : Header × Snapshot}

/-- A block of a chain with its ancestors is a chain. -/
theorem of_suffix (h : AppliedRun hashSlow spec genesis run) (hsuffix : b :: before <:+ run) :
    AppliedRun hashSlow spec genesis (b :: before) := by
  induction h with
  | genesis hnumber hnew =>
    rcases List.suffix_cons_iff.mp hsuffix with heq | hnil
    · rw [heq]
      exact .genesis hnumber hnew
    · exact absurd (List.suffix_nil.mp hnil) (by simp)
  | block chain hparent happly ih =>
    rcases List.suffix_cons_iff.mp hsuffix with heq | hsuffix
    · rw [heq]
      exact .block chain hparent happly
    · exact ih hsuffix

theorem numbers (h : AppliedRun hashSlow spec genesis ((header, s) :: before)) :
    header.number = UInt64.ofNat before.length ∧ s.blockNumber = header.number := by
  generalize hrun : (header, s) :: before = run at h
  induction h generalizing header s before with
  | genesis hnumber hnew =>
    obtain ⟨⟨rfl, rfl⟩, rfl⟩ := by simpa using hrun
    obtain ⟨_, -, hs⟩ := Outcome.bind_eq_ok.mp hnew
    refine ⟨hnumber, ?_⟩
    rw [hnumber, ← Outcome.ok.inj hs]
  | block _ _ happly ih =>
    obtain ⟨⟨rfl, rfl⟩, rfl⟩ := by simpa using hrun
    obtain ⟨hnumber, hblock⟩ := ih rfl
    have happlied := Snapshot.apply_spec happly
    refine ⟨?_, happlied.blockNumber⟩
    rw [← happlied.number, hblock, hnumber]
    exact (UInt64.ofNat_add _ 1).symm

/-- The numbers of a chain count down to zero. -/
theorem number_getElem (h : AppliedRun hashSlow spec genesis run) (hlen : run.length ≤ 2 ^ 64)
    {i : Nat} (hi : i < run.length) : run[i].1.number.toNat = run.length - 1 - i := by
  -- the ancestors of the block are what is left of the list after it
  have hsuffix : run[i] :: run.drop (i + 1) <:+ run := by
    rw [← List.drop_eq_getElem_cons hi]
    exact List.drop_suffix i run
  have hnumber : run[i].1.number = UInt64.ofNat (run.drop (i + 1)).length :=
    (h.of_suffix hsuffix).numbers.1
  simp_all
  omega

theorem number_lt (h : AppliedRun hashSlow spec genesis run) (hlen : run.length ≤ 2 ^ 64)
    (hb : b ∈ run) : b.1.number.toNat < run.length := by
  obtain ⟨i, hi, rfl⟩ := List.getElem_of_mem hb
  rw [h.number_getElem hlen hi]
  omega

theorem headers_nodup (h : AppliedRun hashSlow spec genesis run) (hlen : run.length ≤ 2 ^ 64) :
    (run.map Prod.fst).Nodup := by
  refine List.pairwise_iff_getElem.mpr fun i j hi hj hij heq => ?_
  rw [List.length_map] at hi hj
  rw [List.getElem_map, List.getElem_map] at heq
  have hnumber : run[i].1.number.toNat = run[j].1.number.toNat := by rw [heq]
  rw [h.number_getElem hlen hi, h.number_getElem hlen hj] at hnumber
  omega

/-- The last `n` blocks are those with the highest numbers. -/
theorem mem_take_iff (h : AppliedRun hashSlow spec genesis run) (hlen : run.length ≤ 2 ^ 64)
    (hb : b ∈ run) (n : Nat) :
    b.1 ∈ (run.map Prod.fst).take n ↔ run.length ≤ b.1.number.toNat + n := by
  obtain ⟨j, hj, rfl⟩ := List.getElem_of_mem hb
  rw [List.mem_take_iff_getElem, h.number_getElem hlen hj]
  refine ⟨fun ⟨i, hi, heq⟩ => ?_, fun hle => ⟨j, ?_, List.getElem_map _⟩⟩
  · rw [List.length_map] at hi
    rw [List.getElem_map] at heq
    have hnumber : run[i].1.number.toNat = run[j].1.number.toNat := by rw [heq]
    rw [h.number_getElem hlen (by omega), h.number_getElem hlen hj] at hnumber
    omega
  · rw [List.length_map]
    omega

/-- A block other than genesis has its parent below it. -/
theorem exists_parent (h : AppliedRun hashSlow spec genesis run) (hb : b ∈ run)
    (hnumber : 1 ≤ b.1.number.toNat) : ∃ parent older, b :: parent :: older <:+ run := by
  obtain ⟨newer, older, rfl⟩ := List.append_of_mem hb
  have hsuffix := List.suffix_append newer (b :: older)
  cases older with
  -- without ancestors the block has number 0
  | nil =>
    have hzero : b.1.number = 0 := (h.of_suffix hsuffix).numbers.1
    exact absurd hnumber (by rw [hzero]; decide)
  | cons parent older => exact ⟨parent, older, hsuffix⟩

end AppliedRun

end RethBsc
