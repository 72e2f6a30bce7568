import RethBsc.Parlia.Signers

/-!
# Attestations from an unchecked vote pool

Peers can put any vote into the pool.  Starting from a pool from which the producer assembles a
good attestation, which further votes keep it from doing so?

* `Target`: the block that the producer's walk stops at.  More votes can only make it stop earlier
  (`Target.mono`).
* `Clean`: what the bucket of that block must look like.  Every vote in it has the right data, a
  quorum of validators voted, and the *first* vote of every validator is decodable and valid.
* `aggregateVotes_verifies_iff`: the attestation over a bucket verifies exactly when it is clean.
* `assembleVoteAttestation_robust_iff`: with more votes put in before and after, the producer still
  appends an attestation that verifies exactly when the bucket it stops at is clean.
-/

namespace RethBsc

open Rust Outcome

/-! ## Assumptions on the other crates -/

/-- The RLP coding is injective and writes something, aggregation needs a signature, and an
aggregate verifies iff each aggregated signature is valid for its vote address. -/
structure Crypto.Lawful (c : Crypto) (valid : VoteAddress → B256 → c.Signature → Prop) : Prop where
  encode_injective : Function.Injective c.encode
  encode_ne_nil : ∀ a, c.encode a ≠ []
  aggregate_nil : c.aggregate [] = none
  aggregate_ne_nil : ∀ sigs, sigs ≠ [] → ∃ agg, c.aggregate sigs = some agg
  verify_iff : ∀ (l : List (VoteAddress × c.Signature)) (agg : c.Signature) (message : B256)
    (addrs : List VoteAddress), c.aggregate (l.map Prod.snd) = some agg →
    addrs.Perm (l.map Prod.fst) →
    (c.verifyAggregate (c.toBytes agg) message addrs = true ↔ ∀ vs ∈ l, valid vs.1 message vs.2)

/-! ## The target block -/

section Target

variable (c : Crypto) (lookups : Lookups)

/-- Walking up from `t` over at most `n` blocks, all above the justified number except perhaps
the first, `u` is the first block with a quorum of votes, and `s` is the snapshot of its parent. -/
inductive Target (bucket : B256 → List VoteEnvelope) (justifiedNumber : UInt64) :
    Nat → Header → Header → Snapshot → Prop
  | here {n : Nat} {t : Header} {s : Snapshot}
      (hs : lookups.snapshotByHash t.parentHash = some s)
      (hquorum : s.quorum ≤ (bucket (c.hashSlow t)).length) :
      Target bucket justifiedNumber (n + 1) t t s
  | up {n : Nat} {t t' u : Header} {s s' : Snapshot}
      (hs : lookups.snapshotByHash t.parentHash = some s)
      (hquorum : (bucket (c.hashSlow t)).length < s.quorum)
      (hparent : lookups.canonicalHeaderByHash t.parentHash = some t')
      (habove : justifiedNumber < t'.number)
      (h : Target bucket justifiedNumber n t' u s') :
      Target bucket justifiedNumber (n + 1) t u s'

variable {c lookups} {bucket bucket' : B256 → List VoteEnvelope} {justifiedNumber : UInt64} {n : Nat}
  {t u u' : Header} {s s' : Snapshot}

theorem Target.snapshotByHash (h : Target c lookups bucket justifiedNumber n t u s) :
    lookups.snapshotByHash u.parentHash = some s := by
  induction h with
  | here hs _ => exact hs
  | up _ _ _ _ _ ih => exact ih

theorem findTarget_eq_ok_some :
    findTarget c lookups bucket justifiedNumber n t = .ok (some (u, s)) ↔
      Target c lookups bucket justifiedNumber n t u s := by
  induction n generalizing t with
  | zero => exact ⟨fun h => absurd h (by simp [findTarget]), fun h => nomatch h⟩
  | succ n ih =>
    rw [findTarget, bind_eq_ok]
    refine ⟨fun ⟨snap, hs, h⟩ => ?_, fun h => ?_⟩
    · have hs := okOr_eq_ok.mp hs
      split at h
      · next hquorum =>
        obtain ⟨rfl, rfl⟩ := Prod.mk.inj (Option.some.inj (ok.inj h))
        exact .here hs hquorum
      · next hquorum =>
        obtain ⟨t', ht', h⟩ := bind_eq_ok.mp h
        split at h
        · simp at h
        · next habove =>
          exact .up hs (Nat.lt_of_not_le hquorum) (okOr_eq_ok.mp ht')
            (UInt64.not_le.mp habove) (ih.mp h)
    · cases h with
      | here hs hquorum => exact ⟨s, okOr_eq_ok.mpr hs, by rw [if_pos hquorum]; rfl⟩
      | up hs hquorum hparent habove h =>
        refine ⟨_, okOr_eq_ok.mpr hs, ?_⟩
        rw [if_neg (Nat.not_le.mpr hquorum), okOr_eq_ok.mpr hparent, ok_bind,
          if_neg (UInt64.not_le.mpr habove)]
        exact ih.mpr h

/-- The walk has one target. -/
theorem Target.unique (h : Target c lookups bucket justifiedNumber n t u s)
    (h' : Target c lookups bucket justifiedNumber n t u' s') : u = u' ∧ s = s' := by
  have heq := (findTarget_eq_ok_some.mpr h).symm.trans (findTarget_eq_ok_some.mpr h')
  exact Prod.mk.inj (Option.some.inj (ok.inj heq))

/-- With more votes the walk stops at the same block, or earlier and then at a block that needs
votes at all. -/
theorem Target.mono (hle : ∀ h, (bucket h).length ≤ (bucket' h).length)
    (h : Target c lookups bucket justifiedNumber n t u s) :
    ∃ u' s', Target c lookups bucket' justifiedNumber n t u' s' ∧
      ((u' = u ∧ s' = s) ∨ 0 < s'.quorum) := by
  induction h with
  | here hs hquorum => exact ⟨_, _, .here hs (hquorum.trans (hle _)), .inl ⟨rfl, rfl⟩⟩
  | @up n t t' u s s' hs hquorum hparent habove h ih =>
    by_cases hquorum' : s.quorum ≤ (bucket' (c.hashSlow t)).length
    · exact ⟨_, _, .here hs hquorum', .inr (by omega)⟩
    · obtain ⟨u', s', h', hcases⟩ := ih
      exact ⟨u', s', .up hs (Nat.lt_of_not_le hquorum') hparent habove h', hcases⟩

end Target

/-! ## Aggregating a bucket -/

/-- Every vote is for `data`, a quorum of validators voted, and the vote that counts for each of
them has a signature that decodes and is valid. -/
structure Clean (c : Crypto) (valid : VoteAddress → B256 → c.Signature → Prop) (s : Snapshot)
    (votes : List VoteEnvelope) (data : VoteData) : Prop where
  sameData : ∀ vote ∈ votes, c.voteHash vote.data = c.voteHash data
  quorum : s.quorum ≤ (voters s votes).length
  validFirst : ∀ vi ∈ voters s votes, ∃ sig,
    c.signatureFromBytes (firstSignature votes (s.voteAddr vi.1)) = some sig ∧
      valid (s.voteAddr vi.1) (c.voteHash data) sig

/-- The aggregate of the attestation verifies over the validators of `s` in its bit set. -/
def AggregateVerifies (c : Crypto) (s : Snapshot) (attestation : VoteAttestation) : Prop :=
  ∃ addrs, bitSetVoteAddrs s attestation.voteAddressSet = .ok addrs ∧
    c.verifyAggregate attestation.aggSignature (c.voteHash attestation.data) addrs = true

section Aggregate

variable {c : Crypto} {valid : VoteAddress → B256 → c.Signature → Prop} {s : Snapshot}
  {votes : List VoteEnvelope} {data : VoteData} {attestation : VoteAttestation}

/-- What `assemble_vote_attestation` demands of the snapshot of the target's parent. -/
structure Snapshot.Votable (s : Snapshot) : Prop where
  wellIndexed : s.WellIndexed
  length_le : s.validators.length ≤ 64
  distinct : s.DistinctVoteAddrs

/-- The count check at the end never fails: the stages before it decide. -/
theorem aggregateVotes_eq_ok_some (hs : s.Votable) :
    aggregateVotes c s votes data = .ok (some attestation) ↔
      (∀ vote ∈ votes, c.voteHash vote.data = c.voteHash data) ∧
      s.quorum ≤ (voters s votes).length ∧
      ∃ sigs agg, (orderedUnique s votes).map (fun o => c.signatureFromBytes o.2.2)
          = sigs.map some ∧
        c.aggregate sigs = some agg ∧
        attestation = ⟨voteSet ((voters s votes).map Prod.snd), c.toBytes agg, data, []⟩ := by
  have hnodup := hs.distinct.nodup
  have hlen : (orderedUnique s votes).length = (voters s votes).length := by
    rw [(orderedUnique_perm hs.wellIndexed hnodup).length_eq, List.length_map]
  have hones : countOnes (voteSet ((voters s votes).map Prod.snd))
      = (orderedUnique s votes).length := by
    rw [countOnes_voters hs.length_le, hlen]
  unfold aggregateVotes
  cases hfind : votes.find? fun vote => c.voteHash vote.data ≠ c.voteHash data with
  | some vote => grind
  | none =>
    have hdata : ∀ vote ∈ votes, c.voteHash vote.data = c.voteHash data := by
      simpa using List.find?_eq_none.mp hfind
    simp only [foldl_orderedUnique hs.wellIndexed hnodup, hones, hlen]
    by_cases hquorum : (voters s votes).length < s.quorum
    · simp [*]
    · rw [if_neg hquorum]
      simp only [bind_eq_ok, mapM_unwrap_eq_ok, okOr_eq_ok, ne_eq,
        not_true_eq_false, if_false, pure_eq, ok.injEq, Option.some.injEq]
      grind

/-- A list of decoded values, paired with what they were decoded for. -/
theorem zip_decoded {α β γ : Type} {f : α → Option β} {g : α → γ} {l : List α} {bs : List β}
    (h : l.map f = bs.map some) :
    ((l.map g).zip bs).map Prod.fst = l.map g ∧ ((l.map g).zip bs).map Prod.snd = bs ∧
      ∀ P : γ → β → Prop, (∀ gb ∈ (l.map g).zip bs, P gb.1 gb.2) ↔
        ∀ a ∈ l, ∃ b, f a = some b ∧ P (g a) b := by
  have hlen : l.length = bs.length := by simpa using congrArg List.length h
  refine ⟨List.map_fst_zip (by simp [hlen]), List.map_snd_zip (by simp [hlen]), fun P => ?_⟩
  clear hlen
  induction l generalizing bs with
  | nil => simp
  | cons a l ih =>
    cases bs with
    | nil => simp at h
    | cons b bs =>
      rw [List.map_cons, List.map_cons, List.cons.injEq] at h
      rw [List.map_cons, List.zip_cons_cons, List.forall_mem_cons, List.forall_mem_cons, ih h.2, h.1]
      simp

/-- The decoded signatures of the voters, each with the vote address it is for.  They are in the
order of the producer, which is some order of the voters. -/
theorem exists_signers (hs : s.Votable) {sigs : List c.Signature}
    (hsigs : (orderedUnique s votes).map (fun o => c.signatureFromBytes o.2.2) = sigs.map some) :
    ∃ l : List (VoteAddress × c.Signature), l.map Prod.snd = sigs ∧
      ((voters s votes).map fun vi => s.voteAddr vi.1).Perm (l.map Prod.fst) ∧
      ∀ Q : VoteAddress → c.Signature → Prop, (∀ vs ∈ l, Q vs.1 vs.2) ↔
        ∀ vi ∈ voters s votes, ∃ sig,
          c.signatureFromBytes (firstSignature votes (s.voteAddr vi.1)) = some sig ∧
            Q (s.voteAddr vi.1) sig := by
  have hperm : (orderedUnique s votes).Perm _ := orderedUnique_perm hs.wellIndexed hs.distinct.nodup
  obtain ⟨hfst, hsnd, hforall⟩ := zip_decoded (g := fun o => o.2.1) hsigs
  refine ⟨_, hsnd, ?_, fun Q => ?_⟩
  · have := (hperm.map fun o => o.2.1).symm
    rw [hfst]
    rwa [List.map_map] at this
  · rw [hforall Q]
    simp only [hperm.mem_iff, List.forall_mem_map]

/-- The verifier's answer on an assembled attestation: all counting signatures have to be valid. -/
theorem aggregateVerifies_iff (hc : c.Lawful valid) (hs : s.Votable) {sigs : List c.Signature}
    {agg : c.Signature}
    (hsigs : (orderedUnique s votes).map (fun o => c.signatureFromBytes o.2.2) = sigs.map some)
    (hagg : c.aggregate sigs = some agg) :
    AggregateVerifies c s ⟨voteSet ((voters s votes).map Prod.snd), c.toBytes agg, data, []⟩ ↔
      ∀ vi ∈ voters s votes, ∃ sig,
        c.signatureFromBytes (firstSignature votes (s.voteAddr vi.1)) = some sig ∧
          valid (s.voteAddr vi.1) (c.voteHash data) sig := by
  obtain ⟨l, rfl, haddrs, hforall⟩ := exists_signers hs hsigs
  rw [← hforall fun a sig => valid a (c.voteHash data) sig,
    ← hc.verify_iff l agg (c.voteHash data) _ hagg haddrs, AggregateVerifies]
  dsimp only
  rw [bitSetVoteAddrs_voteSet hs.wellIndexed hs.distinct.nodup hs.length_le]
  simp

theorem exists_map_some {α β : Type} {f : α → Option β} {l : List α}
    (h : ∀ a ∈ l, ∃ b, f a = some b) : ∃ bs : List β, l.map f = bs.map some := by
  induction l with
  | nil => exact ⟨[], rfl⟩
  | cons a l ih =>
    obtain ⟨b, hb⟩ := h a List.mem_cons_self
    obtain ⟨bs, hbs⟩ := ih fun a' ha' => h a' (List.mem_cons_of_mem _ ha')
    exact ⟨b :: bs, by rw [List.map_cons, List.map_cons, hb, hbs]⟩

/-- **The attestation over a bucket verifies exactly when the bucket is clean** and somebody
voted. -/
theorem aggregateVotes_verifies_iff (hc : c.Lawful valid) (hs : s.Votable) :
    (∃ attestation, aggregateVotes c s votes data = .ok (some attestation) ∧
      AggregateVerifies c s attestation) ↔
      Clean c valid s votes data ∧ voters s votes ≠ [] := by
  have hperm : (orderedUnique s votes).Perm _ := orderedUnique_perm hs.wellIndexed hs.distinct.nodup
  refine ⟨fun ⟨attestation, hok, hverifies⟩ => ?_, fun ⟨hclean, hne⟩ => ?_⟩
  · obtain ⟨hdata, hquorum, sigs, agg, hsigs, hagg, rfl⟩ := (aggregateVotes_eq_ok_some hs).mp hok
    refine ⟨⟨hdata, hquorum, (aggregateVerifies_iff hc hs hsigs hagg).mp hverifies⟩, fun hnil => ?_⟩
    -- without voters there are no signatures to aggregate
    rw [hnil, List.map_nil, List.perm_nil] at hperm
    rw [hperm, List.map_nil, eq_comm, List.map_eq_nil_iff] at hsigs
    rw [hsigs, hc.aggregate_nil] at hagg
    simp at hagg
  · have hdecode : ∀ o ∈ orderedUnique s votes, ∃ sig, c.signatureFromBytes o.2.2 = some sig := by
      simp only [hperm.mem_iff, List.forall_mem_map]
      exact fun vi hvi => (hclean.validFirst vi hvi).imp fun sig hsig => hsig.1
    obtain ⟨sigs, hsigs⟩ := exists_map_some hdecode
    have hsigs_ne : sigs ≠ [] := by
      rintro rfl
      rw [List.map_nil, List.map_eq_nil_iff] at hsigs
      rw [hsigs, List.nil_perm, List.map_eq_nil_iff] at hperm
      exact hne hperm
    obtain ⟨agg, hagg⟩ := hc.aggregate_ne_nil sigs hsigs_ne
    exact ⟨_, (aggregateVotes_eq_ok_some hs).mpr
      ⟨hclean.sameData, hclean.quorum, sigs, agg, hsigs, hagg, rfl⟩,
      (aggregateVerifies_iff hc hs hsigs hagg).mpr hclean.validFirst⟩

end Aggregate

/-! ## The whole assembly -/

/-- The data of the attestation for `target` on a parent with snapshot `parentSnap`. -/
def attestationData (c : Crypto) (parentSnap : Snapshot) (target : Header) : VoteData :=
  ⟨parentSnap.voteData.targetNumber, parentSnap.voteData.targetHash, target.number,
    c.hashSlow target⟩

/-- Without panic and without error, an attestation for the walk's target is appended, and its
aggregate verifies over the validators in its bit set, by the snapshot of the target's parent. -/
def AppendsVerified (c : Crypto) (lookups : Lookups) (p : Parlia) (pool : VotePool)
    (parentSnap : Snapshot) (parentHeader currentHeader : Header) : Prop :=
  ∃ target s attestation,
    Target c lookups pool.fetchVoteByBlockHash parentSnap.voteData.targetNumber
      (p.walkDepth currentHeader) parentHeader target s ∧
    attestation.data = attestationData c parentSnap target ∧
    p.assembleVoteAttestation c lookups pool parentSnap parentHeader currentHeader
      = .ok { currentHeader with
          extraData := currentHeader.extraData ++ c.encode attestation } ∧
    AggregateVerifies c s attestation

section Assembly

variable {c : Crypto} {valid : VoteAddress → B256 → c.Signature → Prop} {lookups : Lookups}
  {p : Parlia} {pool : VotePool} {parentSnap : Snapshot} {parentHeader currentHeader : Header}
  {attestation : VoteAttestation}

/-- The header with an attestation appended determines the attestation. -/
theorem append_encode_inj (hc : c.Lawful valid) {a b : VoteAttestation}
    (h : { currentHeader with extraData := currentHeader.extraData ++ c.encode a }
      = { currentHeader with extraData := currentHeader.extraData ++ c.encode b }) : a = b :=
  hc.encode_injective (List.append_cancel_left (congrArg Header.extraData h))

theorem append_encode_ne (hc : c.Lawful valid) (a : VoteAttestation) :
    currentHeader ≠ { currentHeader with extraData := currentHeader.extraData ++ c.encode a } :=
  fun h => hc.encode_ne_nil a (List.self_eq_append_right.mp (congrArg Header.extraData h))

/-- Assembly leaves the header as it is, or it is switched on, the walk finds a target and the
target's bucket aggregates. -/
theorem assembleVoteAttestation_cases {result : Header}
    (h : p.assembleVoteAttestation c lookups pool parentSnap parentHeader currentHeader
      = .ok result) :
    result = currentHeader ∨
      (p.spec.isLubanActiveAtBlock currentHeader.number = true ∧ 3 ≤ currentHeader.number) ∧
      ∃ target s attestation,
        Target c lookups pool.fetchVoteByBlockHash parentSnap.voteData.targetNumber
          (p.walkDepth currentHeader) parentHeader target s ∧
        aggregateVotes c s (pool.fetchVoteByBlockHash (c.hashSlow target))
          (attestationData c parentSnap target) = .ok (some attestation) ∧
        result
          = { currentHeader with extraData := currentHeader.extraData ++ c.encode attestation } := by
  unfold Parlia.assembleVoteAttestation at h
  split at h
  · exact .inl (ok.inj h).symm
  · next hgate =>
    obtain ⟨found, hfound, h⟩ := bind_eq_ok.mp h
    cases found with
    | none => exact .inl (ok.inj h).symm
    | some ts =>
      obtain ⟨target, s⟩ := ts
      obtain ⟨appended, hagg, h⟩ := bind_eq_ok.mp h
      cases appended with
      | none => exact .inl (ok.inj h).symm
      | some attestation =>
        refine .inr ⟨by simpa using hgate, target, s, attestation, ?_, hagg, ?_⟩
        · exact findTarget_eq_ok_some.mp hfound
        · exact (ok.inj h).symm

/-- Assembly appends an attestation when it is switched on, the walk finds a target and the
target's bucket aggregates. -/
theorem assembleVoteAttestation_appends (hc : c.Lawful valid) :
    p.assembleVoteAttestation c lookups pool parentSnap parentHeader currentHeader
        = .ok { currentHeader with extraData := currentHeader.extraData ++ c.encode attestation } ↔
      (p.spec.isLubanActiveAtBlock currentHeader.number = true ∧ 3 ≤ currentHeader.number) ∧
      ∃ target s, Target c lookups pool.fetchVoteByBlockHash parentSnap.voteData.targetNumber
          (p.walkDepth currentHeader) parentHeader target s ∧
        aggregateVotes c s (pool.fetchVoteByBlockHash (c.hashSlow target))
          (attestationData c parentSnap target) = .ok (some attestation) := by
  refine ⟨fun h => ?_, fun ⟨hgate, target, s, htarget, hagg⟩ => ?_⟩
  · rcases assembleVoteAttestation_cases h with hsame | ⟨hgate, target, s, att, htarget, hagg, heq⟩
    · exact absurd hsame.symm (append_encode_ne hc _)
    · obtain rfl : attestation = att := append_encode_inj hc heq
      exact ⟨hgate, target, s, htarget, hagg⟩
  · rw [Parlia.assembleVoteAttestation, if_neg (by simpa [hgate.1] using hgate.2), bind_eq_ok]
    exact ⟨_, findTarget_eq_ok_some.mpr htarget, bind_eq_ok.mpr ⟨_, hagg, rfl⟩⟩

/-- For one pool: a good attestation is appended exactly when assembly is switched on and the
target's bucket is clean. -/
theorem appendsVerified_iff (hc : c.Lawful valid)
    (hlookups : ∀ h s, lookups.snapshotByHash h = some s → s.Votable) :
    AppendsVerified c lookups p pool parentSnap parentHeader currentHeader ↔
      (p.spec.isLubanActiveAtBlock currentHeader.number = true ∧ 3 ≤ currentHeader.number) ∧
      ∃ target s, Target c lookups pool.fetchVoteByBlockHash parentSnap.voteData.targetNumber
          (p.walkDepth currentHeader) parentHeader target s ∧
        Clean c valid s (pool.fetchVoteByBlockHash (c.hashSlow target))
          (attestationData c parentSnap target) ∧
        voters s (pool.fetchVoteByBlockHash (c.hashSlow target)) ≠ [] := by
  refine ⟨fun ⟨target', s', attestation, htarget', _, happends, hverifies⟩ => ?_,
    fun ⟨hgate, target, s, htarget, hclean⟩ => ?_⟩
  · obtain ⟨hgate, target, s, htarget, hagg⟩ := (assembleVoteAttestation_appends hc).mp happends
    obtain ⟨rfl, rfl⟩ := htarget.unique htarget'
    have hs := hlookups _ _ htarget.snapshotByHash
    exact ⟨hgate, target, s, htarget,
      (aggregateVotes_verifies_iff hc hs).mp ⟨attestation, hagg, hverifies⟩⟩
  · have hs := hlookups _ _ htarget.snapshotByHash
    obtain ⟨attestation, hagg, hverifies⟩ := (aggregateVotes_verifies_iff hc hs).mpr hclean
    obtain ⟨_, _, _, _, _, _, hattestation⟩ := (aggregateVotes_eq_ok_some hs).mp hagg
    exact ⟨target, s, attestation, htarget, by rw [hattestation],
      (assembleVoteAttestation_appends hc).mpr ⟨hgate, target, s, htarget, hagg⟩, hverifies⟩

theorem quorum_pos {s : Snapshot} {votes : List VoteEnvelope} (h : voters s votes ≠ []) :
    0 < s.quorum := by
  obtain ⟨vi, hvi⟩ := List.exists_mem_of_ne_nil _ h
  have := lt_of_mem_voters hvi
  unfold Snapshot.quorum
  omega

/-- **Which votes an attestation survives.** From the pool of `votes` a good attestation is
assembled.  Put further votes into the pool, before and after.  A good attestation is still
assembled exactly when the bucket at which the walk now stops is clean. -/
theorem assembleVoteAttestation_robust_iff (c : Crypto)
    (valid : VoteAddress → B256 → c.Signature → Prop) (hc : c.Lawful valid) (lookups : Lookups)
    (p : Parlia) (hlookups : ∀ h s, lookups.snapshotByHash h = some s →
      Snapshot.Reachable c.hashSlow p.spec s ∧ s.validators.length ≤ 64 ∧ s.DistinctVoteAddrs)
    (parentSnap : Snapshot) (parentHeader currentHeader : Header)
    (before after : List (List VoteEnvelope)) (votes : List VoteEnvelope) (pool : VotePool)
    (hhash : VotePool.NoCollision c.envelopeHash
      (before.filterMap List.head? ++ votes ++ after.filterMap List.head?))
    (hgood : AppendsVerified c lookups p (VotePool.new.putVotes c.envelopeHash votes) parentSnap
      parentHeader currentHeader)
    (hpool : pool = ((VotePool.new.handlePackets c.envelopeHash before).putVotes
      c.envelopeHash votes).handlePackets c.envelopeHash after) :
    AppendsVerified c lookups p pool parentSnap parentHeader currentHeader ↔
      ∀ target s, Target c lookups pool.fetchVoteByBlockHash parentSnap.voteData.targetNumber
          (p.walkDepth currentHeader) parentHeader target s →
        Clean c valid s (pool.fetchVoteByBlockHash (c.hashSlow target))
          (attestationData c parentSnap target) := by
  have hvotable : ∀ h s, lookups.snapshotByHash h = some s → s.Votable := by
    intro h s hs
    obtain ⟨hreach, hlen, hdistinct⟩ := hlookups h s hs
    exact ⟨hreach.wellIndexed, hlen, hdistinct⟩
  obtain ⟨hgate, target₀, s₀, htarget₀, -, hvoters₀⟩ := (appendsVerified_iff hc hvotable).mp hgood
  have hsmall : VotePool.Holds c.envelopeHash (VotePool.new.putVotes c.envelopeHash votes) votes :=
    VotePool.holds_new.putVotes (hhash.subset fun v hv => by simpa using .inr (.inl hv))
  have hlarge : VotePool.Holds c.envelopeHash pool
      (before.filterMap List.head? ++ votes ++ after.filterMap List.head?) := by
    rw [hpool, VotePool.handlePackets_eq, VotePool.handlePackets_eq]
    have hbefore := VotePool.holds_new.putVotes
      (hhash.subset fun v hv => List.mem_append_left _ (List.mem_append_left _ hv))
    exact (hbefore.putVotes (hhash.subset (List.subset_append_left _ _))).putVotes hhash
  have hle : ∀ h, ((VotePool.new.putVotes c.envelopeHash votes).fetchVoteByBlockHash h).length
      ≤ (pool.fetchVoteByBlockHash h).length :=
    hsmall.length_fetch_le hlarge (fun v hv => by simp [hv])
  obtain ⟨target, s, htarget, hcases⟩ := htarget₀.mono hle
  have hquorum : 0 < s.quorum := by
    rcases hcases with ⟨-, rfl⟩ | hpos
    · exact quorum_pos hvoters₀
    · exact hpos
  rw [appendsVerified_iff hc hvotable, and_iff_right hgate]
  refine ⟨fun ⟨u, su, hu, hclean, _⟩ target' s' htarget' => ?_, fun h => ?_⟩
  · obtain ⟨rfl, rfl⟩ := hu.unique htarget'
    exact hclean
  · have hclean := h target s htarget
    refine ⟨target, s, htarget, hclean, fun hnil => ?_⟩
    have := hclean.quorum
    rw [hnil, List.length_nil] at this
    omega

end Assembly

/-! ## One validator and one stray vote

Signatures that start with byte 1 are valid, those that start with byte 2 are decodable but
invalid, and no other signature can be decoded. -/

def flatEncode (attestation : VoteAttestation) : Bytes :=
  toBeBytes attestation.voteAddressSet ++ attestation.aggSignature.val ++
    toBeBytes attestation.data.sourceNumber ++ attestation.data.sourceHash.val ++
    toBeBytes attestation.data.targetNumber ++ attestation.data.targetHash.val ++ attestation.extra

theorem flatEncode_injective : Function.Injective flatEncode := by
  rintro ⟨set, agg, ⟨sn, sh, tn, th⟩, extra⟩ ⟨set', agg', ⟨sn', sh', tn', th'⟩, extra'⟩ h
  simp only [flatEncode, List.append_assoc] at h
  obtain ⟨hset, h⟩ := List.append_inj h (by simp)
  obtain ⟨hagg, h⟩ := List.append_inj h (by rw [agg.length_val, agg'.length_val])
  obtain ⟨hsn, h⟩ := List.append_inj h (by simp)
  obtain ⟨hsh, h⟩ := List.append_inj h (by rw [sh.length_val, sh'.length_val])
  obtain ⟨htn, h⟩ := List.append_inj h (by simp)
  obtain ⟨hth, h⟩ := List.append_inj h (by rw [th.length_val, th'.length_val])
  rw [toBeBytes_injective hset, FixedBytes.ext hagg, toBeBytes_injective hsn, FixedBytes.ext hsh,
    toBeBytes_injective htn, FixedBytes.ext hth, h]

def markedCrypto : Crypto where
  hashSlow := numberHash
  voteHash data := b256OfUInt64 data.sourceNumber
  envelopeHash vote := ⟨vote.signature.val.take 32, by simp [vote.signature.length_val]⟩
  encode := flatEncode
  decode _ := none
  PublicKey := VoteAddress
  Signature := Bool
  publicKeyFromBytes := some
  signatureFromBytes sig :=
    if sig.val.head? = some 1 then some true
    else if sig.val.head? = some 2 then some false
    else none
  aggregate sigs := if sigs.isEmpty then none else some (sigs.all id)
  toBytes sig := .repeatByte 96 (if sig then 1 else 2)
  fastAggregateVerify sig _ _ := sig

theorem markedCrypto_verifyAggregate (agg : Bool) (message : B256) (addrs : List VoteAddress) :
    markedCrypto.verifyAggregate (markedCrypto.toBytes agg) message addrs = agg := by
  have hkeys : addrs.mapM markedCrypto.publicKeyFromBytes = some addrs :=
    List.mapM_pure.trans (congrArg some (List.map_id addrs))
  have hsig : markedCrypto.signatureFromBytes (markedCrypto.toBytes agg) = some agg := by
    cases agg <;> rfl
  rw [Crypto.verifyAggregate, hkeys, hsig]
  rfl

theorem markedCrypto_lawful : markedCrypto.Lawful fun _ _ sig => sig = true where
  encode_injective := flatEncode_injective
  encode_ne_nil a h := by
    have := congrArg List.length h
    simp [markedCrypto, flatEncode] at this
  aggregate_nil := rfl
  aggregate_ne_nil sigs h := ⟨_, if_neg fun hempty => h (List.isEmpty_iff.mp hempty)⟩
  verify_iff l agg message addrs hagg _ := by
    have hall : agg = (l.map Prod.snd).all id := by grind [markedCrypto]
    have hverify := markedCrypto_verifyAggregate agg message addrs
    have hvalid : agg = true ↔ ∀ vs ∈ l, vs.2 = true := by
      rw [hall]
      exact (List.all_eq_true (p := id)).trans List.forall_mem_map
    exact ⟨fun h => hvalid.mp (hverify.symm.trans h), fun h => hverify.trans (hvalid.mpr h)⟩

/-- Block `number` of the lone validator. -/
def loneHeader (number : UInt64) : Header :=
  { (default : Header) with parentHash := b256OfUInt64 (number - 1), number }

/-- The snapshot of the lone validator after block 1. -/
def voteSnapshot : Snapshot :=
  ⟨200, 1, b256OfUInt64 1, [loneValidator],
    (∅ : Map Address ValidatorInfo).insert loneValidator ⟨1, loneVoteAddress⟩,
    (∅ : Map UInt64 Address).insert 1 loneValidator, default, some 1, 3000⟩

theorem voteSnapshot_reachable : Snapshot.Reachable numberHash lubanSpec voteSnapshot := by
  have hgenesis : Snapshot.new [loneValidator] 0 (b256OfUInt64 0) defaultEpochLength
      (some [loneVoteAddress]) = .ok { voteSnapshot with
        blockNumber := 0, blockHash := b256OfUInt64 0, recentProposers := ∅ } := rfl
  exact .apply (.genesis hgenesis) (show Snapshot.apply _ _ _ loneValidator (loneHeader 1) [] none
    none none = _ from rfl)

/-- The node knows the snapshot after block 1. -/
def voteLookups : Lookups where
  snapshotByHash h := if h = b256OfUInt64 1 then some voteSnapshot else none
  headerByHash _ := none
  headerByNumber _ := none
  canonicalHeaderByHash _ := none

/-- A vote for block 2 from genesis, as the lone validator should cast it, except for the source
number and the first byte of the signature. -/
def voteForTwo (signature : UInt8) (sourceNumber : UInt64) : VoteEnvelope :=
  ⟨loneVoteAddress, .repeatByte 96 signature,
    ⟨sourceNumber, .zero, 2, b256OfUInt64 2⟩⟩

/-- The producer's outcome for block 3 with a pool of these votes. -/
def outcomeOfVotes (votes : List VoteEnvelope) : Outcome ParliaConsensusError Header :=
  (Parlia.ofSpec lubanSpec).assembleVoteAttestation markedCrypto voteLookups
    (VotePool.new.putVotes markedCrypto.envelopeHash votes) voteSnapshot (loneHeader 2)
    (loneHeader 3)

/-- The attestation that the lone validator's vote for block 2 gives verifies. -/
theorem appendsVerified_voteForTwo {pool : VotePool}
    (hbucket : (pool.fetchVoteByBlockHash (b256OfUInt64 2)).length = 1)
    (happends : (Parlia.ofSpec lubanSpec).assembleVoteAttestation markedCrypto voteLookups pool
      voteSnapshot (loneHeader 2) (loneHeader 3) = .ok { loneHeader 3 with
        extraData := flatEncode ⟨1, FixedBytes.repeatByte 96 1,
          ⟨0, FixedBytes.zero, 2, b256OfUInt64 2⟩, []⟩ }) :
    AppendsVerified markedCrypto voteLookups (Parlia.ofSpec lubanSpec) pool voteSnapshot
      (loneHeader 2) (loneHeader 3) := by
  refine ⟨loneHeader 2, voteSnapshot, ⟨1, FixedBytes.repeatByte 96 1,
    ⟨0, FixedBytes.zero, 2, b256OfUInt64 2⟩, []⟩, .here rfl ?_, rfl, happends,
    [loneVoteAddress], rfl, rfl⟩
  exact hbucket ▸ (by decide : voteSnapshot.quorum ≤ 1)

/-- Next to the valid vote of the only validator, one vote with other data makes the producer
fail, and one vote with an undecodable signature in front of it makes the producer panic. -/
theorem assembleVoteAttestation_stray_vote :
    AppendsVerified markedCrypto voteLookups (Parlia.ofSpec lubanSpec)
        (VotePool.new.putVotes markedCrypto.envelopeHash [voteForTwo 1 0]) voteSnapshot
        (loneHeader 2) (loneHeader 3) ∧
      outcomeOfVotes [voteForTwo 1 0, voteForTwo 2 5] = .err (.fetchVoteError loneVoteAddress) ∧
      outcomeOfVotes [voteForTwo 9 0, voteForTwo 1 0] = .panic :=
  ⟨appendsVerified_voteForTwo rfl rfl, rfl, rfl⟩

/-- A vote for block 1 that cannot be decoded does no harm: the bucket of block 2 stays clean. -/
theorem voteForTwo_clean :
    Clean markedCrypto (fun _ _ sig => sig = true) voteSnapshot [voteForTwo 1 0]
      ⟨0, FixedBytes.zero, 2, b256OfUInt64 2⟩ := by
  let stray : VoteEnvelope := ⟨loneVoteAddress, FixedBytes.repeatByte 96 9,
    ⟨0, FixedBytes.zero, 1, b256OfUInt64 1⟩⟩
  have hlookups : ∀ h s, voteLookups.snapshotByHash h = some s →
      Snapshot.Reachable numberHash lubanSpec s ∧ s.validators.length ≤ 64 ∧
        s.DistinctVoteAddrs := by
    intro h s hs
    obtain ⟨-, hs⟩ := Option.ite_none_right_eq_some.mp hs
    cases hs
    exact ⟨voteSnapshot_reachable, by decide, by decide +kernel⟩
  have hiff := assembleVoteAttestation_robust_iff markedCrypto _ markedCrypto_lawful voteLookups
    (Parlia.ofSpec lubanSpec) hlookups voteSnapshot (loneHeader 2) (loneHeader 3) [[stray]] []
    [voteForTwo 1 0] _ (by unfold VotePool.NoCollision; decide +kernel)
    (appendsVerified_voteForTwo rfl rfl) rfl
  exact hiff.mp (appendsVerified_voteForTwo rfl (by decide +kernel)) (loneHeader 2) voteSnapshot
    (.here rfl (by decide +kernel))

end RethBsc
