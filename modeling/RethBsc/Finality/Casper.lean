import Mathlib.Data.Finset.Card
import Mathlib.Data.Set.Function

/-!
# Accountable safety of link-based finality

Blocks are justified by links, each signed by two thirds of the validators, and a justified block
with a link to a block one higher is finalized.  If two finalized blocks are on different branches,
a third of the validators broke a rule: they signed two votes for one height, or a vote that
surrounds another one.

The blocks, the votes and the order of blocks are arbitrary.

* `third_le_card_inter`: two quorums share a third of the validators.
* `exists_crossing`: links that lead from below a block to its height or above, all off its branch,
  cross it somewhere.
* `accountable`: two finalized blocks that are not comparable make a third of the validators
  slashable.
-/

namespace Finality

/-! ## Quorums -/

section Quorum

variable {V : Type*} [DecidableEq V]

/-- Two sets of at least two thirds have at least a third in common. -/
theorem third_le_card_inter {validators A B : Finset V} (hA : A ⊆ validators) (hB : B ⊆ validators)
    (hA' : (2 * validators.card + 2) / 3 ≤ A.card) (hB' : (2 * validators.card + 2) / 3 ≤ B.card) :
    (validators.card + 2) / 3 ≤ (A ∩ B).card := by
  have hunion : (A ∪ B).card ≤ validators.card := Finset.card_le_card (Finset.union_subset hA hB)
  have hsum := Finset.card_union_add_card_inter A B
  omega

end Quorum

/-! ## Votes -/

section Votes

variable {V δ : Type*} (validators : Finset V) (signed : V → δ → Prop) (source target : δ → ℕ)

/-- Two votes that nobody may sign both of: two votes for one height, or one around the other. -/
def Conflict (d d' : δ) : Prop :=
  (d ≠ d' ∧ target d = target d') ∨ (source d < source d' ∧ target d' < target d)

/-- The validator signed two votes that are in conflict. -/
def Slashable (v : V) : Prop := ∃ d d', signed v d ∧ signed v d' ∧ Conflict source target d d'

/-- Two thirds of the validators signed the vote. -/
def Supermajority (d : δ) : Prop :=
  ∃ Q ⊆ validators, (2 * validators.card + 2) / 3 ≤ Q.card ∧ ∀ v ∈ Q, signed v d

/-- A third of the validators is slashable. -/
def ThirdSlashable : Prop :=
  ∃ Q ⊆ validators, (validators.card + 2) / 3 ≤ Q.card ∧
    ∀ v ∈ Q, Slashable signed source target v

variable {validators signed source target} {d d' : δ}

theorem Supermajority.thirdSlashable [DecidableEq V] (h : Supermajority validators signed d)
    (h' : Supermajority validators signed d') (hconflict : Conflict source target d d') :
    ThirdSlashable validators signed source target := by
  obtain ⟨A, hA, hAcard, hAsigned⟩ := h
  obtain ⟨B, hB, hBcard, hBsigned⟩ := h'
  refine ⟨A ∩ B, Finset.inter_subset_left.trans hA, third_le_card_inter hA hB hAcard hBcard, ?_⟩
  intro v hv
  obtain ⟨hvA, hvB⟩ := Finset.mem_inter.mp hv
  exact ⟨d, d', hAsigned v hvA, hBsigned v hvB, hconflict⟩

end Votes

/-! ## Justified and finalized blocks -/

section Blocks

variable {β : Type*} (link le : β → β → Prop) (height : β → ℕ) (root : β) (on : β → Prop)

/-- Links lead from the root to the block, all along one branch. -/
inductive Justified : β → Prop
  | root (hroot : on root) : Justified root
  | link {s t : β} (hs : Justified s) (hlink : link s t) (ht : on t) : Justified t

/-- A justified block with a link to a later block one higher. -/
structure Finalized (f c : β) : Prop where
  justified : Justified link root on f
  link : link f c
  mem : on c
  le : le f c
  height : height c = height f + 1

/-- A branch has all blocks before its blocks, and any two of its blocks are comparable. -/
structure Branch : Prop where
  below : ∀ a b, on b → le a b → on a
  total : ∀ a b, on a → on b → le a b ∨ le b a

variable {link le height root on} {on' : β → Prop} {f c t : β}

theorem Justified.mem (h : Justified link root on t) : on t := by
  cases h with
  | root hroot => exact hroot
  | link _ _ ht => exact ht

theorem Justified.mono (h : Justified link root on t) (hsub : ∀ b, on b → on' b) :
    Justified link root on' t := by
  induction h with
  | root hroot => exact .root (hsub _ hroot)
  | link _ hlink ht ih => exact .link ih hlink (hsub _ ht)

theorem Finalized.mono (h : Finalized link le height root on f c) (hsub : ∀ b, on b → on' b) :
    Finalized link le height root on' f c :=
  ⟨h.justified.mono hsub, h.link, hsub _ h.mem, h.le, h.height⟩

/-- Above the root a block is justified by a link. -/
theorem Justified.exists_link (h : Justified link root on t) (hroot : height root < height t) :
    ∃ s, link s t := by
  cases h with
  | root _ => exact absurd hroot (Nat.lt_irrefl _)
  | link _ hlink _ => exact ⟨_, hlink⟩

/-- Among links from below height `n` to `n` or above, one ends at `n`, ends at `n + 1`, or jumps
over both. -/
theorem Justified.exists_crossing {n : ℕ} (h : Justified link root on t) (hroot : height root < n)
    (ht : n ≤ height t) :
    ∃ s t, link s t ∧ on t ∧
      (height t = n ∨ height t = n + 1 ∨ (height s < n ∧ n + 1 < height t)) := by
  induction h with
  | root _ => omega
  | @link s t hs hlink hon ih =>
    by_cases hs' : n ≤ height s
    · exact ih hs'
    · exact ⟨s, t, hlink, hon, by omega⟩

end Blocks

/-! ## Accountable safety -/

section Accountable

variable {V δ β ι : Type*} [DecidableEq V] {validators : Finset V} {signed : V → δ → Prop}
  {source target : δ → ℕ} {block : δ → ι} {height : β → ℕ} {name : β → ι} {le : β → β → Prop}
  {root : β} {on₁ on₂ : β → Prop} {f₁ c₁ f₂ c₂ : β}

variable (validators signed source target block height name) in
/-- A vote from `s` to `t` that two thirds signed. -/
structure Link (d : δ) (s t : β) : Prop where
  supermajority : Supermajority validators signed d
  source : source d = height s
  target : target d = height t
  block : block d = name t

/-- The lower of two finalized blocks is crossed by the links of the other branch. -/
theorem accountable_of_le {known : Set β} (hname : Set.InjOn name known)
    (hknown₁ : ∀ b, on₁ b → b ∈ known) (hknown₂ : ∀ b, on₂ b → b ∈ known) (hbranch : Branch le on₂)
    (h₁ : Finalized (fun s t => ∃ d, Link validators signed source target block height name d s t)
      le height root on₁ f₁ c₁)
    (h₂ : Finalized (fun s t => ∃ d, Link validators signed source target block height name d s t)
      le height root on₂ f₂ c₂) (hroot : height root < height f₁) (hle : height f₁ ≤ height f₂)
    (hnot₁ : ¬ le f₁ f₂) (hnot₂ : ¬ le f₂ f₁) :
    ThirdSlashable validators signed source target := by
  -- neither the finalized block nor its child is on the other branch
  have hf₁ : ¬ on₂ f₁ := fun hon => (hbranch.total f₁ f₂ hon h₂.justified.mem).elim hnot₁ hnot₂
  have hc₁ : ¬ on₂ c₁ := fun hon => hf₁ (hbranch.below _ _ hon h₁.le)
  obtain ⟨s₁, d₁, hd₁⟩ := h₁.justified.exists_link hroot
  obtain ⟨e₁, he₁⟩ := h₁.link
  obtain ⟨s, t, ⟨d, hd⟩, hon, hcross⟩ := h₂.justified.exists_crossing hroot hle
  -- votes for different blocks are different
  have hne : ∀ b d', on₁ b → ¬ on₂ b → block d' = name b → d ≠ d' := by
    intro b d' hb hoff hblock heq
    have htb : t = b := hname (hknown₂ t hon) (hknown₁ b hb)
      (hd.block.symm.trans ((congrArg block heq).trans hblock))
    exact hoff (htb ▸ hon)
  rcases hcross with hsame | hsame | ⟨hbelow, habove⟩
  · refine hd.supermajority.thirdSlashable hd₁.supermajority (.inl ⟨?_, ?_⟩)
    · exact hne f₁ d₁ h₁.justified.mem hf₁ hd₁.block
    · rw [hd.target, hd₁.target, hsame]
  · refine hd.supermajority.thirdSlashable he₁.supermajority (.inl ⟨?_, ?_⟩)
    · exact hne c₁ e₁ h₁.mem hc₁ he₁.block
    · rw [hd.target, he₁.target, hsame, h₁.height]
  -- the link of the other branch jumps over the finalizing one
  · refine hd.supermajority.thirdSlashable he₁.supermajority (.inr ⟨?_, ?_⟩)
    · rwa [hd.source, he₁.source]
    · rwa [hd.target, he₁.target, h₁.height]

/-- **Accountable safety.** Two finalized blocks above the root of which neither comes before the
other make a third of the validators slashable. -/
theorem accountable {known : Set β} (hname : Set.InjOn name known)
    (hknown₁ : ∀ b, on₁ b → b ∈ known) (hknown₂ : ∀ b, on₂ b → b ∈ known) (hbranch₁ : Branch le on₁)
    (hbranch₂ : Branch le on₂)
    (h₁ : Finalized (fun s t => ∃ d, Link validators signed source target block height name d s t)
      le height root on₁ f₁ c₁)
    (h₂ : Finalized (fun s t => ∃ d, Link validators signed source target block height name d s t)
      le height root on₂ f₂ c₂) (hroot₁ : height root < height f₁)
    (hroot₂ : height root < height f₂) (hnot₁ : ¬ le f₁ f₂) (hnot₂ : ¬ le f₂ f₁) :
    ThirdSlashable validators signed source target := by
  rcases Nat.le_total (height f₁) (height f₂) with hle | hle
  · exact accountable_of_le hname hknown₁ hknown₂ hbranch₂ h₁ h₂ hroot₁ hle hnot₁ hnot₂
  · exact accountable_of_le hname hknown₂ hknown₁ hbranch₁ h₂ h₁ hroot₂ hle hnot₂ hnot₁

end Accountable

end Finality
