import Mathlib.Control.Basic

/-!
# Outcomes of Rust calls

A Rust function that returns a `Result` ends in one of three ways: it returns `Ok`, it
returns `Err`, or it unwinds with a panic.  `Outcome ε α` keeps the three apart, so that
"never panics" is a statement about the model and not a convention of it.

* `Outcome` is a monad: `>>=` is the `?` operator, and a panic propagates past it.
* `Outcome.unwrap` is `Option::unwrap`, `Outcome.okOr` is `Option::ok_or`.
* `Outcome.Returns` says that a call did not panic; `Outcome.returns_bind` is the rule that
  takes a sequence of calls apart.
* `Outcome.Ensures` is a postcondition of the calls that return `Ok`; `Outcome.Ensures.bind` is its
  rule for sequences.
-/

namespace Rust

/-- How a call returning `Result<α, ε>` ends. -/
inductive Outcome (ε α : Type) where
  | ok (a : α)
  | err (e : ε)
  | panic
  deriving DecidableEq

namespace Outcome

variable {ε α β : Type}

/-- Sequencing with `?`: an `Err` returns early and a panic unwinds. -/
protected def bind (x : Outcome ε α) (f : α → Outcome ε β) : Outcome ε β :=
  match x with
  | .ok a => f a
  | .err e => .err e
  | .panic => .panic

instance : Monad (Outcome ε) where
  pure := .ok
  bind := Outcome.bind

@[simp] theorem pure_eq (a : α) : (pure a : Outcome ε α) = .ok a := rfl

@[simp] theorem ok_bind (a : α) (f : α → Outcome ε β) : (.ok a >>= f) = f a := rfl

@[simp] theorem err_bind (e : ε) (f : α → Outcome ε β) :
    (.err e >>= f) = .err e := rfl

@[simp] theorem panic_bind (f : α → Outcome ε β) :
    ((Outcome.panic : Outcome ε α) >>= f) = Outcome.panic := rfl

instance : LawfulMonad (Outcome ε) := LawfulMonad.mk' _
  (fun x => by cases x <;> rfl) (fun _ _ => rfl) (fun x _ _ => by cases x <;> rfl)

variable {f : α → Outcome ε β} {x : Outcome ε α} {a : α} {l : List α} {o : Option α}

/-- A sequence returns `Ok` exactly when each of its calls does. -/
theorem bind_eq_ok {b : β} :
    (x >>= f) = .ok b ↔ ∃ a, x = .ok a ∧ f a = .ok b := by
  cases x with
  | ok a => simp
  | err e => simp
  | panic => simp

/-- `Result::map_err`. -/
def mapErr {δ : Type} (f : ε → δ) : Outcome ε α → Outcome δ α
  | .ok a => .ok a
  | .err e => .err (f e)
  | .panic => .panic

/-- What is not `Ok` stays as it is. -/
theorem bind_of_ne (h : ∀ a, x ≠ .ok a) (f : α → Outcome ε α) : x >>= f = x := by
  cases x with
  | ok a => exact absurd rfl (h a)
  | err e => rfl
  | panic => rfl

/-- A check that returns an error did not fire. -/
theorem err_if_eq_ok {P : Prop} [Decidable P] {e : ε} {rest : Outcome ε α} :
    (if P then .err e else rest) = .ok a ↔ ¬ P ∧ rest = .ok a := by
  split
  · next h => simp [h]
  · next h => simp [h]

theorem mapErr_eq_ok {δ : Type} {f : ε → δ} :
    x.mapErr f = .ok a ↔ x = .ok a := by
  cases x with
  | ok b => simp [mapErr]
  | err e => simp [mapErr]
  | panic => simp [mapErr]

/-! ## Panic freedom -/

/-- The call ended in `Ok` or `Err`. -/
def Returns (x : Outcome ε α) : Prop := x ≠ .panic

@[simp] theorem returns_ok (a : α) : (.ok a : Outcome ε α).Returns := by
  simp [Returns]

@[simp] theorem returns_err (e : ε) : (.err e : Outcome ε α).Returns := by
  simp [Returns]

@[simp] theorem not_returns_panic : ¬ (Outcome.panic : Outcome ε α).Returns := by
  simp [Returns]

/-- A sequence returns when its head does and its tail does on the value the head hands on. -/
theorem returns_bind :
    (x >>= f).Returns ↔ x.Returns ∧ ∀ a, x = .ok a → (f a).Returns := by
  cases x with
  | ok a => simp
  | err e => simp
  | panic => simp

/-- A loop that collects its results returns when each of its turns does. -/
theorem returns_mapM (h : ∀ a ∈ l, (f a).Returns) :
    (l.mapM f).Returns := by
  induction l with
  | nil => simp
  | cons a l ih =>
    rw [List.mapM_cons]
    refine returns_bind.mpr ⟨h a List.mem_cons_self, fun _ _ => ?_⟩
    exact returns_bind.mpr ⟨ih fun b hb => h b (List.mem_cons_of_mem _ hb), fun _ _ => returns_ok _⟩

theorem mapM_eq_ok (h : ∀ a ∈ l, ∃ b, f a = .ok b) :
    ∃ bs, l.mapM f = .ok bs := by
  induction l with
  | nil => exact ⟨[], rfl⟩
  | cons a l ih =>
    obtain ⟨b, hb⟩ := h a List.mem_cons_self
    obtain ⟨bs, hbs⟩ := ih fun c hc => h c (List.mem_cons_of_mem _ hc)
    exact ⟨b :: bs, by rw [List.mapM_cons, hb, ok_bind, hbs, ok_bind, pure_eq]⟩

theorem mapM_eq_ok_map {g : α → β} (h : ∀ a ∈ l, f a = .ok (g a)) : l.mapM f = .ok (l.map g) := by
  induction l with
  | nil => rfl
  | cons a l ih => simp_all

/-- A loop over an accumulator returns `Ok` when each of its turns does. -/
theorem foldlM_eq_ok {f : β → α → Outcome ε β}
    (h : ∀ a ∈ l, ∀ b, ∃ b', f b a = .ok b') (b : β) : ∃ b', l.foldlM f b = .ok b' := by
  induction l generalizing b with
  | nil => exact ⟨b, rfl⟩
  | cons a l ih =>
    obtain ⟨b', hb'⟩ := h a List.mem_cons_self b
    simp_all

/-- A loop returns `Ok` when its turns do on the states that satisfy an invariant of it. -/
theorem foldlM_eq_ok_foldl {f : β → α → Outcome ε β} {g : β → α → β} {P : β → Prop}
    (h : ∀ b a, P b → f b a = .ok (g b a) ∧ P (g b a)) (l : List α) {b : β} (hb : P b) :
    l.foldlM f b = .ok (l.foldl g b) := by
  induction l generalizing b with
  | nil => rfl
  | cons a l ih => simp [*]

/-- A loop over the indices of a list that maps each element. -/
theorem mapM_range_eq_ok {f : Nat → Outcome ε β} {g : α → β}
    (h : ∀ i (hi : i < l.length), f i = .ok (g l[i])) :
    (List.range l.length).mapM f = .ok (l.map g) := by
  induction l generalizing f with
  | nil => rfl
  | cons a l ih =>
    have htail : (List.range l.length).mapM (f ∘ Nat.succ) = .ok (l.map g) :=
      ih fun i hi => h (i + 1) (Nat.succ_lt_succ hi)
    have hhead : f 0 = .ok (g a) := h 0 (Nat.zero_lt_succ _)
    rw [List.length_cons, List.range_succ_eq_map, List.mapM_cons, hhead, ok_bind, List.mapM_map,
      htail, ok_bind, pure_eq, List.map_cons]

theorem length_of_mapM_eq_ok {bs : List β} (h : l.mapM f = .ok bs) : bs.length = l.length := by
  induction l generalizing bs with
  | nil =>
    cases h
    rfl
  | cons a l ih =>
    rw [List.mapM_cons] at h
    obtain ⟨b, -, h⟩ := bind_eq_ok.mp h
    obtain ⟨bs', hbs', h⟩ := bind_eq_ok.mp h
    cases h
    rw [List.length_cons, List.length_cons, ih hbs']

/-! ## Postconditions -/

/-- Whatever the call returns with `Ok` satisfies `Q`. -/
def Ensures (x : Outcome ε α) (Q : α → Prop) : Prop := ∀ a, x = .ok a → Q a

namespace Ensures

variable {P : α → Prop} {Q : β → Prop}

theorem of_ok {a : α} (h : P a) : (.ok a : Outcome ε α).Ensures P := by
  rintro _ ⟨⟩
  exact h

theorem of_err (e : ε) : (.err e : Outcome ε α).Ensures P := nofun

theorem trivial (x : Outcome ε α) : x.Ensures fun _ => True := fun _ _ => True.intro

variable {x : Outcome ε α}

theorem bind {f : α → Outcome ε β} (hx : x.Ensures P)
    (hf : ∀ a, P a → (f a).Ensures Q) : (x >>= f).Ensures Q := by
  intro b hb
  obtain ⟨a, ha, hb⟩ := bind_eq_ok.mp hb
  exact hf a (hx a ha) b hb

/-- After a call about which nothing need be known. -/
theorem bind_any {f : α → Outcome ε β} (hf : ∀ a, (f a).Ensures Q) :
    (x >>= f).Ensures Q :=
  bind (trivial x) fun a _ => hf a

theorem ite {c : Prop} [Decidable c] {y : Outcome ε α} (hx : c → x.Ensures P)
    (hy : ¬c → y.Ensures P) : (if c then x else y).Ensures P := by
  split
  · next h => exact hx h
  · next h => exact hy h

end Ensures

/-! ## Results and options -/

/-- A `Result` of another crate. -/
def ofExcept : Except ε α → Outcome ε α
  | .ok a => .ok a
  | .error e => .err e

theorem ofExcept_eq_ok {x : Except ε α} : ofExcept x = .ok a ↔ x = .ok a := by
  cases x with
  | ok b => simp [ofExcept]
  | error e => simp [ofExcept]

/-- `Option::unwrap`. -/
def unwrap : Option α → Outcome ε α
  | some a => .ok a
  | none => .panic

/-- `Option::ok_or`, and a `match` on a `Result` whose error is replaced by `e`. -/
def okOr (e : ε) : Option α → Outcome ε α
  | some a => .ok a
  | none => .err e

@[simp] theorem unwrap_some (a : α) : (unwrap (some a) : Outcome ε α) = .ok a := rfl
@[simp] theorem unwrap_none : (unwrap none : Outcome ε α) = .panic := rfl
@[simp] theorem okOr_some (e : ε) (a : α) : okOr e (some a) = .ok a := rfl
@[simp] theorem okOr_none (e : ε) : (okOr e none : Outcome ε α) = .err e := rfl

theorem unwrap_eq_ok :
    (unwrap o : Outcome ε α) = .ok a ↔ o = some a := by
  cases o with
  | none => simp
  | some b => simp

/-- Unwrapping along a list succeeds when nothing on it is absent. -/
theorem mapM_unwrap_eq_ok {f : α → Option β} {bs : List β} :
    (l.mapM fun a => (unwrap (f a) : Outcome ε β)) = .ok bs ↔ l.map f = bs.map some := by
  induction l generalizing bs with
  | nil => cases bs <;> simp
  | cons a l ih =>
    rw [List.mapM_cons, List.map_cons]
    simp only [bind_eq_ok, unwrap_eq_ok, ih, pure_eq, ok.injEq]
    cases bs with
    | nil => simp
    | cons b bs => simp

theorem okOr_eq_ok {e : ε} : okOr e o = .ok a ↔ o = some a := by
  cases o with
  | none => simp
  | some b => simp

theorem returns_unwrap : (unwrap o : Outcome ε α).Returns ↔ ∃ a, o = some a := by
  cases o with
  | none => simp
  | some a => simp

@[simp] theorem returns_okOr (e : ε) (o : Option α) : (okOr e o).Returns := by
  cases o with
  | none => simp
  | some a => simp

end Outcome

variable {ε : Type}

/-! ## `Result` without panics -/

theorem except_bind_eq_ok {α β : Type} {x : Except ε α} {f : α → Except ε β} {b : β} :
    (x >>= f) = .ok b ↔ ∃ a, x = .ok a ∧ f a = .ok b := by
  cases x with
  | ok a => exact ⟨fun h => ⟨a, rfl, h⟩, fun ⟨_, ha, h⟩ => Except.ok.inj ha ▸ h⟩
  | error e => exact ⟨fun h => absurd h (by simp [bind, Except.bind]), fun ⟨_, ha, _⟩ => nomatch ha⟩

/-- A check whose value is not used. -/
theorem except_seq_eq_ok {β : Type} {x : Except ε Unit} {rest : Except ε β} {b : β} :
    (do x; rest) = .ok b ↔ x = .ok () ∧ rest = .ok b := by
  rw [except_bind_eq_ok]
  exact ⟨fun ⟨_, hx, h⟩ => ⟨hx, h⟩, fun ⟨hx, h⟩ => ⟨(), hx, h⟩⟩

/-- `return Err(e)` under a condition: the rest runs only if the condition does not hold. -/
theorem throw_if_eq_ok {α : Type} {P : Prop} [Decidable P] {e : ε} {rest : Except ε α} {a : α} :
    (if P then (do throw e; rest) else rest) = .ok a ↔ ¬P ∧ rest = .ok a := by
  split
  · next hP => exact ⟨fun h => (nomatch h), fun h => absurd hP h.1⟩
  · next hP => exact ⟨fun h => ⟨hP, h⟩, And.right⟩

end Rust
