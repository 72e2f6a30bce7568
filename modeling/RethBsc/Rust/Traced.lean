import RethBsc.Rust.Outcome

/-!
# Outcomes with a trace

A computation that records what it does on the way.  The record is there also when the computation
ends in an error or a panic, which an `Outcome` alone has no room for.

* `Traced` is a monad over `Outcome`; `Traced.outcome_bind` says that forgetting the record gives
  the computation without it.
* `Traced.trace_bind`: what comes later is recorded behind what came before, if it comes at all.
-/

namespace Rust

/-- How a computation ends, and what it recorded until then. -/
structure Traced (τ ε α : Type) where
  trace : List τ
  outcome : Outcome ε α

namespace Traced

variable {τ ε α β : Type}

protected def bind (x : Traced τ ε α) (f : α → Traced τ ε β) : Traced τ ε β :=
  match x.outcome with
  | .ok a => ⟨x.trace ++ (f a).trace, (f a).outcome⟩
  | .err e => ⟨x.trace, .err e⟩
  | .panic => ⟨x.trace, .panic⟩

instance : Monad (Traced τ ε) where
  pure a := ⟨[], .ok a⟩
  bind := Traced.bind

/-- A computation that records nothing. -/
instance : MonadLift (Outcome ε) (Traced τ ε) := ⟨fun x => ⟨[], x⟩⟩

@[simp] theorem outcome_pure (a : α) : (pure a : Traced τ ε α).outcome = .ok a := rfl

@[simp] theorem trace_pure (a : α) : (pure a : Traced τ ε α).trace = [] := rfl

@[simp] theorem outcome_lift (x : Outcome ε α) : (liftM x : Traced τ ε α).outcome = x := rfl

@[simp] theorem trace_lift (x : Outcome ε α) : (liftM x : Traced τ ε α).trace = [] := rfl

@[simp] theorem outcome_bind (x : Traced τ ε α) (f : α → Traced τ ε β) :
    (x >>= f).outcome = x.outcome >>= fun a => (f a).outcome := by
  show (Traced.bind x f).outcome = _
  unfold Traced.bind
  cases x.outcome <;> rfl

@[simp] theorem outcome_ite (c : Prop) [Decidable c] (x y : Traced τ ε α) :
    (if c then x else y).outcome = if c then x.outcome else y.outcome := by
  split <;> rfl

theorem bind_of_ok {x : Traced τ ε α} {a : α} (h : x.outcome = .ok a) (f : α → Traced τ ε β) :
    x >>= f = ⟨x.trace ++ (f a).trace, (f a).outcome⟩ := by
  show Traced.bind x f = _
  rw [Traced.bind, h]

/-- After a computation that is not `Ok` nothing is recorded any more. -/
theorem trace_bind_of_ne {x : Traced τ ε α} (h : ∀ a, x.outcome ≠ .ok a) (f : α → Traced τ ε β) :
    (x >>= f).trace = x.trace := by
  show (Traced.bind x f).trace = _
  grind [Traced.bind]

theorem trace_bind (x : Traced τ ε α) (f : α → Traced τ ε β) :
    (∃ a, x.outcome = .ok a ∧ (x >>= f).trace = x.trace ++ (f a).trace) ∨
      (∀ a, x.outcome ≠ .ok a) ∧ (x >>= f).trace = x.trace := by
  by_cases h : ∃ a, x.outcome = .ok a
  · obtain ⟨a, ha⟩ := h
    exact .inl ⟨a, ha, by rw [bind_of_ok ha]⟩
  · have hne : ∀ a, x.outcome ≠ .ok a := fun a ha => h ⟨a, ha⟩
    exact .inr ⟨hne, trace_bind_of_ne hne f⟩

end Traced

end Rust
