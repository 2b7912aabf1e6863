import Mathlib.Tactic.Common

/-!
# Statements that may throw

A Java statement changes the state and returns or throws; what it changed before it
threw stays changed.  `EStateM` is that, and its `tryFinally` is `try`/`finally`: an
exception of the `finally` block takes the place of whatever the `try` block did.

Main results:

- Theorems `run_bind_of_ok` and `run_bind_of_error`: statements in sequence.
- Theorems `run_tryFinally_of_ok` and `run_tryFinally_of_error`: a `finally` block that
  completes, and one that throws.
- Theorems `run_tryCatch_of_ok` and `run_tryCatch_of_error`: a `catch` block.
-/

namespace Jvm

variable {ε σ α β : Type}

/-- A statement that ended in a state, by returning or by throwing. -/
def ended (ending : Except ε α) (s : σ) : EStateM.Result ε σ α :=
  match ending with
  | .ok a => .ok a s
  | .error e => .error e s

/-- The state in which a statement ended. -/
def finalState : EStateM.Result ε σ α → σ
  | .ok _ s => s
  | .error _ s => s

/-- How a statement ended. -/
def ending : EStateM.Result ε σ α → Except ε α
  | .ok a _ => .ok a
  | .error e _ => .error e

/-- The statement ended without an exception. -/
def EndedNormally : EStateM.Result ε σ α → Prop
  | .ok _ _ => True
  | .error _ _ => False

/-- The statement that returns or throws and changes nothing. -/
def complete (ending : Except ε α) : EStateM ε σ α :=
  fun s => ended ending s

@[simp]
theorem run_complete (ending : Except ε α) (s : σ) :
    (complete ending : EStateM ε σ α).run s = ended ending s :=
  rfl

@[simp]
theorem ended_ok (a : α) (s : σ) : ended (.ok a : Except ε α) s = .ok a s :=
  rfl

@[simp]
theorem ended_error (e : ε) (s : σ) : ended (.error e : Except ε α) s = .error e s :=
  rfl

/-- Ending a statement changes no state. -/
@[simp]
theorem finalState_ended (ending : Except ε α) (s : σ) : finalState (ended ending s) = s := by
  cases ending <;> rfl

/-- A statement ends as it was ended. -/
@[simp]
theorem ending_ended (how : Except ε α) (s : σ) : ending (ended how s) = how := by
  cases how <;> rfl

/-- It ends normally when it returns. -/
@[simp]
theorem endedNormally_ended (ending : Except ε α) (s : σ) :
    EndedNormally (ended ending s) ↔ ∃ a, ending = .ok a := by
  cases ending <;> simp [ended, EndedNormally]

/-! ## Sequence -/

/-- Behind a statement that returned, the next one runs. -/
theorem run_bind_of_ok {x : EStateM ε σ α} {f : α → EStateM ε σ β} {s s' : σ} {a : α}
    (h : x.run s = .ok a s') : (x >>= f).run s = (f a).run s' := by
  rw [EStateM.run_bind, h]

/-- Behind a statement that threw, nothing runs. -/
theorem run_bind_of_error {x : EStateM ε σ α} {f : α → EStateM ε σ β} {s s' : σ} {e : ε}
    (h : x.run s = .error e s') : (x >>= f).run s = .error e s' := by
  rw [EStateM.run_bind, h]

/-- Two statements that only choose an ending after a first change of state. -/
theorem run_bind_complete {x : EStateM ε σ Unit} {s s' : σ} {first last : Except ε Unit}
    (h : x.run s = ended first s') :
    (x >>= fun _ => complete last).run s = ended (first >>= fun _ => last) s' := by
  cases first with
  | ok _ => exact run_bind_of_ok h
  | error e => exact run_bind_of_error h

/-! ## Finally -/

/-- The `finally` block runs in whatever state the `try` block ended in. -/
theorem run_tryFinally {body : EStateM ε σ α} {finalizer : EStateM ε σ β} {s s₁ : σ}
    {ending : Except ε α} (hbody : body.run s = ended ending s₁) :
    (tryFinally body finalizer).run s =
      match finalizer.run s₁ with
      | .ok _ s₂ => ended ending s₂
      | .error e s₂ => .error e s₂ := by
  have hbody' : body s = ended ending s₁ := hbody
  cases ending with
  | ok a =>
      simp only [tryFinally, tryFinally', Functor.map, EStateM.map, EStateM.run, hbody', ended]
      cases finalizer s₁ <;> rfl
  | error e =>
      simp only [tryFinally, tryFinally', Functor.map, EStateM.map, EStateM.run, hbody', ended]
      cases finalizer s₁ <;> rfl

/-- A `finally` block that completes leaves the ending of the `try` block. -/
theorem run_tryFinally_of_ok {body : EStateM ε σ α} {finalizer : EStateM ε σ β}
    {s s₁ s₂ : σ} {ending : Except ε α} {b : β} (hbody : body.run s = ended ending s₁)
    (hfinalizer : finalizer.run s₁ = .ok b s₂) :
    (tryFinally body finalizer).run s = ended ending s₂ := by
  rw [run_tryFinally hbody, hfinalizer]

/-- An exception of the `finally` block takes the place of the ending. -/
theorem run_tryFinally_of_error {body : EStateM ε σ α} {finalizer : EStateM ε σ β}
    {s s₁ s₂ : σ} {ending : Except ε α} {e : ε} (hbody : body.run s = ended ending s₁)
    (hfinalizer : finalizer.run s₁ = .error e s₂) :
    (tryFinally body finalizer).run s = .error e s₂ := by
  rw [run_tryFinally hbody, hfinalizer]

/-! ## Catch -/

/-- A `try` block that completes. -/
theorem run_tryCatch_of_ok {body : EStateM ε σ α} {handler : ε → EStateM ε σ α} {s s₁ : σ}
    {a : α} (hbody : body.run s = .ok a s₁) : (tryCatch body handler).run s = .ok a s₁ := by
  have hbody' : body s = .ok a s₁ := hbody
  simp [tryCatch, tryCatchThe, MonadExceptOf.tryCatch, EStateM.tryCatch, EStateM.run, hbody']

/-- The `catch` block runs in the state in which the `try` block threw. -/
theorem run_tryCatch_of_error {body : EStateM ε σ α} {handler : ε → EStateM ε σ α} {s s₁ : σ}
    {e : ε} (hbody : body.run s = .error e s₁) :
    (tryCatch body handler).run s = (handler e).run s₁ := by
  have hbody' : body s = .error e s₁ := hbody
  simp only [tryCatch, tryCatchThe, MonadExceptOf.tryCatch, EStateM.tryCatch, EStateM.run, hbody']
  rfl

end Jvm
