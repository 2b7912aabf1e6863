import Mathlib.Data.List.Basic
import Mathlib.Tactic.Common

/-!
# Runs of a state machine

A state machine given by its step function, the runs over a list of events, and runs
whose steps all meet a condition on the state they are taken in.

Main results:

- Theorem `meets_iff`: meeting a condition step by step, by splitting the run.
- Theorem `Meets.invariant`: what every step preserves that meets the condition holds
  at the end of the run.
- Theorem `invariant_of_not_meets`: what a step establishes that misses the condition
  and no step destroys holds at the end of a run that misses it somewhere.
- Theorem `simulation`: what relates two machines step by step relates their runs.
- Theorem `countSteps_le_measure`: a run has no more steps of a kind than its first state
  measures, when each of them makes the measure fall.
-/

namespace Transition

variable {σ ε : Type*} (step : σ → ε → σ)

/-- The state after a list of events. -/
def run (s : σ) (es : List ε) : σ :=
  es.foldl step s

/-- Every step of the run meets the condition in the state it is taken in. -/
def Meets (ok : σ → ε → Prop) : σ → List ε → Prop
  | _, [] => True
  | s, e :: es => ok s e ∧ Meets ok (step s e) es

@[simp]
theorem run_nil (s : σ) : run step s [] = s :=
  rfl

@[simp]
theorem run_cons (s : σ) (e : ε) (es : List ε) : run step s (e :: es) = run step (step s e) es :=
  rfl

theorem run_append (s : σ) (es fs : List ε) :
    run step s (es ++ fs) = run step (run step s es) fs :=
  List.foldl_append

variable {step}

/-- Meeting a condition step by step, by splitting the run. -/
theorem meets_iff {ok : σ → ε → Prop} {s : σ} {es : List ε} :
    Meets step ok s es ↔ ∀ pre e post, es = pre ++ e :: post → ok (run step s pre) e := by
  induction es generalizing s with
  | nil => simp [Meets]
  | cons e es ih =>
      rw [Meets, ih]
      constructor
      · rintro ⟨hok, hrest⟩ pre f post heq
        cases pre with
        | nil =>
            rw [List.nil_append] at heq
            rw [← (List.cons.inj heq).1]
            exact hok
        | cons d pre =>
            rw [List.cons_append] at heq
            rw [← (List.cons.inj heq).1]
            exact hrest pre f post (List.cons.inj heq).2
      · intro h
        refine ⟨h [] e es rfl, ?_⟩
        intro pre f post heq
        exact h (e :: pre) f post (by rw [heq, List.cons_append])

/-- The start of a run meets what the run meets. -/
theorem Meets.left {ok : σ → ε → Prop} {s : σ} {es fs : List ε}
    (h : Meets step ok s (es ++ fs)) : Meets step ok s es := by
  rw [meets_iff] at h ⊢
  intro pre e post heq
  exact h pre e (post ++ fs) (by rw [heq, List.append_assoc, List.cons_append])

/-- What every step preserves that meets the condition holds at the end of the run. -/
theorem Meets.invariant {ok : σ → ε → Prop} {Inv : σ → Prop} {s : σ} {es : List ε}
    (h : Meets step ok s es) (hstep : ∀ s e, Inv s → ok s e → Inv (step s e)) (hs : Inv s) :
    Inv (run step s es) := by
  induction es generalizing s with
  | nil => exact hs
  | cons e es ih =>
      rw [run_cons]
      exact ih h.2 (hstep s e hs h.1)

/-- What every step preserves holds at the end of a run. -/
theorem invariant {Inv : σ → Prop} {s : σ} (es : List ε)
    (hstep : ∀ s e, Inv s → Inv (step s e)) (hs : Inv s) : Inv (run step s es) := by
  induction es generalizing s with
  | nil => exact hs
  | cons e es ih =>
      rw [run_cons]
      exact ih (hstep s e hs)

/-- What a step establishes that misses the condition and no step destroys holds at the
end of a run that misses it somewhere. -/
theorem invariant_of_not_meets {ok : σ → ε → Prop} {Bad : σ → Prop} {s : σ} {es : List ε}
    (h : ¬ Meets step ok s es) (hmiss : ∀ s e, ¬ ok s e → Bad (step s e))
    (hbad : ∀ s e, Bad s → Bad (step s e)) : Bad (run step s es) := by
  induction es generalizing s with
  | nil => exact absurd trivial h
  | cons e es ih =>
      rw [run_cons]
      by_cases hok : ok s e
      · exact ih fun hrest => h ⟨hok, hrest⟩
      · exact invariant es hbad (hmiss s e hok)

/-! ## Two machines -/

/-- What relates two machines step by step relates their runs. -/
theorem simulation {τ : Type*} {spec : τ → ε → τ} {R : σ → τ → Prop}
    (hstep : ∀ s t e, R s t → R (step s e) (spec t e)) {s : σ} {t : τ} (es : List ε)
    (h : R s t) : R (run step s es) (run spec t es) := by
  induction es generalizing s t with
  | nil => exact h
  | cons e es ih =>
      rw [run_cons, run_cons]
      exact ih (hstep s t e h)

/-! ## Runs that come to an end -/

/-- The number of steps of a run that count in the state they are taken in. -/
def countSteps (step : σ → ε → σ) (counts : σ → ε → Bool) : σ → List ε → Nat
  | _, [] => 0
  | s, e :: es => (if counts s e then 1 else 0) + countSteps step counts (step s e) es

/-- What the steps that count have used up and what is left is no more than there was. -/
theorem countSteps_add_measure_le {counts : σ → ε → Bool} {measure : σ → Nat}
    (hfalls : ∀ s e, counts s e = true → measure (step s e) < measure s)
    (hkeeps : ∀ s e, counts s e = false → measure (step s e) ≤ measure s) (s : σ) (es : List ε) :
    countSteps step counts s es + measure (run step s es) ≤ measure s := by
  induction es generalizing s with
  | nil =>
      rw [countSteps, run_nil]
      omega
  | cons e es ih =>
      have hrest := ih (step s e)
      rw [countSteps, run_cons]
      cases hcounts : counts s e with
      | true =>
          have hfall := hfalls s e hcounts
          rw [if_pos rfl]
          omega
      | false =>
          have hkeep := hkeeps s e hcounts
          rw [if_neg Bool.false_ne_true]
          omega

/-- A run has no more steps that count than its first state measures. -/
theorem countSteps_le_measure {counts : σ → ε → Bool} {measure : σ → Nat}
    (hfalls : ∀ s e, counts s e = true → measure (step s e) < measure s)
    (hkeeps : ∀ s e, counts s e = false → measure (step s e) ≤ measure s) (s : σ) (es : List ε) :
    countSteps step counts s es ≤ measure s := by
  have hle := countSteps_add_measure_le hfalls hkeeps s es
  omega

end Transition
