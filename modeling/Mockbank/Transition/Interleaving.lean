import Mathlib.Algebra.BigOperators.Group.Finset.Piecewise
import Mathlib.Data.List.Basic
import Mathlib.Tactic.Common

/-!
# Interleavings

Several threads do what is in their traces, each in its own order, and all at once.  What
can be counted in the traces can be counted in the run.

Main results:

- Theorem `projection_prefix`: at every moment each thread has done a part of its trace.
- Theorem `countP_eq_sum`: an event of the run is an event of one of its threads.
- Theorem `Interleaves.countP_eq_sum`: so it is counted over the traces.
-/

namespace Transition

variable {ι α : Type*} [DecidableEq ι]

/-- What one thread does in a run. -/
def projection (events : List (ι × α)) (i : ι) : List α :=
  (events.filter fun e => e.1 = i).map Prod.snd

/-- A run of some threads, each of which does what is in its trace. -/
structure Interleaves (threads : Finset ι) (trace : ι → List α) (events : List (ι × α)) :
    Prop where
  mem : ∀ e ∈ events, e.1 ∈ threads
  projection : ∀ i ∈ threads, projection events i = trace i

theorem projection_cons (e : ι × α) (events : List (ι × α)) (i : ι) :
    projection (e :: events) i =
      if e.1 = i then e.2 :: projection events i else projection events i := by
  unfold projection
  by_cases h : e.1 = i
  · rw [List.filter_cons_of_pos (by simpa using h), if_pos h, List.map_cons]
  · rw [List.filter_cons_of_neg (by simpa using h), if_neg h]

theorem projection_append (before after : List (ι × α)) (i : ι) :
    projection (before ++ after) i = projection before i ++ projection after i := by
  rw [projection, List.filter_append, List.map_append]
  rfl

/-- At every moment of a run each thread has done a part of what it does. -/
theorem projection_prefix {before events : List (ι × α)} (h : before <+: events) (i : ι) :
    projection before i <+: projection events i := by
  obtain ⟨after, rfl⟩ := h
  rw [projection_append]
  exact List.prefix_append _ _

/-- An event of a run is an event of one of its threads. -/
theorem countP_eq_sum {threads : Finset ι} {events : List (ι × α)}
    (hmem : ∀ e ∈ events, e.1 ∈ threads) (p : α → Bool) :
    events.countP (fun e => p e.2) = ∑ i ∈ threads, (projection events i).countP p := by
  induction events with
  | nil => simp [projection]
  | cons e events ih =>
      have hhead : e.1 ∈ threads := hmem e List.mem_cons_self
      have hrest := ih fun f hf => hmem f (List.mem_cons_of_mem e hf)
      have hcons : ∀ i, (projection (e :: events) i).countP p =
          (projection events i).countP p + if e.1 = i then if p e.2 then 1 else 0 else 0 := by
        intro i
        rw [projection_cons]
        by_cases h : e.1 = i
        · rw [if_pos h, if_pos h, List.countP_cons]
        · rw [if_neg h, if_neg h]
          rfl
      rw [List.countP_cons, hrest, Finset.sum_congr rfl fun i _ => hcons i,
        Finset.sum_add_distrib, Finset.sum_ite_eq, if_pos hhead]

/-- Over a complete run the events are those of the traces. -/
theorem Interleaves.countP_eq_sum {threads : Finset ι} {trace : ι → List α}
    {events : List (ι × α)} (h : Interleaves threads trace events) (p : α → Bool) :
    events.countP (fun e => p e.2) = ∑ i ∈ threads, (trace i).countP p := by
  rw [Transition.countP_eq_sum h.mem]
  exact Finset.sum_congr rfl fun i hi => by rw [h.projection i hi]

end Transition
