import Mockbank.Search.Occurrence

/-!
# Removing a text

Removing all occurrences of a text from a sequence, from left to right.

Main results:

- Theorem `removeAll_append_left`: a text in front is removed.
- Theorem `removeAll_append`: symbols that cannot start the text are kept.
- Theorem `removeAll_eq_self`: without an occurrence nothing changes.
-/

namespace Search

variable {α : Type*} [DecidableEq α]

/-- Remove the occurrences of `t`; `n` symbols of the last one are still to be
skipped. -/
def removeGo (t : List α) : List α → Nat → List α
  | [], _ => []
  | _ :: s, n + 1 => removeGo t s n
  | c :: s, 0 =>
      if t <+: c :: s then removeGo t s (t.length - 1)
      else c :: removeGo t s 0

/-- Remove the occurrences of `t` from left to right. -/
def removeAll (t s : List α) : List α :=
  removeGo t s 0

/-- Skipping is dropping. -/
theorem removeGo_eq (t s : List α) (n : Nat) : removeGo t s n = removeAll t (s.drop n) := by
  induction s generalizing n with
  | nil => simp [removeAll, removeGo]
  | cons c s ih =>
      cases n with
      | zero => rfl
      | succ n => rw [removeGo, ih, List.drop_succ_cons]

theorem removeAll_nil (t : List α) : removeAll t [] = [] :=
  rfl

/-- A text in front is removed. -/
theorem removeAll_append_left {t : List α} (ht : t ≠ []) (s : List α) :
    removeAll t (t ++ s) = removeAll t s := by
  cases t with
  | nil => exact absurd rfl ht
  | cons c t =>
      have hpre : c :: t <+: c :: (t ++ s) := List.prefix_append (c :: t) s
      rw [List.cons_append, removeAll, removeGo, if_pos hpre, removeGo_eq]
      simp

/-- A symbol at which the text does not start is kept. -/
theorem removeAll_cons {t : List α} {c : α} {s : List α} (h : ¬ t <+: c :: s) :
    removeAll t (c :: s) = c :: removeAll t s := by
  rw [removeAll, removeGo, if_neg h]
  rfl

/-- Symbols that cannot start the text are kept. -/
theorem removeAll_append {t : List α} {d : α} (ht : t.head? = some d) {a : List α}
    (ha : d ∉ a) (s : List α) : removeAll t (a ++ s) = a ++ removeAll t s := by
  induction a with
  | nil => rfl
  | cons c a ih =>
      have hne : ¬ t <+: c :: (a ++ s) := by
        intro h
        cases t with
        | nil => simp at ht
        | cons x t =>
            have hx : x = d := by simpa using ht
            have hc : x = c := (List.cons_prefix_cons.mp h).1
            exact ha (by simp [← hx, hc])
      rw [List.cons_append, removeAll_cons hne, ih (fun h => ha (by simp [h]))]
      rfl

/-- Without an occurrence nothing changes. -/
theorem removeAll_eq_self {t s : List α} (h : ¬ t <:+: s) : removeAll t s = s := by
  induction s with
  | nil => rfl
  | cons c s ih =>
      rw [List.infix_cons_iff, not_or] at h
      rw [removeAll_cons h.1, ih h.2]

end Search
