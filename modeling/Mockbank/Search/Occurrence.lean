import Mathlib.Data.List.Infix
import Mathlib.Data.Nat.Find
import Mathlib.Order.Bounds.Basic
import Mathlib.Tactic.Common

/-!
# Occurrences of a fixed text

Positions at which a text occurs in a sequence, slices between two positions, and
the way occurrences behave under concatenation.

Main results:

- Theorem `infix_append_iff`: no occurrence crosses a seam whose right side starts
  with a symbol foreign to the tail of the text.
- Theorem `exists_last_split`: an occurring text has a last occurrence.
- Theorem `OccursAt.at_end_of_marks`: where a text can stand, by what a filter leaves.
-/

namespace Search

variable {α : Type*}

/-- The text `t` stands in `s` at position `i`. -/
def OccursAt (t s : List α) (i : Nat) : Prop :=
  t <+: s.drop i

instance [DecidableEq α] (t s : List α) (i : Nat) : Decidable (OccursAt t s i) :=
  inferInstanceAs (Decidable (t <+: s.drop i))

/-- The part of `s` from position `a` up to position `b`. -/
def slice (s : List α) (a b : Nat) : List α :=
  (s.take b).drop a

/-- An occurrence of a nonempty text ends within the sequence. -/
theorem OccursAt.end_le {t s : List α} {i : Nat} (h : OccursAt t s i) (ht : t ≠ []) :
    i + t.length ≤ s.length := by
  have hlen := h.length_le
  have hpos : 0 < t.length := List.length_pos_iff.mpr ht
  rw [List.length_drop] at hlen
  omega

/-- A text cut out of a concatenation occurs where the part in front of it ends. -/
theorem occursAt_append (a t b : List α) : OccursAt t (a ++ (t ++ b)) a.length := by
  rw [OccursAt, List.drop_left]
  exact List.prefix_append t b

theorem occursAt_of_eq {a t b c : List α} {i : Nat} (hc : c = a ++ (t ++ b))
    (hi : i = a.length) : OccursAt t c i := by
  rw [hc, hi]
  exact occursAt_append a t b

/-- An occurrence splits the sequence. -/
theorem OccursAt.split {t s : List α} {i : Nat} (h : OccursAt t s i) (ht : t ≠ []) :
    s = s.take i ++ (t ++ s.drop (i + t.length)) := by
  have hle := h.end_le ht
  rcases h with ⟨b, hb⟩
  have hdrop : s.drop (i + t.length) = b := by
    rw [← List.drop_drop, ← hb, List.drop_left]
  rw [hdrop, hb, List.take_append_drop]

/-- The slice between two parts of a concatenation is what stands between them. -/
theorem slice_append (a m b : List α) :
    slice (a ++ (m ++ b)) a.length (a.length + m.length) = m := by
  rw [slice, ← List.append_assoc, ← List.length_append, List.take_left, List.drop_left]

theorem slice_of_eq {a m b c : List α} {i j : Nat} (hc : c = a ++ (m ++ b))
    (hi : i = a.length) (hj : j = a.length + m.length) : slice c i j = m := by
  rw [hc, hi, hj, slice_append]

/-- An occurrence between two positions is an occurrence in the slice between them. -/
theorem OccursAt.infix_slice {t s : List α} {a b i : Nat} (h : OccursAt t s i) (ha : a ≤ i)
    (hb : i + t.length ≤ b) : t <:+: slice s a b := by
  rcases h with ⟨d, hd⟩
  have hslice : (slice s a b).drop (i - a) = t ++ d.take (b - i - t.length) := by
    rw [slice, List.drop_drop, show a + (i - a) = i by omega, List.drop_take, ← hd,
      List.take_append, List.take_of_length_le (by omega)]
  refine List.IsInfix.trans ?_ (List.drop_suffix (i - a) (slice s a b)).isInfix
  rw [hslice]
  exact (List.prefix_append t _).isInfix

/-- Two occurrences of a text do not overlap when its first symbol does not come
back in it. -/
theorem OccursAt.add_le_of_lt {t s : List α} {c : α} {i j : Nat} (ht : t.head? = some c)
    (hc : c ∉ t.tail) (hi : OccursAt t s i) (hj : OccursAt t s j) (hij : i < j) :
    i + t.length ≤ j := by
  by_contra hlt
  obtain ⟨k, rfl⟩ : ∃ k, j = i + (k + 1) := ⟨j - i - 1, by omega⟩
  rcases hi with ⟨d, hd⟩
  rcases hj with ⟨e, he⟩
  cases t with
  | nil => simp at ht
  | cons x t =>
      have hx : x = c := by simpa using ht
      have hk : k < t.length := by simp at hlt; omega
      -- the first symbol of the second occurrence is one of the tail of the first
      have hdrop : s.drop (i + (k + 1)) = t.drop k ++ d := by
        rw [← List.drop_drop, ← hd, List.cons_append, List.drop_succ_cons,
          List.drop_append_of_le_length hk.le]
      rw [List.drop_eq_getElem_cons hk, ← he, List.cons_append, List.cons_append] at hdrop
      have hy : x = t[k] := (List.cons.inj hdrop).1
      exact hc (by rw [← hx, hy]; exact List.getElem_mem hk)

/-! ## Seams -/

/-- The first symbol of `b`, if there is one, does not occur in the tail of `t`. -/
def Barrier (t b : List α) : Prop :=
  ∀ c ∈ b.head?, c ∉ t.tail

theorem barrier_nil (t : List α) : Barrier t [] := by
  simp [Barrier]

theorem barrier_cons {t : List α} {c : α} (b : List α) (h : c ∉ t.tail) :
    Barrier t (c :: b) := by
  simp [Barrier, h]

/-- A barrier is one whatever follows it. -/
theorem Barrier.append {t b : List α} (h : Barrier t b) (hb : b ≠ []) (d : List α) :
    Barrier t (b ++ d) := by
  cases b with
  | nil => exact absurd rfl hb
  | cons c b =>
      intro x hx
      exact h x (by simpa using hx)

/-- No occurrence of the text crosses a seam with a barrier behind it. -/
theorem infix_append_iff {t a b : List α} (hb : Barrier t b) :
    t <:+: a ++ b ↔ t <:+: a ∨ t <:+: b := by
  constructor
  · rintro ⟨x, y, hxy⟩
    rw [List.append_assoc] at hxy
    rcases List.append_eq_append_iff.mp hxy with ⟨a', ha, hrest⟩ | ⟨c', hx, hrest⟩
    · rcases List.append_eq_append_iff.mp hrest with ⟨d, ha', hy⟩ | ⟨d, ht, hbd⟩
      · left
        exact ⟨x, d, by rw [ha, ha', List.append_assoc]⟩
      · cases d with
        | nil =>
            left
            rw [List.append_nil] at ht
            exact ⟨x, [], by rw [ha, ht, List.append_nil]⟩
        | cons c d =>
            cases a' with
            | nil =>
                right
                rw [List.nil_append] at ht
                exact ⟨[], y, by rw [hbd, ht, List.nil_append]⟩
            | cons z a' =>
                -- the seam falls inside the text, so `c` lies in its tail
                have hmem : c ∈ t.tail := by rw [ht]; simp
                exact absurd hmem (hb c (by rw [hbd]; simp))
    · right
      exact ⟨c', y, by rw [hrest, List.append_assoc]⟩
  · rintro (h | h)
    · exact h.trans (List.infix_append' [] a b)
    · exact h.trans (List.suffix_append a b).isInfix

/-- A text with a first symbol that a sequence lacks does not occur in it. -/
theorem not_infix_of_head_not_mem {t s : List α} {c : α} (ht : t.head? = some c)
    (hc : c ∉ s) : ¬ t <:+: s := by
  intro h
  have hmem : c ∈ t := by
    cases t with
    | nil => simp at ht
    | cons d t =>
        simp only [List.head?_cons, Option.some.injEq] at ht
        simp [ht]
  exact hc (h.subset hmem)

/-- The text neither occurs in `s` nor can start in front of it and end in it. -/
structure Clear (t s : List α) : Prop where
  not_infix : ¬ t <:+: s
  barrier : Barrier t s

instance [DecidableEq α] (t s : List α) : Decidable (Clear t s) :=
  decidable_of_iff (¬ t <:+: s ∧ ∀ c ∈ s.head?, c ∉ t.tail)
    ⟨fun h => ⟨h.1, h.2⟩, fun h => ⟨h.not_infix, h.barrier⟩⟩

theorem clear_nil {t : List α} (ht : t ≠ []) : Clear t [] where
  not_infix h := ht (List.infix_nil.mp h)
  barrier := barrier_nil t

/-- Clear parts are clear together. -/
theorem Clear.append {t a b : List α} (ha : Clear t a) (hb : Clear t b) : Clear t (a ++ b) where
  not_infix h := ((infix_append_iff hb.barrier).mp h).elim ha.not_infix hb.not_infix
  barrier := by
    cases a with
    | nil => exact hb.barrier
    | cons c a => exact ha.barrier.append (List.cons_ne_nil c a) b

theorem clear_flatten {t : List α} (ht : t ≠ []) {parts : List (List α)}
    (h : ∀ a ∈ parts, Clear t a) : Clear t parts.flatten := by
  induction parts with
  | nil => exact clear_nil ht
  | cons a parts ih =>
      rw [List.flatten_cons]
      exact (h a (by simp)).append (ih fun b hb => h b (by simp [hb]))

theorem clear_flatMap {β : Type*} {t : List α} (ht : t ≠ []) {f : β → List α} {xs : List β}
    (h : ∀ x ∈ xs, Clear t (f x)) : Clear t (xs.flatMap f) := by
  rw [List.flatMap_def]
  exact clear_flatten ht (List.forall_mem_map.mpr h)

/-- A part whose first symbol only is the first symbol of the text is clear unless it
starts with the text. -/
theorem clear_cons {t : List α} {c : α} (ht : t.head? = some c) (hc : c ∉ t.tail)
    {s : List α} (hs : c ∉ s) (hpre : ¬ t <+: c :: s) : Clear t (c :: s) where
  not_infix h := (List.infix_cons_iff.mp h).elim hpre (not_infix_of_head_not_mem ht hs)
  barrier := barrier_cons s hc

/-- A single other symbol outside the tail of the text is clear. -/
theorem clear_singleton {t : List α} {c d : α} (ht : t.head? = some c) (hd : d ≠ c)
    (htail : d ∉ t.tail) : Clear t [d] where
  not_infix := not_infix_of_head_not_mem ht (by simpa using hd.symm)
  barrier := barrier_cons [] htail

/-- A symbol that the text does not start with can be taken off in front. -/
theorem infix_cons_iff_of_ne {t s : List α} {c d : α} (ht : t.head? = some c) (hd : d ≠ c) :
    t <:+: d :: s ↔ t <:+: s := by
  rw [List.infix_cons_iff]
  constructor
  · rintro (⟨b, hb⟩ | h)
    · cases t with
      | nil => simp at ht
      | cons x t =>
          have hx : x = c := by simpa using ht
          exact absurd ((List.cons.inj hb).1.symm.trans hx) hd
    · exact h
  · exact Or.inr

/-- The start of a concatenation ends within its first part or takes all of it. -/
theorem prefix_append_cases {q a b : List α} (h : q <+: a ++ b) :
    (q <+: a ∧ q ≠ a) ∨ ∃ q', q = a ++ q' ∧ q' <+: b := by
  rcases h with ⟨d, hd⟩
  rcases List.append_eq_append_iff.mp hd with ⟨a', ha, _⟩ | ⟨q', hq, hb⟩
  · by_cases hqa : q = a
    · exact Or.inr ⟨[], by rw [hqa, List.append_nil], List.nil_prefix⟩
    · exact Or.inl ⟨⟨a', ha.symm⟩, hqa⟩
  · exact Or.inr ⟨q', hq, d, hb.symm⟩

/-- A text that starts in front of a symbol foreign to it ends in front of it. -/
theorem prefix_of_prefix_append_cons {t a b : List α} {c : α} (hc : c ∉ t)
    (h : t <+: a ++ c :: b) : t <+: a := by
  rcases h with ⟨d, hd⟩
  rcases List.append_eq_append_iff.mp hd with ⟨a', ha, _⟩ | ⟨t', ht, hrest⟩
  · exact ⟨a', ha.symm⟩
  · cases t' with
    | nil => exact ⟨[], by rw [List.append_nil, ht, List.append_nil]⟩
    | cons x t' =>
        have hx : c = x := (List.cons.inj hrest).1
        exact absurd (by rw [ht, hx]; simp) hc

/-! ## Last occurrences -/

theorem exists_occursAt {t s : List α} (h : t <:+: s) : ∃ i, OccursAt t s i := by
  rcases h with ⟨a, b, rfl⟩
  exact ⟨a.length, by rw [List.append_assoc]; exact occursAt_append a t b⟩

theorem infix_of_occursAt {t s : List α} {i : Nat} (h : OccursAt t s i) : t <:+: s :=
  h.isInfix.trans (List.drop_suffix i s).isInfix

/-- An occurrence behind position `i` is an occurrence in the rest from `i` on. -/
theorem occursAt_drop {t s : List α} (i j : Nat) :
    OccursAt t (s.drop i) j ↔ OccursAt t s (i + j) := by
  rw [OccursAt, OccursAt, List.drop_drop]

/-- A set of positions below a bound has a greatest member once it has any. -/
theorem exists_isGreatest {P : Nat → Prop} (bound : Nat) (hbound : ∀ i, P i → i ≤ bound)
    (hex : ∃ i, P i) : ∃ i, IsGreatest {i | P i} i := by
  classical
  rcases hex with ⟨i, hi⟩
  refine ⟨Nat.findGreatest P bound, ?_, ?_⟩
  · exact Nat.findGreatest_spec (hbound i hi) hi
  · intro j hj
    exact Nat.le_findGreatest (hbound j hj) hj

/-- An occurring text has a last occurrence: behind it the text does not start again. -/
theorem exists_last_split {t s : List α} (ht : t ≠ []) (h : t <:+: s) :
    ∃ a b, s = a ++ (t ++ b) ∧ ¬ t <:+: b := by
  obtain ⟨i, hi, hlast⟩ := exists_isGreatest s.length
    (fun j hj => by have := OccursAt.end_le (t := t) hj ht; omega) (exists_occursAt h)
  refine ⟨s.take i, s.drop (i + t.length), OccursAt.split hi ht, ?_⟩
  intro hagain
  rcases exists_occursAt hagain with ⟨j, hj⟩
  have hle : i + t.length + j ≤ i := hlast ((occursAt_drop _ _).mp hj)
  have hpos : 0 < t.length := List.length_pos_iff.mpr ht
  omega

/-! ## Occurrences seen through a filter -/

/-- What a filter leaves of a text stands in what it leaves of the sequence. -/
theorem OccursAt.filter {t s : List α} {i : Nat} (h : OccursAt t s i) (p : α → Bool) :
    OccursAt (t.filter p) (s.filter p) ((s.take i).filter p).length := by
  have hs : s.filter p = (s.take i).filter p ++ (s.drop i).filter p := by
    rw [← List.filter_append, List.take_append_drop]
  rw [OccursAt, hs, List.drop_left]
  exact List.IsPrefix.filter p h

/-- Twice in a row, `m` stands at its own two places only. -/
def Primitive (m : List α) : Prop :=
  ∀ i, OccursAt m (m ++ m) i → i = 0 ∨ i = m.length

/-- A sequence whose marks are those of a text twice, and which starts and ends with a
mark, holds the text at its two ends only. -/
theorem OccursAt.at_end_of_marks {t s m : List α} {p : α → Bool} {c d : α} {i : Nat}
    (h : OccursAt t s i) (hprimitive : Primitive m) (hm : m ≠ []) (ht : t.filter p = m)
    (hs : s.filter p = m ++ m) (hhead : s.head? = some c) (hc : p c = true)
    (hlast : s.getLast? = some d) (hd : p d = true) : i = 0 ∨ i + t.length = s.length := by
  have htne : t ≠ [] := by
    intro hnil
    rw [hnil, List.filter_nil] at ht
    exact hm ht.symm
  have hmarks := h.filter p
  rw [ht, hs] at hmarks
  rcases hprimitive _ hmarks with hfront | hback
  · left
    by_contra hi
    have hmem : c ∈ s.take i := by
      apply List.mem_of_head?
      rw [List.head?_take, if_neg hi, hhead]
    have hkept : c ∈ (s.take i).filter p := List.mem_filter.mpr ⟨hmem, hc⟩
    rw [List.length_eq_zero_iff.mp hfront] at hkept
    contradiction
  · right
    by_contra hlen
    have hlt : ¬ s.length ≤ i + t.length := by
      have hle := h.end_le htne
      omega
    have hmem : d ∈ s.drop (i + t.length) := by
      apply List.mem_of_getLast?
      rw [List.getLast?_drop, if_neg hlt, hlast]
    have hkept : d ∈ (s.drop (i + t.length)).filter p := List.mem_filter.mpr ⟨hmem, hd⟩
    have hcount := congrArg (fun l => (l.filter p).length) (h.split htne)
    simp only [hs, List.filter_append, ht, List.length_append, hback] at hcount
    have hpos := List.length_pos_of_mem hkept
    omega

end Search
