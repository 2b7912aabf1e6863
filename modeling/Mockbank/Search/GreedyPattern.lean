import Mockbank.Search.Occurrence

/-!
# Greedy patterns

A pattern is a sequence of fixed texts and greedy wildcards, some of them
captured.  The matcher is the backtracking one: a wildcard takes as much as it
can, gives symbols back one at a time until the rest of the pattern matches, and
the whole pattern has to end at the end of the input.  The parameter `join` says
which adjacent symbols a wildcard takes together, so that a split between them is
never tried.

Main results:

- Theorem `greedy_eq_some_iff`: a greedy wildcard stops at the last position from
  which the rest of the pattern matches.
- Theorems `matchFrom_any` and `matchFrom_capture`: the same for patterns, in terms
  of positions of the input.
-/

namespace Search

variable {α β : Type*}

/-- One element of a pattern. -/
inductive Item (α : Type*)
  /-- A fixed text. -/
  | text (t : List α)
  /-- `.*` -/
  | any
  /-- `(.*)` -/
  | capture

/-- Try the continuation behind every prefix of the input, the longest first.
The continuation gets the position and the remaining input. -/
def greedy (join : α → α → Bool) (k : Nat → List α → Option β) : Nat → List α → Option β
  | n, [] => k n []
  | n, [c] => (k (n + 1) []).or (k n [c])
  | n, c :: d :: rest =>
      if join c d then (greedy join k (n + 2) rest).or (k n (c :: d :: rest))
      else (greedy join k (n + 1) (d :: rest)).or (k n (c :: d :: rest))

variable [DecidableEq α]

/-- Match a pattern against the input from position `n` to the end.  The result
lists the start and the end of every captured part. -/
def matchFrom (join : α → α → Bool) :
    List (Item α) → Nat → List α → Option (List (Nat × Nat))
  | [], _, rest => if rest = [] then some [] else none
  | .text t :: p, n, rest =>
      if t <+: rest then matchFrom join p (n + t.length) (rest.drop t.length) else none
  | .any :: p, n, rest => greedy join (matchFrom join p) n rest
  | .capture :: p, n, rest =>
      greedy join (fun m r => (matchFrom join p m r).map ((n, m) :: ·)) n rest

/-! ## Where a greedy wildcard stops -/

/-- The condition under which the matcher may skip the middle of joined symbols. -/
def SkipsJoined (join : α → α → Bool) (k : Nat → List α → Option β) : Prop :=
  ∀ m c d rest, join c d = true → k m (d :: rest) = none

omit [DecidableEq α] in
/-- Such a continuation sees the input symbol by symbol. -/
theorem greedy_cons {join : α → α → Bool} {k : Nat → List α → Option β}
    (hk : SkipsJoined join k) (n : Nat) (c : α) (s : List α) :
    greedy join k n (c :: s) = (greedy join k (n + 1) s).or (k n (c :: s)) := by
  induction hlen : s.length using Nat.strong_induction_on generalizing n c s with
  | _ len ih =>
      cases s with
      | nil => simp only [greedy]
      | cons d rest =>
          rw [greedy]
          split
          next hjoin =>
            have hstep := ih rest.length (by rw [← hlen]; simp) (n + 1) d rest rfl
            rw [hstep, hk _ c d rest hjoin, Option.or_none]
          next hjoin => rfl

omit [DecidableEq α] in
/-- A greedy wildcard fails when its continuation fails at every position. -/
theorem greedy_eq_none_iff {join : α → α → Bool} {k : Nat → List α → Option β}
    (hk : SkipsJoined join k) (n : Nat) (s : List α) :
    greedy join k n s = none ↔ ∀ i, i ≤ s.length → k (n + i) (s.drop i) = none := by
  induction s generalizing n with
  | nil =>
      constructor
      · intro h i hi
        have hzero : i = 0 := by simpa using hi
        subst hzero
        exact h
      · intro h
        exact h 0 le_rfl
  | cons c s ih =>
      rw [greedy_cons hk, Option.or_eq_none_iff, ih]
      constructor
      · rintro ⟨hrest, hhere⟩ i hi
        cases i with
        | zero => exact hhere
        | succ i =>
            rw [List.drop_succ_cons, show n + (i + 1) = n + 1 + i by omega]
            exact hrest i (by simpa using hi)
      · intro h
        refine ⟨?_, h 0 (Nat.zero_le _)⟩
        intro i hi
        have hstep := h (i + 1) (by simpa using hi)
        rwa [List.drop_succ_cons, show n + (i + 1) = n + 1 + i by omega] at hstep

omit [DecidableEq α] in
/-- A greedy wildcard stops at the last position at which its continuation succeeds. -/
theorem greedy_eq_some_iff {join : α → α → Bool} {k : Nat → List α → Option β}
    (hk : SkipsJoined join k) (n : Nat) (s : List α) (r : β) :
    greedy join k n s = some r ↔
      ∃ i, i ≤ s.length ∧ k (n + i) (s.drop i) = some r ∧
        ∀ j, i < j → j ≤ s.length → k (n + j) (s.drop j) = none := by
  induction s generalizing n with
  | nil =>
      constructor
      · intro h
        exact ⟨0, le_rfl, h, fun j hj hle => by simp at hle; omega⟩
      · rintro ⟨i, hi, h, _⟩
        have hzero : i = 0 := by simpa using hi
        subst hzero
        exact h
  | cons c s ih =>
      rw [greedy_cons hk, Option.or_eq_some_iff, ih, greedy_eq_none_iff hk]
      constructor
      · rintro (⟨i, hi, hki, hlast⟩ | ⟨hnone, hhere⟩)
        · refine ⟨i + 1, by simpa using hi, ?_, ?_⟩
          · rw [List.drop_succ_cons, show n + (i + 1) = n + 1 + i by omega]
            exact hki
          · intro j hj hle
            obtain ⟨m, rfl⟩ : ∃ m, j = m + 1 := ⟨j - 1, by omega⟩
            rw [List.drop_succ_cons, show n + (m + 1) = n + 1 + m by omega]
            exact hlast m (by omega) (by simpa using hle)
        · refine ⟨0, Nat.zero_le _, hhere, ?_⟩
          intro j hj hle
          obtain ⟨m, rfl⟩ : ∃ m, j = m + 1 := ⟨j - 1, by omega⟩
          rw [List.drop_succ_cons, show n + (m + 1) = n + 1 + m by omega]
          exact hnone m (by simpa using hle)
      · rintro ⟨i, hi, hki, hlast⟩
        cases i with
        | zero =>
            right
            refine ⟨?_, hki⟩
            intro m hm
            have hnone := hlast (m + 1) (by omega) (by simpa using hm)
            rwa [List.drop_succ_cons, show n + (m + 1) = n + 1 + m by omega] at hnone
        | succ i =>
            left
            rw [List.drop_succ_cons, show n + (i + 1) = n + 1 + i by omega] at hki
            refine ⟨i, by simpa using hi, hki, ?_⟩
            intro m hm hle
            have hnone := hlast (m + 1) (by omega) (by simpa using hle)
            rwa [List.drop_succ_cons, show n + (m + 1) = n + 1 + m by omega] at hnone

/-! ## Patterns by position -/

/-- The rest of the input, from position `i` on, matches the pattern. -/
def MatchesFrom (join : α → α → Bool) (p : List (Item α)) (s : List α) (i : Nat) : Prop :=
  i ≤ s.length ∧ (matchFrom join p i (s.drop i)).isSome

/-- A pattern that a wildcard may precede: it is empty or starts with a text whose
first symbol is never the second of two joined ones. -/
def Guarded (join : α → α → Bool) : List (Item α) → Prop
  | [] => True
  | .text (h :: _) :: _ => ∀ c, join c h = false
  | _ => False

/-- The matcher never succeeds on a guarded pattern between two joined symbols. -/
theorem Guarded.skipsJoined {join : α → α → Bool} {p : List (Item α)} (hp : Guarded join p) :
    SkipsJoined join (matchFrom join p) := by
  intro m c d rest hjoin
  match p, hp with
  | [], _ => simp [matchFrom]
  | .text (h :: t) :: p, hp =>
      rw [matchFrom, if_neg]
      intro hpre
      have hhead : h = d := (List.cons_prefix_cons.mp hpre).1
      rw [hhead] at hp
      exact absurd hjoin (by simp [hp c])

/-- The positions at which a wildcard that starts at `n` may stop. -/
def stops (join : α → α → Bool) (p : List (Item α)) (s : List α) (n : Nat) : Set Nat :=
  {i | n ≤ i ∧ MatchesFrom join p s i}

private theorem greedy_drop_iff {join : α → α → Bool} {p : List (Item α)}
    (hp : Guarded join p) {s : List α} {n : Nat} (hn : n ≤ s.length)
    (f : Nat → List (Nat × Nat) → β) (r : β) :
    greedy join (fun m rest => (matchFrom join p m rest).map (f m)) n (s.drop n) = some r ↔
      ∃ i spans, IsGreatest (stops join p s n) i ∧
        matchFrom join p i (s.drop i) = some spans ∧ f i spans = r := by
  have hskip : SkipsJoined join fun m rest => (matchFrom join p m rest).map (f m) := by
    intro m c d rest hjoin
    exact Option.map_eq_none_iff.mpr (hp.skipsJoined m c d rest hjoin)
  rw [greedy_eq_some_iff hskip]
  simp only [List.drop_drop, List.length_drop, Option.map_eq_some_iff, Option.map_eq_none_iff]
  constructor
  · rintro ⟨i, hi, ⟨spans, hspans, hr⟩, hlast⟩
    refine ⟨n + i, spans, ⟨⟨by omega, by omega, by rw [hspans]; rfl⟩, ?_⟩, hspans, hr⟩
    rintro j ⟨hnj, hj, hsome⟩
    by_contra hlt
    have hnone := hlast (j - n) (by omega) (by omega)
    rw [show n + (j - n) = j by omega] at hnone
    rw [hnone] at hsome
    contradiction
  · rintro ⟨i, spans, ⟨⟨hni, hi, _⟩, hgreatest⟩, hspans, hr⟩
    refine ⟨i - n, by omega, ⟨spans, ?_, ?_⟩, ?_⟩
    · rwa [show n + (i - n) = i by omega]
    · rwa [show n + (i - n) = i by omega]
    · intro j hj hle
      by_contra hsome
      have hmem : n + j ∈ stops join p s n :=
        ⟨by omega, by omega, Option.isSome_iff_ne_none.mpr hsome⟩
      have hle' := hgreatest hmem
      omega

/-- A wildcard stops at the last position from which the rest of the pattern matches. -/
theorem matchFrom_any {join : α → α → Bool} {p : List (Item α)} (hp : Guarded join p)
    {s : List α} {n : Nat} (hn : n ≤ s.length) (r : List (Nat × Nat)) :
    matchFrom join (.any :: p) n (s.drop n) = some r ↔
      ∃ i, IsGreatest (stops join p s n) i ∧ matchFrom join p i (s.drop i) = some r := by
  have h := greedy_drop_iff hp hn (fun _ spans => spans) r
  simp only [Option.map_id'] at h
  rw [matchFrom]
  refine h.trans ?_
  constructor
  · rintro ⟨i, spans, hi, hspans, rfl⟩
    exact ⟨i, hi, hspans⟩
  · rintro ⟨i, hi, hspans⟩
    exact ⟨i, r, hi, hspans, rfl⟩

/-- A captured wildcard stops there too and reports its span. -/
theorem matchFrom_capture {join : α → α → Bool} {p : List (Item α)} (hp : Guarded join p)
    {s : List α} {n : Nat} (hn : n ≤ s.length) (r : List (Nat × Nat)) :
    matchFrom join (.capture :: p) n (s.drop n) = some r ↔
      ∃ i spans, IsGreatest (stops join p s n) i ∧
        matchFrom join p i (s.drop i) = some spans ∧ (n, i) :: spans = r := by
  rw [matchFrom]
  exact greedy_drop_iff hp hn (fun m spans => (n, m) :: spans) r

/-! ## Which positions a pattern matches from -/

/-- A wildcard that can stop anywhere has a last place to stop. -/
theorem exists_isGreatest_stops {join : α → α → Bool} {p : List (Item α)} {s : List α}
    {n i : Nat} (hni : n ≤ i) (hi : MatchesFrom join p s i) :
    ∃ j, IsGreatest (stops join p s n) j :=
  exists_isGreatest s.length (fun _ hj => hj.2.1) ⟨i, hni, hi⟩

/-- The empty pattern matches at the end of the input only. -/
theorem matchesFrom_nil {join : α → α → Bool} {s : List α} {n : Nat} :
    MatchesFrom join [] s n ↔ n = s.length := by
  have hdrop : s.drop n = [] ↔ s.length ≤ n := List.drop_eq_nil_iff
  rw [MatchesFrom, matchFrom]
  split
  next h =>
    rw [hdrop] at h
    simp only [Option.isSome_some, and_true]
    omega
  next h =>
    rw [hdrop] at h
    simp only [Option.isSome_none, Bool.false_eq_true, and_false, false_iff]
    omega

/-- A wildcard matches from every position in front of one where the rest matches. -/
theorem matchesFrom_any {join : α → α → Bool} {p : List (Item α)} (hp : Guarded join p)
    {s : List α} {n : Nat} :
    MatchesFrom join (.any :: p) s n ↔ ∃ i, n ≤ i ∧ MatchesFrom join p s i := by
  constructor
  · rintro ⟨hn, hsome⟩
    rcases Option.isSome_iff_exists.mp hsome with ⟨r, hr⟩
    rcases (matchFrom_any hp hn r).mp hr with ⟨i, hi, _⟩
    exact ⟨i, hi.1⟩
  · rintro ⟨i, hni, hi⟩
    rcases exists_isGreatest_stops hni hi with ⟨j, hj⟩
    rcases Option.isSome_iff_exists.mp hj.1.2.2 with ⟨r, hr⟩
    have hn : n ≤ s.length := hni.trans hi.1
    exact ⟨hn, Option.isSome_iff_exists.mpr ⟨r, (matchFrom_any hp hn r).mpr ⟨j, hj, hr⟩⟩⟩

/-- Capturing does not change what a wildcard matches. -/
theorem matchesFrom_capture {join : α → α → Bool} {p : List (Item α)} (hp : Guarded join p)
    {s : List α} {n : Nat} :
    MatchesFrom join (.capture :: p) s n ↔ ∃ i, n ≤ i ∧ MatchesFrom join p s i := by
  constructor
  · rintro ⟨hn, hsome⟩
    rcases Option.isSome_iff_exists.mp hsome with ⟨r, hr⟩
    rcases (matchFrom_capture hp hn r).mp hr with ⟨i, _, hi, _⟩
    exact ⟨i, hi.1⟩
  · rintro ⟨i, hni, hi⟩
    rcases exists_isGreatest_stops hni hi with ⟨j, hj⟩
    rcases Option.isSome_iff_exists.mp hj.1.2.2 with ⟨r, hr⟩
    have hn : n ≤ s.length := hni.trans hi.1
    exact ⟨hn, Option.isSome_iff_exists.mpr
      ⟨(n, j) :: r, (matchFrom_capture hp hn _).mpr ⟨j, r, hj, hr, rfl⟩⟩⟩

/-- A text has to stand at the position, and the rest of the pattern behind it. -/
theorem matchFrom_text {join : α → α → Bool} {p : List (Item α)} {t : List α} {s : List α}
    {n : Nat} (r : List (Nat × Nat)) :
    matchFrom join (.text t :: p) n (s.drop n) = some r ↔
      OccursAt t s n ∧ matchFrom join p (n + t.length) (s.drop (n + t.length)) = some r := by
  rw [matchFrom, OccursAt, List.drop_drop]
  split
  next h => simp [h]
  next h => simp [h]

/-- A text matches where it occurs and the rest matches behind it. -/
theorem matchesFrom_text {join : α → α → Bool} {p : List (Item α)} {t : List α} (ht : t ≠ [])
    {s : List α} {n : Nat} :
    MatchesFrom join (.text t :: p) s n ↔
      OccursAt t s n ∧ MatchesFrom join p s (n + t.length) := by
  simp only [MatchesFrom, Option.isSome_iff_exists, matchFrom_text]
  constructor
  · rintro ⟨_, r, hocc, hr⟩
    exact ⟨hocc, hocc.end_le ht, r, hr⟩
  · rintro ⟨hocc, hle, r, hr⟩
    exact ⟨by omega, r, hocc, hr⟩

end Search
