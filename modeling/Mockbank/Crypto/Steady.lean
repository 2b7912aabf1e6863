import Mockbank.Crypto.Concurrent

/-!
# Constructions over key files that are there

Constructions that overlap while there are no key files may end with different pairs.  This file
has the other case: once the files hold a pair and no construction is about to write, they stay
as they are, and every later construction loads them.

Main results:

- Theorem `run_of_holdsPair`: any schedule over files that hold a pair.
- Theorem `later_constructions_share`: what one construction at the start of a run is good for.
-/

namespace Mockbank

open Jvm Transition

variable {P : Provider} {ι : Type}

/-- Where a construction stands after so many steps over files that hold a pair. -/
def loading (keyPair : KeyPair P) : Nat → Phase P
  | 0 => .start
  | 1 => .publicExists
  | 2 => .bothExist
  | 3 => .publicRead keyPair.publicKey
  | _ => .loaded keyPair

/-- A construction that is going to write the key files. -/
def Phase.Writing : Phase P → Prop
  | .missing => True
  | .generated _ => True
  | .publicWritten _ => True
  | _ => False

theorem not_writing_of_keyPair? {phase : Phase P} {keyPair : KeyPair P}
    (h : phase.keyPair? = some keyPair) : ¬ phase.Writing := by
  cases phase <;> simp_all [Phase.keyPair?, Phase.Writing]

section Steps

variable [DecidableEq ι] {pl : Platform} (fresh : ι → KeyPair P) {s : Config P ι} {i : ι}
  {keyPair : KeyPair P}

theorem step_phase_of_ne (pl : Platform) (s : Config P ι) {i j : ι}
    (h : j ≠ i) : (step pl fresh s i).phase j = s.phase j := by
  unfold step
  cases hphase : s.phase i <;> simp [setPhase_phase_of_ne _ _ h]

/-- The steps of one construction leave the others where they are. -/
theorem run_phase_of_not_mem (pl : Platform) (s : Config P ι)
    {schedule : List ι} {j : ι} (h : j ∉ schedule) :
    (run (step pl fresh) s schedule).phase j = s.phase j := by
  induction schedule generalizing s with
  | nil => rfl
  | cons i schedule ih =>
      rw [List.mem_cons, not_or] at h
      rw [run_cons, ih _ h.2, step_phase_of_ne fresh pl s h.1]

/-- Over files that hold a pair a construction that is not about to write does not write. -/
theorem step_of_not_writing (h : HoldsPair pl s.disk keyPair) (hphase : ¬ (s.phase i).Writing) :
    (step pl fresh s i).disk = s.disk ∧ ¬ ((step pl fresh s i).phase i).Writing := by
  obtain ⟨pub, priv, hdisk, hpub, hpriv⟩ := h
  unfold step
  cases hi : s.phase i with
  | start => simp [hdisk, Phase.Writing]
  | publicExists => simp [hdisk, Phase.Writing]
  | bothExist => simp [hdisk, hpub, readFile, Phase.ofResult, Phase.Writing]
  | publicRead publicKey => simp [hdisk, hpriv, readFile, Phase.ofResult, Phase.Writing]
  | missing => simp [hi, Phase.Writing] at hphase
  | generated keyPair => simp [hi, Phase.Writing] at hphase
  | publicWritten keyPair => simp [hi, Phase.Writing] at hphase
  | loaded keyPair => simp [hi, Phase.Writing]
  | wrote keyPair => simp [hi, Phase.Writing]
  | failed e => simp [hi, Phase.Writing]

/-- A construction that has only met these files goes on to load them. -/
theorem step_loading (h : HoldsPair pl s.disk keyPair) {n : Nat}
    (hphase : s.phase i = loading keyPair n) :
    (step pl fresh s i).phase i = loading keyPair (n + 1) := by
  obtain ⟨pub, priv, hdisk, hpub, hpriv⟩ := h
  unfold step
  match n with
  | 0 => simp [hphase, loading, hdisk]
  | 1 => simp [hphase, loading, hdisk]
  | 2 => simp [hphase, loading, hdisk, hpub, readFile, Phase.ofResult]
  | 3 => simp [hphase, loading, hdisk, hpriv, readFile, Phase.ofResult]
  | n + 4 => simp [hphase, loading]

/-- Over files that hold a pair, with no construction about to write: no schedule changes the
files, and a construction that has only met these files has come as far as its own steps take
it, whatever the others do in between. -/
theorem run_of_holdsPair (h : HoldsPair pl s.disk keyPair) (hquiet : ∀ i, ¬ (s.phase i).Writing)
    (schedule : List ι) :
    (run (step pl fresh) s schedule).disk = s.disk ∧
      ∀ i n, s.phase i = loading keyPair n →
        (run (step pl fresh) s schedule).phase i = loading keyPair (n + schedule.count i) := by
  induction schedule generalizing s with
  | nil => exact ⟨rfl, fun i n hi => hi⟩
  | cons j schedule ih =>
      obtain ⟨hdisk, hwriting⟩ := step_of_not_writing fresh h (hquiet j)
      have hquiet' : ∀ i, ¬ ((step pl fresh s j).phase i).Writing := by
        intro i
        by_cases hij : i = j
        · rw [hij]
          exact hwriting
        · rw [step_phase_of_ne fresh pl s hij]
          exact hquiet i
      obtain ⟨hrest, hphases⟩ := ih (s := step pl fresh s j) (hdisk ▸ h) hquiet'
      rw [run_cons]
      refine ⟨hrest.trans hdisk, ?_⟩
      intro i n hi
      by_cases hij : i = j
      · subst hij
        rw [hphases i (n + 1) (step_loading fresh h hi), List.count_cons_self, Nat.add_assoc,
          Nat.add_comm 1]
      · rw [hphases i n ((step_phase_of_ne fresh pl s hij).trans hi),
          List.count_cons_of_ne (fun heq => hij heq.symm)]

end Steps

/-- The files that a construction leaves behind hold its pair. -/
theorem holdsPair_of_construct (hkf : P.KeyFactoryRebuilds) {pl : Platform} {fresh : KeyPair P}
    {disk disk' : Disk} {c : Cryptor P} (h : construct pl fresh disk = .ok (c, disk')) :
    HoldsPair pl disk' c.keyPair := by
  by_cases hincomplete : disk.Incomplete
  · rw [construct_fresh hincomplete] at h
    obtain ⟨rfl, rfl⟩ := Prod.mk.inj (Except.ok.inj h)
    exact holdsPair_writeRSAKey hkf pl fresh
  · rcases construct_of_complete (P := P) pl hincomplete with ⟨keyPair, hpair⟩ | ⟨e, he⟩
    · rw [hpair.construct fresh] at h
      obtain ⟨rfl, rfl⟩ := Prod.mk.inj (Except.ok.inj h)
      exact hpair
    · rw [he fresh] at h
      contradiction

/-- One construction that runs alone at the start decides about all later ones, in whatever
order their steps come: the files stay as it leaves them, nobody throws, and four steps of its
own bring each of the others to the pair of the first. -/
theorem later_constructions_share [DecidableEq ι] (hkf : P.KeyFactoryRebuilds) (pl : Platform)
    (fresh : ι → KeyPair P) (disk disk' : Disk) (first : ι) (c : Cryptor P)
    (h : construct pl (fresh first) disk = .ok (c, disk')) (schedule : List ι) :
    (run (step pl fresh) ⟨disk, fun _ => .start⟩
        ([first, first, first, first, first] ++ schedule)).disk = disk' ∧
      ∀ i, i ≠ first → (run (step pl fresh) ⟨disk, fun _ => .start⟩
        ([first, first, first, first, first] ++ schedule)).phase i =
          loading c.keyPair (schedule.count i) := by
  obtain ⟨hsolo, hpair⟩ := (solo_run pl fresh ⟨disk, fun _ => .start⟩ first rfl).1 c disk' h
  have hheld := holdsPair_of_construct hkf h
  rw [← hsolo] at hheld
  have hothers : ∀ i, i ≠ first → (run (step pl fresh) ⟨disk, fun _ => .start⟩
      [first, first, first, first, first]).phase i = .start := by
    intro i hi
    exact run_phase_of_not_mem fresh pl _ (by simpa using hi)
  have hquiet : ∀ i, ¬ ((run (step pl fresh) ⟨disk, fun _ => .start⟩
      [first, first, first, first, first]).phase i).Writing := by
    intro i
    by_cases hi : i = first
    · rw [hi]
      exact not_writing_of_keyPair? hpair
    · rw [hothers i hi]
      exact id
  obtain ⟨hdisk, hphases⟩ := run_of_holdsPair fresh hheld hquiet schedule
  rw [run_append]
  refine ⟨hdisk.trans hsolo, ?_⟩
  intro i hi
  rw [hphases i 0 (hothers i hi), Nat.zero_add]

/-- Three constructions, the first of them alone, without key files. -/
theorem later_constructions_share_three :
    (run (step ⟨utf8, .lf⟩ fun i : Fin 3 => transparentPair (UInt8.ofNat i)) (initial transparent _)
        ([0, 0, 0, 0, 0] ++ [1, 2, 2, 1, 1, 2, 1, 2])).phase 1 =
      .loaded (transparentPair 0) :=
  (later_constructions_share transparent_keyFactoryRebuilds ⟨utf8, .lf⟩ _ emptyDisk _ 0 _
    (construct_fresh (Or.inl rfl)) [1, 2, 2, 1, 1, 2, 1, 2]).2 1 (by decide)

end Mockbank
