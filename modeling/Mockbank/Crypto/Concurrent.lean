import Mockbank.Crypto.KeyStore

/-!
# Constructions that overlap

Every request constructs its own `Cryptor`, so the steps of several constructions may
come in any order.  A step is one check, one read or one write of a file, or the
generation of a pair.

Main results:

- Theorem `solo_run`: a construction whose steps nothing interrupts is `construct`.
- Theorem `inv_step`: what one step preserves.
- Theorem `agreement_of_run`: runs after which the key files agree.
- Theorem `mismatch_of_late_write`: what a write out of order leaves behind.
-/

namespace Mockbank

open Jvm Transition

variable {P : Provider} {ι : Type}

/-! ## Steps -/

/-- Where a construction stands. -/
inductive Phase (P : Provider) where
  | start
  | publicExists
  | bothExist
  | publicRead (publicKey : P.PublicKey)
  | missing
  | generated (keyPair : KeyPair P)
  | publicWritten (keyPair : KeyPair P)
  | loaded (keyPair : KeyPair P)
  | wrote (keyPair : KeyPair P)
  | failed (e : JavaException)

/-- The key files and where each construction stands. -/
structure Config (P : Provider) (ι : Type) where
  disk : Disk
  phase : ι → Phase P

/-- No key files, and no construction has begun. -/
def initial (P : Provider) (ι : Type) : Config P ι where
  disk := emptyDisk
  phase _ := .start

/-- `FileReader` on a key file. -/
def readFile (file : Option (List UInt8)) : Except JavaException (List UInt8) :=
  file.elim (.error .io) .ok

section Step

variable [DecidableEq ι]

/-- One construction moves on. -/
def Config.setPhase (s : Config P ι) (i : ι) (p : Phase P) : Config P ι :=
  { s with phase := Function.update s.phase i p }

/-- The phase behind a step that may throw. -/
def Phase.ofResult {α : Type} (next : α → Phase P) : Except JavaException α → Phase P
  | .ok a => next a
  | .error e => .failed e

/-- The next step of construction `i`, whose fresh pair is `fresh i`. -/
def step (pl : Platform) (fresh : ι → KeyPair P) (s : Config P ι) (i : ι) : Config P ι :=
  match s.phase i with
  | .start => s.setPhase i (if s.disk.x509.isSome then .publicExists else .missing)
  | .publicExists => s.setPhase i (if s.disk.pk8.isSome then .bothExist else .missing)
  | .bothExist =>
      s.setPhase i (.ofResult .publicRead (readFile s.disk.x509 >>= readPublickey pl))
  | .publicRead publicKey =>
      s.setPhase i (.ofResult (fun privateKey => .loaded ⟨publicKey, privateKey⟩)
        (readFile s.disk.pk8 >>= readPrivateKey pl))
  | .missing => s.setPhase i (.generated (fresh i))
  | .generated keyPair =>
      { s with disk := { s.disk with x509 := some (publicFile pl keyPair.publicKey) } }.setPhase i
        (.publicWritten keyPair)
  | .publicWritten keyPair =>
      { s with disk := { s.disk with pk8 := some (privateFile pl keyPair.privateKey) } }.setPhase i
        (.wrote keyPair)
  | .loaded _ => s
  | .wrote _ => s
  | .failed _ => s

end Step

/-- A construction that has returned or thrown. -/
def Phase.Finished : Phase P → Prop
  | .loaded _ => True
  | .wrote _ => True
  | .failed _ => True
  | _ => False

/-- The pair that a finished construction holds. -/
def Phase.keyPair? : Phase P → Option (KeyPair P)
  | .loaded keyPair => some keyPair
  | .wrote keyPair => some keyPair
  | _ => none

/-! ## Configurations -/

@[simp]
theorem setPhase_disk [DecidableEq ι] (s : Config P ι) (i : ι) (p : Phase P) :
    (s.setPhase i p).disk = s.disk :=
  rfl

@[simp]
theorem setPhase_phase_self [DecidableEq ι] (s : Config P ι) (i : ι) (p : Phase P) :
    (s.setPhase i p).phase i = p := by
  simp [Config.setPhase]

theorem setPhase_phase_of_ne [DecidableEq ι] (s : Config P ι) {i j : ι} (p : Phase P)
    (h : j ≠ i) : (s.setPhase i p).phase j = s.phase j := by
  simp [Config.setPhase, h]

/-- A construction whose steps nothing interrupts is `construct`. -/
theorem solo_run [DecidableEq ι] (pl : Platform) (fresh : ι → KeyPair P) (s : Config P ι)
    (i : ι) (hstart : s.phase i = .start) :
    (∀ c d, construct pl (fresh i) s.disk = .ok (c, d) →
      (run (step pl fresh) s [i, i, i, i, i]).disk = d ∧
      ((run (step pl fresh) s [i, i, i, i, i]).phase i).keyPair? = some c.keyPair) ∧
    (∀ e, construct pl (fresh i) s.disk = .error e →
      (run (step pl fresh) s [i, i, i, i, i]).disk = s.disk ∧
      (run (step pl fresh) s [i, i, i, i, i]).phase i = .failed e) := by
  cases hx : s.disk.x509 with
  | none =>
      rw [construct_fresh (Or.inl hx)]
      simp [step, hstart, hx, writeRSAKey, Phase.keyPair?]
  | some pub =>
      cases hp : s.disk.pk8 with
      | none =>
          rw [construct_fresh (Or.inr hp)]
          simp [step, hstart, hx, hp, writeRSAKey, Phase.keyPair?]
      | some priv =>
          simp only [construct, hx, hp]
          cases hpub : readPublickey pl pub with
          | error e =>
              simp [step, hstart, hx, hp, hpub, readFile, Phase.ofResult, error_bind, ok_bind]
          | ok publicKey =>
              cases hpriv : readPrivateKey pl priv with
              | error e =>
                  simp [step, hstart, hx, hp, hpub, hpriv, readFile, Phase.ofResult, ok_bind]
              | ok privateKey =>
                  simp [step, hstart, hx, hp, hpub, hpriv, readFile, Phase.ofResult, ok_bind,
                    Phase.keyPair?]

/-! ## Agreement -/

/-- The key files hold the halves of one generated pair once every construction has
finished, and what was loaded from them is a generated pair. -/
structure Agreement (pl : Platform) (fresh : ι → KeyPair P) (s : Config P ι) : Prop where
  files : Nonempty ι → (∀ i, (s.phase i).Finished) → ∃ j, s.disk = writeRSAKey pl (fresh j)
  loaded : ∀ i kp, s.phase i = .loaded kp → ∃ j, kp = fresh j

/-- The construction that wrote `rsa.x509` has not written `rsa.pk8` yet. -/
def WriterPending (pl : Platform) (s : Config P ι) : Prop :=
  ∃ j kp, s.phase j = .publicWritten kp ∧ s.disk.x509 = some (publicFile pl kp.publicKey)

/-- What the steps of a run have to respect: `rsa.pk8` is written only while the
construction that wrote `rsa.x509` is still to write its own, and read only when that
construction is done and `rsa.x509` still holds the key that was read from it. -/
def Orderly (pl : Platform) (s : Config P ι) (i : ι) : Prop :=
  match s.phase i with
  | .publicWritten _ => WriterPending pl s
  | .publicRead publicKey =>
      s.disk.x509 = some (publicFile pl publicKey) ∧ ¬ WriterPending pl s
  | _ => True

/-- A construction that has seen or written `rsa.x509`. -/
def Phase.SawPublic : Phase P → Prop
  | .start => False
  | .missing => False
  | .generated _ => False
  | _ => True

/-- The pair that a construction has generated. -/
def Phase.generated? : Phase P → Option (KeyPair P)
  | .generated keyPair => some keyPair
  | .publicWritten keyPair => some keyPair
  | .wrote keyPair => some keyPair
  | _ => none

/-- No key files, a public key file whose writer is pending, or the files of one
generated pair. -/
def FilesLinked (pl : Platform) (fresh : ι → KeyPair P) (s : Config P ι) : Prop :=
  s.disk = emptyDisk ∨ WriterPending pl s ∨ ∃ j, s.disk = writeRSAKey pl (fresh j)

/-- What links the two files and the constructions. -/
structure Inv (pl : Platform) (fresh : ι → KeyPair P) (s : Config P ι) : Prop where
  files : FilesLinked pl fresh s
  sawPublic : ∀ i, (s.phase i).SawPublic → s.disk.x509 ≠ none
  generated : ∀ i kp, (s.phase i).generated? = some kp → kp = fresh i
  loaded : ∀ i kp, s.phase i = .loaded kp → ∃ j, kp = fresh j

theorem inv_initial (pl : Platform) (fresh : ι → KeyPair P) : Inv pl fresh (initial P ι) where
  files := Or.inl rfl
  sawPublic _ h := h.elim
  generated _ _ h := by contradiction
  loaded _ _ h := by contradiction

/-! ## What one step preserves -/

section Preservation

variable [DecidableEq ι] {pl : Platform} {fresh : ι → KeyPair P} {s : Config P ι} {i : ι}
  {p : Phase P}

/-- One construction moves on, with the files linked and the new phase in order. -/
theorem inv_update {d : Disk} (h : Inv pl fresh s)
    (hfiles : FilesLinked pl fresh ({ s with disk := d }.setPhase i p))
    (hkeep : s.disk.x509 ≠ none → d.x509 ≠ none)
    (hsaw : p.SawPublic → d.x509 ≠ none)
    (hgen : ∀ kp, p.generated? = some kp → kp = fresh i)
    (hloaded : ∀ kp, p = .loaded kp → ∃ j, kp = fresh j) :
    Inv pl fresh ({ s with disk := d }.setPhase i p) where
  files := hfiles
  sawPublic j hj := by
    by_cases hji : j = i
    · rw [hji, setPhase_phase_self] at hj
      exact hsaw hj
    · rw [setPhase_phase_of_ne _ p hji] at hj
      exact hkeep (h.sawPublic j hj)
  generated j kp hj := by
    by_cases hji : j = i
    · rw [hji, setPhase_phase_self] at hj
      rw [hji]
      exact hgen kp hj
    · rw [setPhase_phase_of_ne _ p hji] at hj
      exact h.generated j kp hj
  loaded j kp hj := by
    by_cases hji : j = i
    · rw [hji, setPhase_phase_self] at hj
      exact hloaded kp hj
    · rw [setPhase_phase_of_ne _ p hji] at hj
      exact h.loaded j kp hj

/-- The files stay linked when a construction moves on that is not between its two
writes. -/
theorem filesLinked_setPhase (h : FilesLinked pl fresh s)
    (hi : ∀ kp, s.phase i ≠ .publicWritten kp) : FilesLinked pl fresh (s.setPhase i p) := by
  rcases h with hempty | ⟨j, kp, hj, hdisk⟩ | hstored
  · exact Or.inl hempty
  · have hji : j ≠ i := by
      intro heq
      rw [heq] at hj
      exact hi kp hj
    exact Or.inr (Or.inl ⟨j, kp, (setPhase_phase_of_ne s p hji).trans hj, hdisk⟩)
  · exact Or.inr (Or.inr hstored)

/-- A step that leaves the files alone preserves the invariant. -/
theorem inv_setPhase (h : Inv pl fresh s) (hi : ∀ kp, s.phase i ≠ .publicWritten kp)
    (hsaw : p.SawPublic → s.disk.x509 ≠ none)
    (hgen : ∀ kp, p.generated? = some kp → kp = fresh i)
    (hloaded : ∀ kp, p = .loaded kp → ∃ j, kp = fresh j) : Inv pl fresh (s.setPhase i p) :=
  inv_update h (filesLinked_setPhase h.files hi) id hsaw hgen hloaded

/-- A write to `rsa.x509` makes its construction the pending writer. -/
theorem inv_writePublic {kp : KeyPair P} (h : Inv pl fresh s) (hi : s.phase i = .generated kp) :
    Inv pl fresh (step pl fresh s i) := by
  have hkp : kp = fresh i := h.generated i kp (by rw [hi]; rfl)
  simp only [step, hi]
  apply inv_update h
  · exact Or.inr (Or.inl ⟨i, kp, setPhase_phase_self _ i _, rfl⟩)
  · intro _
    exact Option.some_ne_none _
  · intro _
    exact Option.some_ne_none _
  · intro kp' hgen
    exact (Option.some.inj hgen).symm.trans hkp
  · intro kp' hloaded
    contradiction

/-- A write to `rsa.pk8` completes the files of the pending writer, or leaves it
pending. -/
theorem inv_writePrivate {kp : KeyPair P} (h : Inv pl fresh s)
    (hi : s.phase i = .publicWritten kp) (hpending : WriterPending pl s) :
    Inv pl fresh (step pl fresh s i) := by
  have hkp : kp = fresh i := h.generated i kp (by rw [hi]; rfl)
  rcases hpending with ⟨j, kp', hj, hdisk⟩
  simp only [step, hi]
  apply inv_update h
  · by_cases hji : j = i
    · rw [hji, hi] at hj
      rw [← Phase.publicWritten.inj hj] at hdisk
      refine Or.inr (Or.inr ⟨i, ?_⟩)
      rw [setPhase_disk, writeRSAKey, ← hkp, hdisk]
    · refine Or.inr (Or.inl ⟨j, kp', ?_, hdisk⟩)
      exact (setPhase_phase_of_ne _ _ hji).trans hj
  · exact id
  · intro _
    rw [hdisk]
    exact Option.some_ne_none _
  · intro kp'' hgen
    exact (Option.some.inj hgen).symm.trans hkp
  · intro kp'' hloaded
    contradiction

/-- A phase that no pair has been generated in. -/
theorem inv_check (h : Inv pl fresh s) (hi : ∀ kp, s.phase i ≠ .publicWritten kp)
    (hsaw : p.SawPublic → s.disk.x509 ≠ none) (hgen : p.generated? = none)
    (hloaded : ∀ kp, p ≠ .loaded kp) : Inv pl fresh (s.setPhase i p) := by
  apply inv_setPhase h hi hsaw
  · intro kp hkp
    rw [hgen] at hkp
    contradiction
  · intro kp hkp
    exact absurd hkp (hloaded kp)

/-- A read of `rsa.pk8` at the right time loads the pair of the two files. -/
theorem inv_readPrivate (hkf : P.KeyFactoryRebuilds) {publicKey : P.PublicKey}
    (h : Inv pl fresh s) (hi : s.phase i = .publicRead publicKey)
    (hdisk : s.disk.x509 = some (publicFile pl publicKey)) (hdone : ¬ WriterPending pl s) :
    Inv pl fresh (step pl fresh s i) := by
  have hstored : ∃ j, s.disk = writeRSAKey pl (fresh j) := by
    rcases h.files with hempty | hpending | hstored
    · rw [hempty] at hdisk
      contradiction
    · exact absurd hpending hdone
    · exact hstored
  rcases hstored with ⟨j, hj⟩
  have hpublic : publicKey = (fresh j).publicKey := by
    rw [hj] at hdisk
    exact (publicFile_inj hkf (Option.some.inj hdisk)).symm
  have hpk8 : s.disk.pk8 = some (privateFile pl (fresh j).privateKey) := by
    rw [hj]
    rfl
  simp only [step, hi, hpk8, readFile, Option.elim_some, ok_bind,
    readPrivateKey_privateFile hkf, Phase.ofResult]
  apply inv_setPhase h
  · intro kp hkp
    rw [hi] at hkp
    contradiction
  · intro _
    rw [hdisk]
    exact Option.some_ne_none _
  · intro kp hgen
    contradiction
  · intro kp hloaded
    refine ⟨j, ?_⟩
    rw [← Phase.loaded.inj hloaded, hpublic]

/-- A step that respects the order preserves the invariant. -/
theorem inv_step (hkf : P.KeyFactoryRebuilds) (h : Inv pl fresh s) (hok : Orderly pl s i) :
    Inv pl fresh (step pl fresh s i) := by
  unfold Orderly at hok
  cases hi : s.phase i with
  | start =>
      simp only [step, hi]
      apply inv_check h (by simp [hi])
      · intro hsaw hnone
        simp [hnone, Phase.SawPublic] at hsaw
      · split <;> rfl
      · intro kp
        split <;> simp
  | publicExists =>
      have hx := h.sawPublic i (by rw [hi]; trivial)
      simp only [step, hi]
      apply inv_check h (by simp [hi]) (fun _ => hx)
      · split <;> rfl
      · intro kp
        split <;> simp
  | bothExist =>
      have hx := h.sawPublic i (by rw [hi]; trivial)
      simp only [step, hi]
      cases hread : readFile s.disk.x509 >>= readPublickey pl with
      | error e => exact inv_check h (by simp [hi]) (fun _ => hx) rfl (by simp [Phase.ofResult])
      | ok publicKey =>
          exact inv_check h (by simp [hi]) (fun _ => hx) rfl (by simp [Phase.ofResult])
  | publicRead publicKey =>
      rw [hi] at hok
      exact inv_readPrivate hkf h hi hok.1 hok.2
  | missing =>
      simp only [step, hi]
      apply inv_setPhase h (by simp [hi])
      · intro hsaw
        exact hsaw.elim
      · intro kp hgen
        exact (Option.some.inj hgen).symm
      · intro kp hloaded
        contradiction
  | generated kp => exact inv_writePublic h hi
  | publicWritten kp =>
      rw [hi] at hok
      exact inv_writePrivate h hi hok
  | loaded kp =>
      simp only [step, hi]
      exact h
  | wrote kp =>
      simp only [step, hi]
      exact h
  | failed e =>
      simp only [step, hi]
      exact h

end Preservation

/-! ## Runs -/

/-- The invariant gives agreement. -/
theorem agreement_of_inv {pl : Platform} {fresh : ι → KeyPair P} {s : Config P ι}
    (h : Inv pl fresh s) : Agreement pl fresh s where
  files hne hall := by
    rcases h.files with hempty | ⟨j, kp, hj, _⟩ | hstored
    · rcases hne with ⟨i⟩
      have hfin := hall i
      have hsaw : (s.phase i).SawPublic := by
        cases hi : s.phase i <;> rw [hi] at hfin <;> trivial
      have hx := h.sawPublic i hsaw
      rw [hempty] at hx
      exact absurd rfl hx
    · have hfin := hall j
      rw [hj] at hfin
      exact hfin.elim
    · exact hstored
  loaded := h.loaded

/-- In every state of a run from a directory without key files, of any number of
constructions in any interleaving, that writes `rsa.pk8` only while the writer of
`rsa.x509` is pending and reads it only after that writer is done and before `rsa.x509`
changes, the key files agree and what was loaded from them is a generated pair. -/
theorem agreement_of_run [DecidableEq ι] (hkf : P.KeyFactoryRebuilds) (pl : Platform)
    (fresh : ι → KeyPair P) (schedule : List ι)
    (h : Meets (step pl fresh) (Orderly pl) (initial P ι) schedule) (pre post : List ι)
    (hpre : schedule = pre ++ post) :
    Agreement pl fresh (run (step pl fresh) (initial P ι) pre) := by
  rw [hpre] at h
  apply agreement_of_inv
  apply h.left.invariant
  · intro s i hinv hok
    exact inv_step hkf hinv hok
  · exact inv_initial pl fresh

/-- A first write to `rsa.pk8` that comes after the writer of `rsa.x509` is done leaves
halves of two pairs in the key files. -/
theorem mismatch_of_late_write [DecidableEq ι] {pl : Platform} {fresh : ι → KeyPair P}
    {s : Config P ι} {i : ι} {kp : KeyPair P} (h : Inv pl fresh s)
    (hi : s.phase i = .publicWritten kp) (hlate : ¬ WriterPending pl s) :
    ∃ j, j ≠ i ∧ (step pl fresh s i).disk =
      ⟨some (publicFile pl (fresh j).publicKey), some (privateFile pl (fresh i).privateKey)⟩ := by
  have hkp : kp = fresh i := h.generated i kp (by rw [hi]; rfl)
  rcases h.files with hempty | hpending | ⟨j, hj⟩
  · have hx := h.sawPublic i (by rw [hi]; trivial)
    rw [hempty] at hx
    exact absurd rfl hx
  · exact absurd hpending hlate
  · refine ⟨j, ?_, ?_⟩
    · intro hji
      apply hlate
      refine ⟨i, kp, hi, ?_⟩
      rw [hj, hji, hkp]
      rfl
    · simp only [step, hi, setPhase_disk]
      rw [hj, hkp]
      rfl

/-- Two constructions, each with a pair of its own. -/
def twoPairs (second : Bool) : KeyPair transparent :=
  if second then transparentPair 2 else transparentPair 1

/-- Both constructions find no files; the second writes `rsa.x509` before the first has
written `rsa.pk8`, and `rsa.pk8` last. -/
theorem agreement_of_run_two :
    Agreement ⟨utf8, .lf⟩ twoPairs (run (step ⟨utf8, .lf⟩ twoPairs) (initial transparent Bool)
      [false, false, true, true, false, true, false, true]) := by
  apply agreement_of_run transparent_keyFactoryRebuilds _ _ _ _ _ [] (List.append_nil _).symm
  simp [Meets, Orderly, WriterPending, step, initial, emptyDisk, Config.setPhase]

/-- Both constructions find no files; the first writes `rsa.x509` before and `rsa.pk8`
after the second writes both. -/
theorem not_agreement_both_generate :
    ¬ Agreement ⟨utf8, .lf⟩ twoPairs (run (step ⟨utf8, .lf⟩ twoPairs) (initial transparent Bool)
      [false, false, true, true, false, true, true, false]) := by
  have hdisk : (run (step ⟨utf8, .lf⟩ twoPairs) (initial transparent Bool)
      [false, false, true, true, false, true, true, false]).disk =
      ⟨some (publicFile ⟨utf8, .lf⟩ (twoPairs true).publicKey),
        some (privateFile ⟨utf8, .lf⟩ (twoPairs false).privateKey)⟩ := by
    simp [step, initial, emptyDisk, Config.setPhase]
  intro h
  rcases h.files ⟨false⟩ (by intro i; cases i <;> exact trivial) with ⟨j, hj⟩
  rw [hdisk] at hj
  cases j with
  | false =>
      have hpublic : (2 : UInt8) = 1 :=
        publicFile_inj transparent_keyFactoryRebuilds (Option.some.inj (Disk.mk.inj hj).1)
      contradiction
  | true =>
      have hprivate : (1 : UInt8) = 2 :=
        privateFile_inj transparent_keyFactoryRebuilds (Option.some.inj (Disk.mk.inj hj).2)
      contradiction

end Mockbank
