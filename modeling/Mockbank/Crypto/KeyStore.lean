import Mockbank.Crypto.KeyCut
import Mockbank.Transition.Run

/-!
# Constructing a `Cryptor`

`new Cryptor()` loads its key pair from the two key files when both exist, and
generates a pair and writes the files otherwise.  Constructions follow one another
here; some of them are cut off while they write.

Main results:

- Theorem `construct_stored`: the files of a pair are loaded as that pair.
- Theorem `key_continuity`: from at most one file on, the first construction decides
  the pair of all.
- Theorem `recovery_iff`: which interruptions the constructions recover from.
- Theorem `construct_of_complete`: with both files there, in whatever layout, a construction
  loads them or throws.
-/

namespace Mockbank

open Jvm Search Transition

variable {P : Provider}

/-- The content of the two key files, where they exist. -/
structure Disk where
  x509 : Option (List UInt8)
  pk8 : Option (List UInt8)

/-- A directory without key files. -/
def emptyDisk : Disk where
  x509 := none
  pk8 := none

/-- The file of a public key. -/
def publicFile (pl : Platform) (k : P.PublicKey) : List UInt8 :=
  pemFile P.pemWriter pl publicKind (P.publicEncoded k)

/-- The file of a private key. -/
def privateFile (pl : Platform) (k : P.PrivateKey) : List UInt8 :=
  pemFile P.pemWriter pl privateKind (P.privateEncoded k)

/-- `Cryptor.writeRSAKey`: both files are created or truncated, and written. -/
def writeRSAKey (pl : Platform) (keyPair : KeyPair P) : Disk where
  x509 := some (publicFile pl keyPair.publicKey)
  pk8 := some (privateFile pl keyPair.privateKey)

/-- `new Cryptor()`; `fresh` is the pair that `generateRSAKey` would return. -/
def construct (pl : Platform) (fresh : KeyPair P) (disk : Disk) :
    Except JavaException (Cryptor P × Disk) :=
  match disk.x509, disk.pk8 with
  | some pub, some priv => do
      let publicKey ← readPublickey pl pub
      let privateKey ← readPrivateKey pl priv
      return (⟨⟨publicKey, privateKey⟩⟩, disk)
  | _, _ => .ok (⟨fresh⟩, writeRSAKey pl fresh)

/-! ## One construction -/

/-- The public file of a key is read as that key. -/
theorem readPublickey_publicFile (hkf : P.KeyFactoryRebuilds) (pl : Platform)
    (k : P.PublicKey) : readPublickey pl (publicFile pl k) = .ok k := by
  rw [readPublickey, publicFile, readKeyBytes_pemFile, ok_bind]
  exact hkf.generatePublic_encoded k

/-- The private file of a key is read as that key. -/
theorem readPrivateKey_privateFile (hkf : P.KeyFactoryRebuilds) (pl : Platform)
    (k : P.PrivateKey) : readPrivateKey pl (privateFile pl k) = .ok k := by
  rw [readPrivateKey, privateFile, readKeyBytes_pemFile, ok_bind]
  exact hkf.generatePrivate_encoded k

/-- The public file tells the key. -/
theorem publicFile_inj (hkf : P.KeyFactoryRebuilds) {pl : Platform} {k k' : P.PublicKey}
    (h : publicFile pl k = publicFile pl k') : k = k' := by
  have hread := readPublickey_publicFile hkf pl k
  rw [h, readPublickey_publicFile hkf] at hread
  exact (Except.ok.inj hread).symm

/-- The private file tells the key. -/
theorem privateFile_inj (hkf : P.KeyFactoryRebuilds) {pl : Platform} {k k' : P.PrivateKey}
    (h : privateFile pl k = privateFile pl k') : k = k' := by
  have hread := readPrivateKey_privateFile hkf pl k
  rw [h, readPrivateKey_privateFile hkf] at hread
  exact (Except.ok.inj hread).symm

/-- A construction with a file missing generates and writes. -/
theorem construct_fresh {pl : Platform} {fresh : KeyPair P} {disk : Disk}
    (h : disk.x509 = none ∨ disk.pk8 = none) :
    construct pl fresh disk = .ok (⟨fresh⟩, writeRSAKey pl fresh) := by
  rw [construct]
  split
  next pub priv hpub hpriv =>
    rw [hpub, hpriv] at h
    simp at h
  next => rfl

/-- The files of two keys are loaded as these keys and stay as they are, whether or not
the keys match. -/
theorem construct_halves (hkf : P.KeyFactoryRebuilds) (pl : Platform) (fresh : KeyPair P)
    (k : P.PublicKey) (k' : P.PrivateKey) :
    construct pl fresh ⟨some (publicFile pl k), some (privateFile pl k')⟩ =
      .ok (⟨⟨k, k'⟩⟩, ⟨some (publicFile pl k), some (privateFile pl k')⟩) := by
  simp only [construct, readPublickey_publicFile hkf, readPrivateKey_privateFile hkf, ok_bind]
  rfl

/-- The files of a pair are loaded as that pair and stay as they are. -/
theorem construct_stored (hkf : P.KeyFactoryRebuilds) (pl : Platform)
    (fresh stored : KeyPair P) :
    construct pl fresh (writeRSAKey pl stored) = .ok (⟨stored⟩, writeRSAKey pl stored) :=
  construct_halves hkf pl fresh stored.publicKey stored.privateKey

/-! ## Constructions in sequence -/

/-- Constructions that complete one after the other, each with the pair that it would
generate: what they return and the files they leave. -/
def constructAll (pl : Platform) :
    List (KeyPair P) → Disk → Except JavaException (List (Cryptor P × Disk))
  | [], _ => .ok []
  | fresh :: rest, disk => do
      let constructed ← construct pl fresh disk
      let later ← constructAll pl rest constructed.2
      return constructed :: later

/-- Once the files of a pair are there, every construction holds that pair. -/
theorem constructAll_stored (hkf : P.KeyFactoryRebuilds) (pl : Platform) (stored : KeyPair P)
    (rest : List (KeyPair P)) :
    constructAll pl rest (writeRSAKey pl stored) =
      .ok (List.replicate rest.length (⟨stored⟩, writeRSAKey pl stored)) := by
  induction rest with
  | nil => rfl
  | cons fresh rest ih =>
      rw [constructAll, construct_stored hkf, ok_bind, ih]
      rfl

/-- The first construction decides the pair of all. -/
theorem constructAll_fresh (hkf : P.KeyFactoryRebuilds) (pl : Platform) {disk : Disk}
    (hdisk : disk.x509 = none ∨ disk.pk8 = none) (first : KeyPair P)
    (rest : List (KeyPair P)) :
    constructAll pl (first :: rest) disk =
      .ok (List.replicate (rest.length + 1) (⟨first⟩, writeRSAKey pl first)) := by
  rw [constructAll, construct_fresh hdisk, ok_bind, constructAll_stored hkf]
  rfl

/-- From a directory with at most one key file, whatever its content, the first of any
number of constructions generates and writes its pair; the files stay as it wrote them,
every later construction holds that pair, and what one request encrypts every later
request decrypts. -/
theorem key_continuity (hkf : P.KeyFactoryRebuilds) (haes : P.AesInverts)
    (sep : LineSeparator) (disk : Disk) (hdisk : disk.x509 = none ∨ disk.pk8 = none)
    (first : KeyPair P) (hrsa : first.RsaInverts) (rest : List (KeyPair P)) :
    ∃ results, constructAll ⟨utf8, sep⟩ (first :: rest) disk = .ok results ∧
      results.length = rest.length + 1 ∧
      (∀ r ∈ results, r.1.keyPair = first ∧ r.2 = writeRSAKey ⟨utf8, sep⟩ first) ∧
      ∀ (i j : Nat) (c c' : Cryptor P) (d d' : Disk), i < j →
        results[i]? = some (c, d) → results[j]? = some (c', d') →
        ∀ draw s, utf8.toCharset.Lossless s →
          (c.encrypt utf8.toCharset draw s >>= c'.decrypt utf8.toCharset) = .ok s := by
  refine ⟨_, constructAll_fresh hkf _ hdisk first rest, List.length_replicate, ?_, ?_⟩
  · intro r hr
    rw [List.eq_of_mem_replicate hr]
    exact ⟨rfl, rfl⟩
  · intro i j c c' d d' _ hi hj draw s hs
    have hc := List.eq_of_mem_replicate (List.mem_of_getElem? hi)
    have hc' := List.eq_of_mem_replicate (List.mem_of_getElem? hj)
    rw [(Prod.mk.inj hc).1, (Prod.mk.inj hc').1]
    rw [encrypt_bind_decrypt (c := ⟨first⟩) utf8.toCharset haes hrsa]
    exact congrArg Except.ok hs

/-- Three constructions in a directory with a damaged public key file. -/
theorem key_continuity_three :
    ∃ results, constructAll ⟨utf8, .lf⟩ [transparentPair 1, transparentPair 2, transparentPair 3]
        ⟨some [0xFF], none⟩ = .ok results ∧
      results.length = 3 ∧
      (∀ r ∈ results, r.1.keyPair = transparentPair 1 ∧
        r.2 = writeRSAKey ⟨utf8, .lf⟩ (transparentPair 1)) ∧
      ∀ (i j : Nat) (c c' : Cryptor transparent) (d d' : Disk), i < j →
        results[i]? = some (c, d) → results[j]? = some (c', d') →
        ∀ draw s, utf8.toCharset.Lossless s →
          (c.encrypt utf8.toCharset draw s >>= c'.decrypt utf8.toCharset) = .ok s :=
  key_continuity transparent_keyFactoryRebuilds transparent_aesInverts .lf ⟨some [0xFF], none⟩
    (Or.inr rfl) (transparentPair 1) (transparent_rsaInverts 1)
    [transparentPair 2, transparentPair 3]

/-! ## Interrupted constructions -/

/-- Where the writing of the files breaks off: before the first file is created, in the
public or in the private file after so many bytes. -/
inductive Cut where
  | beforeFiles
  | inX509 (n : Nat)
  | inPk8 (n : Nat)
deriving DecidableEq

/-- A construction: the pair that it would generate and where it breaks off, if it
writes and does not complete. -/
structure Attempt (P : Provider) where
  fresh : KeyPair P
  cut : Option Cut

/-- The files that `writeRSAKey` leaves when it breaks off. -/
def writeRSAKeyCut (pl : Platform) (keyPair : KeyPair P) (disk : Disk) : Cut → Disk
  | .beforeFiles => disk
  | .inX509 n => { disk with x509 := some ((publicFile pl keyPair.publicKey).take n) }
  | .inPk8 n =>
      { x509 := some (publicFile pl keyPair.publicKey)
        pk8 := some ((privateFile pl keyPair.privateKey).take n) }

/-- A key file is missing, so that a construction generates. -/
def Disk.Incomplete (disk : Disk) : Prop :=
  disk.x509 = none ∨ disk.pk8 = none

instance (disk : Disk) : Decidable disk.Incomplete :=
  inferInstanceAs (Decidable (_ ∨ _))

/-- The files after a construction.  With both files there it only reads them. -/
def attempt (pl : Platform) (disk : Disk) (a : Attempt P) : Disk :=
  if disk.Incomplete then
    match a.cut with
    | none => writeRSAKey pl a.fresh
    | some cut => writeRSAKeyCut pl a.fresh disk cut
  else disk

/-- An attempt that is not cut off leaves the files that `construct` leaves. -/
theorem construct_eq_attempt {pl : Platform} {fresh : KeyPair P} {disk disk' : Disk}
    {c : Cryptor P} (h : construct pl fresh disk = .ok (c, disk')) :
    disk' = attempt pl disk ⟨fresh, none⟩ := by
  by_cases hdisk : disk.Incomplete
  · rw [construct_fresh hdisk] at h
    rw [attempt, if_pos hdisk]
    exact (Prod.mk.inj (Except.ok.inj h)).2.symm
  · rw [attempt, if_neg hdisk]
    rw [construct] at h
    split at h
    next =>
      rcases bind_eq_ok.mp h with ⟨_, _, h⟩
      rcases bind_eq_ok.mp h with ⟨_, _, h⟩
      exact (Prod.mk.inj (Except.ok.inj h)).2.symm
    next hnone =>
      cases hx : disk.x509 with
      | none => exact absurd (Or.inl hx) hdisk
      | some pub =>
          cases hp : disk.pk8 with
          | none => exact absurd (Or.inr hp) hdisk
          | some priv => exact absurd hp (hnone pub priv hx)

/-- The first `n` bytes of the private file hold the whole key: all characters of its
data, the padding complete or wholly missing, and the closing boundary whole or not
begun. -/
def HoldsPrivateKey (pl : Platform) (k : P.PrivateKey) (n : Nat) : Prop :=
  HoldsKey privateKind (P.privateEncoded k)
    (((pemText P.pemWriter pl.lineSeparator privateKind.type
      (P.privateEncoded k)).take n).filter inLine)

/-- An attempt that does not break off within the private key. -/
def Attempt.Harmless (pl : Platform) (a : Attempt P) : Prop :=
  ∀ n, a.cut = some (.inPk8 n) → HoldsPrivateKey pl a.fresh.privateKey n

/-- Harmless in a state in which it writes at all. -/
def HarmlessIn (pl : Platform) (disk : Disk) (a : Attempt P) : Prop :=
  disk.Incomplete → a.Harmless pl

/-- The next construction will generate, or find the files of a matched pair. -/
def Recoverable (pl : Platform) (P : Provider) (disk : Disk) : Prop :=
  disk.pk8 = none ∨ ∃ (kp : KeyPair P) (priv : List UInt8), kp.RsaInverts ∧
    disk = ⟨some (publicFile pl kp.publicKey), some priv⟩ ∧
    readPrivateKey pl priv = .ok kp.privateKey

/-- The private key file is there and cannot be read. -/
def Stuck (pl : Platform) (P : Provider) (disk : Disk) : Prop :=
  ∃ pub priv, disk = ⟨some pub, some priv⟩ ∧
    ∀ k : P.PrivateKey, readPrivateKey pl priv ≠ .ok k

/-- A cut-off private key file is read as its key when it holds it, and not at all
otherwise. -/
theorem readPrivateKey_take (hkf : P.KeyFactoryRebuilds) (hstrict : P.KeyFactoryStrict)
    (pl : Platform) (k : P.PrivateKey) (n : Nat) :
    (HoldsPrivateKey pl k n → readPrivateKey pl ((privateFile pl k).take n) = .ok k) ∧
      (¬ HoldsPrivateKey pl k n →
        ∀ k' : P.PrivateKey, readPrivateKey pl ((privateFile pl k).take n) ≠ .ok k') := by
  obtain ⟨hwhole, hstart⟩ :=
    readKeyBytes_take_pemFile P.pemWriter pl privateKind
      (hstrict.privateEncoded_ne_nil k) n
  constructor
  · intro hholds
    rw [readPrivateKey, privateFile, hwhole.mpr hholds, ok_bind]
    exact hkf.generatePrivate_encoded k
  · intro hnot k' h
    rw [readPrivateKey, privateFile, bind_eq_ok] at h
    rcases h with ⟨ds, hds, hgen⟩
    have heq := hstrict.eq_of_generatePrivate (hstart ds hds) hgen
    rw [heq] at hds
    exact hnot (hwhole.mp hds)

/-- An attempt leaves a recoverable directory recoverable, unless it breaks off within
the private key. -/
theorem recoverable_attempt (hkf : P.KeyFactoryRebuilds) (hstrict : P.KeyFactoryStrict)
    {pl : Platform} {disk : Disk} {a : Attempt P} (hrsa : a.fresh.RsaInverts)
    (h : Recoverable pl P disk) (ha : HarmlessIn pl disk a) :
    Recoverable pl P (attempt pl disk a) := by
  rcases h with hnone | ⟨kp, priv, hkp, rfl, hread⟩
  · have hdisk : disk.Incomplete := Or.inr hnone
    rw [attempt, if_pos hdisk]
    cases hcut : a.cut with
    | none => exact Or.inr ⟨a.fresh, _, hrsa, rfl, readPrivateKey_privateFile hkf pl _⟩
    | some cut =>
        cases cut with
        | beforeFiles => exact Or.inl hnone
        | inX509 n => exact Or.inl hnone
        | inPk8 n =>
            exact Or.inr ⟨a.fresh, _, hrsa, rfl,
              (readPrivateKey_take hkf hstrict pl _ n).1 (ha hdisk n hcut)⟩
  · have hdisk : ¬ Disk.Incomplete ⟨some (publicFile pl kp.publicKey), some priv⟩ := by
      simp [Disk.Incomplete]
    rw [attempt, if_neg hdisk]
    exact Or.inr ⟨kp, priv, hkp, rfl, hread⟩

/-- An attempt that breaks off within the private key leaves the directory stuck. -/
theorem stuck_attempt (hkf : P.KeyFactoryRebuilds) (hstrict : P.KeyFactoryStrict)
    {pl : Platform} {disk : Disk} {a : Attempt P} (ha : ¬ HarmlessIn pl disk a) :
    Stuck pl P (attempt pl disk a) := by
  rw [HarmlessIn, Classical.not_imp, Attempt.Harmless] at ha
  rcases ha with ⟨hdisk, ha⟩
  simp only [not_forall] at ha
  rcases ha with ⟨n, hcut, hnot⟩
  rw [attempt, if_pos hdisk, hcut]
  exact ⟨_, _, rfl, (readPrivateKey_take hkf hstrict pl _ n).2 hnot⟩

/-- A stuck directory stays stuck. -/
theorem stuck_attempt_of_stuck {pl : Platform} {disk : Disk} (a : Attempt P)
    (h : Stuck pl P disk) : Stuck pl P (attempt pl disk a) := by
  rcases h with ⟨pub, priv, rfl, hread⟩
  have hdisk : ¬ Disk.Incomplete ⟨some pub, some priv⟩ := by
    simp [Disk.Incomplete]
  rw [attempt, if_neg hdisk]
  exact ⟨pub, priv, rfl, hread⟩

/-- From a recoverable directory a construction completes with a matched pair. -/
theorem construct_of_recoverable (hkf : P.KeyFactoryRebuilds) {pl : Platform} {disk : Disk}
    {fresh : KeyPair P} (hrsa : fresh.RsaInverts) (h : Recoverable pl P disk) :
    ∃ c d, construct pl fresh disk = .ok (c, d) ∧ c.keyPair.RsaInverts := by
  rcases h with hnone | ⟨kp, priv, hkp, rfl, hread⟩
  · exact ⟨_, _, construct_fresh (Or.inr hnone), hrsa⟩
  · refine ⟨⟨kp⟩, ⟨some (publicFile pl kp.publicKey), some priv⟩, ?_, hkp⟩
    simp only [construct, readPublickey_publicFile hkf, hread, ok_bind]
    rfl

/-- From a stuck directory no construction completes. -/
theorem construct_of_stuck {pl : Platform} {disk : Disk} {fresh : KeyPair P}
    (h : Stuck pl P disk) (c : Cryptor P) (d : Disk) :
    construct pl fresh disk ≠ .ok (c, d) := by
  rcases h with ⟨pub, priv, rfl, hread⟩
  intro hok
  simp only [construct, bind_eq_ok] at hok
  rcases hok with ⟨_, _, k, hk, _⟩
  exact hread k hk

/-- Harmless attempts keep the directory recoverable. -/
theorem recoverable_run (hkf : P.KeyFactoryRebuilds) (hstrict : P.KeyFactoryStrict)
    {pl : Platform} {attempts : List (Attempt P)} (hrsa : ∀ a ∈ attempts, a.fresh.RsaInverts)
    (h : Meets (attempt pl) (HarmlessIn pl) emptyDisk attempts) :
    Recoverable pl P (run (attempt pl) emptyDisk attempts) := by
  have hmeets : Meets (attempt pl) (fun disk a => a.fresh.RsaInverts ∧ HarmlessIn pl disk a)
      emptyDisk attempts := by
    rw [meets_iff] at h ⊢
    intro pre a post heq
    exact ⟨hrsa a (by rw [heq]; simp), h pre a post heq⟩
  apply hmeets.invariant
  · intro disk a hdisk ha
    exact recoverable_attempt hkf hstrict ha.1 hdisk ha.2
  · exact Or.inl rfl

/-- After any sequence of constructions from a directory without key files, each
complete or broken off somewhere, an uninterrupted construction completes with a
matched pair exactly when none of them broke off within the private key of a pair that
it was writing. -/
theorem recovery_iff (hkf : P.KeyFactoryRebuilds) (hstrict : P.KeyFactoryStrict)
    (pl : Platform) (attempts : List (Attempt P)) (fresh : KeyPair P)
    (hrsa : ∀ a ∈ attempts, a.fresh.RsaInverts) (hfresh : fresh.RsaInverts) :
    (∃ c d, construct pl fresh (run (attempt pl) emptyDisk attempts) = .ok (c, d) ∧
        c.keyPair.RsaInverts) ↔
      ∀ pre a post, attempts = pre ++ a :: post →
        (run (attempt pl) emptyDisk pre).Incomplete → a.Harmless pl := by
  have hsplit : Meets (attempt pl) (HarmlessIn pl) emptyDisk attempts ↔
      ∀ pre a post, attempts = pre ++ a :: post →
        HarmlessIn pl (run (attempt pl) emptyDisk pre) a := meets_iff
  refine Iff.trans ?_ hsplit
  constructor
  · rintro ⟨c, d, hok, _⟩
    by_contra hnot
    have hstuck : Stuck pl P (run (attempt pl) emptyDisk attempts) :=
      invariant_of_not_meets hnot (fun _ _ => stuck_attempt hkf hstrict)
        fun _ a => stuck_attempt_of_stuck a
    exact construct_of_stuck hstuck c d hok
  · intro h
    exact construct_of_recoverable hkf hfresh (recoverable_run hkf hstrict hrsa h)

/-- A construction breaks off in the public file, the next before the files and the third
completes; of the fourth nothing is written, so that its break is harmless. -/
def fourAttempts : List (Attempt transparent) :=
  [⟨transparentPair 1, some (.inX509 3)⟩, ⟨transparentPair 2, some .beforeFiles⟩,
    ⟨transparentPair 3, none⟩, ⟨transparentPair 4, some (.inPk8 0)⟩]

theorem fourAttempts_harmless (pl : Platform) :
    Meets (attempt pl) (HarmlessIn pl) emptyDisk fourAttempts := by
  refine ⟨?_, ?_, ?_, ?_, trivial⟩
  · intro _ n h
    cases h
  · intro _ n h
    cases h
  · intro _ n h
    cases h
  · -- the third construction has left both files
    intro hdisk
    exact absurd hdisk (by simp [attempt, writeRSAKeyCut, writeRSAKey, emptyDisk, Disk.Incomplete])

/-- The four attempts are recovered from. -/
theorem recovery_iff_four :
    ∃ c d, construct ⟨utf8, .lf⟩ (transparentPair 5)
      (run (attempt ⟨utf8, .lf⟩) emptyDisk fourAttempts) = .ok (c, d) ∧
        c.keyPair.RsaInverts := by
  have hrsa : ∀ a ∈ fourAttempts, a.fresh.RsaInverts := by
    simp [fourAttempts, transparent_rsaInverts]
  exact (recovery_iff transparent_keyFactoryRebuilds transparent_keyFactoryStrict ⟨utf8, .lf⟩
    fourAttempts (transparentPair 5) hrsa (transparent_rsaInverts 5)).mpr
      (meets_iff.mp (fourAttempts_harmless ⟨utf8, .lf⟩))

/-- A construction that dies right after `rsa.pk8` was created is not recovered from. -/
theorem not_recovery_empty_pk8 :
    ¬ ∃ c d, construct ⟨utf8, .lf⟩ (transparentPair 2)
        (run (attempt ⟨utf8, .lf⟩) emptyDisk [⟨transparentPair 1, some (.inPk8 0)⟩]) =
          .ok (c, d) ∧ c.keyPair.RsaInverts := by
  have hempty : ¬ HoldsPrivateKey (P := transparent) ⟨utf8, .lf⟩
      (transparentPair 1).privateKey 0 := by
    have hbegin := List.append_ne_nil_of_left_ne_nil privateKind.begin_ne_nil
    rw [HoldsPrivateKey, List.take_zero, List.filter_nil, HoldsKey]
    rintro (h | h | h) <;> exact absurd h.symm (hbegin _)
  have hharm : ¬ HarmlessIn ⟨utf8, .lf⟩ emptyDisk
      (⟨transparentPair 1, some (.inPk8 0)⟩ : Attempt transparent) :=
    fun h => hempty (h (Or.inl rfl) 0 rfl)
  rintro ⟨c, d, hok, _⟩
  exact construct_of_stuck (stuck_attempt transparent_keyFactoryRebuilds
    transparent_keyFactoryStrict hharm) c d hok

/-! ## The pair that the key files hold -/

/-- The key files are loaded as a pair, in whatever layout they are. -/
def HoldsPair (pl : Platform) (disk : Disk) (keyPair : KeyPair P) : Prop :=
  ∃ pub priv, disk = ⟨some pub, some priv⟩ ∧ readPublickey pl pub = .ok keyPair.publicKey ∧
    readPrivateKey pl priv = .ok keyPair.privateKey

theorem HoldsPair.complete {pl : Platform} {disk : Disk} {keyPair : KeyPair P}
    (h : HoldsPair pl disk keyPair) : ¬ disk.Incomplete := by
  rcases h with ⟨pub, priv, rfl, _⟩
  simp [Disk.Incomplete]

/-- Key files that are loaded as a pair stay as they are. -/
theorem HoldsPair.construct {pl : Platform} {disk : Disk} {keyPair : KeyPair P}
    (h : HoldsPair pl disk keyPair) (fresh : KeyPair P) :
    construct pl fresh disk = .ok (⟨keyPair⟩, disk) := by
  rcases h with ⟨pub, priv, rfl, hpub, hpriv⟩
  simp only [Mockbank.construct, hpub, hpriv, ok_bind]
  rfl

/-- What a generating construction writes is loaded as the generated pair. -/
theorem holdsPair_writeRSAKey (hkf : P.KeyFactoryRebuilds) (pl : Platform)
    (keyPair : KeyPair P) : HoldsPair pl (writeRSAKey pl keyPair) keyPair :=
  ⟨_, _, rfl, readPublickey_publicFile hkf pl _, readPrivateKey_privateFile hkf pl _⟩

/-- With both files there, a construction loads them or throws; which of the two does not
depend on the pair that it would generate. -/
theorem construct_of_complete (pl : Platform) {disk : Disk} (h : ¬ disk.Incomplete) :
    (∃ keyPair : KeyPair P, HoldsPair pl disk keyPair) ∨
      ∃ e, ∀ fresh : KeyPair P, construct pl fresh disk = .error e := by
  rcases disk with ⟨_ | pub, _ | priv⟩
  · exact absurd (Or.inl rfl) h
  · exact absurd (Or.inl rfl) h
  · exact absurd (Or.inr rfl) h
  · cases hpub : (readPublickey pl pub : Except JavaException P.PublicKey) with
    | error e =>
        refine Or.inr ⟨e, ?_⟩
        intro fresh
        simp only [construct, hpub, error_bind]
    | ok publicKey =>
        cases hpriv : (readPrivateKey pl priv : Except JavaException P.PrivateKey) with
        | error e =>
            refine Or.inr ⟨e, ?_⟩
            intro fresh
            simp only [construct, hpub, hpriv, ok_bind, error_bind]
        | ok privateKey => exact Or.inl ⟨⟨publicKey, privateKey⟩, pub, priv, rfl, hpub, hpriv⟩

end Mockbank
