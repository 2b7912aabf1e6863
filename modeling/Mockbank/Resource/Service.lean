import Mockbank.Crypto.KeyStore
import Mockbank.Resource.XmlEncryption

/-!
# The encryption service over whole runs

Every request constructs its own `XMLEncryptionResource`, which loads the key files or
generates them; a construction may die while it writes.  This file follows the answers to
any sequence of requests that are served one after another, and of deaths; for requests that
overlap see `Mockbank.Crypto.Concurrent`.

Main results:

- Theorem `matched_nextDisk`: key files that fit stay key files that fit.
- Theorem `first_request_decides`: a run of requests in sequence answers as one resource with
  one key pair answers, or refuses every request.
- Theorem `answered_is_durable`: from key files that fit, what has been answered is decrypted
  in every later request.
-/

namespace Mockbank

open Jvm Transition

variable {P : Provider}

/-! ## Requests and deaths -/

/-- An operation of the resource with the body of its request; `draw` is what an encryption
draws. -/
inductive Operation (P : Provider) where
  | encrypt (draw : Draw P) (body : List UInt8)
  | decrypt (body : List UInt8)

def Operation.perform (pl : Platform) (r : XMLEncryptionResource P) :
    Operation P → Except JavaException (List UInt8)
  | .encrypt draw body => r.encrypt pl draw body
  | .decrypt body => r.decrypt pl body

/-- `new XMLEncryptionResource()`. -/
def XMLEncryptionResource.new (pl : Platform) (fresh : KeyPair P) (disk : Disk) :
    Except JavaException (XMLEncryptionResource P × Disk) := do
  let (cryptor, disk) ← construct pl fresh disk
  return (⟨cryptor⟩, disk)

/-- A request is answered by a resource of its own. -/
def answer (pl : Platform) (fresh : KeyPair P) (operation : Operation P) (disk : Disk) :
    Except JavaException (List UInt8) := do
  let (r, _) ← XMLEncryptionResource.new pl fresh disk
  operation.perform pl r

/-- A request is served from beginning to end, or the process dies while a construction
writes. -/
inductive Event (P : Provider) where
  | request (fresh : KeyPair P) (operation : Operation P)
  | death (fresh : KeyPair P) (cut : Cut)

def Event.fresh : Event P → KeyPair P
  | .request fresh _ => fresh
  | .death fresh _ => fresh

/-- The key files behind an event; a construction that throws has only read them. -/
def nextDisk (pl : Platform) (disk : Disk) : Event P → Disk
  | .request fresh _ =>
      match construct pl fresh disk with
      | .ok (_, disk') => disk'
      | .error _ => disk
  | .death fresh cut => attempt pl disk ⟨fresh, some cut⟩

/-- The answers to the requests of a run. -/
def outcomes (pl : Platform) : Disk → List (Event P) → List (Except JavaException (List UInt8))
  | _, [] => []
  | disk, .request fresh operation :: events =>
      answer pl fresh operation disk ::
        outcomes pl (nextDisk pl disk (.request fresh operation)) events
  | disk, .death fresh cut :: events => outcomes pl (nextDisk pl disk (.death fresh cut)) events

/-- What is asked in a run. -/
def operations : List (Event P) → List (Operation P)
  | [] => []
  | .request _ operation :: events => operation :: operations events
  | .death _ _ :: events => operations events

/-! ## Key files that fit -/

/-- There is no private key file, or both files are there and, if they can be loaded at all,
hold keys that belong together. -/
def Matched (pl : Platform) (P : Provider) (disk : Disk) : Prop :=
  disk.pk8 = none ∨
    (¬ disk.Incomplete ∧ ∀ keyPair : KeyPair P, HoldsPair pl disk keyPair → keyPair.RsaInverts)

/-- With both files there, nothing that happens changes them. -/
theorem nextDisk_of_complete {pl : Platform} {disk : Disk} (h : ¬ disk.Incomplete)
    (event : Event P) : nextDisk pl disk event = disk := by
  cases event with
  | death fresh cut => exact if_neg h
  | request fresh operation =>
      rcases construct_of_complete (P := P) pl h with ⟨keyPair, hpair⟩ | ⟨e, he⟩
      · rw [nextDisk, hpair.construct]
      · rw [nextDisk, he]

/-- A death in the middle of the private key file leaves the pair or nothing to load. -/
theorem inverts_of_inPk8 (hkf : P.KeyFactoryRebuilds) (hstrict : P.KeyFactoryStrict)
    {pl : Platform} {fresh keyPair : KeyPair P} (hrsa : fresh.RsaInverts) {n : Nat}
    (h : HoldsPair pl ⟨some (publicFile pl fresh.publicKey),
      some ((privateFile pl fresh.privateKey).take n)⟩ keyPair) : keyPair.RsaInverts := by
  rcases h with ⟨pub, priv, hdisk, hpub, hpriv⟩
  rw [← Option.some.inj (Disk.mk.inj hdisk).1, readPublickey_publicFile hkf] at hpub
  rw [← Option.some.inj (Disk.mk.inj hdisk).2] at hpriv
  obtain ⟨hwhole, hpart⟩ := readPrivateKey_take hkf hstrict pl fresh.privateKey n
  by_cases hholds : HoldsPrivateKey pl fresh.privateKey n
  · rw [hwhole hholds] at hpriv
    have hpair : fresh = keyPair := by
      cases fresh
      cases keyPair
      rw [KeyPair.mk.injEq]
      exact ⟨Except.ok.inj hpub, Except.ok.inj hpriv⟩
    rwa [← hpair]
  · exact absurd hpriv (hpart hholds _)

/-- Key files that fit stay key files that fit, whatever happens. -/
theorem matched_nextDisk (hkf : P.KeyFactoryRebuilds) (hstrict : P.KeyFactoryStrict)
    {pl : Platform} {disk : Disk} (h : Matched pl P disk) {event : Event P}
    (hrsa : event.fresh.RsaInverts) : Matched pl P (nextDisk pl disk event) := by
  rcases h with hnone | ⟨hcomplete, hpair⟩
  · have hdisk : disk.Incomplete := Or.inr hnone
    cases event with
    | request fresh operation =>
        rw [nextDisk, construct_fresh hdisk]
        refine Or.inr ⟨(holdsPair_writeRSAKey hkf pl fresh).complete, ?_⟩
        intro keyPair hheld
        have hsame := hheld.construct fresh
        rw [(holdsPair_writeRSAKey hkf pl fresh).construct] at hsame
        rwa [← Cryptor.mk.inj (Prod.mk.inj (Except.ok.inj hsame)).1]
    | death fresh cut =>
        rw [nextDisk, attempt, if_pos hdisk]
        cases cut with
        | beforeFiles => exact Or.inl hnone
        | inX509 n => exact Or.inl hnone
        | inPk8 n =>
            refine Or.inr ⟨by simp [writeRSAKeyCut, Disk.Incomplete], ?_⟩
            intro keyPair hheld
            exact inverts_of_inPk8 hkf hstrict hrsa hheld
  · rw [nextDisk_of_complete hcomplete]
    exact Or.inr ⟨hcomplete, hpair⟩

/-! ## Runs -/

/-- Once the key files are loaded as a pair, every request is answered by the resource that
holds it. -/
theorem outcomes_of_holdsPair {pl : Platform} {disk : Disk} {keyPair : KeyPair P}
    (h : HoldsPair pl disk keyPair) (events : List (Event P)) :
    outcomes pl disk events =
      (operations events).map fun operation => operation.perform pl ⟨⟨keyPair⟩⟩ := by
  induction events with
  | nil => rfl
  | cons event events ih =>
      cases event with
      | death fresh cut => rw [outcomes, nextDisk_of_complete h.complete, ih, operations]
      | request fresh operation =>
          rw [outcomes, nextDisk_of_complete h.complete, ih, operations, List.map_cons, answer,
            XMLEncryptionResource.new, h.construct]
          rfl

/-- While the key files cannot be loaded, every request is refused. -/
theorem outcomes_of_refused {pl : Platform} {disk : Disk} {e : JavaException}
    (h : ¬ disk.Incomplete) (he : ∀ fresh : KeyPair P, construct pl fresh disk = .error e)
    (events : List (Event P)) :
    outcomes pl disk events = (operations events).map fun _ => .error e := by
  induction events with
  | nil => rfl
  | cons event events ih =>
      cases event with
      | death fresh cut => rw [outcomes, nextDisk_of_complete h, ih, operations]
      | request fresh operation =>
          rw [outcomes, nextDisk_of_complete h, ih, operations, List.map_cons, answer,
            XMLEncryptionResource.new, he]
          rfl

/-- From key files that fit, the first of the requests in sequence decides about the service.
Either every continuation of the run is answered, from its beginning on, as one resource with
one matched pair answers it, or every continuation is refused with one and the same exception;
no death of the process before or after makes a difference. -/
theorem first_request_decides (hkf : P.KeyFactoryRebuilds) (hstrict : P.KeyFactoryStrict)
    (pl : Platform) (disk : Disk) (hdisk : Matched pl P disk) (events : List (Event P))
    (hrsa : ∀ event ∈ events, event.fresh.RsaInverts) (hrequest : operations events ≠ []) :
    (∃ keyPair : KeyPair P, keyPair.RsaInverts ∧ ∀ more, outcomes pl disk (events ++ more) =
      (operations (events ++ more)).map fun operation => operation.perform pl ⟨⟨keyPair⟩⟩) ∨
    ∃ e, ∀ more, outcomes pl disk (events ++ more) =
      (operations (events ++ more)).map fun _ => .error e := by
  induction events generalizing disk with
  | nil => exact absurd rfl hrequest
  | cons event events ih =>
      by_cases hincomplete : disk.Incomplete
      · cases event with
        | death fresh cut =>
            have hnext := matched_nextDisk hkf hstrict hdisk (hrsa _ List.mem_cons_self)
            simp only [List.cons_append, outcomes, operations]
            exact ih _ hnext (fun event hevent => hrsa event (List.mem_cons_of_mem _ hevent))
              hrequest
        | request fresh operation =>
            refine Or.inl ⟨fresh, hrsa _ List.mem_cons_self, ?_⟩
            intro more
            rw [List.cons_append, outcomes, nextDisk, answer, XMLEncryptionResource.new,
              construct_fresh hincomplete]
            simp only [ok_bind, pure_bind]
            rw [outcomes_of_holdsPair (holdsPair_writeRSAKey hkf pl fresh), operations,
              List.map_cons]
      · rcases construct_of_complete (P := P) pl hincomplete with ⟨keyPair, hpair⟩ | ⟨e, he⟩
        · refine Or.inl ⟨keyPair, ?_, fun more => outcomes_of_holdsPair hpair _⟩
          rcases hdisk with hnone | ⟨_, hmatched⟩
          · exact absurd (Or.inr hnone) hincomplete
          · exact hmatched keyPair hpair
        · exact Or.inr ⟨e, fun more => outcomes_of_refused hincomplete he _⟩

/-! ## What has been answered -/

/-- Key files that fit stay key files that fit in every run. -/
theorem matched_run (hkf : P.KeyFactoryRebuilds) (hstrict : P.KeyFactoryStrict) {pl : Platform}
    {disk : Disk} (h : Matched pl P disk) {events : List (Event P)}
    (hrsa : ∀ event ∈ events, event.fresh.RsaInverts) :
    Matched pl P (run (nextDisk pl) disk events) := by
  have hmeets : Meets (nextDisk pl) (fun _ event => event.fresh.RsaInverts) disk events := by
    rw [meets_iff]
    rintro pre event post rfl
    exact hrsa event (by simp)
  exact hmeets.invariant (fun _ _ hmatched hok => matched_nextDisk hkf hstrict hmatched hok) h

/-- With both files there, no run changes them. -/
theorem run_of_complete {pl : Platform} {disk : Disk} (h : ¬ disk.Incomplete)
    (events : List (Event P)) : run (nextDisk pl) disk events = disk := by
  induction events with
  | nil => rfl
  | cons event events ih => rw [run_cons, nextDisk_of_complete h, ih]

/-- A request that is answered is answered by a resource whose pair the key files hold from
then on. -/
theorem holdsPair_of_answer (hkf : P.KeyFactoryRebuilds) {pl : Platform} {disk : Disk}
    (h : Matched pl P disk) {fresh : KeyPair P} (hrsa : fresh.RsaInverts)
    {operation : Operation P} {out : List UInt8}
    (hanswer : answer pl fresh operation disk = .ok out) :
    ∃ keyPair : KeyPair P, keyPair.RsaInverts ∧
      HoldsPair pl (nextDisk pl disk (.request fresh operation)) keyPair ∧
      operation.perform pl ⟨⟨keyPair⟩⟩ = .ok out := by
  rw [answer, XMLEncryptionResource.new] at hanswer
  by_cases hincomplete : disk.Incomplete
  · rw [construct_fresh hincomplete] at hanswer
    refine ⟨fresh, hrsa, ?_, hanswer⟩
    rw [nextDisk, construct_fresh hincomplete]
    exact holdsPair_writeRSAKey hkf pl fresh
  · rcases construct_of_complete (P := P) pl hincomplete with ⟨keyPair, hpair⟩ | ⟨e, he⟩
    · rw [hpair.construct] at hanswer
      rw [nextDisk_of_complete hincomplete]
      rcases h with hnone | ⟨_, hmatched⟩
      · exact absurd (Or.inr hnone) hincomplete
      · exact ⟨keyPair, hmatched keyPair hpair, hpair, hanswer⟩
    · rw [he] at hanswer
      exact absurd hanswer error_ne_ok

/-- From key files that fit, what the service has once answered to an encryption it decrypts
in every later request, whatever requests are served in sequence and however often the process
dies in between; for a UTF-8 body the answer is the body exactly when the default charset writes
its text as UTF-8 does. -/
theorem answered_is_durable (hkf : P.KeyFactoryRebuilds) (hstrict : P.KeyFactoryStrict)
    (haes : P.AesInverts) (pl : Platform) (disk : Disk) (hdisk : Matched pl P disk)
    (before after : List (Event P)) (fresh later : KeyPair P) (draw : Draw P)
    (body document : List UInt8)
    (hrsa : ∀ event ∈ before ++ .request fresh (.encrypt draw body) :: after,
      event.fresh.RsaInverts)
    (hanswer : answer pl fresh (.encrypt draw body) (run (nextDisk pl) disk before) =
      .ok document) :
    ∃ out, answer pl later (.decrypt document) (run (nextDisk pl) disk
        (before ++ .request fresh (.encrypt draw body) :: after)) = .ok out ∧
      ∀ text : List Char, body = text.flatMap String.utf8EncodeChar →
        (Returned pl body out ↔ pl.charset.AgreesOn text) := by
  have hbefore : Matched pl P (run (nextDisk pl) disk before) :=
    matched_run hkf hstrict hdisk fun event hevent => hrsa event (List.mem_append_left _ hevent)
  have hfresh : fresh.RsaInverts := hrsa (.request fresh (.encrypt draw body)) (by simp)
  obtain ⟨keyPair, hinverts, hpair, hencrypt⟩ :=
    holdsPair_of_answer hkf hbefore hfresh hanswer
  have hrun : run (nextDisk pl) disk (before ++ .request fresh (.encrypt draw body) :: after) =
      nextDisk pl (run (nextDisk pl) disk before) (.request fresh (.encrypt draw body)) := by
    rw [run_append, run_cons, run_of_complete hpair.complete]
  have hout := decrypt_encrypt_bytes pl (r := ⟨⟨keyPair⟩⟩) haes hinverts draw body
  rw [show XMLEncryptionResource.encrypt ⟨⟨keyPair⟩⟩ pl draw body = .ok document from hencrypt,
    ok_bind] at hout
  refine ⟨pl.println (pl.charset.decode (pl.charset.encode (decodeUtf8String body))), ?_, ?_⟩
  · rw [hrun, answer, XMLEncryptionResource.new, hpair.construct]
    exact hout
  · rintro text rfl
    rw [decodeUtf8String, decodeUtf8_flatMap]
    exact returned_iff_agreesOn pl text

/-! ## A run -/

/-- The process dies in the public key file, serves a request, and dies again. -/
def deadlyRun : List (Event transparent) :=
  [.death (transparentPair 1) (.inX509 3),
    .request (transparentPair 2) (.encrypt transparentDraw [0x41]),
    .death (transparentPair 3) (.inPk8 5)]

theorem deadlyRun_inverts : ∀ event ∈ deadlyRun, event.fresh.RsaInverts := by
  intro event hevent
  simp only [deadlyRun, List.mem_cons, List.not_mem_nil, or_false] at hevent
  rcases hevent with rfl | rfl | rfl
  · exact transparent_rsaInverts 1
  · exact transparent_rsaInverts 2
  · exact transparent_rsaInverts 3

theorem first_request_decides_deadly :
    (∃ keyPair : KeyPair transparent, keyPair.RsaInverts ∧ ∀ more,
      outcomes ⟨utf8, .lf⟩ emptyDisk (deadlyRun ++ more) =
        (operations (deadlyRun ++ more)).map fun operation =>
          operation.perform ⟨utf8, .lf⟩ ⟨⟨keyPair⟩⟩) ∨
    ∃ e, ∀ more, outcomes ⟨utf8, .lf⟩ emptyDisk (deadlyRun ++ more) =
      (operations (deadlyRun ++ more)).map fun _ => .error e :=
  first_request_decides transparent_keyFactoryRebuilds transparent_keyFactoryStrict ⟨utf8, .lf⟩
    emptyDisk (Or.inl rfl) deadlyRun deadlyRun_inverts (List.cons_ne_nil _ _)

/-- The document of the one request in the run is decrypted at its end. -/
theorem answered_is_durable_deadly :
    ∃ document out,
      answer ⟨utf8, .lf⟩ (transparentPair 2) (.encrypt transparentDraw [0x41])
        (run (nextDisk ⟨utf8, .lf⟩) emptyDisk [.death (transparentPair 1) (.inX509 3)]) =
          .ok document ∧
      answer ⟨utf8, .lf⟩ (transparentPair 4) (.decrypt document)
        (run (nextDisk ⟨utf8, .lf⟩) emptyDisk deadlyRun) = .ok out := by
  obtain ⟨wrapped, _, henc, _⟩ := encrypt_spec (c := ⟨transparentPair 2⟩)
    utf8.toCharset transparent_aesInverts (transparent_rsaInverts 2) transparentDraw
    (decodeUtf8String [0x41])
  have hanswer : answer ⟨utf8, .lf⟩ (transparentPair 2) (.encrypt transparentDraw [0x41])
      (run (nextDisk ⟨utf8, .lf⟩) emptyDisk [.death (transparentPair 1) (.inX509 3)]) =
        .ok (Platform.println ⟨utf8, .lf⟩ (envelope (writtenValues transparentDraw wrapped
          (utf8.toCharset.encode (decodeUtf8String [0x41]))))) := by
    rw [answer, XMLEncryptionResource.new, construct_fresh (Or.inr rfl)]
    simp only [ok_bind, pure_bind, Operation.perform, XMLEncryptionResource.encrypt, henc]
    rfl
  obtain ⟨out, hout, _⟩ := answered_is_durable transparent_keyFactoryRebuilds
    transparent_keyFactoryStrict transparent_aesInverts ⟨utf8, .lf⟩ emptyDisk (Or.inl rfl)
    [.death (transparentPair 1) (.inX509 3)] [.death (transparentPair 3) (.inPk8 5)]
    (transparentPair 2) (transparentPair 4) transparentDraw [0x41] _ deadlyRun_inverts hanswer
  exact ⟨_, out, hanswer, hout⟩

end Mockbank
