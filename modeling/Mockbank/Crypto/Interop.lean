import Mockbank.Crypto.Cryptor

/-!
# The XML Encryption format

The resource names XML Encryption as its format.  There the value of `EncryptedKey`
is the wrapped key and nothing else, and the value of `EncryptedData` is the IV
followed by the ciphertext.  This file states that format as a reader and a writer of
the same envelope and compares it with `Cryptor`, which puts the IV in front of the
wrapped key.

Main results:

- Theorem `referenceRead_referenceWrite`: the reference reader inverts the reference
  writer.
- Theorem `reference_never`: neither side reads what the other writes.
-/

namespace Mockbank

open Jvm

variable {P : Provider}

/-- The two values of a document in the envelope of `encrypt`. -/
def envelopeValues (t : JString) : Option CipherKeyAndData := do
  let rest₁ ← t.dropPrefix? (header ++ openTag)
  let rest₂ ← (rest₁.dropWhile (· ≠ 60)).dropPrefix? (closeTag ++ (middle ++ openTag))
  let rest₃ ← (rest₂.dropWhile (· ≠ 60)).dropPrefix? (closeTag ++ footer)
  if rest₃ = [] then some ⟨rest₁.takeWhile (· ≠ 60), rest₂.takeWhile (· ≠ 60)⟩ else none

/-- The reference reader: the whole first value is the wrapped key, and the second is
the IV and the ciphertext. -/
def referenceRead (privKey : P.PrivateKey) (t : JString) :
    Except JavaException (List UInt8) := do
  let v ← (envelopeValues t).elim (.error .illegalArgument) .ok
  let wrapped ← base64Decode v.cipherKey
  let payload ← base64Decode v.cipherData
  let key ← P.rsaDecrypt privKey wrapped
  P.aesInit key
  P.aesDecrypt key (payload.take 16) (payload.drop 16)

/-- The reference writer: its inverse in the same envelope. -/
def referenceWrite (pubKey : P.PublicKey) (draw : Draw P) (plain : List UInt8) :
    Except JavaException JString := do
  let wrapped ← P.rsaEncrypt pubKey draw.seed draw.secretKey
  let payload := draw.iv ++ P.aesEncrypt draw.secretKey draw.iv plain
  return envelope ⟨Base64.encode wrapped, Base64.encode payload⟩

/-! ## The envelope -/

theorem dropPrefix?_append (p s : JString) : (p ++ s).dropPrefix? p = some s := by
  induction p with
  | nil => simp
  | cons u p ih => simpa [List.dropPrefix?] using ih

/-- Text up to a tag is what stands in front of its `<`. -/
theorem takeWhile_tag {v : JString} (hv : 60 ∉ v) (rest : JString) :
    (v ++ (closeTag ++ rest)).takeWhile (· ≠ 60) = v ∧
      (v ++ (closeTag ++ rest)).dropWhile (· ≠ 60) = closeTag ++ rest := by
  have hstop : closeTag ++ rest = 60 :: (closeTag.tail ++ rest) := rfl
  have hall : ∀ u ∈ v, (decide (u ≠ 60)) = true := by
    intro u hu
    exact decide_eq_true fun h => hv (h ▸ hu)
  rw [hstop, List.takeWhile_append_of_pos hall, List.dropWhile_append_of_pos hall]
  exact ⟨List.append_nil v, rfl⟩

/-- The values are read back from the envelope. -/
theorem envelopeValues_envelope {v : CipherKeyAndData} (hkey : 60 ∉ v.cipherKey)
    (hdata : 60 ∉ v.cipherData) : envelopeValues (envelope v) = some v := by
  have hdoc : envelope v = (header ++ openTag) ++ (v.cipherKey ++ (closeTag ++ ((middle ++
      openTag) ++ (v.cipherData ++ (closeTag ++ footer))))) := by
    rw [envelope_eq]
    simp only [List.append_assoc]
  obtain ⟨htake₁, hdrop₁⟩ := takeWhile_tag hkey
    ((middle ++ openTag) ++ (v.cipherData ++ (closeTag ++ footer)))
  rcases takeWhile_tag hdata footer with ⟨htake₂, hdrop₂⟩
  have hmid : (closeTag ++ ((middle ++ openTag) ++ (v.cipherData ++ (closeTag ++
      footer)))).dropPrefix? (closeTag ++ (middle ++ openTag)) =
      some (v.cipherData ++ (closeTag ++ footer)) := by
    rw [← List.append_assoc closeTag]
    exact dropPrefix?_append _ _
  have hend : (closeTag ++ footer).dropPrefix? (closeTag ++ footer) = some [] := by
    have h := dropPrefix?_append (closeTag ++ footer) []
    rwa [List.append_nil] at h
  rw [envelopeValues, hdoc, dropPrefix?_append]
  simp only [Option.bind_eq_bind, Option.bind_some, hdrop₁, htake₁, hmid, hdrop₂, htake₂, hend,
    if_true]

/-- Both values of an envelope with Base64 text are read. -/
theorem referenceRead_envelope (privKey : P.PrivateKey) (wrapped payload : List UInt8) :
    referenceRead privKey (envelope ⟨Base64.encode wrapped, Base64.encode payload⟩) =
      (P.rsaDecrypt privKey wrapped >>= fun key => P.aesInit key >>= fun _ =>
        P.aesDecrypt key (payload.take 16) (payload.drop 16)) := by
  simp only [referenceRead, envelopeValues_envelope (v := ⟨Base64.encode wrapped,
    Base64.encode payload⟩) (not_lt_mem_encode wrapped) (not_lt_mem_encode payload),
    Option.elim_some, ok_bind, base64Decode_encode]

/-- The reference reader inverts the reference writer. -/
theorem referenceRead_referenceWrite {kp : KeyPair P} (haes : P.AesInverts)
    (hrsa : kp.RsaInverts) (draw : Draw P) (plain : List UInt8) :
    (referenceWrite kp.publicKey draw plain >>= referenceRead kp.privateKey) = .ok plain := by
  rcases hrsa draw.seed draw.secretKey draw.secretKey_length with ⟨wrapped, hwrap, hunwrap⟩
  simp only [referenceWrite, hwrap, ok_bind, pure_bind, referenceRead_envelope, hunwrap,
    haes.init _ draw.secretKey_length]
  rw [← draw.iv_length, List.take_left, List.drop_left]
  exact haes.decrypt _ _ _ draw.secretKey_length draw.iv_length

/-! ## Neither side reads the other -/

/-- `Cryptor` hands the reference reader 16 bytes more than the modulus. -/
theorem referenceRead_encrypt_ne {c : Cryptor P} {n : Nat} (hrsa : c.keyPair.RsaInverts)
    (hmod : c.keyPair.RsaModulus n) (cs : Charset) (draw : Draw P) (plaintext : JString)
    (plain : List UInt8) :
    (c.encrypt cs draw plaintext >>= referenceRead c.keyPair.privateKey) ≠ .ok plain := by
  rcases hrsa draw.seed draw.secretKey draw.secretKey_length with ⟨wrapped, hwrap, hunwrap⟩
  have hlen : wrapped.length = n := hmod _ _ hunwrap
  rw [Cryptor.encrypt, encryptKeyAndData_of_wrapped hwrap]
  simp only [ok_bind, pure_bind, writtenValues, referenceRead_envelope]
  cases hread : P.rsaDecrypt c.keyPair.privateKey (draw.iv ++ wrapped) with
  | error e => rw [error_bind]; exact error_ne_ok
  | ok key =>
      have hbad := hmod _ _ hread
      rw [List.length_append, draw.iv_length] at hbad
      omega

/-- `Cryptor` takes 16 bytes of the reference writer's wrapped key for the IV. -/
theorem decrypt_referenceWrite_ne {c : Cryptor P} {n : Nat} (hrsa : c.keyPair.RsaInverts)
    (hmod : c.keyPair.RsaModulus n) (cs : Charset) (draw : Draw P) (plain : List UInt8)
    (plaintext : JString) :
    (referenceWrite c.keyPair.publicKey draw plain >>= c.decrypt cs) ≠ .ok plaintext := by
  rcases hrsa draw.seed draw.secretKey draw.secretKey_length with ⟨wrapped, hwrap, hunwrap⟩
  have hlen : wrapped.length = n := hmod _ _ hunwrap
  simp only [referenceWrite, hwrap, ok_bind, pure_bind]
  rw [decrypt_of_match (matchEnvelope_envelope _ _)]
  simp only [decryptKeyAndData, base64Decode_encode, ok_bind, doFinal]
  split
  next => rw [error_bind]; exact error_ne_ok
  next hrange =>
    cases hread : P.rsaDecrypt c.keyPair.privateKey ((wrapped.drop (16 : Int).toNat).take
        ((wrapped.length : Int) - 16).toNat) with
    | error e => rw [error_bind]; exact error_ne_ok
    | ok key =>
        have hbad := hmod _ _ hread
        rw [List.length_take, List.length_drop] at hbad
        omega

/-- Neither the reference reader recovers what `Cryptor` encrypts nor `Cryptor` what
the reference writer encrypts, whatever the text, the key and the IV. -/
theorem reference_never (c : Cryptor P) (n : Nat) (hrsa : c.keyPair.RsaInverts)
    (hmod : c.keyPair.RsaModulus n) (cs : Charset) (draw : Draw P) (plaintext : JString) :
    (c.encrypt cs draw plaintext >>= referenceRead c.keyPair.privateKey) ≠
        .ok (cs.encode plaintext) ∧
      (referenceWrite c.keyPair.publicKey draw (cs.encode plaintext) >>= c.decrypt cs) ≠
        .ok plaintext :=
  ⟨referenceRead_encrypt_ne hrsa hmod cs draw plaintext _,
    decrypt_referenceWrite_ne hrsa hmod cs draw _ plaintext⟩

/-- A text of four letters under the transparent provider. -/
theorem reference_never_text :
    ((⟨transparentPair 7⟩ : Cryptor transparent).encrypt utf8.toCharset transparentDraw
          (lit "text") >>= referenceRead (transparentPair 7).privateKey) ≠
        .ok (utf8.toCharset.encode (lit "text")) ∧
      (referenceWrite (transparentPair 7).publicKey transparentDraw
          (utf8.toCharset.encode (lit "text")) >>=
        (⟨transparentPair 7⟩ : Cryptor transparent).decrypt utf8.toCharset) ≠
        .ok (lit "text") :=
  reference_never ⟨transparentPair 7⟩ 256 (transparent_rsaInverts 7)
    (transparent_rsaModulus _) utf8.toCharset transparentDraw (lit "text")

/-- Interoperation fails on the empty text. -/
theorem not_reference_empty :
    ¬ (((⟨transparentPair 7⟩ : Cryptor transparent).encrypt utf8.toCharset transparentDraw [] >>=
          referenceRead (transparentPair 7).privateKey) = .ok (utf8.toCharset.encode []) ∧
        (referenceWrite (transparentPair 7).publicKey transparentDraw
            (utf8.toCharset.encode []) >>=
          (⟨transparentPair 7⟩ : Cryptor transparent).decrypt utf8.toCharset) = .ok []) := by
  rintro ⟨hread, _⟩
  exact referenceRead_encrypt_ne (transparent_rsaInverts 7) (transparent_rsaModulus _)
    utf8.toCharset transparentDraw [] _ hread

end Mockbank
