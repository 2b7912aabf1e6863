import Mockbank.Crypto.Envelope
import Mockbank.Crypto.Provider
import Mockbank.Jvm.Charset

/-!
# `Cryptor`

`Cryptor.encrypt` draws an AES key, encrypts the text with it, wraps the key with
RSA and writes both into the envelope; `Cryptor.decrypt` takes them out again.

Main results:

- Theorem `decryptKeyAndData_written`: the two written values are decrypted to the
  bytes that were encrypted.
- Theorem `matchEnvelope_written`: the pattern finds the two values in the envelope.
- Theorem `decrypt_encrypt`: decryption undoes encryption.
-/

namespace Mockbank

open Jvm

variable {P : Provider}

/-- What one call of `encrypt` draws: `KeyGenerator.generateKey` for 128 bits, the IV
that `aes.init` chooses, and the OAEP seed. -/
structure Draw (P : Provider) where
  secretKey : List UInt8
  iv : List UInt8
  seed : P.Seed
  secretKey_length : secretKey.length = 16
  iv_length : iv.length = 16

/-- `Base64.Decoder.decode`. -/
def base64Decode (s : JString) : Except JavaException (List UInt8) :=
  match Base64.decode s with
  | some bs => .ok bs
  | none => .error .illegalArgument

/-- `Cipher.doFinal(input, inputOffset, inputLen)`, which checks the range first. -/
def doFinal (cipher : List UInt8 → Except JavaException (List UInt8)) (input : List UInt8)
    (inputOffset inputLen : Int) : Except JavaException (List UInt8) :=
  if inputOffset < 0 ∨ inputLen > input.length - inputOffset ∨ inputLen < 0 then
    .error .illegalArgument
  else cipher ((input.drop inputOffset.toNat).take inputLen.toNat)

/-- `new SecretKeySpec(key, "AES")`, which rejects an empty key. -/
def secretKeySpec (key : List UInt8) : Except JavaException (List UInt8) :=
  if key.length = 0 then .error .illegalArgument else .ok key

/-- `new IvParameterSpec(iv, 0, len)`, which rejects a shorter array. -/
def ivParameterSpec (iv : List UInt8) (len : Nat) : Except JavaException (List UInt8) :=
  if iv.length < len then .error .illegalArgument else .ok (iv.take len)

/-- `Cryptor.encrypt(String, PublicKey)`. -/
def encryptKeyAndData (cs : Charset) (plaintext : JString) (pubKey : P.PublicKey)
    (draw : Draw P) : Except JavaException CipherKeyAndData := do
  let cipherDataBytes := P.aesEncrypt draw.secretKey draw.iv (cs.encode plaintext)
  let cipherDataString := Base64.encode cipherDataBytes
  let cipherKeyBytes ← P.rsaEncrypt pubKey draw.seed draw.secretKey
  let ivAndCipherKeyString := Base64.encode (draw.iv ++ cipherKeyBytes)
  return ⟨ivAndCipherKeyString, cipherDataString⟩

/-- `Cryptor.decrypt(CipherKeyAndData, PrivateKey)`. -/
def decryptKeyAndData (cs : Charset) (v : CipherKeyAndData) (privKey : P.PrivateKey) :
    Except JavaException JString := do
  let ivAndCipherKeyBytes ← base64Decode v.cipherKey
  let plainKeyBytes ← doFinal (P.rsaDecrypt privKey) ivAndCipherKeyBytes 16
    (ivAndCipherKeyBytes.length - 16)
  let secretKey ← secretKeySpec plainKeyBytes
  let iv ← ivParameterSpec ivAndCipherKeyBytes 16
  P.aesInit secretKey
  let cipherDataBytes ← base64Decode v.cipherData
  let plainDataBytes ← P.aesDecrypt secretKey iv cipherDataBytes
  return cs.decode plainDataBytes

/-- A `Cryptor` holds a key pair. -/
structure Cryptor (P : Provider) where
  keyPair : KeyPair P

/-- `Cryptor.encrypt(String)`. -/
def Cryptor.encrypt (c : Cryptor P) (cs : Charset) (draw : Draw P) (plaintext : JString) :
    Except JavaException JString := do
  let cipherKeyAndData ← encryptKeyAndData cs plaintext c.keyPair.publicKey draw
  return envelope cipherKeyAndData

/-- The text of `decrypt` for input without an envelope. -/
def invalidFormat : JString :=
  lit "Invalid XML Enc format:\n "

/-- `Cryptor.decrypt(String)`. -/
def Cryptor.decrypt (c : Cryptor P) (cs : Charset) (ciphertext : JString) :
    Except JavaException JString :=
  match matchEnvelope ciphertext with
  | none => .ok (invalidFormat ++ ciphertext)
  | some (group₁, group₂) => decryptKeyAndData cs ⟨group₁, group₂⟩ c.keyPair.privateKey

/-! ## The stages -/

@[simp]
theorem base64Decode_encode (bs : List UInt8) : base64Decode (Base64.encode bs) = .ok bs := by
  rw [base64Decode, Base64.decode_encode]

theorem base64Decode_eq_ok {s : JString} {bs : List UInt8} :
    base64Decode s = .ok bs ↔ Base64.decode s = some bs := by
  unfold base64Decode
  cases Base64.decode s with
  | none => simp
  | some ds => simp

/-- The decoder accepts no other characters. -/
theorem base64_of_base64Decode {s : JString} {bs : List UInt8} (h : base64Decode s = .ok bs) :
    ∀ u ∈ s, Base64.IsBase64Char u :=
  Base64.chars_of_decode (base64Decode_eq_ok.mp h)

/-- The range behind the first 16 bytes is what follows them. -/
theorem doFinal_append (cipher : List UInt8 → Except JavaException (List UInt8))
    {iv : List UInt8} (hiv : iv.length = 16) (rest : List UInt8) :
    doFinal cipher (iv ++ rest) 16 ((iv ++ rest).length - 16) = cipher rest := by
  have hlen : (((iv ++ rest).length : Int) - 16) = rest.length := by
    rw [List.length_append, hiv]
    omega
  have hdrop : (iv ++ rest).drop (16 : Int).toNat = rest := List.drop_left' hiv
  rw [doFinal, hlen, if_neg (by omega), hdrop, Int.toNat_natCast, List.take_length]

/-- The IV is read back from the front. -/
theorem ivParameterSpec_append {iv : List UInt8} (hiv : iv.length = 16) (rest : List UInt8) :
    ivParameterSpec (iv ++ rest) 16 = .ok iv := by
  rw [ivParameterSpec, if_neg, ← hiv, List.take_left]
  rw [List.length_append]
  omega

theorem secretKeySpec_of_length {key : List UInt8} (hkey : key.length = 16) :
    secretKeySpec key = .ok key := by
  rw [secretKeySpec, if_neg (by omega)]

/-! ## The written values -/

/-- The values that `encrypt` writes once the key is wrapped. -/
def writtenValues (draw : Draw P) (wrapped plain : List UInt8) : CipherKeyAndData :=
  ⟨Base64.encode (draw.iv ++ wrapped),
    Base64.encode (P.aesEncrypt draw.secretKey draw.iv plain)⟩

/-- Wrapping the key is the only step of `encrypt` that can fail. -/
theorem encryptKeyAndData_of_wrapped {cs : Charset} {plaintext : JString}
    {pubKey : P.PublicKey} {draw : Draw P} {wrapped : List UInt8}
    (h : P.rsaEncrypt pubKey draw.seed draw.secretKey = .ok wrapped) :
    encryptKeyAndData cs plaintext pubKey draw =
      .ok (writtenValues draw wrapped (cs.encode plaintext)) := by
  simp only [encryptKeyAndData, h]
  rfl

/-- `decrypt` follows the wrapped key to the data. -/
theorem decryptKeyAndData_of_unwrapped {cs : Charset} {v : CipherKeyAndData}
    {privKey : P.PrivateKey} (haes : P.AesInverts) {iv wrapped key data : List UInt8}
    (hkey : base64Decode v.cipherKey = .ok (iv ++ wrapped)) (hiv : iv.length = 16)
    (hdata : base64Decode v.cipherData = .ok data)
    (hrsa : P.rsaDecrypt privKey wrapped = .ok key) (hlen : key.length = 16) :
    decryptKeyAndData cs v privKey = (P.aesDecrypt key iv data).map cs.decode := by
  simp only [decryptKeyAndData, hkey, hdata, ok_bind, doFinal_append _ hiv, hrsa,
    secretKeySpec_of_length hlen, ivParameterSpec_append hiv, haes.init key hlen]
  cases P.aesDecrypt key iv data <;> rfl

/-- Values that are decrypted at all are Base64 text. -/
theorem base64_of_decryptKeyAndData {cs : Charset} {k d plaintext : JString}
    {privKey : P.PrivateKey} (h : decryptKeyAndData cs ⟨k, d⟩ privKey = .ok plaintext) :
    (∀ u ∈ k, Base64.IsBase64Char u) ∧ ∀ u ∈ d, Base64.IsBase64Char u := by
  rw [decryptKeyAndData, bind_eq_ok] at h
  rcases h with ⟨ks, hk, h⟩
  simp only [bind_eq_ok] at h
  rcases h with ⟨_, _, _, _, _, _, _, _, ds, hd, _⟩
  exact ⟨base64_of_base64Decode hk, base64_of_base64Decode hd⟩

/-- The two written values are decrypted to the bytes that were encrypted. -/
theorem decryptKeyAndData_written {cs : Charset} {kp : KeyPair P} (haes : P.AesInverts)
    {draw : Draw P} {wrapped plain : List UInt8}
    (hrsa : P.rsaDecrypt kp.privateKey wrapped = .ok draw.secretKey) :
    decryptKeyAndData cs (writtenValues draw wrapped plain) kp.privateKey =
      .ok (cs.decode plain) := by
  rw [decryptKeyAndData_of_unwrapped haes (base64Decode_encode _) draw.iv_length
    (base64Decode_encode _) hrsa draw.secretKey_length,
    haes.decrypt _ _ _ draw.secretKey_length draw.iv_length]
  rfl

/-- Written values are read from their envelope whatever their lengths. -/
theorem matchEnvelope_written (draw : Draw P) (wrapped plain : List UInt8) :
    matchEnvelope (envelope (writtenValues draw wrapped plain)) =
      some ((writtenValues draw wrapped plain).cipherKey,
        (writtenValues draw wrapped plain).cipherData) :=
  matchEnvelope_envelope _ _

/-- A document with an envelope is decrypted by its two values. -/
theorem decrypt_of_match {c : Cryptor P} {cs : Charset} {t k d : JString}
    (h : matchEnvelope t = some (k, d)) :
    c.decrypt cs t = decryptKeyAndData cs ⟨k, d⟩ c.keyPair.privateKey := by
  rw [Cryptor.decrypt, h]

/-- A document without an envelope is handed back behind an error text. -/
theorem decrypt_of_no_match {c : Cryptor P} {cs : Charset} {t : JString}
    (h : matchEnvelope t = none) : c.decrypt cs t = .ok (invalidFormat ++ t) := by
  rw [Cryptor.decrypt, h]

/-! ## Encryption and decryption -/

/-- What `encrypt` returns, and what `decrypt` makes of it under the same pair. -/
theorem encrypt_spec {c : Cryptor P} (cs : Charset) (haes : P.AesInverts)
    (hrsa : c.keyPair.RsaInverts) (draw : Draw P) (plaintext : JString) :
    ∃ wrapped,
      P.rsaDecrypt c.keyPair.privateKey wrapped = .ok draw.secretKey ∧
      c.encrypt cs draw plaintext =
        .ok (envelope (writtenValues draw wrapped (cs.encode plaintext))) ∧
      c.decrypt cs (envelope (writtenValues draw wrapped (cs.encode plaintext))) =
        .ok (cs.decode (cs.encode plaintext)) := by
  rcases hrsa draw.seed draw.secretKey draw.secretKey_length with ⟨wrapped, hwrap, hunwrap⟩
  refine ⟨wrapped, hunwrap, ?_, ?_⟩
  · rw [Cryptor.encrypt, encryptKeyAndData_of_wrapped hwrap]
    rfl
  · rw [decrypt_of_match (matchEnvelope_written draw wrapped (cs.encode plaintext))]
    exact decryptKeyAndData_written haes hunwrap

/-- Decryption makes of an encrypted text what the charset makes of it. -/
theorem encrypt_bind_decrypt {c : Cryptor P} (cs : Charset) (haes : P.AesInverts)
    (hrsa : c.keyPair.RsaInverts) (draw : Draw P) (plaintext : JString) :
    (c.encrypt cs draw plaintext >>= c.decrypt cs) = .ok (cs.decode (cs.encode plaintext)) := by
  rcases encrypt_spec cs haes hrsa draw plaintext with ⟨wrapped, _, henc, hdec⟩
  rw [henc, ok_bind, hdec]

/-- Decryption undoes encryption for every text that the charset does not lose. -/
theorem decrypt_encrypt (c : Cryptor P) (cs : Charset) (haes : P.AesInverts)
    (hrsa : c.keyPair.RsaInverts) (draw : Draw P) (s : JString) (hs : cs.Lossless s) :
    (c.encrypt cs draw s >>= c.decrypt cs) = .ok s := by
  rw [encrypt_bind_decrypt cs haes hrsa]
  exact congrArg Except.ok hs

/-- Sixteen ones for a key and sixteen twos for an IV. -/
def transparentDraw : Draw transparent where
  secretKey := List.replicate 16 1
  iv := List.replicate 16 2
  seed := ()
  secretKey_length := rfl
  iv_length := rfl

/-- A text that holds tags and a newline comes back. -/
theorem decrypt_encrypt_tags :
    ((⟨transparentPair 7⟩ : Cryptor transparent).encrypt utf8.toCharset transparentDraw
        (lit "<CipherValue>\n</CipherValue>") >>=
      (⟨transparentPair 7⟩ : Cryptor transparent).decrypt utf8.toCharset) =
      .ok (lit "<CipherValue>\n</CipherValue>") :=
  decrypt_encrypt ⟨transparentPair 7⟩ utf8.toCharset transparent_aesInverts
    (transparent_rsaInverts 7) transparentDraw _ (utf8_lossless_lit _)

end Mockbank
