import Mockbank.Crypto.Cryptor

/-!
# `XMLEncryptionResource`

The two operations of the encryption resource, from request bytes to response bytes.
The body is read as UTF-8; `Cryptor` and the `PrintStream` of the response use the
default charset of the server.

Main results:

- Theorem `decrypt_encrypt_bytes`: what the two operations in sequence answer.
- Theorem `xml_round_trip_iff`: the body comes back when the default charset writes
  its text as UTF-8 does, and not otherwise.
- Theorem `oneByte_round_trip_iff`: under the one-byte charsets this means ASCII.
-/

namespace Mockbank

open Jvm

variable {P : Provider}

/-- A constructed resource holds its `Cryptor`. -/
structure XMLEncryptionResource (P : Provider) where
  cryptor : Cryptor P

/-- `POST xml/encrypt`. -/
def XMLEncryptionResource.encrypt (r : XMLEncryptionResource P) (pl : Platform)
    (draw : Draw P) (inputStream : List UInt8) : Except JavaException (List UInt8) := do
  let plainText := decodeUtf8String inputStream
  let cipherText ← r.cryptor.encrypt pl.charset.toCharset draw plainText
  return pl.println cipherText

/-- `POST xml/decrypt`. -/
def XMLEncryptionResource.decrypt (r : XMLEncryptionResource P) (pl : Platform)
    (inputStream : List UInt8) : Except JavaException (List UInt8) := do
  let cipherText := decodeUtf8String inputStream
  let plainText ← r.cryptor.decrypt pl.charset.toCharset cipherText
  return pl.println plainText

/-! ## The encrypted document on its way -/

/-- ASCII text that is printed by one request and read by the next arrives with the
line separator behind it. -/
theorem decodeUtf8String_println (pl : Platform) {s : JString} (hs : IsAscii s) :
    decodeUtf8String (pl.println s) = s ++ pl.lineSeparator.text := by
  have hascii : IsAscii (s ++ pl.lineSeparator.text) :=
    hs.append pl.lineSeparator.isAscii_text
  rw [Platform.println, pl.charset.encode_ascii hascii, decodeUtf8String,
    ofChars_decodeUtf8_ascii (asciiBytes_lt hascii), map_toUInt16_asciiBytes hascii]

/-- No line separator makes a closing tag out of the end of the document. -/
theorem not_closeTag_infix_footer_lineSeparator (sep : LineSeparator) :
    ¬ closeTag <:+: footer ++ sep.text := by
  cases sep <;> decide

/-- The document is found with the line separator behind it. -/
theorem matchEnvelope_println (sep : LineSeparator) (draw : Draw P)
    (wrapped plain : List UInt8) :
    matchEnvelope (envelope (writtenValues draw wrapped plain) ++ sep.text) =
      some ((writtenValues draw wrapped plain).cipherKey,
        (writtenValues draw wrapped plain).cipherData) :=
  matchEnvelope_envelope_append _ _ _ (not_closeTag_infix_footer_lineSeparator sep)

/-- Both operations in sequence answer with what the default charset makes of the
text of the body. -/
theorem decrypt_encrypt_bytes (pl : Platform) {r : XMLEncryptionResource P}
    (haes : P.AesInverts) (hrsa : r.cryptor.keyPair.RsaInverts) (draw : Draw P)
    (body : List UInt8) :
    (r.encrypt pl draw body >>= r.decrypt pl) =
      .ok (pl.println (pl.charset.decode (pl.charset.encode (decodeUtf8String body)))) := by
  obtain ⟨wrapped, hunwrap, henc, _⟩ :=
    encrypt_spec pl.charset.toCharset haes hrsa draw (decodeUtf8String body)
  have hascii : IsAscii (envelope (writtenValues draw wrapped
      (pl.charset.toCharset.encode (decodeUtf8String body)))) :=
    isAscii_envelope (Base64.isAscii_encode _) (Base64.isAscii_encode _)
  simp only [XMLEncryptionResource.encrypt, henc, ok_bind, pure_bind,
    XMLEncryptionResource.decrypt, decodeUtf8String_println pl hascii]
  rw [decrypt_of_match (matchEnvelope_println _ _ _ _),
    decryptKeyAndData_written haes hunwrap]
  rfl

/-! ## When the body comes back -/

/-- The answer is the body with at most the line separator behind it. -/
def Returned (pl : Platform) (body out : List UInt8) : Prop :=
  out = body ∨ out = body ++ asciiBytes pl.lineSeparator.text

instance (pl : Platform) (body out : List UInt8) : Decidable (Returned pl body out) :=
  inferInstanceAs (Decidable (_ ∨ _))

/-- The line separator is printed behind the text in every charset. -/
theorem println_eq (pl : Platform) (s : JString) :
    pl.println s = pl.charset.encode s ++ asciiBytes pl.lineSeparator.text :=
  pl.charset.encode_append_ascii s pl.lineSeparator.isAscii_text

/-- Printing decoded text writes the encoded bytes again. -/
theorem println_decode_encode (pl : Platform) (s : JString) :
    pl.println (pl.charset.decode (pl.charset.encode s)) =
      pl.charset.encode s ++ asciiBytes pl.lineSeparator.text := by
  rw [println_eq]
  exact congrArg (· ++ _) (pl.charset.encode_decode_encode s)

/-- The printed text is the body when the two charsets agree on it. -/
theorem returned_iff_agreesOn (pl : Platform) (text : List Char) :
    Returned pl (text.flatMap String.utf8EncodeChar)
      (pl.println (pl.charset.decode (pl.charset.encode (ofChars text)))) ↔
      pl.charset.AgreesOn text := by
  have hascii := pl.lineSeparator.isAscii_text
  rw [println_decode_encode, Returned, AsciiCharset.AgreesOn]
  constructor
  · intro h
    rcases h with h | h
    · exact absurd h (pl.charset.encode_append_ne hascii pl.lineSeparator.text_ne_nil text)
    · exact (List.append_inj' h rfl).1
  · intro h
    exact Or.inr (by rw [h])

/-- Encrypting a UTF-8 body and decrypting the answer returns the body, with at most
the printed line separator behind it, exactly when the default charset writes the
text of the body as UTF-8 does. -/
theorem xml_round_trip_iff (pl : Platform) (r : XMLEncryptionResource P)
    (haes : P.AesInverts) (hrsa : r.cryptor.keyPair.RsaInverts) (draw : Draw P)
    (text : List Char) :
    (∃ out, (r.encrypt pl draw (text.flatMap String.utf8EncodeChar) >>= r.decrypt pl) =
        .ok out ∧ Returned pl (text.flatMap String.utf8EncodeChar) out) ↔
      pl.charset.AgreesOn text := by
  have hout := decrypt_encrypt_bytes pl haes hrsa draw (text.flatMap String.utf8EncodeChar)
  rw [decodeUtf8String, decodeUtf8_flatMap] at hout
  rw [← returned_iff_agreesOn, hout]
  constructor
  · rintro ⟨out, hok, hret⟩
    rwa [← Except.ok.inj hok] at hret
  · intro hret
    exact ⟨_, rfl, hret⟩

/-- An accented letter comes back from a UTF-8 server and not from one whose charset is
US-ASCII. -/
theorem xml_round_trip_utf8_usAscii :
    (∃ out, ((⟨⟨transparentPair 7⟩⟩ : XMLEncryptionResource transparent).encrypt ⟨utf8, .lf⟩
          transparentDraw ([Char.ofNat 0xE9].flatMap String.utf8EncodeChar) >>=
        (⟨⟨transparentPair 7⟩⟩ : XMLEncryptionResource transparent).decrypt ⟨utf8, .lf⟩) =
        .ok out ∧
      Returned ⟨utf8, .lf⟩ ([Char.ofNat 0xE9].flatMap String.utf8EncodeChar) out) ∧
    ¬ ∃ out, ((⟨⟨transparentPair 7⟩⟩ : XMLEncryptionResource transparent).encrypt
          ⟨usAscii, .lf⟩ transparentDraw ([Char.ofNat 0xE9].flatMap String.utf8EncodeChar) >>=
        (⟨⟨transparentPair 7⟩⟩ : XMLEncryptionResource transparent).decrypt ⟨usAscii, .lf⟩) =
        .ok out ∧
      Returned ⟨usAscii, .lf⟩ ([Char.ofNat 0xE9].flatMap String.utf8EncodeChar) out := by
  have hiff := fun pl => xml_round_trip_iff pl ⟨⟨transparentPair 7⟩⟩ transparent_aesInverts
    (transparent_rsaInverts 7) transparentDraw [Char.ofNat 0xE9]
  have hascii : ¬ usAscii.AgreesOn [Char.ofNat 0xE9] := by
    rw [AsciiCharset.AgreesOn]
    decide
  exact ⟨(hiff ⟨utf8, .lf⟩).mpr (utf8_agreesOn _), fun h => hascii ((hiff ⟨usAscii, .lf⟩).mp h)⟩

/-- Under ISO-8859-1 an accented letter comes back as another byte. -/
theorem xml_round_trip_latin1 :
    ¬ ∃ out, ((⟨⟨transparentPair 7⟩⟩ : XMLEncryptionResource transparent).encrypt
          ⟨latin1, .lf⟩ transparentDraw [0xC3, 0xA9] >>=
        (⟨⟨transparentPair 7⟩⟩ : XMLEncryptionResource transparent).decrypt ⟨latin1, .lf⟩) =
        .ok out ∧ Returned ⟨latin1, .lf⟩ [0xC3, 0xA9] out := by
  rw [decrypt_encrypt_bytes ⟨latin1, .lf⟩ transparent_aesInverts (transparent_rsaInverts 7)
    transparentDraw]
  rintro ⟨out, hok, hret⟩
  have hout : out = [0xE9, 0x0A] := (Except.ok.inj hok).symm.trans (by decide)
  rw [hout] at hret
  exact absurd hret (by decide)

/-- Under the one-byte charsets exactly the ASCII bodies come back. -/
theorem oneByte_round_trip_iff {bound : Nat} (hbound : 0x80 ≤ bound) (pl : Platform)
    (hpl : pl.charset.encodeChar = oneByteEncodeChar bound) (text : List Char) :
    Returned pl (text.flatMap String.utf8EncodeChar)
      (pl.println (pl.charset.decode (pl.charset.encode (ofChars text)))) ↔
      ∀ c ∈ text, c.toNat < 0x80 := by
  rw [returned_iff_agreesOn, AsciiCharset.AgreesOn, AsciiCharset.encode, hpl]
  exact oneByte_agrees_iff hbound text

end Mockbank
