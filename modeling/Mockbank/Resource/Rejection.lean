import Mockbank.Crypto.Relayout
import Mockbank.Resource.XmlEncryption

/-!
# Rejected documents

`decrypt` answers a document without an envelope with an error text.  It looks at the
tags only: what is wrong with the values leaves it as an exception, and the error text
is a text like any other.

Main results:

- Theorem `wellFormed_of_decrypt`: only an envelope with well-formed values is decrypted.
- Theorem `rejectsMalformed_iff`: the documents on which `decrypt` keeps to the error
  text and to arrays of at least 16 bytes.
- Theorem `toldApart_iff`: when a rejected document can be told from an encrypted text.
- Theorem `decrypt_ne_iff_of_rejected`: when the response to it can.
-/

namespace Mockbank

open Jvm Search

variable {P : Provider}

/-! ## Malformed documents -/

/-- A document from which no IV, wrapped key and data can be taken. -/
inductive Malformed (t : JString) : Prop where
  | noEnvelope (h : matchEnvelope t = none)
  | keyNotBase64 {k d : JString} (h : matchEnvelope t = some (k, d))
      (hkey : Base64.decode k = none)
  | dataNotBase64 {k d : JString} (h : matchEnvelope t = some (k, d))
      (hdata : Base64.decode d = none)
  | keyTooShort {k d : JString} {ks : List UInt8} (h : matchEnvelope t = some (k, d))
      (hkey : Base64.decode k = some ks) (hlen : ks.length ≤ 16)

/-- An envelope around two Base64 values, the first of them longer than an IV. -/
def WellFormed (t : JString) : Prop :=
  ∃ k d ks ds, matchEnvelope t = some (k, d) ∧ Base64.decode k = some ks ∧
    Base64.decode d = some ds ∧ 16 < ks.length

theorem not_malformed_of_wellFormed {t : JString} (h : WellFormed t) : ¬ Malformed t := by
  rcases h with ⟨k, d, ks, ds, hmatch, hks, hds, hlen⟩
  intro hmalformed
  cases hmalformed with
  | noEnvelope hnone =>
      rw [hmatch] at hnone
      contradiction
  | keyNotBase64 hmatch' hkey =>
      rw [hmatch] at hmatch'
      cases hmatch'
      rw [hks] at hkey
      contradiction
  | dataNotBase64 hmatch' hdata =>
      rw [hmatch] at hmatch'
      cases hmatch'
      rw [hds] at hdata
      contradiction
  | keyTooShort hmatch' hkey hshort =>
      rw [hmatch] at hmatch'
      cases hmatch'
      rw [hks] at hkey
      cases hkey
      omega

theorem malformed_of_not_wellFormed {t : JString} (h : ¬ WellFormed t) : Malformed t := by
  cases hmatch : matchEnvelope t with
  | none => exact .noEnvelope hmatch
  | some g =>
      rcases g with ⟨k, d⟩
      cases hkey : Base64.decode k with
      | none => exact .keyNotBase64 hmatch hkey
      | some ks =>
          cases hdata : Base64.decode d with
          | none => exact .dataNotBase64 hmatch hdata
          | some ds =>
              apply Malformed.keyTooShort hmatch hkey
              by_contra hlen
              exact h ⟨k, d, ks, ds, hmatch, hkey, hdata, Nat.lt_of_not_le hlen⟩

/-! ## What is decrypted -/

/-- OAEP decryption rejects a ciphertext without bytes. -/
def KeyPair.RsaRejectsEmpty {P : Provider} (kp : KeyPair P) : Prop :=
  ∀ key, P.rsaDecrypt kp.privateKey [] ≠ .ok key

theorem KeyPair.RsaModulus.rsaRejectsEmpty {kp : KeyPair P} {n : Nat} (h : kp.RsaModulus n)
    (hn : 0 < n) : kp.RsaRejectsEmpty := by
  intro key hkey
  have hlen : 0 = n := h [] key hkey
  omega

/-- A cipher that rejects empty input returns for what stands behind the IV when
something does. -/
theorem lt_length_of_doFinal {cipher : List UInt8 → Except JavaException (List UInt8)}
    {input out : List UInt8} (hempty : ∀ out, cipher [] ≠ .ok out)
    (h : doFinal cipher input 16 (input.length - 16) = .ok out) : 16 < input.length := by
  unfold doFinal at h
  by_cases hrange : (16 : Int) < 0 ∨ (input.length : Int) - 16 > input.length - 16 ∨
      (input.length : Int) - 16 < 0
  · rw [if_pos hrange] at h
    exact absurd h error_ne_ok
  · rw [if_neg hrange] at h
    by_contra hle
    have hdrop : input.drop (16 : Int).toNat = [] := List.drop_eq_nil_of_le (by omega)
    rw [hdrop, List.take_nil] at h
    exact hempty out h

/-- Only an envelope with well-formed values is decrypted. -/
theorem wellFormed_of_decrypt {c : Cryptor P} {cs : Charset}
    (hrsa : c.keyPair.RsaRejectsEmpty) {t k d r : JString}
    (hmatch : matchEnvelope t = some (k, d)) (h : c.decrypt cs t = .ok r) : WellFormed t := by
  rw [decrypt_of_match hmatch, decryptKeyAndData] at h
  simp only [bind_eq_ok] at h
  rcases h with ⟨ks, hks, _, hfinal, _, _, _, _, _, _, ds, hds, _⟩
  exact ⟨k, d, ks, ds, hmatch, base64Decode_eq_ok.mp hks, base64Decode_eq_ok.mp hds,
    lt_length_of_doFinal hrsa hfinal⟩

/-- The array from which `decrypt` takes the IV and the wrapped key. -/
def ivAndCipherKeyBytes (t : JString) : Option (List UInt8) :=
  match matchEnvelope t with
  | none => none
  | some (group₁, _) => Base64.decode group₁

/-- `decrypt` subtracts from the length of that array before it does anything else. -/
theorem decrypt_of_ivAndCipherKeyBytes (c : Cryptor P) (cs : Charset) {t : JString}
    {ks : List UInt8} (h : ivAndCipherKeyBytes t = some ks) :
    ∃ rest, c.decrypt cs t =
      (doFinal (P.rsaDecrypt c.keyPair.privateKey) ks 16 (ks.length - 16) >>= rest) := by
  unfold ivAndCipherKeyBytes at h
  cases hmatch : matchEnvelope t with
  | none =>
      rw [hmatch] at h
      contradiction
  | some g =>
      rw [hmatch] at h
      rw [decrypt_of_match hmatch, decryptKeyAndData, base64Decode_eq_ok.mpr h, ok_bind]
      exact ⟨_, rfl⟩

/-- An array without room for the IV is an exception. -/
theorem decrypt_of_short (c : Cryptor P) (cs : Charset) {t : JString} {ks : List UInt8}
    (h : ivAndCipherKeyBytes t = some ks) (hlen : ks.length < 16) :
    c.decrypt cs t = .error .illegalArgument := by
  have hfinal : doFinal (P.rsaDecrypt c.keyPair.privateKey) ks 16 (ks.length - 16) =
      .error .illegalArgument := if_pos (by omega)
  rcases decrypt_of_ivAndCipherKeyBytes c cs h with ⟨rest, hrest⟩
  rw [hrest, hfinal, error_bind]

/-- `decrypt` answers malformed documents with the error text, and the length that it
subtracts from and the slice that it takes are those of an array of at least 16 bytes. -/
structure RejectsMalformed (c : Cryptor P) (cs : Charset) (t : JString) : Prop where
  errorText : Malformed t → c.decrypt cs t = .ok (invalidFormat ++ t)
  slices : ∀ ks, ivAndCipherKeyBytes t = some ks → 16 ≤ ks.length

/-- `decrypt` answers as it should for malformed documents without an envelope, and for
those only. -/
theorem rejectsMalformed_iff (c : Cryptor P) (cs : Charset)
    (hrsa : c.keyPair.RsaRejectsEmpty) (t : JString) :
    RejectsMalformed c cs t ↔ matchEnvelope t = none ∨ WellFormed t := by
  constructor
  · intro h
    cases hmatch : matchEnvelope t with
    | none => exact Or.inl rfl
    | some g =>
        refine Or.inr ?_
        by_contra hwf
        exact hwf (wellFormed_of_decrypt hrsa hmatch
          (h.errorText (malformed_of_not_wellFormed hwf)))
  · intro h
    rcases h with hnone | hwf
    · refine ⟨fun _ => decrypt_of_no_match hnone, ?_⟩
      intro ks hks
      rw [ivAndCipherKeyBytes, hnone] at hks
      contradiction
    · refine ⟨fun hmalformed => absurd hmalformed (not_malformed_of_wellFormed hwf), ?_⟩
      rcases hwf with ⟨k, d, ks, ds, hmatch, hks, _, hlen⟩
      intro ks' hks'
      rw [ivAndCipherKeyBytes, hmatch] at hks'
      simp only at hks'
      rw [hks] at hks'
      cases hks'
      omega

/-- What `encrypt` writes is well formed, for every wrapped key but the empty one. -/
theorem wellFormed_envelope (draw : Draw P) {wrapped : List UInt8} (hwrapped : wrapped ≠ [])
    (plain : List UInt8) : WellFormed (envelope (writtenValues draw wrapped plain)) := by
  refine ⟨_, _, _, _, matchEnvelope_written draw wrapped plain, Base64.decode_encode _,
    Base64.decode_encode _, ?_⟩
  have hpos := List.length_pos_iff.mpr hwrapped
  rw [List.length_append, draw.iv_length]
  omega

/-- The encrypted form of a text and a document without values. -/
theorem rejectsMalformed_iff_two :
    (∃ t, (⟨transparentPair 7⟩ : Cryptor transparent).encrypt utf8.toCharset transparentDraw
        (lit "text") = .ok t ∧ WellFormed t ∧
      RejectsMalformed (⟨transparentPair 7⟩ : Cryptor transparent) utf8.toCharset t) ∧
    RejectsMalformed (⟨transparentPair 7⟩ : Cryptor transparent) utf8.toCharset
      (lit "<note>text</note>") := by
  have hiff := rejectsMalformed_iff ⟨transparentPair 7⟩ utf8.toCharset
    ((transparent_rsaModulus (transparentPair 7)).rsaRejectsEmpty (by decide))
  obtain ⟨wrapped, hunwrap, henc, _⟩ := encrypt_spec (c := ⟨transparentPair 7⟩) utf8.toCharset
    transparent_aesInverts (transparent_rsaInverts 7) transparentDraw (lit "text")
  have hlen : wrapped.length = 256 := transparent_rsaModulus (transparentPair 7) _ _ hunwrap
  have hwf := wellFormed_envelope transparentDraw (List.ne_nil_of_length_eq_add_one hlen)
    (utf8.toCharset.encode (lit "text"))
  exact ⟨⟨_, henc, hwf, (hiff _).mpr (Or.inr hwf)⟩,
    (hiff _).mpr (Or.inl (matchEnvelope_eq_none (Or.inl (by decide))))⟩

theorem matchEnvelope_elements_empty : matchEnvelope (elements ⟨[], []⟩) = some ([], []) := by
  have h := matchEnvelope_append_elements [] (v := ⟨[], []⟩) (by simp) (by simp)
    (show ¬ closeTag <:+: [] by decide)
  rwa [List.append_nil, List.nil_append] at h

/-- Two empty values are an exception. -/
theorem not_rejectsMalformed_elements_empty :
    Malformed (elements ⟨[], []⟩) ∧
      (⟨transparentPair 7⟩ : Cryptor transparent).decrypt utf8.toCharset (elements ⟨[], []⟩) =
        .error .illegalArgument ∧
      ¬ RejectsMalformed (⟨transparentPair 7⟩ : Cryptor transparent) utf8.toCharset
        (elements ⟨[], []⟩) := by
  have hmalformed : Malformed (elements ⟨[], []⟩) :=
    .keyTooShort matchEnvelope_elements_empty (show Base64.decode [] = some [] by decide)
      (by simp)
  have hbytes : ivAndCipherKeyBytes (elements ⟨[], []⟩) = some [] := by
    rw [ivAndCipherKeyBytes, matchEnvelope_elements_empty]
    decide
  have hdecrypt := decrypt_of_short (⟨transparentPair 7⟩ : Cryptor transparent) utf8.toCharset
    hbytes (by simp)
  refine ⟨hmalformed, hdecrypt, ?_⟩
  intro h
  have hok := h.errorText hmalformed
  rw [hdecrypt] at hok
  exact error_ne_ok hok

/-! ## Telling a rejected document -/

/-- The response that `POST xml/decrypt` builds from what `decrypt` did. -/
def respond (pl : Platform) (outcome : Except JavaException JString) :
    Except JavaException (List UInt8) := do
  let plainText ← outcome
  return pl.println plainText

theorem decrypt_eq_respond (r : XMLEncryptionResource P) (pl : Platform) (body : List UInt8) :
    r.decrypt pl body =
      respond pl (r.cryptor.decrypt pl.charset.toCharset (decodeUtf8String body)) :=
  rfl

/-- Two texts make the same response when the default charset writes them alike. -/
theorem respond_eq_respond_iff (pl : Platform) (s t : JString) :
    respond pl (.ok s) = respond pl (.ok t) ↔ pl.charset.encode s = pl.charset.encode t := by
  rw [← List.append_left_inj (asciiBytes pl.lineSeparator.text), ← println_eq, ← println_eq]
  unfold respond
  simp

/-- The error text makes the same response as what the default charset keeps of a text
when the charset writes both texts alike. -/
theorem respond_invalidFormat_eq_iff (pl : Platform) (t p : JString) :
    respond pl (.ok (invalidFormat ++ t)) =
        respond pl (.ok (pl.charset.decode (pl.charset.encode p))) ↔
      pl.charset.encode p = pl.charset.encode (invalidFormat ++ t) := by
  have hkept : pl.charset.encode (pl.charset.decode (pl.charset.encode p)) =
      pl.charset.encode p := pl.charset.encode_decode_encode p
  rw [respond_eq_respond_iff, hkept]
  exact eq_comm

/-- What comes of a rejected document differs from what comes of an encrypted text, for
the caller of `decrypt` and for the client of the resource. -/
structure ToldApart (c : Cryptor P) (pl : Platform) (draw : Draw P) (t p : JString) : Prop where
  outcome : c.decrypt pl.charset.toCharset t ≠
    (c.encrypt pl.charset.toCharset draw p >>= c.decrypt pl.charset.toCharset)
  response : respond pl (c.decrypt pl.charset.toCharset t) ≠
    respond pl (c.encrypt pl.charset.toCharset draw p >>= c.decrypt pl.charset.toCharset)

/-- A rejected document can be told from an encrypted text exactly when the default
charset writes that text otherwise than the error text. -/
theorem toldApart_iff (c : Cryptor P) (pl : Platform) (haes : P.AesInverts)
    (hrsa : c.keyPair.RsaInverts) (draw : Draw P) (t : JString) (ht : matchEnvelope t = none)
    (p : JString) :
    ToldApart c pl draw t p ↔
      pl.charset.encode p ≠ pl.charset.encode (invalidFormat ++ t) := by
  have hrejected : c.decrypt pl.charset.toCharset t = .ok (invalidFormat ++ t) :=
    decrypt_of_no_match ht
  have hread : (c.encrypt pl.charset.toCharset draw p >>= c.decrypt pl.charset.toCharset) =
      .ok (pl.charset.decode (pl.charset.encode p)) :=
    encrypt_bind_decrypt pl.charset.toCharset haes hrsa draw p
  have hresponse : respond pl (c.decrypt pl.charset.toCharset t) =
        respond pl (c.encrypt pl.charset.toCharset draw p >>= c.decrypt pl.charset.toCharset) ↔
      pl.charset.encode p = pl.charset.encode (invalidFormat ++ t) := by
    rw [hrejected, hread, respond_invalidFormat_eq_iff]
  constructor
  · intro h hsame
    exact h.response (hresponse.mpr hsame)
  · intro h
    -- two outcomes that are the same make the same response
    have hdiffer := fun hsame => h (hresponse.mp hsame)
    exact ⟨fun hsame => hdiffer (congrArg (respond pl) hsame), hdiffer⟩

/-- So it is for the bodies of requests: a rejected one, and the response to another that
was encrypted. -/
theorem decrypt_ne_iff_of_rejected (r : XMLEncryptionResource P) (pl : Platform)
    (haes : P.AesInverts) (hrsa : r.cryptor.keyPair.RsaInverts) (draw : Draw P)
    {rejected : List UInt8} (h : matchEnvelope (decodeUtf8String rejected) = none)
    (body : List UInt8) :
    r.decrypt pl rejected ≠ (r.encrypt pl draw body >>= r.decrypt pl) ↔
      pl.charset.encode (decodeUtf8String body) ≠
        pl.charset.encode (invalidFormat ++ decodeUtf8String rejected) := by
  rw [ne_eq, ne_eq, ← respond_invalidFormat_eq_iff, decrypt_eq_respond, decrypt_of_no_match h,
    decrypt_encrypt_bytes pl haes hrsa]
  rfl

/-- A document without values and a text of one word. -/
theorem toldApart_note :
    ToldApart (⟨transparentPair 7⟩ : Cryptor transparent) ⟨utf8, .lf⟩ transparentDraw
      (lit "<note>text</note>") (lit "text") :=
  (toldApart_iff ⟨transparentPair 7⟩ ⟨utf8, .lf⟩ transparent_aesInverts
    (transparent_rsaInverts 7) transparentDraw (lit "<note>text</note>")
    (matchEnvelope_eq_none (Or.inl (by decide))) (lit "text")).mpr (by decide)

/-- The empty document and its own error text. -/
theorem not_toldApart_invalidFormat :
    matchEnvelope [] = none ∧
      ¬ ToldApart (⟨transparentPair 7⟩ : Cryptor transparent) ⟨utf8, .lf⟩ transparentDraw []
        invalidFormat := by
  have hnone : matchEnvelope [] = none := matchEnvelope_eq_none (Or.inl (by decide))
  have hlossless : utf8.toCharset.Lossless invalidFormat := utf8_lossless_lit _
  have hread := encrypt_bind_decrypt (c := (⟨transparentPair 7⟩ : Cryptor transparent))
    utf8.toCharset transparent_aesInverts (transparent_rsaInverts 7) transparentDraw invalidFormat
  rw [hlossless] at hread
  refine ⟨hnone, ?_⟩
  intro h
  apply h.outcome
  rw [decrypt_of_no_match hnone, List.append_nil]
  exact hread.symm

end Mockbank
