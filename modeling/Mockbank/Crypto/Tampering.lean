import Mathlib.Algebra.Group.Units.Equiv
import Mockbank.Cipher.Chaining
import Mockbank.Cipher.Padding
import Mockbank.Resource.XmlEncryption

/-!
# Documents altered without a key

Nothing in an envelope authenticates its values.  With `AES/CBC/PKCS5Padding` as cipher
block chaining around any permutation of the blocks, this file follows what the service
makes of a document whose IV and ciphertext blocks somebody has changed.

Main results:

- Theorem `aesInverts_of_cbc`: such a cipher is inverted by its decryption.
- Theorem `decrypt_alter`: what an altered document is decrypted to.
- Theorem `decrypt_altered_text`: the end of a text, its first block changed at will, is
  returned as if it had been encrypted.
- Theorem `answers_tell_text`: whether altered documents are answered or refused tells the
  text of a document.
-/

namespace Mockbank

open Jvm Cipher

variable {P : Provider}

/-! ## The cipher -/

/-- What `doFinal` makes of the padding. -/
def unpadded (data : Option (List UInt8)) : Except JavaException (List UInt8) :=
  data.elim (.error .generalSecurity) .ok

/-- `AES/CBC/PKCS5Padding` under 16-byte keys: cipher block chaining around a permutation of
the 16-byte blocks for every key, with PKCS5 padding that is checked. -/
structure Provider.AesIsCbc (P : Provider) (aes : List UInt8 → Equiv.Perm (Block 16)) :
    Prop where
  init : ∀ key, key.length = 16 → P.aesInit key = .ok ()
  encrypt : ∀ key (iv : Block 16) data, key.length = 16 →
    P.aesEncrypt key iv.bytes data = join (Chaining.encrypt (aes key) iv (split 16 (pad 16 data)))
  decrypt : ∀ key (iv : Block 16) blocks, key.length = 16 → blocks ≠ [] →
    P.aesDecrypt key iv.bytes (join blocks) =
      unpadded (unpad 16 (join (Chaining.decrypt (aes key) iv blocks)))

/-- The blocks of the padded text. -/
def textBlocks (plain : List UInt8) : List (Block 16) :=
  split 16 (pad 16 plain)

theorem join_textBlocks (plain : List UInt8) : join (textBlocks plain) = pad 16 plain :=
  join_split (dvd_length_pad (by decide) plain)

theorem length_textBlocks (plain : List UInt8) :
    (textBlocks plain).length = plain.length / 16 + 1 := by
  have hlen := congrArg List.length (join_textBlocks plain)
  rw [length_join, length_pad, padLength] at hlen
  omega

/-- The padding tells where a text ends. -/
theorem textBlocks_injective {plain plain' : List UInt8}
    (h : textBlocks plain = textBlocks plain') : plain = plain' := by
  have hpad : pad 16 plain = pad 16 plain' := by
    rw [← join_textBlocks, h, join_textBlocks]
  have hunpad := unpad_pad (n := 16) (by decide) (by decide) plain
  rw [hpad, unpad_pad (by decide) (by decide)] at hunpad
  exact (Option.some.inj hunpad).symm

/-- An IV is a block. -/
theorem bytes_ofList_iv {iv : List UInt8} (h : iv.length = 16) :
    (Block.ofList iv : Block 16).bytes = iv := by
  rw [Block.bytes_ofList (Nat.le_of_eq h.symm), List.take_of_length_le (Nat.le_of_eq h)]

section Chained

variable {aes : List UInt8 → Equiv.Perm (Block 16)}

/-- What a document holds of the blocks of its text. -/
theorem aesEncrypt_eq (hcbc : P.AesIsCbc aes) (draw : Draw P) (plain : List UInt8) :
    P.aesEncrypt draw.secretKey draw.iv plain =
      join (Chaining.encrypt (aes draw.secretKey) (Block.ofList draw.iv) (textBlocks plain)) := by
  have h := hcbc.encrypt draw.secretKey (Block.ofList draw.iv) plain draw.secretKey_length
  rwa [bytes_ofList_iv draw.iv_length] at h

/-- Chaining with padding is inverted by its decryption. -/
theorem aesInverts_of_cbc (hcbc : P.AesIsCbc aes) : P.AesInverts where
  init := hcbc.init
  decrypt key iv data hkey hiv := by
    have hne : Chaining.encrypt (aes key) (Block.ofList iv) (textBlocks data) ≠ [] := by
      rw [← List.length_pos_iff, Chaining.length_encrypt, length_textBlocks]
      omega
    have henc := hcbc.encrypt key (Block.ofList iv) data hkey
    have hdec := hcbc.decrypt key (Block.ofList iv) _ hkey hne
    rw [bytes_ofList_iv hiv] at henc hdec
    rw [henc]
    refine hdec.trans ?_
    rw [Chaining.decrypt_encrypt_blocks, join_textBlocks, unpad_pad (by decide) (by decide)]
    rfl

end Chained

/-! ## Altered documents -/

/-- The values with `k` ciphertext blocks from the `i`-th on, and for an IV the block in front
of them with `d` added to it. -/
def alterValues (i k : Nat) (d : Block 16) (v : CipherKeyAndData) : Option CipherKeyAndData := do
  let ivAndCipherKeyBytes ← Base64.decode v.cipherKey
  let cipherDataBytes ← Base64.decode v.cipherData
  let blocks : List (Block 16) := split 16 cipherDataBytes
  let front := (blocks.take i).getLastD (Block.ofList ivAndCipherKeyBytes)
  return ⟨Base64.encode ((front + d).bytes ++ ivAndCipherKeyBytes.drop 16),
    Base64.encode (join ((blocks.drop i).take k))⟩

/-- A document with its values altered. -/
def alter (i k : Nat) (d : Block 16) (document : JString) : Option JString := do
  let (cipherKey, cipherData) ← matchEnvelope document
  let v ← alterValues i k d ⟨cipherKey, cipherData⟩
  return envelope v

/-- How many blocks a document holds. -/
def blockCount (document : JString) : Nat :=
  (matchEnvelope document).elim 0 fun v => ((Base64.decode v.2).getD []).length / 16

section Alter

variable {aes : List UInt8 → Equiv.Perm (Block 16)}

/-- The values of an altered document. -/
def alteredValues (aes : List UInt8 → Equiv.Perm (Block 16)) (draw : Draw P)
    (wrapped plain : List UInt8) (i k : Nat) (d : Block 16) : CipherKeyAndData :=
  let blocks := Chaining.encrypt (aes draw.secretKey) (Block.ofList draw.iv) (textBlocks plain)
  ⟨Base64.encode (((blocks.take i).getLastD (Block.ofList draw.iv) + d).bytes ++ wrapped),
    Base64.encode (join ((blocks.drop i).take k))⟩

theorem alter_written (hcbc : P.AesIsCbc aes) (draw : Draw P) (wrapped plain : List UInt8)
    (i k : Nat) (d : Block 16) :
    alter i k d (envelope (writtenValues draw wrapped plain)) =
      some (envelope (alteredValues aes draw wrapped plain i k d)) := by
  have hiv : (Block.ofList (draw.iv ++ wrapped) : Block 16) = Block.ofList draw.iv := by
    rw [← bytes_ofList_iv draw.iv_length, Block.ofList_bytes_append, Block.ofList_bytes]
  have hdrop : (draw.iv ++ wrapped).drop 16 = wrapped := List.drop_left' draw.iv_length
  rw [alter, matchEnvelope_written]
  simp only [writtenValues, alterValues, Base64.decode_encode, aesEncrypt_eq hcbc, hiv, hdrop,
    split_join (n := 16) (by decide), Option.bind_eq_bind, Option.bind_some, Option.pure_def]
  rfl

theorem blockCount_written (hcbc : P.AesIsCbc aes) (draw : Draw P)
    (wrapped plain : List UInt8) :
    blockCount (envelope (writtenValues draw wrapped plain)) = (textBlocks plain).length := by
  rw [blockCount, matchEnvelope_written]
  simp only [writtenValues, Base64.decode_encode, aesEncrypt_eq hcbc, Option.elim_some,
    Option.getD_some, length_join, Chaining.length_encrypt]
  exact Nat.mul_div_cancel _ (by decide)

/-- An altered document is decrypted to the blocks it keeps with `d` added to the first of
them, and is refused when they do not end in padding. -/
theorem decrypt_alter {c : Cryptor P} (cs : Charset) (hcbc : P.AesIsCbc aes) {draw : Draw P}
    {wrapped plain : List UInt8}
    (hrsa : P.rsaDecrypt c.keyPair.privateKey wrapped = .ok draw.secretKey) {i k : Nat}
    (hi : i < (textBlocks plain).length) (hk : 0 < k) (d : Block 16) :
    c.decrypt cs (envelope (alteredValues aes draw wrapped plain i k d)) =
      (unpadded (unpad 16 (join
        ((((textBlocks plain).drop i).take k).modifyHead (· + d))))).map cs.decode := by
  have hne : ((Chaining.encrypt (aes draw.secretKey) (Block.ofList draw.iv)
      (textBlocks plain)).drop i).take k ≠ [] := by
    rw [← List.length_pos_iff, List.length_take, List.length_drop, Chaining.length_encrypt]
    omega
  have hsub : ∀ b : Block 16, b + d = b - d := fun _ => rfl
  rw [alteredValues, decrypt_of_match (matchEnvelope_envelope _ _),
    decryptKeyAndData_of_unwrapped (aesInverts_of_cbc hcbc) (base64Decode_encode _)
      (Block.length_bytes _) (base64Decode_encode _) hrsa draw.secretKey_length,
    hcbc.decrypt _ _ _ draw.secretKey_length hne, hsub, Chaining.decrypt_segment]

end Alter

/-! ## Undetected alterations -/

/-- Behind the front of a padded text comes the padded rest. -/
theorem unpad_xorFront {plain : List UInt8} {i : Nat} {d : Block 16}
    (h : 16 * i + 16 ≤ plain.length ∨ d = 0 ∧ 16 * i ≤ plain.length) :
    unpad 16 (join (((textBlocks plain).drop i).modifyHead (· + d))) =
      some (xorFront d (plain.drop (16 * i))) := by
  have hi : 16 * i ≤ plain.length := by omega
  have hpad := unpad_eq_some_iff.mp (unpad_pad (n := 16) (by decide) (by decide) plain)
  rcases hpad with ⟨b, hpos, hle, hpad⟩
  rw [join_modifyHead_add, ← drop_join, join_textBlocks, Nat.mul_comm, hpad,
    List.drop_append_of_le_length hi, unpad_eq_some_iff]
  refine ⟨b, hpos, hle, ?_⟩
  rcases h with hlen | ⟨rfl, -⟩
  · apply xorFront_append
    rw [List.length_drop]
    omega
  · rw [xorFront_zero, xorFront_zero]

/-- Whoever has a document can cut off blocks in front of its text and change the bits of the
first remaining block: the service returns what has been made of the text as if it had been
encrypted, as long as the changed block is not the last. -/
theorem decrypt_altered_text {aes : List UInt8 → Equiv.Perm (Block 16)} (c : Cryptor P)
    (cs : Charset) (hcbc : P.AesIsCbc aes) (hrsa : c.keyPair.RsaInverts) (draw : Draw P)
    (s : JString) (i : Nat) (d : Block 16)
    (h : 16 * i + 16 ≤ (cs.encode s).length ∨ d = 0 ∧ 16 * i ≤ (cs.encode s).length) :
    ∃ document altered, c.encrypt cs draw s = .ok document ∧
      alter i (blockCount document) d document = some altered ∧
      c.decrypt cs altered = .ok (cs.decode (xorFront d ((cs.encode s).drop (16 * i)))) := by
  obtain ⟨wrapped, hunwrap, henc, _⟩ := encrypt_spec cs (aesInverts_of_cbc hcbc) hrsa draw s
  refine ⟨_, _, henc, alter_written hcbc draw wrapped _ i _ d, ?_⟩
  have hlen := length_textBlocks (cs.encode s)
  have hall : ((textBlocks (cs.encode s)).drop i).take (textBlocks (cs.encode s)).length =
      (textBlocks (cs.encode s)).drop i := by
    apply List.take_of_length_le
    rw [List.length_drop]
    omega
  rw [blockCount_written hcbc, decrypt_alter cs hcbc hunwrap (by omega) (by omega), hall,
    unpad_xorFront h]
  rfl

/-! ## What the answers tell -/

/-- The service answers a request instead of failing. -/
def Accepts (r : XMLEncryptionResource P) (pl : Platform) (body : List UInt8) : Prop :=
  ∃ out, r.decrypt pl body = .ok out

/-- The answers to a document cut down to its `i`-th block, with `d` added to the block in
front. -/
def Answers (r : XMLEncryptionResource P) (pl : Platform) (document : JString) (i : Nat)
    (d : Block 16) : Prop :=
  ∃ altered, alter i 1 d document = some altered ∧ Accepts r pl (asciiBytes altered)

/-- A request is answered when `decrypt` returns. -/
theorem accepts_asciiBytes_iff (r : XMLEncryptionResource P) (pl : Platform) {t : JString}
    (ht : IsAscii t) :
    Accepts r pl (asciiBytes t) ↔
      ∃ s, r.cryptor.decrypt pl.charset.toCharset t = .ok s := by
  have htext : decodeUtf8String (asciiBytes t) = t := utf8.decode_asciiBytes ht
  have hdecrypt : r.decrypt pl (asciiBytes t) =
      r.cryptor.decrypt pl.charset.toCharset t >>= fun s => .ok (pl.println s) := by
    rw [XMLEncryptionResource.decrypt, htext]
    rfl
  rw [Accepts, hdecrypt]
  cases r.cryptor.decrypt pl.charset.toCharset t <;> simp

section Answers

variable {aes : List UInt8 → Equiv.Perm (Block 16)} {r : XMLEncryptionResource P}
  {draw draw' : Draw P} {wrapped wrapped' : List UInt8}

/-- Whether the cut down document is answered depends on the padding of the block that it
keeps. -/
theorem answers_written_iff (pl : Platform) (hcbc : P.AesIsCbc aes) {plain : List UInt8}
    (hrsa : P.rsaDecrypt r.cryptor.keyPair.privateKey wrapped = .ok draw.secretKey) {i : Nat}
    (hi : i < (textBlocks plain).length) (d : Block 16) :
    Answers r pl (envelope (writtenValues draw wrapped plain)) i d ↔
      Padded 16 ((textBlocks plain)[i] + d).bytes := by
  have hblock : (((textBlocks plain).drop i).take 1).modifyHead (· + d) =
      [(textBlocks plain)[i] + d] := by
    rw [List.drop_eq_getElem_cons hi]
    rfl
  have hascii : IsAscii (envelope (alteredValues aes draw wrapped plain i 1 d)) :=
    isAscii_envelope (Base64.isAscii_encode _) (Base64.isAscii_encode _)
  have hdec := decrypt_alter pl.charset.toCharset hcbc hrsa hi (by decide : 0 < 1) d
  rw [hblock, join_cons, join_nil, List.append_nil] at hdec
  simp only [Answers, alter_written hcbc, Option.some.injEq, exists_eq_left',
    accepts_asciiBytes_iff r pl hascii, hdec, Padded]
  cases unpad 16 ((textBlocks plain)[i] + d).bytes <;> simp [unpadded, Except.map]

/-- Two documents whose cut down forms are all answered alike hold the same text. -/
theorem eq_of_answers (pl : Platform) (hcbc : P.AesIsCbc aes) {plain plain' : List UInt8}
    (hrsa : P.rsaDecrypt r.cryptor.keyPair.privateKey wrapped = .ok draw.secretKey)
    (hrsa' : P.rsaDecrypt r.cryptor.keyPair.privateKey wrapped' = .ok draw'.secretKey)
    (hlength : (textBlocks plain).length = (textBlocks plain').length)
    (h : ∀ i < (textBlocks plain).length, ∀ d,
      Answers r pl (envelope (writtenValues draw wrapped plain)) i d ↔
        Answers r pl (envelope (writtenValues draw' wrapped' plain')) i d) :
    plain = plain' := by
  apply textBlocks_injective
  apply List.ext_getElem hlength
  intro i hi hi'
  apply eq_of_padded_iff (by decide) (by decide)
  intro d
  rw [← answers_written_iff pl hcbc hrsa hi, ← answers_written_iff pl hcbc hrsa' hi']
  exact h i hi d

/-- Which of the cut down forms of a document are answered and which are refused tells its
text, and nothing else: all answers are the same for two encrypted texts exactly when the
default charset writes the texts alike. -/
theorem answers_tell_text (r : XMLEncryptionResource P) (pl : Platform) (hcbc : P.AesIsCbc aes)
    (hrsa : r.cryptor.keyPair.RsaInverts) (draw draw' : Draw P) (s s' : JString) :
    ∃ document document',
      r.cryptor.encrypt pl.charset.toCharset draw s = .ok document ∧
      r.cryptor.encrypt pl.charset.toCharset draw' s' = .ok document' ∧
      ((blockCount document = blockCount document' ∧
          ∀ i < blockCount document, ∀ d,
            Answers r pl document i d ↔ Answers r pl document' i d) ↔
        pl.charset.encode s = pl.charset.encode s') := by
  have haes := aesInverts_of_cbc hcbc
  obtain ⟨wrapped, hunwrap, henc, _⟩ := encrypt_spec pl.charset.toCharset haes hrsa draw s
  obtain ⟨wrapped', hunwrap', henc', _⟩ := encrypt_spec pl.charset.toCharset haes hrsa draw' s'
  refine ⟨_, _, henc, henc', ?_⟩
  rw [blockCount_written hcbc, blockCount_written hcbc]
  constructor
  · rintro ⟨hlength, h⟩
    exact eq_of_answers pl hcbc hunwrap hunwrap' hlength h
  · intro h
    have hplain : pl.charset.toCharset.encode s = pl.charset.toCharset.encode s' := h
    rw [hplain]
    refine ⟨rfl, ?_⟩
    intro i hi d
    rw [answers_written_iff pl hcbc hunwrap hi, answers_written_iff pl hcbc hunwrap' hi]

end Answers

/-! ## A provider to compute with -/

/-- The transparent provider with a real chaining mode: a block is encrypted by adding the
key. -/
def chained : Provider :=
  { transparent with
    aesEncrypt := fun key iv data => join (Chaining.encrypt (Equiv.addRight (Block.ofList key))
      (Block.ofList iv) (textBlocks data))
    aesDecrypt := fun key iv data => unpadded (unpad 16 (join (Chaining.decrypt
      (Equiv.addRight (Block.ofList key)) (Block.ofList iv) (split 16 data)))) }

theorem chained_aesIsCbc : chained.AesIsCbc fun key => Equiv.addRight (Block.ofList key) where
  init key hkey := transparent_aesInverts.init key hkey
  encrypt key iv data _ := by
    show join (Chaining.encrypt _ (Block.ofList iv.bytes) _) = _
    rw [Block.ofList_bytes]
    rfl
  decrypt key iv blocks _ _ := by
    show unpadded (unpad 16 (join (Chaining.decrypt _ (Block.ofList iv.bytes) _))) = _
    rw [Block.ofList_bytes, split_join (by decide)]

/-- The pair of one byte. -/
def chainedPair (k : UInt8) : KeyPair chained where
  publicKey := k
  privateKey := k

theorem chained_rsaInverts (k : UInt8) : (chainedPair k).RsaInverts :=
  fun _ _ hkey => unwrapKey_wrapKey k hkey

/-- Sixteen threes for a key and sixteen fours for an IV. -/
def chainedDraw : Draw chained where
  secretKey := List.replicate 16 3
  iv := List.replicate 16 4
  seed := ()
  secretKey_length := rfl
  iv_length := rfl

/-- A block with every bit set. -/
def allBits : Block 16 where
  byte _ := 0xFF

/-- A text of 18 characters with every bit of its first block changed. -/
theorem decrypt_altered_text_first :
    ∃ document altered,
      (⟨chainedPair 7⟩ : Cryptor chained).encrypt utf8.toCharset chainedDraw
        (lit "<amount>1</amount>") = .ok document ∧
      alter 0 (blockCount document) allBits document = some altered ∧
      (⟨chainedPair 7⟩ : Cryptor chained).decrypt utf8.toCharset altered =
        .ok (utf8.toCharset.decode (xorFront allBits
          ((utf8.toCharset.encode (lit "<amount>1</amount>")).drop (16 * 0)))) :=
  decrypt_altered_text ⟨chainedPair 7⟩ utf8.toCharset chained_aesIsCbc (chained_rsaInverts 7)
    chainedDraw _ 0 allBits (Or.inl (by rw [lit_ofList]; decide))

/-- Two words. -/
theorem answers_tell_text_words :
    ∃ document document',
      (⟨chainedPair 7⟩ : Cryptor chained).encrypt utf8.toCharset chainedDraw (lit "yes") =
        .ok document ∧
      (⟨chainedPair 7⟩ : Cryptor chained).encrypt utf8.toCharset chainedDraw (lit "no") =
        .ok document' ∧
      ((blockCount document = blockCount document' ∧
          ∀ i < blockCount document, ∀ d,
            Answers (⟨⟨chainedPair 7⟩⟩ : XMLEncryptionResource chained) ⟨utf8, .lf⟩ document i d ↔
              Answers (⟨⟨chainedPair 7⟩⟩ : XMLEncryptionResource chained) ⟨utf8, .lf⟩ document'
                i d) ↔
        utf8.encode (lit "yes") = utf8.encode (lit "no")) :=
  answers_tell_text ⟨⟨chainedPair 7⟩⟩ ⟨utf8, .lf⟩ chained_aesIsCbc (chained_rsaInverts 7)
    chainedDraw chainedDraw _ _

end Mockbank
