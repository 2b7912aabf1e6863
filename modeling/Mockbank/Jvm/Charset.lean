import Mathlib.Data.List.Induction
import Mockbank.Jvm.Utf8

/-!
# Charsets

`String.getBytes()` and `new String(byte[])` use the default charset of the
platform, whichever it is.  A `Charset` is any such pair of functions.  An
`AsciiCharset` is one that encodes code point by code point, writes ASCII
characters as their own byte and puts a question mark in the place of what it
cannot encode.

Main results:

- Definitions `utf8`, `latin1` and `usAscii`: three default charsets a server
  can run under.
- Theorem `AsciiCharset.encode_append_cons`: an ASCII character is one byte
  whatever stands around it.
- Theorem `utf8_lossless_ofChars`: Unicode text survives UTF-8.
- Theorem `AsciiCharset.encode_append_ne`: a charset and a line separator more cannot
  write what UTF-8 writes.
- Theorem `oneByte_agrees_iff`: the one-byte charsets agree with UTF-8 on ASCII text
  only.
-/

namespace Jvm

/-- The default charset, as `getBytes()` and `new String(byte[])` use it. -/
structure Charset where
  encode : JString → List UInt8
  decode : List UInt8 → JString

/-- Decoding the bytes of the string gives it back. -/
def Charset.Lossless (cs : Charset) (s : JString) : Prop :=
  cs.decode (cs.encode s) = s

/-- A string of ASCII characters. -/
def IsAscii (s : JString) : Prop :=
  ∀ u ∈ s, u.toNat < 0x80

instance (s : JString) : Decidable (IsAscii s) :=
  decidable_of_iff (s.all fun u => u.toNat < 0x80) (by simp [IsAscii])

theorem isAscii_append_iff {s t : JString} : IsAscii (s ++ t) ↔ IsAscii s ∧ IsAscii t :=
  List.forall_mem_append

theorem IsAscii.append {s t : JString} (hs : IsAscii s) (ht : IsAscii t) :
    IsAscii (s ++ t) :=
  isAscii_append_iff.mpr ⟨hs, ht⟩

/-- The bytes of an ASCII string. -/
def asciiBytes (s : JString) : List UInt8 :=
  s.map (·.toUInt8)

/-- The encoder's replacement for what the charset cannot represent: `?`. -/
def replacementByte : UInt8 := 0x3F

/-- One code point under an encoder given character by character. -/
def encodeCodePoint (encodeChar : Char → Option (List UInt8)) : CodePoint → List UInt8
  | .scalar c => (encodeChar c).getD [replacementByte]
  | .lone _ => [replacementByte]

/-- `String.getBytes` for an encoder given character by character. -/
def encodeWith (encodeChar : Char → Option (List UInt8)) (s : JString) : List UInt8 :=
  (codePoints s).flatMap (encodeCodePoint encodeChar)

/-- A charset that extends US-ASCII.  `encodeChar` is `none` on unmappable
characters, and what the decoder makes of encoded text encodes to the same bytes
again. -/
structure AsciiCharset where
  encodeChar : Char → Option (List UInt8)
  decode : List UInt8 → JString
  encodeChar_ascii : ∀ c : Char, c.toNat < 0x80 → encodeChar c = some [UInt8.ofNat c.toNat]
  decode_ascii : ∀ bs : List UInt8, (∀ b ∈ bs, b.toNat < 0x80) →
    decode bs = bs.map (·.toUInt16)
  encode_decode_encode : ∀ s : JString,
    encodeWith encodeChar (decode (encodeWith encodeChar s)) = encodeWith encodeChar s

namespace AsciiCharset

/-- `String.getBytes()` under the charset. -/
def encode (cs : AsciiCharset) (s : JString) : List UInt8 :=
  encodeWith cs.encodeChar s

/-- The charset with its laws forgotten. -/
def toCharset (cs : AsciiCharset) : Charset where
  encode := cs.encode
  decode := cs.decode

variable (cs : AsciiCharset)

theorem encode_nil : cs.encode [] = [] := by
  simp [encode, encodeWith]

/-- A unit below 128 is a code point that every such charset writes as one byte. -/
theorem encode_cons_ascii {u : JChar} (hu : u.toNat < 0x80) (t : JString) :
    cs.encode (u :: t) = u.toUInt8 :: cs.encode t := by
  have hhigh : isHighSurrogate u = false := by
    simp only [isHighSurrogate, Bool.and_eq_false_iff, decide_eq_false_iff_not]
    omega
  have hlow : isLowSurrogate u = false := by
    simp only [isLowSurrogate, Bool.and_eq_false_iff, decide_eq_false_iff_not]
    omega
  have hchar : (Char.ofNat u.toNat).toNat = u.toNat := toNat_ofNat_of_lt (by omega)
  have hbyte : UInt8.ofNat u.toNat = u.toUInt8 := by
    rw [UInt16.toUInt8, UInt16.toNat]
  rw [encode, encodeWith, codePoints_cons_of_not_high hhigh, List.flatMap_cons]
  simp only [singleCodePoint, hhigh, hlow, Bool.or_self, Bool.false_eq_true, if_false,
    encodeCodePoint]
  rw [cs.encodeChar_ascii _ (by omega), hchar, hbyte]
  rfl

/-- An ASCII character is one byte whatever stands around it. -/
theorem encode_append_cons {u : JChar} (hu : u.toNat < 0x80) (s t : JString) :
    cs.encode (s ++ u :: t) = cs.encode s ++ u.toUInt8 :: cs.encode t := by
  have hlow : isLowSurrogate u = false := by
    simp only [isLowSurrogate, Bool.and_eq_false_iff, decide_eq_false_iff_not]
    omega
  have hcut : cs.encode (s ++ u :: t) = cs.encode s ++ cs.encode (u :: t) := by
    simp only [encode, encodeWith, codePoints_append_of_not_low hlow, List.flatMap_append]
  rw [hcut, encode_cons_ascii cs hu]

/-- ASCII text in front contributes its own bytes. -/
theorem encode_ascii_append {a : JString} (ha : IsAscii a) (t : JString) :
    cs.encode (a ++ t) = asciiBytes a ++ cs.encode t := by
  induction a with
  | nil => rfl
  | cons u a ih =>
      rw [List.cons_append, cs.encode_cons_ascii (ha u (by simp)),
        ih (fun x hx => ha x (by simp [hx]))]
      rfl

/-- ASCII text behind contributes its own bytes. -/
theorem encode_append_ascii (s : JString) {a : JString} (ha : IsAscii a) :
    cs.encode (s ++ a) = cs.encode s ++ asciiBytes a := by
  cases a with
  | nil => simp [asciiBytes]
  | cons u a =>
      have hrest : IsAscii a := fun x hx => ha x (by simp [hx])
      have htail := cs.encode_ascii_append hrest []
      rw [cs.encode_append_cons (ha u (by simp))]
      rw [List.append_nil, cs.encode_nil, List.append_nil] at htail
      rw [htail]
      rfl

/-- ASCII text is encoded as its own bytes. -/
theorem encode_ascii {a : JString} (ha : IsAscii a) : cs.encode a = asciiBytes a := by
  have h := cs.encode_ascii_append ha []
  rwa [List.append_nil, cs.encode_nil, List.append_nil] at h

end AsciiCharset

/-- Every ASCII unit of a string takes a byte of its own. -/
theorem AsciiCharset.length_filter_ascii_le (cs : AsciiCharset) (s : JString) :
    (s.filter fun u => u.toNat < 0x80).length ≤ (cs.encode s).length := by
  induction hn : s.length using Nat.strongRecOn generalizing s with
  | _ n ih =>
      by_cases hmem : ∃ u ∈ s, u.toNat < 0x80
      · rcases hmem with ⟨u, hu, hlt⟩
        rcases List.append_of_mem hu with ⟨a, b, rfl⟩
        have ha := ih a.length (by rw [← hn]; simp) a rfl
        have hb := ih b.length (by rw [← hn]; simp; omega) b rfl
        rw [cs.encode_append_cons hlt, List.filter_append, List.filter_cons_of_pos (by simpa)]
        simp only [List.length_append, List.length_cons]
        omega
      · have hnil : (s.filter fun u => u.toNat < 0x80) = [] := by
          rw [List.filter_eq_nil_iff]
          intro u hu hlt
          exact hmem ⟨u, hu, by simpa using hlt⟩
        rw [hnil]
        exact Nat.zero_le _

/-! ## ASCII text and its bytes -/

theorem toNat_toUInt8_of_ascii {u : JChar} (hu : u.toNat < 0x80) :
    u.toUInt8.toNat = u.toNat := by
  rw [UInt16.toNat_toUInt8]
  omega

theorem asciiBytes_lt {s : JString} (hs : IsAscii s) :
    ∀ b ∈ asciiBytes s, b.toNat < 0x80 := by
  intro b hb
  rcases List.mem_map.mp hb with ⟨u, hu, rfl⟩
  rw [toNat_toUInt8_of_ascii (hs u hu)]
  exact hs u hu

/-- Widening the bytes of ASCII text gives the text back. -/
theorem map_toUInt16_asciiBytes {s : JString} (hs : IsAscii s) :
    (asciiBytes s).map (·.toUInt16) = s := by
  rw [asciiBytes, List.map_map]
  refine (List.map_congr_left ?_).trans (List.map_id s)
  intro u hu
  have hlt := hs u hu
  apply UInt16.toNat_inj.mp
  simp only [Function.comp_apply, UInt8.toNat_toUInt16, UInt16.toNat_toUInt8, id_eq]
  omega

/-- Every ASCII-compatible charset reads ASCII bytes as ASCII text. -/
theorem AsciiCharset.decode_asciiBytes (cs : AsciiCharset) {s : JString} (hs : IsAscii s) :
    cs.decode (asciiBytes s) = s := by
  rw [cs.decode_ascii _ (asciiBytes_lt hs), map_toUInt16_asciiBytes hs]

theorem units_of_ascii {c : Char} (hc : c.toNat < 0x80) : units c = [UInt16.ofNat c.toNat] := by
  rw [units, if_pos (by omega)]

/-- A literal of ASCII characters. -/
theorem isAscii_lit {cs : List Char} (hs : cs.all (·.toNat < 0x80) = true) :
    IsAscii (lit (String.ofList cs)) := by
  intro u hu
  rw [lit_ofList] at hu
  rcases List.mem_flatMap.mp hu with ⟨c, hc, hu⟩
  have hlt : c.toNat < 0x80 := by simpa using List.all_eq_true.mp hs c hc
  rw [units_of_ascii hlt, List.mem_singleton] at hu
  rw [hu, UInt16.toNat_ofNat']
  omega

/-- A literal of ASCII characters other than `<`. -/
theorem lt_not_mem_lit {cs : List Char}
    (hs : cs.all (fun c => c.toNat < 0x80 && c.toNat != 60) = true) :
    (60 : JChar) ∉ lit (String.ofList cs) := by
  intro hu
  rw [lit_ofList] at hu
  rcases List.mem_flatMap.mp hu with ⟨c, hc, hu⟩
  have hchar := List.all_eq_true.mp hs c hc
  simp only [Bool.and_eq_true, decide_eq_true_eq, bne_iff_ne] at hchar
  rw [units_of_ascii hchar.1, List.mem_singleton] at hu
  have hnat := congrArg UInt16.toNat hu
  rw [UInt16.toNat_ofNat'] at hnat
  have hval : (60 : JChar).toNat = 60 := rfl
  omega

/-- ASCII bytes read as UTF-8 and as widened code units are the same string. -/
theorem ofChars_decodeUtf8_ascii {bs : List UInt8} (h : ∀ b ∈ bs, b.toNat < 0x80) :
    ofChars (decodeUtf8 bs) = bs.map (·.toUInt16) := by
  rw [decodeUtf8_ascii bs h]
  induction bs with
  | nil => rfl
  | cons b bs ih =>
      have hb : b.toNat < 0x80 := h b (by simp)
      have hchar : (Char.ofNat b.toNat).toNat = b.toNat := toNat_ofNat_of_lt (by omega)
      have hunit : UInt16.ofNat b.toNat = b.toUInt16 := by
        apply UInt16.toNat_inj.mp
        simp only [UInt16.toNat_ofNat', UInt8.toNat_toUInt16]
        omega
      rw [List.map_cons, ofChars_cons, List.map_cons, units_of_ascii (by omega), hchar, hunit,
        ih (fun x hx => h x (by simp [hx]))]
      rfl

/-! ## UTF-8 -/

/-- The text that survives encoding in UTF-8: unpaired surrogates become `?`. -/
def utf8Survivor : CodePoint → Char
  | .scalar c => c
  | .lone _ => '?'

/-- `new String(bytes, UTF_8)` and the body readers of the platform. -/
def decodeUtf8String (bs : List UInt8) : JString :=
  ofChars (decodeUtf8 bs)

theorem encodeWith_utf8 (s : JString) :
    encodeWith (fun c => some (String.utf8EncodeChar c)) s =
      ((codePoints s).map utf8Survivor).flatMap String.utf8EncodeChar := by
  rw [encodeWith, List.flatMap_map]
  refine List.flatMap_congr ?_
  intro p _
  cases p with
  | scalar c => rfl
  | lone u => rfl

/-- Text is encoded character by character in UTF-8. -/
theorem encodeWith_utf8_ofChars (cs : List Char) :
    encodeWith (fun c => some (String.utf8EncodeChar c)) (ofChars cs) =
      cs.flatMap String.utf8EncodeChar := by
  rw [encodeWith_utf8, codePoints_ofChars, List.map_map]
  congr 1
  exact List.map_id cs

/-- The default charset of most servers. -/
def utf8 : AsciiCharset where
  encodeChar c := some (String.utf8EncodeChar c)
  decode := decodeUtf8String
  encodeChar_ascii c hc := congrArg some (utf8EncodeChar_ascii hc)
  decode_ascii bs h := ofChars_decodeUtf8_ascii h
  encode_decode_encode s := by
    rw [encodeWith_utf8 s, decodeUtf8String, decodeUtf8_flatMap, encodeWith_utf8_ofChars]

/-- Unicode text survives UTF-8. -/
theorem utf8_lossless_ofChars (cs : List Char) : utf8.toCharset.Lossless (ofChars cs) := by
  show decodeUtf8String (encodeWith (fun c => some (String.utf8EncodeChar c)) (ofChars cs)) =
    ofChars cs
  rw [encodeWith_utf8_ofChars, decodeUtf8String, decodeUtf8_flatMap]

theorem utf8_lossless_lit (s : String) : utf8.toCharset.Lossless (lit s) :=
  utf8_lossless_ofChars s.toList

/-! ## The one-byte charsets -/

/-- The encoder of a charset whose characters below `bound` are their own byte. -/
def oneByteEncodeChar (bound : Nat) (c : Char) : Option (List UInt8) :=
  if c.toNat < bound then some [UInt8.ofNat c.toNat] else none

private theorem oneByte_codePoint {bound : Nat} {b : UInt8} (hb : b.toNat < bound) :
    encodeCodePoint (oneByteEncodeChar bound) (singleCodePoint b.toUInt16) = [b] := by
  have hlt : b.toNat < 256 := b.toNat_lt
  have hnat : b.toUInt16.toNat = b.toNat := UInt8.toNat_toUInt16 b
  have hhigh : isHighSurrogate b.toUInt16 = false := by
    simp only [isHighSurrogate, hnat, Bool.and_eq_false_iff, decide_eq_false_iff_not]
    omega
  have hlow : isLowSurrogate b.toUInt16 = false := by
    simp only [isLowSurrogate, hnat, Bool.and_eq_false_iff, decide_eq_false_iff_not]
    omega
  have hchar : (Char.ofNat b.toNat).toNat = b.toNat := toNat_ofNat_of_lt (by omega)
  simp only [singleCodePoint, hhigh, hlow, hnat, Bool.or_self, Bool.false_eq_true, if_false,
    encodeCodePoint, oneByteEncodeChar]
  rw [if_pos (by omega), hchar]
  simp

/-- Widened bytes below the bound are encoded as themselves. -/
theorem encodeWith_oneByte {bound : Nat} {bs : List UInt8} (h : ∀ b ∈ bs, b.toNat < bound) :
    encodeWith (oneByteEncodeChar bound) (bs.map (·.toUInt16)) = bs := by
  induction bs with
  | nil => rfl
  | cons b bs ih =>
      have hhigh : isHighSurrogate b.toUInt16 = false := by
        have hlt : b.toNat < 256 := b.toNat_lt
        simp only [isHighSurrogate, UInt8.toNat_toUInt16, Bool.and_eq_false_iff,
          decide_eq_false_iff_not]
        omega
      have htail := ih (fun x hx => h x (by simp [hx]))
      rw [encodeWith] at htail ⊢
      rw [List.map_cons, codePoints_cons_of_not_high hhigh, List.flatMap_cons,
        oneByte_codePoint (h b (by simp)), htail]
      rfl

/-- The bytes a one-byte charset writes are below its bound. -/
theorem encodeWith_oneByte_lt {bound : Nat} (hbound : 0x80 ≤ bound) (s : JString) :
    ∀ b ∈ encodeWith (oneByteEncodeChar bound) s, b.toNat < bound := by
  intro b hb
  rcases List.mem_flatMap.mp hb with ⟨p, _, hb⟩
  cases p with
  | lone u =>
      have hq : b = replacementByte := by simpa [encodeCodePoint] using hb
      have hval : replacementByte.toNat = 0x3F := rfl
      rw [hq]
      omega
  | scalar c =>
      simp only [encodeCodePoint, oneByteEncodeChar] at hb
      split at hb
      next hc =>
        have hq : b = UInt8.ofNat c.toNat := by simpa using hb
        rw [hq, UInt8.toNat_ofNat']
        exact Nat.lt_of_le_of_lt (Nat.mod_le _ _) hc
      next hc =>
        have hq : b = replacementByte := by simpa using hb
        have hval : replacementByte.toNat = 0x3F := rfl
        rw [hq]
        omega

/-- ISO-8859-1. -/
def latin1 : AsciiCharset where
  encodeChar := oneByteEncodeChar 256
  decode bs := bs.map (·.toUInt16)
  encodeChar_ascii c hc := by
    rw [oneByteEncodeChar, if_pos (by omega)]
  decode_ascii _ _ := rfl
  encode_decode_encode s :=
    encodeWith_oneByte (encodeWith_oneByte_lt (by omega) s)

/-- US-ASCII; the decoder replaces bytes from 128 on. -/
def usAscii : AsciiCharset where
  encodeChar := oneByteEncodeChar 0x80
  decode bs := bs.map fun b => if b.toNat < 0x80 then b.toUInt16 else 0xFFFD
  encodeChar_ascii c hc := by
    rw [oneByteEncodeChar, if_pos hc]
  decode_ascii bs h := by
    refine List.map_congr_left ?_
    intro b hb
    rw [if_pos (h b hb)]
  encode_decode_encode s := by
    have hlt := encodeWith_oneByte_lt (Nat.le_refl 0x80) s
    rw [List.map_congr_left fun b hb => if_pos (hlt b hb)]
    exact encodeWith_oneByte hlt

/-! ## Agreement with UTF-8 -/

/-- The charset writes the text as the bytes that UTF-8 writes. -/
def AsciiCharset.AgreesOn (cs : AsciiCharset) (text : List Char) : Prop :=
  cs.encode (ofChars text) = text.flatMap String.utf8EncodeChar

theorem utf8_agreesOn (text : List Char) : utf8.AgreesOn text :=
  encodeWith_utf8_ofChars text

/-- ASCII bytes at the end of UTF-8 text are ASCII characters of it. -/
theorem exists_of_utf8_eq_append {text : List Char} {bs : List UInt8} {a : JString}
    (ha : IsAscii a) (h : text.flatMap String.utf8EncodeChar = bs ++ asciiBytes a) :
    ∃ text', text'.flatMap String.utf8EncodeChar = bs ∧ ofChars text = ofChars text' ++ a ∧
      text.length = text'.length + a.length := by
  induction a using List.reverseRecOn generalizing text with
  | nil => exact ⟨text, by simpa [asciiBytes] using h, by simp, by simp⟩
  | append_singleton a u ih =>
      have hu : u.toNat < 0x80 := ha u (by simp)
      have hbytes : asciiBytes (a ++ [u]) = asciiBytes a ++ [u.toUInt8] := by
        simp [asciiBytes]
      rw [hbytes, ← List.append_assoc] at h
      obtain ⟨text₁, c, rfl, h₁, hc, hcu⟩ :=
        exists_of_utf8_eq_concat h (by rw [toNat_toUInt8_of_ascii hu]; exact hu)
      rcases ih (fun x hx => ha x (by simp [hx])) h₁ with ⟨text', h', htext, hlen⟩
      have hunits : units c = [u] := by
        have hnat := congrArg UInt8.toNat hcu
        rw [toNat_toUInt8_of_ascii hu, UInt8.toNat_ofNat'] at hnat
        rw [units_of_ascii hc, show c.toNat = u.toNat by omega, UInt16.ofNat_toNat]
      refine ⟨text', h', ?_, by simp [hlen, Nat.add_assoc]⟩
      rw [ofChars_append, htext]
      simp [ofChars, hunits]

/-- A charset cannot write text as UTF-8 does and ASCII text more. -/
theorem AsciiCharset.encode_append_ne (cs : AsciiCharset) {a : JString} (ha : IsAscii a)
    (hne : a ≠ []) (text : List Char) :
    cs.encode (ofChars text) ++ asciiBytes a ≠ text.flatMap String.utf8EncodeChar := by
  intro h
  induction hn : text.length using Nat.strongRecOn generalizing text with
  | _ n ih =>
      rcases exists_of_utf8_eq_append ha h.symm with ⟨text', hutf8, htext, hlen⟩
      have hpos := List.length_pos_iff.mpr hne
      have hshort : cs.encode (ofChars text') ++ asciiBytes a =
          text'.flatMap String.utf8EncodeChar := by
        rw [hutf8, htext, cs.encode_append_ascii _ ha]
      exact ih text'.length (by omega) text' hshort rfl

theorem length_encodeWith_oneByte (bound : Nat) (text : List Char) :
    (encodeWith (oneByteEncodeChar bound) (ofChars text)).length = text.length := by
  rw [encodeWith, codePoints_ofChars, List.flatMap_map]
  induction text with
  | nil => rfl
  | cons c text ih =>
      have hone : (encodeCodePoint (oneByteEncodeChar bound) (.scalar c)).length = 1 := by
        simp only [encodeCodePoint, oneByteEncodeChar]
        split <;> rfl
      rw [List.flatMap_cons, List.length_append, ih, hone, List.length_cons, Nat.add_comm]

/-- The one-byte charsets agree with UTF-8 on ASCII text only. -/
theorem oneByte_agrees_iff {bound : Nat} (hbound : 0x80 ≤ bound) (text : List Char) :
    encodeWith (oneByteEncodeChar bound) (ofChars text) =
      text.flatMap String.utf8EncodeChar ↔ ∀ c ∈ text, c.toNat < 0x80 := by
  constructor
  · intro h
    exact ascii_of_length_utf8_le (Nat.le_of_eq (by rw [← h, length_encodeWith_oneByte]))
  · intro h
    rw [encodeWith, codePoints_ofChars, List.flatMap_map]
    refine List.flatMap_congr ?_
    intro c hc
    have hlt := h c hc
    rw [utf8EncodeChar_ascii hlt, encodeCodePoint, oneByteEncodeChar, if_pos (by omega)]
    rfl

/-! ## The platform -/

/-- `line.separator`. -/
inductive LineSeparator where
  | lf
  | crlf
  | cr
deriving DecidableEq

/-- The text of the line separator. -/
def LineSeparator.text : LineSeparator → JString
  | lf => [0x0A]
  | crlf => [0x0D, 0x0A]
  | cr => [0x0D]

theorem LineSeparator.isAscii_text (sep : LineSeparator) : IsAscii sep.text := by
  cases sep <;> decide

theorem LineSeparator.text_ne_nil (sep : LineSeparator) : sep.text ≠ [] := by
  cases sep <;> decide

/-- The settings of the virtual machine that the code depends on. -/
structure Platform where
  charset : AsciiCharset
  lineSeparator : LineSeparator

/-- `PrintStream.println(String)`: the text and the line separator in the default
charset. -/
def Platform.println (pl : Platform) (s : JString) : List UInt8 :=
  pl.charset.encode (s ++ pl.lineSeparator.text)

end Jvm
