import Mockbank.Jvm.Charset

/-!
# The basic Base64 codec of the Java platform

`Base64.getEncoder()` pads and never breaks lines.  `Base64.getDecoder()` refuses
every character outside the alphabet, white space included, accepts a last unit
whose padding is missing altogether, and refuses one of two padding characters.

Main results:

- Theorem `decode_encode`: decoding inverts encoding for byte strings of every
  length.
- Theorem `encode_chars`: encoded text consists of alphabet characters and `=`.
- Theorem `chars_of_decode`: the decoder accepts no other characters.
- Theorem `decode_prefix_encode`: a cut-off encoding decodes, if at all, to a prefix,
  and to the whole only if nothing but padding is missing.
-/

namespace Jvm.Base64

/-- The Base64 alphabet. -/
def alphabet : JString :=
  lit "ABCDEFGHIJKLMNOPQRSTUVWXYZabcdefghijklmnopqrstuvwxyz0123456789+/"

/-- The padding character. -/
def pad : JChar := 0x3D

/-- The character of a six-bit value. -/
def char (n : Nat) : JChar :=
  alphabet.getD n pad

/-- The decoder's table: the six-bit value of a character of the alphabet. -/
def sextet (u : JChar) : Option Nat :=
  if 65 ≤ u.toNat ∧ u.toNat ≤ 90 then some (u.toNat - 65)
  else if 97 ≤ u.toNat ∧ u.toNat ≤ 122 then some (u.toNat - 71)
  else if 48 ≤ u.toNat ∧ u.toNat ≤ 57 then some (u.toNat + 4)
  else if u.toNat = 43 then some 62
  else if u.toNat = 47 then some 63
  else none

/-- `Encoder.encodeToString`. -/
def encode : List UInt8 → JString
  | [] => []
  | [a] => [char (a.toNat / 4), char (a.toNat % 4 * 16), pad, pad]
  | [a, b] =>
      [char (a.toNat / 4), char (a.toNat % 4 * 16 + b.toNat / 16), char (b.toNat % 16 * 4), pad]
  | a :: b :: c :: rest =>
      char (a.toNat / 4) :: char (a.toNat % 4 * 16 + b.toNat / 16) ::
        char (b.toNat % 16 * 4 + c.toNat / 64) :: char (c.toNat % 64) :: encode rest

/-- The byte that two six-bit values start. -/
def byte₁ (x y : Nat) : UInt8 := UInt8.ofNat (x * 4 + y / 16)

/-- The byte in the middle of a four-character unit. -/
def byte₂ (y z : Nat) : UInt8 := UInt8.ofNat (y % 16 * 16 + z / 4)

/-- The last byte of a four-character unit. -/
def byte₃ (z w : Nat) : UInt8 := UInt8.ofNat (z % 4 * 64 + w)

/-- A unit of two characters, its padding stripped or missing. -/
def decodeTwo (p q : JChar) : Option (List UInt8) := do
  let x ← sextet p
  let y ← sextet q
  return [byte₁ x y]

/-- A unit of three characters, its padding stripped or missing. -/
def decodeThree (p q r : JChar) : Option (List UInt8) := do
  let x ← sextet p
  let y ← sextet q
  let z ← sextet r
  return [byte₁ x y, byte₂ y z]

/-- A unit of four characters. -/
def decodeFour (p q r s : JChar) : Option (List UInt8) := do
  let x ← sextet p
  let y ← sextet q
  let z ← sextet r
  let w ← sextet s
  return [byte₁ x y, byte₂ y z, byte₃ z w]

/-- `Decoder.decode(String)`; `none` is its `IllegalArgumentException`. -/
def decode : JString → Option (List UInt8)
  | [] => some []
  | [_] => none
  | [p, q] => decodeTwo p q
  | [p, q, r] => decodeThree p q r
  | p :: q :: r :: s :: rest =>
      if s = pad ∧ rest = [] then
        -- padding ends the input, as one or as two characters
        if r = pad then decodeTwo p q else decodeThree p q r
      else do
        let unit ← decodeFour p q r s
        let bytes ← decode rest
        return unit ++ bytes

/-- A character of encoded text. -/
def IsBase64Char (u : JChar) : Prop :=
  u = pad ∨ (sextet u).isSome

instance (u : JChar) : Decidable (IsBase64Char u) :=
  inferInstanceAs (Decidable (_ ∨ _))

/-! ## The alphabet -/

set_option maxRecDepth 4000 in
/-- The decoder's table inverts the alphabet. -/
theorem sextet_char {n : Nat} (h : n < 64) : sextet (char n) = some n := by
  have hall : ∀ m < 64, sextet (char m) = some m := by decide
  exact hall n h

/-- The padding character is outside the alphabet. -/
theorem sextet_pad : sextet pad = none := by
  decide

theorem isBase64Char_pad : IsBase64Char pad :=
  Or.inl rfl

/-- No character of the alphabet is the padding. -/
theorem char_ne_pad {n : Nat} (h : n < 64) : char n ≠ pad := by
  intro heq
  have hsome := sextet_char h
  rw [heq, sextet_pad] at hsome
  contradiction

/-- Every character of the alphabet is Base64. -/
theorem isBase64Char_char {n : Nat} (h : n < 64) : IsBase64Char (char n) := by
  right
  rw [sextet_char h]
  rfl

/-- Characters of encoded text are ASCII letters, digits, `+`, `/` and `=`. -/
theorem isBase64Char_iff (u : JChar) :
    IsBase64Char u ↔ u.toNat = 43 ∨ (47 ≤ u.toNat ∧ u.toNat ≤ 57) ∨ u.toNat = 61 ∨
      (65 ≤ u.toNat ∧ u.toNat ≤ 90) ∨ (97 ≤ u.toNat ∧ u.toNat ≤ 122) := by
  have hpad : u = pad ↔ u.toNat = 61 := by
    rw [← UInt16.toNat_inj]
    rfl
  rw [IsBase64Char, hpad, sextet]
  split_ifs <;>
    simp only [Option.isSome_some, Option.isSome_none, Bool.false_eq_true, or_true, or_false,
      true_iff] <;>
    omega

/-- Base64 is ASCII. -/
theorem IsBase64Char.lt {u : JChar} (h : IsBase64Char u) : u.toNat < 0x80 := by
  have hrange := (isBase64Char_iff u).mp h
  omega

/-- `<` is not Base64. -/
theorem IsBase64Char.ne_lt {u : JChar} (h : IsBase64Char u) : u ≠ 60 := by
  rintro rfl
  have hrange := (isBase64Char_iff 60).mp h
  have hval : (60 : JChar).toNat = 60 := rfl
  omega

/-- Nor is a hyphen. -/
theorem not_isBase64Char_hyphen : ¬ IsBase64Char 45 := by
  rw [isBase64Char_iff]
  decide

/-! ## Encoded text -/

/-- Encoded text consists of alphabet characters and padding. -/
theorem encode_chars (bs : List UInt8) : ∀ u ∈ encode bs, IsBase64Char u := by
  induction bs using encode.induct with
  | case1 => simp [encode]
  | case2 a =>
      have ha : a.toNat < 256 := a.toNat_lt
      intro u hu
      simp only [encode, List.mem_cons, List.not_mem_nil, or_false] at hu
      rcases hu with rfl | rfl | rfl | rfl
      · exact isBase64Char_char (by omega)
      · exact isBase64Char_char (by omega)
      · exact isBase64Char_pad
      · exact isBase64Char_pad
  | case3 a b =>
      have ha : a.toNat < 256 := a.toNat_lt
      have hb : b.toNat < 256 := b.toNat_lt
      intro u hu
      simp only [encode, List.mem_cons, List.not_mem_nil, or_false] at hu
      rcases hu with rfl | rfl | rfl | rfl
      · exact isBase64Char_char (by omega)
      · exact isBase64Char_char (by omega)
      · exact isBase64Char_char (by omega)
      · exact isBase64Char_pad
  | case4 a b c rest ih =>
      have ha : a.toNat < 256 := a.toNat_lt
      have hb : b.toNat < 256 := b.toNat_lt
      have hc : c.toNat < 256 := c.toNat_lt
      intro u hu
      simp only [encode, List.mem_cons] at hu
      rcases hu with rfl | rfl | rfl | rfl | hu
      · exact isBase64Char_char (by omega)
      · exact isBase64Char_char (by omega)
      · exact isBase64Char_char (by omega)
      · exact isBase64Char_char (by omega)
      · exact ih u hu

/-- Encoding does not shorten. -/
theorem length_le_length_encode (bs : List UInt8) : bs.length ≤ (encode bs).length := by
  induction bs using encode.induct with
  | case1 => simp
  | case2 a => simp [encode]
  | case3 a b => simp [encode]
  | case4 a b c rest ih =>
      simp only [encode, List.length_cons]
      omega

/-- Encoded text is ASCII. -/
theorem isAscii_encode (bs : List UInt8) : IsAscii (encode bs) :=
  fun u hu => (encode_chars bs u hu).lt

/-! ## Decoding encoded text -/

private theorem ofNat_eq_of_toNat {n : Nat} {b : UInt8} (h : n = b.toNat) : UInt8.ofNat n = b := by
  rw [h, UInt8.ofNat_toNat]

/-- Two characters determine the first byte; the bits behind it do not matter. -/
theorem decodeTwo_char (a : UInt8) {k : Nat} (hk : k < 16) :
    decodeTwo (char (a.toNat / 4)) (char (a.toNat % 4 * 16 + k)) = some [a] := by
  have ha : a.toNat < 256 := a.toNat_lt
  have hbyte : byte₁ (a.toNat / 4) (a.toNat % 4 * 16 + k) = a := ofNat_eq_of_toNat (by omega)
  rw [decodeTwo, sextet_char (by omega), sextet_char (by omega)]
  simp [hbyte]

/-- Three characters determine two bytes; the bits behind them do not matter. -/
theorem decodeThree_char (a b : UInt8) {k : Nat} (hk : k < 4) :
    decodeThree (char (a.toNat / 4)) (char (a.toNat % 4 * 16 + b.toNat / 16))
      (char (b.toNat % 16 * 4 + k)) = some [a, b] := by
  have ha : a.toNat < 256 := a.toNat_lt
  have hb : b.toNat < 256 := b.toNat_lt
  have hbyte₁ : byte₁ (a.toNat / 4) (a.toNat % 4 * 16 + b.toNat / 16) = a :=
    ofNat_eq_of_toNat (by omega)
  have hbyte₂ : byte₂ (a.toNat % 4 * 16 + b.toNat / 16) (b.toNat % 16 * 4 + k) = b :=
    ofNat_eq_of_toNat (by omega)
  rw [decodeThree, sextet_char (by omega), sextet_char (by omega), sextet_char (by omega)]
  simp [hbyte₁, hbyte₂]

/-- Four characters determine three bytes. -/
theorem decodeFour_char (a b c : UInt8) :
    decodeFour (char (a.toNat / 4)) (char (a.toNat % 4 * 16 + b.toNat / 16))
      (char (b.toNat % 16 * 4 + c.toNat / 64)) (char (c.toNat % 64)) = some [a, b, c] := by
  have ha : a.toNat < 256 := a.toNat_lt
  have hb : b.toNat < 256 := b.toNat_lt
  have hc : c.toNat < 256 := c.toNat_lt
  have hbyte₁ : byte₁ (a.toNat / 4) (a.toNat % 4 * 16 + b.toNat / 16) = a :=
    ofNat_eq_of_toNat (by omega)
  have hbyte₂ : byte₂ (a.toNat % 4 * 16 + b.toNat / 16) (b.toNat % 16 * 4 + c.toNat / 64) = b :=
    ofNat_eq_of_toNat (by omega)
  have hbyte₃ : byte₃ (b.toNat % 16 * 4 + c.toNat / 64) (c.toNat % 64) = c :=
    ofNat_eq_of_toNat (by omega)
  rw [decodeFour, sextet_char (by omega), sextet_char (by omega), sextet_char (by omega),
    sextet_char (by omega)]
  simp [hbyte₁, hbyte₂, hbyte₃]

/-- A full unit in front of the rest decodes on its own. -/
theorem decode_unit_append (a b c : UInt8) (rest : JString) :
    decode (char (a.toNat / 4) :: char (a.toNat % 4 * 16 + b.toNat / 16) ::
      char (b.toNat % 16 * 4 + c.toNat / 64) :: char (c.toNat % 64) :: rest) =
      (decode rest).map fun bs => a :: b :: c :: bs := by
  have hc : c.toNat < 256 := c.toNat_lt
  rw [decode, if_neg (fun h => char_ne_pad (by omega) h.1), decodeFour_char]
  cases decode rest with
  | none => rfl
  | some bs => rfl

/-- Decoding inverts encoding for byte strings of every length. -/
theorem decode_encode (bs : List UInt8) : decode (encode bs) = some bs := by
  induction bs using encode.induct with
  | case1 => rfl
  | case2 a =>
      simp only [encode, decode, and_self, if_true]
      exact decodeTwo_char a (k := 0) (by omega)
  | case3 a b =>
      have hb : b.toNat < 256 := b.toNat_lt
      simp only [encode, decode, and_self, if_true]
      rw [if_neg (char_ne_pad (by omega))]
      exact decodeThree_char a b (k := 0) (by omega)
  | case4 a b c rest ih =>
      rw [encode, decode_unit_append, ih]
      rfl

/-! ## What the decoder refuses -/

theorem chars_of_decodeTwo {p q : JChar} {bs : List UInt8} (h : decodeTwo p q = some bs) :
    IsBase64Char p ∧ IsBase64Char q := by
  cases hp : sextet p <;> cases hq : sextet q <;> simp_all [decodeTwo, IsBase64Char]

theorem chars_of_decodeThree {p q r : JChar} {bs : List UInt8}
    (h : decodeThree p q r = some bs) :
    IsBase64Char p ∧ IsBase64Char q ∧ IsBase64Char r := by
  cases hp : sextet p <;> cases hq : sextet q <;> cases hr : sextet r <;>
    simp_all [decodeThree, IsBase64Char]

theorem chars_of_decodeFour {p q r s : JChar} {bs : List UInt8}
    (h : decodeFour p q r s = some bs) :
    IsBase64Char p ∧ IsBase64Char q ∧ IsBase64Char r ∧ IsBase64Char s := by
  cases hp : sextet p <;> cases hq : sextet q <;> cases hr : sextet r <;>
    cases hs : sextet s <;> simp_all [decodeFour, IsBase64Char]

/-- The decoder accepts alphabet characters and padding only. -/
theorem chars_of_decode {s : JString} {bs : List UInt8} (h : decode s = some bs) :
    ∀ u ∈ s, IsBase64Char u := by
  induction s using decode.induct generalizing bs with
  | case1 => simp
  | case2 p => simp [decode] at h
  | case3 p q =>
      rcases chars_of_decodeTwo h with ⟨hp, hq⟩
      simp [hp, hq]
  | case4 p q r =>
      rcases chars_of_decodeThree h with ⟨hp, hq, hr⟩
      simp [hp, hq, hr]
  | case5 p q s rest hend =>
      rcases hend with ⟨rfl, rfl⟩
      simp only [decode, and_self, if_true] at h
      rcases chars_of_decodeTwo h with ⟨hp, hq⟩
      simp [hp, hq, isBase64Char_pad]
  | case6 p q r s rest hend hr =>
      rcases hend with ⟨rfl, rfl⟩
      simp only [decode, and_self, if_true, if_neg hr] at h
      rcases chars_of_decodeThree h with ⟨hp, hq, hr⟩
      simp [hp, hq, hr, isBase64Char_pad]
  | case7 p q r s rest hend ih =>
      rw [decode, if_neg hend] at h
      cases hunit : decodeFour p q r s with
      | none => simp [hunit] at h
      | some unit =>
          cases hrest : decode rest with
          | none => simp [hunit, hrest] at h
          | some bytes =>
              rcases chars_of_decodeFour hunit with ⟨hp, hq, hr, hs⟩
              have htail := ih hrest
              intro u hu
              simp only [List.mem_cons] at hu
              rcases hu with rfl | rfl | rfl | rfl | hu
              · exact hp
              · exact hq
              · exact hr
              · exact hs
              · exact htail u hu

/-- A character outside the alphabet makes the decoder throw. -/
theorem decode_eq_none_of_mem {s : JString} {u : JChar} (hu : u ∈ s) (hbad : ¬ IsBase64Char u) :
    decode s = none := by
  cases h : decode s with
  | none => rfl
  | some bs => exact absurd (chars_of_decode h u hu) hbad

/-! ## Cut-off encodings -/

/-- The encoding without its padding. -/
def dataChars (bs : List UInt8) : JString :=
  (encode bs).filter (· ≠ pad)

theorem dataChars_one (a : UInt8) :
    dataChars [a] = [char (a.toNat / 4), char (a.toNat % 4 * 16)] := by
  have ha : a.toNat < 256 := a.toNat_lt
  simp [dataChars, encode, char_ne_pad (show a.toNat / 4 < 64 by omega),
    char_ne_pad (show a.toNat % 4 * 16 < 64 by omega)]

theorem dataChars_two (a b : UInt8) :
    dataChars [a, b] = [char (a.toNat / 4), char (a.toNat % 4 * 16 + b.toNat / 16),
      char (b.toNat % 16 * 4)] := by
  have ha : a.toNat < 256 := a.toNat_lt
  have hb : b.toNat < 256 := b.toNat_lt
  simp [dataChars, encode, char_ne_pad (show a.toNat / 4 < 64 by omega),
    char_ne_pad (show a.toNat % 4 * 16 + b.toNat / 16 < 64 by omega),
    char_ne_pad (show b.toNat % 16 * 4 < 64 by omega)]

theorem dataChars_three (a b c : UInt8) (rest : List UInt8) :
    dataChars (a :: b :: c :: rest) =
      char (a.toNat / 4) :: char (a.toNat % 4 * 16 + b.toNat / 16) ::
        char (b.toNat % 16 * 4 + c.toNat / 64) :: char (c.toNat % 64) :: dataChars rest := by
  have ha : a.toNat < 256 := a.toNat_lt
  have hb : b.toNat < 256 := b.toNat_lt
  have hc : c.toNat < 256 := c.toNat_lt
  simp [dataChars, encode, char_ne_pad (show a.toNat / 4 < 64 by omega),
    char_ne_pad (show a.toNat % 4 * 16 + b.toNat / 16 < 64 by omega),
    char_ne_pad (show b.toNat % 16 * 4 + c.toNat / 64 < 64 by omega),
    char_ne_pad (show c.toNat % 64 < 64 by omega)]

/-- The decoder does not miss the padding. -/
theorem decode_dataChars (bs : List UInt8) : decode (dataChars bs) = some bs := by
  induction bs using encode.induct with
  | case1 => rfl
  | case2 a =>
      rw [dataChars_one]
      exact decodeTwo_char a (k := 0) (by omega)
  | case3 a b =>
      rw [dataChars_two]
      exact decodeThree_char a b (k := 0) (by omega)
  | case4 a b c rest ih =>
      rw [dataChars_three, decode_unit_append, ih]
      rfl

/-- A lone padding character behind two characters is refused. -/
theorem decodeThree_pad (p q : JChar) : decodeThree p q pad = none := by
  rw [decodeThree, sextet_pad]
  cases sextet p with
  | none => rfl
  | some x => cases sextet q <;> rfl

/-- What a cut-off encoding decodes to: a prefix, and the whole only if nothing
but the padding is missing. -/
theorem decode_prefix_encode (bs : List UInt8) {s : JString} {ds : List UInt8}
    (hs : s <+: encode bs) (hd : decode s = some ds) :
    ds <+: bs ∧ (ds = bs → s = encode bs ∨ s = dataChars bs) := by
  induction bs using encode.induct generalizing s ds with
  | case1 =>
      have hnil : s = [] := List.prefix_nil.mp hs
      subst hnil
      cases hd
      exact ⟨List.prefix_refl _, fun _ => Or.inl rfl⟩
  | case2 a =>
      rw [dataChars_one]
      simp only [encode, List.prefix_cons_iff, List.prefix_nil] at hs
      rcases hs with rfl | ⟨_, rfl, rfl | ⟨_, rfl, rfl | ⟨_, rfl, rfl | ⟨_, rfl, rfl⟩⟩⟩⟩
      · cases hd
        exact ⟨List.nil_prefix, fun h => by simp at h⟩
      · cases hd
      · have hunit := decodeTwo_char a (k := 0) (by omega)
        rw [Nat.add_zero] at hunit
        rw [decode, hunit] at hd
        cases hd
        exact ⟨List.prefix_refl _, fun _ => Or.inr rfl⟩
      · rw [decode, decodeThree_pad] at hd
        cases hd
      · have hfull := decode_encode [a]
        rw [encode] at hfull
        rw [hfull] at hd
        cases hd
        exact ⟨List.prefix_refl _, fun _ => Or.inl rfl⟩
  | case3 a b =>
      have hb : b.toNat < 256 := b.toNat_lt
      rw [dataChars_two]
      simp only [encode, List.prefix_cons_iff, List.prefix_nil] at hs
      rcases hs with rfl | ⟨_, rfl, rfl | ⟨_, rfl, rfl | ⟨_, rfl, rfl | ⟨_, rfl, rfl⟩⟩⟩⟩
      · cases hd
        exact ⟨List.nil_prefix, fun h => by simp at h⟩
      · cases hd
      · rw [decode, decodeTwo_char a (by omega)] at hd
        cases hd
        exact ⟨by simp, fun h => by simp at h⟩
      · have hunit := decodeThree_char a b (k := 0) (by omega)
        rw [Nat.add_zero] at hunit
        rw [decode, hunit] at hd
        cases hd
        exact ⟨List.prefix_refl _, fun _ => Or.inr rfl⟩
      · have hfull := decode_encode [a, b]
        rw [encode] at hfull
        rw [hfull] at hd
        cases hd
        exact ⟨List.prefix_refl _, fun _ => Or.inl rfl⟩
  | case4 a b c rest ih =>
      have hb : b.toNat < 256 := b.toNat_lt
      have hc : c.toNat < 256 := c.toNat_lt
      rw [dataChars_three]
      rw [encode] at hs ⊢
      simp only [List.prefix_cons_iff] at hs
      rcases hs with rfl | ⟨_, rfl, rfl | ⟨_, rfl, rfl | ⟨_, rfl, rfl | ⟨t, rfl, ht⟩⟩⟩⟩
      · cases hd
        exact ⟨List.nil_prefix, fun h => by simp at h⟩
      · cases hd
      · rw [decode, decodeTwo_char a (by omega)] at hd
        cases hd
        exact ⟨by simp, fun h => by simp at h⟩
      · rw [decode, decodeThree_char a b (by omega)] at hd
        cases hd
        exact ⟨by simp, fun h => by simp at h⟩
      · rw [decode_unit_append] at hd
        cases htail : decode t with
        | none =>
            rw [htail] at hd
            cases hd
        | some es =>
            rw [htail] at hd
            cases hd
            rcases ih ht htail with ⟨hpre, hall⟩
            refine ⟨by simpa using hpre, ?_⟩
            intro heq
            simp only [List.cons.injEq, true_and] at heq
            rcases hall heq with rfl | rfl
            · exact Or.inl rfl
            · exact Or.inr rfl

end Jvm.Base64
