import Mockbank.Jvm.Text

/-!
# UTF-8 in the Java platform

The platform decoder never fails: a malformed piece of input becomes one
replacement character and decoding goes on behind it.  The encoder writes one
question mark for a surrogate that has no partner.

Main results:

- Theorem `decodeUtf8_encode_append`: the decoder reads one encoded scalar value
  back and continues behind it.
- Theorem `decodeUtf8_flatMap`: the decoder inverts the encoding of any text.
-/

namespace Jvm

/-- `\uFFFD`, which the decoder substitutes for malformed input. -/
def replacementChar : Char := Char.ofNat 0xFFFD

/-- A byte `10xxxxxx`. -/
def isContinuation (b : UInt8) : Bool :=
  0x80 ≤ b.toNat && b.toNat < 0xC0

/-- The second byte of a three-byte form: `E0` must not start an overlong form. -/
def isSecondOfThree (b₁ b₂ : UInt8) : Bool :=
  isContinuation b₂ && !(b₁.toNat == 0xE0 && b₂.toNat < 0xA0)

/-- The second byte of a four-byte form: within U+10000 to U+10FFFF. -/
def isSecondOfFour (b₁ b₂ : UInt8) : Bool :=
  isContinuation b₂ && !(b₁.toNat == 0xF0 && b₂.toNat < 0x90) &&
    !(b₁.toNat == 0xF4 && 0x90 ≤ b₂.toNat)

/-- The scalar value of a two-byte form. -/
def twoByteChar (b₁ b₂ : UInt8) : Char :=
  Char.ofNat (b₁.toNat % 0x20 * 0x40 + b₂.toNat % 0x40)

/-- The number a three-byte form stands for, which may lie in the surrogate range. -/
def threeByteValue (b₁ b₂ b₃ : UInt8) : Nat :=
  b₁.toNat % 0x10 * 0x1000 + b₂.toNat % 0x40 * 0x40 + b₃.toNat % 0x40

/-- The scalar value of a four-byte form. -/
def fourByteChar (b₁ b₂ b₃ b₄ : UInt8) : Char :=
  Char.ofNat (b₁.toNat % 0x08 * 0x40000 + b₂.toNat % 0x40 * 0x1000 +
    b₃.toNat % 0x40 * 0x40 + b₄.toNat % 0x40)

/-- `new String(bytes, UTF_8)`.  A piece that no further byte can complete is
replaced as a whole, so is what the end of the input cuts off. -/
def decodeUtf8 : List UInt8 → List Char
  | [] => []
  | b₁ :: rest₁ =>
      if b₁.toNat < 0x80 then
        Char.ofNat b₁.toNat :: decodeUtf8 rest₁
      else if b₁.toNat < 0xC2 then
        replacementChar :: decodeUtf8 rest₁
      else if b₁.toNat < 0xE0 then
        match rest₁ with
        | [] => [replacementChar]
        | b₂ :: rest₂ =>
            if isContinuation b₂ then twoByteChar b₁ b₂ :: decodeUtf8 rest₂
            else replacementChar :: decodeUtf8 (b₂ :: rest₂)
      else if b₁.toNat < 0xF0 then
        match rest₁ with
        | [] => [replacementChar]
        | b₂ :: rest₂ =>
            if isSecondOfThree b₁ b₂ then
              match rest₂ with
              | [] => [replacementChar]
              | b₃ :: rest₃ =>
                  if isContinuation b₃ then
                    -- an encoded surrogate is malformed as a three-byte piece
                    (if 0xD800 ≤ threeByteValue b₁ b₂ b₃ ∧ threeByteValue b₁ b₂ b₃ ≤ 0xDFFF
                      then replacementChar
                      else Char.ofNat (threeByteValue b₁ b₂ b₃)) :: decodeUtf8 rest₃
                  else replacementChar :: decodeUtf8 (b₃ :: rest₃)
            else replacementChar :: decodeUtf8 (b₂ :: rest₂)
      else if b₁.toNat < 0xF5 then
        match rest₁ with
        | [] => [replacementChar]
        | b₂ :: rest₂ =>
            if isSecondOfFour b₁ b₂ then
              match rest₂ with
              | [] => [replacementChar]
              | b₃ :: rest₃ =>
                  if isContinuation b₃ then
                    match rest₃ with
                    | [] => [replacementChar]
                    | b₄ :: rest₄ =>
                        if isContinuation b₄ then
                          fourByteChar b₁ b₂ b₃ b₄ :: decodeUtf8 rest₄
                        else replacementChar :: decodeUtf8 (b₄ :: rest₄)
                  else replacementChar :: decodeUtf8 (b₃ :: rest₃)
            else replacementChar :: decodeUtf8 (b₂ :: rest₂)
      else
        replacementChar :: decodeUtf8 rest₁

/-! ## Reading back one encoded scalar value -/

private theorem byte_toNat_ofNat {n : Nat} (h : n < 256) : (UInt8.ofNat n).toNat = n := by
  simp only [UInt8.toNat_ofNat']
  omega

private theorem decode_one (c : Char) (rest : List UInt8) (h : c.toNat ≤ 0x7F) :
    decodeUtf8 (UInt8.ofNat c.toNat :: rest) = c :: decodeUtf8 rest := by
  have hb : (UInt8.ofNat c.toNat).toNat = c.toNat := byte_toNat_ofNat (by omega)
  rw [decodeUtf8.eq_def]
  dsimp only
  rw [if_pos (by omega), hb, Char.ofNat_toNat]

private theorem decode_two (c : Char) (rest : List UInt8)
    (hlo : 0x7F < c.toNat) (hhi : c.toNat ≤ 0x7FF) :
    decodeUtf8 (UInt8.ofNat (c.toNat / 64 % 0x20 + 0xC0) ::
      UInt8.ofNat (c.toNat % 0x40 + 0x80) :: rest) = c :: decodeUtf8 rest := by
  have hb₁ : (UInt8.ofNat (c.toNat / 64 % 0x20 + 0xC0)).toNat = c.toNat / 64 % 0x20 + 0xC0 :=
    byte_toNat_ofNat (by omega)
  have hb₂ : (UInt8.ofNat (c.toNat % 0x40 + 0x80)).toNat = c.toNat % 0x40 + 0x80 :=
    byte_toNat_ofNat (by omega)
  have hcont : isContinuation (UInt8.ofNat (c.toNat % 0x40 + 0x80)) = true := by
    simp only [isContinuation, hb₂, Bool.and_eq_true, decide_eq_true_eq]
    omega
  have hchar : twoByteChar (UInt8.ofNat (c.toNat / 64 % 0x20 + 0xC0))
      (UInt8.ofNat (c.toNat % 0x40 + 0x80)) = c := by
    rw [twoByteChar, hb₁, hb₂, show (c.toNat / 64 % 0x20 + 0xC0) % 0x20 * 0x40 +
      (c.toNat % 0x40 + 0x80) % 0x40 = c.toNat by omega, Char.ofNat_toNat]
  rw [decodeUtf8.eq_def]
  dsimp only
  rw [if_neg (by omega), if_neg (by omega), if_pos (by omega)]
  simp only [hcont, if_true, hchar]

private theorem decode_three (c : Char) (rest : List UInt8)
    (hlo : 0x7FF < c.toNat) (hhi : c.toNat ≤ 0xFFFF) :
    decodeUtf8 (UInt8.ofNat (c.toNat / 4096 % 0x10 + 0xE0) ::
      UInt8.ofNat (c.toNat / 64 % 0x40 + 0x80) ::
      UInt8.ofNat (c.toNat % 0x40 + 0x80) :: rest) = c :: decodeUtf8 rest := by
  have hvalid := scalar_not_surrogate c
  have hb₁ : (UInt8.ofNat (c.toNat / 4096 % 0x10 + 0xE0)).toNat =
      c.toNat / 4096 % 0x10 + 0xE0 := byte_toNat_ofNat (by omega)
  have hb₂ : (UInt8.ofNat (c.toNat / 64 % 0x40 + 0x80)).toNat =
      c.toNat / 64 % 0x40 + 0x80 := byte_toNat_ofNat (by omega)
  have hb₃ : (UInt8.ofNat (c.toNat % 0x40 + 0x80)).toNat = c.toNat % 0x40 + 0x80 :=
    byte_toNat_ofNat (by omega)
  have hsecond : isSecondOfThree (UInt8.ofNat (c.toNat / 4096 % 0x10 + 0xE0))
      (UInt8.ofNat (c.toNat / 64 % 0x40 + 0x80)) = true := by
    simp only [isSecondOfThree, isContinuation, hb₁, hb₂, Bool.and_eq_true,
      decide_eq_true_eq, Bool.not_eq_true', Bool.and_eq_false_iff, beq_eq_false_iff_ne,
      decide_eq_false_iff_not]
    omega
  have hcont : isContinuation (UInt8.ofNat (c.toNat % 0x40 + 0x80)) = true := by
    simp only [isContinuation, hb₃, Bool.and_eq_true, decide_eq_true_eq]
    omega
  have hvalue : threeByteValue (UInt8.ofNat (c.toNat / 4096 % 0x10 + 0xE0))
      (UInt8.ofNat (c.toNat / 64 % 0x40 + 0x80))
      (UInt8.ofNat (c.toNat % 0x40 + 0x80)) = c.toNat := by
    rw [threeByteValue, hb₁, hb₂, hb₃]
    omega
  rw [decodeUtf8.eq_def]
  dsimp only
  rw [if_neg (by omega), if_neg (by omega), if_neg (by omega), if_pos (by omega)]
  simp only [hsecond, hcont, if_true, hvalue, Char.ofNat_toNat]
  rw [if_neg (by omega)]

private theorem decode_four (c : Char) (rest : List UInt8) (hlo : 0xFFFF < c.toNat) :
    decodeUtf8 (UInt8.ofNat (c.toNat / 262144 % 0x08 + 0xF0) ::
      UInt8.ofNat (c.toNat / 4096 % 0x40 + 0x80) ::
      UInt8.ofNat (c.toNat / 64 % 0x40 + 0x80) ::
      UInt8.ofNat (c.toNat % 0x40 + 0x80) :: rest) = c :: decodeUtf8 rest := by
  have hvalid := scalar_not_surrogate c
  have hb₁ : (UInt8.ofNat (c.toNat / 262144 % 0x08 + 0xF0)).toNat =
      c.toNat / 262144 % 0x08 + 0xF0 := byte_toNat_ofNat (by omega)
  have hb₂ : (UInt8.ofNat (c.toNat / 4096 % 0x40 + 0x80)).toNat =
      c.toNat / 4096 % 0x40 + 0x80 := byte_toNat_ofNat (by omega)
  have hb₃ : (UInt8.ofNat (c.toNat / 64 % 0x40 + 0x80)).toNat =
      c.toNat / 64 % 0x40 + 0x80 := byte_toNat_ofNat (by omega)
  have hb₄ : (UInt8.ofNat (c.toNat % 0x40 + 0x80)).toNat = c.toNat % 0x40 + 0x80 :=
    byte_toNat_ofNat (by omega)
  have hsecond : isSecondOfFour (UInt8.ofNat (c.toNat / 262144 % 0x08 + 0xF0))
      (UInt8.ofNat (c.toNat / 4096 % 0x40 + 0x80)) = true := by
    simp only [isSecondOfFour, isContinuation, hb₁, hb₂, Bool.and_eq_true,
      decide_eq_true_eq, Bool.not_eq_true', Bool.and_eq_false_iff, beq_eq_false_iff_ne,
      decide_eq_false_iff_not]
    omega
  have hcont₃ : isContinuation (UInt8.ofNat (c.toNat / 64 % 0x40 + 0x80)) = true := by
    simp only [isContinuation, hb₃, Bool.and_eq_true, decide_eq_true_eq]
    omega
  have hcont₄ : isContinuation (UInt8.ofNat (c.toNat % 0x40 + 0x80)) = true := by
    simp only [isContinuation, hb₄, Bool.and_eq_true, decide_eq_true_eq]
    omega
  have hchar : fourByteChar (UInt8.ofNat (c.toNat / 262144 % 0x08 + 0xF0))
      (UInt8.ofNat (c.toNat / 4096 % 0x40 + 0x80))
      (UInt8.ofNat (c.toNat / 64 % 0x40 + 0x80))
      (UInt8.ofNat (c.toNat % 0x40 + 0x80)) = c := by
    rw [fourByteChar, hb₁, hb₂, hb₃, hb₄]
    rw [show (c.toNat / 262144 % 0x08 + 0xF0) % 0x08 * 0x40000 +
      (c.toNat / 4096 % 0x40 + 0x80) % 0x40 * 0x1000 +
      (c.toNat / 64 % 0x40 + 0x80) % 0x40 * 0x40 +
      (c.toNat % 0x40 + 0x80) % 0x40 = c.toNat by omega, Char.ofNat_toNat]
  rw [decodeUtf8.eq_def]
  dsimp only
  rw [if_neg (by omega), if_neg (by omega), if_neg (by omega), if_neg (by omega),
    if_pos (by omega)]
  simp only [hsecond, hcont₃, hcont₄, if_true, hchar]

/-- The decoder reads one encoded scalar value back and continues behind it. -/
theorem decodeUtf8_encode_append (c : Char) (rest : List UInt8) :
    decodeUtf8 (String.utf8EncodeChar c ++ rest) = c :: decodeUtf8 rest := by
  have hval : c.val.toNat = c.toNat := rfl
  unfold String.utf8EncodeChar
  simp only [hval]
  split
  next h₁ => exact decode_one c rest h₁
  next h₁ =>
    split
    next h₂ => exact decode_two c rest (by omega) h₂
    next h₂ =>
      split
      next h₃ => exact decode_three c rest (by omega) h₃
      next h₃ => exact decode_four c rest (by omega)

/-- The decoder inverts the encoding of any text. -/
theorem decodeUtf8_flatMap (cs : List Char) :
    decodeUtf8 (cs.flatMap String.utf8EncodeChar) = cs := by
  induction cs with
  | nil => simp [decodeUtf8]
  | cons c cs ih => rw [List.flatMap_cons, decodeUtf8_encode_append, ih]

/-- ASCII bytes are decoded one by one. -/
theorem decodeUtf8_ascii (bs : List UInt8) (h : ∀ b ∈ bs, b.toNat < 0x80) :
    decodeUtf8 bs = bs.map fun b => Char.ofNat b.toNat := by
  induction bs with
  | nil => simp [decodeUtf8]
  | cons b bs ih =>
      rw [decodeUtf8.eq_def]
      dsimp only
      rw [if_pos (h b (by simp)), ih (fun x hx => h x (by simp [hx])), List.map_cons]

/-! ## ASCII within UTF-8 -/

/-- An ASCII character is its own byte. -/
theorem utf8EncodeChar_ascii {c : Char} (hc : c.toNat < 0x80) :
    String.utf8EncodeChar c = [UInt8.ofNat c.toNat] := by
  have hval : c.val.toNat = c.toNat := rfl
  simp only [String.utf8EncodeChar, hval]
  rw [if_pos (by omega)]

/-- Every other character takes more than one byte and ends in a continuation. -/
theorem utf8EncodeChar_not_ascii {c : Char} (hc : 0x80 ≤ c.toNat) :
    ∃ init, init ≠ [] ∧
      String.utf8EncodeChar c = init ++ [UInt8.ofNat (c.toNat % 0x40 + 0x80)] := by
  have hval : c.val.toNat = c.toNat := rfl
  simp only [String.utf8EncodeChar, hval]
  rw [if_neg (by omega)]
  split
  next => exact ⟨[_], by simp, rfl⟩
  next =>
    split
    next => exact ⟨[_, _], by simp, rfl⟩
    next => exact ⟨[_, _, _], by simp, rfl⟩

/-- A last ASCII byte of UTF-8 text is its last character. -/
theorem exists_of_utf8_eq_concat {text : List Char} {bs : List UInt8} {b : UInt8}
    (h : text.flatMap String.utf8EncodeChar = bs ++ [b]) (hb : b.toNat < 0x80) :
    ∃ text' c, text = text' ++ [c] ∧ text'.flatMap String.utf8EncodeChar = bs ∧
      c.toNat < 0x80 ∧ b = UInt8.ofNat c.toNat := by
  rcases List.eq_nil_or_concat' text with rfl | ⟨text', c, rfl⟩
  · exact absurd h.symm (by simp)
  · rw [List.flatMap_append, List.flatMap_singleton] at h
    by_cases hc : c.toNat < 0x80
    · rw [utf8EncodeChar_ascii hc] at h
      rcases List.append_inj' h rfl with ⟨hbs, hlast⟩
      exact ⟨text', c, rfl, hbs, hc, (List.cons.inj hlast).1.symm⟩
    · rcases utf8EncodeChar_not_ascii (Nat.le_of_not_lt hc) with ⟨init, _, hlast⟩
      rw [hlast, ← List.append_assoc] at h
      have hbyte := (List.cons.inj (List.append_inj' h rfl).2).1
      rw [← hbyte, UInt8.toNat_ofNat'] at hb
      omega

/-- Every character takes a byte at least. -/
theorem length_le_length_utf8 (text : List Char) :
    text.length ≤ (text.flatMap String.utf8EncodeChar).length := by
  induction text with
  | nil => simp
  | cons c text ih =>
      have hpos := Char.utf8Size_pos c
      rw [List.flatMap_cons, List.length_append, String.length_utf8EncodeChar, List.length_cons]
      omega

/-- Text of one byte for each character is ASCII text. -/
theorem ascii_of_length_utf8_le {text : List Char}
    (h : (text.flatMap String.utf8EncodeChar).length ≤ text.length) :
    ∀ c ∈ text, c.toNat < 0x80 := by
  induction text with
  | nil => simp
  | cons c text ih =>
      have hmin := length_le_length_utf8 text
      have hpos := Char.utf8Size_pos c
      have hlen := String.length_utf8EncodeChar c
      rw [List.flatMap_cons, List.length_append, List.length_cons] at h
      have hc : c.toNat < 0x80 := by
        by_contra hge
        rcases utf8EncodeChar_not_ascii (Nat.le_of_not_lt hge) with ⟨init, hne, heq⟩
        have hinit := List.length_pos_iff.mpr hne
        rw [heq, List.length_append, List.length_singleton] at h
        omega
      intro d hd
      rcases List.mem_cons.mp hd with rfl | hd
      · exact hc
      · exact ih (by omega) d hd

end Jvm
