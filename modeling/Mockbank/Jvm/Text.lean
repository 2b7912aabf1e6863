import Mathlib.Data.List.Basic
import Mathlib.Tactic.Common

/-!
# Java strings

A Java `String` is a sequence of UTF-16 code units, and nothing keeps its
surrogates paired.  This file gives the code units, the split of a string into
the code points a charset encoder or a regular expression sees, and the
embedding of Unicode text into it.

Main results:

- Theorem `codePoints_ofChars`: text made of Unicode scalar values is read back
  code point by code point.
- Theorem `codePoints_append_of_not_low`: a string can be cut in front of any
  unit that is not a low surrogate without changing its code points.
-/

namespace Jvm

/-- A Java `char`: one UTF-16 code unit. -/
abbrev JChar := UInt16

/-- A Java `String`: a sequence of UTF-16 code units, surrogates unpaired or not. -/
abbrev JString := List JChar

/-- `Character.isHighSurrogate`. -/
def isHighSurrogate (u : JChar) : Bool :=
  0xD800 ≤ u.toNat && u.toNat ≤ 0xDBFF

/-- `Character.isLowSurrogate`. -/
def isLowSurrogate (u : JChar) : Bool :=
  0xDC00 ≤ u.toNat && u.toNat ≤ 0xDFFF

/-- Two adjacent code units that stand for one supplementary code point. -/
def isSurrogatePair (u v : JChar) : Bool :=
  isHighSurrogate u && isLowSurrogate v

/-! ## Unicode text as code units -/

/-- `Character.toChars`: the code units of one Unicode scalar value. -/
def units (c : Char) : JString :=
  if c.toNat < 0x10000 then
    [UInt16.ofNat c.toNat]
  else
    [UInt16.ofNat (0xD800 + (c.toNat - 0x10000) / 0x400),
     UInt16.ofNat (0xDC00 + (c.toNat - 0x10000) % 0x400)]

/-- A sequence of scalar values as a Java string. -/
def ofChars (cs : List Char) : JString :=
  cs.flatMap units

/-- A Java string literal. -/
def lit (s : String) : JString :=
  ofChars s.toList

@[simp]
theorem ofChars_nil : ofChars [] = [] :=
  rfl

@[simp]
theorem ofChars_cons (c : Char) (cs : List Char) :
    ofChars (c :: cs) = units c ++ ofChars cs :=
  rfl

/-- Embedding Unicode text respects concatenation. -/
theorem ofChars_append (cs ds : List Char) :
    ofChars (cs ++ ds) = ofChars cs ++ ofChars ds := by
  simp [ofChars]

theorem lit_ofList (cs : List Char) : lit (String.ofList cs) = ofChars cs := by
  rw [lit, String.toList_ofList]

/-- A literal is its parts. -/
theorem lit_split {as bs cs : List Char} (h : cs = as ++ bs) :
    lit (String.ofList cs) = lit (String.ofList as) ++ lit (String.ofList bs) := by
  rw [lit_ofList, lit_ofList, lit_ofList, h, ofChars_append]

/-! ## Code points -/

/-- What `String.codePointAt` can return: a scalar value or an unpaired surrogate. -/
inductive CodePoint
  | scalar (c : Char)
  | lone (u : JChar)
deriving DecidableEq

/-- The code point of a unit that is not part of a surrogate pair. -/
def singleCodePoint (u : JChar) : CodePoint :=
  if isHighSurrogate u || isLowSurrogate u then .lone u
  else .scalar (Char.ofNat u.toNat)

/-- `Character.toCodePoint`. -/
def pairCodePoint (u v : JChar) : CodePoint :=
  .scalar (Char.ofNat (0x10000 + (u.toNat - 0xD800) * 0x400 + (v.toNat - 0xDC00)))

/-- `String.codePoints`: pairs are joined, every other unit stands alone. -/
def codePoints : JString → List CodePoint
  | [] => []
  | [u] => [singleCodePoint u]
  | u :: v :: rest =>
      if isSurrogatePair u v then pairCodePoint u v :: codePoints rest
      else singleCodePoint u :: codePoints (v :: rest)

@[simp]
theorem codePoints_nil : codePoints [] = [] := by
  simp [codePoints]

/-- A unit that is no high surrogate is a code point of its own. -/
theorem codePoints_cons_of_not_high {u : JChar} (hu : isHighSurrogate u = false)
    (s : JString) : codePoints (u :: s) = singleCodePoint u :: codePoints s := by
  cases s with
  | nil => simp [codePoints]
  | cons v rest => simp [codePoints, isSurrogatePair, hu]

/-- A scalar value is never a surrogate code point. -/
theorem scalar_not_surrogate (c : Char) :
    c.toNat < 0xD800 ∨ (0xDFFF < c.toNat ∧ c.toNat < 0x110000) :=
  c.valid

/-- Below the surrogates every number is a scalar value. -/
theorem toNat_ofNat_of_lt {n : Nat} (h : n < 0xD800) : (Char.ofNat n).toNat = n := by
  rw [Char.ofNat, dif_pos (Or.inl h)]
  rfl

/-- The units of one scalar value are read back as that code point. -/
theorem codePoints_units_append (c : Char) (s : JString) :
    codePoints (units c ++ s) = .scalar c :: codePoints s := by
  have hvalid := scalar_not_surrogate c
  unfold units
  split
  next hbmp =>
    have hnat : (UInt16.ofNat c.toNat).toNat = c.toNat := by
      simp only [UInt16.toNat_ofNat']
      omega
    have hhigh : isHighSurrogate (UInt16.ofNat c.toNat) = false := by
      simp only [isHighSurrogate, hnat, Bool.and_eq_false_iff, decide_eq_false_iff_not]
      omega
    have hlow : isLowSurrogate (UInt16.ofNat c.toNat) = false := by
      simp only [isLowSurrogate, hnat, Bool.and_eq_false_iff, decide_eq_false_iff_not]
      omega
    rw [List.singleton_append, codePoints_cons_of_not_high hhigh]
    simp only [singleCodePoint, hhigh, hlow, hnat, Bool.or_self, Bool.false_eq_true,
      if_false, Char.ofNat_toNat]
  next hsupp =>
    have hhi : (UInt16.ofNat (0xD800 + (c.toNat - 0x10000) / 0x400)).toNat =
        0xD800 + (c.toNat - 0x10000) / 0x400 := by
      simp only [UInt16.toNat_ofNat']
      omega
    have hlo : (UInt16.ofNat (0xDC00 + (c.toNat - 0x10000) % 0x400)).toNat =
        0xDC00 + (c.toNat - 0x10000) % 0x400 := by
      simp only [UInt16.toNat_ofNat']
      omega
    have hpair : isSurrogatePair (UInt16.ofNat (0xD800 + (c.toNat - 0x10000) / 0x400))
        (UInt16.ofNat (0xDC00 + (c.toNat - 0x10000) % 0x400)) = true := by
      simp only [isSurrogatePair, isHighSurrogate, isLowSurrogate, hhi, hlo,
        Bool.and_eq_true, decide_eq_true_eq]
      omega
    have hback : 0x10000 + (0xD800 + (c.toNat - 0x10000) / 0x400 - 0xD800) * 0x400 +
        (0xDC00 + (c.toNat - 0x10000) % 0x400 - 0xDC00) = c.toNat := by
      omega
    simp only [List.cons_append, List.nil_append, codePoints, hpair, if_true,
      pairCodePoint, hhi, hlo, hback, Char.ofNat_toNat]

/-- Unicode text is read back code point by code point. -/
theorem codePoints_ofChars (cs : List Char) :
    codePoints (ofChars cs) = cs.map .scalar := by
  induction cs with
  | nil => rfl
  | cons c cs ih =>
      rw [ofChars_cons, codePoints_units_append, ih, List.map_cons]

/-- Cutting a string in front of a unit that is no low surrogate splits no pair. -/
theorem codePoints_append_of_not_low {u : JChar} (hu : isLowSurrogate u = false)
    (s t : JString) :
    codePoints (s ++ u :: t) = codePoints s ++ codePoints (u :: t) := by
  induction s using codePoints.induct with
  | case1 => rfl
  | case2 v =>
      simp [codePoints, isSurrogatePair, hu]
  | case3 v w rest hpair ih =>
      simp only [List.cons_append, codePoints, hpair, if_true]
      rw [ih]
  | case4 v w rest hpair ih =>
      rw [List.cons_append] at ih
      simp only [List.cons_append, codePoints, hpair, Bool.false_eq_true, if_false]
      rw [ih]

end Jvm
