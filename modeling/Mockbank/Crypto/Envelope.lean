import Mockbank.Jvm.Base64
import Mockbank.Search.GreedyPattern

/-!
# The encrypted envelope

`Cryptor.encrypt` writes an XML Encryption document by string concatenation, and
`Cryptor.decrypt` finds the two values in it again with one regular expression.
This file gives the document, the pattern and the exact language and captures of
the pattern.

Main results:

- Theorem `matchEnvelope_eq_some_iff`: the pattern captures exactly the spans that
  `EnvelopeSpans` describes by last occurrences.
- Theorem `matchEnvelope_exact`: the language of the pattern, its captures, and
  what it captures when there are exactly two elements.
- Theorem `matchEnvelope_elements`: the two values stand where the last complete
  elements are, whatever tags stand in front of them.
- Theorem `matchEnvelope_envelope`: the pattern finds the two values that were
  written.
-/

namespace Mockbank

open Jvm Search

/-- `CipherKeyAndData`: the texts of the two `CipherValue` elements. -/
structure CipherKeyAndData where
  cipherKey : JString
  cipherData : JString
deriving DecidableEq

/-- `<CipherValue>` -/
def openTag : JString := lit "<CipherValue>"

/-- `</CipherValue>` -/
def closeTag : JString := lit "</CipherValue>"

/-- The document that `Cryptor.encrypt` appends together. -/
def envelope (v : CipherKeyAndData) : JString :=
  lit "<?xml version=\"1.0\" encoding=\"UTF-8\"?>\n" ++
  (lit "<EncryptedData xmlns=\"http://www.w3.org/2001/04/xmlenc#\"\n" ++
  (lit "               xmlns:ds=\"http://www.w3.org/2000/09/xmldsig#\"\n" ++
  (lit "               MimeType=\"application/xml\">\n" ++
  (lit "  <EncryptionMethod Algorithm=\"http://www.w3.org/2001/04/xmlenc#aes128-cbc\"/>\n" ++
  (lit "  <ds:KeyInfo>\n" ++
  (lit "    <EncryptedKey>\n" ++
  (lit "      <EncryptionMethod Algorithm=\"http://www.w3.org/2001/04/xmlenc#rsa-oaep-mgf1p\"/>\n" ++
  (lit "        <CipherData>\n" ++
  (lit "          <CipherValue>" ++ v.cipherKey ++ lit "</CipherValue>\n" ++
  (lit "        </CipherData>\n" ++
  (lit "    </EncryptedKey>\n" ++
  (lit "  </ds:KeyInfo>\n" ++
  (lit "  <CipherData>\n" ++
  (lit "    <CipherValue>" ++ v.cipherData ++ lit "</CipherValue>\n" ++
  (lit "  </CipherData>\n" ++
  lit "</EncryptedData>\n")))))))))))))))

/-- `.*<CipherValue>(.*)</CipherValue>.*<CipherValue>(.*)</CipherValue>.*` -/
def envelopePattern : List (Item JChar) :=
  [.any, .text openTag, .capture, .text closeTag, .any, .text openTag, .capture,
    .text closeTag, .any]

/-- `Pattern.DOTALL` matching of the whole input, and its groups 1 and 2.  A
wildcard takes whole code points, so surrogate pairs are never split. -/
def matchEnvelope (c : JString) : Option (JString × JString) :=
  match matchFrom isSurrogatePair envelopePattern 0 c with
  | some [(s₁, e₁), (s₂, e₂)] => some (slice c s₁ e₁, slice c s₂ e₂)
  | _ => none

/-! ## The tags -/

/-- The tags are not empty. -/
theorem openTag_ne_nil : openTag ≠ [] := by
  decide

theorem closeTag_ne_nil : closeTag ≠ [] := by
  decide

/-- They begin with `<`. -/
theorem openTag_head : openTag.head? = some 60 := by
  decide

theorem closeTag_head : closeTag.head? = some 60 := by
  decide

/-- `<` does not come back within a tag. -/
theorem lt_not_mem_openTag_tail : (60 : JChar) ∉ openTag.tail := by
  decide

/-- The closing tag holds no other `<`. -/
theorem lt_not_mem_closeTag_tail : (60 : JChar) ∉ closeTag.tail := by
  decide

/-- `<` is never the second unit of a surrogate pair. -/
theorem isSurrogatePair_lt (c : JChar) : isSurrogatePair c 60 = false := by
  rw [isSurrogatePair, show isLowSurrogate 60 = false by decide, Bool.and_false]

/-- In front of an opening tag a wildcard splits no surrogate pair. -/
theorem guarded_openTag (p : List (Item JChar)) :
    Guarded isSurrogatePair (.text openTag :: p) :=
  isSurrogatePair_lt

/-- Nor does it in front of a closing tag. -/
theorem guarded_closeTag (p : List (Item JChar)) :
    Guarded isSurrogatePair (.text closeTag :: p) :=
  isSurrogatePair_lt

/-! ## From which positions the rest of the pattern matches -/

/-- An opening tag stands at `k` and a closing one somewhere behind it. -/
def ElementAt (c : JString) (k : Nat) : Prop :=
  OccursAt openTag c k ∧ ∃ l, k + openTag.length ≤ l ∧ OccursAt closeTag c l

/-- A closing tag stands at `j` and an element somewhere behind it. -/
def CloseBeforeElement (c : JString) (j : Nat) : Prop :=
  OccursAt closeTag c j ∧ ∃ k, j + closeTag.length ≤ k ∧ ElementAt c k

/-- `</CipherValue>.*` -/
theorem matchesFrom_close (c : JString) (l : Nat) :
    MatchesFrom isSurrogatePair [.text closeTag, .any] c l ↔ OccursAt closeTag c l := by
  rw [matchesFrom_text closeTag_ne_nil, matchesFrom_any (p := []) trivial]
  constructor
  · intro h
    exact h.1
  · intro h
    exact ⟨h, c.length, h.end_le closeTag_ne_nil, matchesFrom_nil.mpr rfl⟩

/-- `<CipherValue>(.*)</CipherValue>.*` -/
theorem matchesFrom_element (c : JString) (k : Nat) :
    MatchesFrom isSurrogatePair [.text openTag, .capture, .text closeTag, .any] c k ↔
      ElementAt c k := by
  rw [matchesFrom_text openTag_ne_nil, matchesFrom_capture (guarded_closeTag _)]
  simp only [matchesFrom_close]
  rfl

/-- `</CipherValue>.*<CipherValue>(.*)</CipherValue>.*` -/
theorem matchesFrom_close_element (c : JString) (j : Nat) :
    MatchesFrom isSurrogatePair
      [.text closeTag, .any, .text openTag, .capture, .text closeTag, .any] c j ↔
      CloseBeforeElement c j := by
  rw [matchesFrom_text closeTag_ne_nil, matchesFrom_any (guarded_openTag _)]
  simp only [matchesFrom_element]
  rfl

/-- `<CipherValue>(.*)</CipherValue>.*<CipherValue>(.*)</CipherValue>.*` -/
theorem matchesFrom_two_elements (c : JString) (i : Nat) :
    MatchesFrom isSurrogatePair
      [.text openTag, .capture, .text closeTag, .any, .text openTag, .capture,
        .text closeTag, .any] c i ↔
      OccursAt openTag c i ∧ ∃ j, i + openTag.length ≤ j ∧ CloseBeforeElement c j := by
  rw [matchesFrom_text openTag_ne_nil, matchesFrom_capture (guarded_closeTag _)]
  simp only [matchesFrom_close_element]

/-! ## The captured spans -/

/-- The spans of the two groups by last occurrences: group 2 runs to the last
closing tag from the last opening tag with a closing tag behind it; group 1 runs to
the last closing tag in front of that from the last opening tag in front of it. -/
structure EnvelopeSpans (c : JString) (p₁ e₁ p₂ e₂ : Nat) : Prop where
  close₂ : IsGreatest {l | OccursAt closeTag c l} e₂
  open₂ : IsGreatest {k | OccursAt openTag c k ∧
    ∃ l, k + openTag.length ≤ l ∧ OccursAt closeTag c l} p₂
  close₁ : IsGreatest {j | OccursAt closeTag c j ∧ j + closeTag.length ≤ p₂} e₁
  open₁ : IsGreatest {i | OccursAt openTag c i ∧ i + openTag.length ≤ e₁} p₁

/-- The spans are determined by the string. -/
theorem EnvelopeSpans.unique {c : JString} {p₁ e₁ p₂ e₂ q₁ f₁ q₂ f₂ : Nat}
    (h : EnvelopeSpans c p₁ e₁ p₂ e₂) (h' : EnvelopeSpans c q₁ f₁ q₂ f₂) :
    p₁ = q₁ ∧ e₁ = f₁ ∧ p₂ = q₂ ∧ e₂ = f₂ := by
  have he₂ := h.close₂.unique h'.close₂
  have hp₂ := h.open₂.unique h'.open₂
  subst hp₂
  have he₁ := h.close₁.unique h'.close₁
  subst he₁
  exact ⟨h.open₁.unique h'.open₁, rfl, rfl, he₂⟩

/-- The successive maxima of the backtracking search are the last occurrences. -/
theorem envelopeSpans_of_stops {c : JString} {p₁ e₁ p₂ e₂ : Nat}
    (h₁ : IsGreatest {i | OccursAt openTag c i ∧
      ∃ j, i + openTag.length ≤ j ∧ CloseBeforeElement c j} p₁)
    (h₂ : IsGreatest {j | p₁ + openTag.length ≤ j ∧ CloseBeforeElement c j} e₁)
    (h₃ : IsGreatest {k | e₁ + closeTag.length ≤ k ∧ ElementAt c k} p₂)
    (h₄ : IsGreatest {l | p₂ + openTag.length ≤ l ∧ OccursAt closeTag c l} e₂) :
    EnvelopeSpans c p₁ e₁ p₂ e₂ := by
  have hp₁e₁ := h₂.1.1
  have he₁p₂ := h₃.1.1
  have hp₂e₂ := h₄.1.1
  refine ⟨⟨h₄.1.2, ?_⟩, ⟨h₃.1.2, ?_⟩, ⟨⟨h₂.1.2.1, he₁p₂⟩, ?_⟩, ⟨⟨h₁.1.1, hp₁e₁⟩, ?_⟩⟩
  · intro l hl
    by_contra hlt
    have hle := h₄.2 (show l ∈ _ from ⟨by omega, hl⟩)
    omega
  · intro k hk
    by_contra hlt
    have hle := h₃.2 (show k ∈ _ from ⟨by omega, hk⟩)
    omega
  · rintro j ⟨hj, hjp⟩
    by_contra hlt
    have hle := h₂.2 (show j ∈ _ from ⟨by omega, hj, p₂, hjp, h₃.1.2⟩)
    omega
  · rintro i ⟨hi, hie⟩
    exact h₁.2 ⟨hi, e₁, hie, h₂.1.2⟩

/-- The pattern matches when its four tags occur in order, without overlap. -/
theorem matchFrom_envelope_isSome_iff (c : JString) :
    (matchFrom isSurrogatePair envelopePattern 0 c).isSome ↔
      ∃ i j k l, OccursAt openTag c i ∧ i + openTag.length ≤ j ∧
        OccursAt closeTag c j ∧ j + closeTag.length ≤ k ∧
        OccursAt openTag c k ∧ k + openTag.length ≤ l ∧ OccursAt closeTag c l := by
  have hfrom : (matchFrom isSurrogatePair envelopePattern 0 c).isSome ↔
      MatchesFrom isSurrogatePair envelopePattern c 0 := by
    rw [MatchesFrom, List.drop_zero]
    simp
  rw [hfrom, envelopePattern, matchesFrom_any (guarded_openTag _)]
  simp only [matchesFrom_two_elements]
  constructor
  · rintro ⟨i, _, hi, j, hij, hj, k, hjk, hk, l, hkl, hl⟩
    exact ⟨i, j, k, l, hi, hij, hj, hjk, hk, hkl, hl⟩
  · rintro ⟨i, j, k, l, hi, hij, hj, hjk, hk, hkl, hl⟩
    exact ⟨i, Nat.zero_le i, hi, j, hij, hj, k, hjk, hk, l, hkl, hl⟩

/-- What the search reports are the spans by last occurrences. -/
theorem envelopeSpans_of_matchFrom {c : JString} {r : List (Nat × Nat)}
    (h : matchFrom isSurrogatePair envelopePattern 0 c = some r) :
    ∃ p₁ e₁ p₂ e₂, EnvelopeSpans c p₁ e₁ p₂ e₂ ∧
      r = [(p₁ + openTag.length, e₁), (p₂ + openTag.length, e₂)] := by
  rw [← List.drop_zero (l := c), envelopePattern,
    matchFrom_any (guarded_openTag _) (Nat.zero_le _)] at h
  rcases h with ⟨p₁, hp₁, h⟩
  rw [matchFrom_text] at h
  rcases h with ⟨hocc₁, h⟩
  rw [matchFrom_capture (guarded_closeTag _) (hocc₁.end_le openTag_ne_nil)] at h
  rcases h with ⟨e₁, r₁, he₁, h, rfl⟩
  rw [matchFrom_text] at h
  rcases h with ⟨hocc₂, h⟩
  rw [matchFrom_any (guarded_openTag _) (hocc₂.end_le closeTag_ne_nil)] at h
  rcases h with ⟨p₂, hp₂, h⟩
  rw [matchFrom_text] at h
  rcases h with ⟨hocc₃, h⟩
  rw [matchFrom_capture (guarded_closeTag _) (hocc₃.end_le openTag_ne_nil)] at h
  rcases h with ⟨e₂, r₂, he₂, h, rfl⟩
  rw [matchFrom_text] at h
  rcases h with ⟨hocc₄, h⟩
  rw [matchFrom_any (p := []) trivial (hocc₄.end_le closeTag_ne_nil)] at h
  rcases h with ⟨n, _, h⟩
  have hr₂ : r₂ = [] := by
    rw [matchFrom] at h
    split at h
    · exact (Option.some.inj h).symm
    · contradiction
  subst hr₂
  simp only [stops, matchesFrom_two_elements, matchesFrom_close_element, matchesFrom_element,
    matchesFrom_close, Nat.zero_le, true_and] at hp₁ he₁ hp₂ he₂
  exact ⟨p₁, e₁, p₂, e₂, envelopeSpans_of_stops hp₁ he₁ hp₂ he₂, rfl⟩

/-- The pattern captures exactly the spans by last occurrences. -/
theorem matchEnvelope_eq_some_iff (c : JString) (g : JString × JString) :
    matchEnvelope c = some g ↔
      ∃ p₁ e₁ p₂ e₂, EnvelopeSpans c p₁ e₁ p₂ e₂ ∧
        g = (slice c (p₁ + openTag.length) e₁, slice c (p₂ + openTag.length) e₂) := by
  constructor
  · intro h
    rw [matchEnvelope] at h
    cases hr : matchFrom isSurrogatePair envelopePattern 0 c with
    | none =>
        rw [hr] at h
        contradiction
    | some r =>
        rcases envelopeSpans_of_matchFrom hr with ⟨p₁, e₁, p₂, e₂, hspans, rfl⟩
        rw [hr] at h
        exact ⟨p₁, e₁, p₂, e₂, hspans, (Option.some.inj h).symm⟩
  · rintro ⟨p₁, e₁, p₂, e₂, hspans, rfl⟩
    have hsome : (matchFrom isSurrogatePair envelopePattern 0 c).isSome := by
      rcases hspans.open₂.1.2 with ⟨l, hl⟩
      exact (matchFrom_envelope_isSome_iff c).mpr ⟨p₁, e₁, p₂, l, hspans.open₁.1.1,
        hspans.open₁.1.2, hspans.close₁.1.1, hspans.close₁.1.2, hspans.open₂.1.1, hl⟩
    rcases Option.isSome_iff_exists.mp hsome with ⟨r, hr⟩
    rcases envelopeSpans_of_matchFrom hr with ⟨q₁, f₁, q₂, f₂, hspans', rfl⟩
    rcases hspans.unique hspans' with ⟨rfl, rfl, rfl, rfl⟩
    rw [matchEnvelope, hr]

/-- The pattern matches when a group assignment exists. -/
theorem matchEnvelope_isSome_iff (c : JString) :
    (matchEnvelope c).isSome ↔
      ∃ i j k l, OccursAt openTag c i ∧ i + openTag.length ≤ j ∧
        OccursAt closeTag c j ∧ j + closeTag.length ≤ k ∧
        OccursAt openTag c k ∧ k + openTag.length ≤ l ∧ OccursAt closeTag c l := by
  rw [← matchFrom_envelope_isSome_iff]
  constructor
  · intro h
    rw [matchEnvelope] at h
    split at h
    next hr => rw [hr]; rfl
    next => contradiction
  · intro h
    rcases Option.isSome_iff_exists.mp h with ⟨r, hr⟩
    rcases envelopeSpans_of_matchFrom hr with ⟨p₁, e₁, p₂, e₂, _, rfl⟩
    rw [matchEnvelope, hr]
    rfl

/-- Without opening tags or without closing tags there is no match. -/
theorem matchEnvelope_eq_none {c : JString} (h : ¬ openTag <:+: c ∨ ¬ closeTag <:+: c) :
    matchEnvelope c = none := by
  rw [← Option.not_isSome_iff_eq_none, matchEnvelope_isSome_iff]
  rintro ⟨i, j, _, _, hi, _, hj, _⟩
  rcases h with h | h
  · exact h (infix_of_occursAt hi)
  · exact h (infix_of_occursAt hj)

/-- With exactly two opening and two closing tags, one element after the other, the
spans are the contents of the two elements. -/
theorem envelopeSpans_of_exactly_two {c : JString} {p₁ e₁ p₂ e₂ : Nat}
    (hopen : ∀ i, OccursAt openTag c i ↔ i = p₁ ∨ i = p₂)
    (hclose : ∀ i, OccursAt closeTag c i ↔ i = e₁ ∨ i = e₂)
    (h₁ : p₁ + openTag.length ≤ e₁) (h₂ : e₁ + closeTag.length ≤ p₂)
    (h₃ : p₂ + openTag.length ≤ e₂) : EnvelopeSpans c p₁ e₁ p₂ e₂ := by
  have hopenLen : 0 < openTag.length := by decide
  have hcloseLen : 0 < closeTag.length := by decide
  refine ⟨⟨(hclose e₂).mpr (Or.inr rfl), ?_⟩,
    ⟨⟨(hopen p₂).mpr (Or.inr rfl), e₂, h₃, (hclose e₂).mpr (Or.inr rfl)⟩, ?_⟩,
    ⟨⟨(hclose e₁).mpr (Or.inl rfl), h₂⟩, ?_⟩, ⟨⟨(hopen p₁).mpr (Or.inl rfl), h₁⟩, ?_⟩⟩
  · intro l hl
    rcases (hclose l).mp hl with rfl | rfl <;> omega
  · rintro k ⟨hk, _⟩
    rcases (hopen k).mp hk with rfl | rfl <;> omega
  · rintro j ⟨hj, hjp⟩
    rcases (hclose j).mp hj with rfl | rfl <;> omega
  · rintro i ⟨hi, hie⟩
    rcases (hopen i).mp hi with rfl | rfl <;> omega

/-- The language of the envelope pattern and its captures, for every string: it
matches when an opening, a closing, an opening and a closing tag occur in order; its
groups run between the last occurrences of `EnvelopeSpans`; and two elements that
hold all the tags of the string are captured as they are. -/
theorem matchEnvelope_exact (c : JString) :
    ((matchEnvelope c).isSome ↔
      ∃ i j k l, OccursAt openTag c i ∧ i + openTag.length ≤ j ∧
        OccursAt closeTag c j ∧ j + closeTag.length ≤ k ∧
        OccursAt openTag c k ∧ k + openTag.length ≤ l ∧ OccursAt closeTag c l) ∧
    (∀ g, matchEnvelope c = some g →
      ∃ p₁ e₁ p₂ e₂, EnvelopeSpans c p₁ e₁ p₂ e₂ ∧
        g = (slice c (p₁ + openTag.length) e₁, slice c (p₂ + openTag.length) e₂)) ∧
    (∀ p₁ e₁ p₂ e₂, (∀ i, OccursAt openTag c i ↔ i = p₁ ∨ i = p₂) →
      (∀ i, OccursAt closeTag c i ↔ i = e₁ ∨ i = e₂) →
      p₁ + openTag.length ≤ e₁ → e₁ + closeTag.length ≤ p₂ → p₂ + openTag.length ≤ e₂ →
      matchEnvelope c =
        some (slice c (p₁ + openTag.length) e₁, slice c (p₂ + openTag.length) e₂)) := by
  refine ⟨matchEnvelope_isSome_iff c, fun g => (matchEnvelope_eq_some_iff c g).mp, ?_⟩
  intro p₁ e₁ p₂ e₂ hopen hclose h₁ h₂ h₃
  exact (matchEnvelope_eq_some_iff c _).mpr
    ⟨p₁, e₁, p₂, e₂, envelopeSpans_of_exactly_two hopen hclose h₁ h₂ h₃, rfl⟩

/-! ## Values between tags -/

/-- Spans between which no tag of the wrong kind stands are the captured ones. -/
theorem envelopeSpans_of_gaps {c : JString} {p₁ e₁ p₂ e₂ : Nat}
    (ho₁ : OccursAt openTag c p₁) (hc₁ : OccursAt closeTag c e₁)
    (ho₂ : OccursAt openTag c p₂) (hc₂ : OccursAt closeTag c e₂)
    (h₁ : p₁ + openTag.length ≤ e₁) (h₂ : e₁ + closeTag.length ≤ p₂)
    (h₃ : p₂ + openTag.length ≤ e₂)
    (hx : ¬ openTag <:+: slice c (p₁ + openTag.length) e₁)
    (hmid : ¬ closeTag <:+: slice c (e₁ + closeTag.length) p₂)
    (hy : ¬ openTag <:+: slice c (p₂ + openTag.length) e₂)
    (hpost : ¬ closeTag <:+: c.drop (e₂ + closeTag.length)) :
    EnvelopeSpans c p₁ e₁ p₂ e₂ := by
  have hlast₂ : ∀ l, OccursAt closeTag c l → l ≤ e₂ := by
    intro l hl
    by_contra hlt
    have hle := hc₂.add_le_of_lt closeTag_head lt_not_mem_closeTag_tail hl (by omega)
    refine hpost (infix_of_occursAt (i := l - (e₂ + closeTag.length)) ?_)
    rw [occursAt_drop, show e₂ + closeTag.length + (l - (e₂ + closeTag.length)) = l by omega]
    exact hl
  refine ⟨⟨hc₂, hlast₂⟩, ⟨⟨ho₂, e₂, h₃, hc₂⟩, ?_⟩, ⟨⟨hc₁, h₂⟩, ?_⟩, ⟨⟨ho₁, h₁⟩, ?_⟩⟩
  · rintro k ⟨hk, l, hkl, hl⟩
    by_contra hlt
    have hle := ho₂.add_le_of_lt openTag_head lt_not_mem_openTag_tail hk (by omega)
    have hend := hlast₂ l hl
    exact hy (hk.infix_slice hle (by omega))
  · rintro j ⟨hj, hjp⟩
    by_contra hlt
    have hle := hc₁.add_le_of_lt closeTag_head lt_not_mem_closeTag_tail hj (by omega)
    exact hmid (hj.infix_slice hle hjp)
  · rintro i ⟨hi, hie⟩
    by_contra hlt
    have hle := ho₁.add_le_of_lt openTag_head lt_not_mem_openTag_tail hi (by omega)
    exact hx (hi.infix_slice hle hie)

/-- Two elements are captured when no opening tag stands in their contents and no
closing tag between them or behind them.  What stands in front of the first element
and which closing tags stand in the contents does not matter. -/
theorem matchEnvelope_elements {pre x mid y post : JString}
    (hx : ¬ openTag <:+: x) (hmid : ¬ closeTag <:+: mid)
    (hy : ¬ openTag <:+: y) (hpost : ¬ closeTag <:+: post) :
    matchEnvelope (pre ++ (openTag ++ (x ++ (closeTag ++ (mid ++ (openTag ++ (y ++
      (closeTag ++ post)))))))) = some (x, y) := by
  generalize hc : pre ++ (openTag ++ (x ++ (closeTag ++ (mid ++ (openTag ++ (y ++
    (closeTag ++ post))))))) = c
  obtain ⟨p₁, hp₁⟩ : ∃ p₁, p₁ = pre.length := ⟨_, rfl⟩
  obtain ⟨e₁, he₁⟩ : ∃ e₁, e₁ = (pre ++ openTag ++ x).length := ⟨_, rfl⟩
  obtain ⟨p₂, hp₂⟩ : ∃ p₂, p₂ = (pre ++ openTag ++ x ++ closeTag ++ mid).length := ⟨_, rfl⟩
  obtain ⟨e₂, he₂⟩ :
      ∃ e₂, e₂ = (pre ++ openTag ++ x ++ closeTag ++ mid ++ openTag ++ y).length := ⟨_, rfl⟩
  have hsx : slice c (p₁ + openTag.length) e₁ = x :=
    slice_of_eq (a := pre ++ openTag)
      (b := closeTag ++ (mid ++ (openTag ++ (y ++ (closeTag ++ post)))))
      (by simp [← hc]) (by simp [hp₁]) (by simp [he₁, Nat.add_assoc])
  have hsmid : slice c (e₁ + closeTag.length) p₂ = mid :=
    slice_of_eq (a := pre ++ openTag ++ x ++ closeTag)
      (b := openTag ++ (y ++ (closeTag ++ post)))
      (by simp [← hc]) (by simp [he₁, Nat.add_assoc]) (by simp [hp₂, Nat.add_assoc])
  have hsy : slice c (p₂ + openTag.length) e₂ = y :=
    slice_of_eq (a := pre ++ openTag ++ x ++ closeTag ++ mid ++ openTag)
      (b := closeTag ++ post)
      (by simp [← hc]) (by simp [hp₂, Nat.add_assoc]) (by simp [he₂, Nat.add_assoc])
  have hdrop : c.drop (e₂ + closeTag.length) = post := by
    rw [← hc, show e₂ + closeTag.length =
      (pre ++ openTag ++ x ++ closeTag ++ mid ++ openTag ++ y ++ closeTag).length by
        simp [he₂, Nat.add_assoc]]
    simp only [← List.append_assoc, List.drop_left]
  refine (matchEnvelope_eq_some_iff c _).mpr ⟨p₁, e₁, p₂, e₂, ?_, by rw [hsx, hsy]⟩
  refine envelopeSpans_of_gaps ?_ ?_ ?_ ?_ ?_ ?_ ?_ (by rwa [hsx]) (by rwa [hsmid])
    (by rwa [hsy]) (by rwa [hdrop])
  · exact occursAt_of_eq hc.symm hp₁
  · exact occursAt_of_eq (b := mid ++ (openTag ++ (y ++ (closeTag ++ post))))
      (by simp only [← hc, List.append_assoc]) he₁
  · exact occursAt_of_eq (b := y ++ (closeTag ++ post))
      (by simp only [← hc, List.append_assoc]) hp₂
  · exact occursAt_of_eq (b := post) (by simp only [← hc, List.append_assoc]) he₂
  · simp [hp₁, he₁]
  · simp [he₁, hp₂, Nat.add_assoc]
  · simp [hp₂, he₂, Nat.add_assoc]

/-! ## The written document -/

/-- The document up to its first value. -/
def header : JString :=
  lit "<?xml version=\"1.0\" encoding=\"UTF-8\"?>\n" ++
  (lit "<EncryptedData xmlns=\"http://www.w3.org/2001/04/xmlenc#\"\n" ++
  (lit "               xmlns:ds=\"http://www.w3.org/2000/09/xmldsig#\"\n" ++
  (lit "               MimeType=\"application/xml\">\n" ++
  (lit "  <EncryptionMethod Algorithm=\"http://www.w3.org/2001/04/xmlenc#aes128-cbc\"/>\n" ++
  (lit "  <ds:KeyInfo>\n" ++
  (lit "    <EncryptedKey>\n" ++
  (lit "      <EncryptionMethod Algorithm=\"http://www.w3.org/2001/04/xmlenc#rsa-oaep-mgf1p\"/>\n" ++
  (lit "        <CipherData>\n" ++
  lit "          "))))))))

/-- The document between its two values. -/
def middle : JString :=
  lit "\n" ++ (lit "        </CipherData>\n" ++ (lit "    </EncryptedKey>\n" ++
  (lit "  </ds:KeyInfo>\n" ++ (lit "  <CipherData>\n" ++ lit "    "))))

/-- The document behind its second value. -/
def footer : JString :=
  lit "\n" ++ (lit "  </CipherData>\n" ++ lit "</EncryptedData>\n")

/-- The document is its two values between tags and fixed texts. -/
theorem envelope_eq (v : CipherKeyAndData) :
    envelope v = header ++ (openTag ++ (v.cipherKey ++ (closeTag ++ (middle ++ (openTag ++
      (v.cipherData ++ (closeTag ++ footer))))))) := by
  have hopen₁ : lit "          <CipherValue>" = lit "          " ++ openTag :=
    lit_split (by rfl)
  have hopen₂ : lit "    <CipherValue>" = lit "    " ++ openTag :=
    lit_split (by rfl)
  have hclose : lit "</CipherValue>\n" = closeTag ++ lit "\n" :=
    lit_split (by rfl)
  rw [envelope, header, middle, footer, hopen₁, hopen₂, hclose]
  simp only [List.append_assoc]

set_option maxRecDepth 4000 in
/-- Between the elements of the envelope stands no closing tag. -/
theorem not_closeTag_infix_middle : ¬ closeTag <:+: middle := by
  decide

/-- Nor does one behind them. -/
theorem not_closeTag_infix_footer : ¬ closeTag <:+: footer := by
  decide

/-- Base64 text holds no `<`. -/
theorem not_lt_mem_encode (bs : List UInt8) : 60 ∉ Base64.encode bs :=
  fun h => (Base64.encode_chars bs 60 h).ne_lt rfl

/-- Encoded text holds no tag. -/
theorem not_openTag_infix_encode (bs : List UInt8) : ¬ openTag <:+: Base64.encode bs :=
  not_infix_of_head_not_mem openTag_head (not_lt_mem_encode bs)

/-- The pattern finds the two Base64 values that were written, and text behind the
document does not disturb it unless it closes an element. -/
theorem matchEnvelope_envelope_append (k d : List UInt8) (post : JString)
    (hpost : ¬ closeTag <:+: footer ++ post) :
    matchEnvelope (envelope ⟨Base64.encode k, Base64.encode d⟩ ++ post) =
      some (Base64.encode k, Base64.encode d) := by
  rw [envelope_eq]
  simp only [List.append_assoc]
  exact matchEnvelope_elements (not_openTag_infix_encode k) not_closeTag_infix_middle
    (not_openTag_infix_encode d) hpost

/-- The document alone. -/
theorem matchEnvelope_envelope (k d : List UInt8) :
    matchEnvelope (envelope ⟨Base64.encode k, Base64.encode d⟩) =
      some (Base64.encode k, Base64.encode d) := by
  have h := matchEnvelope_envelope_append k d []
    (by rw [List.append_nil]; exact not_closeTag_infix_footer)
  rwa [List.append_nil] at h

theorem isAscii_header : IsAscii header := by
  simp only [header, isAscii_append_iff]
  refine ⟨?_, ?_, ?_, ?_, ?_, ?_, ?_, ?_, ?_, ?_⟩ <;> exact isAscii_lit (by decide)

theorem isAscii_middle : IsAscii middle := by
  simp only [middle, isAscii_append_iff]
  refine ⟨?_, ?_, ?_, ?_, ?_, ?_⟩ <;> exact isAscii_lit (by decide)

theorem isAscii_footer : IsAscii footer := by
  simp only [footer, isAscii_append_iff]
  refine ⟨?_, ?_, ?_⟩ <;> exact isAscii_lit (by decide)

theorem isAscii_openTag : IsAscii openTag :=
  isAscii_lit (by decide)

theorem isAscii_closeTag : IsAscii closeTag :=
  isAscii_lit (by decide)

/-- A document with ASCII values is ASCII. -/
theorem isAscii_envelope {v : CipherKeyAndData} (hkey : IsAscii v.cipherKey)
    (hdata : IsAscii v.cipherData) : IsAscii (envelope v) := by
  have hbehind : IsAscii (closeTag ++ footer) := isAscii_closeTag.append isAscii_footer
  have hbetween : IsAscii (closeTag ++ (middle ++ openTag)) :=
    isAscii_closeTag.append (isAscii_middle.append isAscii_openTag)
  have hfront : IsAscii (header ++ openTag) := isAscii_header.append isAscii_openTag
  have h := hfront.append (hkey.append (hbetween.append (hdata.append hbehind)))
  rw [envelope_eq]
  simpa only [List.append_assoc] using h

end Mockbank
