import Mockbank.Crypto.Cryptor
import Mockbank.Crypto.Layout

/-!
# Which layouts are read

`decrypt` finds the values by the literal tags and decodes them strictly, so that it reads
a re-laid document only when the layout leaves alone what it looks at.

Main results:

- Theorem `clean_of_captured`: captured Base64 text comes from a clean layout.
- Theorem `decrypt_render_iff`: the layouts that `decrypt` reads.
- Theorem `decrypt_render_withComment`: two elements in a comment behind the document are
  read in its place.
-/

namespace Mockbank

open Jvm Search

variable {P : Provider} {L : Layout}

/-! ## Which layouts are read -/

/-- White space is not Base64 text. -/
theorem not_space_of_base64 {u : JChar} (h : Base64.IsBase64Char u) : isXmlSpace u = false := by
  have hrange := (Base64.isBase64Char_iff u).mp h
  simp only [isXmlSpace, Bool.or_eq_false_iff, decide_eq_false_iff_not]
  refine ⟨⟨⟨?_, ?_⟩, ?_⟩, ?_⟩ <;> rintro rfl <;> revert hrange <;> decide

/-- The layout leaves alone what `decrypt` looks at: the names of the tags, the values,
and the closing tags behind the first value. -/
structure Layout.Clean (L : Layout) (v : CipherKeyAndData) : Prop where
  no_prefix : L.nsPrefix = none
  key_tight : ∀ i ≤ v.cipherKey.length, L.keySpace i = []
  data_tight : ∀ i ≤ v.cipherData.length, L.dataSpace i = []
  no_close : L.CommentsLack closeTag 7 14

/-- A clean layout is read as the layout of `encrypt`, whatever opening tags stand in
its comments. -/
theorem matchEnvelope_render_of_clean {v : CipherKeyAndData} (hL : L.Clean v)
    (hkey : 60 ∉ v.cipherKey) (hdata : 60 ∉ v.cipherData) :
    matchEnvelope (L.render v) = some (v.cipherKey, v.cipherData) := by
  rw [matchEnvelope_render_of_no_close hL.no_prefix hL.no_close hkey hdata,
    weave_of_tight hL.key_tight, weave_of_tight hL.data_tight]

/-- Values that are Base64 text had no white space inserted. -/
theorem tight_of_base64 {space : Nat → List XmlSpace} {s : JString}
    (h : ∀ u ∈ weave space s, Base64.IsBase64Char u) : ∀ i ≤ s.length, space i = [] :=
  tight_of_no_space fun u hu => not_space_of_base64 (h u hu)

/-- The comments do not hold an opening and a closing tag of a value. -/
def Layout.NoElementInComments (L : Layout) : Prop :=
  L.CommentsLack openTag 0 14 ∨ L.CommentsLack closeTag 0 14

/-- A document with a prefix in which a value is found has one in its comments. -/
theorem prefix_none_of_match {v : CipherKeyAndData} (hlack : L.NoElementInComments)
    (hkey : 60 ∉ v.cipherKey) (hdata : 60 ∉ v.cipherData) {g : JString × JString}
    (hmatch : matchEnvelope (L.render v) = some g) : L.nsPrefix = none := by
  cases hp : L.nsPrefix with
  | none => rfl
  | some p =>
      have hnone : matchEnvelope (L.render v) = none := by
        apply matchEnvelope_eq_none
        rcases hlack with hopen | hclose
        · exact Or.inl (not_infix_render_prefixed (Or.inl rfl) hp hopen hkey hdata)
        · exact Or.inr (not_infix_render_prefixed (Or.inr rfl) hp hclose hkey hdata)
      rw [hnone] at hmatch
      contradiction

/-- A layout without opening tags in its comments whose captured values are Base64 text
is clean. -/
theorem clean_of_captured_open {v : CipherKeyAndData} (hnone : L.nsPrefix = none)
    (hopen : L.CommentsLack openTag 7 14) (hkey : 60 ∉ v.cipherKey) (hdata : 60 ∉ v.cipherData)
    {x y : JString} (hmatch : matchEnvelope (L.render v) = some (x, y))
    (hx : ∀ u ∈ x, Base64.IsBase64Char u) (hy : ∀ u ∈ y, Base64.IsBase64Char u) :
    L.Clean v := by
  rcases matchEnvelope_render_of_none hnone hopen hkey hdata with ⟨x', y', hmatch', hxlt, hylt⟩
  obtain ⟨rfl, rfl⟩ : x' = x ∧ y' = y := by
    rw [hmatch] at hmatch'
    exact ⟨(congrArg Prod.fst (Option.some.inj hmatch')).symm,
      (congrArg Prod.snd (Option.some.inj hmatch')).symm⟩
  rcases hxlt fun h => (hx 60 h).ne_lt rfl with ⟨rfl, hbetween⟩
  rcases hylt fun h => (hy 60 h).ne_lt rfl with ⟨rfl, hback⟩
  have hlack₁ := commentsLack_of_not_infix valueTag_closeTag gapText_mem_betweenParts hbetween
  have hlack₂ := commentsLack_of_not_infix valueTag_closeTag gapText_mem_backParts hback
  refine ⟨hnone, tight_of_base64 hx, tight_of_base64 hy, ?_⟩
  intro i ha hb
  by_cases hi : i ≤ 11
  · exact hlack₁ i ha hi
  · exact hlack₂ i (by omega) hb

/-- A layout without closing tags in its comments whose captured values are Base64 text
is clean. -/
theorem clean_of_captured_close {v : CipherKeyAndData} (hnone : L.nsPrefix = none)
    (hclose : L.CommentsLack closeTag 7 14) (hkey : 60 ∉ v.cipherKey)
    (hdata : 60 ∉ v.cipherData) {x y : JString}
    (hmatch : matchEnvelope (L.render v) = some (x, y))
    (hx : ∀ u ∈ x, Base64.IsBase64Char u) (hy : ∀ u ∈ y, Base64.IsBase64Char u) :
    L.Clean v := by
  rw [matchEnvelope_render_of_no_close hnone hclose hkey hdata] at hmatch
  rcases Prod.mk.inj (Option.some.inj hmatch) with ⟨rfl, rfl⟩
  exact ⟨hnone, tight_of_base64 hx, tight_of_base64 hy, hclose⟩

/-- A layout without an element in its comments whose captured values are Base64 text is
clean. -/
theorem clean_of_captured {v : CipherKeyAndData} (hlack : L.NoElementInComments)
    (hkey : 60 ∉ v.cipherKey) (hdata : 60 ∉ v.cipherData) {x y : JString}
    (hmatch : matchEnvelope (L.render v) = some (x, y))
    (hx : ∀ u ∈ x, Base64.IsBase64Char u) (hy : ∀ u ∈ y, Base64.IsBase64Char u) :
    L.Clean v := by
  have hnone := prefix_none_of_match hlack hkey hdata hmatch
  rcases hlack with hopen | hclose
  · exact clean_of_captured_open hnone (fun i ha hb => hopen i (by omega) hb) hkey hdata
      hmatch hx hy
  · exact clean_of_captured_close hnone (fun i ha hb => hclose i (by omega) hb) hkey hdata
      hmatch hx hy

/-- The document holds the characters of the second value. -/
theorem cipherData_sublist_render (v : CipherKeyAndData) :
    v.cipherData.Sublist (L.render v) := by
  have hweave : (weave L.dataSpace v.cipherData) <:+: L.render v := by
    refine ⟨L.frontParts.flatten ++ L.openValue ++ weave L.keySpace v.cipherKey ++
      L.closeValue ++ L.betweenParts.flatten ++ L.openValue,
      L.closeValue ++ L.backParts.flatten, ?_⟩
    simp only [Layout.render, List.append_assoc]
  exact (sublist_weave _ _).trans hweave.sublist

/-- The error text around a document is longer than the text encrypted in it. -/
theorem invalidFormat_ne {cs : AsciiCharset} (hpads : P.AesPads) {draw : Draw P}
    {wrapped : List UInt8} (p : JString) :
    invalidFormat ++ L.render (writtenValues draw wrapped (cs.encode p)) ≠ p := by
  intro h
  have hvalue : (writtenValues draw wrapped (cs.encode p)).cipherData.Sublist p := by
    have hsub := (cipherData_sublist_render (L := L)
      (writtenValues draw wrapped (cs.encode p))).trans (List.sublist_append_right invalidFormat _)
    rwa [h] at hsub
  have hcount := ((hvalue.filter fun u => u.toNat < 0x80).length_le).trans
    (cs.length_filter_ascii_le p)
  have hascii : (writtenValues draw wrapped (cs.encode p)).cipherData.filter
      (fun u => u.toNat < 0x80) = (writtenValues draw wrapped (cs.encode p)).cipherData := by
    rw [List.filter_eq_self]
    intro u hu
    exact decide_eq_true (Base64.isAscii_encode _ u hu)
  rw [hascii] at hcount
  have hlong := hpads draw.secretKey draw.iv (cs.encode p) draw.secretKey_length draw.iv_length
  have hbase64 := Base64.length_le_length_encode
    (P.aesEncrypt draw.secretKey draw.iv (cs.encode p))
  have hle : (Base64.encode (P.aesEncrypt draw.secretKey draw.iv (cs.encode p))).length ≤
      (cs.encode p).length := hcount
  omega

/-- A clean layout is decrypted to what the charset makes of the text. -/
theorem decrypt_render_of_clean {c : Cryptor P} {cs : Charset} (haes : P.AesInverts)
    {draw : Draw P} {wrapped plain : List UInt8}
    (hunwrap : P.rsaDecrypt c.keyPair.privateKey wrapped = .ok draw.secretKey)
    (hL : L.Clean (writtenValues draw wrapped plain)) :
    c.decrypt cs (L.render (writtenValues draw wrapped plain)) = .ok (cs.decode plain) := by
  rw [decrypt_of_match (matchEnvelope_render_of_clean hL (not_lt_mem_encode _)
    (not_lt_mem_encode _))]
  exact decryptKeyAndData_written haes hunwrap

/-- Where the comments hold no element, only clean layouts are decrypted. -/
theorem clean_of_decrypt_render {c : Cryptor P} (cs : AsciiCharset) (hpads : P.AesPads)
    {draw : Draw P} {wrapped : List UInt8} {p : JString} (hlack : L.NoElementInComments)
    (h : c.decrypt cs.toCharset (L.render (writtenValues draw wrapped (cs.encode p))) = .ok p) :
    L.Clean (writtenValues draw wrapped (cs.encode p)) := by
  cases hmatch : matchEnvelope (L.render (writtenValues draw wrapped (cs.encode p))) with
  | none =>
      rw [decrypt_of_no_match hmatch] at h
      exact absurd (Except.ok.inj h) (invalidFormat_ne hpads p)
  | some g =>
      rcases g with ⟨x, y⟩
      rw [decrypt_of_match hmatch] at h
      rcases base64_of_decryptKeyAndData h with ⟨hx, hy⟩
      exact clean_of_captured hlack (not_lt_mem_encode _) (not_lt_mem_encode _) hmatch hx hy

/-- `decrypt` reads every clean layout of what `encrypt` wrote, and where the comments do
not hold an opening and a closing tag it reads no other. -/
theorem decrypt_render_iff (c : Cryptor P) (cs : AsciiCharset) (haes : P.AesInverts)
    (hpads : P.AesPads) (hrsa : c.keyPair.RsaInverts) (draw : Draw P) (p : JString)
    (v : CipherKeyAndData)
    (hv : encryptKeyAndData cs.toCharset p c.keyPair.publicKey draw = .ok v) (L : Layout) :
    (cs.toCharset.Lossless p ∧ L.Clean v → c.decrypt cs.toCharset (L.render v) = .ok p) ∧
      (L.NoElementInComments →
        (c.decrypt cs.toCharset (L.render v) = .ok p ↔
          cs.toCharset.Lossless p ∧ L.Clean v)) := by
  rcases hrsa draw.seed draw.secretKey draw.secretKey_length with ⟨wrapped, hwrap, hunwrap⟩
  obtain rfl : v = writtenValues draw wrapped (cs.encode p) :=
    Except.ok.inj (hv.symm.trans (encryptKeyAndData_of_wrapped hwrap))
  have hclean : cs.toCharset.Lossless p ∧ L.Clean (writtenValues draw wrapped (cs.encode p)) →
      c.decrypt cs.toCharset (L.render (writtenValues draw wrapped (cs.encode p))) = .ok p := by
    rintro ⟨hp, hL⟩
    rw [decrypt_render_of_clean haes hunwrap hL]
    exact congrArg Except.ok hp
  refine ⟨hclean, fun hlack => ⟨fun h => ?_, hclean⟩⟩
  have hL := clean_of_decrypt_render cs hpads hlack h
  rw [decrypt_render_of_clean haes hunwrap hL] at h
  exact ⟨Except.ok.inj h, hL⟩

/-! ## Values in a comment -/

/-- The two elements of the values, in the layout of `encrypt`. -/
def elements (v : CipherKeyAndData) : JString :=
  openTag ++ (v.cipherKey ++ (closeTag ++ (openTag ++ (v.cipherData ++ closeTag))))

/-- The last two elements of a document are captured, whatever stands in front of them. -/
theorem matchEnvelope_append_elements (pre : JString) {v : CipherKeyAndData}
    (hkey : 60 ∉ v.cipherKey) (hdata : 60 ∉ v.cipherData) {post : JString}
    (hpost : ¬ closeTag <:+: post) :
    matchEnvelope (pre ++ (elements v ++ post)) = some (v.cipherKey, v.cipherData) := by
  have hdoc : pre ++ (elements v ++ post) = pre ++ (openTag ++ (v.cipherKey ++ (closeTag ++
      ([] ++ (openTag ++ (v.cipherData ++ (closeTag ++ post))))))) := by
    simp only [elements, List.append_assoc, List.nil_append]
  rw [hdoc]
  exact matchEnvelope_elements (not_infix_of_head_not_mem openTag_head hkey) (by decide)
    (not_infix_of_head_not_mem openTag_head hdata) hpost

/-- A text without hyphens is the text of a comment. -/
theorem comment_wellFormed {s : JString} (hs : 45 ∉ s) : ¬ lit "--" <:+: s ++ lit "-" := by
  intro h
  have hcount := h.sublist.count_le 45
  rw [List.count_append, List.count_eq_zero.mpr hs] at hcount
  exact absurd hcount (by decide)

/-- Base64 text holds no hyphen, and the tags do not either. -/
theorem hyphen_not_mem_elements {v : CipherKeyAndData}
    (hkey : ∀ u ∈ v.cipherKey, Base64.IsBase64Char u)
    (hdata : ∀ u ∈ v.cipherData, Base64.IsBase64Char u) : 45 ∉ elements v := by
  have hbase64 := Base64.not_isBase64Char_hyphen
  have hopen : 45 ∉ openTag := by decide
  have hclose : 45 ∉ closeTag := by decide
  simp only [elements, List.mem_append, not_or]
  exact ⟨hopen, fun h => hbase64 (hkey 45 h), hclose, hopen, fun h => hbase64 (hdata 45 h),
    hclose⟩

/-- The layout with another comment at the end of the document. -/
def Layout.withComment (L : Layout) (c : Comment) : Layout :=
  { L with gap := fun i => if i = 14 then L.gap 14 ++ [.comment c] else L.gap i }

theorem gapText_withComment (L : Layout) (c : Comment) (i : Nat) :
    gapText ((L.withComment c).gap i) =
      if i = 14 then gapText (L.gap 14) ++ (Filler.comment c).text else gapText (L.gap i) := by
  unfold Layout.withComment gapText
  by_cases hi : i = 14
  · simp [hi]
  · simp [hi]

/-- The comment comes behind everything else. -/
theorem render_withComment (L : Layout) (c : Comment) (v : CipherKeyAndData) :
    (L.withComment c).render v = L.render v ++ (Filler.comment c).text := by
  have hfront : (L.withComment c).frontParts = L.frontParts := by
    simp only [Layout.frontParts, gapText_withComment]
    rfl
  have hbetween : (L.withComment c).betweenParts = L.betweenParts := by
    simp only [Layout.betweenParts, gapText_withComment]
    rfl
  have hback : (L.withComment c).backParts.flatten =
      L.backParts.flatten ++ (Filler.comment c).text := by
    simp only [Layout.backParts, gapText_withComment, List.flatten_cons, List.flatten_nil,
      List.append_nil, if_true, List.append_assoc]
    rfl
  have hopen : (L.withComment c).openValue = L.openValue := rfl
  have hclose : (L.withComment c).closeValue = L.closeValue := rfl
  have hkey : (L.withComment c).keySpace = L.keySpace := rfl
  have hdata : (L.withComment c).dataSpace = L.dataSpace := rfl
  simp only [Layout.render, hfront, hbetween, hback, hopen, hclose, hkey, hdata,
    List.append_assoc]

/-- A comment with the two elements of the values that `encrypt` writes. -/
def writtenComment (draw : Draw P) (wrapped plain : List UInt8) : Comment where
  text := elements (writtenValues draw wrapped plain)
  wellFormed := comment_wellFormed
    (hyphen_not_mem_elements (Base64.encode_chars _) (Base64.encode_chars _))

/-- A comment at the end with the two elements of an encrypted text is read in place of
the document in front of it, whatever the layout and the values of that document. -/
theorem decrypt_render_withComment {c : Cryptor P} {cs : Charset} (haes : P.AesInverts)
    {draw : Draw P} {wrapped plain : List UInt8}
    (hunwrap : P.rsaDecrypt c.keyPair.privateKey wrapped = .ok draw.secretKey) (L : Layout)
    (v : CipherKeyAndData) :
    c.decrypt cs ((L.withComment (writtenComment draw wrapped plain)).render v) =
      .ok (cs.decode plain) := by
  have hmatch := matchEnvelope_append_elements (v := writtenValues draw wrapped plain)
    (L.render v ++ lit "<!--") (not_lt_mem_encode (draw.iv ++ wrapped))
    (not_lt_mem_encode (P.aesEncrypt draw.secretKey draw.iv plain))
    (show ¬ closeTag <:+: lit "-->" by decide)
  rw [List.append_assoc] at hmatch
  rw [render_withComment, Filler.text, writtenComment, decrypt_of_match hmatch]
  exact decryptKeyAndData_written haes hunwrap

theorem commentsLack_commentedLayout {t : JString} (ht : ¬ t <:+: lit "no value") (a b : Nat) :
    commentedLayout.CommentsLack t a b := by
  intro i _ _ c hc
  have heq : Filler.comment c = .comment ⟨lit "no value", by decide⟩ := List.mem_singleton.mp hc
  rw [Filler.comment.inj heq]
  exact ht

theorem commentedLayout_noElementInComments : commentedLayout.NoElementInComments :=
  Or.inl (commentsLack_commentedLayout (by decide) 0 14)

theorem commentedLayout_clean (v : CipherKeyAndData) : commentedLayout.Clean v where
  no_prefix := rfl
  key_tight _ _ := rfl
  data_tight _ _ := rfl
  no_close := commentsLack_commentedLayout (by decide) 7 14

/-- A document on one line with a comment behind every tag is read. -/
theorem decrypt_render_iff_commented :
    ∃ v, encryptKeyAndData utf8.toCharset (lit "text") (transparentPair 7).publicKey
        transparentDraw = .ok v ∧
      commentedLayout.NoElementInComments ∧ commentedLayout.Clean v ∧
      (⟨transparentPair 7⟩ : Cryptor transparent).decrypt utf8.toCharset
        (commentedLayout.render v) = .ok (lit "text") := by
  obtain ⟨wrapped, hwrap, _⟩ :=
    transparent_rsaInverts 7 transparentDraw.seed _ transparentDraw.secretKey_length
  have hv : encryptKeyAndData utf8.toCharset (lit "text") (transparentPair 7).publicKey
      transparentDraw = .ok (writtenValues transparentDraw wrapped
        (utf8.toCharset.encode (lit "text"))) :=
    encryptKeyAndData_of_wrapped hwrap
  obtain ⟨_, hiff⟩ := decrypt_render_iff ⟨transparentPair 7⟩ utf8 transparent_aesInverts
    transparent_aesPads (transparent_rsaInverts 7) transparentDraw (lit "text") _ hv
    commentedLayout
  exact ⟨_, hv, commentedLayout_noElementInComments, commentedLayout_clean _,
    (hiff commentedLayout_noElementInComments).mpr
      ⟨utf8_lossless_lit "text", commentedLayout_clean _⟩⟩

/-- One line feed in a value is too much. -/
theorem not_decrypt_wrappedLayout :
    ∃ v, encryptKeyAndData utf8.toCharset (lit "text") (transparentPair 7).publicKey
        transparentDraw = .ok v ∧
      (⟨transparentPair 7⟩ : Cryptor transparent).decrypt utf8.toCharset
        (wrappedLayout.render v) ≠ .ok (lit "text") := by
  obtain ⟨wrapped, hwrap, _⟩ :=
    transparent_rsaInverts 7 transparentDraw.seed _ transparentDraw.secretKey_length
  refine ⟨_, encryptKeyAndData_of_wrapped hwrap, fun h => ?_⟩
  have hopen : wrappedLayout.CommentsLack openTag 0 14 := by
    intro i _ _ c hc
    have hmem : Filler.comment c ∈ plainLayout.gap i := hc
    simp [plainLayout, newline] at hmem
  have hL := clean_of_decrypt_render utf8 transparent_aesPads (Or.inl hopen) h
  exact absurd (hL.data_tight 0 (Nat.zero_le _)) (by simp [wrappedLayout])

end Mockbank
