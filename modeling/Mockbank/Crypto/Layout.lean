import Mockbank.Crypto.Envelope

/-!
# Other layouts of the envelope

Documents with the content of the envelope: white space and comments between its
elements, white space within its values, and a prefix for the encryption namespace.

Main results:

- Theorem `render_plain`: the layout of `encrypt` is one of them.
- Theorems `matchEnvelope_render_of_none` and `matchEnvelope_render_of_no_close`: what the
  pattern finds in a document without a prefix.
- Theorem `not_infix_render_prefixed`: under a prefix value tags stand in comments only.
-/

namespace Mockbank

open Jvm Search

/-! ## Layouts -/

/-- The white space of XML. -/
def isXmlSpace (u : JChar) : Bool :=
  u = 0x20 || u = 0x09 || u = 0x0A || u = 0x0D

/-- A white space character. -/
abbrev XmlSpace := { u : JChar // isXmlSpace u = true }

/-- A comment: its text holds no double hyphen and does not end in a hyphen. -/
structure Comment where
  text : JString
  wellFormed : ¬ lit "--" <:+: text ++ lit "-"

/-- What may stand between two elements. -/
inductive Filler where
  | white (space : XmlSpace)
  | comment (c : Comment)

/-- A filler as it stands in the document. -/
def Filler.text : Filler → JString
  | white space => [space.val]
  | comment c => lit "<!--" ++ (c.text ++ lit "-->")

/-- The characters that end a name in a tag. -/
def isDelimiter (u : JChar) : Bool :=
  isXmlSpace u || (lit ":<>/=&\"").contains u

/-- A namespace prefix. -/
structure NsPrefix where
  text : JString
  ne_nil : text ≠ []
  no_delimiter : ∀ u ∈ text, isDelimiter u = false

/-- A layout of the envelope.  `gap i` is what stands behind the `i`th tag outside
the values, the XML declaration being the first, `keySpace i` and `dataSpace i` are
the white space in front of the `i`th character of a value. -/
structure Layout where
  nsPrefix : Option NsPrefix
  gap : Nat → List Filler
  keySpace : Nat → List XmlSpace
  dataSpace : Nat → List XmlSpace

/-- The text of a gap. -/
def gapText (g : List Filler) : JString :=
  g.flatMap Filler.text

/-- A value with white space in front of its characters and behind the last. -/
def weave (space : Nat → List XmlSpace) : JString → JString
  | [] => (space 0).map (·.val)
  | u :: s => (space 0).map (·.val) ++ u :: weave (fun i => space (i + 1)) s

namespace Layout

variable (L : Layout)

/-- The prefix and its colon in front of the name of an element. -/
def qualifier : JString :=
  match L.nsPrefix with
  | none => []
  | some x => x.text ++ lit ":"

/-- The binding of the namespace: `xmlns` or `xmlns:prefix`. -/
def binding : JString :=
  match L.nsPrefix with
  | none => lit "xmlns"
  | some x => lit "xmlns:" ++ x.text

/-- A tag of the encryption namespace; `rest` starts with the local name. -/
def tag (opener rest : JString) : JString :=
  opener ++ (L.qualifier ++ rest)

/-- `<CipherValue>` under the prefix. -/
def openValue : JString :=
  L.tag (lit "<") (lit "CipherValue>")

/-- `</CipherValue>` under the prefix. -/
def closeValue : JString :=
  L.tag (lit "</") (lit "CipherValue>")

/-- The document up to its first value. -/
def frontParts : List JString :=
  [lit "<?xml version=\"1.0\" encoding=\"UTF-8\"?>", gapText (L.gap 0),
    L.tag (lit "<") (lit "EncryptedData " ++ (L.binding ++
      (lit "=\"http://www.w3.org/2001/04/xmlenc#\"\n" ++
      (lit "               xmlns:ds=\"http://www.w3.org/2000/09/xmldsig#\"\n" ++
      lit "               MimeType=\"application/xml\">")))),
    gapText (L.gap 1),
    L.tag (lit "<")
      (lit "EncryptionMethod Algorithm=\"http://www.w3.org/2001/04/xmlenc#aes128-cbc\"/>"),
    gapText (L.gap 2), lit "<ds:KeyInfo>", gapText (L.gap 3),
    L.tag (lit "<") (lit "EncryptedKey>"), gapText (L.gap 4),
    L.tag (lit "<")
      (lit "EncryptionMethod Algorithm=\"http://www.w3.org/2001/04/xmlenc#rsa-oaep-mgf1p\"/>"),
    gapText (L.gap 5), L.tag (lit "<") (lit "CipherData>"), gapText (L.gap 6)]

/-- The document between its two values. -/
def betweenParts : List JString :=
  [gapText (L.gap 7), L.tag (lit "</") (lit "CipherData>"), gapText (L.gap 8),
    L.tag (lit "</") (lit "EncryptedKey>"), gapText (L.gap 9), lit "</ds:KeyInfo>",
    gapText (L.gap 10), L.tag (lit "<") (lit "CipherData>"), gapText (L.gap 11)]

/-- The document behind its second value. -/
def backParts : List JString :=
  [gapText (L.gap 12), L.tag (lit "</") (lit "CipherData>"), gapText (L.gap 13),
    L.tag (lit "</") (lit "EncryptedData>"), gapText (L.gap 14)]

/-- The document of the values in the layout. -/
def render (v : CipherKeyAndData) : JString :=
  L.frontParts.flatten ++ (L.openValue ++ (weave L.keySpace v.cipherKey ++ (L.closeValue ++
    (L.betweenParts.flatten ++ (L.openValue ++ (weave L.dataSpace v.cipherData ++
      (L.closeValue ++ L.backParts.flatten)))))))

end Layout

/-- A line feed and spaces. -/
def newline (n : Nat) : List Filler :=
  .white ⟨0x0A, rfl⟩ :: List.replicate n (.white ⟨0x20, rfl⟩)

/-- The layout of `encrypt`. -/
def plainLayout : Layout where
  nsPrefix := none
  gap i := newline ([0, 2, 2, 4, 6, 8, 10, 8, 4, 2, 2, 4, 2, 0, 0].getD i 0)
  keySpace _ := []
  dataSpace _ := []

/-- The layout of `encrypt` with line feeds in front of the characters of the second
value. -/
def wrappedLayout : Layout :=
  { plainLayout with dataSpace := fun _ => [⟨0x0A, rfl⟩] }

/-- The layout of `encrypt` on one line, with a comment behind every tag. -/
def commentedLayout : Layout :=
  { plainLayout with gap := fun _ => [.comment ⟨lit "no value", by decide⟩] }

/-- Nothing is inserted into a value when there is no white space for it. -/
theorem weave_none (s : JString) : weave (fun _ => []) s = s := by
  induction s with
  | nil => rfl
  | cons u s ih => simp [weave, ih]

/-- The text of a line feed and spaces. -/
theorem gapText_newline (n : Nat) :
    gapText (newline n) = ofChars ('\n' :: List.replicate n ' ') := by
  have hspace : ∀ n, gapText (List.replicate n (.white ⟨0x20, rfl⟩)) =
      ofChars (List.replicate n ' ') := by
    intro n
    induction n with
    | zero => rfl
    | succ n ih =>
        rw [List.replicate_succ, List.replicate_succ, ofChars_cons, ← ih]
        rfl
  rw [ofChars_cons, ← hspace]
  rfl

/-- The layout of `encrypt` has no prefix in its tags. -/
theorem plainLayout_tag (opener rest : JString) :
    plainLayout.tag opener rest = opener ++ rest := by
  rw [Layout.tag, show plainLayout.qualifier = [] by rfl, List.nil_append]

/-- The gaps of `encrypt` are line feeds and indentation. -/
theorem plainLayout_gap (i : Nat) :
    gapText (plainLayout.gap i) = ofChars ('\n' ::
      List.replicate ([0, 2, 2, 4, 6, 8, 10, 8, 4, 2, 2, 4, 2, 0, 0].getD i 0) ' ') := by
  rw [plainLayout, gapText_newline]

set_option maxRecDepth 8000 in
/-- In front of the values stands the header of the envelope. -/
theorem plainLayout_front : plainLayout.frontParts.flatten = header := by
  rw [Layout.frontParts, header, show plainLayout.binding = lit "xmlns" by rfl]
  repeat rw [List.flatten_cons]
  simp only [plainLayout_tag, plainLayout_gap, List.flatten_nil, List.append_nil]
  repeat rw [lit_ofList]
  simp only [← ofChars_append]
  exact congrArg ofChars (by rfl)

set_option maxRecDepth 8000 in
/-- Between the values stands its middle. -/
theorem plainLayout_between : plainLayout.betweenParts.flatten = middle := by
  rw [Layout.betweenParts, middle]
  repeat rw [List.flatten_cons]
  simp only [plainLayout_tag, plainLayout_gap, List.flatten_nil, List.append_nil]
  repeat rw [lit_ofList]
  simp only [← ofChars_append]
  exact congrArg ofChars (by rfl)

/-- Behind the values stands its footer. -/
theorem plainLayout_back : plainLayout.backParts.flatten = footer := by
  rw [Layout.backParts, footer]
  repeat rw [List.flatten_cons]
  simp only [plainLayout_tag, plainLayout_gap, List.flatten_nil, List.append_nil]
  repeat rw [lit_ofList]
  simp only [← ofChars_append]
  exact congrArg ofChars (by rfl)

/-- The layout of `encrypt` is one of the layouts. -/
theorem render_plain (v : CipherKeyAndData) : plainLayout.render v = envelope v := by
  have hopen : plainLayout.openValue = openTag := by
    rw [Layout.openValue, plainLayout_tag]
    exact (lit_split (by rfl)).symm
  have hclose : plainLayout.closeValue = closeTag := by
    rw [Layout.closeValue, plainLayout_tag]
    exact (lit_split (by rfl)).symm
  rw [Layout.render, envelope_eq, plainLayout_front, plainLayout_between, plainLayout_back,
    hopen, hclose, show plainLayout.keySpace = fun _ => [] by rfl,
    show plainLayout.dataSpace = fun _ => [] by rfl, weave_none, weave_none]

/-! ## What stands between the values -/

/-- What the two value tags have in common: `<` comes first and only there, neither
white space nor a hyphen stands in them, and they do not open a comment. -/
structure ValueTag (t : JString) : Prop where
  head : t.head? = some 60
  lt_tail : 60 ∉ t.tail
  space_tail : (t.tail.all fun u => !isXmlSpace u) = true
  hyphen_tail : 45 ∉ t.tail
  second : ∃ u, t.tail.head? = some u ∧ u ≠ 33

theorem valueTag_openTag : ValueTag openTag where
  head := by decide
  lt_tail := by decide
  space_tail := by decide
  hyphen_tail := by decide
  second := ⟨_, rfl, by decide⟩

theorem valueTag_closeTag : ValueTag closeTag where
  head := by decide
  lt_tail := by decide
  space_tail := by decide
  hyphen_tail := by decide
  second := ⟨_, rfl, by decide⟩

namespace ValueTag

variable {t : JString} (ht : ValueTag t)

include ht

theorem ne_nil : t ≠ [] := by
  intro h
  have hhead := ht.head
  rw [h] at hhead
  contradiction

/-- White space is clear of a value tag. -/
theorem clear_white (space : XmlSpace) : Clear t (Filler.white space).text := by
  refine clear_singleton ht.head ?_ ?_
  · intro h
    have hspace := space.property
    rw [h] at hspace
    exact absurd hspace (by decide)
  · intro h
    have hspace := List.all_eq_true.mp ht.space_tail _ h
    rw [space.property] at hspace
    contradiction

/-- A comment holds a tag when its text does. -/
theorem infix_comment_iff (c : Comment) : t <:+: (Filler.comment c).text ↔ t <:+: c.text := by
  have hopen : lit "<!--" = [60, 33, 45, 45] := by decide
  have hclose : lit "-->" = [45, 45, 62] := by decide
  have hpre : ∀ s, ¬ t <+: 60 :: 33 :: s := by
    rintro s ⟨b, hb⟩
    rcases ht.second with ⟨u, hu, hne⟩
    cases t with
    | nil => simp at hu
    | cons x t =>
        cases t with
        | nil => simp at hu
        | cons y t =>
            have hy : y = u := by simpa using hu
            exact hne (hy ▸ (List.cons.inj (List.cons.inj hb).2).1)
  have hend : ¬ t <:+: [45, 45, 62] := not_infix_of_head_not_mem ht.head (by decide)
  rw [Filler.text, hopen, hclose]
  simp only [List.cons_append, List.nil_append]
  rw [List.infix_cons_iff, or_iff_right (hpre _), infix_cons_iff_of_ne ht.head (by decide),
    infix_cons_iff_of_ne ht.head (by decide), infix_cons_iff_of_ne ht.head (by decide),
    infix_append_iff (barrier_cons _ ht.hyphen_tail), or_iff_left hend]

/-- So is a comment without the tag. -/
theorem clear_comment {c : Comment} (hc : ¬ t <:+: c.text) :
    Clear t (Filler.comment c).text where
  not_infix h := hc ((ht.infix_comment_iff c).mp h)
  barrier := barrier_cons _ ht.lt_tail

/-- A gap is clear when its comments are. -/
theorem clear_gap {g : List Filler} (hg : ∀ c, .comment c ∈ g → ¬ t <:+: c.text) :
    Clear t (gapText g) := by
  refine clear_flatMap ht.ne_nil ?_
  intro f hf
  cases f with
  | white space => exact ht.clear_white space
  | comment c => exact ht.clear_comment (hg c hf)

end ValueTag

/-! ## Woven values -/

/-- A woven value holds the characters of the value and white space. -/
theorem mem_weave {space : Nat → List XmlSpace} {s : JString} {u : JChar}
    (hu : u ∈ weave space s) : u ∈ s ∨ isXmlSpace u = true := by
  induction s generalizing space with
  | nil =>
      rcases List.mem_map.mp hu with ⟨x, _, rfl⟩
      exact Or.inr x.property
  | cons c s ih =>
      rcases List.mem_append.mp hu with hu | hu
      · rcases List.mem_map.mp hu with ⟨x, _, rfl⟩
        exact Or.inr x.property
      · rcases List.mem_cons.mp hu with rfl | hu
        · exact Or.inl (by simp)
        · rcases ih hu with h | h
          · exact Or.inl (by simp [h])
          · exact Or.inr h

/-- White space brings no `<` into a value. -/
theorem lt_not_mem_weave (space : Nat → List XmlSpace) {s : JString} (hs : 60 ∉ s) :
    60 ∉ weave space s := by
  intro hu
  rcases mem_weave hu with h | h
  · exact hs h
  · exact absurd h (by decide)

/-- The characters of the value stay in their order. -/
theorem sublist_weave (space : Nat → List XmlSpace) (s : JString) :
    s.Sublist (weave space s) := by
  induction s generalizing space with
  | nil => exact List.nil_sublist _
  | cons u s ih => exact ((ih _).cons_cons u).trans (List.sublist_append_right _ _)

/-- A value without white space had none inserted. -/
theorem tight_of_no_space {space : Nat → List XmlSpace} {s : JString}
    (h : ∀ u ∈ weave space s, isXmlSpace u = false) : ∀ i ≤ s.length, space i = [] := by
  have hfirst : ∀ {xs : List XmlSpace}, (∀ u ∈ xs.map (·.val), isXmlSpace u = false) →
      xs = [] := by
    intro xs hxs
    cases xs with
    | nil => rfl
    | cons x xs => exact absurd ((hxs x.val (by simp)).symm.trans x.property) Bool.false_ne_true
  induction s generalizing space with
  | nil =>
      intro i hi
      rw [Nat.le_zero.mp hi]
      exact hfirst h
  | cons u s ih =>
      intro i hi
      cases i with
      | zero => exact hfirst fun x hx => h x (List.mem_append_left _ hx)
      | succ i =>
          exact ih (fun x hx => h x (List.mem_append_right _ (List.mem_cons_of_mem u hx))) i
            (Nat.le_of_succ_le_succ hi)

/-- A value without white space in it is left as it is. -/
theorem weave_of_tight {space : Nat → List XmlSpace} {s : JString}
    (h : ∀ i ≤ s.length, space i = []) : weave space s = s := by
  induction s generalizing space with
  | nil => simp [weave, h 0 (Nat.le_refl 0)]
  | cons u s ih =>
      have htail := ih (fun i hi => h (i + 1) (Nat.succ_le_succ hi))
      rw [weave, h 0 (Nat.zero_le _), htail]
      rfl

/-! ## Documents without a prefix -/

variable {L : Layout}

/-- Without a prefix a tag has only its name. -/
theorem tag_of_none (hnone : L.nsPrefix = none) (opener rest : JString) :
    L.tag opener rest = opener ++ rest := by
  rw [Layout.tag, Layout.qualifier, hnone, List.nil_append]

/-- Without a prefix the values open with the tag that `decrypt` looks for. -/
theorem openValue_of_none (hnone : L.nsPrefix = none) : L.openValue = openTag := by
  rw [Layout.openValue, tag_of_none hnone]
  exact (lit_split (by rfl)).symm

/-- And they close with it. -/
theorem closeValue_of_none (hnone : L.nsPrefix = none) : L.closeValue = closeTag := by
  rw [Layout.closeValue, tag_of_none hnone]
  exact (lit_split (by rfl)).symm

/-- No comment of the gaps from `a` to `b` holds the tag. -/
def Layout.CommentsLack (L : Layout) (t : JString) (a b : Nat) : Prop :=
  ∀ i, a ≤ i → i ≤ b → ∀ c, .comment c ∈ L.gap i → ¬ t <:+: c.text

/-- Between the values a value tag stands only within a comment. -/
theorem clear_between_of_none {t : JString} (ht : t = openTag ∨ t = closeTag)
    (hnone : L.nsPrefix = none) (hc : L.CommentsLack t 7 11) :
    Clear t L.betweenParts.flatten := by
  have htag : ValueTag t := by
    rcases ht with rfl | rfl
    · exact valueTag_openTag
    · exact valueTag_closeTag
  have hdata : Clear t (lit "</" ++ lit "CipherData>") := by
    rcases ht with rfl | rfl <;> decide
  have hkey : Clear t (lit "</" ++ lit "EncryptedKey>") := by
    rcases ht with rfl | rfl <;> decide
  have hinfo : Clear t (lit "</ds:KeyInfo>") := by
    rcases ht with rfl | rfl <;> decide
  have hopen : Clear t (lit "<" ++ lit "CipherData>") := by
    rcases ht with rfl | rfl <;> decide
  refine clear_flatten htag.ne_nil ?_
  simp only [Layout.betweenParts, tag_of_none hnone, List.forall_mem_cons]
  exact ⟨htag.clear_gap (hc 7 (by omega) (by omega)), hdata,
    htag.clear_gap (hc 8 (by omega) (by omega)), hkey,
    htag.clear_gap (hc 9 (by omega) (by omega)), hinfo,
    htag.clear_gap (hc 10 (by omega) (by omega)), hopen,
    htag.clear_gap (hc 11 (by omega) (by omega)), by simp⟩

/-- So it is behind the values. -/
theorem clear_back_of_none {t : JString} (ht : t = openTag ∨ t = closeTag)
    (hnone : L.nsPrefix = none) (hc : L.CommentsLack t 12 14) :
    Clear t L.backParts.flatten := by
  have htag : ValueTag t := by
    rcases ht with rfl | rfl
    · exact valueTag_openTag
    · exact valueTag_closeTag
  have hdata : Clear t (lit "</" ++ lit "CipherData>") := by
    rcases ht with rfl | rfl <;> decide
  have hroot : Clear t (lit "</" ++ lit "EncryptedData>") := by
    rcases ht with rfl | rfl <;> decide
  refine clear_flatten htag.ne_nil ?_
  simp only [Layout.backParts, tag_of_none hnone, List.forall_mem_cons]
  exact ⟨htag.clear_gap (hc 12 (by omega) (by omega)), hdata,
    htag.clear_gap (hc 13 (by omega) (by omega)), hroot,
    htag.clear_gap (hc 14 (by omega) (by omega)), by simp⟩

/-- A tag in a comment is a tag in the text around it. -/
theorem commentsLack_of_not_infix {t : JString} (ht : ValueTag t) {a b : Nat}
    {parts : List JString} (hparts : ∀ i, a ≤ i → i ≤ b → gapText (L.gap i) ∈ parts)
    (h : ¬ t <:+: parts.flatten) : L.CommentsLack t a b := by
  intro i ha hb c hc htext
  have hcomment : (Filler.comment c).text <:+: gapText (L.gap i) := by
    rw [gapText, List.flatMap_def]
    exact List.infix_of_mem_flatten (List.mem_map_of_mem hc)
  exact h (((ht.infix_comment_iff c).mpr htext).trans
    (hcomment.trans (List.infix_of_mem_flatten (hparts i ha hb))))

/-- The gaps 7 to 11 lie between the values. -/
theorem gapText_mem_betweenParts (i : Nat) (ha : 7 ≤ i) (hb : i ≤ 11) :
    gapText (L.gap i) ∈ L.betweenParts := by
  obtain rfl | rfl | rfl | rfl | rfl : i = 7 ∨ i = 8 ∨ i = 9 ∨ i = 10 ∨ i = 11 := by omega
  all_goals simp [Layout.betweenParts]

/-- The gaps 12 to 14 lie behind the values. -/
theorem gapText_mem_backParts (i : Nat) (ha : 12 ≤ i) (hb : i ≤ 14) :
    gapText (L.gap i) ∈ L.backParts := by
  obtain rfl | rfl | rfl : i = 12 ∨ i = 13 ∨ i = 14 := by omega
  all_goals simp [Layout.backParts]

/-- The last closing tag of a value and the text behind it. -/
theorem exists_last_close (w m : JString) :
    ∃ x m', w ++ (closeTag ++ m) = x ++ (closeTag ++ m') ∧ ¬ closeTag <:+: m' ∧
      (60 ∉ x → x = w ∧ ¬ closeTag <:+: m) := by
  by_cases hm : closeTag <:+: m
  · rcases exists_last_split closeTag_ne_nil hm with ⟨a, b, rfl, hb⟩
    refine ⟨w ++ (closeTag ++ a), b, by simp only [List.append_assoc], hb, ?_⟩
    intro hx
    exact absurd (by simp [show (60 : JChar) ∈ closeTag by decide]) hx
  · exact ⟨w, m, rfl, hm, fun _ => ⟨rfl, hm⟩⟩

/-- A value that stops at some closing tag holds no opening tag. -/
theorem not_openTag_infix_of_split {w m x m' : JString} (hw : 60 ∉ w) (hm : Clear openTag m)
    (hx : w ++ (closeTag ++ m) = x ++ (closeTag ++ m')) : ¬ openTag <:+: x := by
  intro h
  have hclear : Clear openTag (closeTag ++ m) := Clear.append (by decide) hm
  have hwhole : openTag <:+: w ++ (closeTag ++ m) := by
    rw [hx]
    exact h.trans (List.prefix_append x _).isInfix
  rcases (infix_append_iff hclear.barrier).mp hwhole with h | h
  · exact not_infix_of_head_not_mem openTag_head hw h
  · exact hclear.not_infix h

/-- Without a prefix and without opening tags in the comments behind the first value the
pattern finds the two values, each up to a last closing tag. -/
theorem matchEnvelope_render_of_none (hnone : L.nsPrefix = none)
    (hopen : L.CommentsLack openTag 7 14) {v : CipherKeyAndData} (hkey : 60 ∉ v.cipherKey)
    (hdata : 60 ∉ v.cipherData) :
    ∃ x y, matchEnvelope (L.render v) = some (x, y) ∧
      (60 ∉ x → x = weave L.keySpace v.cipherKey ∧ ¬ closeTag <:+: L.betweenParts.flatten) ∧
      (60 ∉ y → y = weave L.dataSpace v.cipherData ∧ ¬ closeTag <:+: L.backParts.flatten) := by
  have hwkey := lt_not_mem_weave L.keySpace hkey
  have hwdata := lt_not_mem_weave L.dataSpace hdata
  have hbetween := clear_between_of_none (Or.inl rfl) hnone
    fun i ha hb => hopen i ha (by omega)
  have hback := clear_back_of_none (Or.inl rfl) hnone
    fun i ha hb => hopen i (by omega) hb
  obtain ⟨x, mid, hx, hmid, hxlt⟩ := exists_last_close (weave L.keySpace v.cipherKey)
    L.betweenParts.flatten
  obtain ⟨y, post, hy, hpost, hylt⟩ := exists_last_close (weave L.dataSpace v.cipherData)
    L.backParts.flatten
  refine ⟨x, y, ?_, hxlt, hylt⟩
  have hdoc : L.render v = L.frontParts.flatten ++ (openTag ++ (x ++ (closeTag ++ (mid ++
      (openTag ++ (y ++ (closeTag ++ post))))))) := by
    rw [Layout.render, openValue_of_none hnone, closeValue_of_none hnone, ← hy]
    have hassoc : ∀ r, weave L.keySpace v.cipherKey ++ (closeTag ++
        (L.betweenParts.flatten ++ r)) = x ++ (closeTag ++ (mid ++ r)) := by
      intro r
      have happ := congrArg (· ++ r) hx
      simpa only [List.append_assoc] using happ
    rw [hassoc]
  rw [hdoc]
  exact matchEnvelope_elements (not_openTag_infix_of_split hwkey hbetween hx) hmid
    (not_openTag_infix_of_split hwdata hback hy) hpost

/-- Without a prefix and without closing tags in the comments behind the first value the
pattern finds the two values as they stand. -/
theorem matchEnvelope_render_of_no_close (hnone : L.nsPrefix = none)
    (hclose : L.CommentsLack closeTag 7 14) {v : CipherKeyAndData} (hkey : 60 ∉ v.cipherKey)
    (hdata : 60 ∉ v.cipherData) :
    matchEnvelope (L.render v) =
      some (weave L.keySpace v.cipherKey, weave L.dataSpace v.cipherData) := by
  have hbetween := clear_between_of_none (Or.inr rfl) hnone
    fun i ha hb => hclose i ha (by omega)
  have hback := clear_back_of_none (Or.inr rfl) hnone
    fun i ha hb => hclose i (by omega) hb
  rw [Layout.render, openValue_of_none hnone, closeValue_of_none hnone]
  exact matchEnvelope_elements
    (not_infix_of_head_not_mem openTag_head (lt_not_mem_weave L.keySpace hkey))
    hbetween.not_infix
    (not_infix_of_head_not_mem openTag_head (lt_not_mem_weave L.dataSpace hdata))
    hback.not_infix

/-! ## Documents with a prefix -/

/-- The local name of a value does not stand at the start of a prefixed name. -/
theorem not_name_prefix (x : NsPrefix) (rest : JString) :
    ¬ lit "CipherValue>" <+: x.text ++ 58 :: rest := by
  intro h
  -- the name would have to end within the prefix, which holds no `>`
  have hpre := prefix_of_prefix_append_cons (by decide) h
  have hgt : (62 : JChar) ∈ x.text := hpre.subset (by decide)
  exact absurd (x.no_delimiter 62 hgt) (by decide)

/-- A prefixed name does not start with a slash. -/
theorem not_slash_prefix (x : NsPrefix) (t rest : JString) :
    ¬ 47 :: t <+: x.text ++ 58 :: rest := by
  intro h
  cases htext : x.text with
  | nil => exact x.ne_nil htext
  | cons u text =>
      rw [htext, List.cons_append, List.cons_prefix_cons] at h
      have hslash : (47 : JChar) ∈ x.text := by
        rw [htext, h.1]
        exact List.mem_cons_self
      exact absurd (x.no_delimiter 47 hslash) (by decide)

/-- A tag under a prefix is no value tag, whatever text without `<` follows it. -/
theorem clear_tag_prefixed {t : JString} (ht : t = openTag ∨ t = closeTag) {x : NsPrefix}
    (hx : L.nsPrefix = some x) {opener rest : JString}
    (hopener : opener = lit "<" ∨ opener = lit "</") (hrest : 60 ∉ rest) :
    Clear t (L.tag opener rest) := by
  have hopen : openTag = 60 :: lit "CipherValue>" := by decide
  have hclose : closeTag = 60 :: 47 :: lit "CipherValue>" := by decide
  have hhead : lit "CipherValue>" = 67 :: lit "ipherValue>" := by decide
  have htext : 60 ∉ x.text := fun h => absurd (x.no_delimiter 60 h) (by decide)
  have hqual : L.qualifier ++ rest = x.text ++ 58 :: rest := by
    rw [Layout.qualifier, hx, List.append_assoc]
    rfl
  have hlt : 60 ∉ x.text ++ 58 :: rest := by
    simp [htext, hrest]
  have hltSlash : 60 ∉ 47 :: (x.text ++ 58 :: rest) := by
    simp [htext, hrest]
  rw [Layout.tag, hqual]
  rcases ht with rfl | rfl
  · rcases hopener with rfl | rfl
    · refine clear_cons openTag_head lt_not_mem_openTag_tail hlt ?_
      rw [hopen, List.cons_prefix_cons, not_and]
      exact fun _ => not_name_prefix x rest
    · refine clear_cons (s := 47 :: (x.text ++ 58 :: rest)) openTag_head
        lt_not_mem_openTag_tail hltSlash ?_
      rw [hopen, hhead, List.cons_prefix_cons, List.cons_prefix_cons]
      exact fun h => absurd h.2.1 (by decide)
  · rcases hopener with rfl | rfl
    · refine clear_cons closeTag_head lt_not_mem_closeTag_tail hlt ?_
      rw [hclose, List.cons_prefix_cons, not_and]
      exact fun _ => not_slash_prefix x _ rest
    · refine clear_cons (s := 47 :: (x.text ++ 58 :: rest)) closeTag_head
        lt_not_mem_closeTag_tail hltSlash ?_
      rw [hclose, List.cons_prefix_cons, List.cons_prefix_cons, not_and, not_and]
      exact fun _ _ => not_name_prefix x rest

section Prefixed

variable {t : JString} (ht : t = openTag ∨ t = closeTag) {x : NsPrefix}
  (hx : L.nsPrefix = some x) (hlack : L.CommentsLack t 0 14)

include ht hlack

/-- A gap is clear of the tag. -/
theorem clear_gap_prefixed (i : Nat) (hi : i ≤ 14) : Clear t (gapText (L.gap i)) := by
  rcases ht with rfl | rfl
  · exact valueTag_openTag.clear_gap (hlack i (Nat.zero_le i) hi)
  · exact valueTag_closeTag.clear_gap (hlack i (Nat.zero_le i) hi)

include hx

/-- What stands in front of the values is clear of it. -/
theorem clear_front_prefixed : Clear t L.frontParts.flatten := by
  have hne : t ≠ [] := by rcases ht with rfl | rfl <;> decide
  have hdecl : Clear t (lit "<?xml version=\"1.0\" encoding=\"UTF-8\"?>") := by
    rcases ht with rfl | rfl <;> decide
  have hinfo : Clear t (lit "<ds:KeyInfo>") := by
    rcases ht with rfl | rfl <;> decide
  have hbinding : 60 ∉ L.binding := by
    have htext : 60 ∉ x.text := fun h => absurd (x.no_delimiter 60 h) (by decide)
    rw [Layout.binding, hx]
    simp [htext, show 60 ∉ lit "xmlns:" by decide]
  have hroot : 60 ∉ lit "EncryptedData " ++ (L.binding ++
      (lit "=\"http://www.w3.org/2001/04/xmlenc#\"\n" ++
      (lit "               xmlns:ds=\"http://www.w3.org/2000/09/xmldsig#\"\n" ++
      lit "               MimeType=\"application/xml\">"))) := by
    simp only [List.mem_append, not_or]
    exact ⟨lt_not_mem_lit (by decide), hbinding, lt_not_mem_lit (by decide),
      lt_not_mem_lit (by decide), lt_not_mem_lit (by decide)⟩
  have hgap := clear_gap_prefixed ht hlack
  refine clear_flatten hne ?_
  simp only [Layout.frontParts, List.forall_mem_cons]
  exact ⟨hdecl, hgap 0 (by omega), clear_tag_prefixed ht hx (Or.inl rfl) hroot,
    hgap 1 (by omega), clear_tag_prefixed ht hx (Or.inl rfl) (lt_not_mem_lit (by decide)),
    hgap 2 (by omega), hinfo, hgap 3 (by omega),
    clear_tag_prefixed ht hx (Or.inl rfl) (lt_not_mem_lit (by decide)), hgap 4 (by omega),
    clear_tag_prefixed ht hx (Or.inl rfl) (lt_not_mem_lit (by decide)), hgap 5 (by omega),
    clear_tag_prefixed ht hx (Or.inl rfl) (lt_not_mem_lit (by decide)), hgap 6 (by omega),
    by simp⟩

/-- So is what stands between the values. -/
theorem clear_between_prefixed : Clear t L.betweenParts.flatten := by
  have hne : t ≠ [] := by rcases ht with rfl | rfl <;> decide
  have hinfo : Clear t (lit "</ds:KeyInfo>") := by
    rcases ht with rfl | rfl <;> decide
  have hgap := clear_gap_prefixed ht hlack
  refine clear_flatten hne ?_
  simp only [Layout.betweenParts, List.forall_mem_cons]
  exact ⟨hgap 7 (by omega), clear_tag_prefixed ht hx (Or.inr rfl) (lt_not_mem_lit (by decide)),
    hgap 8 (by omega), clear_tag_prefixed ht hx (Or.inr rfl) (lt_not_mem_lit (by decide)),
    hgap 9 (by omega), hinfo, hgap 10 (by omega),
    clear_tag_prefixed ht hx (Or.inl rfl) (lt_not_mem_lit (by decide)), hgap 11 (by omega),
    by simp⟩

/-- So is what stands behind them. -/
theorem clear_back_prefixed : Clear t L.backParts.flatten := by
  have hne : t ≠ [] := by rcases ht with rfl | rfl <;> decide
  have hgap := clear_gap_prefixed ht hlack
  refine clear_flatten hne ?_
  simp only [Layout.backParts, List.forall_mem_cons]
  exact ⟨hgap 12 (by omega), clear_tag_prefixed ht hx (Or.inr rfl) (lt_not_mem_lit (by decide)),
    hgap 13 (by omega), clear_tag_prefixed ht hx (Or.inr rfl) (lt_not_mem_lit (by decide)),
    hgap 14 (by omega), by simp⟩

/-- Under a prefix a value tag stands in the document only within a comment. -/
theorem not_infix_render_prefixed {v : CipherKeyAndData} (hkey : 60 ∉ v.cipherKey)
    (hdata : 60 ∉ v.cipherData) : ¬ t <:+: L.render v := by
  have hname : 60 ∉ lit "CipherValue>" := by decide
  have hvalue : ∀ {w : JString}, 60 ∉ w → Clear t (L.openValue ++ w) := by
    intro w hw
    rw [Layout.openValue, Layout.tag, List.append_assoc, List.append_assoc, ← Layout.tag]
    exact clear_tag_prefixed ht hx (Or.inl rfl) (by simp [hname, hw])
  have hclose : Clear t L.closeValue := clear_tag_prefixed ht hx (Or.inr rfl) hname
  have hclear := (clear_front_prefixed ht hx hlack).append
    ((hvalue (lt_not_mem_weave L.keySpace hkey)).append (hclose.append
      ((clear_between_prefixed ht hx hlack).append
        ((hvalue (lt_not_mem_weave L.dataSpace hdata)).append
          (hclose.append (clear_back_prefixed ht hx hlack))))))
  simp only [List.append_assoc] at hclear
  exact hclear.not_infix

end Prefixed

end Mockbank
