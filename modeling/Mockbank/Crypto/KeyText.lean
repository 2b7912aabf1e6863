import Mockbank.Crypto.KeyFile

/-!
# Layouts of a key file

The readers take a key from any text that holds the two boundary lines and the Base64 of
the key between them, wherever the lines are broken and however they end.

Main results:

- Theorem `readTextFromFile_text`: the lines of every layout join to the same text.
- Theorems `occursAt_beginLine_joinedText` and `occursAt_endLine_joinedText`: in that text
  the boundaries stand at their own places only.
- Theorem `pemText_eq_text`: what the writer writes is one of the layouts.
- Theorem `readKeyBytes_pemFile`: so it is read as the key.
- Theorem `readKeys_text`: what the readers hand to `KeyFactory`.
-/

namespace Mockbank

open Jvm Search

variable {P : Provider} {k : List UInt8}

/-! ## Layouts -/

/-- A text for the key `k`: blank lines, the terminator of the first boundary line, the
lines up to the other boundary with their terminators, and the terminators behind that.
Joined, the lines in the middle are the Base64 of the key; blank ones are among them. -/
structure KeyText (k : List UInt8) where
  before : List LineSeparator
  afterBegin : LineSeparator
  body : List (JString × LineSeparator)
  behind : List LineSeparator
  flatten_body : (body.map Prod.fst).flatten = Base64.encode k

namespace KeyText

/-- The text, with the boundaries of a kind of key. -/
def text (T : KeyText k) (kind : KeyKind) : JString :=
  T.before.flatMap LineSeparator.text ++ (kind.beginLine ++ (T.afterBegin.text ++
    ((T.body.flatMap fun l => l.1 ++ l.2.text) ++
      (kind.endLine ++ T.behind.flatMap LineSeparator.text))))

/-- The content of the file. -/
def file (T : KeyText k) (kind : KeyKind) : List UInt8 :=
  asciiBytes (T.text kind)

end KeyText

/-! ## What the lines join to -/

/-- A line separator is dropped when lines are joined. -/
theorem filter_inLine_lineSeparator (sep : LineSeparator) : sep.text.filter inLine = [] := by
  cases sep <;> decide

/-- Base64 text holds no line terminator. -/
theorem filter_inLine_encode (k : List UInt8) :
    (Base64.encode k).filter inLine = Base64.encode k := by
  rw [List.filter_eq_self]
  intro u hu
  have hrange := (Base64.isBase64Char_iff u).mp (Base64.encode_chars k u hu)
  have hlf : u ≠ 0x0A := by
    rintro rfl
    exact absurd hrange (by decide)
  have hcr : u ≠ 0x0D := by
    rintro rfl
    exact absurd hrange (by decide)
  simp [inLine, isTerminator, hlf, hcr]

/-- Lines lose the line terminators between them. -/
theorem filter_lines (lines : List (JString × LineSeparator)) :
    (lines.flatMap fun l => l.1 ++ l.2.text).filter inLine =
      (lines.map Prod.fst).flatten.filter inLine := by
  induction lines with
  | nil => rfl
  | cons l lines ih =>
      rw [List.flatMap_cons, List.map_cons, List.flatten_cons, List.filter_append,
        List.filter_append, List.filter_append, filter_inLine_lineSeparator, List.append_nil, ih]

/-- So are any number of them. -/
theorem filter_separators (seps : List LineSeparator) :
    (seps.flatMap LineSeparator.text).filter inLine = [] := by
  induction seps with
  | nil => rfl
  | cons sep seps ih =>
      rw [List.flatMap_cons, List.filter_append, filter_inLine_lineSeparator, ih]
      rfl

/-- Without its line terminators every layout is the boundaries around the Base64 of the
key. -/
theorem filter_text (T : KeyText k) (kind : KeyKind) :
    (T.text kind).filter inLine = joinedText kind k := by
  have hbegin : kind.beginLine.filter inLine = kind.beginLine :=
    List.filter_eq_self.mpr (List.all_eq_true.mp kind.begin_inLine)
  have hend : kind.endLine.filter inLine = kind.endLine :=
    List.filter_eq_self.mpr (List.all_eq_true.mp kind.end_inLine)
  rw [KeyText.text]
  simp only [List.filter_append, filter_separators, filter_inLine_lineSeparator, filter_lines,
    T.flatten_body, filter_inLine_encode, hbegin, hend, List.append_nil, List.nil_append]
  rfl

/-- So the lines of every layout join to the same text. -/
theorem readTextFromFile_text (T : KeyText k) (kind : KeyKind) :
    readTextFromFile (T.text kind) = joinedText kind k := by
  rw [readTextFromFile_eq_filter, filter_text]

theorem isAscii_separators (seps : List LineSeparator) :
    IsAscii (seps.flatMap LineSeparator.text) := by
  intro u hu
  rcases List.mem_flatMap.mp hu with ⟨sep, _, hu⟩
  exact sep.isAscii_text u hu

/-- A key file is ASCII text in every layout. -/
theorem isAscii_text (T : KeyText k) (kind : KeyKind) : IsAscii (T.text kind) := by
  have hbody : IsAscii (T.body.flatMap fun l => l.1 ++ l.2.text) := by
    intro u hu
    rcases List.mem_flatMap.mp hu with ⟨l, hl, hu⟩
    rcases List.mem_append.mp hu with hu | hu
    · apply Base64.isAscii_encode k
      rw [← T.flatten_body]
      exact List.mem_flatten.mpr ⟨l.1, List.mem_map_of_mem hl, hu⟩
    · exact l.2.isAscii_text u hu
  have hrest := hbody.append (kind.end_ascii.append (isAscii_separators T.behind))
  exact (isAscii_separators T.before).append
    (kind.begin_ascii.append (T.afterBegin.isAscii_text.append hrest))

/-- The readers find the text in the file under every default charset. -/
theorem decode_file (pl : Platform) (T : KeyText k) (kind : KeyKind) :
    pl.charset.decode (T.file kind) = T.text kind :=
  pl.charset.decode_asciiBytes (isAscii_text T kind)

/-- Every layout is read as the key. -/
theorem readKeyBytes_file (pl : Platform) (T : KeyText k) (kind : KeyKind) :
    readKeyBytes kind (pl.charset.decode (T.file kind)) = .ok k := by
  apply readKeyBytes_of_joined
  rw [decode_file, readTextFromFile_text]

/-! ## Where the boundaries stand -/

/-- A character that is not Base64. -/
def isMark (u : JChar) : Bool :=
  !decide (Base64.IsBase64Char u)

/-- The characters of a boundary line that are not Base64. -/
def boundaryMarks : JString :=
  lit "-----  -----"

/-- In two copies of the marks there is no third. -/
theorem boundaryMarks_primitive : Primitive boundaryMarks := by
  intro i h
  have hle := h.end_le (by decide)
  have hlen : boundaryMarks.length = 12 := by decide
  have hplaces : ∀ j < 13, OccursAt boundaryMarks (boundaryMarks ++ boundaryMarks) j →
      j = 0 ∨ j = boundaryMarks.length := by decide
  rw [List.length_append] at hle
  exact hplaces i (by omega) h

/-- Boundary lines that can be told from Base64 text and from each other by their marks. -/
structure KeyKind.Marked (kind : KeyKind) : Prop where
  beginLine : kind.beginLine.filter isMark = boundaryMarks
  endLine : kind.endLine.filter isMark = boundaryMarks
  endLine_last : kind.endLine.getLast? = some 45

theorem publicKind_marked : publicKind.Marked where
  beginLine := by decide
  endLine := by decide
  endLine_last := by decide

theorem privateKind_marked : privateKind.Marked where
  beginLine := by decide
  endLine := by decide
  endLine_last := by decide

section Places

variable {kind : KeyKind}

/-- The Base64 of the key has no marks. -/
theorem filter_isMark_joinedText (hkind : kind.Marked) (k : List UInt8) :
    (joinedText kind k).filter isMark = boundaryMarks ++ boundaryMarks := by
  have hbody : (Base64.encode k).filter isMark = [] := by
    rw [List.filter_eq_nil_iff]
    intro u hu
    simp [isMark, Base64.encode_chars k u hu]
  rw [joinedText, List.filter_append, List.filter_append, hkind.beginLine, hbody, hkind.endLine]
  rfl

/-- A boundary can stand at the two ends of the joined text only. -/
theorem at_end_of_occursAt (hkind : kind.Marked) {t : JString} {i : Nat}
    (ht : t.filter isMark = boundaryMarks) (h : OccursAt t (joinedText kind k) i) :
    i = 0 ∨ i + t.length = (joinedText kind k).length := by
  have hhead : (joinedText kind k).head? = some 45 := by
    rw [joinedText, List.head?_append, kind.begin_head]
    rfl
  have hlast : (joinedText kind k).getLast? = some 45 := by
    rw [joinedText, ← List.append_assoc, List.getLast?_append, hkind.endLine_last]
    rfl
  exact h.at_end_of_marks boundaryMarks_primitive (by decide) ht
    (filter_isMark_joinedText hkind k) hhead (by decide) hlast (by decide)

/-- The joined text is as long as its three parts. -/
theorem length_joinedText (kind : KeyKind) (k : List UInt8) :
    (joinedText kind k).length =
      kind.beginLine.length + (Base64.encode k).length + kind.endLine.length := by
  rw [joinedText, List.length_append, List.length_append, Nat.add_assoc]

/-- The opening boundary stands in front and nowhere else. -/
theorem occursAt_beginLine_joinedText (hkind : kind.Marked) (k : List UInt8) (i : Nat) :
    OccursAt kind.beginLine (joinedText kind k) i ↔ i = 0 := by
  constructor
  · intro h
    rcases at_end_of_occursAt hkind hkind.beginLine h with hfront | hback
    · exact hfront
    · -- two boundaries cannot both end the text
      exfalso
      have hbegin : kind.beginLine <:+ joinedText kind k := by
        have hdrop : kind.beginLine = (joinedText kind k).drop i := by
          apply List.IsPrefix.eq_of_length h
          rw [List.length_drop]
          omega
        rw [hdrop]
        exact List.drop_suffix i _
      have hend : kind.endLine <:+ joinedText kind k := by
        rw [joinedText, ← List.append_assoc]
        exact List.suffix_append _ _
      rcases List.suffix_or_suffix_of_suffix hbegin hend with hin | hin
      · exact kind.begin_not_in_end hin.isInfix
      · exact kind.end_not_in_begin hin.isInfix
  · intro h
    rw [h]
    exact List.prefix_append _ _

/-- The closing boundary stands behind the Base64 of the key and nowhere else. -/
theorem occursAt_endLine_joinedText (hkind : kind.Marked) (k : List UInt8) (i : Nat) :
    OccursAt kind.endLine (joinedText kind k) i ↔
      i = kind.beginLine.length + (Base64.encode k).length := by
  constructor
  · intro h
    rcases at_end_of_occursAt hkind hkind.endLine h with hfront | hback
    · -- two boundaries cannot both start the text
      exfalso
      have hbegin : kind.beginLine <+: joinedText kind k := List.prefix_append _ _
      have hend : kind.endLine <+: joinedText kind k := by
        rw [hfront] at h
        exact h
      rcases List.prefix_or_prefix_of_prefix hbegin hend with hin | hin
      · exact kind.begin_not_in_end hin.isInfix
      · exact kind.end_not_in_begin hin.isInfix
    · rw [length_joinedText] at hback
      omega
  · intro h
    apply occursAt_of_eq (a := kind.beginLine ++ Base64.encode k) (b := [])
    · rw [joinedText, List.append_nil, List.append_assoc]
    · rw [h, List.length_append]

end Places

/-! ## The layout of the writer -/

variable (w : PemWriter)

/-- The layout of the writer: its lines, and one line separator throughout. -/
def writtenText (sep : LineSeparator) (k : List UInt8) : KeyText k where
  before := []
  afterBegin := sep
  body := (w.lines (Base64.encode k)).map fun line => (line, sep)
  behind := [sep]
  flatten_body := by
    rw [List.map_map]
    exact (congrArg List.flatten (List.map_id _)).trans (w.flatten_lines _)

/-- What the writer writes is one of the layouts. -/
theorem pemText_eq_text (sep : LineSeparator) (kind : KeyKind) (k : List UInt8) :
    pemText w sep kind.type k = (writtenText w sep k).text kind := by
  rw [pemText, ← kind.beginLine_eq, ← kind.endLine_eq, KeyText.text, writtenText]
  simp only [List.flatMap_nil, List.nil_append, List.flatMap_map, List.flatMap_cons,
    List.append_nil, List.append_assoc]

/-- Without its line terminators the written text is the boundaries around the encoding. -/
theorem filter_pemText (sep : LineSeparator) (kind : KeyKind) (k : List UInt8) :
    (pemText w sep kind.type k).filter inLine = joinedText kind k := by
  rw [pemText_eq_text, filter_text]

theorem isAscii_pemText (sep : LineSeparator) (kind : KeyKind) (k : List UInt8) :
    IsAscii (pemText w sep kind.type k) := by
  rw [pemText_eq_text]
  exact isAscii_text _ kind

/-- What the writer writes is the file of one of the layouts. -/
theorem pemFile_eq_file (pl : Platform) (kind : KeyKind) (k : List UInt8) :
    pemFile w pl kind k = (writtenText w pl.lineSeparator k).file kind := by
  rw [pemFile, pl.charset.encode_ascii (isAscii_pemText w pl.lineSeparator kind k),
    pemText_eq_text]
  rfl

/-- What the writer wrote is read as the key. -/
theorem readKeyBytes_pemFile (pl : Platform) (kind : KeyKind) (k : List UInt8) :
    readKeyBytes kind (pl.charset.decode (pemFile w pl kind k)) = .ok k := by
  rw [pemFile_eq_file, readKeyBytes_file]

/-! ## What the readers make of a layout -/

/-- A layout is read as the key, and its lines join to a text in which the boundaries
stand around the Base64 of the key and nowhere else. -/
structure ReadBack (pl : Platform) (kind : KeyKind) (T : KeyText k) : Prop where
  bytes : readKeyBytes kind (pl.charset.decode (T.file kind)) = .ok k
  beginLine : ∀ i, OccursAt kind.beginLine (readTextFromFile (T.text kind)) i ↔ i = 0
  endLine : ∀ i, OccursAt kind.endLine (readTextFromFile (T.text kind)) i ↔
    i = kind.beginLine.length + (Base64.encode k).length

/-- A layout is read back when its boundaries have these marks. -/
theorem readBack_of_marked (pl : Platform) {kind : KeyKind} (hkind : kind.Marked)
    (T : KeyText k) : ReadBack pl kind T where
  bytes := readKeyBytes_file pl T kind
  beginLine i := by
    rw [readTextFromFile_text]
    exact occursAt_beginLine_joinedText hkind k i
  endLine i := by
    rw [readTextFromFile_text]
    exact occursAt_endLine_joinedText hkind k i

/-- From every layout of a key file, under every default charset, both readers hand the
bytes of the key to `KeyFactory`. -/
theorem readKeys_text (pl : Platform) (T : KeyText k) :
    (readPublickey pl (T.file publicKind) : Except JavaException P.PublicKey) =
        P.generatePublic k ∧
      (readPrivateKey pl (T.file privateKind) : Except JavaException P.PrivateKey) =
        P.generatePrivate k ∧
      ReadBack pl publicKind T ∧ ReadBack pl privateKind T := by
  refine ⟨?_, ?_, readBack_of_marked pl publicKind_marked T,
    readBack_of_marked pl privateKind_marked T⟩
  · rw [readPublickey, readKeyBytes_file, ok_bind]
  · rw [readPrivateKey, readKeyBytes_file, ok_bind]

end Mockbank
