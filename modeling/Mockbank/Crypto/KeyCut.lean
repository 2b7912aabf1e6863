import Mockbank.Crypto.KeyText

/-!
# Key files cut off in the middle

What the readers make of the first bytes of a key file.

Main results:

- Theorem `base64Decode_of_holdsKey`: joined text that holds the whole key is read as it.
- Theorem `readKeyBytes_take_pemFile`: from a file that was cut off the readers take the
  start of the key, if anything, and the whole key exactly when it is there.
-/

namespace Mockbank

open Jvm Search

/-- The reader finds the first `n` characters in the first `n` bytes. -/
theorem decode_take_pemFile (w : PemWriter) (pl : Platform) (kind : KeyKind) (k : List UInt8)
    (n : Nat) :
    pl.charset.decode ((pemFile w pl kind k).take n) =
      (pemText w pl.lineSeparator kind.type k).take n := by
  have hascii := isAscii_pemText w pl.lineSeparator kind k
  have htake : IsAscii ((pemText w pl.lineSeparator kind.type k).take n) :=
    fun u hu => hascii u (List.mem_of_mem_take hu)
  have hbytes : (pemFile w pl kind k).take n =
      asciiBytes ((pemText w pl.lineSeparator kind.type k).take n) := by
    rw [pemFile, pl.charset.encode_ascii hascii, asciiBytes, asciiBytes, List.map_take]
  rw [hbytes, pl.charset.decode_asciiBytes htake]

/-- The joined text holds the whole key: all characters of its data, the padding
complete or wholly missing, and the closing boundary whole or not begun. -/
def HoldsKey (kind : KeyKind) (k : List UInt8) (joined : JString) : Prop :=
  joined = kind.beginLine ++ Base64.dataChars k ∨
    joined = kind.beginLine ++ Base64.encode k ∨ joined = joinedText kind k

theorem mem_encode_of_mem_dataChars {k : List UInt8} {u : JChar}
    (h : u ∈ Base64.dataChars k) : u ∈ Base64.encode k :=
  (List.mem_filter.mp h).1

/-- Text that holds the whole key is decoded to it. -/
theorem base64Decode_of_holdsKey {kind : KeyKind} {k : List UInt8} {joined : JString}
    (h : HoldsKey kind k joined) : base64Decode (stripBoundaries kind joined) = .ok k := by
  have hencode := hyphen_not_mem_of_base64 (Base64.encode_chars k)
  have hdata : 45 ∉ Base64.dataChars k := fun h => hencode (mem_encode_of_mem_dataChars h)
  have hopen : ([] : JString) ≠ kind.endLine := kind.end_ne_nil.symm
  rcases h with rfl | rfl | rfl
  · have hstrip := stripBoundaries_open kind hdata List.nil_prefix hopen
    rw [List.append_nil] at hstrip
    rw [hstrip, base64Decode, Base64.decode_dataChars]
  · have hstrip := stripBoundaries_open kind hencode List.nil_prefix hopen
    rw [List.append_nil] at hstrip
    rw [hstrip, base64Decode_encode]
  · rw [joinedText, stripBoundaries_whole kind hencode, base64Decode_encode]

/-- The start of the joined text decodes, if at all, to the start of the key, and to
the whole key only when it holds it. -/
theorem holdsKey_of_base64Decode {kind : KeyKind} {k ds : List UInt8} {q : JString}
    (hk : k ≠ []) (hq : q <+: joinedText kind k)
    (hds : base64Decode (stripBoundaries kind q) = .ok ds) :
    ds <+: k ∧ (ds = k → HoldsKey kind k q) := by
  rcases prefix_append_cases hq with ⟨hshort, hne⟩ | ⟨body, rfl, hbody⟩
  · rw [stripBoundaries_short kind hshort hne] at hds
    cases q with
    | nil =>
        have hnil : ds = [] := (Except.ok.inj hds).symm
        exact ⟨by rw [hnil]; exact List.nil_prefix, fun h => absurd (h.symm.trans hnil) hk⟩
    | cons u q =>
        -- the first character of the boundary is a hyphen
        rcases hshort with ⟨rest, hrest⟩
        have hhead := kind.begin_head
        rw [← hrest] at hhead
        have hu : u = 45 := by simpa using hhead
        rw [base64Decode_of_hyphen (by simp [hu])] at hds
        exact absurd hds error_ne_ok
  · rcases prefix_append_cases hbody with ⟨hcut, _⟩ | ⟨e, rfl, he⟩
    · have hhyphen : 45 ∉ body := fun h =>
        hyphen_not_mem_of_base64 (Base64.encode_chars k) (hcut.subset h)
      have hstrip := stripBoundaries_open kind hhyphen List.nil_prefix kind.end_ne_nil.symm
      rw [List.append_nil] at hstrip
      rw [hstrip] at hds
      rcases Base64.decode_prefix_encode k hcut (base64Decode_eq_ok.mp hds) with ⟨hpre, hwhole⟩
      refine ⟨hpre, fun h => ?_⟩
      rcases hwhole h with rfl | rfl
      · exact Or.inr (Or.inl rfl)
      · exact Or.inl rfl
    · have hencode := hyphen_not_mem_of_base64 (Base64.encode_chars k)
      by_cases hend : e = kind.endLine
      · rw [hend] at hds ⊢
        rw [stripBoundaries_whole kind hencode, base64Decode_encode] at hds
        rw [← Except.ok.inj hds]
        exact ⟨List.prefix_refl k, fun _ => Or.inr (Or.inr rfl)⟩
      · rw [stripBoundaries_open kind hencode he hend] at hds
        cases e with
        | nil =>
            rw [List.append_nil] at hds ⊢
            rw [base64Decode_encode] at hds
            rw [← Except.ok.inj hds]
            exact ⟨List.prefix_refl k, fun _ => Or.inr (Or.inl rfl)⟩
        | cons u e =>
            rcases he with ⟨rest, hrest⟩
            have hhead := kind.end_head
            rw [← hrest] at hhead
            have hu : u = 45 := by simpa using hhead
            rw [base64Decode_of_hyphen (by simp [hu])] at hds
            exact absurd hds error_ne_ok

/-- What a reader hands to `KeyFactory` from a file that was cut off after `n` bytes:
the start of the key if anything, and the whole key exactly when it is there. -/
theorem readKeyBytes_take_pemFile (w : PemWriter) (pl : Platform) (kind : KeyKind) {k : List UInt8}
    (hk : k ≠ []) (n : Nat) :
    (readKeyBytes kind (pl.charset.decode ((pemFile w pl kind k).take n)) = .ok k ↔
      HoldsKey kind k (((pemText w pl.lineSeparator kind.type k).take n).filter inLine)) ∧
    ∀ ds, readKeyBytes kind (pl.charset.decode ((pemFile w pl kind k).take n)) = .ok ds →
      ds <+: k := by
  have hq : ((pemText w pl.lineSeparator kind.type k).take n).filter inLine <+:
      joinedText kind k := by
    rw [← filter_pemText w pl.lineSeparator kind k]
    exact (List.take_prefix n _).filter inLine
  rw [readKeyBytes, decode_take_pemFile, readTextFromFile_eq_filter]
  refine ⟨⟨fun h => (holdsKey_of_base64Decode hk hq h).2 rfl, base64Decode_of_holdsKey⟩, ?_⟩
  intro ds h
  exact (holdsKey_of_base64Decode hk hq h).1

end Mockbank
