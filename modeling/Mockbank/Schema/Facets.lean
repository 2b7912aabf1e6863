import Mockbank.Jvm.Text

/-!
# Facets of schema types

The simple types of a schema are patterns of one repeated character class and length
bounds; the elements of a complex type are required or optional.

Main results:

- Theorems `required_some_iff` and `optional_some_iff`: an element that is there
  satisfies its type.
- Theorem `maxLength_lit`: a text literal within a length bound.
-/

namespace Schema

open Jvm

/-! ## Simple types -/

/-- The pattern of one character class repeated between `lo` and `hi` times. -/
structure Repeated where
  lo : Nat
  hi : Nat
  inClass : JChar → Bool

/-- A text that the pattern matches as a whole. -/
def Repeated.Matches (r : Repeated) (s : JString) : Prop :=
  r.lo ≤ s.length ∧ s.length ≤ r.hi ∧ s.all r.inClass = true

instance (r : Repeated) (s : JString) : Decidable (r.Matches s) :=
  inferInstanceAs (Decidable (_ ∧ _ ∧ _))

/-- A character between two others, as in a range of a character class. -/
def inRange (first last : Char) (u : JChar) : Bool :=
  first.toNat ≤ u.toNat && u.toNat ≤ last.toNat

/-- The facet `maxLength` of a string counts characters, not code units. -/
def MaxLength (n : Nat) (s : JString) : Prop :=
  (codePoints s).length ≤ n

instance (n : Nat) (s : JString) : Decidable (MaxLength n s) :=
  inferInstanceAs (Decidable (_ ≤ _))

/-- A text literal within a length bound. -/
theorem maxLength_lit {cs : List Char} {n : Nat} (h : cs.length ≤ n) :
    MaxLength n (lit (String.ofList cs)) := by
  rw [lit_ofList, MaxLength, codePoints_ofChars, List.length_map]
  exact h

/-! ## Elements -/

section Occurrence

variable {α : Type*} {Valid : α → Prop}

/-- An element that has to be there. -/
def Required (Valid : α → Prop) (element : Option α) : Prop :=
  ∃ a, element = some a ∧ Valid a

/-- An element with `minOccurs="0"`. -/
def OptionalElement (Valid : α → Prop) (element : Option α) : Prop :=
  ∀ a, element = some a → Valid a

/-- A required element that is there has to be valid. -/
@[simp]
theorem required_some_iff {a : α} : Required Valid (some a) ↔ Valid a := by
  simp [Required]

/-- A required element has to be there. -/
@[simp]
theorem not_required_none : ¬ Required Valid none := by
  simp [Required]

/-- An optional element that is there has to be valid. -/
@[simp]
theorem optional_some_iff {a : α} : OptionalElement Valid (some a) ↔ Valid a := by
  simp [OptionalElement]

/-- An optional element may be missing. -/
@[simp]
theorem optional_none : OptionalElement Valid none := by
  simp [OptionalElement]

/-- A required element is a valid optional one. -/
theorem Required.optional {element : Option α} (h : Required Valid element) :
    OptionalElement Valid element := by
  rcases h with ⟨a, rfl, ha⟩
  exact optional_some_iff.mpr ha

end Occurrence

end Schema
