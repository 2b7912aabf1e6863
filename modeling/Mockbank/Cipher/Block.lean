import Mathlib.Algebra.Group.Basic
import Mathlib.Data.List.Basic
import Mathlib.Data.List.GetD
import Mathlib.Data.List.OfFn
import Mathlib.Tactic.Common

/-!
# Blocks of bytes

Blocks of a fixed length with the exclusive or of their bytes as addition, and the
division of a byte list into blocks.

Main results:

- Instance of `AddCommGroup` for `Block n`, in which every block is its own negative.
- Theorems `join_split` and `split_join`: whole blocks can be taken apart and put together
  again.
- Theorem `join_modifyHead_add`: what a change of the first block does to the bytes.
-/

namespace Cipher

variable {n : Nat}

/-- `n` bytes. -/
@[ext]
structure Block (n : Nat) where
  byte : Fin n → UInt8

namespace Block

instance : Add (Block n) :=
  ⟨fun a b => ⟨fun i => a.byte i ^^^ b.byte i⟩⟩

instance : Zero (Block n) :=
  ⟨⟨fun _ => 0⟩⟩

instance : Neg (Block n) :=
  ⟨id⟩

/-- Addition is the exclusive or, byte by byte. -/
theorem byte_add (a b : Block n) (i : Fin n) : (a + b).byte i = a.byte i ^^^ b.byte i :=
  rfl

/-- The exclusive or of bytes makes blocks a group. -/
instance : AddCommGroup (Block n) where
  add_assoc a b c := by
    ext i : 2
    exact UInt8.xor_assoc ..
  zero_add a := by
    ext i : 2
    exact UInt8.zero_xor
  add_zero a := by
    ext i : 2
    exact UInt8.xor_zero
  neg_add_cancel a := by
    ext i : 2
    exact UInt8.xor_self
  add_comm a b := by
    ext i : 2
    exact UInt8.xor_comm ..
  nsmul := nsmulRec
  zsmul := zsmulRec

/-- The bytes of a block as a list. -/
def bytes (b : Block n) : List UInt8 :=
  List.ofFn b.byte

@[simp]
theorem length_bytes (b : Block n) : b.bytes.length = n :=
  List.length_ofFn

/-- The block that a list begins with. -/
def ofList (bs : List UInt8) : Block n where
  byte i := bs.getD i 0

/-- A block is read back from the front of a list. -/
theorem ofList_bytes_append (b : Block n) (bs : List UInt8) : ofList (b.bytes ++ bs) = b := by
  ext i : 2
  show (b.bytes ++ bs).getD i 0 = b.byte i
  have hi : (i : Nat) < b.bytes.length := by
    rw [b.length_bytes]
    exact i.isLt
  rw [List.getD_append _ _ _ _ hi, List.getD_eq_getElem _ _ hi]
  exact List.getElem_ofFn hi

@[simp]
theorem ofList_bytes (b : Block n) : ofList b.bytes = b := by
  have h := ofList_bytes_append b []
  rwa [List.append_nil] at h

/-- The block that a list begins with has the first `n` bytes of the list. -/
theorem bytes_ofList {bs : List UInt8} (h : n ≤ bs.length) :
    (ofList bs : Block n).bytes = bs.take n := by
  apply List.ext_getElem
  · rw [length_bytes, List.length_take_of_le h]
  · intro i hi hi'
    rw [length_bytes] at hi
    rw [List.getElem_take]
    exact (List.getElem_ofFn _).trans (List.getD_eq_getElem _ _ (by omega))

end Block

/-! ## Lists of blocks -/

/-- The bytes of a list of blocks. -/
def join (blocks : List (Block n)) : List UInt8 :=
  blocks.flatMap Block.bytes

/-- The first `k` blocks of a list of bytes. -/
def splitInto (n : Nat) : Nat → List UInt8 → List (Block n)
  | 0, _ => []
  | k + 1, bs => Block.ofList bs :: splitInto n k (bs.drop n)

/-- The blocks of a list of bytes, without what is left over. -/
def split (n : Nat) (bs : List UInt8) : List (Block n) :=
  splitInto n (bs.length / n) bs

@[simp]
theorem join_nil : join ([] : List (Block n)) = [] :=
  rfl

@[simp]
theorem join_cons (b : Block n) (blocks : List (Block n)) :
    join (b :: blocks) = b.bytes ++ join blocks :=
  rfl

@[simp]
theorem join_append (as bs : List (Block n)) : join (as ++ bs) = join as ++ join bs :=
  List.flatMap_append

/-- Joined blocks have `n` bytes each. -/
@[simp]
theorem length_join (blocks : List (Block n)) : (join blocks).length = blocks.length * n := by
  induction blocks with
  | nil => simp
  | cons b blocks ih => simp [ih, Nat.succ_mul, Nat.add_comm]

/-- Blocks can be taken off the front of their bytes. -/
theorem drop_join (i : Nat) (blocks : List (Block n)) :
    (join blocks).drop (i * n) = join (blocks.drop i) := by
  induction i generalizing blocks with
  | zero => simp
  | succ i ih =>
      cases blocks with
      | nil => simp
      | cons b blocks =>
          have hdrop : (b.bytes ++ join blocks).drop n = join blocks :=
            List.drop_left' b.length_bytes
          rw [join_cons, Nat.succ_mul, Nat.add_comm, ← List.drop_drop, hdrop, ih,
            List.drop_succ_cons]

/-- Joined blocks are taken apart again. -/
theorem splitInto_join (blocks : List (Block n)) :
    splitInto n blocks.length (join blocks) = blocks := by
  induction blocks with
  | nil => rfl
  | cons b blocks ih =>
      have hdrop : (b.bytes ++ join blocks).drop n = join blocks :=
        List.drop_left' b.length_bytes
      rw [List.length_cons, splitInto, join_cons, Block.ofList_bytes_append, hdrop, ih]

/-- A list of `k` blocks is put together again. -/
theorem join_splitInto {k : Nat} {bs : List UInt8} (h : bs.length = k * n) :
    join (splitInto n k bs) = bs := by
  induction k generalizing bs with
  | zero =>
      rw [Nat.zero_mul] at h
      rw [List.eq_nil_of_length_eq_zero h]
      rfl
  | succ k ih =>
      rw [Nat.succ_mul] at h
      have hrest : (bs.drop n).length = k * n := by
        rw [List.length_drop]
        omega
      rw [splitInto, join_cons, ih hrest, Block.bytes_ofList (by omega), List.take_append_drop]

/-- The blocks of joined blocks. -/
theorem split_join (hn : 0 < n) (blocks : List (Block n)) : split n (join blocks) = blocks := by
  rw [split, length_join, Nat.mul_div_cancel _ hn, splitInto_join]

/-- Whole blocks can be put together again. -/
theorem join_split {bs : List UInt8} (h : n ∣ bs.length) : join (split n bs) = bs :=
  join_splitInto (Nat.div_mul_cancel h).symm

/-- There are as many blocks as were asked for. -/
theorem length_splitInto (k : Nat) (bs : List UInt8) : (splitInto n k bs).length = k := by
  induction k generalizing bs with
  | zero => rfl
  | succ k ih => rw [splitInto, List.length_cons, ih]

/-- A list has as many blocks as its length has room for. -/
@[simp]
theorem length_split (bs : List UInt8) : (split n bs).length = bs.length / n :=
  length_splitInto _ bs

/-! ## Addition to a list of bytes -/

/-- The bytes of `d` combined with the first bytes of a list. -/
def xorFront (d : Block n) (bs : List UInt8) : List UInt8 :=
  List.zipWith (· ^^^ ·) bs d.bytes ++ bs.drop n

/-- The bytes of a sum are combined byte by byte. -/
theorem Block.bytes_add (b d : Block n) :
    (b + d).bytes = List.zipWith (· ^^^ ·) b.bytes d.bytes := by
  apply List.ext_getElem
  · simp
  · intro i hi hi'
    rw [List.getElem_zipWith]
    simp only [Block.bytes, List.getElem_ofFn]
    rfl

/-- Bytes behind a whole block are not touched. -/
theorem xorFront_append {as : List UInt8} (h : n ≤ as.length) (d : Block n) (bs : List UInt8) :
    xorFront d (as ++ bs) = xorFront d as ++ bs := by
  have hzip : List.zipWith (· ^^^ ·) (as ++ bs) d.bytes = List.zipWith (· ^^^ ·) as d.bytes := by
    apply List.ext_getElem
    · simp only [List.length_zipWith, List.length_append, Block.length_bytes]
      omega
    · intro i hi hi'
      simp only [List.length_zipWith, Block.length_bytes] at hi'
      rw [List.getElem_zipWith, List.getElem_zipWith, List.getElem_append_left (by omega)]
  rw [xorFront, xorFront, hzip, List.drop_append_of_le_length h, List.append_assoc]

/-- Adding the zero block changes nothing. -/
theorem xorFront_zero (bs : List UInt8) : xorFront (0 : Block n) bs = bs := by
  have hbytes : (0 : Block n).bytes = List.replicate n 0 := List.ofFn_const n 0
  have hzip : List.zipWith (· ^^^ ·) bs (0 : Block n).bytes = bs.take n := by
    apply List.ext_getElem
    · rw [List.length_zipWith, Block.length_bytes, List.length_take, Nat.min_comm]
    · intro i hi hi'
      rw [List.getElem_zipWith, List.getElem_take]
      simp only [hbytes, List.getElem_replicate, UInt8.xor_zero]
  rw [xorFront, hzip, List.take_append_drop]

/-- Adding to the first block is adding to the front of the bytes. -/
theorem join_modifyHead_add (d : Block n) (blocks : List (Block n)) :
    join (blocks.modifyHead (· + d)) = xorFront d (join blocks) := by
  cases blocks with
  | nil => simp [xorFront]
  | cons b blocks =>
      rw [List.modifyHead_cons, join_cons, join_cons, xorFront_append (by simp), xorFront,
        ← Block.bytes_add, List.drop_of_length_le (Nat.le_of_eq b.length_bytes), List.append_nil]

end Cipher
