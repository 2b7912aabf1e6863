import Mathlib.Tactic.Abel
import Mockbank.Cipher.Block

/-!
# Padding to whole blocks

The padding of a byte list with as many bytes as are missing, each of them that number, and
its removal, which refuses everything that does not end so.

Main results:

- Theorem `unpad_pad`: padding can be taken off again.
- Theorem `eq_of_padded_iff`: which sums with a block are accepted tells the block.
-/

namespace Cipher

variable {n : Nat}

/-- How many bytes are missing. -/
def padLength (n len : Nat) : Nat :=
  n - len % n

/-- As many bytes behind the text as are missing, each of them that number. -/
def pad (n : Nat) (bs : List UInt8) : List UInt8 :=
  bs ++ List.replicate (padLength n bs.length) (UInt8.ofNat (padLength n bs.length))

/-- Take off the padding that the last byte announces, if all of it is there. -/
def unpad (n : Nat) (bs : List UInt8) : Option (List UInt8) :=
  bs.getLast?.bind fun b =>
    if 1 ≤ b.toNat ∧ b.toNat ≤ n ∧ b.toNat ≤ bs.length ∧
        bs.drop (bs.length - b.toNat) = List.replicate b.toNat b then
      some (bs.take (bs.length - b.toNat))
    else none

/-- A list that ends in padding. -/
def Padded (n : Nat) (bs : List UInt8) : Prop :=
  ∃ ds, unpad n bs = some ds

/-- What is accepted is padding behind what is returned. -/
theorem unpad_eq_some_iff {bs ds : List UInt8} :
    unpad n bs = some ds ↔
      ∃ b : UInt8, 1 ≤ b.toNat ∧ b.toNat ≤ n ∧ bs = ds ++ List.replicate b.toNat b := by
  unfold unpad
  rw [Option.bind_eq_some_iff]
  constructor
  · rintro ⟨b, -, h⟩
    split at h
    next hb =>
      refine ⟨b, hb.1, hb.2.1, ?_⟩
      rw [← Option.some.inj h, ← hb.2.2.2, List.take_append_drop]
    next => contradiction
  · rintro ⟨b, hpos, hle, rfl⟩
    have hsub : (ds ++ List.replicate b.toNat b).length - b.toNat = ds.length := by
      rw [List.length_append, List.length_replicate, Nat.add_sub_cancel]
    refine ⟨b, ?_, ?_⟩
    · rw [List.getLast?_append, List.getLast?_replicate, if_neg (by omega)]
      rfl
    · rw [hsub, List.drop_left, List.take_left, if_pos]
      exact ⟨hpos, hle, by simp, rfl⟩

/-- Padding is never empty. -/
theorem padLength_pos (hn : 0 < n) (len : Nat) : 0 < padLength n len :=
  Nat.sub_pos_of_lt (Nat.mod_lt len hn)

/-- It is no longer than a block. -/
theorem padLength_le (len : Nat) : padLength n len ≤ n :=
  Nat.sub_le ..

/-- Padding can be taken off again. -/
theorem unpad_pad (hn : 0 < n) (hbyte : n < 256) (bs : List UInt8) :
    unpad n (pad n bs) = some bs := by
  have hle := padLength_le (n := n) bs.length
  have hnat : (UInt8.ofNat (padLength n bs.length)).toNat = padLength n bs.length := by
    rw [UInt8.toNat_ofNat']
    omega
  rw [unpad_eq_some_iff]
  refine ⟨UInt8.ofNat (padLength n bs.length), ?_, ?_, ?_⟩
  · rw [hnat]
    exact padLength_pos hn bs.length
  · rw [hnat]
    exact hle
  · rw [hnat]
    rfl

theorem length_pad (bs : List UInt8) : (pad n bs).length = bs.length + padLength n bs.length := by
  rw [pad, List.length_append, List.length_replicate]

/-- A padded list is whole blocks. -/
theorem dvd_length_pad (hn : 0 < n) (bs : List UInt8) : n ∣ (pad n bs).length := by
  have hmod := Nat.mod_lt bs.length hn
  have hdiv := Nat.div_add_mod bs.length n
  refine ⟨bs.length / n + 1, ?_⟩
  rw [length_pad, padLength, Nat.mul_add]
  omega

/-- The padding of a single block, byte by byte. -/
theorem padded_bytes_iff {x : Block n} :
    Padded n x.bytes ↔ ∃ b : UInt8, 1 ≤ b.toNat ∧ b.toNat ≤ n ∧
      ∀ i : Fin n, n - b.toNat ≤ i → x.byte i = b := by
  have hget : ∀ (i : Nat) (hi : i < n) (hb : i < x.bytes.length), x.bytes[i] = x.byte ⟨i, hi⟩ :=
    fun i hi hb => List.getElem_ofFn hb
  simp only [Padded, unpad_eq_some_iff]
  constructor
  · rintro ⟨ds, b, hpos, hle, hx⟩
    refine ⟨b, hpos, hle, ?_⟩
    intro i hi
    have hlen := congrArg List.length hx
    simp only [List.length_append, List.length_replicate, Block.length_bytes] at hlen
    rw [← hget i i.isLt (by rw [x.length_bytes]; exact i.isLt)]
    simp only [hx]
    rw [List.getElem_append_right (by omega), List.getElem_replicate]
  · rintro ⟨b, hpos, hle, hx⟩
    refine ⟨x.bytes.take (n - b.toNat), b, hpos, hle, ?_⟩
    have hdrop : x.bytes.drop (n - b.toNat) = List.replicate b.toNat b := by
      apply List.eq_replicate_iff.mpr
      constructor
      · rw [List.length_drop, x.length_bytes]
        omega
      · intro c hc
        rcases List.mem_iff_getElem.mp hc with ⟨i, hi, rfl⟩
        rw [List.length_drop, x.length_bytes] at hi
        rw [List.getElem_drop, hget _ (by omega)]
        exact hx _ (Nat.le_add_right ..)
    rw [← hdrop, List.take_append_drop]

/-! ## What acceptance tells -/

theorem xor_xor_cancel (a b : UInt8) : a ^^^ (a ^^^ b) = b := by
  rw [← UInt8.xor_assoc, UInt8.xor_self, UInt8.zero_xor]

/-- A block that can be added to every padded block without harm ends in zero. -/
theorem last_eq_zero_of_padded_add (hn : 0 < n) {e : Block n}
    (h : ∀ z : Block n, Padded n z.bytes → Padded n (z + e).bytes) :
    e.byte ⟨n - 1, by omega⟩ = 0 := by
  -- one byte of padding, behind bytes that do not continue what it becomes
  let q : UInt8 := 1 ^^^ e.byte ⟨n - 1, by omega⟩
  let z : Block n := ⟨fun i => if (i : Nat) = n - 1 then 1 else e.byte i ^^^ (q ^^^ 1)⟩
  have hz : Padded n z.bytes := by
    refine padded_bytes_iff.mpr ⟨1, le_refl _, hn, ?_⟩
    intro i hi
    have hone : (1 : UInt8).toNat = 1 := rfl
    have hlt := i.isLt
    exact if_pos (by omega)
  rcases padded_bytes_iff.mp (h z hz) with ⟨c, hpos, hle, hc⟩
  have hqc : q = c := by
    have hlast := hc ⟨n - 1, by omega⟩ (by simp only; omega)
    rwa [Block.byte_add, show z.byte ⟨n - 1, by omega⟩ = 1 from if_pos rfl] at hlast
  by_cases hone : c.toNat = 1
  · have hq : q = 1 := hqc.trans (UInt8.toNat_inj.mp hone)
    rw [← xor_xor_cancel 1 (e.byte _), show (1 : UInt8) ^^^ e.byte _ = 1 from hq, UInt8.xor_self]
  · have hsecond := hc ⟨n - 2, by omega⟩ (by simp only; omega)
    have hbyte : z.byte ⟨n - 2, by omega⟩ = e.byte ⟨n - 2, by omega⟩ ^^^ (q ^^^ 1) :=
      if_neg (by simp only; omega)
    rw [Block.byte_add, hbyte, UInt8.xor_comm, xor_xor_cancel, ← hqc] at hsecond
    have hzero : (1 : UInt8) = 0 := by
      rw [← xor_xor_cancel q 1, hsecond, UInt8.xor_self]
    contradiction

/-- A block that can be added to every padded block without harm is zero. -/
theorem eq_zero_of_padded_add (hn : 0 < n) (hbyte : n < 256) {e : Block n}
    (h : ∀ z : Block n, Padded n z.bytes → Padded n (z + e).bytes) : e = 0 := by
  have hnat : (UInt8.ofNat n).toNat = n := by
    rw [UInt8.toNat_ofNat']
    omega
  -- a block that is nothing but padding keeps its last byte, so that it stays what it is
  have hfull : Padded n (⟨fun _ => UInt8.ofNat n⟩ : Block n).bytes :=
    padded_bytes_iff.mpr ⟨UInt8.ofNat n, by omega, by omega, fun _ _ => rfl⟩
  rcases padded_bytes_iff.mp (h _ hfull) with ⟨b, hpos, hle, hb⟩
  have hlast := hb ⟨n - 1, by omega⟩ (by simp only; omega)
  rw [Block.byte_add, last_eq_zero_of_padded_add hn h, UInt8.xor_zero] at hlast
  ext i : 2
  have hi := hb i (by rw [← hlast, hnat]; omega)
  rw [Block.byte_add, ← hlast] at hi
  rw [← xor_xor_cancel (UInt8.ofNat n) (e.byte i), hi, UInt8.xor_self]
  rfl

/-- Which sums with a block are accepted tells the block. -/
theorem eq_of_padded_iff (hn : 0 < n) (hbyte : n < 256) {x y : Block n}
    (h : ∀ d : Block n, Padded n (x + d).bytes ↔ Padded n (y + d).bytes) : x = y := by
  apply eq_of_sub_eq_zero
  apply eq_zero_of_padded_add hn hbyte
  intro z hz
  have hd := h (z - y)
  rw [add_sub_cancel] at hd
  have hsum : x + (z - y) = z + (x - y) := by abel
  rw [← hsum]
  exact hd.mpr hz

end Cipher
