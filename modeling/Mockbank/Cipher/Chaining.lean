import Mathlib.Algebra.Group.Basic
import Mathlib.Data.List.Basic
import Mathlib.Logic.Equiv.Defs
import Mathlib.Tactic.Abel

/-!
# Cipher block chaining

The chaining of blocks around a permutation of them, over any commutative group of blocks.

Main results:

- Theorem `decrypt_encrypt_blocks`: decryption undoes encryption.
- Theorem `decrypt_segment`: any part of a ciphertext, under any initial block, is decrypted
  to that part of the plaintext with its first block changed.
-/

namespace Cipher
namespace Chaining

variable {β : Type*} [AddCommGroup β] (E : Equiv.Perm β)

/-- Every block is combined with the ciphertext block in front of it. -/
def encrypt : β → List β → List β
  | _, [] => []
  | prev, m :: ms => E (m + prev) :: encrypt (E (m + prev)) ms

/-- A block is decrypted, and the ciphertext block in front of it is taken off again. -/
def decrypt : β → List β → List β
  | _, [] => []
  | prev, c :: cs => (E.symm c - prev) :: decrypt c cs

variable {E}

/-- There are as many ciphertext blocks as blocks of text. -/
@[simp]
theorem length_encrypt (iv : β) (ms : List β) : (encrypt E iv ms).length = ms.length := by
  induction ms generalizing iv with
  | nil => rfl
  | cons m ms ih => rw [encrypt, List.length_cons, List.length_cons, ih]

/-- And as many blocks of text as ciphertext blocks. -/
@[simp]
theorem length_decrypt (iv : β) (cs : List β) : (decrypt E iv cs).length = cs.length := by
  induction cs generalizing iv with
  | nil => rfl
  | cons c cs ih => rw [decrypt, List.length_cons, List.length_cons, ih]

/-- Decryption undoes encryption. -/
theorem decrypt_encrypt_blocks (iv : β) (ms : List β) : decrypt E iv (encrypt E iv ms) = ms := by
  induction ms generalizing iv with
  | nil => rfl
  | cons m ms ih => rw [encrypt, decrypt, ih, E.symm_apply_apply, add_sub_cancel_right]

/-! ## Parts of a ciphertext -/

/-- The tail of a ciphertext. -/
theorem decrypt_drop (iv : β) (i : Nat) (cs : List β) :
    decrypt E ((cs.take i).getLastD iv) (cs.drop i) = (decrypt E iv cs).drop i := by
  induction i generalizing iv cs with
  | zero => rfl
  | succ i ih =>
      cases cs with
      | nil => rfl
      | cons c cs =>
          rw [List.take_succ_cons, List.getLastD_cons, List.drop_succ_cons, ih, decrypt,
            List.drop_succ_cons]

/-- The front of a ciphertext. -/
theorem decrypt_take (iv : β) (i : Nat) (cs : List β) :
    decrypt E iv (cs.take i) = (decrypt E iv cs).take i := by
  induction i generalizing iv cs with
  | zero => rfl
  | succ i ih =>
      cases cs with
      | nil => rfl
      | cons c cs =>
          rw [List.take_succ_cons, decrypt, decrypt, List.take_succ_cons, ih]

/-- Another initial block changes the first block and nothing else. -/
theorem decrypt_sub (iv d : β) (cs : List β) :
    decrypt E (iv - d) cs = (decrypt E iv cs).modifyHead (· + d) := by
  cases cs with
  | nil => rfl
  | cons c cs =>
      rw [decrypt, decrypt, List.modifyHead_cons]
      have hfirst : E.symm c - (iv - d) = E.symm c - iv + d := by abel
      rw [hfirst]

/-- Any part of a ciphertext, under the block in front of it less any other, is decrypted to
that part of the plaintext with the other block added to its first. -/
theorem decrypt_segment (iv d : β) (i k : Nat) (ms : List β) :
    decrypt E (((encrypt E iv ms).take i).getLastD iv - d) (((encrypt E iv ms).drop i).take k) =
      ((ms.drop i).take k).modifyHead (· + d) := by
  rw [decrypt_sub, decrypt_take, decrypt_drop, decrypt_encrypt_blocks]

end Chaining
end Cipher
