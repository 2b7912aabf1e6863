import Mockbank.Jvm.Text

/-!
# Security providers

RSA, AES and `KeyFactory` belong to the security providers of the platform, and the writer of
key files to the library of one of them.  A `Provider` is what the code calls of them; what
the code relies on is a named assumption about a provider or about one of its key pairs.

Main results:

- Definition `PemWriter`: the lines of a key file.
- Definitions `Provider.AesInverts`, `KeyPair.RsaInverts` and
  `KeyPair.RsaModulus`: the assumptions on the ciphers.
- Theorem `pkcs5Unpad_pkcs5Pad`: block padding can be taken off again.
- Theorems `transparent_aesInverts` and `transparent_rsaInverts`: the assumptions
  hold together for a provider that can be computed with.
-/

namespace Mockbank

open Jvm

/-- What leaves the modelled code when it does not return. -/
inductive JavaException where
  | illegalArgument
  | generalSecurity
  | io
deriving DecidableEq, Repr

@[simp]
theorem ok_bind {α β : Type} (a : α) (f : α → Except JavaException β) :
    (Except.ok a >>= f) = f a :=
  rfl

@[simp]
theorem error_bind {α β : Type} (e : JavaException) (f : α → Except JavaException β) :
    (Except.error e >>= f) = .error e :=
  rfl

/-- A sequence returns when both of its steps do. -/
theorem bind_eq_ok {α β : Type} {x : Except JavaException α}
    {f : α → Except JavaException β} {b : β} :
    (x >>= f) = .ok b ↔ ∃ a, x = .ok a ∧ f a = .ok b := by
  cases x with
  | error e => simp
  | ok a => simp

/-- An exception is not a result. -/
theorem error_ne_ok {α : Type} {e : JavaException} {a : α} :
    (Except.error e : Except JavaException α) ≠ .ok a := by
  intro h
  contradiction

/-- How `PemWriter` breaks the Base64 of a content into lines: nothing is lost, and no line
is longer than 64 characters. -/
structure PemWriter where
  lines : JString → List JString
  flatten_lines : ∀ s, (lines s).flatten = s
  length_le_of_mem_lines : ∀ s, ∀ line ∈ lines s, line.length ≤ 64

/-- The provider functions behind `Cipher`, `KeyFactory` and `PemWriter`.  `Seed` is the
randomness that one RSA encryption with OAEP padding draws; the arguments of the AES
functions are the key, the IV and the data, and `aesInit` is the check of the key. -/
structure Provider where
  PublicKey : Type
  PrivateKey : Type
  Seed : Type
  rsaEncrypt : PublicKey → Seed → List UInt8 → Except JavaException (List UInt8)
  rsaDecrypt : PrivateKey → List UInt8 → Except JavaException (List UInt8)
  aesEncrypt : List UInt8 → List UInt8 → List UInt8 → List UInt8
  aesInit : List UInt8 → Except JavaException Unit
  aesDecrypt : List UInt8 → List UInt8 → List UInt8 → Except JavaException (List UInt8)
  publicEncoded : PublicKey → List UInt8
  privateEncoded : PrivateKey → List UInt8
  generatePublic : List UInt8 → Except JavaException PublicKey
  generatePrivate : List UInt8 → Except JavaException PrivateKey
  pemWriter : PemWriter

/-- `java.security.KeyPair`. -/
structure KeyPair (P : Provider) where
  publicKey : P.PublicKey
  privateKey : P.PrivateKey

/-- AES-CBC with PKCS5 padding takes 16-byte keys, and under such a key and a
16-byte IV it is inverted by its decryption. -/
structure Provider.AesInverts (P : Provider) : Prop where
  init : ∀ key, key.length = 16 → P.aesInit key = .ok ()
  decrypt : ∀ key iv data, key.length = 16 → iv.length = 16 →
    P.aesDecrypt key iv (P.aesEncrypt key iv data) = .ok data

/-- PKCS5 padding adds at least one byte. -/
def Provider.AesPads (P : Provider) : Prop :=
  ∀ key iv data, key.length = 16 → iv.length = 16 →
    data.length < (P.aesEncrypt key iv data).length

/-- `KeyFactory` rebuilds a key from its encoding. -/
structure Provider.KeyFactoryRebuilds (P : Provider) : Prop where
  generatePublic_encoded : ∀ k, P.generatePublic (P.publicEncoded k) = .ok k
  generatePrivate_encoded : ∀ k, P.generatePrivate (P.privateEncoded k) = .ok k

/-- `KeyFactory` refuses an encoding that breaks off, and no encoding is empty. -/
structure Provider.KeyFactoryStrict (P : Provider) : Prop where
  privateEncoded_ne_nil : ∀ k, P.privateEncoded k ≠ []
  eq_of_generatePrivate : ∀ {k k' ds}, ds <+: P.privateEncoded k →
    P.generatePrivate ds = .ok k' → ds = P.privateEncoded k

/-- The two keys of the pair belong together: what RSA encrypts of a 16-byte key
with the one is decrypted with the other. -/
def KeyPair.RsaInverts {P : Provider} (kp : KeyPair P) : Prop :=
  ∀ seed key, key.length = 16 →
    ∃ wrapped, P.rsaEncrypt kp.publicKey seed key = .ok wrapped ∧
      P.rsaDecrypt kp.privateKey wrapped = .ok key

/-- RSA decryption accepts only input of the modulus length. -/
def KeyPair.RsaModulus {P : Provider} (kp : KeyPair P) (n : Nat) : Prop :=
  ∀ wrapped key, P.rsaDecrypt kp.privateKey wrapped = .ok key → wrapped.length = n

/-! ## A provider to compute with -/

/-- The length of PKCS5 padding to 16-byte blocks. -/
def pkcs5Length (n : Nat) : Nat :=
  16 - n % 16

/-- PKCS5 padding: as many bytes as are missing, each of them that number. -/
def pkcs5Pad (bs : List UInt8) : List UInt8 :=
  bs ++ List.replicate (pkcs5Length bs.length) (UInt8.ofNat (pkcs5Length bs.length))

/-- Take the padding off that the last byte announces. -/
def pkcs5Unpad (bs : List UInt8) : Except JavaException (List UInt8) :=
  match bs.getLast? with
  | none => .error .generalSecurity
  | some b =>
      if b.toNat ≤ bs.length then .ok (bs.take (bs.length - b.toNat))
      else .error .generalSecurity

/-- Padding is never empty. -/
theorem pkcs5Length_pos (n : Nat) : 0 < pkcs5Length n := by
  rw [pkcs5Length]
  omega

/-- Block padding can be taken off again. -/
theorem pkcs5Unpad_pkcs5Pad (bs : List UInt8) : pkcs5Unpad (pkcs5Pad bs) = .ok bs := by
  have hpos := pkcs5Length_pos bs.length
  have hle : pkcs5Length bs.length ≤ 16 := Nat.sub_le 16 _
  have hlast : (pkcs5Pad bs).getLast? = some (UInt8.ofNat (pkcs5Length bs.length)) := by
    rw [pkcs5Pad, List.getLast?_append, List.getLast?_replicate, if_neg (by omega)]
    rfl
  have hbyte : (UInt8.ofNat (pkcs5Length bs.length)).toNat = pkcs5Length bs.length := by
    rw [UInt8.toNat_ofNat']
    omega
  have hlen : (pkcs5Pad bs).length = bs.length + pkcs5Length bs.length := by
    simp [pkcs5Pad]
  rw [pkcs5Unpad, hlast]
  simp only [hbyte, hlen]
  rw [if_pos (by omega), Nat.add_sub_cancel, pkcs5Pad, List.take_left]

/-- Each byte combined with the key and IV bytes of its place in the block. -/
def mask (key iv bs : List UInt8) : List UInt8 :=
  bs.mapIdx fun i b => b ^^^ (key.getD (i % 16) 0 ^^^ iv.getD (i % 16) 0)

@[simp]
theorem length_mask (key iv bs : List UInt8) : (mask key iv bs).length = bs.length :=
  List.length_mapIdx

/-- Masking twice changes nothing. -/
theorem mask_mask (key iv bs : List UInt8) : mask key iv (mask key iv bs) = bs := by
  apply List.ext_getElem?
  intro i
  simp only [mask, List.getElem?_mapIdx, Option.map_map]
  cases bs[i]? with
  | none => rfl
  | some b =>
      simp only [Option.map_some, Function.comp_apply]
      rw [UInt8.xor_assoc, UInt8.xor_self, UInt8.xor_zero]

/-- A key wrapped for the pair `pub` into the 256 bytes of a 2048-bit modulus; more
than OAEP leaves room for is rejected. -/
def wrapKey (pub : UInt8) (key : List UInt8) : Except JavaException (List UInt8) :=
  if key.length ≤ 190 then
    .ok (pub :: UInt8.ofNat key.length :: (key ++ List.replicate (254 - key.length) 0))
  else .error .generalSecurity

/-- The key back, for the same pair and a block of the modulus length. -/
def unwrapKey (priv : UInt8) : List UInt8 → Except JavaException (List UInt8)
  | p :: n :: rest =>
      if rest.length = 254 ∧ p = priv then .ok (rest.take n.toNat)
      else .error .generalSecurity
  | _ => .error .generalSecurity

/-- A wrapped key of 16 bytes is unwrapped with the other half of its pair. -/
theorem unwrapKey_wrapKey (k : UInt8) {key : List UInt8} (hkey : key.length = 16) :
    ∃ wrapped, wrapKey k key = .ok wrapped ∧ unwrapKey k wrapped = .ok key := by
  have hlen : (key ++ List.replicate (254 - key.length) (0 : UInt8)).length = 254 := by
    rw [List.length_append, List.length_replicate]
    omega
  refine ⟨_, if_pos (by omega), ?_⟩
  rw [unwrapKey, if_pos ⟨hlen, rfl⟩, hkey]
  exact congrArg Except.ok (List.take_left' hkey)

/-- Only a block of the modulus length is unwrapped. -/
theorem length_of_unwrapKey {priv : UInt8} {wrapped key : List UInt8}
    (h : unwrapKey priv wrapped = .ok key) : wrapped.length = 256 := by
  unfold unwrapKey at h
  split at h
  next p n rest =>
    split at h
    next hrest => rw [List.length_cons, List.length_cons, hrest.1]
    next => contradiction
  next => contradiction

/-- A public key from its three bytes. -/
def decodePublic : List UInt8 → Except JavaException UInt8
  | [0x30, 0x01, k] => .ok k
  | _ => .error .generalSecurity

/-- A private key from its four bytes. -/
def decodePrivate : List UInt8 → Except JavaException UInt8
  | [0x30, 0x02, k, _] => .ok k
  | _ => .error .generalSecurity

/-- An encoding that breaks off is refused. -/
theorem length_of_decodePrivate {ds : List UInt8} {k : UInt8}
    (h : decodePrivate ds = .ok k) : ds.length = 4 := by
  unfold decodePrivate at h
  split at h
  next => rfl
  next => contradiction

/-- The text in lines of 64 characters, the last one shorter. -/
def fullLines (s : JString) : List JString :=
  if s = [] then [] else s.take 64 :: fullLines (s.drop 64)
termination_by s.length
decreasing_by
  have hpos := List.length_pos_iff.mpr (by assumption)
  rw [List.length_drop]
  omega

/-- The lines are the text, cut. -/
theorem flatten_fullLines (s : JString) : (fullLines s).flatten = s := by
  induction s using fullLines.induct with
  | case1 => simp [fullLines]
  | case2 s hne ih =>
      rw [fullLines, if_neg hne, List.flatten_cons, ih, List.take_append_drop]

theorem length_le_of_mem_fullLines (s : JString) :
    ∀ line ∈ fullLines s, line.length ≤ 64 := by
  induction s using fullLines.induct with
  | case1 => simp [fullLines]
  | case2 s hne ih =>
      intro line h
      rw [fullLines, if_neg hne] at h
      rcases List.mem_cons.mp h with rfl | h
      · exact List.length_take_le 64 s
      · exact ih line h

/-- A provider with the paddings, block sizes, length checks and lines of the real ones
and ciphers that hide nothing; a key pair is one byte. -/
def transparent : Provider where
  PublicKey := UInt8
  PrivateKey := UInt8
  Seed := Unit
  rsaEncrypt pub _ key := wrapKey pub key
  rsaDecrypt := unwrapKey
  aesEncrypt key iv data := mask key iv (pkcs5Pad data)
  aesInit key :=
    if key.length = 16 ∨ key.length = 24 ∨ key.length = 32 then .ok ()
    else .error .generalSecurity
  aesDecrypt key iv data :=
    if data.length % 16 = 0 then pkcs5Unpad (mask key iv data)
    else .error .generalSecurity
  publicEncoded k := [0x30, 0x01, k]
  privateEncoded k := [0x30, 0x02, k, k]
  generatePublic := decodePublic
  generatePrivate := decodePrivate
  pemWriter := ⟨fullLines, flatten_fullLines, length_le_of_mem_fullLines⟩

/-- AES of the transparent provider is inverted by its decryption. -/
theorem transparent_aesInverts : transparent.AesInverts where
  init _ hkey := if_pos (Or.inl hkey)
  decrypt key iv data _ _ := by
    have hlen : (mask key iv (pkcs5Pad data)).length % 16 = 0 := by
      rw [length_mask, pkcs5Pad, List.length_append, List.length_replicate, pkcs5Length]
      omega
    refine (if_pos hlen).trans ?_
    show pkcs5Unpad (mask key iv (mask key iv (pkcs5Pad data))) = .ok data
    rw [mask_mask, pkcs5Unpad_pkcs5Pad]

/-- It adds at least the padding. -/
theorem transparent_aesPads : transparent.AesPads := by
  intro key iv data _ _
  have hpos := pkcs5Length_pos data.length
  show data.length < (mask key iv (pkcs5Pad data)).length
  rw [length_mask, pkcs5Pad, List.length_append, List.length_replicate]
  omega

/-- The pair of one byte. -/
def transparentPair (k : UInt8) : KeyPair transparent where
  publicKey := k
  privateKey := k

/-- The two halves of a one-byte pair belong together. -/
theorem transparent_rsaInverts (k : UInt8) : (transparentPair k).RsaInverts :=
  fun _ _ hkey => unwrapKey_wrapKey k hkey

/-- The modulus has 2048 bits. -/
theorem transparent_rsaModulus (kp : KeyPair transparent) : kp.RsaModulus 256 :=
  fun _ _ h => length_of_unwrapKey h

/-- Both keys are rebuilt from their encodings. -/
theorem transparent_keyFactoryRebuilds : transparent.KeyFactoryRebuilds where
  generatePublic_encoded _ := rfl
  generatePrivate_encoded _ := rfl

/-- No start of an encoding is taken for a private key. -/
theorem transparent_keyFactoryStrict : transparent.KeyFactoryStrict where
  privateEncoded_ne_nil _ := List.cons_ne_nil _ _
  eq_of_generatePrivate hpre h :=
    hpre.eq_of_length_le (Nat.le_of_eq (length_of_decodePrivate h).symm)

end Mockbank
