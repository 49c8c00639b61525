import P2PNet.Common.Hash
import Mathlib.Data.Nat.Digits.Defs

/-! Keys and hashes as the daemon uses them. `Botan::BigInt` is a natural number
and a `std::string` a list of bytes; what Botan computes is a parameter. -/

namespace P2PNet

abbrev Bytes := List UInt8

/-- The part of Botan behind `PrivateKeyDSA` and `Hash`: `loadKey` is the constructor of
`ECDSA_PrivateKey` over `dsa_curve`, which may throw, `publicKey` the encoded public key and
`keccak` the hash of `HASH_LENGTH` bits. -/
structure Crypto where
  Rng : Type
  PrivateKey : Type
  loadKey : Rng → ℕ → Option PrivateKey
  publicKey : PrivateKey → Bytes
  keccak : Bytes → Hash
  keccak_length : ∀ s, (keccak s).length = 28

def bigIntDecode (s : Bytes) : ℕ :=
  s.foldl (fun n b => n * 256 + b.toNat) 0

def bigIntEncode (n : ℕ) : Bytes :=
  (Nat.digits 256 n).reverse.map UInt8.ofNat

def base58Alphabet : Bytes :=
  "123456789abcdefghijkmnopqrstuvwxyzABCDEFGHJKLMNPQRSTUVWXYZ".toList.map
    (fun c => UInt8.ofNat c.toNat)

def npos : ℕ := 2 ^ 64 - 1

def base58Find (c : UInt8) : ℕ :=
  (base58Alphabet.findIdx? (· = c)).getD npos

def decodeBase58Loop : Bytes → ℕ → ℕ → ℕ
  | [], bigData, _ => bigData
  | c :: rest, bigData, multi =>
    decodeBase58Loop rest (bigData + multi * base58Find c) (multi * base58Alphabet.length)

/-- The conversion of a `size_t` to `int`. -/
def intOfSize (n : ℕ) : ℤ := Int.bmod n (2 ^ 32)

/-- The loop goes from `len - 1` down to 0. For a length with the least `int` that difference
is undefined and taken as it is. -/
def decodeFromBase58 (base58 : Bytes) : Bytes :=
  let len := intOfSize base58.length
  bigIntEncode (decodeBase58Loop (base58.take len.toNat).reverse 0 1)

namespace Crypto

variable (C : Crypto)

def fromBinaryString (rng : C.Rng) (s : Bytes) : Option C.PrivateKey :=
  C.loadKey rng (bigIntDecode s)

def fromBase58 (rng : C.Rng) (s : Bytes) : Option C.PrivateKey :=
  C.fromBinaryString rng (decodeFromBase58 s)

def serviceHash (key : C.PrivateKey) : SH :=
  C.keccak (C.publicKey key)

lemma serviceHash_ne_nil (key : C.PrivateKey) : C.serviceHash key ≠ [] := by
  intro h
  have hl := C.keccak_length (C.publicKey key)
  rw [show C.keccak (C.publicKey key) = [] from h] at hl
  simp at hl

end Crypto

/-- Encoded public keys of the private values 1 and 2 on secp256r1, in compressed form. -/
def samplePublicKey (x : ℕ) : Bytes :=
  [48, 57, 48, 19, 6, 7, 42, 134, 72, 206, 61, 2, 1, 6, 8, 42, 134, 72, 206, 61, 3, 1, 7, 3, 34,
      0] ++
    if x = 1 then
      [3, 107, 23, 209, 242, 225, 44, 66, 71, 248, 188, 230, 229, 99, 164, 64, 242, 119, 3, 125,
        129, 45, 235, 51, 160, 244, 161, 57, 69, 216, 152, 194, 150]
    else
      [3, 124, 242, 123, 24, 141, 3, 79, 126, 138, 82, 56, 3, 4, 181, 26, 195, 192, 137, 105, 226,
        119, 242, 27, 53, 166, 11, 72, 252, 71, 102, 153, 120]

def sampleCrypto : Crypto where
  Rng := Unit
  PrivateKey := ℕ
  loadKey _ x := some x
  publicKey := samplePublicKey
  keccak s :=
    if s = samplePublicKey 1 then
      [0, 82, 51, 230, 31, 140, 74, 238, 24, 139, 143, 195, 87, 94, 31, 95, 170, 21, 181, 205, 183,
        190, 138, 37, 250, 221, 79, 165]
    else
      [147, 145, 17, 61, 32, 217, 84, 231, 24, 149, 224, 125, 67, 103, 192, 253, 109, 44, 68, 182,
        84, 66, 192, 105, 29, 126, 158, 240]
  keccak_length s := by split <;> rfl

end P2PNet
