import Mathlib.Data.List.Basic

/-! 32-bit words in the memory of a machine of either byte order, and the network
byte order. -/

namespace P2PNet.Lib.Words

inductive Endian where
  | little
  | big
  deriving DecidableEq, Repr

/-- The bytes of a word, the most significant one first. -/
def toBytes (n : UInt32) : List UInt8 :=
  [(n >>> 24).toUInt8, (n >>> 16).toUInt8, (n >>> 8).toUInt8, n.toUInt8]

def ofBytes : List UInt8 → UInt32
  | [a, b, c, d] => ((a.toUInt32 * 256 + b.toUInt32) * 256 + c.toUInt32) * 256 + d.toUInt32
  | _ => 0

def store (endian : Endian) (n : UInt32) : List UInt8 :=
  match endian with
  | .little => (toBytes n).reverse
  | .big => toBytes n

def load (endian : Endian) (bytes : List UInt8) : UInt32 :=
  match endian with
  | .little => ofBytes bytes.reverse
  | .big => ofBytes bytes

def swap (n : UInt32) : UInt32 := ofBytes (toBytes n).reverse

def htonl (endian : Endian) (n : UInt32) : UInt32 :=
  match endian with
  | .little => swap n
  | .big => n

def ntohl (endian : Endian) (n : UInt32) : UInt32 := htonl endian n

lemma ofBytes_toBytes (n : UInt32) : ofBytes (toBytes n) = n := by
  have hn := n.toNat_lt
  apply UInt32.toNat_inj.mp
  simp only [toBytes, ofBytes, UInt32.toNat_add, UInt32.toNat_mul, UInt8.toNat_toUInt32,
    UInt32.toNat_toUInt8, UInt32.toNat_shiftRight]
  simp [Nat.shiftRight_eq_div_pow]
  omega

lemma toBytes_ofBytes {bytes : List UInt8} (h : bytes.length = 4) :
    toBytes (ofBytes bytes) = bytes := by
  obtain ⟨a, b, c, d, rfl⟩ := List.length_eq_four.mp h
  have ha := a.toNat_lt
  have hb := b.toNat_lt
  have hc := c.toNat_lt
  have hd := d.toNat_lt
  simp only [toBytes, ofBytes, List.cons.injEq, ← UInt8.toNat_inj, UInt32.toNat_add,
    UInt32.toNat_mul, UInt8.toNat_toUInt32, UInt32.toNat_toUInt8, UInt32.toNat_shiftRight]
  simp [Nat.shiftRight_eq_div_pow]
  omega

lemma length_toBytes (n : UInt32) : (toBytes n).length = 4 := rfl

/-- What `htonl` leaves in memory does not depend on the machine. -/
lemma store_htonl (endian : Endian) (n : UInt32) : store endian (htonl endian n) = toBytes n := by
  cases endian with
  | little =>
    rw [store, htonl, swap, toBytes_ofBytes (by simp [length_toBytes]), List.reverse_reverse]
  | big => rfl

lemma ntohl_load (endian : Endian) {bytes : List UInt8} (h : bytes.length = 4) :
    ntohl endian (load endian bytes) = ofBytes bytes := by
  cases endian with
  | little =>
    simp only [ntohl, htonl, load, swap]
    rw [toBytes_ofBytes (by simpa using h), List.reverse_reverse]
  | big => rfl

end P2PNet.Lib.Words
