import P2PNet.Common.Crypto
import P2PNet.Lib.Numerals
import P2PNet.Lib.StdString

/-! IP addresses as text. `Addresses` is what the transport needs of
`boost::asio::ip::address`. -/

namespace P2PNet.Transport

open Lib.Numerals Lib.StdString

def percent : UInt8 := 37
def dot : UInt8 := 46
def colon : UInt8 := 58

/-- `unscoped` takes the scope id off an address, and `any` is the default constructor. The text
of an address has a `%` before the scope id and nowhere else. -/
structure Addresses where
  Address : Type
  any : Address
  toString : Address → Bytes
  fromString : Bytes → Option Address
  unscoped : Address → Address
  unscoped_unscoped : ∀ a, unscoped (unscoped a) = unscoped a
  fromString_toString : ∀ a, unscoped a = a → fromString (toString a) = some a
  takeWhile_toString : ∀ a, (toString a).takeWhile (· ≠ percent) = toString (unscoped a)

inductive IPAddress where
  | v4 (a b c d : UInt8)
  | v6 (a b c d e f g h : UInt16) (scope : UInt32)
  deriving DecidableEq, Repr

namespace IPAddress

def unscoped : IPAddress → IPAddress
  | v4 a b c d => v4 a b c d
  | v6 a b c d e f g h _ => v6 a b c d e f g h 0

def scopeText (scope : UInt32) : Bytes :=
  if scope = 0 then [] else percent :: numeral 10 scope.toNat

/-- No run of zero groups is left out of an IPv6 address here. -/
def toString : IPAddress → Bytes
  | v4 a b c d => groups dot 10 [a.toNat, b.toNat, c.toNat, d.toNat]
  | v6 a b c d e f g h scope =>
    groups colon 16 [a.toNat, b.toNat, c.toNat, d.toNat, e.toNat, f.toNat, g.toNat, h.toNat] ++
      scopeText scope

def fromString (s : Bytes) : Option IPAddress :=
  if colon ∈ s then
    match readGroups colon 16 s with
    | some [a, b, c, d, e, f, g, h] =>
      if ∀ n ∈ [a, b, c, d, e, f, g, h], n < 2 ^ 16 then
        some (v6 (.ofNat a) (.ofNat b) (.ofNat c) (.ofNat d) (.ofNat e) (.ofNat f) (.ofNat g)
          (.ofNat h) 0)
      else none
    | _ => none
  else
    match readGroups dot 10 s with
    | some [a, b, c, d] =>
      if ∀ n ∈ [a, b, c, d], n < 2 ^ 8 then some (v4 (.ofNat a) (.ofNat b) (.ofNat c) (.ofNat d))
      else none
    | _ => none

lemma fromString_v4 (a b c d : UInt8) :
    fromString (groups dot 10 [a.toNat, b.toNat, c.toNat, d.toNat]) = some (v4 a b c d) := by
  have hcolon : colon ∉ groups dot 10 [a.toNat, b.toNat, c.toNat, d.toNat] :=
    notMem_groups (by decide) (by decide) (by decide) (by decide)
  have hlt : ∀ n ∈ [a.toNat, b.toNat, c.toNat, d.toNat], n < 2 ^ 8 := by
    intro n hn
    obtain ⟨x, -, rfl⟩ : ∃ x ∈ [a, b, c, d], x.toNat = n := List.mem_map.mp hn
    exact x.toNat_lt
  rw [fromString, if_neg hcolon, readGroups_groups (by decide) (by decide) (by decide) (by simp)]
  simp only [if_pos hlt, UInt8.ofNat_toNat]

lemma fromString_v6 (a b c d e f g h : UInt16) :
    fromString (groups colon 16
      [a.toNat, b.toNat, c.toNat, d.toNat, e.toNat, f.toNat, g.toNat, h.toNat]) =
      some (v6 a b c d e f g h 0) := by
  have hlt : ∀ n ∈ [a.toNat, b.toNat, c.toNat, d.toNat, e.toNat, f.toNat, g.toNat, h.toNat],
      n < 2 ^ 16 := by
    intro n hn
    obtain ⟨x, -, rfl⟩ : ∃ x ∈ [a, b, c, d, e, f, g, h], x.toNat = n := List.mem_map.mp hn
    exact x.toNat_lt
  rw [fromString, if_pos (sep_mem_groups _ _),
    readGroups_groups (by decide) (by decide) (by decide) (by simp)]
  simp only [if_pos hlt, UInt16.ofNat_toNat]

lemma takeWhile_scopeText (scope : UInt32) : (scopeText scope).takeWhile (· ≠ percent) = [] := by
  rw [scopeText]
  split <;> simp

end IPAddress

def sampleAddresses : Addresses where
  Address := IPAddress
  any := .v4 0 0 0 0
  toString := IPAddress.toString
  fromString := IPAddress.fromString
  unscoped := IPAddress.unscoped
  unscoped_unscoped a := by cases a <;> rfl
  fromString_toString a hscope := by
    cases a with
    | v4 a b c d => exact IPAddress.fromString_v4 a b c d
    | v6 a b c d e f g h scope =>
      obtain rfl : (0 : UInt32) = scope := by simpa [IPAddress.unscoped] using hscope
      rw [IPAddress.toString, IPAddress.scopeText, if_pos rfl, List.append_nil]
      exact IPAddress.fromString_v6 a b c d e f g h
  takeWhile_toString a := by
    have hpercent : ∀ sep b ns, 1 < b → b ≤ 16 → percent ≠ sep → percent ∉ groups sep b ns :=
      fun sep b ns hb hb' hsep => notMem_groups hb hb' (by decide) hsep
    cases a with
    | v4 a b c d =>
      have htake := takeWhile_append (hpercent dot 10 [a.toNat, b.toNat, c.toNat, d.toNat]
        (by decide) (by decide) (by decide)) []
      rwa [List.append_nil, List.takeWhile_nil, List.append_nil] at htake
    | v6 a b c d e f g h scope =>
      rw [IPAddress.toString, takeWhile_append (hpercent _ _ _ (by decide) (by decide) (by decide)),
        IPAddress.takeWhile_scopeText]
      rfl

end P2PNet.Transport
