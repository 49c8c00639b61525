import Mathlib.Algebra.Ring.Nat
import Mathlib.Data.List.Basic

/-! The wire format of protocol buffers. A message is a list of fields, each a tag and a
value; a number takes seven bits of every byte, the lowest first, and the high bit of a byte
says that more follow. -/

namespace P2PNet.Lib.Wire

open scoped List

section Varint

def varint (n : ℕ) : List UInt8 :=
  if n < 128 then [UInt8.ofNat n] else UInt8.ofNat (n % 128 + 128) :: varint (n / 128)

def readVarint : ℕ → List UInt8 → Option (ℕ × List UInt8)
  | 0, _ => none
  | _ + 1, [] => none
  | limit + 1, b :: rest =>
    if b.toNat < 128 then some (b.toNat, rest)
    else do
      let (n, rest) ← readVarint limit rest
      some (b.toNat - 128 + 128 * n, rest)

lemma toNat_byte {n : ℕ} (hn : n < 256) : (UInt8.ofNat n).toNat = n := by
  rw [UInt8.toNat_ofNat']
  exact Nat.mod_eq_of_lt hn

lemma varint_of_lt {n : ℕ} (hn : n < 128) : varint n = [UInt8.ofNat n] := by
  rw [varint, if_pos hn]

lemma varint_ne_nil (n : ℕ) : varint n ≠ [] := by
  rw [varint]
  split <;> simp

lemma readVarint_varint {limit n : ℕ} (hn : n < 128 ^ (limit + 1)) (rest : List UInt8) :
    readVarint (limit + 1) (varint n ++ rest) = some (n, rest) := by
  induction limit generalizing n with
  | zero =>
    have hn : n < 128 := by simpa using hn
    rw [varint_of_lt hn]
    simp [readVarint, toNat_byte (Nat.lt_trans hn (by decide)), hn]
  | succ limit ih =>
    rw [varint]
    split
    · next hsmall =>
      simp [readVarint, toNat_byte (Nat.lt_trans hsmall (by decide)), hsmall]
    · have hbyte := toNat_byte (show n % 128 + 128 < 256 by omega)
      have hdiv : n / 128 < 128 ^ (limit + 1) := by
        rw [Nat.div_lt_iff_lt_mul (by decide), ← Nat.pow_succ]
        exact hn
      rw [List.cons_append, readVarint, hbyte, if_neg (by omega), ih hdiv]
      simp [Nat.mod_add_div]

end Varint

inductive Value where
  | varint (n : ℕ)
  | fixed64 (bytes : List UInt8)
  | delimited (bytes : List UInt8)
  | fixed32 (bytes : List UInt8)
  deriving DecidableEq, Repr

structure Field where
  number : ℕ
  value : Value
  deriving DecidableEq, Repr

namespace Value

def wireType : Value → ℕ
  | varint _ => 0
  | fixed64 _ => 1
  | delimited _ => 2
  | fixed32 _ => 5

lemma wireType_lt (v : Value) : v.wireType < 8 := by
  cases v <;> simp [wireType]

lemma wireType_ne (v : Value) : v.wireType ≠ 3 ∧ v.wireType ≠ 4 := by
  cases v <;> simp [wireType]

def encode : Value → List UInt8
  | varint n => Wire.varint n
  | fixed64 bytes => bytes
  | delimited bytes => Wire.varint bytes.length ++ bytes
  | fixed32 bytes => bytes

def WellFormed : Value → Prop
  | varint n => n < 2 ^ 64
  | fixed64 bytes => bytes.length = 8
  | delimited _ => True
  | fixed32 bytes => bytes.length = 4

end Value

def chunk (n : ℕ) (data : List UInt8) : Option (List UInt8 × List UInt8) :=
  if n ≤ data.length then some (data.splitAt n) else none

lemma chunk_append (bytes rest : List UInt8) :
    chunk bytes.length (bytes ++ rest) = some (bytes, rest) := by
  simp [chunk, List.splitAt_eq]

def readValue (wireType : ℕ) (data : List UInt8) : Option (Value × List UInt8) :=
  match wireType with
  | 0 => do
    let (n, rest) ← readVarint 10 data
    some (.varint (n % 2 ^ 64), rest)
  | 1 => do
    let (bytes, rest) ← chunk 8 data
    some (.fixed64 bytes, rest)
  | 2 => do
    let (n, rest) ← readVarint 10 data
    if n < 2 ^ 31 then
      let (bytes, rest) ← chunk n rest
      some (.delimited bytes, rest)
    else none
  | 5 => do
    let (bytes, rest) ← chunk 4 data
    some (.fixed32 bytes, rest)
  | _ => none

lemma readValue_encode {v : Value} (hv : v.WellFormed) (hlen : v.encode.length < 2 ^ 31)
    (rest : List UInt8) : readValue v.wireType (v.encode ++ rest) = some (v, rest) := by
  cases v with
  | varint n =>
    have hn : n < 2 ^ 64 := hv
    have hread : readVarint 10 (varint n ++ rest) = some (n, rest) :=
      readVarint_varint (Nat.lt_trans hn (by decide)) rest
    simp only [readValue, Value.wireType, Value.encode, hread, Option.bind_eq_bind,
      Option.bind_some, Nat.mod_eq_of_lt hn]
  | fixed64 bytes =>
    have hchunk := chunk_append bytes rest
    rw [show bytes.length = 8 from hv] at hchunk
    simp [readValue, Value.wireType, Value.encode, hchunk]
  | delimited bytes =>
    have hn : bytes.length < 2 ^ 31 := by
      rw [Value.encode, List.length_append] at hlen
      omega
    have hread : readVarint 10 (varint bytes.length ++ (bytes ++ rest)) =
        some (bytes.length, bytes ++ rest) :=
      readVarint_varint (Nat.lt_trans hn (by decide)) _
    simp only [readValue, Value.wireType, Value.encode, List.append_assoc, hread,
      Option.bind_eq_bind, Option.bind_some, if_pos hn, chunk_append]
  | fixed32 bytes =>
    have hchunk := chunk_append bytes rest
    rw [show bytes.length = 4 from hv] at hchunk
    simp [readValue, Value.wireType, Value.encode, hchunk]

namespace Field

def tag (f : Field) : ℕ := f.number * 8 + f.value.wireType

def encode (f : Field) : List UInt8 := varint f.tag ++ f.value.encode

structure WellFormed (f : Field) : Prop where
  pos : 0 < f.number
  lt : f.number < 2 ^ 29
  value : f.value.WellFormed

lemma tag_div (f : Field) : f.tag / 8 = f.number := by
  have htype := f.value.wireType_lt
  rw [tag]
  omega

lemma tag_mod (f : Field) : f.tag % 8 = f.value.wireType := by
  have htype := f.value.wireType_lt
  rw [tag]
  omega

lemma WellFormed.tag_lt {f : Field} (hf : f.WellFormed) : f.tag < 2 ^ 32 := by
  have hlt := hf.lt
  have htype := f.value.wireType_lt
  rw [tag]
  omega

lemma encode_ne_nil (f : Field) : f.encode ≠ [] :=
  List.append_ne_nil_of_left_ne_nil (varint_ne_nil _) _

end Field

def encode (fields : List Field) : List UInt8 := fields.flatMap Field.encode

/-- The fields of a message. `groups` are the unfinished groups around the rest of the data;
what is in a group is skipped. -/
def readFields : ℕ → List ℕ → List UInt8 → Option (List Field)
  | _, groups, [] => if groups = [] then some [] else none
  | 0, _, _ :: _ => none
  | fuel + 1, groups, data@(_ :: _) => do
    let (tag, rest) ← readVarint 10 data
    if tag / 8 = 0 ∨ 2 ^ 32 ≤ tag then none
    else if tag % 8 = 3 then readFields fuel (tag / 8 :: groups) rest
    else if tag % 8 = 4 then
      if groups.head? = some (tag / 8) then readFields fuel groups.tail rest else none
    else
      let (value, rest) ← readValue (tag % 8) rest
      let fields ← readFields fuel groups rest
      some (if groups = [] then ⟨tag / 8, value⟩ :: fields else fields)

lemma encode_delimited (number : ℕ) (bytes : List UInt8) :
    encode [⟨number, .delimited bytes⟩] =
      varint (number * 8 + 2) ++ (varint bytes.length ++ bytes) := by
  rw [encode, List.flatMap_singleton]
  rfl

lemma length_encode_cons (f : Field) (found : List Field) :
    (encode (f :: found)).length = f.encode.length + (encode found).length := by
  rw [encode, List.flatMap_cons, List.length_append, ← encode]

lemma readVarint_encode_append {f : Field} (hf : f.WellFormed) (rest : List UInt8) :
    readVarint 10 (f.encode ++ rest) = some (f.tag, f.value.encode ++ rest) := by
  rw [Field.encode, List.append_assoc]
  exact readVarint_varint (Nat.lt_trans hf.tag_lt (by decide)) _

/-- A field that was written is read, whatever comes after it. -/
lemma readFields_encode_append {f : Field} (hf : f.WellFormed)
    (hlen : f.value.encode.length < 2 ^ 31) (fuel : ℕ) (rest : List UInt8) :
    readFields (fuel + 1) [] (f.encode ++ rest) = (readFields fuel [] rest).map (f :: ·) := by
  obtain ⟨b, bytes, hbytes⟩ := List.exists_cons_of_ne_nil f.encode_ne_nil
  have hcons : f.encode ++ rest = b :: (bytes ++ rest) := by
    rw [hbytes]
    rfl
  have hpos := hf.pos
  have htag := hf.tag_lt
  rw [hcons, readFields, ← hcons, readVarint_encode_append hf]
  simp only [Option.bind_eq_bind, Option.bind_some, f.tag_div, f.tag_mod]
  rw [if_neg (by omega), if_neg f.value.wireType_ne.1, if_neg f.value.wireType_ne.2,
    readValue_encode hf.value hlen, Option.bind_some]
  cases readFields fuel [] rest <;> rfl

lemma readFields_encode {found : List Field} {fuel : ℕ} (hwf : ∀ f ∈ found, f.WellFormed)
    (hlen : (encode found).length < 2 ^ 31) (hfuel : (encode found).length ≤ fuel) :
    readFields fuel [] (encode found) = some found := by
  induction found generalizing fuel with
  | nil => cases fuel <;> rfl
  | cons f found ih =>
    have hsplit := length_encode_cons f found
    have hvalue : f.value.encode.length < 2 ^ 31 := by
      rw [hsplit, Field.encode, List.length_append] at hlen
      omega
    -- every field takes a byte at least, so the length of the data is fuel enough
    have hbyte := List.length_pos_iff.mpr f.encode_ne_nil
    obtain ⟨fuel, rfl⟩ : ∃ less, fuel = less + 1 := ⟨fuel - 1, by omega⟩
    have hrest : readFields fuel [] (encode found) = some found :=
      ih (fun g hg => hwf g (List.mem_cons_of_mem _ hg)) (by omega) (by omega)
    rw [encode, List.flatMap_cons, ← encode,
      readFields_encode_append (hwf f List.mem_cons_self) hvalue, hrest]
    rfl

def fields (data : List UInt8) : Option (List Field) := readFields data.length [] data

section Merge

variable {σ : Type} (merge : σ → Field → Option σ)

/-- A message that is read into: each field is merged in the order of the data. -/
def mergeFrom (s : σ) (data : List UInt8) : Option σ := do
  let found ← fields data
  found.foldlM merge s

lemma mergeFrom_encode {found : List Field} (hwf : ∀ f ∈ found, f.WellFormed)
    (hlen : (encode found).length < 2 ^ 31) (s : σ) :
    mergeFrom merge s (encode found) = found.foldlM merge s := by
  rw [mergeFrom, fields, readFields_encode hwf hlen (Nat.le_refl _)]
  rfl

end Merge

lemma length_le_of_mem {found : List Field} {number : ℕ} {bytes : List UInt8}
    (h : ⟨number, .delimited bytes⟩ ∈ found) : bytes.length ≤ (encode found).length := by
  have hsub : Field.encode ⟨number, .delimited bytes⟩ <+ encode found :=
    List.sublist_flatten_of_mem (List.mem_map_of_mem h)
  refine Nat.le_trans ?_ hsub.length_le
  simp only [Field.encode, Value.encode, List.length_append]
  omega

section Size

lemma length_varint_le (n : ℕ) : (varint n).length ≤ n / 128 + 1 := by
  induction n using varint.induct with
  | case1 n hn =>
    rw [varint_of_lt hn, List.length_singleton]
    omega
  | case2 n hn ih =>
    rw [varint, if_neg hn, List.length_cons]
    omega

/-- A rough bound, enough for the size of a given message. -/
def Field.size (f : Field) : ℕ :=
  match f.value with
  | .varint n => f.tag + n + 2
  | .fixed64 s | .fixed32 s => f.tag + s.length + 1
  | .delimited s => f.tag + 2 * s.length + 2

lemma Field.length_encode_le (f : Field) : f.encode.length ≤ f.size := by
  have htag := length_varint_le f.tag
  rw [encode, size, List.length_append]
  cases f.value with
  | varint n =>
    have hn := length_varint_le n
    simp only [Value.encode]
    omega
  | fixed64 s | fixed32 s =>
    simp only [Value.encode]
    omega
  | delimited s =>
    have hs := length_varint_le s.length
    simp only [Value.encode, List.length_append]
    omega

lemma length_encode_le (found : List Field) :
    (encode found).length ≤ (found.map Field.size).sum := by
  induction found with
  | nil => exact Nat.le_refl _
  | cons f found ih =>
    rw [length_encode_cons, List.map_cons, List.sum_cons]
    exact Nat.add_le_add f.length_encode_le ih

lemma length_varint_le_of_lt {k n : ℕ} (hn : n < 128 ^ (k + 1)) : (varint n).length ≤ k + 1 := by
  induction k generalizing n with
  | zero =>
    rw [varint_of_lt hn]
    exact Nat.le_refl _
  | succ k ih =>
    by_cases hsmall : n < 128
    · rw [varint_of_lt hsmall, List.length_singleton]
      exact Nat.le_add_left _ _
    · rw [varint, if_neg hsmall, List.length_cons]
      refine Nat.succ_le_succ (ih (Nat.div_lt_of_lt_mul ?_))
      rwa [Nat.pow_succ, Nat.mul_comm] at hn

def Value.payload : Value → ℕ
  | varint _ => 0
  | fixed64 s | delimited s | fixed32 s => s.length

/-- The tag takes five bytes at most, a number or a length ten. -/
lemma Field.WellFormed.length_encode_le {f : Field} (hf : f.WellFormed)
    (hlen : f.value.payload < 2 ^ 64) : f.encode.length ≤ f.value.payload + 15 := by
  have htag : (Wire.varint f.tag).length ≤ 5 :=
    length_varint_le_of_lt (Nat.lt_trans hf.tag_lt (by decide))
  have hnumber : ∀ n < 2 ^ 64, (Wire.varint n).length ≤ 10 := fun n hn =>
    length_varint_le_of_lt (Nat.lt_trans hn (by decide))
  have hvalue : f.value.encode.length ≤ f.value.payload + 10 := by
    have hwf := hf.value
    cases hv : f.value with
    | varint n =>
      rw [hv] at hwf
      exact hnumber n hwf
    | fixed64 s | fixed32 s => exact Nat.le_add_right _ _
    | delimited s =>
      rw [hv] at hlen
      rw [Value.encode, List.length_append, Nat.add_comm]
      exact Nat.add_le_add_left (hnumber _ hlen) _
  rw [encode, List.length_append]
  omega

lemma length_encode_le_payload {found : List Field} (hwf : ∀ f ∈ found, f.WellFormed)
    (hsum : (found.map fun f => f.value.payload + 15).sum < 2 ^ 64) :
    (encode found).length ≤ (found.map fun f => f.value.payload + 15).sum := by
  induction found with
  | nil => exact Nat.le_refl _
  | cons f found ih =>
    obtain ⟨hf, hrest⟩ := List.forall_mem_cons.mp hwf
    rw [List.map_cons, List.sum_cons] at hsum ⊢
    rw [length_encode_cons]
    exact Nat.add_le_add (hf.length_encode_le (by omega)) (ih hrest (by omega))

end Size

section Optional

variable {α : Type} {number : ℕ} {value : α → Value} {a : Option α}

/-- A field that is written only if it is set. -/
def optionalField (number : ℕ) (value : α → Value) (a : Option α) : List Field :=
  (a.map fun a => ⟨number, value a⟩).toList

lemma wellFormed_of_mem_optionalField (hpos : 0 < number) (hlt : number < 2 ^ 29)
    (hvalue : ∀ x, (value x).WellFormed) : ∀ f ∈ optionalField number value a, f.WellFormed := by
  intro f hf
  obtain ⟨x, _, rfl⟩ := Option.map_eq_some_iff.mp (Option.mem_toList.mp hf)
  exact ⟨hpos, hlt, hvalue x⟩

end Optional

end P2PNet.Lib.Wire
