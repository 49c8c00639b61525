import P2PNet.Lib.Digits

/-! Numerals in ASCII, of a base up to sixteen, and lists of them with a separator
in between. -/

namespace P2PNet.Lib.Numerals

open Lib.Digits

def digitChar (d : ℕ) : UInt8 := if d < 10 then UInt8.ofNat (48 + d) else UInt8.ofNat (87 + d)

def charDigit (c : UInt8) : Option ℕ :=
  if 48 ≤ c ∧ c ≤ 57 then some (c.toNat - 48)
  else if 97 ≤ c ∧ c ≤ 102 then some (c.toNat - 87)
  else none

def digitOf (b : ℕ) (c : UInt8) : Option ℕ := (charDigit c).filter (· < b)

def numeral (b n : ℕ) : List UInt8 := if n = 0 then [48] else (expand b n).map digitChar

def readNumeral (b : ℕ) (s : List UInt8) : Option ℕ :=
  if s = [] then none else (s.mapM (digitOf b)).map (value b)

lemma charDigit_digitChar {d : ℕ} (h : d < 16) : charDigit (digitChar d) = some d := by
  revert d
  decide

lemma digitOf_digitChar {b d : ℕ} (hb : b ≤ 16) (h : d < b) : digitOf b (digitChar d) = some d := by
  rw [digitOf, charDigit_digitChar (by omega)]
  simp [h]

lemma mapM_map {α β : Type} {f : α → β} {g : β → Option α} {xs : List α}
    (h : ∀ x ∈ xs, g (f x) = some x) : (xs.map f).mapM g = some xs := by
  induction xs with
  | nil => rfl
  | cons x xs ih =>
    rw [List.map_cons, List.mapM_cons, h x List.mem_cons_self,
      ih fun y hy => h y (List.mem_cons_of_mem x hy)]
    rfl

lemma numeral_eq_map {b : ℕ} (hb : 1 < b) (n : ℕ) :
    ∃ ds, ds ≠ [] ∧ (∀ d ∈ ds, d < b) ∧ value b ds = n ∧ numeral b n = ds.map digitChar := by
  rw [numeral]
  split
  · next hn => exact ⟨[0], by simp, by simpa using by omega, by simp [value, hn], rfl⟩
  · next hn =>
    refine ⟨expand b n, ?_, fun d hd => lt_of_mem_expand hb hd, value_expand b n, rfl⟩
    intro hnil
    have hvalue := value_expand b n
    rw [hnil] at hvalue
    exact hn hvalue.symm

theorem readNumeral_numeral {b : ℕ} (hb : 1 < b) (hb' : b ≤ 16) (n : ℕ) :
    readNumeral b (numeral b n) = some n := by
  obtain ⟨ds, hne, hlt, hvalue, heq⟩ := numeral_eq_map hb n
  rw [readNumeral, heq, if_neg (by simpa using hne),
    mapM_map fun d hd => digitOf_digitChar hb' (hlt d hd), Option.map_some, hvalue]

lemma isSome_of_mapM {α β : Type} {f : α → Option β} {xs : List α} {ys : List β}
    (h : xs.mapM f = some ys) : ∀ x ∈ xs, (f x).isSome := by
  induction xs generalizing ys with
  | nil => simp
  | cons x xs ih =>
    rw [List.mapM_cons] at h
    obtain ⟨y, hy, h⟩ := Option.bind_eq_some_iff.mp h
    obtain ⟨rest, hrest, -⟩ := Option.bind_eq_some_iff.mp h
    intro z hz
    rcases List.mem_cons.mp hz with rfl | hz
    · rw [hy]
      rfl
    · exact ih hrest z hz

/-- A character that is no digit occurs in no text that is read as a numeral. -/
lemma notMem_of_readNumeral {b n : ℕ} {c : UInt8} {s : List UInt8} (hc : charDigit c = none)
    (h : readNumeral b s = some n) : c ∉ s := by
  intro hmem
  rw [readNumeral] at h
  split at h
  · cases h
  · obtain ⟨ds, hds, -⟩ := Option.map_eq_some_iff.mp h
    have hsome := isSome_of_mapM hds c hmem
    simp [digitOf, hc] at hsome

lemma notMem_numeral {b n : ℕ} (hb : 1 < b) (hb' : b ≤ 16) {c : UInt8} (hc : charDigit c = none) :
    c ∉ numeral b n :=
  notMem_of_readNumeral hc (readNumeral_numeral hb hb' n)

def groups (sep : UInt8) (b : ℕ) (ns : List ℕ) : List UInt8 :=
  [sep].intercalate (ns.map (numeral b))

def readGroups (sep : UInt8) (b : ℕ) (s : List UInt8) : Option (List ℕ) :=
  (s.splitOn sep).mapM (readNumeral b)

section Groups

variable {b : ℕ} {sep : UInt8} {ns : List ℕ}

theorem readGroups_groups (hb : 1 < b) (hb' : b ≤ 16) (hsep : charDigit sep = none)
    (hne : ns ≠ []) : readGroups sep b (groups sep b ns) = some ns := by
  have hnotMem : ∀ text ∈ ns.map (numeral b), sep ∉ text := by
    intro text htext
    obtain ⟨n, -, rfl⟩ := List.mem_map.mp htext
    exact notMem_numeral hb hb' hsep
  rw [readGroups, groups, List.splitOn_intercalate sep hnotMem (by simpa using hne)]
  exact mapM_map fun n _ => readNumeral_numeral hb hb' n

lemma groups_cons_cons (m n : ℕ) :
    groups sep b (m :: n :: ns) = numeral b m ++ [sep] ++ groups sep b (n :: ns) :=
  List.intercalate_cons_cons

lemma notMem_groups (hb : 1 < b) (hb' : b ≤ 16) {c : UInt8} (hc : charDigit c = none)
    (hsep : c ≠ sep) : c ∉ groups sep b ns := by
  induction ns with
  | nil => simp [groups]
  | cons m ns ih =>
    cases ns with
    | nil =>
      simp only [groups, List.map_cons, List.map_nil, List.intercalate_singleton]
      exact notMem_numeral hb hb' hc
    | cons n ns =>
      rw [groups_cons_cons, List.mem_append, List.mem_append, List.mem_singleton]
      rintro ((hmem | rfl) | hmem)
      · exact notMem_numeral hb hb' hc hmem
      · exact hsep rfl
      · exact ih hmem

lemma sep_mem_groups (m n : ℕ) : sep ∈ groups sep b (m :: n :: ns) := by
  simp [groups_cons_cons]

end Groups

end P2PNet.Lib.Numerals
