import Mathlib.Algebra.Group.Int.Defs
import Mathlib.Logic.Equiv.Defs
import P2PNet.Lib.Wire

/-! Message types of protocol buffers. A `Cell` is the content of one field, a `Schema` a
message type put together from cells; both carry the law that what was written is read back,
so that a new message type has its round trip from the way it is built. -/

namespace P2PNet.Lib.Wire

/-- The content of a field: the values it is written as, and the content after one more value
was read. `Valid` is what the type of the field in the schema allows. -/
structure Cell (β : Type) where
  unset : β
  Valid : β → Prop
  write : β → List Value
  read : β → Value → Option β
  valid_unset : Valid unset
  valid_read : ∀ {b v b'}, Valid b → read b v = some b' → Valid b'
  wellFormed : ∀ {b}, Valid b → ∀ v ∈ write b, v.WellFormed
  read_write : ∀ {b}, Valid b → (∀ s, .delimited s ∈ write b → s.length < 2 ^ 31) →
    (write b).foldlM read unset = some b

structure Schema (α : Type) where
  empty : α
  Valid : α → Prop
  numbers : List ℕ
  fields : α → List Field
  merge : α → Field → Option α
  valid_empty : Valid empty
  valid_merge : ∀ {m f m'}, Valid m → merge m f = some m' → Valid m'
  wellFormed : ∀ {m}, Valid m → ∀ f ∈ fields m, f.WellFormed
  number_mem : ∀ {m}, ∀ f ∈ fields m, f.number ∈ numbers
  merge_unknown : ∀ {m f}, f.number ∉ numbers → merge m f = some m
  merge_fields : ∀ {m}, Valid m → (∀ number s, ⟨number, .delimited s⟩ ∈ fields m →
    s.length < 2 ^ 31) → (fields m).foldlM merge empty = some m

namespace Schema

variable {α β : Type}

def serialize (S : Schema α) (m : α) : List UInt8 := encode (S.fields m)

def parse (S : Schema α) (data : List UInt8) : Option α := mergeFrom S.merge S.empty data

theorem parse_serialize (S : Schema α) {m : α} (hm : S.Valid m)
    (hlen : (S.serialize m).length < 2 ^ 31) : S.parse (S.serialize m) = some m := by
  rw [parse, serialize, mergeFrom_encode _ (S.wellFormed hm) hlen]
  exact S.merge_fields hm fun _ _ hs => Nat.lt_of_le_of_lt (length_le_of_mem hs) hlen

lemma length_serialize_lt (S : Schema α) {m : α} (hm : S.Valid m) {k : ℕ} (hk : k ≤ 2 ^ 64)
    (hsum : ((S.fields m).map fun f => f.value.payload + 15).sum < k) :
    (S.serialize m).length < k :=
  Nat.lt_of_le_of_lt (length_encode_le_payload (S.wellFormed hm) (Nat.lt_of_lt_of_le hsum hk)) hsum

lemma valid_foldlM (S : Schema α) {found : List Field} {m m' : α} (hm : S.Valid m)
    (h : found.foldlM S.merge m = some m') : S.Valid m' := by
  induction found generalizing m with
  | nil =>
    obtain rfl := Option.some.inj h
    exact hm
  | cons f found ih =>
    rw [List.foldlM_cons] at h
    obtain ⟨next, hnext, hrest⟩ := Option.bind_eq_some_iff.mp h
    exact ih (S.valid_merge hm hnext) hrest

def nil : Schema Unit where
  empty := ()
  Valid _ := True
  numbers := []
  fields _ := []
  merge m _ := some m
  valid_empty := trivial
  valid_merge _ _ := trivial
  wellFormed _ _ h := absurd h List.not_mem_nil
  number_mem _ h := absurd h List.not_mem_nil
  merge_unknown _ := rfl
  merge_fields _ _ := rfl

section Cons

variable (number : ℕ) (cell : Cell β) (rest : Schema α)

def consFields (m : β × α) : List Field :=
  (cell.write m.1).map (⟨number, ·⟩) ++ rest.fields m.2

def consMerge (m : β × α) (f : Field) : Option (β × α) :=
  if f.number = number then (cell.read m.1 f.value).map (·, m.2)
  else (rest.merge m.2 f).map (m.1, ·)

lemma foldlM_consMerge_cell (values : List Value) (b : β) (a : α) :
    (values.map (⟨number, ·⟩)).foldlM (consMerge number cell rest) (b, a) =
      (values.foldlM cell.read b).map (·, a) := by
  induction values generalizing b with
  | nil => rfl
  | cons v values ih =>
    rw [List.map_cons, List.foldlM_cons, List.foldlM_cons, consMerge, if_pos rfl]
    cases cell.read b v with
    | none => rfl
    | some b' => exact ih b'

lemma foldlM_consMerge_rest {found : List Field} (h : ∀ f ∈ found, f.number ≠ number) (b : β)
    (a : α) :
    found.foldlM (consMerge number cell rest) (b, a) = (found.foldlM rest.merge a).map (b, ·) := by
  induction found generalizing a with
  | nil => rfl
  | cons f found ih =>
    rw [List.foldlM_cons, List.foldlM_cons, consMerge, if_neg (h f List.mem_cons_self)]
    cases rest.merge a f with
    | none => rfl
    | some a' => exact ih (fun g hg => h g (List.mem_cons_of_mem _ hg)) a'

/-- A number that a further field may have. -/
def isFree (number : ℕ) (numbers : List ℕ) : Bool :=
  decide (0 < number ∧ number < 2 ^ 29 ∧ number ∉ numbers)

/-- One field more, in front of the others. -/
def cons (hfree : isFree number rest.numbers = true := by exact Eq.refl true) :
    Schema (β × α) where
  empty := (cell.unset, rest.empty)
  Valid m := cell.Valid m.1 ∧ rest.Valid m.2
  numbers := number :: rest.numbers
  fields := consFields number cell rest
  merge := consMerge number cell rest
  valid_empty := ⟨cell.valid_unset, rest.valid_empty⟩
  valid_merge := by
    intro m f m' hm h
    rw [consMerge] at h
    split at h
    · obtain ⟨b, hb, rfl⟩ := Option.map_eq_some_iff.mp h
      exact ⟨cell.valid_read hm.1 hb, hm.2⟩
    · obtain ⟨a, ha, rfl⟩ := Option.map_eq_some_iff.mp h
      exact ⟨hm.1, rest.valid_merge hm.2 ha⟩
  wellFormed := by
    intro m hm f hf
    rcases List.mem_append.mp hf with hf | hf
    · obtain ⟨v, hv, rfl⟩ := List.mem_map.mp hf
      obtain ⟨hpos, hlt, -⟩ := of_decide_eq_true hfree
      exact ⟨hpos, hlt, cell.wellFormed hm.1 v hv⟩
    · exact rest.wellFormed hm.2 f hf
  number_mem := by
    intro m f hf
    rcases List.mem_append.mp hf with hf | hf
    · obtain ⟨v, _, rfl⟩ := List.mem_map.mp hf
      exact List.mem_cons_self
    · exact List.mem_cons_of_mem _ (rest.number_mem f hf)
  merge_unknown := by
    intro m f hf
    obtain ⟨hne, hrest⟩ := not_or.mp (List.mem_cons.not.mp hf)
    rw [consMerge, if_neg hne, rest.merge_unknown hrest]
    rfl
  merge_fields := by
    intro m hm hlen
    have hcell := cell.read_write hm.1 fun s hs =>
      hlen number s (List.mem_append_left _ (List.mem_map_of_mem hs))
    have hrest := rest.merge_fields hm.2 fun n s hs => hlen n s (List.mem_append_right _ hs)
    have hother : ∀ f ∈ rest.fields m.2, f.number ≠ number :=
      fun f hf h => (of_decide_eq_true hfree).2.2 (h ▸ rest.number_mem f hf)
    rw [consFields, List.foldlM_append, foldlM_consMerge_cell, hcell]
    refine (foldlM_consMerge_rest number cell rest hother m.1 rest.empty).trans ?_
    rw [hrest]
    rfl

end Cons

lemma foldlM_map (S : Schema β) (e : α ≃ β) (found : List Field) (b : β) :
    found.foldlM (fun m f => (S.merge (e m) f).map e.symm) (e.symm b) =
      (found.foldlM S.merge b).map e.symm := by
  induction found generalizing b with
  | nil => rfl
  | cons f found ih =>
    rw [List.foldlM_cons, List.foldlM_cons, e.apply_symm_apply]
    cases S.merge b f with
    | none => rfl
    | some b' => exact ih b'

/-- The same message type for another representation of its messages. -/
def map (S : Schema β) (e : α ≃ β) : Schema α where
  empty := e.symm S.empty
  Valid m := S.Valid (e m)
  numbers := S.numbers
  fields m := S.fields (e m)
  merge m f := (S.merge (e m) f).map e.symm
  valid_empty := by
    rw [e.apply_symm_apply]
    exact S.valid_empty
  valid_merge := by
    intro m f m' hm h
    obtain ⟨b, hb, rfl⟩ := Option.map_eq_some_iff.mp h
    rw [e.apply_symm_apply]
    exact S.valid_merge hm hb
  wellFormed hm := S.wellFormed hm
  number_mem := S.number_mem
  merge_unknown := by
    intro m f hf
    rw [S.merge_unknown hf, Option.map_some, e.symm_apply_apply]
  merge_fields := by
    intro m hm hlen
    rw [foldlM_map, S.merge_fields hm hlen, Option.map_some, e.symm_apply_apply]

end Schema

namespace Cell

variable {γ : Type}

section Scalar

variable (Valid : γ → Prop) (write : γ → Value) (read : Value → Option γ)

/-- A field that is set at most once: of several values the last is kept, and one that is not
of the field's type is ignored. -/
def optional (hvalid : ∀ {v x}, read v = some x → Valid x)
    (hwf : ∀ {x}, Valid x → (write x).WellFormed)
    (hread : ∀ {x}, Valid x → read (write x) = some x) : Cell (Option γ) where
  unset := none
  Valid o := ∀ x ∈ o, Valid x
  write o := (o.map write).toList
  read o v := some ((read v).or o)
  valid_unset := by simp
  valid_read := by
    intro o v o' ho h x hx
    obtain rfl := Option.some.inj h
    cases hv : read v with
    | none =>
      rw [hv, Option.none_or] at hx
      exact ho x hx
    | some y =>
      rw [hv, Option.some_or] at hx
      obtain rfl := Option.some.inj hx
      exact hvalid hv
  wellFormed := by
    intro o ho v hv
    obtain ⟨x, hx, rfl⟩ := Option.map_eq_some_iff.mp (Option.mem_toList.mp hv)
    exact hwf (ho x hx)
  read_write := by
    intro o ho _
    cases o with
    | none => rfl
    | some x => simp [hread (ho x rfl)]

end Scalar

/-- A message in a field: one that comes again is merged into the first. -/
def message (S : Schema γ) : Cell (Option γ) where
  unset := none
  Valid o := ∀ m ∈ o, S.Valid m
  write o := (o.map fun m => .delimited (S.serialize m)).toList
  read o v :=
    match v with
    | .delimited s => (mergeFrom S.merge (o.getD S.empty) s).map some
    | _ => some o
  valid_unset := by simp
  valid_read := by
    intro o v o' ho h
    have hstart : S.Valid (o.getD S.empty) := by
      cases o with
      | none => exact S.valid_empty
      | some m => exact ho m rfl
    cases v with
    | delimited s =>
      obtain ⟨m, hm, rfl⟩ := Option.map_eq_some_iff.mp h
      obtain ⟨found, _, hfold⟩ := Option.bind_eq_some_iff.mp hm
      intro x hx
      obtain rfl := Option.some.inj hx
      exact S.valid_foldlM hstart hfold
    | varint _ | fixed64 _ | fixed32 _ =>
      obtain rfl := Option.some.inj h
      exact ho
  wellFormed := by
    intro o _ v hv
    obtain ⟨m, _, rfl⟩ := Option.map_eq_some_iff.mp (Option.mem_toList.mp hv)
    exact trivial
  read_write := by
    intro o ho hlen
    cases o with
    | none => rfl
    | some m =>
      have hparse := S.parse_serialize (ho m rfl) (hlen _ List.mem_cons_self)
      rw [Schema.parse] at hparse
      simp [hparse]

section Types

def bytes : Cell (Option (List UInt8)) :=
  optional (fun _ => True) .delimited (fun | .delimited s => some s | _ => none)
    (fun _ => trivial) (fun _ => trivial) (fun _ => rfl)

def uint32 : Cell (Option UInt32) :=
  optional (fun _ => True) (.varint ·.toNat) (fun | .varint n => some (UInt32.ofNat n) | _ => none)
    (fun _ => trivial) (fun {x} _ => Nat.lt_trans x.toNat_lt (by decide)) (fun _ => by simp)

def bool : Cell (Option Bool) :=
  optional (fun _ => True) (.varint ·.toNat)
    (fun | .varint n => some (n ≠ 0) | _ => none)
    (fun _ => trivial) (fun {x} _ => Nat.lt_of_le_of_lt x.toNat_le (by decide))
    (fun {x} _ => by cases x <;> rfl)

/-- A `std::string` is the string of the characters that its bytes stand for. -/
def ofText (s : String) : List UInt8 := s.toList.map fun c => UInt8.ofNat c.toNat

def toText (s : List UInt8) : String := .ofList (s.map fun b => Char.ofNat b.toNat)

def IsText (s : String) : Prop := ∀ c ∈ s.toList, c.toNat < 256

lemma toNat_ofNat_byte (b : UInt8) : (Char.ofNat b.toNat).toNat = b.toNat := by
  have hvalid : b.toNat.isValidChar := Or.inl (Nat.lt_trans b.toNat_lt (by decide))
  rw [Char.ofNat, dif_pos hvalid]
  rfl

lemma isText_toText (s : List UInt8) : IsText (toText s) := by
  intro c hc
  rw [toText, String.toList_ofList] at hc
  obtain ⟨b, _, rfl⟩ := List.mem_map.mp hc
  rw [toNat_ofNat_byte]
  exact b.toNat_lt

lemma toText_ofText {s : String} (hs : IsText s) : toText (ofText s) = s := by
  have hchar : ∀ c ∈ s.toList, Char.ofNat (UInt8.ofNat c.toNat).toNat = c := by
    intro c hc
    rw [toNat_byte (hs c hc), Char.ofNat_toNat]
  rw [toText, ofText, List.map_map]
  exact (congrArg String.ofList (List.map_congr_left hchar)).trans
    (by rw [List.map_id', String.ofList_toList])

def text : Cell (Option String) :=
  optional IsText (.delimited <| ofText ·) (fun | .delimited s => some (toText s) | _ => none)
    (fun {v x} h => by
      cases v with
      | delimited s =>
        obtain rfl := Option.some.inj h
        exact isText_toText s
      | varint _ | fixed64 _ | fixed32 _ => cases h)
    (fun _ => trivial) (fun hx => congrArg some (toText_ofText hx))

def IsSigned (half : ℕ) (x : ℤ) : Prop := -half ≤ x ∧ x < half

instance (half : ℕ) (x : ℤ) : Decidable (IsSigned half x) :=
  inferInstanceAs (Decidable (_ ∧ _))

lemma isSigned_bmod {half : ℕ} (hpos : 0 < half) (x : ℤ) : IsSigned half (x.bmod (2 * half)) := by
  have hlower := Int.le_bmod (x := x) (m := 2 * half) (by omega)
  have hupper := Int.bmod_lt (x := x) (m := 2 * half) (by omega)
  rw [IsSigned]
  omega

lemma bmod_residue {half : ℕ} (hdvd : 2 * half ∣ 2 ^ 64) {x : ℤ} (hx : IsSigned half x) :
    ((x % 2 ^ 64).toNat : ℤ).bmod (2 * half) = x := by
  have hdvd' : ((2 * half : ℕ) : ℤ) ∣ 2 ^ 64 := by exact_mod_cast hdvd
  obtain ⟨hlower, hupper⟩ := hx
  calc ((x % 2 ^ 64).toNat : ℤ).bmod (2 * half)
      = (x % 2 ^ 64).bmod (2 * half) := by rw [Int.toNat_of_nonneg (Int.emod_nonneg _ (by decide))]
    _ = (x % 2 ^ 64 % (2 * half : ℕ)).bmod (2 * half) := (Int.emod_bmod _ _).symm
    _ = x.bmod (2 * half) := by rw [Int.emod_emod_of_dvd _ hdvd', Int.emod_bmod]
    _ = x := Int.bmod_eq_of_le (by omega) (by omega)

/-- A negative number is written as its residue modulo `2 ^ 64`, whatever its width. -/
def signed (half : ℕ) (hpos : 0 < half) (hdvd : 2 * half ∣ 2 ^ 64) : Cell (Option ℤ) :=
  optional (IsSigned half) (fun x => .varint (x % 2 ^ 64).toNat)
    (fun | .varint n => some (Int.bmod n (2 * half)) | _ => none)
    (fun {v x} h => by
      cases v with
      | varint n =>
        obtain rfl := Option.some.inj h
        exact isSigned_bmod hpos _
      | fixed64 _ | delimited _ | fixed32 _ => cases h)
    (fun {x} _ => by
      have hlt := Int.emod_lt_of_pos x (show (0 : ℤ) < 2 ^ 64 by decide)
      rw [Value.WellFormed]
      omega)
    (fun hx => congrArg some (bmod_residue hdvd hx))

def int32 : Cell (Option ℤ) := signed (2 ^ 31) (by decide) (by decide)

def enum (number : γ → ℕ) (ofNumber : ℕ → Option γ) (hlt : ∀ x, number x < 2 ^ 31)
    (hof : ∀ x, ofNumber (number x) = some x) : Cell (Option γ) :=
  optional (fun _ => True) (.varint <| number ·)
    (fun | .varint n => ofNumber (n % 2 ^ 32) | _ => none)
    (fun _ => trivial) (fun {x} _ => Nat.lt_trans (hlt x) (by decide))
    (fun {x} _ => by
      have hx := hlt x
      simp only [Nat.mod_eq_of_lt (show number x < 2 ^ 32 by omega), hof])

end Types

end Cell

end P2PNet.Lib.Wire
