import P2PNet.Lib.Wire
import P2PNet.Overlay.Socket

/-! `OverlayMessage` on the wire: `SerializeAsString` and `ParseFromString` as protobuf
generates them from the schema. What is parsed from the string of a message is the message,
unless a required field is missing. -/

namespace P2PNet.Overlay

open Lib Lib.Wire

def MessagePriority.number : MessagePriority → ℕ
  | realtime => 0
  | reliable => 1

def MessagePriority.ofNumber (n : ℕ) : Option MessagePriority :=
  if n = 0 then some realtime else if n = 1 then some reliable else none

namespace OverlayMessage

section Serialization

def Header.fields (h : Header) : List Field :=
  optionalField 1 .delimited h.srcTh ++ optionalField 2 .delimited h.destTh ++
    optionalField 3 (.varint ·.number) h.prio

def Payload.fields (p : Payload) : List Field :=
  optionalField 1 (.varint ·.toNat) p.type ++ optionalField 2 .delimited p.content

def MultiPayload.fields (m : MultiPayload) : List Field :=
  m.payload.map fun p => ⟨1, .delimited (encode p.fields)⟩

def Body.fields (b : Body) : List Field :=
  optionalField 1 (.delimited <| encode ·.fields) b.openMultipayload ++
    optionalField 2 .delimited b.encryptedMultipayload

def fields (m : OverlayMessage) : List Field :=
  optionalField 1 (.delimited <| encode ·.fields) m.header ++
    optionalField 2 (.delimited <| encode ·.fields) m.body

def serializeAsString (m : OverlayMessage) : Bytes := encode m.fields

end Serialization

section Parsing

/-! A field that the schema does not have, or that comes with another type, is ignored; of a
field that comes twice the last value is kept, and messages are merged. -/

def Header.merge (h : Header) (f : Field) : Option Header :=
  match f with
  | ⟨1, .delimited s⟩ => some { h with srcTh := some s }
  | ⟨2, .delimited s⟩ => some { h with destTh := some s }
  | ⟨3, .varint n⟩ =>
    match MessagePriority.ofNumber (n % 2 ^ 32) with
    | some prio => some { h with prio := some prio }
    | none => some h
  | _ => some h

def Payload.merge (p : Payload) (f : Field) : Option Payload :=
  match f with
  | ⟨1, .varint n⟩ => some { p with type := some (UInt32.ofNat n) }
  | ⟨2, .delimited s⟩ => some { p with content := some s }
  | _ => some p

def MultiPayload.merge (m : MultiPayload) (f : Field) : Option MultiPayload :=
  match f with
  | ⟨1, .delimited s⟩ => do
    let p ← mergeFrom Payload.merge {} s
    some ⟨m.payload ++ [p]⟩
  | _ => some m

def Body.merge (b : Body) (f : Field) : Option Body :=
  match f with
  | ⟨1, .delimited s⟩ => do
    let m ← mergeFrom MultiPayload.merge (b.openMultipayload.getD {}) s
    some { b with openMultipayload := some m }
  | ⟨2, .delimited s⟩ => some { b with encryptedMultipayload := some s }
  | _ => some b

def merge (m : OverlayMessage) (f : Field) : Option OverlayMessage :=
  match f with
  | ⟨1, .delimited s⟩ => do
    let h ← mergeFrom Header.merge (m.header.getD {}) s
    some { m with header := some h }
  | ⟨2, .delimited s⟩ => do
    let b ← mergeFrom Body.merge (m.body.getD {}) s
    some { m with body := some b }
  | _ => some m

def parseFromString (data : Bytes) : Option OverlayMessage := do
  let m ← mergeFrom merge {} data
  if m.isInitialized then some m else none

end Parsing

section RoundTrip

lemma Header.wellFormed (h : Header) : ∀ f ∈ h.fields, f.WellFormed := by
  have hprio (prio : MessagePriority) : (Value.varint prio.number).WellFormed := by
    rw [Value.WellFormed]
    cases prio <;> decide
  rw [fields, List.forall_mem_append, List.forall_mem_append]
  refine ⟨⟨?_, ?_⟩, ?_⟩
  · exact wellFormed_of_mem_optionalField (by decide) (by decide) fun _ => trivial
  · exact wellFormed_of_mem_optionalField (by decide) (by decide) fun _ => trivial
  · exact wellFormed_of_mem_optionalField (by decide) (by decide) hprio

lemma Payload.wellFormed (p : Payload) : ∀ f ∈ p.fields, f.WellFormed := by
  have htype (type : UInt32) : (Value.varint type.toNat).WellFormed :=
    Nat.lt_trans type.toNat_lt (by decide)
  rw [fields, List.forall_mem_append]
  refine ⟨?_, ?_⟩
  · exact wellFormed_of_mem_optionalField (by decide) (by decide) htype
  · exact wellFormed_of_mem_optionalField (by decide) (by decide) fun _ => trivial

lemma MultiPayload.wellFormed (m : MultiPayload) : ∀ f ∈ m.fields, f.WellFormed := by
  intro f hf
  obtain ⟨p, _, rfl⟩ := List.mem_map.mp hf
  exact ⟨Nat.zero_lt_one, Nat.one_lt_two_pow (by decide), trivial⟩

lemma Body.wellFormed (b : Body) : ∀ f ∈ b.fields, f.WellFormed := by
  rw [fields, List.forall_mem_append]
  refine ⟨?_, ?_⟩
  · exact wellFormed_of_mem_optionalField (by decide) (by decide) fun _ => trivial
  · exact wellFormed_of_mem_optionalField (by decide) (by decide) fun _ => trivial

lemma wellFormed (m : OverlayMessage) : ∀ f ∈ m.fields, f.WellFormed := by
  rw [fields, List.forall_mem_append]
  refine ⟨?_, ?_⟩
  · exact wellFormed_of_mem_optionalField (by decide) (by decide) fun _ => trivial
  · exact wellFormed_of_mem_optionalField (by decide) (by decide) fun _ => trivial

lemma Header.mergeFrom_fields {h : Header} (hlen : (encode h.fields).length < 2 ^ 31) :
    mergeFrom Header.merge {} (encode h.fields) = some h := by
  rw [mergeFrom_encode _ h.wellFormed hlen]
  obtain ⟨srcTh, destTh, prio⟩ := h
  rcases srcTh with _ | srcTh <;> rcases destTh with _ | destTh <;>
    rcases prio with _ | _ | _ <;> rfl

lemma Payload.mergeFrom_fields {p : Payload} (hlen : (encode p.fields).length < 2 ^ 31) :
    mergeFrom Payload.merge {} (encode p.fields) = some p := by
  rw [mergeFrom_encode _ p.wellFormed hlen]
  obtain ⟨type, content⟩ := p
  rcases type with _ | type <;> rcases content with _ | content <;>
    simp [fields, optionalField, merge]

lemma MultiPayload.foldlM_merge {payload : List Payload}
    (hlen : ∀ p ∈ payload, (encode p.fields).length < 2 ^ 31) (m : MultiPayload) :
    (MultiPayload.fields ⟨payload⟩).foldlM MultiPayload.merge m =
      some ⟨m.payload ++ payload⟩ := by
  induction payload generalizing m with
  | nil => simp [fields]
  | cons p payload ih =>
    have hrest := ih (fun q hq => hlen q (List.mem_cons_of_mem _ hq)) ⟨m.payload ++ [p]⟩
    rw [fields, List.map_cons, List.foldlM_cons, merge,
      Payload.mergeFrom_fields (hlen p List.mem_cons_self)]
    rw [List.append_assoc, List.singleton_append] at hrest
    exact hrest

lemma MultiPayload.mergeFrom_fields {m : MultiPayload}
    (hlen : (encode m.fields).length < 2 ^ 31) :
    mergeFrom MultiPayload.merge {} (encode m.fields) = some m := by
  rw [mergeFrom_encode _ m.wellFormed hlen]
  refine MultiPayload.foldlM_merge (fun p hp => ?_) {}
  have hmem : ⟨1, .delimited (encode p.fields)⟩ ∈ m.fields := List.mem_map.mpr ⟨p, hp, rfl⟩
  exact Nat.lt_of_le_of_lt (length_le_of_mem hmem) hlen

lemma Body.mergeFrom_fields {b : Body} (hlen : (encode b.fields).length < 2 ^ 31) :
    mergeFrom Body.merge {} (encode b.fields) = some b := by
  rw [mergeFrom_encode _ b.wellFormed hlen]
  obtain ⟨openMultipayload, encryptedMultipayload⟩ := b
  cases openMultipayload with
  | none => cases encryptedMultipayload <;> rfl
  | some m =>
    have hm : (encode m.fields).length < 2 ^ 31 :=
      Nat.lt_of_le_of_lt (length_le_of_mem List.mem_cons_self) hlen
    cases encryptedMultipayload <;>
      simp [fields, optionalField, merge, MultiPayload.mergeFrom_fields hm]

lemma mergeFrom_fields {m : OverlayMessage} (hlen : m.serializeAsString.length < 2 ^ 31) :
    mergeFrom merge {} m.serializeAsString = some m := by
  rw [serializeAsString, mergeFrom_encode _ m.wellFormed hlen]
  have hnested {number : ℕ} {s : Bytes} (hs : ⟨number, .delimited s⟩ ∈ m.fields) :
      s.length < 2 ^ 31 :=
    Nat.lt_of_le_of_lt (length_le_of_mem hs) hlen
  obtain ⟨header, body⟩ := m
  cases header with
  | none =>
    cases body with
    | none => rfl
    | some b =>
      have hb := Body.mergeFrom_fields (hnested List.mem_cons_self)
      simp [fields, optionalField, merge, hb]
  | some h =>
    have hh := Header.mergeFrom_fields (hnested List.mem_cons_self)
    cases body with
    | none => simp [fields, optionalField, merge, hh]
    | some b =>
      have hb := Body.mergeFrom_fields (hnested (List.mem_cons_of_mem _ List.mem_cons_self))
      simp [fields, optionalField, merge, hh, hb]

/-- protobuf limits the size of a message to two gigabytes. -/
theorem parse_serialize {m : OverlayMessage} (hlen : m.serializeAsString.length < 2 ^ 31) :
    parseFromString m.serializeAsString = m.transmitted := by
  rw [parseFromString, mergeFrom_fields hlen]
  rfl

end RoundTrip

end OverlayMessage

namespace Socket

variable {C : Crypto} {s : Socket C} {data : Bytes}

def processString (s : Socket C) (env : Env C) (origin : TransportPtr) (data : Bytes) :
    Outcome (Socket C) :=
  s.process env origin (OverlayMessage.parseFromString data)

/-- The handler that `process` comes to, if the string is parsed. -/
def handlerOf (s : Socket C) (data : Bytes) : Except Escape (Option Handler) :=
  match OverlayMessage.parseFromString data with
  | none => .ok none
  | some message => do
    let handler ← s.dispatch message.getHeader
    .ok (some handler)

lemma handlerOf_eq_none (h : OverlayMessage.parseFromString data = none) (env : Env C)
    (origin : TransportPtr) :
    s.handlerOf data = .ok none ∧ s.processString env origin data = .ok s := by
  rw [handlerOf, processString, h]
  exact ⟨rfl, rfl⟩

end Socket

end P2PNet.Overlay
