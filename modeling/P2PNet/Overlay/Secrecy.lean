import P2PNet.Overlay.Socket

/-! What unencrypted payloads can reach. Each payload carries through `process`
the mark of the list it came from, and a processor that insists on encryption is
called only with marked ones. -/

namespace P2PNet.Overlay.Connection

open OverlayMessage

variable {C : Crypto}

def mandatoryCall : Action → Option (Processor × Payload)
  | .process processor payload =>
    if processor.isEncryptionMandatory then some (processor, payload) else none
  | _ => none

def mandatoryCalls (actions : List Action) : List (Processor × Payload) :=
  actions.filterMap mandatoryCall

/-- The calls that `process` makes for one marked payload. -/
def fire (processors : UInt32 → List Processor) (marked : Payload × Bool) : List Action :=
  ((processors (marked.1.type.getD 0)).filter
    (fun p => !(p.isEncryptionMandatory && !marked.2))).map (.process · marked.1)

def decrypted (env : Env C) (body : Body) : List Payload :=
  (env.parseMulti (env.decrypt (body.encryptedMultipayload.getD []))).payload

lemma mandatoryCalls_fire_open (processors : UInt32 → List Processor) (payload : Payload) :
    mandatoryCalls (fire processors (payload, false)) = [] := by
  apply List.filterMap_eq_nil_iff.mpr
  intro action haction
  obtain ⟨processor, hp, rfl⟩ := List.mem_map.mp haction
  have hopen := (List.mem_filter.mp hp).2
  simp_all [mandatoryCall]

lemma payload_of_mem_fire {processors : UInt32 → List Processor} {marked : Payload × Bool}
    {call : Processor × Payload} (h : call ∈ mandatoryCalls (fire processors marked)) :
    call.2 = marked.1 := by
  obtain ⟨action, haction, hcall⟩ := List.mem_filterMap.mp h
  obtain ⟨processor, _, rfl⟩ := List.mem_map.mp haction
  simp only [mandatoryCall] at hcall
  split at hcall
  · rw [← Option.some.inj hcall]
  · cases hcall

lemma connected_updateTransport (c : Connection C) (tconn : TransportPtr) (verified : Bool) :
    (c.updateTransport tconn verified).connected = c.connected := by
  simp only [updateTransport]
  split
  · next hsearching => simp_all [connected, setState]
  · rfl

lemma mandatoryCalls_flatMap {α : Type} (xs : List α) (f : α → List Action) :
    mandatoryCalls (xs.flatMap f) = xs.flatMap (fun x => mandatoryCalls (f x)) := by
  rw [mandatoryCalls, List.filterMap_flatMap]
  rfl

lemma mandatoryCalls_append (xs ys : List Action) :
    mandatoryCalls (xs ++ ys) = mandatoryCalls xs ++ mandatoryCalls ys :=
  List.filterMap_append

lemma mandatoryCalls_process (processors : UInt32 → List Processor) (env : Env C)
    (origin : TransportPtr) (header : Header) (body : Body) (c : Connection C) :
    mandatoryCalls (c.process processors env origin header body).2 =
      if Hash.isPresent (header.destTh.getD []) && c.connected then
        (decrypted env body).flatMap
          (fun payload => mandatoryCalls (fire processors (payload, true)))
      else [] := by
  have hconnected := connected_updateTransport c origin false
  cases hdest : Hash.isPresent (header.destTh.getD []) with
  | false => simp [process, hdest, mandatoryCalls]
  | true =>
    have hactions : (c.process processors env origin header body).2 =
        ((c.updateTransport origin false).payloads env body).flatMap (fire processors) := by
      simp only [process, hdest, if_true]
      rfl
    have hopen : ∀ payloads : List Payload,
        mandatoryCalls ((payloads.map (·, false)).flatMap (fire processors)) = [] := by
      intro payloads
      rw [mandatoryCalls_flatMap, List.flatMap_eq_nil_iff]
      intro marked hmarked
      obtain ⟨payload, _, rfl⟩ := List.mem_map.mp hmarked
      exact mandatoryCalls_fire_open processors payload
    rw [hactions, payloads, List.flatMap_append, mandatoryCalls_append, hopen, List.nil_append,
      hconnected, Bool.true_and]
    cases c.connected with
    | false => rfl
    | true =>
      rw [if_pos rfl, if_pos rfl, List.flatMap_map, mandatoryCalls_flatMap]
      rfl

theorem open_payloads_not_seen (s : Socket C) (env : Env C) (origin : TransportPtr)
    (header : Header) (c : Connection C) (body₁ body₂ : Body)
    (h : body₁.encryptedMultipayload = body₂.encryptedMultipayload) :
    let calls := fun body => mandatoryCalls (c.process s.getProcessors env origin header body).2
    calls body₁ = calls body₂ ∧ (∀ call ∈ calls body₁, call.2 ∈ decrypted env body₁) ∧
      (c.connected = false → calls body₁ = []) := by
  simp only [mandatoryCalls_process]
  have hsame : decrypted env body₁ = decrypted env body₂ := by rw [decrypted, decrypted, h]
  refine ⟨by rw [hsame], ?_, ?_⟩
  · intro call hcall
    split at hcall
    · obtain ⟨payload, hp, hc⟩ := List.mem_flatMap.mp hcall
      rw [payload_of_mem_fire hc]
      exact hp
    · cases hcall
  · intro hclosed
    rw [hclosed, Bool.and_false]
    rfl

theorem open_payloads_not_seen_established :
    let s : Socket sampleCrypto := .new Socket.sampleKeys [(7, ⟨0, true⟩), (7, ⟨1, false⟩)]
    let env := { Socket.sampleEnv with parseMulti := fun _ => ⟨[⟨some 7, some [2]⟩]⟩ }
    let c : Connection sampleCrypto := { Connection.new [3] with state := .established }
    let calls := fun payloads => mandatoryCalls
      (c.process s.getProcessors env 4 { destTh := some [5] } ⟨some ⟨payloads⟩, some [6]⟩).2
    calls [⟨some 7, some [8]⟩] = [(⟨0, true⟩, ⟨some 7, some [2]⟩)] ∧
      calls [⟨some 7, some [8]⟩] = calls [] := by
  intro s env c calls
  exact ⟨rfl, (open_payloads_not_seen s env 4 { destTh := some [5] } c
    ⟨some ⟨[⟨some 7, some [8]⟩]⟩, some [6]⟩ ⟨some ⟨[]⟩, some [6]⟩ rfl).1⟩

end P2PNet.Overlay.Connection
