import P2PNet.Overlay.Delivery
import P2PNet.Overlay.Wire

/-! The connection requests that `DiscoveryService` sends to the nodes it finds. They have no
body, which the schema requires, so no receiver parses them. -/

namespace P2PNet.Discovery

open Lib.Wire Overlay OverlayMessage

structure DiscoveryService (C : Crypto) where
  overlaySocket : Overlay.Socket C

namespace DiscoveryService

variable {C : Crypto}

def generateConnectionRequest (d : DiscoveryService C) : Except Escape OverlayMessage := do
  let keyInfo ← d.overlaySocket.keyProvider.current
  .ok { header := some { srcTh := some keyInfo.th } }

/-- What the callback of `handshake` sends when the transport has connected. -/
def handshakeConnected (d : DiscoveryService C) (error : ℤ) : Except Escape (Option Bytes) :=
  if error = 0 then do
    let message ← d.generateConnectionRequest
    .ok (some message.serializeAsString)
  else .ok none

lemma length_th {keys : KeyProvider C} {info : KeyInfo C} (hk : keys.current = .ok info) :
    info.th.length = 28 := by
  obtain ⟨key, _, _, hth⟩ := keys.derived info (KeyProvider.mem_of_current hk)
  rw [hth]
  exact C.keccak_length _

lemma serialize_request {th : TH} (hth : th.length = 28) :
    serializeAsString { header := some { srcTh := some th } } = [10, 30, 10, 28] ++ th := by
  have hheader : encode (Header.fields { srcTh := some th }) = [10, 28] ++ th := by
    change encode [⟨1, .delimited th⟩] = _
    rw [encode_delimited, hth, varint_of_lt (by decide), varint_of_lt (by decide)]
    rfl
  change encode [⟨1, .delimited (encode (Header.fields { srcTh := some th }))⟩] = _
  rw [encode_delimited, hheader, List.length_append, hth, varint_of_lt (by decide),
    varint_of_lt (by decide)]
  rfl

lemma parse_request {th : TH} (hth : th.length = 28) :
    parseFromString (serializeAsString { header := some { srcTh := some th } }) = none := by
  rw [parse_serialize]
  · rfl
  · rw [serialize_request hth, List.length_append, hth]
    decide

section Receiver

variable {s : Overlay.Socket C} {own : KeyInfo C}

/-- A request with a body would come to `processRequest` if the body is complete. -/
lemma handlerOf_request_iff (hs : s.keyProvider.current = .ok own) {th : TH} {body : Body}
    (hlen : (serializeAsString ⟨some { srcTh := some th }, some body⟩).length < 2 ^ 31) :
    s.handlerOf (serializeAsString ⟨some { srcTh := some th }, some body⟩) = .ok (some .request) ↔
      body.isInitialized = true := by
  rw [Overlay.Socket.handlerOf, parse_serialize hlen, transmitted]
  have hinit : isInitialized ⟨some { srcTh := some th }, some body⟩ = body.isInitialized := rfl
  rw [hinit]
  by_cases hbody : body.isInitialized = true
  · have hdispatch : s.dispatch { srcTh := some th } = .ok .request :=
      Overlay.Socket.dispatch_of_none hs rfl
    simp [hbody, getHeader, hdispatch, bind, Except.bind]
  · simp [hbody]

theorem request_never_understood (d : DiscoveryService C) {info : KeyInfo C}
    (hk : d.overlaySocket.keyProvider.current = .ok info) (s : Overlay.Socket C) (env : Env C)
    (origin : TransportPtr) :
    ∃ request, d.generateConnectionRequest = .ok request ∧
      d.handshakeConnected 0 = .ok (some request.serializeAsString) ∧
      parseFromString request.serializeAsString = none ∧
      s.handlerOf request.serializeAsString = .ok none ∧
      s.processString env origin request.serializeAsString = .ok s ∧
      ∀ own body, s.keyProvider.current = .ok own →
        (serializeAsString { request with body := some body }).length < 2 ^ 31 →
        (s.handlerOf (serializeAsString { request with body := some body }) =
          .ok (some .request) ↔ body.isInitialized = true) := by
  have hrequest : d.generateConnectionRequest =
      .ok { header := some { srcTh := some info.th } } := by
    rw [generateConnectionRequest, hk]
    rfl
  have hparse := parse_request (length_th hk)
  obtain ⟨hhandler, hprocess⟩ := Overlay.Socket.handlerOf_eq_none (s := s) hparse env origin
  refine ⟨_, hrequest, ?_, hparse, hhandler, hprocess, ?_⟩
  · rw [handshakeConnected, hrequest]
    rfl
  · exact fun own body hs hlen => handlerOf_request_iff hs hlen

end Receiver

theorem sample_request_never_understood :
    ∃ request, generateConnectionRequest ⟨Overlay.Socket.sampleSocket⟩ = .ok request ∧
      Overlay.Socket.sampleSocket.handlerOf request.serializeAsString = .ok none := by
  have hk : Overlay.Socket.sampleSocket.keyProvider.current = .ok _ := rfl
  obtain ⟨request, hrequest, _, _, hhandler, _⟩ := request_never_understood
    ⟨Overlay.Socket.sampleSocket⟩ hk Overlay.Socket.sampleSocket Overlay.Socket.sampleEnv 3
  exact ⟨request, hrequest, hhandler⟩

theorem request_without_body_dropped :
    ∃ request, generateConnectionRequest ⟨Overlay.Socket.sampleSocket⟩ = .ok request ∧
      request.serializeAsString = [10, 30, 10, 28] ++ sampleCrypto.serviceHash (1 : ℕ) ∧
      parseFromString request.serializeAsString = none ∧
      ∀ (s : Overlay.Socket sampleCrypto) env origin,
        s.handlerOf request.serializeAsString = .ok none ∧
        s.processString env origin request.serializeAsString = .ok s := by
  have hlength : (sampleCrypto.serviceHash (1 : ℕ)).length = 28 := sampleCrypto.keccak_length _
  have hparse := parse_request hlength
  exact ⟨_, rfl, serialize_request hlength, hparse,
    fun _ env origin => Overlay.Socket.handlerOf_eq_none hparse env origin⟩

end DiscoveryService

end P2PNet.Discovery
