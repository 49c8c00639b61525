import P2PNet.Common.Crypto
import Mathlib.Data.List.Basic

/-! The queries of `dht::DHTService` between two services. What a call does is the
list of its `send` and `foundNode` calls; `getClosestTo` is that of the class
which implements the service. -/

namespace P2PNet.DHT

inductive DHTMessageType where
  | store
  | findNode
  | findValue
  | delete
  | findNodeReply
  | findValueReply
  deriving DecidableEq, Repr

structure DHTPart where
  ns : Option Bytes := none
  hash : Option Bytes := none
  messageType : Option DHTMessageType := none
  serializedContactList : List Bytes := []
  deriving DecidableEq, Repr

namespace DHTPart

def getHash (part : DHTPart) : Bytes := part.hash.getD []

def getMessageType (part : DHTPart) : DHTMessageType := part.messageType.getD .store

end DHTPart

def systemNs : Bytes := "system".toList.map (fun c => UInt8.ofNat c.toNat)

inductive Action where
  | send (dest : Hash) (part : DHTPart)
  | foundNode (serializedContact : Bytes)
  deriving DecidableEq, Repr

structure DHTService (ν : Type) where
  k : UInt16
  getClosestTo : Hash → Int16 → List ν
  getSerializedContact : ν → Bytes

namespace DHTService

variable {ν : Type}

def findAny (_s : DHTService ν) (findHash destHash : Hash) (action : DHTMessageType) :
    List Action :=
  [.send destHash { messageType := some action, hash := some findHash }]

def findNode (s : DHTService ν) (findHash destHash : Hash) : List Action :=
  s.findAny findHash destHash .findNode

def findValue (s : DHTService ν) (findHash destHash : Hash) : List Action :=
  s.findAny findHash destHash .findValue

def closestContacts (s : DHTService ν) (hash : Hash) : List Bytes :=
  (s.getClosestTo hash s.k.toInt16).map s.getSerializedContact

def process (s : DHTService ν) (source : Hash) (part : DHTPart) : List Action :=
  let messageType := part.getMessageType
  if messageType = .findNode ∨ messageType = .findValue then
    let queryHash : Hash := part.getHash
    let reply : DHTPart := { ns := some systemNs, hash := some part.getHash }
    -- the lookup of a value is a TODO, so none is ever found
    let reply := { reply with
      messageType := some (if messageType = .findNode then .findNodeReply else .findValueReply)
      serializedContactList := s.closestContacts queryHash }
    [.send source reply]
  else if messageType = .findNodeReply then part.serializedContactList.map .foundNode
  else []

inductive Query where
  | node
  | value
  deriving DecidableEq, Repr

def find (s : DHTService ν) : Query → Hash → Hash → List Action
  | .node => s.findNode
  | .value => s.findValue

/-- The responder replies once to the requester with the hash of the request, and the requester
learns the responder's contacts from that reply. -/
structure Agreed (requester responder : DHTService ν) (requesterHash responderHash : Hash)
    (request reply : DHTPart) : Prop where
  replied : responder.process requesterHash request = [.send requesterHash reply]
  echoed : reply.hash = request.hash
  learned : requester.process responderHash reply =
    (responder.closestContacts request.getHash).map .foundNode

def Query.request (findHash : Hash) : Query → DHTPart
  | .node => { messageType := some .findNode, hash := some findHash }
  | .value => { messageType := some .findValue, hash := some findHash }

def Query.replyType : Query → DHTMessageType
  | .node => .findNodeReply
  | .value => .findValueReply

def answer (s : DHTService ν) (query : Query) (findHash : Hash) : DHTPart :=
  { ns := some systemNs
    hash := some findHash
    messageType := some query.replyType
    serializedContactList := s.closestContacts findHash }

lemma find_eq (s : DHTService ν) (query : Query) (findHash destHash : Hash) :
    s.find query findHash destHash = [.send destHash (query.request findHash)] := by
  cases query <;> rfl

lemma process_request (s : DHTService ν) (query : Query) (findHash source : Hash) :
    s.process source (query.request findHash) = [.send source (s.answer query findHash)] := by
  cases query <;> rfl

lemma process_answer (s responder : DHTService ν) (query : Query) (findHash source : Hash) :
    s.process source (responder.answer query findHash) =
      if query = .node then (responder.closestContacts findHash).map .foundNode else [] := by
  cases query <;> rfl

theorem query_agreed_iff (requester responder : DHTService ν) (query : Query)
    (findHash requesterHash responderHash : Hash) :
    ∃ request, requester.find query findHash responderHash = [.send responderHash request] ∧
      (∃ reply, responder.process requesterHash request = [.send requesterHash reply] ∧
        reply.hash = request.hash) ∧
      ((∃ reply, Agreed requester responder requesterHash responderHash request reply) ↔
        query = .node ∨ responder.getClosestTo findHash responder.k.toInt16 = []) := by
  have hreply := process_request responder query findHash requesterHash
  have hhash : (query.request findHash).hash = some findHash := by cases query <;> rfl
  have hget : (query.request findHash).getHash = findHash := by cases query <;> rfl
  refine ⟨_, find_eq requester query findHash responderHash, ⟨_, hreply, hhash.symm⟩, ?_⟩
  constructor
  · rintro ⟨reply, hr, _, hl⟩
    rw [hreply] at hr
    obtain ⟨_, rfl⟩ := Action.send.inj (List.cons.inj hr).1
    rw [process_answer, hget] at hl
    split at hl
    · next hnode => exact Or.inl hnode
    · have hnil := List.map_eq_nil_iff.mp hl.symm
      exact Or.inr (List.map_eq_nil_iff.mp hnil)
  · intro h
    refine ⟨_, hreply, hhash.symm, ?_⟩
    rw [process_answer, hget]
    rcases h with rfl | hnil
    · rfl
    · simp [closestContacts, hnil]

def sampleService (closest : List ℕ) : DHTService ℕ where
  k := 20
  getClosestTo _ count := closest.take count.toNatClampNeg
  getSerializedContact n := [UInt8.ofNat n]

theorem value_query_contacts_lost :
    (sampleService []).find .value [9] [2] = [.send [2] (Query.value.request [9])] ∧
      (sampleService [5, 6]).closestContacts [9] = [[5], [6]] ∧
      ¬ ∃ reply, Agreed (sampleService []) (sampleService [5, 6]) [1] [2]
        (Query.value.request [9]) reply := by
  refine ⟨rfl, rfl, ?_⟩
  rintro ⟨reply, hr, _, hl⟩
  obtain ⟨_, rfl⟩ := Action.send.inj (List.cons.inj hr).1
  cases hl

end DHTService

end P2PNet.DHT
