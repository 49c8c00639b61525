import P2PNet.API.Message
import P2PNet.P2P.NodeManager

/-! The request handlers of `api::APISession`. A handler works on its session,
on the one `NodeManager` of the daemon and on the list of messages handed to
`send`; `Env` is what the outside contributes to one request: the random
generator of Botan and the address that `new` returns. -/

namespace P2PNet.API

open Lib P2P

structure NodeT where
  node : NodePtr
  nextSocketId : UInt32
  deriving DecidableEq, Repr

structure APISession where
  nodes : StdMap UInt32 NodeT
  nextNodeId : UInt32

namespace APISession

def new : APISession := ⟨.empty, 1⟩

def advance : List UInt32 → UInt32 → UInt32
  | [], next => next
  | key :: rest, next =>
    if next ≠ 0 then
      if key ≤ next then advance rest (next + 1) else next
    else next

def register (s : APISession) (entry : NodeT) : APISession :=
  let nodeId := s.nextNodeId
  let nodes := s.nodes.insert nodeId entry
  ⟨nodes, advance (nodes.keysAfter nodeId) (nodeId + 1)⟩

def unregister (s : APISession) (nodeId : UInt32) : APISession :=
  ⟨s.nodes.erase nodeId,
    if s.nextNodeId > nodeId ∨ s.nextNodeId = 0 then nodeId else s.nextNodeId⟩

end APISession

structure Env (C : Crypto) where
  rng : C.Rng
  address : NodePtr

structure World (C : Crypto) where
  session : APISession
  manager : NodeManager C
  sent : List APIMessage

abbrev Handled (C : Crypto) := Except (Escape × World C) (World C)

namespace World

variable {C : Crypto}

def send (w : World C) (reply : APIMessage) : World C :=
  { w with sent := w.sent ++ [reply] }

/-- A call of the `NodeManager`: an exception leaves what the call had changed. -/
def call (w : World C) (outcome : Outcome (NodeManager C)) : Handled C :=
  match outcome with
  | .ok manager => .ok { w with manager := manager }
  | .error (escape, manager) => .error (escape, { w with manager := manager })

def errorReply (request : APIMessage) (error : P2PError) : APIMessage :=
  { error := some ⟨some error.value, some error.message, some P2PError.categoryName⟩
    type := some request.getType
    messageToken := some request.getMessageToken }

/-- The reply is built and goes nowhere. -/
def remoteThrow (w : World C) (request : APIMessage) (error : P2PError) : World C :=
  let _reply := errorReply request error
  w

def nodeRegister (self : SessionPtr) (env : Env C) (request : APIMessage) (w : World C) :
    Handled C :=
  if w.session.nextNodeId = 0 then .ok (w.remoteThrow request .tooManyNodes)
  else do
    let nodeId := w.session.nextNodeId
    let w ← w.call (w.manager.createNode env.address (some self))
    let messageReply := { request with
      nodeRegister := some { request.nodeRegister.getD {} with nodeId := some nodeId } }
    .ok { w.send messageReply with session := w.session.register ⟨env.address, 1⟩ }

def nodeUnRegister (request : APIMessage) (w : World C) : Handled C :=
  match w.session.nodes.find request.unregisterId with
  | none => .ok (w.remoteThrow request .nonexistentNode)
  | some entry => do
    let w ← w.call (w.manager.destroyNode entry.node)
    .ok ({ w with session := w.session.unregister request.unregisterId }.send request)

def nodeConnect (_request : APIMessage) (w : World C) : Handled C :=
  .error (.terminate, w)

def nodeAccept (_request : APIMessage) (w : World C) : Handled C :=
  .error (.terminate, w)

def nodeListen (request : APIMessage) (w : World C) : Handled C :=
  match w.session.nodes.find request.listenId with
  | none => .ok (w.remoteThrow request .nonexistentNode)
  | some entry => do
    let w ← w.call (w.manager.listen entry.node request.maxConnections)
    .ok (w.send request)

def bindKey (node : NodePtr) (key : Option C.PrivateKey) (w : World C) : Handled C :=
  match key with
  | none => .error (.botan, w)
  | some privateKey => w.call (w.manager.bind node privateKey)

def nodeBind (env : Env C) (request : APIMessage) (w : World C) : Handled C :=
  match w.session.nodes.find request.bindId with
  | none => .ok (w.remoteThrow request .nonexistentNode)
  | some entry => do
    let w ←
      match request.binaryPrivateKey, request.b58PrivateKey with
      | some key, _ => w.bindKey entry.node (C.fromBinaryString env.rng key)
      | none, some key => w.bindKey entry.node (C.fromBase58 env.rng key)
      | none, none => .ok w
    .ok (w.send request)

def socketUnRegister (_request : APIMessage) (w : World C) : Handled C :=
  .ok w

def process (self : SessionPtr) (env : Env C) (request : APIMessage) (w : World C) :
    Handled C :=
  match request.getType with
  | .nodeRegister => w.nodeRegister self env request
  | .nodeUnregister => w.nodeUnRegister request
  | .nodeConnect => w.nodeConnect request
  | .nodeAccept => w.nodeAccept request
  | .nodeListen => w.nodeListen request
  | .nodeBind => w.nodeBind env request
  | .socketUnregister => w.socketUnRegister request

end World

end P2PNet.API
