import P2PNet.Common.Crypto
import P2PNet.Common.Error
import P2PNet.Lib.StdMap
import P2PNet.Lib.Runs

/-! `p2p::Node` and the database of `p2p::NodeManager`. `heap` holds the `Node`
objects that exist, by address: `new` puts one there, `delete` takes it away,
and a call through the address of no object is an escape. -/

namespace P2PNet.P2P

open Lib

abbrev NodePtr := ℕ
abbrev SessionPtr := ℕ

structure Node (C : Crypto) where
  boundPrivateKey : Option C.PrivateKey
  boundSh : SH
  apiSession : Option SessionPtr
  maxConnections : UInt32

structure NodeManager (C : Crypto) where
  nodesBound : StdMap SH NodePtr
  nodesUnbound : Std.TreeSet NodePtr compare
  heap : StdMap NodePtr (Node C)

namespace NodeManager

variable {C : Crypto}

def new : NodeManager C := ⟨.empty, ∅, .empty⟩

def bindNode (m : NodeManager C) (node : NodePtr) (sh : SH) : Outcome (NodeManager C) :=
  if node ∈ m.nodesUnbound then
    .ok { m with
      nodesBound := m.nodesBound.insert sh node
      nodesUnbound := m.nodesUnbound.erase node }
  else
    match m.heap.find node with
    | none => .error (.dangling, m)
    | some object =>
      match m.nodesBound.find object.boundSh with
      | some _ => .ok { m with
          nodesBound := (m.nodesBound.erase object.boundSh).insert sh node }
      | none => .error (.systemError .nodemanagerDbNonConsistent, m)

def unbindNode (m : NodeManager C) (node : NodePtr) : Outcome (NodeManager C) :=
  match m.heap.find node with
  | none => .error (.dangling, m)
  | some object =>
    let sh := object.boundSh
    match m.nodesBound.find sh with
    | some _ => .ok { m with nodesBound := (m.nodesBound.erase sh).insert sh node }
    | none => .ok m

def createNode (m : NodeManager C) (address : NodePtr) (apiSession : Option SessionPtr) :
    Outcome (NodeManager C) :=
  match m.heap.find address with
  | some _ => .error (.disabled, m)
  | none => .ok { m with
      heap := m.heap.insert address ⟨none, [], apiSession, 0⟩
      nodesUnbound := m.nodesUnbound.insert address }

lemma createNode_returns {m : NodeManager C} {address : NodePtr}
    (h : m.heap.find address = none) (apiSession : Option SessionPtr) :
    ∃ m', m.createNode address apiSession = .ok m' := by
  simp [createNode, h]

def deleteNode (m : NodeManager C) (node : NodePtr) : Outcome (NodeManager C) :=
  match m.heap.find node with
  | none => .error (.dangling, m)
  | some _ => .ok { m with heap := m.heap.erase node }

def destroyNode (m : NodeManager C) (node : NodePtr) : Outcome (NodeManager C) :=
  if node ∈ m.nodesUnbound then
    deleteNode { m with nodesUnbound := m.nodesUnbound.erase node } node
  else
    match m.heap.find node with
    | none => .error (.dangling, m)
    | some object =>
      match m.nodesBound.find object.boundSh with
      | some _ => deleteNode { m with nodesBound := m.nodesBound.erase object.boundSh } node
      | none => .error (.systemError .nodemanagerDbNonConsistent, m)

def getBoundNode (m : NodeManager C) (sh : SH) : Option NodePtr :=
  m.nodesBound.find sh

/-- `Node::bind`: the two members are overwritten before the database is asked. -/
def bind (m : NodeManager C) (node : NodePtr) (privateKey : C.PrivateKey) :
    Outcome (NodeManager C) :=
  match m.heap.find node with
  | none => .error (.dangling, m)
  | some object =>
    let boundSh := C.serviceHash privateKey
    let object := { object with boundPrivateKey := some privateKey, boundSh := boundSh }
    bindNode { m with heap := m.heap.assign node object } node boundSh

def listen (m : NodeManager C) (node : NodePtr) (maxConnections : UInt32) :
    Outcome (NodeManager C) :=
  match m.heap.find node with
  | none => .error (.dangling, m)
  | some object =>
    .ok { m with heap := m.heap.assign node { object with maxConnections := maxConnections } }

end NodeManager

inductive Op (C : Crypto) where
  | create (address : NodePtr) (apiSession : Option SessionPtr)
  | bind (node : NodePtr) (privateKey : C.PrivateKey)
  | unbind (node : NodePtr)
  | destroy (node : NodePtr)

def NodeManager.step {C : Crypto} (m : NodeManager C) : Op C → Outcome (NodeManager C)
  | .create address apiSession => m.createNode address apiSession
  | .bind node privateKey => m.bind node privateKey
  | .unbind node => m.unbindNode node
  | .destroy node => m.destroyNode node

end P2PNet.P2P
