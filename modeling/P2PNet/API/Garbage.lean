import P2PNet.API.KeyForms
import P2PNet.API.UnixAPISocket

/-! Frames that hold no message. `handleReceive` ignores what `ParseFromArray`
returns, so the message it left is processed like any other, and one without a
type is a registration. `Ignored` lists, per type, when nothing comes of that. -/

namespace P2PNet.P2P.NodeManager

open Lib

variable {C : Crypto} {m m' : NodeManager C} {node : NodePtr}

structure Same (m m' : NodeManager C) : Prop where
  bound : ∀ sh, m'.nodesBound.find sh = m.nodesBound.find sh
  unbound : ∀ p, p ∈ m'.nodesUnbound ↔ p ∈ m.nodesUnbound
  heap : ∀ p, m'.heap.find p = m.heap.find p

lemma Same.refl (m : NodeManager C) : Same m m := ⟨fun _ => rfl, fun _ => .rfl, fun _ => rfl⟩

lemma find_assign_eq_iff {heap : StdMap NodePtr (Node C)} {object object' : Node C}
    (ho : heap.find node = some object) :
    (∀ p, (heap.assign node object').find p = heap.find p) ↔ object' = object := by
  constructor
  · intro h
    have hnode := h node
    rw [StdMap.find_assign, if_pos rfl, ho] at hnode
    exact Option.some.inj hnode
  · rintro rfl p
    rw [StdMap.find_assign]
    split
    · next hp => rw [hp, ho]
    · rfl

lemma same_createNode {address : NodePtr} {session : Option SessionPtr}
    (h : m.createNode address session = .ok m') : ¬ Same m m' := by
  obtain ⟨hfree, rfl⟩ := createNode_ok h
  intro hsame
  have haddress := hsame.heap address
  rw [hfree, StdMap.find_insert_self] at haddress
  cases haddress

lemma same_listen_iff {object : Node C} {count : UInt32} (ho : m.heap.find node = some object)
    (h : m.listen node count = .ok m') : Same m m' ↔ object.maxConnections = count := by
  obtain ⟨object', ho', rfl⟩ := listen_ok h
  obtain rfl := Option.some.inj (ho.symm.trans ho')
  have hobject : { object with maxConnections := count } = object ↔
      object.maxConnections = count := by
    constructor
    · intro heq
      exact (congrArg Node.maxConnections heq).symm
    · rintro rfl
      rfl
  rw [← hobject, ← find_assign_eq_iff ho]
  exact ⟨fun hsame => hsame.heap, fun hheap => ⟨fun _ => rfl, fun _ => .rfl, hheap⟩⟩

/-- The node has the key already, and is found under its hash. -/
structure HasKey (m : NodeManager C) (node : NodePtr) (key : C.PrivateKey) : Prop where
  taken : node ∉ m.nodesUnbound
  resolves : m.getBoundNode (C.serviceHash key) = some node
  private_key : m.boundPrivateKey node = some key
  local_sh : m.getLocalSH node = some (C.serviceHash key)

lemma HasKey.bind_returns {key : C.PrivateKey} (h : HasKey m node key) :
    ∃ m', m.bind node key = .ok m' := by
  obtain ⟨object, ho, _⟩ := Option.map_eq_some_iff.mp h.local_sh
  refine NodeManager.bind_returns (by simp [ho]) (Or.inr ?_)
  rw [h.resolves]
  rfl

lemma withKey_eq_iff {object : Node C} (ho : m.heap.find node = some object) (key : C.PrivateKey) :
    withKey object key = object ↔
      m.boundPrivateKey node = some key ∧ m.getLocalSH node = some (C.serviceHash key) := by
  rw [boundPrivateKey, getLocalSH, ho, Option.bind_some, Option.map_some, Option.some_inj]
  constructor
  · intro heq
    exact ⟨(congrArg Node.boundPrivateKey heq).symm, (congrArg Node.boundSh heq).symm⟩
  · rintro ⟨hkey, hsh⟩
    rw [withKey, ← hkey, ← hsh]

lemma same_bind_iff {key : C.PrivateKey} (h : m.bind node key = .ok m') :
    Same m m' ↔ HasKey m node key := by
  obtain ⟨object, _, ho, _⟩ := bind_ok h
  cases bind_cases ho key with
  | unbound hu hbind =>
    obtain rfl := Except.ok.inj (hbind.symm.trans h)
    constructor
    · intro hsame
      exact absurd rfl (mem_unbound_erase.mp ((hsame.unbound node).mpr hu)).1
    · intro hkey
      exact absurd hu hkey.taken
  | replaced q hu hq hbind =>
    obtain rfl := Except.ok.inj (hbind.symm.trans h)
    constructor
    · intro hsame
      have hresolves := hsame.bound (C.serviceHash key)
      rw [find_erase_insert, if_pos rfl] at hresolves
      obtain ⟨hkey, hsh⟩ := (withKey_eq_iff ho key).mp ((find_assign_eq_iff ho).mp hsame.heap)
      exact ⟨hu, hresolves.symm, hkey, hsh⟩
    · rintro ⟨_, hresolves, hkey, hsh⟩
      refine ⟨find_erase_insert_of_find hresolves, fun _ => .rfl, ?_⟩
      exact (find_assign_eq_iff ho).mpr ((withKey_eq_iff ho key).mpr ⟨hkey, hsh⟩)
  | thrown _ _ hbind =>
    rw [hbind] at h
    cases h

end P2PNet.P2P.NodeManager

namespace P2PNet.API

open Lib Lib.Runs P2P

instance : Inhabited APIMessage := ⟨{}⟩

namespace World

variable {C : Crypto} {self : SessionPtr} {env : Env C} {request : APIMessage} {w : World C}

structure Same (w w' : World C) : Prop where
  nodes : ∀ id, w'.session.nodes.find id = w.session.nodes.find id
  next : w'.session.nextNodeId = w.session.nextNodeId
  manager : w.manager.Same w'.manager

lemma Same.refl (w : World C) : Same w w := ⟨fun _ => rfl, rfl, .refl _⟩

/-- The request is served, and leaves the session and the database as they were. -/
def Unaffected (self : SessionPtr) (env : Env C) (request : APIMessage) (w : World C) : Prop :=
  ∃ w', w.process self env request = .ok w' ∧ w.Same w'

def Ignored (env : Env C) (request : APIMessage) (w : World C) : Prop :=
  match request.getType with
  | .nodeRegister => w.session.nextNodeId = 0
  | .nodeUnregister => w.session.nodes.find request.unregisterId = none
  | .nodeConnect | .nodeAccept => False
  | .nodeListen => ∀ entry, w.session.nodes.find request.listenId = some entry →
      ∃ object, w.manager.heap.find entry.node = some object ∧
        object.maxConnections = request.maxConnections
  | .nodeBind => ∀ entry, w.session.nodes.find request.bindId = some entry →
      suppliedKey env request = none ∨
        ∃ key, suppliedKey env request = some (some key) ∧ w.manager.HasKey entry.node key
  | .socketUnregister => True

lemma unaffected_of_eq (h : w.process self env request = .ok w) : Unaffected self env request w :=
  ⟨w, h, .refl w⟩

lemma not_unaffected_of_error {e : Escape × World C}
    (h : w.process self env request = .error e) : ¬ Unaffected self env request w := by
  rintro ⟨w', hw', _⟩
  rw [h] at hw'
  cases hw'

lemma unaffected_iff_of_ok {w' : World C} (h : w.process self env request = .ok w') :
    Unaffected self env request w ↔ w.Same w' := by
  constructor
  · rintro ⟨w₁, h₁, hsame⟩
    obtain rfl := Except.ok.inj (h.symm.trans h₁)
    exact hsame
  · exact fun hsame => ⟨w', h, hsame⟩

lemma same_iff_manager {m : NodeManager C} {sent : List APIMessage} :
    w.Same ⟨w.session, m, sent⟩ ↔ w.manager.Same m :=
  ⟨fun h => h.manager, fun h => ⟨fun _ => rfl, rfl, h⟩⟩

lemma unaffected_register_iff (ht : request.getType = .nodeRegister) :
    Unaffected self env request w ↔ w.session.nextNodeId = 0 := by
  by_cases hzero : w.session.nextNodeId = 0
  · have hp : w.process self env request = .ok w := by
      simp [process, ht, nodeRegister, hzero, remoteThrow]
    exact ⟨fun _ => hzero, fun _ => unaffected_of_eq hp⟩
  · refine ⟨?_, fun h => absurd h hzero⟩
    rintro ⟨w', hp, hsame⟩
    cases hm : w.manager.createNode env.address (some self) with
    | error e =>
      simp only [process, ht, nodeRegister, if_neg hzero, hm] at hp
      cases hp
    | ok m =>
      obtain rfl := Except.ok.inj ((process_register ht hzero hm).symm.trans hp)
      exact absurd hsame.manager (NodeManager.same_createNode hm)

lemma unaffected_unregister_iff (ht : request.getType = .nodeUnregister) :
    Unaffected self env request w ↔ w.session.nodes.find request.unregisterId = none := by
  cases he : w.session.nodes.find request.unregisterId with
  | none =>
    have hp : w.process self env request = .ok w := by
      simp [process, ht, nodeUnRegister, he, remoteThrow]
    exact ⟨fun _ => rfl, fun _ => unaffected_of_eq hp⟩
  | some entry =>
    refine ⟨?_, fun h => by cases h⟩
    rintro ⟨w', hp, hsame⟩
    cases hm : w.manager.destroyNode entry.node with
    | error e =>
      simp only [process, ht, nodeUnRegister, he, hm] at hp
      cases hp
    | ok m =>
      obtain rfl := Except.ok.inj ((process_unregister ht he hm).symm.trans hp)
      have hid := hsame.nodes request.unregisterId
      rw [APISession.unregister, StdMap.find_erase_self, he] at hid
      cases hid

lemma unaffected_listen_iff (ht : request.getType = .nodeListen) :
    Unaffected self env request w ↔
      ∀ entry, w.session.nodes.find request.listenId = some entry →
        ∃ object, w.manager.heap.find entry.node = some object ∧
          object.maxConnections = request.maxConnections := by
  cases he : w.session.nodes.find request.listenId with
  | none =>
    have hp : w.process self env request = .ok w := by
      simp [process, ht, nodeListen, he, remoteThrow]
    exact iff_of_true (unaffected_of_eq hp) (fun _ h => by cases h)
  | some entry =>
    simp only [Option.some.injEq, forall_eq']
    cases ho : w.manager.heap.find entry.node with
    | none =>
      have hp : w.process self env request = .error (.dangling, w) := by
        simp only [process, ht, nodeListen, he, NodeManager.listen, ho]
        rfl
      refine ⟨fun h => absurd h (not_unaffected_of_error hp), ?_⟩
      rintro ⟨_, h, _⟩
      cases h
    | some object =>
      obtain ⟨m, hm⟩ := NodeManager.listen_returns (m := w.manager) (p := entry.node) (by simp [ho])
        request.maxConnections
      rw [unaffected_iff_of_ok (process_listen ht he hm), same_iff_manager,
        NodeManager.same_listen_iff ho hm]
      simp

lemma unaffected_bind_iff (ht : request.getType = .nodeBind) :
    Unaffected self env request w ↔
      ∀ entry, w.session.nodes.find request.bindId = some entry →
        suppliedKey env request = none ∨
          ∃ key, suppliedKey env request = some (some key) ∧ w.manager.HasKey entry.node key := by
  cases he : w.session.nodes.find request.bindId with
  | none =>
    have hp : w.process self env request = .ok w := by
      simp [process, ht, nodeBind_eq, he, remoteThrow]
    exact iff_of_true (unaffected_of_eq hp) (fun _ h => by cases h)
  | some entry =>
    simp only [Option.some.injEq, forall_eq']
    cases hk : suppliedKey env request with
    | none =>
      rw [unaffected_iff_of_ok (process_keyless ht he hk), same_iff_manager]
      exact ⟨fun _ => Or.inl rfl, fun _ => .refl _⟩
    | some loaded =>
      cases loaded with
      | none =>
        have hp : w.process self env request = .error (.botan, w) := by
          simp only [process, ht, nodeBind_eq, he, hk]
          rfl
        exact ⟨fun h => absurd h (not_unaffected_of_error hp), by simp⟩
      | some key =>
        have hkey : (some (some key) = none ∨ ∃ key', some (some key) = some (some key') ∧
            w.manager.HasKey entry.node key') ↔ w.manager.HasKey entry.node key := by simp
        rw [hkey]
        cases hm : w.manager.bind entry.node key with
        | error e =>
          have hp : w.process self env request = .error (e.1, { w with manager := e.2 }) := by
            rw [process_bind_eq ht he hk, hm]
            rfl
          refine ⟨fun h => absurd h (not_unaffected_of_error hp), fun hhas => ?_⟩
          -- a node with the key is bound at the hash that is looked up, so nothing is thrown
          obtain ⟨m, hm'⟩ := hhas.bind_returns
          rw [hm] at hm'
          cases hm'
        | ok m =>
          rw [unaffected_iff_of_ok (process_bind ht he hk hm), same_iff_manager,
            NodeManager.same_bind_iff hm]

theorem unaffected_iff_ignored (self : SessionPtr) (env : Env C) (request : APIMessage)
    (w : World C) : Unaffected self env request w ↔ Ignored env request w := by
  rw [Ignored]
  split
  · next ht => exact unaffected_register_iff ht
  · next ht => exact unaffected_unregister_iff ht
  · next ht =>
    have hp : w.process self env request = .error (.terminate, w) := by
      simp [process, ht, nodeConnect]
    exact iff_of_false (not_unaffected_of_error hp) id
  · next ht =>
    have hp : w.process self env request = .error (.terminate, w) := by
      simp [process, ht, nodeAccept]
    exact iff_of_false (not_unaffected_of_error hp) id
  · next ht => exact unaffected_listen_iff ht
  · next ht => exact unaffected_bind_iff ht
  · next ht =>
    have hp : w.process self env request = .ok w := by simp [process, ht, socketUnRegister]
    exact iff_of_true (unaffected_of_eq hp) trivial

end World

/-- `ParseFromArray`: whether it succeeds, and the message as it leaves it. -/
abbrev Parser := Bytes → Bool × APIMessage

open UnixAPISocket in
/-- A frame is delivered without an error whether or not it parses, and its effect is that of the
message that the parser left. -/
theorem frame_ignored_iff (sender receiver : Lib.Words.Endian) (parser : Parser) {payload : Bytes}
    (hsize : payload.length < 2 ^ 32) (rest : Bytes) (ending : ℤ) (hending : ending ≠ 0) :
    ∃ d : Delivery APIMessage,
      receiveAll receiver (fun bytes => (parser bytes).2)
          ⟨generateSendString sender payload ++ rest, ending, hending⟩ =
        d :: receiveAll receiver (fun bytes => (parser bytes).2) ⟨rest, ending, hending⟩ ∧
      d.error = 0 ∧ d.message = (parser payload).2 ∧
      ∀ (C : Crypto) (self : SessionPtr) (env : Env C) (w : World C),
        (w.Unaffected self env d.message ↔ w.Ignored env d.message) ∧
        (d.message.type = none →
          (w.Unaffected self env d.message ↔ w.session.nextNodeId = 0)) := by
  refine ⟨⟨(parser payload).2, 0⟩, receiveAll_frame hsize, rfl, rfl, fun C self env w => ?_⟩
  refine ⟨World.unaffected_iff_ignored self env _ w, fun htype => ?_⟩
  apply World.unaffected_register_iff
  rw [APIMessage.getType, htype, Option.getD_none]

open UnixAPISocket in
/-- A frame that leaves a request to listen at an unknown node, and one that leaves no type. -/
theorem new_session_ignores_unknown_node :
    let listen : APIMessage := { type := some .nodeListen, nodeListen := some ⟨some 1, some 5⟩ }
    (∃ d : Delivery APIMessage,
      receiveAll .little (fun _ => listen) ⟨generateSendString .big [255] ++ [], 2, by decide⟩ =
        d :: receiveAll .little (fun _ => listen) ⟨[], 2, by decide⟩ ∧
      World.Unaffected 7 ⟨(), 3⟩ d.message (⟨.new, .new, []⟩ : World sampleCrypto)) ∧
    ∃ d : Delivery APIMessage, d.message = { messageToken := some 9 } ∧
      ¬World.Unaffected 7 ⟨(), 3⟩ d.message (⟨.new, .new, []⟩ : World sampleCrypto) := by
  intro listen
  have hsize : ([255] : Bytes).length < 2 ^ 32 := by decide
  constructor
  · obtain ⟨d, hd, -, hmessage, hall⟩ := frame_ignored_iff .big .little (fun _ => (false, listen))
      hsize [] 2 (by decide)
    refine ⟨d, hd, (hall sampleCrypto 7 ⟨(), 3⟩ _).1.mpr ?_⟩
    rw [hmessage]
    intro entry hentry
    cases (StdMap.find_empty _).symm.trans hentry
  · obtain ⟨d, -, -, hmessage, hall⟩ := frame_ignored_iff .big .little
      (fun _ => (false, { messageToken := some 9 })) hsize [] 2 (by decide)
    refine ⟨d, hmessage, fun h => ?_⟩
    have hfull := ((hall sampleCrypto 7 ⟨(), 3⟩ _).2 (by rw [hmessage])).mp h
    exact absurd hfull (by decide)

open UnixAPISocket in
/-- One byte that does not parse, on a new session. -/
theorem unparsed_frame_registers_node :
    ∃ w : World sampleCrypto,
      receiveAll .little (fun _ => (default : APIMessage)) ⟨[0, 0, 0, 1, 255], 2, by decide⟩ =
        [⟨default, 0⟩, ⟨default, 2⟩] ∧
      (⟨.new, .new, []⟩ : World sampleCrypto).process 7 ⟨(), 3⟩ default = .ok w ∧
      w.session.nodes.find 1 = some ⟨3, 1⟩ ∧ w.session.nextNodeId = 2 ∧
      3 ∈ w.manager.nodesUnbound := by
  refine ⟨_, by decide +kernel, rfl, by decide, by decide, by decide⟩

end P2PNet.API
