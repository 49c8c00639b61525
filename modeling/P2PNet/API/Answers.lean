import P2PNet.API.Daemon

/-! Which requests are answered. A rejected request gets no reply, two handlers
end the daemon and one does nothing; what is left are the requests that succeed. -/

namespace P2PNet.API

open Lib Lib.Runs P2P

namespace World

variable {C : Crypto} {self : SessionPtr} {env : Env C} {request : APIMessage} {w w' : World C}

/-- The requests to be turned down: no free id, an unknown node, a bind that fails. -/
def Rejected (env : Env C) (request : APIMessage) (w : World C) : Prop :=
  match request.getType with
  | .nodeRegister => w.session.nextNodeId = 0
  | .nodeUnregister => w.session.nodes.find request.unregisterId = none
  | .nodeConnect => w.session.nodes.find request.connectId = none
  | .nodeAccept => w.session.nodes.find request.acceptId = none
  | .nodeListen => w.session.nodes.find request.listenId = none
  | .nodeBind => ∀ entry, w.session.nodes.find request.bindId = some entry →
      ∃ key escape, suppliedKey env request = some key ∧ w.bindKey entry.node key = .error escape
  | .socketUnregister => w.session.nodes.find request.socketNodeId = none

structure Reply (env : Env C) (request : APIMessage) (w w' : World C) (reply : APIMessage) :
    Prop where
  sent : w'.sent = w.sent ++ [reply]
  type : reply.getType = request.getType
  messageToken : reply.getMessageToken = request.getMessageToken
  error : reply.error.isSome ↔ Rejected env request w
  unchanged : Rejected env request w → w'.session = w.session

def Answered (self : SessionPtr) (env : Env C) (request : APIMessage) (w : World C) : Prop :=
  ∃ w' reply, w.process self env request = .ok w' ∧ Reply env request w w' reply

def Served (env : Env C) (request : APIMessage) (w : World C) : Prop :=
  request.error.isSome = false ∧
  match request.getType with
  | .nodeRegister => w.session.nextNodeId ≠ 0
  | .nodeUnregister => ∃ entry object, w.session.nodes.find request.unregisterId = some entry ∧
      w.manager.heap.find entry.node = some object ∧
      (entry.node ∈ w.manager.nodesUnbound ∨ (w.manager.getBoundNode object.boundSh).isSome)
  | .nodeListen => (w.session.nodes.find request.listenId).isSome
  | .nodeBind => ∃ entry, w.session.nodes.find request.bindId = some entry ∧
      match suppliedKey env request with
      | none => True
      | some none => False
      | some (some key) => entry.node ∈ w.manager.nodesUnbound ∨
          (w.manager.getBoundNode (C.serviceHash key)).isSome
  | .nodeConnect | .nodeAccept | .socketUnregister => False

lemma not_rejected_of_effect (h : Effect self env request w w') (hsent : w'.sent ≠ w.sent) :
    ¬ Rejected env request w := by
  rw [Rejected]
  cases h with
  | nothing => exact absurd rfl hsent
  | register _ ht hz _ _ => simpa only [ht] using hz
  | unregister entry ht he _ => simp [ht, he]
  | listen entry ht he _ => simp [ht, he]
  | bind entry key ht he hk hm =>
    simp only [ht]
    intro hrej
    obtain ⟨key', escape, hk', herr⟩ := hrej entry he
    rw [hk] at hk'
    obtain rfl := Option.some.inj hk'
    simp [bindKey, hm, call] at herr
  | keyless entry ht he hk =>
    simp only [ht]
    intro hrej
    obtain ⟨key', escape, hk', _⟩ := hrej entry he
    rw [hk] at hk'
    cases hk'

lemma reply_of_effect (h : Effect self env request w w') (hsent : w'.sent ≠ w.sent)
    (herror : request.error.isSome = false) : ∃ reply, Reply env request w w' reply := by
  have hrej := not_rejected_of_effect h hsent
  have hiff : request.error.isSome ↔ Rejected env request w := by simp [herror, hrej]
  have hunchanged : Rejected env request w → w'.session = w.session := fun hr => absurd hr hrej
  cases h with
  | nothing => exact absurd rfl hsent
  | register reply _ _ _ hreply =>
    subst hreply
    exact ⟨_, rfl, rfl, rfl, hiff, hunchanged⟩
  | unregister entry _ _ _ => exact ⟨request, rfl, rfl, rfl, hiff, hunchanged⟩
  | listen entry _ _ _ => exact ⟨request, rfl, rfl, rfl, hiff, hunchanged⟩
  | bind entry key _ _ _ _ => exact ⟨request, rfl, rfl, rfl, hiff, hunchanged⟩
  | keyless entry _ _ _ => exact ⟨request, rfl, rfl, rfl, hiff, hunchanged⟩

lemma answered_of_process (h : w.process self env request = .ok w') (hsent : w'.sent ≠ w.sent)
    (herror : request.error.isSome = false) : Answered self env request w := by
  obtain ⟨reply, hr⟩ := reply_of_effect (process_ok h) hsent herror
  exact ⟨w', reply, h, hr⟩

/-- The handler comes to `send`: the calls that it makes before return. -/
def Sends (env : Env C) (request : APIMessage) (w : World C) : Prop :=
  match request.getType with
  | .nodeRegister => w.session.nextNodeId ≠ 0 ∧ w.manager.heap.find env.address = none
  | .nodeUnregister => ∃ entry object, w.session.nodes.find request.unregisterId = some entry ∧
      w.manager.heap.find entry.node = some object ∧
      (entry.node ∈ w.manager.nodesUnbound ∨ (w.manager.getBoundNode object.boundSh).isSome)
  | .nodeListen => ∃ entry, w.session.nodes.find request.listenId = some entry ∧
      (w.manager.heap.find entry.node).isSome
  | .nodeBind => ∃ entry, w.session.nodes.find request.bindId = some entry ∧
      match suppliedKey env request with
      | none => True
      | some none => False
      | some (some key) => (w.manager.heap.find entry.node).isSome ∧
          (entry.node ∈ w.manager.nodesUnbound ∨
            (w.manager.getBoundNode (C.serviceHash key)).isSome)
  | .nodeConnect | .nodeAccept | .socketUnregister => False

lemma sends_of_effect (h : Effect self env request w w') (hsent : w'.sent ≠ w.sent) :
    Sends env request w := by
  rw [Sends]
  cases h with
  | nothing => exact absurd rfl hsent
  | register _ ht hz hm _ =>
    simp only [ht]
    exact ⟨hz, (NodeManager.createNode_ok hm).1⟩
  | unregister entry ht he hm =>
    obtain ⟨object, ho, hplace⟩ := NodeManager.destroyNode_ok hm
    simp only [ht]
    refine ⟨entry, object, he, ho, hplace.imp And.left ?_⟩
    rintro ⟨_, ⟨q, hq⟩, _⟩
    exact Option.isSome_iff_exists.mpr ⟨q, hq⟩
  | listen entry ht he hm =>
    obtain ⟨object, ho, -⟩ := NodeManager.listen_ok hm
    simp only [ht]
    exact ⟨entry, he, Option.isSome_iff_exists.mpr ⟨object, ho⟩⟩
  | bind entry key ht he hk hm =>
    obtain ⟨object, _, ho, _, hplace⟩ := NodeManager.bind_ok hm
    simp only [ht, hk]
    refine ⟨entry, he, Option.isSome_iff_exists.mpr ⟨object, ho⟩, hplace.imp And.left ?_⟩
    rintro ⟨_, ⟨q, hq⟩, _⟩
    exact Option.isSome_iff_exists.mpr ⟨q, hq⟩
  | keyless entry ht he hk =>
    simp only [ht, hk]
    exact ⟨entry, he, trivial⟩

lemma sends_iff (self : SessionPtr) :
    Sends env request w ↔ ∃ w', w.process self env request = .ok w' ∧ w'.sent ≠ w.sent := by
  refine ⟨fun h => ?_, fun ⟨w', hp, hsent⟩ => sends_of_effect (process_ok hp) hsent⟩
  rw [Sends] at h
  cases ht : request.getType with
  | nodeRegister =>
    simp only [ht] at h
    obtain ⟨m, hm⟩ := NodeManager.createNode_returns h.2 (some self)
    exact ⟨_, process_register ht h.1 hm, by simp⟩
  | nodeUnregister =>
    simp only [ht] at h
    obtain ⟨entry, object, he, ho, hplace⟩ := h
    obtain ⟨m, hm⟩ := NodeManager.destroyNode_returns ho hplace
    exact ⟨_, process_unregister ht he hm, by simp⟩
  | nodeListen =>
    simp only [ht] at h
    obtain ⟨entry, he, hlive⟩ := h
    obtain ⟨m, hm⟩ := NodeManager.listen_returns hlive request.maxConnections
    exact ⟨_, process_listen ht he hm, by simp⟩
  | nodeBind =>
    simp only [ht] at h
    obtain ⟨entry, he, h⟩ := h
    match hk : suppliedKey env request with
    | none => exact ⟨_, process_keyless ht he hk, by simp⟩
    | some none => simp [hk] at h
    | some (some key) =>
      simp only [hk] at h
      obtain ⟨m, hm⟩ := NodeManager.bind_returns h.1 h.2
      exact ⟨_, process_bind ht he hk hm, by simp⟩
  | nodeConnect => simp [ht] at h
  | nodeAccept => simp [ht] at h
  | socketUnregister => simp [ht] at h

/-- Every handler replies with a copy of its request. -/
lemma error_of_effect (h : Effect self env request w w') {reply : APIMessage}
    (hsent : w'.sent = w.sent ++ [reply]) : reply.error = request.error := by
  cases h with
  | nothing => simp at hsent
  | register _ _ _ _ hreply =>
    rw [← (List.cons.inj (List.append_cancel_left hsent)).1, hreply]
  | unregister | listen | bind | keyless =>
    rw [← (List.cons.inj (List.append_cancel_left hsent)).1]

lemma served_of_sends (herror : request.error.isSome = false) (h : Sends env request w) :
    Served env request w := by
  refine ⟨herror, ?_⟩
  rw [Sends] at h
  cases ht : request.getType with
  | nodeRegister =>
    simp only [ht] at h
    exact h.1
  | nodeUnregister => simpa only [ht] using h
  | nodeListen =>
    simp only [ht] at h
    obtain ⟨entry, he, -⟩ := h
    exact Option.isSome_iff_exists.mpr ⟨entry, he⟩
  | nodeBind =>
    simp only [ht] at h
    obtain ⟨entry, he, h⟩ := h
    refine ⟨entry, he, ?_⟩
    match hk : suppliedKey env request with
    | none => trivial
    | some none => simp [hk] at h
    | some (some key) =>
      simp only [hk] at h
      exact h.2
  | nodeConnect => simp [ht] at h
  | nodeAccept => simp [ht] at h
  | socketUnregister => simp [ht] at h

lemma sends_of_served (hfresh : w.manager.heap.find env.address = none)
    (hlive : ∀ i entry, w.session.nodes.find i = some entry →
      (w.manager.heap.find entry.node).isSome)
    (h : Served env request w) : Sends env request w := by
  obtain ⟨-, h⟩ := h
  rw [Sends]
  cases ht : request.getType with
  | nodeRegister =>
    simp only [ht] at h
    exact ⟨h, hfresh⟩
  | nodeUnregister => simpa only [ht] using h
  | nodeListen =>
    simp only [ht] at h
    obtain ⟨entry, he⟩ := Option.isSome_iff_exists.mp h
    exact ⟨entry, he, hlive _ entry he⟩
  | nodeBind =>
    simp only [ht] at h
    obtain ⟨entry, he, h⟩ := h
    refine ⟨entry, he, ?_⟩
    match hk : suppliedKey env request with
    | none => trivial
    | some none => simp [hk] at h
    | some (some key) =>
      simp only [hk] at h
      exact ⟨hlive _ entry he, h⟩
  | nodeConnect => simp [ht] at h
  | nodeAccept => simp [ht] at h
  | socketUnregister => simp [ht] at h

lemma served_of_answered (h : Answered self env request w) : Served env request w := by
  obtain ⟨w', reply, hp, hr⟩ := h
  have heff := process_ok hp
  have hsent : w'.sent ≠ w.sent := by simp [hr.sent]
  have hnone := mt hr.error.mp (not_rejected_of_effect heff hsent)
  rw [error_of_effect heff hr.sent, Bool.not_eq_true] at hnone
  exact served_of_sends hnone (sends_of_effect heff hsent)

lemma answered_of_served (hfresh : w.manager.heap.find env.address = none)
    (hlive : ∀ i entry, w.session.nodes.find i = some entry →
      (w.manager.heap.find entry.node).isSome)
    (h : Served env request w) : Answered self env request w := by
  obtain ⟨w', hp, hsent⟩ := (sends_iff self).mp (sends_of_served hfresh hlive h)
  exact answered_of_process hp hsent h.1

end World

namespace Daemon

variable {C : Crypto} {d : Daemon C} {self : SessionPtr} {session : APISession} {env : Env C}

theorem answered_iff_served {events : List (Event C)} (request : APIMessage)
    (h : run step new events = .ok d) (hs : d.sessions.find self = some session)
    (hfresh : d.manager.heap.find env.address = none) :
    World.Answered self env request (d.world session) ↔
      World.Served env request (d.world session) := by
  have howned : Owned d := invariant step_owned owned_new h
  refine ⟨World.served_of_answered, World.answered_of_served hfresh ?_⟩
  intro i entry he
  exact howned.live self i entry.node ⟨session, entry, hs, he, rfl⟩

theorem answered_first_register :
    ∃ d : Daemon sampleCrypto, run step new [.accept 1] = .ok d ∧
      World.Answered 1 ⟨(), 10⟩ { type := some .nodeRegister, messageToken := some 5 }
        (d.world .new) := by
  have h : run step (new : Daemon sampleCrypto) [.accept 1] = .ok _ := rfl
  refine ⟨_, h, (answered_iff_served _ h rfl rfl).mpr ⟨rfl, ?_⟩⟩
  change (1 : UInt32) ≠ 0
  decide

theorem unknown_node_not_answered :
    ∃ d : Daemon sampleCrypto, run step new [.accept 1] = .ok d ∧
      d.sessions.find 1 = some .new ∧
      ¬ World.Answered 1 ⟨(), 10⟩
        { type := some .nodeUnregister
          messageToken := some 5
          nodeUnregister := some ⟨some 7⟩ } (d.world .new) := by
  refine ⟨_, rfl, rfl, ?_⟩
  rintro ⟨w', reply, hp, hr⟩
  obtain rfl := Except.ok.inj hp
  exact absurd hr.sent (by simp [World.remoteThrow])

end Daemon

end P2PNet.API
