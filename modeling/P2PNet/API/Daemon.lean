import P2PNet.API.Effects
import P2PNet.P2P.Database

/-! The daemon: any number of sessions over one `NodeManager`, accepted, served
and dropped in any order. An exception that leaves `process` leaves `main` too,
so a run ends with it. `Moves` says once what an event can do. -/

namespace P2PNet.API

open Lib Lib.Runs P2P

structure Daemon (C : Crypto) where
  sessions : StdMap SessionPtr APISession
  manager : NodeManager C
  sent : List (SessionPtr × APIMessage)

inductive Event (C : Crypto) where
  | accept (session : SessionPtr)
  | receive (session : SessionPtr) (env : Env C) (request : APIMessage)
  | drop (session : SessionPtr)

namespace Daemon

variable {C : Crypto} {d d' : Daemon C} {self : SessionPtr}

def new : Daemon C := ⟨.empty, .new, []⟩

def world (d : Daemon C) (session : APISession) : World C := ⟨session, d.manager, []⟩

def step (d : Daemon C) : Event C → Except Escape (Daemon C)
  | .accept self =>
    match d.sessions.find self with
    | some _ => .error .disabled
    | none => .ok { d with sessions := d.sessions.insert self .new }
  | .receive self env request =>
    match d.sessions.find self with
    | none => .error .dangling
    | some session =>
      match (d.world session).process self env request with
      | .ok w => .ok ⟨d.sessions.assign self w.session, w.manager,
          d.sent ++ w.sent.map (self, ·)⟩
      | .error (escape, _) => .error escape
  -- the nodes of a dropped session stay: deleting them is a TODO of `dropSession`
  | .drop self =>
    match d.sessions.find self with
    | none => .error .dangling
    | some _ => .ok { d with sessions := d.sessions.erase self }

def bindCall (d : Daemon C) : Event C → Option (NodePtr × C.PrivateKey)
  | .receive self env request => do
    let session ← d.sessions.find self
    if request.getType = .nodeBind then
      let entry ← session.nodes.find request.bindId
      let key ← (World.suppliedKey env request).join
      some (entry.node, key)
    else none
  | _ => none

def Has (d : Daemon C) (self : SessionPtr) (id : UInt32) (node : NodePtr) : Prop :=
  ∃ session entry, d.sessions.find self = some session ∧ session.nodes.find id = some entry ∧
    entry.node = node

lemma accept_ok (h : d.step (.accept self) = .ok d') :
    d.sessions.find self = none ∧ d' = { d with sessions := d.sessions.insert self .new } := by
  rw [step] at h
  split at h
  · cases h
  · next hfree => exact ⟨hfree, (Except.ok.inj h).symm⟩

lemma receive_ok {env : Env C} {request : APIMessage}
    (h : d.step (.receive self env request) = .ok d') :
    ∃ session w, d.sessions.find self = some session ∧
      (d.world session).process self env request = .ok w ∧
      d' = ⟨d.sessions.assign self w.session, w.manager, d.sent ++ w.sent.map (self, ·)⟩ := by
  rw [step] at h
  split at h
  · cases h
  · next session hs =>
    split at h
    · next w hw => exact ⟨session, w, hs, hw, (Except.ok.inj h).symm⟩
    · cases h

lemma drop_ok (h : d.step (.drop self) = .ok d') :
    d' = { d with sessions := d.sessions.erase self } := by
  rw [step] at h
  split at h
  · cases h
  · exact (Except.ok.inj h).symm

lemma bindCall_spec {e : Event C} {node : NodePtr} {key : C.PrivateKey}
    (h : d.bindCall e = some (node, key)) :
    ∃ self env request session entry, e = .receive self env request ∧
      d.sessions.find self = some session ∧ request.getType = .nodeBind ∧
      session.nodes.find request.bindId = some entry ∧ entry.node = node ∧
      World.suppliedKey env request = some (some key) := by
  cases e with
  | accept self => cases h
  | receive self env request =>
    obtain ⟨session, hs, h⟩ := Option.bind_eq_some_iff.mp h
    split at h
    · next ht =>
      obtain ⟨entry, he, h⟩ := Option.bind_eq_some_iff.mp h
      obtain ⟨key', hk, h⟩ := Option.bind_eq_some_iff.mp h
      obtain ⟨rfl, rfl⟩ := Prod.mk.inj (Option.some.inj h)
      exact ⟨self, env, request, session, entry, rfl, hs, ht, he, rfl,
        Option.join_eq_some_iff.mp hk⟩
    · cases h
  | drop self => cases h

lemma has_self_iff {session : APISession} (hs : d.sessions.find self = some session) {i : UInt32}
    {p : NodePtr} :
    d.Has self i p ↔ ∃ entry, session.nodes.find i = some entry ∧ entry.node = p := by
  constructor
  · rintro ⟨session', entry, hs', he, hp⟩
    obtain rfl := Option.some.inj (hs.symm.trans hs')
    exact ⟨entry, he, hp⟩
  · rintro ⟨entry, he, hp⟩
    exact ⟨session, entry, hs, he, hp⟩

section Assign

variable {session : APISession} {m : NodeManager C} {sent : List (SessionPtr × APIMessage)}

lemma has_assign_iff {s : SessionPtr} {i : UInt32} {p : NodePtr} :
    Has ⟨d.sessions.assign self session, m, sent⟩ s i p ↔
      if s = self then ∃ entry, session.nodes.find i = some entry ∧ entry.node = p
      else d.Has s i p := by
  split
  · next hself =>
    subst hself
    exact has_self_iff (by rw [StdMap.find_assign, if_pos rfl])
  · next hself => simp only [Has, StdMap.find_assign, if_neg hself]

lemma has_assign_same (hs : d.sessions.find self = some session) (s : SessionPtr) (i : UInt32)
    (p : NodePtr) : Has ⟨d.sessions.assign self session, m, sent⟩ s i p ↔ d.Has s i p := by
  rw [has_assign_iff]
  split
  · next hself => rw [hself, has_self_iff hs]
  · exact .rfl

lemma has_register {entry : NodeT} (hs : d.sessions.find self = some session) (s : SessionPtr)
    (i : UInt32) (p : NodePtr) :
    Has ⟨d.sessions.assign self (session.register entry), m, sent⟩ s i p ↔
      d.Has s i p ∨ (s = self ∧ i = session.nextNodeId ∧ p = entry.node) ∧
        session.nodes.find session.nextNodeId = none := by
  rw [has_assign_iff]
  split
  · next hself =>
    rw [hself, has_self_iff hs]
    simp only [APISession.register, StdMap.find_insert]
    by_cases hi : i = session.nextNodeId
    · subst hi
      cases session.nodes.find session.nextNodeId <;> simp [eq_comm]
    · simp [hi]
  · next hself => simp [hself]

lemma has_unregister {id : UInt32} (hs : d.sessions.find self = some session) (s : SessionPtr)
    (i : UInt32) (p : NodePtr) :
    Has ⟨d.sessions.assign self (session.unregister id), m, sent⟩ s i p ↔
      d.Has s i p ∧ ¬(s = self ∧ i = id) := by
  rw [has_assign_iff]
  split
  · next hself =>
    rw [hself, has_self_iff hs]
    simp only [APISession.unregister, StdMap.find_erase]
    by_cases hi : i = id
    · simp [hi]
    · simp [hi]
  · next hself => simp [hself]

end Assign

/-- What an event does to the nodes and to the sessions that hold them. -/
inductive Moves (d : Daemon C) (e : Event C) (d' : Daemon C) : Prop
  | kept (hm : d'.manager = d.manager) (hhas : ∀ s i p, d'.Has s i p ↔ d.Has s i p) :
      Moves d e d'
  | dropped {self : SessionPtr} (he : e = .drop self) (hm : d'.manager = d.manager)
      (hhas : ∀ s i p, d'.Has s i p ↔ d.Has s i p ∧ s ≠ self) : Moves d e d'
  | created {self : SessionPtr} {session : APISession} {address : NodePtr}
      (hs : d.sessions.find self = some session) (hne : session.nextNodeId ≠ 0)
      (hm : d.manager.createNode address (some self) = .ok d'.manager)
      (hhas : ∀ s i p, d'.Has s i p ↔ d.Has s i p ∨
        (s = self ∧ i = session.nextNodeId ∧ p = address) ∧
          session.nodes.find session.nextNodeId = none) : Moves d e d'
  | destroyed {self : SessionPtr} {env : Env C} {request : APIMessage} {node : NodePtr}
      (he : e = .receive self env request) (ht : request.getType = .nodeUnregister)
      (hnode : d.Has self request.unregisterId node)
      (hm : d.manager.destroyNode node = .ok d'.manager)
      (hhas : ∀ s i p, d'.Has s i p ↔ d.Has s i p ∧ ¬(s = self ∧ i = request.unregisterId)) :
      Moves d e d'
  | listening {node : NodePtr} {maxConnections : UInt32}
      (hm : d.manager.listen node maxConnections = .ok d'.manager)
      (hhas : ∀ s i p, d'.Has s i p ↔ d.Has s i p) : Moves d e d'
  | bound {node : NodePtr} {key : C.PrivateKey} (hcall : d.bindCall e = some (node, key))
      (hm : d.manager.bind node key = .ok d'.manager)
      (hhas : ∀ s i p, d'.Has s i p ↔ d.Has s i p) : Moves d e d'

lemma receive_moves {env : Env C} {request : APIMessage} {session : APISession} {w : World C}
    (hs : d.sessions.find self = some session)
    (h : World.Effect self env request (d.world session) w) :
    Moves d (.receive self env request)
      ⟨d.sessions.assign self w.session, w.manager, d.sent ++ w.sent.map (self, ·)⟩ := by
  cases h with
  | nothing => exact .kept rfl (has_assign_same hs)
  | register reply _ hne hm _ => exact .created hs hne hm (has_register hs)
  | unregister gone ht hg hm =>
    exact .destroyed rfl ht ⟨session, gone, hs, hg, rfl⟩ hm (has_unregister hs)
  | listen entry _ _ hm => exact .listening hm (has_assign_same hs)
  | bind entry key ht he hk hm =>
    refine .bound ?_ hm (has_assign_same hs)
    replace he : session.nodes.find request.bindId = some entry := he
    simp [bindCall, hs, ht, he, hk]
  | keyless _ _ _ _ => exact .kept rfl (has_assign_same hs)

theorem step_moves {e : Event C} (h : d.step e = .ok d') : Moves d e d' := by
  cases e with
  | accept self =>
    obtain ⟨hfree, rfl⟩ := accept_ok h
    refine .kept rfl fun s i p => ?_
    by_cases hself : s = self
    · simp [Has, hself, hfree, APISession.new]
    · simp only [Has, StdMap.find_insert_of_ne _ _ hself]
  | receive self env request =>
    obtain ⟨session, w, hs, hw, rfl⟩ := receive_ok h
    exact receive_moves hs (World.process_ok hw)
  | drop self =>
    obtain rfl := drop_ok h
    refine .dropped rfl rfl fun s i p => ?_
    by_cases hself : s = self
    · simp [Has, hself]
    · simp only [Has, StdMap.find_erase_of_ne _ hself, ne_eq, hself, not_false_eq_true, and_true]

structure Owned (d : Daemon C) : Prop where
  live : ∀ s i p, d.Has s i p → (d.manager.heap.find p).isSome
  once : ∀ s i s' i' p, d.Has s i p → d.Has s' i' p → s = s' ∧ i = i'

lemma owned_new : Owned (new : Daemon C) := by
  refine ⟨?_, ?_⟩
  · rintro s i p ⟨session, entry, hs, _⟩
    simp [new] at hs
  · rintro s i s' i' p ⟨session, entry, hs, _⟩
    simp [new] at hs

lemma Owned.of_live (h : Owned d) (hhas : ∀ s i p, d'.Has s i p → d.Has s i p)
    (hlive : ∀ p, (d.manager.heap.find p).isSome → (d'.manager.heap.find p).isSome) :
    Owned d' := by
  refine ⟨fun s i p hp => hlive p (h.live s i p (hhas s i p hp)), ?_⟩
  intro s i s' i' p hp hp'
  exact h.once s i s' i' p (hhas s i p hp) (hhas s' i' p hp')

theorem step_owned (d : Daemon C) (e : Event C) (d' : Daemon C) (h : Owned d)
    (hs : d.step e = .ok d') : Owned d' := by
  cases step_moves hs with
  | kept hm hhas => exact h.of_live (fun s i p => (hhas s i p).mp) (fun p hp => hm ▸ hp)
  | dropped _ hm hhas =>
    exact h.of_live (fun s i p hp => ((hhas s i p).mp hp).1) (fun p hp => hm ▸ hp)
  | created _ _ hm hhas =>
    obtain ⟨hfresh, hm⟩ := NodeManager.createNode_ok hm
    have hold : ∀ s i, ¬ d.Has s i _ := fun s i hp => by
      have := h.live s i _ hp
      rw [hfresh] at this
      cases this
    refine ⟨?_, ?_⟩
    · intro s i p hp
      rw [hm, StdMap.find_insert]
      split
      · rfl
      · next hne =>
        rcases (hhas s i p).mp hp with hp | ⟨⟨_, _, he⟩, _⟩
        · exact h.live s i p hp
        · exact absurd he hne
    · intro s i s' i' p hp hp'
      rcases (hhas s i p).mp hp with hp | ⟨⟨hs, hi, he⟩, _⟩
      · rcases (hhas s' i' p).mp hp' with hp' | ⟨⟨_, _, he'⟩, _⟩
        · exact h.once s i s' i' p hp hp'
        · exact absurd (he' ▸ hp) (hold s i)
      · rcases (hhas s' i' p).mp hp' with hp' | ⟨⟨hs', hi', _⟩, _⟩
        · exact absurd (he ▸ hp') (hold s' i')
        · exact ⟨hs.trans hs'.symm, hi.trans hi'.symm⟩
  | @destroyed self env request node _ _ hnode hm hhas =>
    refine ⟨?_, fun s i s' i' p hp hp' =>
      h.once s i s' i' p ((hhas s i p).mp hp).1 ((hhas s' i' p).mp hp').1⟩
    intro s i p hp
    obtain ⟨hp, hne⟩ := (hhas s i p).mp hp
    have hpn : p ≠ node := by
      rintro rfl
      exact hne (h.once _ _ _ _ _ hp hnode)
    rw [NodeManager.destroyNode_heap hm, StdMap.find_erase_of_ne _ hpn]
    exact h.live s i p hp
  | listening hm hhas =>
    exact h.of_live (fun s i p => (hhas s i p).mp) (fun p => (NodeManager.listen_live hm).mpr)
  | bound _ hm hhas =>
    exact h.of_live (fun s i p => (hhas s i p).mp) (fun p => (NodeManager.bind_live hm).mpr)

end Daemon

end P2PNet.API
