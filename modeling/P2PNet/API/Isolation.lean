import P2PNet.API.Daemon

/-! Isolation of the sessions of a daemon from each other: which requests change
the node that `getBoundNode` finds under the service hash of another session's
node. The entries of `nodes_bound` are erased by hash, so a second node that
carries the hash takes the entry with it. -/

namespace P2PNet.P2P.NodeManager

open Lib

variable {C : Crypto} {m m' : NodeManager C} {node p : NodePtr} {sh : SH} {key : C.PrivateKey}

structure SoleAt (sh : SH) (m : NodeManager C) : Prop where
  keys : m.nodesBound.find [] = none
  sole : sh ≠ [] → ∀ p object, m.heap.find p = some object → object.boundSh = sh →
    m.nodesBound.find sh = some p

lemma soleAt_new : SoleAt sh (new : NodeManager C) := by
  refine ⟨by simp [new], ?_⟩
  intro _ p object hp
  simp [new] at hp

lemma SoleAt.ne_nil (h : SoleAt sh m) (hb : m.getBoundNode sh = some p) : sh ≠ [] := by
  rintro rfl
  have hk := h.keys
  rw [show m.nodesBound.find [] = some p from hb] at hk
  cases hk

lemma createNode_soleAt {session : Option SessionPtr} (h : SoleAt sh m)
    (hc : m.createNode node session = .ok m') : SoleAt sh m' := by
  obtain ⟨hfresh, rfl⟩ := createNode_ok hc
  refine ⟨h.keys, ?_⟩
  intro hsh p object hp he
  rw [StdMap.find_insert, hfresh, Option.getD_none] at hp
  split at hp
  · rw [← Option.some.inj hp] at he
    exact absurd he.symm hsh
  · exact h.sole hsh p object hp he

lemma listen_soleAt {count : UInt32} (h : SoleAt sh m) (hc : m.listen node count = .ok m') :
    SoleAt sh m' := by
  obtain ⟨object, ho, rfl⟩ := listen_ok hc
  refine ⟨h.keys, ?_⟩
  intro hsh p object' hp he
  rw [StdMap.find_assign] at hp
  split at hp
  · next hpn =>
    rw [← Option.some.inj hp] at he
    exact h.sole hsh p object (hpn ▸ ho) he
  · exact h.sole hsh p object' hp he

lemma destroyNode_soleAt (h : SoleAt sh m) (hc : m.destroyNode node = .ok m') : SoleAt sh m' := by
  obtain ⟨object, ho, ⟨_, rfl⟩ | ⟨_, _, rfl⟩⟩ := destroyNode_ok hc
  · refine ⟨h.keys, ?_⟩
    intro hsh p object' hp he
    rw [StdMap.find_erase] at hp
    split at hp
    · cases hp
    · exact h.sole hsh p object' hp he
  · refine ⟨?_, ?_⟩
    · rw [StdMap.find_erase]
      split
      · rfl
      · exact h.keys
    · intro hsh p object' hp he
      rw [StdMap.find_erase] at hp
      split at hp
      · cases hp
      · next hpn =>
        have hfind := h.sole hsh p object' hp he
        have hne : sh ≠ object.boundSh := by
          intro hs
          rw [h.sole hsh node object ho hs.symm] at hfind
          exact hpn (Option.some.inj hfind).symm
        rwa [StdMap.find_erase_of_ne _ hne]

lemma bind_find_self (hc : m.bind node key = .ok m')
    (hspare : m.getBoundNode (C.serviceHash key) = none ∨
      m.getBoundNode (C.serviceHash key) = some node) :
    m'.nodesBound.find (C.serviceHash key) = some node := by
  obtain ⟨_, _, _, _, ⟨_, rfl⟩ | ⟨_, _, rfl⟩⟩ := bind_ok hc
  · rcases hspare with hs | hs
    · rw [StdMap.find_insert_self, show m.nodesBound.find _ = none from hs, Option.getD_none]
    · rw [StdMap.find_insert_self, show m.nodesBound.find _ = some node from hs, Option.getD_some]
  · rw [find_erase_insert, if_pos rfl]

lemma bind_boundSh (hc : m.bind node key = .ok m') {object : Node C}
    (ho : m'.heap.find p = some object) :
    p = node ∧ object.boundSh = C.serviceHash key ∨ p ≠ node ∧ m.heap.find p = some object := by
  obtain ⟨_, object', _, he, hcase⟩ := bind_ok hc
  have hheap : m'.heap = m.heap.assign node object' := by
    rcases hcase with ⟨_, rfl⟩ | ⟨_, _, rfl⟩
    · rfl
    · rfl
  rw [hheap, StdMap.find_assign] at ho
  split at ho
  · next hp => exact Or.inl ⟨hp, Option.some.inj ho ▸ he⟩
  · next hp => exact Or.inr ⟨hp, ho⟩

lemma bind_soleAt (h : SoleAt sh m) (hc : m.bind node key = .ok m')
    (hspare : C.serviceHash key = sh → m.getBoundNode sh = none ∨ m.getBoundNode sh = some node) :
    SoleAt sh m' := by
  refine ⟨(bind_find_of_ne hc (C.serviceHash_ne_nil key).symm).trans h.keys, ?_⟩
  intro hsh p object ho he
  by_cases hk : C.serviceHash key = sh
  · subst hk
    rw [bind_find_self hc (hspare rfl)]
    rcases bind_boundSh hc ho with ⟨rfl, _⟩ | ⟨hne, ho⟩
    · rfl
    · have hfind := h.sole hsh p object ho he
      rcases hspare rfl with hs | hs
      · exact absurd (hfind.symm.trans hs) (by simp)
      · exact (hfind.symm.trans hs).symm
  · rw [bind_find_of_ne hc (Ne.symm hk)]
    rcases bind_boundSh hc ho with ⟨_, hb⟩ | ⟨_, ho⟩
    · exact absurd (hb.symm.trans he) hk
    · exact h.sole hsh p object ho he

lemma destroyNode_lookup (h : SoleAt sh m) (hb : m.getBoundNode sh = some p) (hne : node ≠ p)
    (hc : m.destroyNode node = .ok m') : m'.getBoundNode sh = some p := by
  obtain ⟨object, ho, ⟨_, rfl⟩ | ⟨_, _, rfl⟩⟩ := destroyNode_ok hc
  · exact hb
  · have hsh : sh ≠ object.boundSh := by
      intro hs
      have hfind := h.sole (h.ne_nil hb) node object ho hs.symm
      exact hne (Option.some.inj (hfind.symm.trans hb))
    exact (StdMap.find_erase_of_ne _ hsh).trans hb

lemma bind_lookup (hb : m.getBoundNode sh = some p) (hne : node ≠ p)
    (hspare : C.serviceHash key = sh → m.getBoundNode sh = none ∨ m.getBoundNode sh = some node)
    (hc : m.bind node key = .ok m') : m'.getBoundNode sh = some p := by
  have hsh : sh ≠ C.serviceHash key := by
    intro hs
    rcases hspare hs.symm with hn | hn
    · exact absurd (hb.symm.trans hn) (by simp)
    · exact hne (Option.some.inj (hn.symm.trans hb))
  exact (bind_find_of_ne hc hsh).trans hb

lemma bind_takes_lookup (hb : m.getBoundNode sh = some p) (hne : node ≠ p)
    (hk : C.serviceHash key = sh) (hc : m.bind node key = .ok m') :
    m'.getBoundNode sh ≠ some p ∨
      ∃ m'', m'.destroyNode node = .ok m'' ∧ m''.getBoundNode sh ≠ some p := by
  subst hk
  obtain ⟨object, object', ho, he, ⟨_, rfl⟩ | ⟨_, _, rfl⟩⟩ := bind_ok hc
  · right
    refine ⟨⟨(m.nodesBound.insert (C.serviceHash key) node).erase (C.serviceHash key),
      m.nodesUnbound.erase node, (m.heap.assign node object').erase node⟩, ?_, ?_⟩
    · have hu : node ∉ m.nodesUnbound.erase node := fun hmem => (mem_unbound_erase.mp hmem).1 rfl
      simp [destroyNode, hu, StdMap.find_assign, he, deleteNode]
    · simp [getBoundNode]
  · left
    rw [getBoundNode, find_erase_insert, if_pos rfl]
    exact fun h => hne (Option.some.inj h)

end P2PNet.P2P.NodeManager

namespace P2PNet.API.Daemon

open Lib Lib.Runs P2P

variable {C : Crypto} {d d' : Daemon C} {sh : SH} {B : SessionPtr} {id : UInt32} {node : NodePtr}

/-- The event does not bind a node to `sh` while another one is bound there. -/
def Spares (sh : SH) (d : Daemon C) (e : Event C) : Prop :=
  ∀ call ∈ d.bindCall e, C.serviceHash call.2 = sh →
    d.manager.getBoundNode sh = none ∨ d.manager.getBoundNode sh = some call.1

instance (d : Daemon C) (e : Event C) : Decidable (Spares sh d e) :=
  inferInstanceAs (Decidable (∀ call ∈ d.bindCall e, _))

def Touches (B : SessionPtr) (id : UInt32) : Event C → Prop
  | .receive self _ request => self = B ∧
      (request.getType = .nodeBind ∧ request.bindId = id ∨
        request.getType = .nodeUnregister ∧ request.unregisterId = id)
  | _ => False

instance : ∀ e : Event C, Decidable (Touches B id e)
  | .receive _ _ _ => inferInstanceAs (Decidable (_ ∧ _))
  | .accept _ | .drop _ => isFalse not_false

structure Holds (sh : SH) (B : SessionPtr) (id : UInt32) (node : NodePtr) (d : Daemon C) :
    Prop where
  sole : NodeManager.SoleAt sh d.manager
  lookup : d.manager.getBoundNode sh = some node
  live : (d.manager.heap.find node).isSome
  owner : ∀ s i, d.Has s i node → s = B ∧ i = id

lemma step_soleAt (d : Daemon C) (e : Event C) (d' : Daemon C)
    (h : NodeManager.SoleAt sh d.manager) (hc : Spares sh d e) (hs : d.step e = .ok d') :
    NodeManager.SoleAt sh d'.manager := by
  cases step_moves hs with
  | kept hm _ => exact hm ▸ h
  | dropped _ hm _ => exact hm ▸ h
  | created _ _ hm _ => exact NodeManager.createNode_soleAt h hm
  | destroyed _ _ _ hm _ => exact NodeManager.destroyNode_soleAt h hm
  | listening hm _ => exact NodeManager.listen_soleAt h hm
  | bound hcall hm _ => exact NodeManager.bind_soleAt h hm (hc _ hcall)

theorem step_holds (d : Daemon C) (e : Event C) (d' : Daemon C) (h : Holds sh B id node d)
    (hc : Spares sh d e ∧ ¬ Touches B id e) (hs : d.step e = .ok d') :
    Holds sh B id node d' := by
  have hsole := step_soleAt d e d' h.sole hc.1 hs
  cases step_moves hs with
  | kept hm hhas =>
    exact ⟨hsole, hm ▸ h.lookup, hm ▸ h.live,
      fun s i hp => h.owner s i ((hhas s i node).mp hp)⟩
  | dropped _ hm hhas =>
    exact ⟨hsole, hm ▸ h.lookup, hm ▸ h.live,
      fun s i hp => h.owner s i ((hhas s i node).mp hp).1⟩
  | created _ _ hm hhas =>
    obtain ⟨hfresh, hm⟩ := NodeManager.createNode_ok hm
    have hlive := h.live
    refine ⟨hsole, ?_, ?_, ?_⟩
    · rw [hm]
      exact h.lookup
    · rw [hm, StdMap.find_insert]
      split
      · rfl
      · exact hlive
    · intro s i hp
      rcases (hhas s i node).mp hp with hp | ⟨⟨_, _, rfl⟩, _⟩
      · exact h.owner s i hp
      · rw [hfresh] at hlive
        cases hlive
  | @destroyed self env request other he ht hother hm hhas =>
    have hne : other ≠ node := by
      rintro rfl
      obtain ⟨rfl, rfl⟩ := h.owner _ _ hother
      apply hc.2
      rw [he]
      exact ⟨rfl, Or.inr ⟨ht, rfl⟩⟩
    refine ⟨hsole, NodeManager.destroyNode_lookup h.sole h.lookup hne hm, ?_,
      fun s i hp => h.owner s i ((hhas s i node).mp hp).1⟩
    rw [NodeManager.destroyNode_heap hm, StdMap.find_erase_of_ne _ hne.symm]
    exact h.live
  | listening hm hhas =>
    obtain ⟨_, _, hm'⟩ := NodeManager.listen_ok hm
    refine ⟨hsole, ?_, (NodeManager.listen_live hm).mpr h.live,
      fun s i hp => h.owner s i ((hhas s i node).mp hp)⟩
    rw [hm']
    exact h.lookup
  | @bound other key hcall hm hhas =>
    obtain ⟨self, env, request, session, entry, he, hs, ht, hentry, hnode, -⟩ := bindCall_spec hcall
    have hne : other ≠ node := by
      rintro rfl
      obtain ⟨rfl, rfl⟩ := h.owner _ _ ⟨session, entry, hs, hentry, hnode⟩
      apply hc.2
      rw [he]
      exact ⟨rfl, Or.inl ⟨ht, rfl⟩⟩
    exact ⟨hsole, NodeManager.bind_lookup h.lookup hne (hc.1 _ hcall) hm,
      (NodeManager.bind_live hm).mpr h.live, fun s i hp => h.owner s i ((hhas s i node).mp hp)⟩

lemma step_of_bindCall {e : Event C} {key : C.PrivateKey} (hcall : d.bindCall e = some (node, key))
    (h : d.step e = .ok d') :
    ∃ self env request session entry m, e = .receive self env request ∧
      request.getType = .nodeBind ∧ d.sessions.find self = some session ∧
      session.nodes.find request.bindId = some entry ∧ entry.node = node ∧
      d.manager.bind node key = .ok m ∧
      d' = ⟨d.sessions.assign self session, m, d.sent ++ [(self, request)]⟩ := by
  obtain ⟨self, env, request, session, entry, rfl, hs, ht, he, rfl, hk⟩ := bindCall_spec hcall
  simp only [step, hs] at h
  split at h
  · next w hw =>
    rw [World.process_bind_eq ht he hk] at hw
    obtain ⟨w₁, h₁, hw⟩ := bind_ok_iff.mp hw
    obtain ⟨m, hm, rfl⟩ := World.call_ok h₁
    obtain rfl := Except.ok.inj hw
    exact ⟨self, env, request, session, entry, m, rfl, ht, hs, he, rfl, hm,
      (Except.ok.inj h).symm⟩
  · cases h

lemma lookup_taken {e : Event C} (hb : d.manager.getBoundNode sh = some node)
    (ht : ¬ Touches B id e) (he : ¬ Spares sh d e) (hs : d.step e = .ok d') :
    ∃ es d'', (∀ e' ∈ es, ¬ Touches B id e') ∧ run step d' es = .ok d'' ∧
      d''.manager.getBoundNode sh ≠ some node := by
  simp only [Spares, not_forall, not_or] at he
  obtain ⟨⟨other, key⟩, hcall, hk, _, hother⟩ := he
  have hne : other ≠ node := fun h => hother (h ▸ hb)
  obtain ⟨self, env, request, session, entry, m, rfl, htype, hsession, hentry, hnode, hm, rfl⟩ :=
    step_of_bindCall hcall hs
  rcases NodeManager.bind_takes_lookup hb hne hk hm with hlost | ⟨m', hm', hlost⟩
  · exact ⟨[], _, by simp, rfl, hlost⟩
  · let unregister : APIMessage :=
      { type := some .nodeUnregister, nodeUnregister := some ⟨some request.bindId⟩ }
    have hp : World.process self env unregister ⟨session, m, []⟩ =
        .ok ⟨session.unregister request.bindId, m', [unregister]⟩ :=
      World.process_unregister rfl hentry (hnode ▸ hm')
    refine ⟨[.receive self env unregister],
      ⟨(d.sessions.assign self session).assign self (session.unregister request.bindId), m',
        d.sent ++ [(self, request)] ++ [(self, unregister)]⟩, ?_, ?_, hlost⟩
    · intro e' he'
      obtain rfl := List.mem_singleton.mp he'
      rintro ⟨hself, ⟨hbad, _⟩ | ⟨_, hid⟩⟩
      · cases hbad
      · exact ht ⟨hself, Or.inl ⟨htype, hid⟩⟩
    · refine run_cons.mpr ⟨_, ?_, rfl⟩
      simp only [step, StdMap.find_assign, if_true, world, hp]
      rfl

theorem bound_lookup_isolated (B : SessionPtr) (id : UInt32) (before later : List (Event C))
    {d₁ d₂ : Daemon C}
    (h₁ : run step new before = .ok d₁) (g₁ : Guarded step (Spares sh) new before)
    (hB : d₁.Has B id node) (hb : d₁.manager.getBoundNode sh = some node)
    (h₂ : run step d₁ later = .ok d₂)
    (g₂ : Guarded step (fun d e => Spares sh d e ∧ ¬ Touches B id e) d₁ later) :
    d₂.manager.getBoundNode sh = some node ∧
      ∀ e d₃, ¬ Touches B id e → ¬ Spares sh d₂ e → d₂.step e = .ok d₃ →
        ∃ es d₄, (∀ e' ∈ es, ¬ Touches B id e') ∧ run step d₃ es = .ok d₄ ∧
          d₄.manager.getBoundNode sh ≠ some node := by
  have howned : Owned d₁ := invariant step_owned owned_new h₁
  have hsole : NodeManager.SoleAt sh d₁.manager :=
    guarded_invariant (I := fun d => NodeManager.SoleAt sh d.manager) step_soleAt
      NodeManager.soleAt_new g₁ h₁
  have hstart : Holds sh B id node d₁ :=
    ⟨hsole, hb, howned.live B id node hB, fun s i hp => howned.once s i B id node hp hB⟩
  have hend : Holds sh B id node d₂ := guarded_invariant step_holds hstart g₂ h₂
  exact ⟨hend.lookup, fun e d₃ ht he hs => lookup_taken hend.lookup ht he hs⟩

def registerRequest : APIMessage := { type := some .nodeRegister }

def bindRequest (id : UInt32) (key : UInt8) : APIMessage :=
  { type := some .nodeBind, nodeBind := some ⟨some id, some [key], none⟩ }

def unregisterRequest (id : UInt32) : APIMessage :=
  { type := some .nodeUnregister, nodeUnregister := some ⟨some id⟩ }

theorem bound_lookup_isolated_two_keys :
    ∃ d₁ d₂ : Daemon sampleCrypto, run step new
      [.accept 1, .accept 2, .receive 2 ⟨(), 10⟩ registerRequest,
        .receive 2 ⟨(), 10⟩ (bindRequest 1 1)] = .ok d₁ ∧
      run step d₁ [.receive 1 ⟨(), 11⟩ registerRequest, .receive 1 ⟨(), 11⟩ (bindRequest 1 2),
        .receive 1 ⟨(), 11⟩ (unregisterRequest 1)] = .ok d₂ ∧
      d₂.manager.getBoundNode (sampleCrypto.serviceHash (1 : ℕ)) = some 10 := by
  refine ⟨_, _, rfl, rfl, (bound_lookup_isolated 2 1
    [.accept 1, .accept 2, .receive 2 ⟨(), 10⟩ registerRequest,
      .receive 2 ⟨(), 10⟩ (bindRequest 1 1)]
    [.receive 1 ⟨(), 11⟩ registerRequest, .receive 1 ⟨(), 11⟩ (bindRequest 1 2),
      .receive 1 ⟨(), 11⟩ (unregisterRequest 1)] rfl ?_ ?_ ?_ rfl ?_).1⟩
  · decide +kernel
  · exact ⟨_, ⟨10, 1⟩, rfl, rfl, rfl⟩
  · rfl
  · decide +kernel

theorem bound_lookup_taken :
    ∃ d₁ d₂ : Daemon sampleCrypto, run step new
      [.accept 1, .accept 2, .receive 2 ⟨(), 10⟩ registerRequest,
        .receive 2 ⟨(), 10⟩ (bindRequest 1 1)] = .ok d₁ ∧
      d₁.Has 2 1 10 ∧ d₁.manager.getBoundNode (sampleCrypto.serviceHash (1 : ℕ)) = some 10 ∧
      run step d₁ [.receive 1 ⟨(), 11⟩ registerRequest, .receive 1 ⟨(), 11⟩ (bindRequest 1 1),
        .receive 1 ⟨(), 11⟩ (unregisterRequest 1)] = .ok d₂ ∧
      d₂.manager.getBoundNode (sampleCrypto.serviceHash (1 : ℕ)) = none :=
  ⟨_, _, rfl, ⟨_, ⟨10, 1⟩, rfl, rfl, rfl⟩, rfl, rfl, rfl⟩

end P2PNet.API.Daemon
