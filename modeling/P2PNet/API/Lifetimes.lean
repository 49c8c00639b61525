import P2PNet.API.Daemon
import P2PNet.API.NodeIds

/-! The nodes of the daemon and the sessions that own them, over whole runs. A
session that is dropped leaves its nodes behind; a send that fails is the request
followed by the drop. -/

namespace P2PNet.API.Daemon

open Lib Lib.Runs P2P

variable {C : Crypto} {d d' : Daemon C} {self : SessionPtr} {session : APISession}

/-- The nodes that `NodeManager` holds are those of the live sessions, each at one place. -/
structure NodesOwned (d : Daemon C) : Prop where
  same : ∀ p, d.manager.Holds p ↔ ∃ s i, d.Has s i p
  once : ∀ s i s' i' p, d.Has s i p → d.Has s' i' p → s = s' ∧ i = i'

def DropsEmpty (d : Daemon C) : Event C → Prop
  | .drop self => ∀ id node, ¬d.Has self id node
  | _ => True

def Keeps (d : Daemon C) (e : Event C) : Prop :=
  d.DropsEmpty e ∧
    ∀ node key, d.bindCall e = some (node, key) → d.manager.Allowed (.bind node key)

lemma has_functional {i : UInt32} {p q : NodePtr} (hp : d.Has self i p) (hq : d.Has self i q) :
    p = q := by
  obtain ⟨session, entry, hs, he, rfl⟩ := hp
  obtain ⟨entry', he', rfl⟩ := (has_self_iff hs).mp hq
  rw [he] at he'
  rw [Option.some.inj he']

def SessionsOk (d : Daemon C) : Prop :=
  ∀ s session, d.sessions.find s = some session → session.IdsOk

lemma step_sessionsOk {e : Event C} (hids : SessionsOk d) (h : d.step e = .ok d') :
    SessionsOk d' := by
  intro s session' hs'
  cases e with
  | accept self =>
    obtain ⟨hfree, rfl⟩ := accept_ok h
    rw [StdMap.find_insert, hfree, Option.getD_none] at hs'
    split at hs'
    · exact Option.some.inj hs' ▸ APISession.idsOk_new
    · exact hids s session' hs'
  | receive self env request =>
    obtain ⟨session, w, hs, hw, rfl⟩ := receive_ok h
    rw [StdMap.find_assign] at hs'
    split at hs'
    · have hok : (d.world session).session.IdsOk := hids self session hs
      have hprocess := World.process_idsOk self env request hok
      rw [hw] at hprocess
      exact Option.some.inj hs' ▸ hprocess
    · exact hids s session' hs'
  | drop self =>
    obtain rfl := drop_ok h
    rw [StdMap.find_erase] at hs'
    split at hs'
    · cases hs'
    · exact hids s session' hs'

structure Tidy (d : Daemon C) : Prop where
  ids : SessionsOk d
  database : d.manager.Inv
  nodes : NodesOwned d

lemma Tidy.live_iff (h : Tidy d) {p : NodePtr} :
    (d.manager.heap.find p).isSome ↔ ∃ s i, d.Has s i p := by
  rw [← h.database.holds_iff, h.nodes.same]

lemma tidy_new : Tidy (new : Daemon C) := by
  have hnone : ∀ s i p, ¬(new : Daemon C).Has s i p := by
    rintro s i p ⟨session, entry, hs, _⟩
    simp [new] at hs
  refine ⟨fun s session hs => by simp [new] at hs, NodeManager.inv_new, fun p => ?_, ?_⟩
  · refine iff_of_false ?_ ?_
    · simp [new, NodeManager.Holds, NodeManager.new]
    · rintro ⟨s, i, h⟩
      exact hnone s i p h
  · intro s i s' i' p h
    exact absurd h (hnone s i p)

lemma Moves.inv {e : Event C} (hm : Moves d e d') (hinv : d.manager.Inv) (hkeeps : d.Keeps e) :
    d'.manager.Inv := by
  cases hm with
  | kept hm _ => rwa [hm]
  | dropped _ hm _ => rwa [hm]
  | created _ _ hm _ => exact NodeManager.createNode_inv hinv hm
  | destroyed _ _ _ hm _ => exact NodeManager.destroyNode_inv hinv hm
  | listening hm _ => exact NodeManager.listen_inv hinv hm
  | bound hcall hm _ => exact NodeManager.bind_inv hinv (hkeeps.2 _ _ hcall) hm

lemma NodesOwned.of_live (hinv : d.manager.Inv)
    (hlive : ∀ p, (d.manager.heap.find p).isSome ↔ ∃ s i, d.Has s i p)
    (honce : ∀ s i s' i' p, d.Has s i p → d.Has s' i' p → s = s' ∧ i = i') : NodesOwned d :=
  ⟨fun p => by rw [hinv.holds_iff, hlive], honce⟩

lemma Tidy.once_of_subset (h : Tidy d) (hhas : ∀ s i p, d'.Has s i p → d.Has s i p)
    (s : SessionPtr) (i : UInt32) (s' : SessionPtr) (i' : UInt32) (p : NodePtr)
    (hp : d'.Has s i p) (hp' : d'.Has s' i' p) : s = s' ∧ i = i' :=
  h.nodes.once s i s' i' p (hhas s i p hp) (hhas s' i' p hp')

lemma Tidy.nodes_of_same (h : Tidy d) (hinv : d'.manager.Inv)
    (hlive : ∀ p, (d'.manager.heap.find p).isSome ↔ (d.manager.heap.find p).isSome)
    (hhas : ∀ s i p, d'.Has s i p ↔ d.Has s i p) : NodesOwned d' :=
  .of_live hinv (fun p => by simp only [hlive, h.live_iff, hhas])
    (h.once_of_subset fun s i p => (hhas s i p).mp)

lemma Moves.nodes {e : Event C} (hm : Moves d e d') (h : Tidy d) (hkeeps : d.Keeps e) :
    NodesOwned d' := by
  have hinv := hm.inv h.database hkeeps
  cases hm with
  | kept hm hhas => exact h.nodes_of_same hinv (fun p => by rw [hm]) hhas
  | @dropped self he hm hhas =>
    subst he
    have hempty : ∀ id node, ¬d.Has self id node := hkeeps.1
    refine h.nodes_of_same hinv (fun p => by rw [hm]) fun s i p => ?_
    rw [hhas, and_iff_left_iff_imp]
    rintro hp rfl
    exact hempty i p hp
  | @created self session address hs hne hm hhas =>
    obtain ⟨hfresh, hmanager⟩ := NodeManager.createNode_ok hm
    have hold : ∀ s i, ¬d.Has s i address := fun s i hp => by
      simpa [hfresh] using h.live_iff.mpr ⟨s, i, hp⟩
    simp only [((h.ids self session hs).least hne).1, and_true] at hhas
    refine .of_live hinv (fun p => ?_) fun s i s' i' p hp hp' => ?_
    · rw [hmanager, StdMap.find_insert]
      by_cases hp : p = address
      · subst hp
        exact iff_of_true (by simp) ⟨self, _, (hhas _ _ _).mpr (.inr ⟨rfl, rfl, rfl⟩)⟩
      · simp only [hp, if_false, h.live_iff, hhas, and_false, or_false]
    · rcases (hhas s i p).mp hp with hp | ⟨rfl, rfl, rfl⟩
      · rcases (hhas s' i' p).mp hp' with hp' | ⟨rfl, rfl, rfl⟩
        · exact h.nodes.once s i s' i' p hp hp'
        · exact absurd hp (hold s i)
      · rcases (hhas s' i' p).mp hp' with hp' | ⟨rfl, rfl, -⟩
        · exact absurd hp' (hold s' i')
        · exact ⟨rfl, rfl⟩
  | @destroyed self env request node _ _ hnode hm hhas =>
    refine .of_live hinv (fun p => ?_) (h.once_of_subset fun s i p hp => ((hhas s i p).mp hp).1)
    rw [NodeManager.destroyNode_heap hm, StdMap.find_erase]
    by_cases hp : p = node
    · subst hp
      refine iff_of_false (by simp) ?_
      rintro ⟨s, i, hp⟩
      obtain ⟨hp, hne⟩ := (hhas s i p).mp hp
      exact hne (h.nodes.once _ _ _ _ _ hp hnode)
    · rw [if_neg hp, h.live_iff]
      simp only [hhas]
      refine exists₂_congr fun s i => (and_iff_left_of_imp ?_).symm
      rintro hown ⟨rfl, rfl⟩
      exact hp (has_functional hown hnode)
  | listening hm hhas => exact h.nodes_of_same hinv (fun p => NodeManager.listen_live hm) hhas
  | bound _ hm hhas => exact h.nodes_of_same hinv (fun p => NodeManager.bind_live hm) hhas

lemma step_tidy {e : Event C} (h : Tidy d) (hkeeps : d.Keeps e) (hstep : d.step e = .ok d') :
    Tidy d' :=
  have hmoves := step_moves hstep
  ⟨step_sessionsOk h.ids hstep, hmoves.inv h.database hkeeps, hmoves.nodes h hkeeps⟩

lemma dropsEmpty_of_nodesOwned {e : Event C} (h : Tidy d)
    (hnext : ∀ d', d.step e = .ok d' → NodesOwned d') : d.DropsEmpty e := by
  cases e with
  | accept self => trivial
  | receive self env request => trivial
  | drop self =>
    intro nodeId node hhas
    obtain ⟨session, entry, hs, -⟩ := id hhas
    have hstep : d.step (.drop self) = .ok { d with sessions := d.sessions.erase self } := by
      simp only [step, hs]
    have hheld : d.manager.Holds node := (h.nodes.same node).mpr ⟨self, nodeId, hhas⟩
    obtain ⟨s, i, session', entry', hs', he', hp'⟩ := ((hnext _ hstep).same node).mp hheld
    rw [StdMap.find_erase] at hs'
    split at hs'
    · cases hs'
    · next hne =>
      exact hne (h.nodes.once _ _ _ _ _ ⟨session', entry', hs', he', hp'⟩ hhas).1

lemma allowed_of_nodesOwned {e : Event C} {node : NodePtr} {key : C.PrivateKey} (h : Tidy d)
    (hnext : ∀ d', d.step e = .ok d' → NodesOwned d') (hcall : d.bindCall e = some (node, key)) :
    d.manager.Allowed (.bind node key) := by
  by_contra hna
  obtain ⟨self, env, request, session, entry, rfl, hs, ht, he, rfl, hk⟩ := bindCall_spec hcall
  have hlive : (d.manager.heap.find entry.node).isSome :=
    h.live_iff.mpr ⟨self, request.bindId, session, entry, hs, he, rfl⟩
  obtain ⟨m, hm⟩ := NodeManager.bind_returns hlive
    (.inr (Option.isSome_iff_ne_none.mpr (not_or.mp hna).1))
  have hw : (d.world session).process self env request = .ok ⟨session, m, [request]⟩ :=
    World.process_bind ht he hk hm
  have hstep : d.step (.receive self env request) =
      .ok ⟨d.sessions.assign self session, m, d.sent ++ [(self, request)]⟩ := by
    simp only [step, hs, hw]
    rfl
  -- the node that the bind took out of the database still has its session
  obtain ⟨p, hp, hlost⟩ := NodeManager.bind_lost h.database hm hna
  obtain ⟨s, i, hhas⟩ := h.live_iff.mp hp
  exact hlost (((hnext _ hstep).same p).mpr ⟨s, i, (has_assign_same hs s i p).mpr hhas⟩)

def boundHash : Event C → Option SH
  | .receive _ env request =>
    if request.getType = .nodeBind then
      (World.suppliedKey env request).join.map C.serviceHash
    else none
  | _ => none

lemma boundHash_of_bindCall {e : Event C} {node : NodePtr} {key : C.PrivateKey}
    (h : d.bindCall e = some (node, key)) : boundHash e = some (C.serviceHash key) := by
  obtain ⟨self, env, request, session, entry, rfl, hs, ht, he, rfl, hk⟩ := bindCall_spec h
  simp [boundHash, ht, hk]

lemma nodesBound_of_step {e : Event C} {sh : SH} (hstep : d.step e = .ok d')
    (h : (d'.manager.nodesBound.find sh).isSome) :
    (d.manager.nodesBound.find sh).isSome ∨ boundHash e = some sh := by
  cases step_moves hstep with
  | kept hm _ => exact .inl (hm ▸ h)
  | dropped _ hm _ => exact .inl (hm ▸ h)
  | created _ _ hm _ =>
    obtain ⟨_, hm⟩ := NodeManager.createNode_ok hm
    rw [hm] at h
    exact .inl h
  | destroyed _ _ _ hm _ => exact .inl (NodeManager.destroyNode_bound hm h)
  | listening hm _ =>
    obtain ⟨_, _, hm⟩ := NodeManager.listen_ok hm
    rw [hm] at h
    exact .inl h
  | @bound node key hcall hm _ =>
    by_cases hsh : sh = C.serviceHash key
    · exact .inr (hsh ▸ boundHash_of_bindCall hcall)
    · rw [NodeManager.bind_find_of_ne hm hsh] at h
      exact .inl h

lemma guarded_keeps {events : List (Event C)}
    (hfresh : ∀ sh, (d.manager.nodesBound.find sh).isSome → sh ∉ events.filterMap boundHash)
    (hdistinct : (events.filterMap boundHash).Nodup) (h : Guarded step DropsEmpty d events) :
    Guarded step Keeps d events := by
  induction events generalizing d with
  | nil => trivial
  | cons e events ih =>
    refine ⟨⟨h.1, fun node key hcall => .inl ?_⟩, fun d' hstep => ?_⟩
    · by_contra hbound
      refine hfresh _ (Option.isSome_iff_ne_none.mpr hbound) ?_
      exact List.mem_filterMap.mpr ⟨e, List.mem_cons_self, boundHash_of_bindCall hcall⟩
    · have hsub : (events.filterMap boundHash).Sublist ((e :: events).filterMap boundHash) :=
        (List.sublist_cons_self e events).filterMap boundHash
      refine ih (fun sh hsh => ?_) (hdistinct.sublist hsub) (h.2 d' hstep)
      rcases nodesBound_of_step hstep hsh with hold | hnew
      · exact fun hmem => hfresh sh hold (hsub.subset hmem)
      · rw [List.filterMap_cons_some hnew] at hdistinct
        exact (List.nodup_cons.mp hdistinct).1

theorem nodes_owned_iff (events : List (Event C)) :
    (Always step NodesOwned new events ↔ Guarded step Keeps new events) ∧
    ((events.filterMap boundHash).Nodup →
      (Always step NodesOwned new events ↔ Guarded step DropsEmpty new events)) := by
  have hkeeps : Always step NodesOwned (new : Daemon C) events ↔ Guarded step Keeps new events :=
    always_iff_guarded (fun _ h => h.nodes) (fun _ _ _ => step_tidy)
      (fun _ _ h hnext => ⟨dropsEmpty_of_nodesOwned h hnext,
        fun _ _ hcall => allowed_of_nodesOwned h hnext hcall⟩) tidy_new
  refine ⟨hkeeps, fun hdistinct => hkeeps.trans ⟨guarded_imp fun _ _ h => h.1, fun h => ?_⟩⟩
  refine guarded_keeps (fun sh hsh => ?_) hdistinct h
  simp [new, NodeManager.new] at hsh

def ownEvents (id : UInt32) : List (Event sampleCrypto) :=
  [.accept 1, .receive 1 ⟨(), 10⟩ { type := some .nodeRegister },
    .receive 1 ⟨(), 10⟩ { type := some .nodeBind, nodeBind := some ⟨some 1, some [7], none⟩ },
    .receive 1 ⟨(), 10⟩ { type := some .nodeUnregister, nodeUnregister := some ⟨some id⟩ },
    .drop 1]

theorem nodes_owned_unregistered :
    (∃ d, run step new (ownEvents 1) = .ok d) ∧ Always step NodesOwned new (ownEvents 1) := by
  refine ⟨⟨_, rfl⟩, ((nodes_owned_iff (ownEvents 1)).2 (by decide +kernel)).mpr ?_⟩
  refine ⟨trivial, fun d₁ h₁ => ⟨trivial, fun d₂ h₂ => ⟨trivial, fun d₃ h₃ =>
    ⟨trivial, fun d₄ h₄ => ⟨?_, fun _ _ => trivial⟩⟩⟩⟩⟩
  obtain rfl := Except.ok.inj h₁
  obtain rfl := Except.ok.inj h₂
  obtain rfl := Except.ok.inj h₃
  obtain rfl := Except.ok.inj h₄
  rintro id node ⟨session, entry, hs, he, -⟩
  obtain rfl := Option.some.inj hs
  cases StdMap.mem_keys.mpr (Option.isSome_iff_exists.mpr ⟨entry, he⟩)

theorem nodes_outlive_session :
    ∃ d : Daemon sampleCrypto, run step new (ownEvents 2) = .ok d ∧ d.sessions.find 1 = none ∧
      d.manager.getBoundNode (sampleCrypto.serviceHash (7 : ℕ)) = some 10 ∧ ¬NodesOwned d := by
  refine ⟨_, rfl, rfl, rfl, fun h => ?_⟩
  obtain ⟨s, i, session, entry, hs, -⟩ :=
    (h.same 10).mp (.inr ⟨sampleCrypto.serviceHash (7 : ℕ), rfl⟩)
  cases StdMap.mem_keys.mpr (Option.isSome_iff_exists.mpr ⟨session, hs⟩)

end P2PNet.API.Daemon
