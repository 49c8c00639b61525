import P2PNet.P2P.Database

/-! `Node::bind` in every state that creating and binding nodes leads to, calls
that threw included. The node has its new hash before the database looks for the
old one, so a node that is bound elsewhere already is never moved. -/

namespace P2PNet.P2P

open Lib

/-- The state that a call leaves, whether it returns or throws. -/
def stateAfter {σ : Type} (outcome : Outcome σ) : σ :=
  match outcome with
  | .ok s => s
  | .error (_, s) => s

@[simp] lemma stateAfter_ok {σ : Type} (s : σ) : stateAfter (.ok s) = s := rfl

@[simp] lemma stateAfter_error {σ : Type} (e : Escape) (s : σ) :
    stateAfter (.error (e, s)) = s := rfl

namespace NodeManager

variable {C : Crypto} {m : NodeManager C} {node p : NodePtr} {key : C.PrivateKey} {object : Node C}

inductive Reached : NodeManager C → Prop
  | new : Reached new
  | create {m : NodeManager C} (address : NodePtr) (session : Option SessionPtr) :
      Reached m → Reached (stateAfter (m.createNode address session))
  | bind {m : NodeManager C} (node : NodePtr) (key : C.PrivateKey) :
      Reached m → Reached (stateAfter (m.bind node key))

def getLocalSH (m : NodeManager C) (node : NodePtr) : Option SH :=
  (m.heap.find node).map Node.boundSh

def boundPrivateKey (m : NodeManager C) (node : NodePtr) : Option C.PrivateKey :=
  (m.heap.find node).bind Node.boundPrivateKey

def isBound (m : NodeManager C) (node : NodePtr) : Bool :=
  (m.getLocalSH node).any Hash.isPresent

/-- The node is at the service hash of the key, and nowhere else. -/
structure BoundTo (m : NodeManager C) (node : NodePtr) (sh : SH) : Prop where
  local_sh : m.getLocalSH node = some sh
  resolves : m.getBoundNode sh = some node
  only : ∀ sh', sh' ≠ sh → m.getBoundNode sh' ≠ some node

structure Unchanged (m m' : NodeManager C) (node : NodePtr) : Prop where
  private_key : m'.boundPrivateKey node = m.boundPrivateKey node
  local_sh : m'.getLocalSH node = m.getLocalSH node
  bound : m'.nodesBound = m.nodesBound
  unbound : m'.nodesUnbound = m.nodesUnbound

def AllOrNothing (m : NodeManager C) (node : NodePtr) (key : C.PrivateKey) : Prop :=
  ((∃ m', m.bind node key = .ok m' ∧ m'.BoundTo node (C.serviceHash key)) ∨
    ∃ escape m', m.bind node key = .error (escape, m') ∧ m.Unchanged m' node) ∧
  (m.isBound node → m.getBoundNode (C.serviceHash key) = none → ∃ m', m.bind node key = .ok m')

def withKey (object : Node C) (key : C.PrivateKey) : Node C :=
  { object with boundPrivateKey := some key, boundSh := C.serviceHash key }

/-- What `Node::bind` does to a node that exists. -/
inductive BindCase (m : NodeManager C) (node : NodePtr) (key : C.PrivateKey) (object : Node C) :
    Prop
  | unbound : node ∈ m.nodesUnbound →
      m.bind node key = .ok {
        heap := m.heap.assign node (withKey object key)
        nodesBound := m.nodesBound.insert (C.serviceHash key) node
        nodesUnbound := m.nodesUnbound.erase node } → BindCase m node key object
  | replaced (q : NodePtr) : node ∉ m.nodesUnbound →
      m.nodesBound.find (C.serviceHash key) = some q →
      m.bind node key = .ok { m with
        heap := m.heap.assign node (withKey object key)
        nodesBound := (m.nodesBound.erase (C.serviceHash key)).insert (C.serviceHash key) node } →
      BindCase m node key object
  | thrown : node ∉ m.nodesUnbound → m.nodesBound.find (C.serviceHash key) = none →
      m.bind node key = .error (.systemError .nodemanagerDbNonConsistent,
        { m with heap := m.heap.assign node (withKey object key) }) → BindCase m node key object

lemma find_withKey (heap : StdMap NodePtr (Node C)) :
    (heap.assign node (withKey object key)).find node = some (withKey object key) := by
  rw [StdMap.find_assign, if_pos rfl]

lemma bind_cases (ho : m.heap.find node = some object) (key : C.PrivateKey) :
    BindCase m node key object := by
  have hbind : m.bind node key =
      bindNode { m with heap := m.heap.assign node (withKey object key) } node
        (C.serviceHash key) := by
    simp [bind, ho, withKey]
  have hsh : (withKey object key).boundSh = C.serviceHash key := rfl
  by_cases hu : node ∈ m.nodesUnbound
  · exact .unbound hu (by rw [hbind, bindNode, if_pos hu])
  · cases hq : m.nodesBound.find (C.serviceHash key) with
    | some q =>
      refine .replaced q hu hq ?_
      simp [hbind, bindNode, hu, StdMap.find_assign, hsh, hq]
    | none =>
      refine .thrown hu hq ?_
      simp [hbind, bindNode, hu, StdMap.find_assign, hsh, hq]

lemma getLocalSH_after_bind (ho : m.heap.find node = some object) (key : C.PrivateKey) :
    (stateAfter (m.bind node key)).getLocalSH node = some (C.serviceHash key) := by
  have hassign : ((m.heap.assign node (withKey object key)).find node).map Node.boundSh =
      some (C.serviceHash key) := by
    rw [find_withKey]
    rfl
  cases bind_cases ho key with
  | unbound _ hbind =>
    rw [hbind]
    exact hassign
  | replaced _ _ _ hbind =>
    rw [hbind]
    exact hassign
  | thrown _ _ hbind =>
    rw [hbind]
    exact hassign

/-- The containers see the service hash of a key only. -/
lemma containers_after_bind (ho : m.heap.find node = some object) (key : C.PrivateKey) :
    (stateAfter (m.bind node key)).nodesBound =
      (if node ∈ m.nodesUnbound then m.nodesBound.insert (C.serviceHash key) node
      else if (m.nodesBound.find (C.serviceHash key)).isSome then
        (m.nodesBound.erase (C.serviceHash key)).insert (C.serviceHash key) node
      else m.nodesBound) ∧
    (stateAfter (m.bind node key)).nodesUnbound =
      if node ∈ m.nodesUnbound then m.nodesUnbound.erase node else m.nodesUnbound := by
  cases bind_cases ho key with
  | unbound hu hbind => simp [hbind, hu]
  | replaced q hu hq hbind => simp [hbind, hu, hq]
  | thrown hu hq hbind => simp [hbind, hu, hq]

/-- What is left of the database when keys may be shared and calls may throw. -/
structure Traced (m : NodeManager C) : Prop where
  unbound : ∀ p ∈ m.nodesUnbound, ∀ sh, m.nodesBound.find sh ≠ some p
  bound : ∀ p object, m.heap.find p = some object → p ∉ m.nodesUnbound → object.boundSh ≠ []
  live : ∀ sh p, m.nodesBound.find sh = some p → (m.heap.find p).isSome

lemma traced_new : Traced (new : NodeManager C) := by
  refine ⟨?_, ?_, ?_⟩
  · intro p hp
    simp [new] at hp
  · intro p object ho
    simp [new] at ho
  · intro sh p hp
    simp [new] at hp

lemma Traced.createNode (h : Traced m) (address : NodePtr) (session : Option SessionPtr) :
    Traced (stateAfter (m.createNode address session)) := by
  cases hc : m.createNode address session with
  | error e =>
    rw [NodeManager.createNode] at hc
    split at hc
    · obtain rfl := Except.error.inj hc
      exact h
    · cases hc
  | ok m' =>
    obtain ⟨hfree, rfl⟩ := createNode_ok hc
    rw [stateAfter_ok]
    refine ⟨?_, ?_, ?_⟩
    · intro p hp sh hs
      rcases Std.TreeSet.mem_insert.mp hp with he | hp
      · obtain rfl := Std.LawfulEqOrd.compare_eq_iff_eq.mp he
        have hlive := h.live sh _ hs
        rw [hfree] at hlive
        cases hlive
      · exact h.unbound p hp sh hs
    · intro p object ho hp
      rw [Std.TreeSet.mem_insert, Std.LawfulEqOrd.compare_eq_iff_eq, not_or] at hp
      rw [StdMap.find_insert_of_ne _ _ (Ne.symm hp.1)] at ho
      exact h.bound p object ho hp.2
    · intro sh p hp
      have hlive := h.live sh p hp
      by_cases he : p = address
      · rw [he, hfree] at hlive
        cases hlive
      · rwa [StdMap.find_insert_of_ne _ _ he]

lemma Traced.assign (h : Traced m) (ho : m.heap.find node = some object) (key : C.PrivateKey) :
    Traced { m with heap := m.heap.assign node (withKey object key) } := by
  refine ⟨h.unbound, ?_, ?_⟩
  · intro p object' hp hpu
    rw [StdMap.find_assign] at hp
    split at hp
    · obtain rfl := Option.some.inj hp
      exact C.serviceHash_ne_nil key
    · exact h.bound p object' hp hpu
  · intro sh p hp
    exact (find_assign_live ho).mpr (h.live sh p hp)

lemma Traced.insert (h : Traced m) (ho : m.heap.find node = some object)
    (hsh : object.boundSh ≠ []) (sh : SH) :
    Traced { m with
      nodesBound := m.nodesBound.insert sh node, nodesUnbound := m.nodesUnbound.erase node } := by
  refine ⟨?_, ?_, ?_⟩
  · intro p hp sh' hs
    obtain ⟨hne, hp⟩ := mem_unbound_erase.mp hp
    rcases StdMap.eq_or_find_of_find_insert hs with he | hs
    · exact hne he.symm
    · exact h.unbound p hp sh' hs
  · intro p object' hp hpu
    by_cases hpn : p = node
    · rw [hpn, ho] at hp
      obtain rfl := Option.some.inj hp
      exact hsh
    · apply h.bound p object' hp
      intro hmem
      exact hpu (mem_unbound_erase.mpr ⟨Ne.symm hpn, hmem⟩)
  · intro sh' p hp
    rcases StdMap.eq_or_find_of_find_insert hp with he | hp
    · simp [he, ho]
    · exact h.live sh' p hp

lemma Traced.replace (h : Traced m) (ho : m.heap.find node = some object)
    (hu : node ∉ m.nodesUnbound) (sh : SH) :
    Traced { m with nodesBound := (m.nodesBound.erase sh).insert sh node } := by
  refine ⟨?_, h.bound, ?_⟩
  · intro p hp sh' hs
    rw [find_erase_insert] at hs
    split at hs
    · exact hu (Option.some.inj hs ▸ hp)
    · exact h.unbound p hp sh' hs
  · intro sh' p hp
    rw [find_erase_insert] at hp
    split at hp
    · simp [← Option.some.inj hp, ho]
    · exact h.live sh' p hp

lemma Traced.bind (h : Traced m) (node : NodePtr) (key : C.PrivateKey) :
    Traced (stateAfter (m.bind node key)) := by
  cases ho : m.heap.find node with
  | none =>
    have hbind : m.bind node key = .error (.dangling, m) := by simp [NodeManager.bind, ho]
    rw [hbind]
    exact h
  | some object =>
    have hassign := h.assign ho key
    cases bind_cases ho key with
    | unbound hu hbind =>
      rw [hbind]
      exact hassign.insert (find_withKey _) (C.serviceHash_ne_nil key) _
    | replaced q hu hq hbind =>
      rw [hbind]
      exact hassign.replace (find_withKey _) hu _
    | thrown hu hq hbind =>
      rw [hbind]
      exact hassign

lemma Reached.traced (h : Reached m) : Traced m := by
  induction h with
  | new => exact traced_new
  | create address session _ ih => exact ih.createNode address session
  | bind node key _ ih => exact ih.bind node key

lemma Traced.isBound (h : Traced m) (ho : m.heap.find node = some object)
    (hu : node ∉ m.nodesUnbound) : m.isBound node = true := by
  simp [NodeManager.isBound, getLocalSH, ho, Hash.isPresent_iff, h.bound node object ho hu]

lemma allOrNothing_iff_of_ok {m' : NodeManager C} (hbind : m.bind node key = .ok m') :
    m.AllOrNothing node key ↔ m'.BoundTo node (C.serviceHash key) := by
  constructor
  · rintro ⟨⟨m'', hm'', hto⟩ | ⟨escape, m'', hm'', _⟩, _⟩
    · obtain rfl := Except.ok.inj (hbind.symm.trans hm'')
      exact hto
    · rw [hbind] at hm''
      cases hm''
  · exact fun hto => ⟨Or.inl ⟨m', hbind, hto⟩, fun _ _ => ⟨m', hbind⟩⟩

lemma boundTo_withKey_iff {bound : StdMap SH NodePtr} {unbound : Std.TreeSet NodePtr compare} :
    BoundTo ⟨bound, unbound, m.heap.assign node (withKey object key)⟩ node (C.serviceHash key) ↔
      bound.find (C.serviceHash key) = some node ∧
        ∀ sh, sh ≠ C.serviceHash key → bound.find sh ≠ some node := by
  refine ⟨fun h => ⟨h.resolves, h.only⟩, fun h => ⟨?_, h.1, h.2⟩⟩
  rw [getLocalSH, find_withKey, Option.map_some]
  rfl

theorem bind_all_or_nothing_iff (hm : Reached m) (ho : m.heap.find node = some object)
    (key : C.PrivateKey) :
    m.AllOrNothing node key ↔
      (node ∈ m.nodesUnbound ∧ m.getBoundNode (C.serviceHash key) = none) ∨
      (node ∉ m.nodesUnbound ∧ (m.getBoundNode (C.serviceHash key)).isSome ∧
        ∀ sh, sh ≠ C.serviceHash key → m.getBoundNode sh ≠ some node) := by
  have ht := hm.traced
  cases bind_cases ho key with
  | unbound hu hbind =>
    rw [allOrNothing_iff_of_ok hbind, boundTo_withKey_iff, StdMap.find_insert_self]
    constructor
    · rintro ⟨hres, _⟩
      refine Or.inl ⟨hu, ?_⟩
      cases hq : m.nodesBound.find (C.serviceHash key) with
      | none => exact hq
      | some q =>
        rw [hq] at hres
        exact absurd (hq.trans hres) (ht.unbound node hu _)
    · rintro (⟨_, hfree⟩ | ⟨hn, _⟩)
      · rw [getBoundNode] at hfree
        refine ⟨by rw [hfree, Option.getD_none], fun sh hne => ?_⟩
        rw [StdMap.find_insert_of_ne _ _ hne]
        exact ht.unbound node hu sh
      · exact absurd hu hn
  | replaced q hu hq hbind =>
    rw [allOrNothing_iff_of_ok hbind, boundTo_withKey_iff]
    have hothers : ∀ sh, sh ≠ C.serviceHash key → ((m.nodesBound.erase (C.serviceHash key)).insert
        (C.serviceHash key) node).find sh = m.getBoundNode sh := by
      intro sh hne
      rw [find_erase_insert, if_neg hne, getBoundNode]
    constructor
    · rintro ⟨_, honly⟩
      refine Or.inr ⟨hu, by simp [getBoundNode, hq], fun sh hne => ?_⟩
      exact hothers sh hne ▸ honly sh hne
    · rintro (⟨hn, _⟩ | ⟨_, _, honly⟩)
      · exact absurd hn hu
      · refine ⟨by rw [find_erase_insert, if_pos rfl], fun sh hne => ?_⟩
        exact (hothers sh hne).symm ▸ honly sh hne
  | thrown hu hq hbind =>
    constructor
    · rintro ⟨_, hthrow⟩
      obtain ⟨m', hm'⟩ := hthrow (ht.isBound ho hu) hq
      rw [hbind] at hm'
      cases hm'
    · rintro (⟨hn, _⟩ | ⟨_, hsome, _⟩)
      · exact absurd hn hu
      · rw [getBoundNode, hq] at hsome
        cases hsome

theorem first_bind_all_or_nothing :
    ∃ m : NodeManager sampleCrypto, Lib.Runs.run step new [.create 1 none, .bind 1 (1 : ℕ),
      .create 2 none] = .ok m ∧ Reached m ∧ m.AllOrNothing 2 (2 : ℕ) := by
  have hm : Reached (C := sampleCrypto) _ := .create 2 none (.bind 1 (1 : ℕ) (.create 1 none .new))
  refine ⟨_, rfl, hm, ?_⟩
  exact (bind_all_or_nothing_iff hm rfl (2 : ℕ)).mpr (Or.inl ⟨by decide, by decide⟩)

/-- A bound node throws on a free key and has the new hash all the same; on the key of another
node it returns, and is found at its old hash as well. -/
theorem rebind_neither_all_nor_nothing :
    (∃ m m' : NodeManager sampleCrypto, Reached m ∧ m.isBound 1 ∧
      m.getBoundNode (sampleCrypto.serviceHash (2 : ℕ)) = none ∧
      m.bind 1 (2 : ℕ) = .error (.systemError .nodemanagerDbNonConsistent, m') ∧
      m.getLocalSH 1 = some (sampleCrypto.serviceHash (1 : ℕ)) ∧
      m'.getLocalSH 1 = some (sampleCrypto.serviceHash (2 : ℕ))) ∧
    ∃ m m' : NodeManager sampleCrypto, Reached m ∧ m.bind 1 (2 : ℕ) = .ok m' ∧
      m'.getBoundNode (sampleCrypto.serviceHash (1 : ℕ)) = some 1 ∧
      m'.getBoundNode (sampleCrypto.serviceHash (2 : ℕ)) = some 1 := by
  have hone : Reached (C := sampleCrypto) _ := .bind 1 (1 : ℕ) (.create 1 none .new)
  have htwo : Reached (C := sampleCrypto) _ := .bind 2 (2 : ℕ) (.create 2 none hone)
  exact ⟨⟨_, _, hone, by decide, by decide, rfl, by decide, by decide⟩,
    ⟨_, _, htwo, rfl, by decide, by decide⟩⟩

end NodeManager

end P2PNet.P2P
