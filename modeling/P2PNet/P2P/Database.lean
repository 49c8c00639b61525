import P2PNet.P2P.NodeManager

/-! The database of `NodeManager` over whole runs. Binding a service hash at
which another node is bound breaks it; as long as no call does that, every node
stays in its place and can be destroyed. -/

namespace P2PNet.P2P.NodeManager

open Lib Lib.Runs

variable {C : Crypto} {m m' : NodeManager C} {node p : NodePtr} {sh : SH}

/-- Each live node is in exactly one container, under its own hash if bound, and the containers
hold live nodes only. -/
structure Consistent (m : NodeManager C) : Prop where
  placed : ∀ p, (m.heap.find p).isSome →
    Xor (p ∈ m.nodesUnbound) (∃ sh, m.nodesBound.find sh = some p)
  bound : ∀ sh p, m.nodesBound.find sh = some p →
    ∃ object, m.heap.find p = some object ∧ object.boundSh = sh
  unbound : ∀ p ∈ m.nodesUnbound, (m.heap.find p).isSome

def Allowed (m : NodeManager C) : Op C → Prop
  | .bind node privateKey => m.getBoundNode (C.serviceHash privateKey) = none ∨
      m.getBoundNode (C.serviceHash privateKey) = some node
  | _ => True

instance (m : NodeManager C) : ∀ op, Decidable (Allowed m op)
  | .bind _ _ => inferInstanceAs (Decidable (_ ∨ _))
  | .create _ _ | .unbind _ | .destroy _ => isTrue trivial

structure Inv (m : NodeManager C) : Prop where
  unbound : ∀ p ∈ m.nodesUnbound, ∃ object, m.heap.find p = some object ∧ object.boundSh = []
  bound : ∀ sh p, m.nodesBound.find sh = some p →
    sh ≠ [] ∧ ∃ object, m.heap.find p = some object ∧ object.boundSh = sh
  live : ∀ p object, m.heap.find p = some object →
    p ∈ m.nodesUnbound ∨ m.nodesBound.find object.boundSh = some p

lemma inv_new : Inv (new : NodeManager C) := by
  refine ⟨?_, ?_, ?_⟩
  · intro p hp
    simp [new] at hp
  · intro sh p hp
    simp [new] at hp
  · intro p object hp
    simp [new] at hp

lemma Inv.not_bound_of_unbound (h : Inv m) (hp : p ∈ m.nodesUnbound) (sh : SH) :
    m.nodesBound.find sh ≠ some p := by
  intro hs
  obtain ⟨object, ho, he⟩ := h.unbound p hp
  obtain ⟨hne, object', ho', he'⟩ := h.bound sh p hs
  rw [ho] at ho'
  apply hne
  rw [← he', ← Option.some.inj ho', he]

lemma Inv.consistent (h : Inv m) : Consistent m := by
  refine ⟨?_, fun sh p hp => (h.bound sh p hp).2, ?_⟩
  · intro p hp
    obtain ⟨object, ho⟩ := Option.isSome_iff_exists.mp hp
    by_cases hu : p ∈ m.nodesUnbound
    · exact Or.inl ⟨hu, fun ⟨sh, hs⟩ => h.not_bound_of_unbound hu sh hs⟩
    · have hb := (h.live p object ho).resolve_left hu
      exact Or.inr ⟨⟨_, hb⟩, hu⟩
  · intro p hp
    obtain ⟨object, ho, _⟩ := h.unbound p hp
    simp [ho]

lemma createNode_ok {session : Option SessionPtr} (h : m.createNode p session = .ok m') :
    m.heap.find p = none ∧ m' = { m with
      heap := m.heap.insert p ⟨none, [], session, 0⟩
      nodesUnbound := m.nodesUnbound.insert p } := by
  rw [createNode] at h
  split at h
  · cases h
  · next hp => exact ⟨hp, (Except.ok.inj h).symm⟩

lemma unbindNode_ok (h : m.unbindNode node = .ok m') :
    ∃ object, m.heap.find node = some object ∧
      ((m.nodesBound.find object.boundSh = none ∧ m' = m) ∨
        (∃ q, m.nodesBound.find object.boundSh = some q) ∧ m' = { m with
          nodesBound := (m.nodesBound.erase object.boundSh).insert object.boundSh node }) := by
  rw [unbindNode] at h
  split at h
  · cases h
  · next object ho =>
    refine ⟨object, ho, ?_⟩
    dsimp only at h
    split at h
    · next q hq => exact Or.inr ⟨⟨q, hq⟩, (Except.ok.inj h).symm⟩
    · next hq => exact Or.inl ⟨hq, (Except.ok.inj h).symm⟩

lemma deleteNode_ok (h : m.deleteNode node = .ok m') :
    (∃ object, m.heap.find node = some object) ∧ m' = { m with heap := m.heap.erase node } := by
  rw [deleteNode] at h
  split at h
  · cases h
  · next object ho => exact ⟨⟨object, ho⟩, (Except.ok.inj h).symm⟩

lemma destroyNode_ok (h : m.destroyNode node = .ok m') :
    ∃ object, m.heap.find node = some object ∧
      ((node ∈ m.nodesUnbound ∧ m' = { m with
          nodesUnbound := m.nodesUnbound.erase node, heap := m.heap.erase node }) ∨
        node ∉ m.nodesUnbound ∧ (∃ q, m.nodesBound.find object.boundSh = some q) ∧ m' = { m with
          nodesBound := m.nodesBound.erase object.boundSh, heap := m.heap.erase node }) := by
  rw [destroyNode] at h
  split at h
  · next hu =>
    obtain ⟨⟨object, ho⟩, rfl⟩ := deleteNode_ok h
    exact ⟨object, ho, Or.inl ⟨hu, rfl⟩⟩
  · next hu =>
    split at h
    · cases h
    · next object ho =>
      split at h
      · next q hq =>
        obtain ⟨_, rfl⟩ := deleteNode_ok h
        exact ⟨object, ho, Or.inr ⟨hu, ⟨q, hq⟩, rfl⟩⟩
      · cases h

/-- After `Node::bind` the entry of the new hash is looked up, not that of the old one. -/
lemma bind_ok {key : C.PrivateKey} (h : m.bind node key = .ok m') :
    ∃ object object', m.heap.find node = some object ∧ object'.boundSh = C.serviceHash key ∧
      ((node ∈ m.nodesUnbound ∧ m' = {
          heap := m.heap.assign node object'
          nodesBound := m.nodesBound.insert (C.serviceHash key) node
          nodesUnbound := m.nodesUnbound.erase node }) ∨
        node ∉ m.nodesUnbound ∧ (∃ q, m.nodesBound.find (C.serviceHash key) = some q) ∧
        m' = { m with
          heap := m.heap.assign node object'
          nodesBound :=
            (m.nodesBound.erase (C.serviceHash key)).insert (C.serviceHash key) node }) := by
  rw [bind] at h
  split at h
  · cases h
  · next object ho =>
    refine ⟨object, { object with boundPrivateKey := some key, boundSh := C.serviceHash key },
      ho, rfl, ?_⟩
    dsimp only [bindNode] at h
    split at h
    · next hu => exact Or.inl ⟨hu, (Except.ok.inj h).symm⟩
    · next hu =>
      simp only [StdMap.find_assign, if_true] at h
      split at h
      · next q hq => exact Or.inr ⟨hu, ⟨q, hq⟩, (Except.ok.inj h).symm⟩
      · cases h

lemma listen_ok {count : UInt32} (h : m.listen node count = .ok m') :
    ∃ object, m.heap.find node = some object ∧
      m' = { m with heap := m.heap.assign node { object with maxConnections := count } } := by
  rw [listen] at h
  split at h
  · cases h
  · next object ho => exact ⟨object, ho, (Except.ok.inj h).symm⟩

lemma destroyNode_heap (h : m.destroyNode node = .ok m') : m'.heap = m.heap.erase node := by
  obtain ⟨object, _, ⟨_, rfl⟩ | ⟨_, _, rfl⟩⟩ := destroyNode_ok h
  · rfl
  · rfl

lemma bind_heap {key : C.PrivateKey} (h : m.bind node key = .ok m') :
    ∃ object object', m.heap.find node = some object ∧ m'.heap = m.heap.assign node object' := by
  obtain ⟨object, object', ho, _, ⟨_, rfl⟩ | ⟨_, _, rfl⟩⟩ := bind_ok h
  · exact ⟨object, object', ho, rfl⟩
  · exact ⟨object, object', ho, rfl⟩

lemma find_assign_live {heap : StdMap NodePtr (Node C)} {object object' : Node C}
    (ho : heap.find node = some object) :
    ((heap.assign node object').find p).isSome ↔ (heap.find p).isSome := by
  rw [StdMap.find_assign]
  split
  · next hp => simp [hp, ho]
  · exact .rfl

lemma listen_live {count : UInt32} (h : m.listen node count = .ok m') :
    (m'.heap.find p).isSome ↔ (m.heap.find p).isSome := by
  obtain ⟨object, ho, rfl⟩ := listen_ok h
  exact find_assign_live ho

lemma bind_live {key : C.PrivateKey} (h : m.bind node key = .ok m') :
    (m'.heap.find p).isSome ↔ (m.heap.find p).isSome := by
  obtain ⟨object, object', ho, hheap⟩ := bind_heap h
  rw [hheap]
  exact find_assign_live ho

lemma find_erase_insert (b : StdMap SH NodePtr) (sh a : SH) (q : NodePtr) :
    ((b.erase sh).insert sh q).find a = if a = sh then some q else b.find a := by
  by_cases ha : a = sh
  · subst ha
    simp
  · rw [StdMap.find_insert_of_ne _ _ ha, StdMap.find_erase_of_ne _ ha, if_neg ha]

lemma bind_find_of_ne {key : C.PrivateKey} (hc : m.bind node key = .ok m')
    (hne : sh ≠ C.serviceHash key) : m'.nodesBound.find sh = m.nodesBound.find sh := by
  obtain ⟨_, _, _, _, ⟨_, rfl⟩ | ⟨_, _, rfl⟩⟩ := bind_ok hc
  · exact StdMap.find_insert_of_ne _ _ hne
  · rw [find_erase_insert, if_neg hne]

lemma destroyNode_bound (hc : m.destroyNode node = .ok m')
    (h : (m'.nodesBound.find sh).isSome) : (m.nodesBound.find sh).isSome := by
  obtain ⟨object, _, ⟨_, rfl⟩ | ⟨_, _, rfl⟩⟩ := destroyNode_ok hc
  · exact h
  · rw [StdMap.find_erase] at h
    split at h
    · cases h
    · exact h

lemma find_erase_insert_of_find {b : StdMap SH NodePtr} {q : NodePtr} (h : b.find sh = some q)
    (a : SH) : ((b.erase sh).insert sh q).find a = b.find a := by
  rw [find_erase_insert]
  split
  · next ha => rw [ha, h]
  · rfl

lemma Inv.congr (h : Inv m) (hb : ∀ a, m'.nodesBound.find a = m.nodesBound.find a)
    (hu : m'.nodesUnbound = m.nodesUnbound)
    (hh : ∀ q, (m'.heap.find q).map Node.boundSh = (m.heap.find q).map Node.boundSh) : Inv m' := by
  have heap : ∀ q object, m.heap.find q = some object →
      ∃ object', m'.heap.find q = some object' ∧ object'.boundSh = object.boundSh := by
    intro q object ho
    have hq := hh q
    rw [ho, Option.map_some, Option.map_eq_some_iff] at hq
    exact hq
  refine ⟨?_, ?_, ?_⟩
  · intro q hq
    rw [hu] at hq
    obtain ⟨object, ho, he⟩ := h.unbound q hq
    obtain ⟨object', ho', he'⟩ := heap q object ho
    exact ⟨object', ho', he'.trans he⟩
  · intro a q hq
    rw [hb] at hq
    obtain ⟨hne, object, ho, he⟩ := h.bound a q hq
    obtain ⟨object', ho', he'⟩ := heap q object ho
    exact ⟨hne, object', ho', he'.trans he⟩
  · intro q object' ho'
    have hq := hh q
    rw [ho', Option.map_some, eq_comm, Option.map_eq_some_iff] at hq
    obtain ⟨object, ho, he⟩ := hq
    rw [hu, hb, ← he]
    exact h.live q object ho

lemma createNode_inv {session : Option SessionPtr} (h : Inv m)
    (hc : m.createNode p session = .ok m') : Inv m' := by
  obtain ⟨hp, rfl⟩ := createNode_ok hc
  have hheap : ∀ q object, m.heap.find q = some object →
      (m.heap.insert p ⟨none, [], session, 0⟩).find q = some object := by
    intro q object ho
    have hne : q ≠ p := by
      rintro rfl
      rw [hp] at ho
      cases ho
    rw [StdMap.find_insert_of_ne _ _ hne, ho]
  refine ⟨?_, ?_, ?_⟩
  · intro q hq
    rcases Std.TreeSet.mem_insert.mp hq with he | hq
    · obtain rfl := Std.LawfulEqOrd.compare_eq_iff_eq.mp he
      exact ⟨⟨none, [], session, 0⟩, by simp [hp], rfl⟩
    · obtain ⟨object, ho, he⟩ := h.unbound q hq
      exact ⟨object, hheap q object ho, he⟩
  · intro sh q hq
    obtain ⟨hne, object, ho, he⟩ := h.bound sh q hq
    exact ⟨hne, object, hheap q object ho, he⟩
  · intro q object ho
    by_cases hq : q = p
    · subst hq
      exact Or.inl (Std.TreeSet.mem_insert.mpr (Or.inl (Std.LawfulEqOrd.compare_eq_iff_eq.mpr rfl)))
    · rw [StdMap.find_insert_of_ne _ _ hq] at ho
      exact (h.live q object ho).imp (fun hu => Std.TreeSet.mem_insert.mpr (Or.inr hu)) id

lemma unbindNode_inv (h : Inv m) (hc : m.unbindNode node = .ok m') : Inv m' := by
  obtain ⟨object, ho, ⟨_, rfl⟩ | ⟨⟨q, hq⟩, rfl⟩⟩ := unbindNode_ok hc
  · exact h
  -- an unbound node has the empty hash, under which nothing is bound
  · have hnode : m.nodesBound.find object.boundSh = some node := by
      rcases h.live node object ho with hu | hb
      · obtain ⟨object', ho', he⟩ := h.unbound node hu
        rw [ho] at ho'
        rw [Option.some.inj ho', he] at hq
        exact absurd rfl (h.bound [] q hq).1
      · exact hb
    exact h.congr (find_erase_insert_of_find hnode) rfl (fun _ => rfl)

lemma mem_unbound_erase {q : NodePtr} :
    q ∈ m.nodesUnbound.erase node ↔ node ≠ q ∧ q ∈ m.nodesUnbound := by
  rw [Std.TreeSet.mem_erase, ne_eq, Std.LawfulEqOrd.compare_eq_iff_eq]

lemma Inv.erase_unbound (h : Inv m) (hu : node ∈ m.nodesUnbound) :
    Inv { m with nodesUnbound := m.nodesUnbound.erase node, heap := m.heap.erase node } := by
  refine ⟨?_, ?_, ?_⟩
  · intro q hq
    obtain ⟨hne, hq⟩ := mem_unbound_erase.mp hq
    simpa only [StdMap.find_erase_of_ne _ hne.symm] using h.unbound q hq
  · intro sh q hq
    have hne : q ≠ node := fun he => h.not_bound_of_unbound hu sh (he ▸ hq)
    simpa only [StdMap.find_erase_of_ne _ hne] using h.bound sh q hq
  · intro q object ho
    have hne : q ≠ node := by
      rintro rfl
      simp at ho
    rw [StdMap.find_erase_of_ne _ hne] at ho
    exact (h.live q object ho).imp (fun hq => mem_unbound_erase.mpr ⟨hne.symm, hq⟩) id

lemma Inv.erase_bound {object : Node C} (h : Inv m) (hu : node ∉ m.nodesUnbound)
    (ho : m.heap.find node = some object) :
    Inv { m with nodesBound := m.nodesBound.erase object.boundSh, heap := m.heap.erase node } := by
  have hb := (h.live node object ho).resolve_left hu
  refine ⟨?_, ?_, ?_⟩
  · intro q hq
    have hne : q ≠ node := fun he => hu (he ▸ hq)
    simpa only [StdMap.find_erase_of_ne _ hne] using h.unbound q hq
  · intro sh q hq
    have hsh : sh ≠ object.boundSh := by
      rintro rfl
      simp at hq
    rw [StdMap.find_erase_of_ne _ hsh] at hq
    obtain ⟨hsne, object', ho', he⟩ := h.bound sh q hq
    have hne : q ≠ node := by
      rintro rfl
      rw [ho] at ho'
      apply hsh
      rw [Option.some.inj ho', he]
    exact ⟨hsne, object', by rwa [StdMap.find_erase_of_ne _ hne], he⟩
  · intro q object' ho'
    have hne : q ≠ node := by
      rintro rfl
      simp at ho'
    rw [StdMap.find_erase_of_ne _ hne] at ho'
    refine (h.live q object' ho').imp id (fun hq => ?_)
    have hsh : object'.boundSh ≠ object.boundSh := by
      intro he
      rw [he, hb] at hq
      exact hne (Option.some.inj hq).symm
    rwa [StdMap.find_erase_of_ne _ hsh]

lemma destroyNode_inv (h : Inv m) (hc : m.destroyNode node = .ok m') : Inv m' := by
  obtain ⟨object, ho, ⟨hu, rfl⟩ | ⟨hu, _, rfl⟩⟩ := destroyNode_ok hc
  · exact h.erase_unbound hu
  · exact h.erase_bound hu ho

lemma Inv.insert_bound {object : Node C} (h : Inv m) (hu : node ∈ m.nodesUnbound) (hne : sh ≠ [])
    (hfree : m.nodesBound.find sh = none) (he : object.boundSh = sh) :
    Inv {
      heap := m.heap.assign node object
      nodesBound := m.nodesBound.insert sh node
      nodesUnbound := m.nodesUnbound.erase node } := by
  refine ⟨?_, ?_, ?_⟩
  · intro q hq
    obtain ⟨hqn, hq⟩ := mem_unbound_erase.mp hq
    simpa only [StdMap.find_assign, if_neg hqn.symm] using h.unbound q hq
  · intro sh' q hq
    rw [StdMap.find_insert] at hq
    split at hq
    · next hsh =>
      rw [hfree, Option.getD_none] at hq
      obtain rfl := Option.some.inj hq
      refine ⟨hsh ▸ hne, object, ?_, he.trans hsh.symm⟩
      rw [StdMap.find_assign, if_pos rfl]
    · have hqn : q ≠ node := fun hqn => h.not_bound_of_unbound hu sh' (hqn ▸ hq)
      simpa only [StdMap.find_assign, if_neg hqn] using h.bound sh' q hq
  · intro q object' ho
    rw [StdMap.find_assign] at ho
    split at ho
    · next hqn =>
      obtain rfl := Option.some.inj ho
      rw [he, hqn]
      exact Or.inr (by simp [hfree])
    · next hqn =>
      refine (h.live q object' ho).imp
        (fun hq => mem_unbound_erase.mpr ⟨Ne.symm hqn, hq⟩) (fun hq => ?_)
      have hsh : object'.boundSh ≠ sh := by
        intro hs
        rw [hs, hfree] at hq
        cases hq
      rwa [StdMap.find_insert_of_ne _ _ hsh]

lemma bind_inv {key : C.PrivateKey} (h : Inv m) (ha : Allowed m (.bind node key))
    (hc : m.bind node key = .ok m') : Inv m' := by
  obtain ⟨object, object', ho, he, ⟨hu, rfl⟩ | ⟨hu, ⟨q, hq⟩, rfl⟩⟩ := bind_ok hc
  · have hfree := ha.resolve_right (h.not_bound_of_unbound hu _)
    exact h.insert_bound hu (C.serviceHash_ne_nil key) hfree he
  · obtain rfl : q = node := by
      rcases ha with hn | hn
      · exact absurd (hq.symm.trans hn) (by simp)
      · exact Option.some.inj (hq.symm.trans hn)
    refine h.congr (find_erase_insert_of_find hq) rfl (fun p => ?_)
    obtain ⟨_, object₀, ho₀, he₀⟩ := h.bound _ q hq
    rw [StdMap.find_assign]
    split
    · next hp => rw [hp, ho₀, Option.map_some, Option.map_some, he, he₀]
    · rfl

lemma listen_inv {count : UInt32} (h : Inv m) (hc : m.listen node count = .ok m') : Inv m' := by
  obtain ⟨object, ho, rfl⟩ := listen_ok hc
  refine h.congr (fun _ => rfl) rfl (fun q => ?_)
  rw [StdMap.find_assign]
  split
  · next hq => rw [hq, ho, Option.map_some, Option.map_some]
  · rfl

theorem step_inv (m : NodeManager C) (op : Op C) (m' : NodeManager C) (h : Inv m)
    (ha : Allowed m op) (hs : m.step op = .ok m') : Inv m' := by
  cases op with
  | create address session => exact createNode_inv h hs
  | bind node key => exact bind_inv h ha hs
  | unbind node => exact unbindNode_inv h hs
  | destroy node => exact destroyNode_inv h hs

lemma destroyNode_returns {object : Node C} (ho : m.heap.find p = some object)
    (hp : p ∈ m.nodesUnbound ∨ (m.getBoundNode object.boundSh).isSome) :
    ∃ m', m.destroyNode p = .ok m' := by
  rw [destroyNode]
  split
  · exact ⟨{ m with nodesUnbound := m.nodesUnbound.erase p, heap := m.heap.erase p },
      by simp [deleteNode, ho]⟩
  · next hu =>
    obtain ⟨q, hq⟩ := Option.isSome_iff_exists.mp (hp.resolve_left hu)
    rw [getBoundNode] at hq
    exact ⟨{ m with nodesBound := m.nodesBound.erase object.boundSh, heap := m.heap.erase p },
      by simp [ho, hq, deleteNode]⟩

lemma bind_returns {key : C.PrivateKey} (hp : (m.heap.find p).isSome)
    (hk : p ∈ m.nodesUnbound ∨ (m.getBoundNode (C.serviceHash key)).isSome) :
    ∃ m', m.bind p key = .ok m' := by
  obtain ⟨object, ho⟩ := Option.isSome_iff_exists.mp hp
  simp only [bind, ho, bindNode]
  split
  · exact ⟨_, rfl⟩
  · next hu =>
    obtain ⟨q, hq⟩ := Option.isSome_iff_exists.mp (hk.resolve_left hu)
    rw [getBoundNode] at hq
    simp [StdMap.find_assign, hq]

lemma listen_returns (hp : (m.heap.find p).isSome) (count : UInt32) :
    ∃ m', m.listen p count = .ok m' := by
  obtain ⟨object, ho⟩ := Option.isSome_iff_exists.mp hp
  simp [listen, ho]

lemma Inv.destroyNode_returns (h : Inv m) (hp : (m.heap.find p).isSome) :
    ∃ m', m.destroyNode p = .ok m' := by
  obtain ⟨object, ho⟩ := Option.isSome_iff_exists.mp hp
  refine NodeManager.destroyNode_returns ho ((h.live p object ho).imp id ?_)
  intro hb
  exact Option.isSome_iff_exists.mpr ⟨p, hb⟩

def Holds (m : NodeManager C) (p : NodePtr) : Prop :=
  p ∈ m.nodesUnbound ∨ ∃ sh, m.nodesBound.find sh = some p

lemma Inv.holds_iff (h : Inv m) : m.Holds p ↔ (m.heap.find p).isSome := by
  constructor
  · rintro (hu | ⟨sh, hs⟩)
    · obtain ⟨object, ho, _⟩ := h.unbound p hu
      simp [ho]
    · obtain ⟨_, object, ho, _⟩ := h.bound sh p hs
      simp [ho]
  · intro hp
    obtain ⟨object, ho⟩ := Option.isSome_iff_exists.mp hp
    exact (h.live p object ho).imp id (fun hb => ⟨_, hb⟩)

lemma Inv.sh_eq (h : Inv m) {sh' : SH} (hs : m.nodesBound.find sh = some p)
    (hs' : m.nodesBound.find sh' = some p) : sh = sh' := by
  obtain ⟨_, object, ho, he⟩ := h.bound sh p hs
  obtain ⟨_, object', ho', he'⟩ := h.bound sh' p hs'
  rw [ho] at ho'
  rw [← he, ← he', Option.some.inj ho']

/-- A bind at the hash of another node's entry takes a live node out of the database. -/
lemma bind_lost {key : C.PrivateKey} (h : Inv m) (hc : m.bind node key = .ok m')
    (hna : ¬Allowed m (.bind node key)) : ∃ p, (m.heap.find p).isSome ∧ ¬m'.Holds p := by
  obtain ⟨hq, hqn⟩ := not_or.mp hna
  obtain ⟨q, hq⟩ := Option.ne_none_iff_exists'.mp hq
  replace hqn : q ≠ node := fun he => hqn (he ▸ hq)
  replace hq : m.nodesBound.find (C.serviceHash key) = some q := hq
  obtain ⟨object, object', ho, he, ⟨hu, rfl⟩ | ⟨hu, _, rfl⟩⟩ := bind_ok hc
  -- the insertion was refused, so the node is nowhere
  · refine ⟨node, by simp [ho], ?_⟩
    rintro (hmem | ⟨sh, hs⟩)
    · exact (mem_unbound_erase.mp hmem).1 rfl
    · rw [StdMap.find_insert] at hs
      split at hs
      · rw [hq] at hs
        exact hqn (Option.some.inj hs)
      · exact h.not_bound_of_unbound hu sh hs
  -- the entry of the other node was replaced, so that node is nowhere
  · refine ⟨q, h.holds_iff.mp (.inr ⟨_, hq⟩), ?_⟩
    rintro (hmem | ⟨sh, hs⟩)
    · exact h.not_bound_of_unbound hmem _ hq
    · rw [find_erase_insert] at hs
      split at hs
      · exact hqn (Option.some.inj hs).symm
      · next hsh => exact hsh (h.sh_eq hs hq)

lemma allowed_of_consistent_bind {key : C.PrivateKey} (h : Inv m)
    (hc : m.bind node key = .ok m') (hm : Consistent m') : Allowed m (.bind node key) := by
  by_contra hna
  obtain ⟨p, hp, hlost⟩ := bind_lost h hc hna
  exact hlost (hm.placed p ((bind_live hc).mpr hp)).or

theorem database_consistent {ops : List (Op C)} (ha : Guarded step Allowed new ops)
    (h : run step new ops = .ok m) :
    Consistent m ∧ (∀ p, (m.heap.find p).isSome → ∃ m', m.destroyNode p = .ok m') ∧
      ∀ node key m', m.bind node key = .ok m' → (Consistent m' ↔ Allowed m (.bind node key)) := by
  have hi : Inv m := guarded_invariant step_inv inv_new ha h
  refine ⟨hi.consistent, fun p hp => hi.destroyNode_returns hp, ?_⟩
  intro node key m' hm
  exact ⟨allowed_of_consistent_bind hi hm, fun hal => (bind_inv hi hal hm).consistent⟩

theorem database_consistent_rebind :
    ∃ m : NodeManager sampleCrypto, run step new [.create 1 none, .create 2 (some 7),
      .bind 1 (1 : ℕ), .bind 2 (2 : ℕ), .bind 1 (1 : ℕ), .unbind 2, .destroy 1] = .ok m ∧
      Consistent m := by
  have ha : Guarded step Allowed (new : NodeManager sampleCrypto)
      [.create 1 none, .create 2 (some 7), .bind 1 (1 : ℕ), .bind 2 (2 : ℕ), .bind 1 (1 : ℕ),
        .unbind 2, .destroy 1] := by
    decide
  exact ⟨_, rfl, (database_consistent ha rfl).1⟩

theorem database_broken_by_shared_key :
    ∃ m m' : NodeManager sampleCrypto,
      run step new [.create 1 none, .create 2 none, .bind 1 (1 : ℕ), .bind 2 (1 : ℕ)] = .ok m ∧
      ¬ Consistent m ∧ m.destroyNode 2 = .ok m' ∧ (m'.heap.find 1).isSome ∧
      m'.destroyNode 1 = .error (.systemError .nodemanagerDbNonConsistent, m') := by
  refine ⟨_, _, rfl, ?_, rfl, rfl, rfl⟩
  intro hc
  rcases hc.placed 2 rfl with ⟨hu, _⟩ | ⟨⟨sh, hs⟩, _⟩
  · exact absurd hu (by decide)
  · obtain ⟨object, ho, rfl⟩ := hc.bound sh 2 hs
    obtain rfl := Option.some.inj ho
    exact absurd hs (by decide)

end P2PNet.P2P.NodeManager
