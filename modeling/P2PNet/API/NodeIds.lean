import P2PNet.API.Effects

/-! Node ids of one session: the counter is the least free positive id, or zero
when none is free, whatever requests are served and however they end. -/

namespace P2PNet.API

open Lib P2P

namespace APISession

structure LeastFree (s : APISession) : Prop where
  least : s.nextNodeId ≠ 0 → s.nodes.find s.nextNodeId = none ∧
    ∀ id, 0 < id → id < s.nextNodeId → (s.nodes.find id).isSome
  full : s.nextNodeId = 0 ↔ ∀ id, 0 < id → (s.nodes.find id).isSome

lemma advance_zero (keys : List UInt32) : advance keys 0 = 0 := by
  cases keys <;> simp [advance]

lemma pos_iff_ne_zero (id : UInt32) : 0 < id ↔ id ≠ 0 := by
  rw [UInt32.lt_iff_toNat_lt, ne_eq, ← UInt32.toNat_inj]
  simp only [UInt32.toNat_zero]
  omega

lemma succ_le_iff {a b : UInt32} (ha : a + 1 ≠ 0) : a + 1 ≤ b ↔ a < b := by
  rw [ne_eq, ← UInt32.toNat_inj, UInt32.toNat_add] at ha
  rw [UInt32.le_iff_toNat_le, UInt32.lt_iff_toNat_lt, UInt32.toNat_add]
  simp only [UInt32.toNat_one, UInt32.toNat_zero] at *
  have := a.toNat_lt
  omega

lemma le_of_succ_eq_zero {a b : UInt32} (ha : a + 1 = 0) : b ≤ a := by
  rw [← UInt32.toNat_inj, UInt32.toNat_add] at ha
  rw [UInt32.le_iff_toNat_le]
  simp only [UInt32.toNat_one, UInt32.toNat_zero] at *
  have := a.toNat_lt
  have := b.toNat_lt
  omega

lemma advance_ge (keys : List UInt32) {next : UInt32} (hne : next ≠ 0)
    (hr : advance keys next ≠ 0) : next ≤ advance keys next := by
  induction keys generalizing next with
  | nil => exact UInt32.le_refl next
  | cons key keys ih =>
    simp only [advance, if_pos hne] at hr ⊢
    by_cases hle : key ≤ next
    · rw [if_pos hle] at hr ⊢
      have hz : next + 1 ≠ 0 := by
        intro hz
        rw [hz, advance_zero] at hr
        exact hr rfl
      exact UInt32.le_of_lt ((succ_le_iff hz).mp (ih hz hr))
    · rw [if_neg hle]
      exact UInt32.le_refl next

lemma advance_spec {keys : List UInt32} {next : UInt32} (hs : keys.Pairwise (· < ·))
    (hge : ∀ key ∈ keys, next ≤ key) (hne : next ≠ 0) :
    (advance keys next ≠ 0 → advance keys next ∉ keys ∧
      ∀ id, next ≤ id → id < advance keys next → id ∈ keys) ∧
    (advance keys next = 0 → ∀ id, next ≤ id → id ∈ keys) := by
  induction keys generalizing next with
  | nil =>
    refine ⟨fun _ => ⟨by simp, fun id hle hlt => ?_⟩, fun h => absurd h hne⟩
    exact absurd hlt (UInt32.not_lt.mpr hle)
  | cons key keys ih =>
    obtain ⟨hkey, hks⟩ := List.pairwise_cons.mp hs
    have hnk := hge key (by simp)
    simp only [advance, if_pos hne]
    by_cases hle : key ≤ next
    · obtain rfl : next = key := UInt32.le_antisymm hnk hle
      rw [if_pos hle]
      by_cases hz : next + 1 = 0
      · rw [hz, advance_zero]
        refine ⟨fun h => absurd rfl h, fun _ id hid => ?_⟩
        rw [UInt32.le_antisymm (le_of_succ_eq_zero hz) hid]
        exact List.mem_cons_self
      · obtain ⟨hpos, hzero⟩ := ih hks (fun k hk => (succ_le_iff hz).mpr (hkey k hk)) hz
        have hmem : ∀ id, next ≤ id → (next + 1 ≤ id → id ∈ keys) → id ∈ next :: keys := by
          intro id hid hin
          by_cases he : id = next
          · exact he ▸ List.mem_cons_self
          · apply List.mem_cons_of_mem
            exact hin ((succ_le_iff hz).mpr (UInt32.lt_of_le_of_ne hid (Ne.symm he)))
        refine ⟨fun hr => ⟨?_, fun id hid hlt => ?_⟩, fun hr id hid => ?_⟩
        · have hlt := (succ_le_iff hz).mp (advance_ge keys hz hr)
          intro hin
          rcases List.mem_cons.mp hin with he | hin
          · rw [he] at hlt
            exact UInt32.lt_irrefl next hlt
          · exact (hpos hr).1 hin
        · exact hmem id hid (fun h => (hpos hr).2 id h hlt)
        · exact hmem id hid (hzero hr id)
    · rw [if_neg hle]
      have hlt : next < key := UInt32.not_le.mp hle
      refine ⟨fun _ => ⟨?_, fun id hid h => ?_⟩, fun h => absurd h hne⟩
      · intro hin
        rcases List.mem_cons.mp hin with he | hin
        · exact hle (he ▸ UInt32.le_refl _)
        · exact UInt32.lt_asymm hlt (hkey next hin)
      · exact absurd h (UInt32.not_lt.mpr hid)

lemma leastFree_new : LeastFree new := by
  refine ⟨fun _ => ⟨by simp [new], fun id hpos hlt => ?_⟩, ?_⟩
  · rw [UInt32.lt_iff_toNat_lt] at hpos hlt
    simp only [new, UInt32.toNat_one, UInt32.toNat_zero] at hpos hlt
    omega
  · refine ⟨fun h => absurd h (by decide), fun h => ?_⟩
    have h1 := h 1 (by decide)
    simp [new] at h1

lemma register_leastFree {s : APISession} (h : LeastFree s) (hne : s.nextNodeId ≠ 0)
    (entry : NodeT) : LeastFree (s.register entry) := by
  obtain ⟨hfree, hbelow⟩ := h.least hne
  let nodes := s.nodes.insert s.nextNodeId entry
  have hused : ∀ id, (nodes.find id).isSome ↔ id = s.nextNodeId ∨ (s.nodes.find id).isSome := by
    intro id
    by_cases hid : id = s.nextNodeId
    · subst hid
      simp [nodes]
    · simp [nodes, StdMap.find_insert_of_ne _ _ hid, hid]
  have hafter : ∀ id, id ∈ nodes.keysAfter s.nextNodeId ↔
      (nodes.find id).isSome ∧ s.nextNodeId < id := by
    intro id
    rw [StdMap.mem_keysAfter, Std.compare_eq_lt]
  have hsorted : (nodes.keysAfter s.nextNodeId).Pairwise (· < ·) := by
    simpa only [Std.compare_eq_lt] using nodes.keysAfter_sorted s.nextNodeId
  have hupto : ∀ id, 0 < id → id ≤ s.nextNodeId → (nodes.find id).isSome := by
    intro id hpos hle
    rw [hused]
    by_cases hid : id = s.nextNodeId
    · exact Or.inl hid
    · exact Or.inr (hbelow id hpos (UInt32.lt_of_le_of_ne hle hid))
  change LeastFree ⟨nodes, advance (nodes.keysAfter s.nextNodeId) (s.nextNodeId + 1)⟩
  by_cases hz : s.nextNodeId + 1 = 0
  · rw [hz, advance_zero]
    refine ⟨fun hc => absurd rfl hc, fun _ id hpos => ?_, fun _ => rfl⟩
    exact hupto id hpos (le_of_succ_eq_zero hz)
  · obtain ⟨hpos, hzero⟩ := advance_spec hsorted
      (fun key hk => (succ_le_iff hz).mpr ((hafter key).mp hk).2) hz
    have hall : ∀ id, 0 < id → (s.nextNodeId + 1 ≤ id → id ∈ nodes.keysAfter s.nextNodeId) →
        (nodes.find id).isSome := by
      intro id hid hin
      by_cases hle : id ≤ s.nextNodeId
      · exact hupto id hid hle
      · exact ((hafter id).mp (hin ((succ_le_iff hz).mpr (UInt32.not_le.mp hle)))).1
    constructor
    · intro hr
      refine ⟨?_, fun id hid hlt => hall id hid (fun hle => (hpos hr).2 id hle hlt)⟩
      have hge := (succ_le_iff hz).mp (advance_ge (nodes.keysAfter s.nextNodeId) hz hr)
      rw [← Option.not_isSome_iff_eq_none]
      exact fun hin => (hpos hr).1 ((hafter _).mpr ⟨hin, hge⟩)
    · refine ⟨fun hr id hid => hall id hid (hzero hr id), fun hfull => ?_⟩
      by_contra hr
      have hge := (succ_le_iff hz).mp (advance_ge (nodes.keysAfter s.nextNodeId) hz hr)
      apply (hpos hr).1
      exact (hafter _).mpr ⟨hfull _ ((pos_iff_ne_zero _).mpr hr), hge⟩

lemma unregister_leastFree {s : APISession} (h : LeastFree s) {nodeId : UInt32}
    (hz : nodeId ≠ 0) (hin : (s.nodes.find nodeId).isSome) : LeastFree (s.unregister nodeId) := by
  have hpos : 0 < nodeId := (pos_iff_ne_zero nodeId).mpr hz
  have hother : ∀ id, id ≠ nodeId → (s.nodes.erase nodeId).find id = s.nodes.find id :=
    fun id hid => StdMap.find_erase_of_ne _ hid
  have hgone : (s.nodes.erase nodeId).find nodeId = none := StdMap.find_erase_self _ _
  rw [unregister]
  by_cases hlow : s.nextNodeId > nodeId ∨ s.nextNodeId = 0
  · rw [if_pos hlow]
    refine ⟨fun _ => ⟨hgone, fun id hid hlt => ?_⟩, fun hc => absurd hc hz, fun hall => ?_⟩
    · rw [hother id (UInt32.ne_of_lt hlt)]
      rcases hlow with hgt | h0
      · exact (h.least (fun h0 => by simp [h0] at hgt)).2 id hid (UInt32.lt_trans hlt hgt)
      · exact h.full.mp h0 id hid
    · simpa [hgone] using hall nodeId hpos
  · rw [if_neg hlow]
    obtain ⟨hle, hne⟩ := not_or.mp hlow
    obtain ⟨hfree, hbelow⟩ := h.least hne
    have hnn : s.nextNodeId ≠ nodeId := by
      rintro he
      rw [he] at hfree
      simp [hfree] at hin
    refine ⟨fun _ => ⟨(hother _ hnn).trans hfree, fun id hid hlt => ?_⟩, fun hc => absurd hc hne,
      fun hall => ?_⟩
    · have hid' : id ≠ nodeId := by
        rintro rfl
        exact hle hlt
      rw [hother id hid']
      exact hbelow id hid hlt
    · have := hall s.nextNodeId ((pos_iff_ne_zero _).mpr hne)
      simp [hother _ hnn, hfree] at this

structure IdsOk (s : APISession) : Prop extends LeastFree s where
  zero : s.nodes.find 0 = none

lemma idsOk_new : IdsOk new := ⟨leastFree_new, by simp [new]⟩

lemma register_idsOk {s : APISession} (h : IdsOk s) (hne : s.nextNodeId ≠ 0) (entry : NodeT) :
    IdsOk (s.register entry) := by
  refine ⟨register_leastFree h.toLeastFree hne entry, ?_⟩
  exact (StdMap.find_insert_of_ne _ _ hne.symm).trans h.zero

lemma unregister_idsOk {s : APISession} (h : IdsOk s) {nodeId : UInt32}
    (hin : (s.nodes.find nodeId).isSome) : IdsOk (s.unregister nodeId) := by
  have hz : nodeId ≠ 0 := by
    rintro rfl
    simp [h.zero] at hin
  refine ⟨unregister_leastFree h.toLeastFree hz hin, ?_⟩
  exact (StdMap.find_erase_of_ne _ hz.symm).trans h.zero

end APISession

namespace World

variable {C : Crypto}

lemma process_idsOk (self : SessionPtr) (env : Env C) (request : APIMessage) {w : World C}
    (h : w.session.IdsOk) : (after (w.process self env request)).session.IdsOk := by
  rcases session_after_process self env request w with hs | ⟨hne, hs⟩ | ⟨hin, hs⟩
  · exact hs ▸ h
  · exact hs ▸ APISession.register_idsOk h hne _
  · exact hs ▸ APISession.unregister_idsOk h hin

/-- The requests one after the other, up to the first one that ends the daemon. -/
def serve (self : SessionPtr) (w : World C) : List (Env C × APIMessage) → World C
  | [] => w
  | r :: rest =>
    match w.process self r.1 r.2 with
    | .ok w => serve self w rest
    | .error (_, w) => w

lemma serve_invariant {self : SessionPtr} {P : World C → Prop} {D : Env C × APIMessage → Prop}
    (hstep : ∀ w r, D r → P w → P (after (w.process self r.1 r.2))) {w : World C} (hw : P w)
    {requests : List (Env C × APIMessage)} (hrequests : ∀ r ∈ requests, D r) :
    P (w.serve self requests) := by
  induction requests generalizing w with
  | nil => exact hw
  | cons r rest ih =>
    obtain ⟨hr, hrest⟩ := List.forall_mem_cons.mp hrequests
    have hafter := hstep w r hr hw
    rw [serve]
    cases hp : w.process self r.1 r.2 with
    | ok w' =>
      rw [hp] at hafter
      exact ih hafter hrest
    | error e =>
      rw [hp] at hafter
      exact hafter

lemma serve_idsOk (self : SessionPtr) {w : World C} (h : w.session.IdsOk)
    (requests : List (Env C × APIMessage)) : (w.serve self requests).session.IdsOk :=
  serve_invariant (P := fun w => w.session.IdsOk) (D := fun _ => True)
    (fun _ r _ hw => process_idsOk self r.1 r.2 hw) h (fun _ _ => trivial)

theorem next_node_id_least_free (self : SessionPtr) (manager : NodeManager C)
    (requests : List (Env C × APIMessage)) :
    let w := World.serve self ⟨.new, manager, []⟩ requests
    w.session.LeastFree ∧
      ∀ env request, request.getType = .nodeRegister → w.manager.heap.find env.address = none →
        (∃ w' nodeId reply, w.process self env request = .ok w' ∧ nodeId ≠ 0 ∧
          w.session.nodes.find nodeId = none ∧
          w'.session.nodes.find nodeId = some ⟨env.address, 1⟩ ∧
          w'.sent = w.sent ++ [reply] ∧ reply.nodeRegister = some ⟨some nodeId⟩) ∨
        (∀ id, 0 < id → (w.session.nodes.find id).isSome) ∧
          w.process self env request = .ok w := by
  intro w
  have hok : w.session.IdsOk := serve_idsOk self APISession.idsOk_new requests
  refine ⟨hok.toLeastFree, ?_⟩
  intro env request ht hfresh
  by_cases hz : w.session.nextNodeId = 0
  · apply Or.inr
    refine ⟨hok.full.mp hz, ?_⟩
    simp [process, ht, nodeRegister, hz, remoteThrow]
  · apply Or.inl
    obtain ⟨hfree, _⟩ := hok.least hz
    obtain ⟨m, hm⟩ := NodeManager.createNode_returns hfresh (some self)
    refine ⟨_, w.session.nextNodeId, _, process_register ht hz hm, hz, hfree, ?_, rfl, rfl⟩
    simp [APISession.register, hfree]

end World

end P2PNet.API
