import P2PNet.DHT.Routing

/-! Repeated entries. A leaf with room takes a node without looking for it, and
`std::remove_if` on a full leaf doubles the nodes that it moves over bad ones;
a call that does neither keeps every node of the tree unique. -/

namespace P2PNet.DHT.KBucket

open Lib.Runs Lib.Lists

variable {ν : Type} {getHash : ν → Hash} {own : Hash} {k : ℕ}

/-- The leaf that `addNode` comes to. -/
def leafFor (hash : Hash) : KBucket ν → Except Fault (Fields × List ν)
  | .leaf c contents => .ok (c, contents)
  | .inner c first second => do
    if (← getBit hash (c.index + 1)) = false then leafFor hash first else leafFor hash second

lemma leafFor_join {c : Fields} {b : Bool} {u w : KBucket ν} {hash : Hash}
    (hb : getBit hash (c.index + 1) = .ok b) : (join c b u w).leafFor hash = u.leafFor hash := by
  cases b <;> simp [join, leafFor, hb, bind, Except.bind]

lemma leafFor_of_route {t : KBucket ν} {hash : Hash} {path : List Bool} {c : Fields}
    {contents : List ν} (hr : t.route hash = .ok path)
    (hat : t.bucketAt path = some (.leaf c contents)) : t.leafFor hash = .ok (c, contents) := by
  induction t using child_induction generalizing path with
  | leaf c' contents' =>
    obtain rfl := Except.ok.inj hr
    obtain ⟨rfl, rfl⟩ : c' = c ∧ contents' = contents := by simpa using hat
    rfl
  | inner c' first second ih =>
    obtain ⟨b, rest, hb, hrest, rfl⟩ := route_inner hr
    rw [inner_eq_join c' b] at hat ⊢
    rw [bucketAt_join_same] at hat
    rw [leafFor_join hb]
    exact ih b hrest hat

def BadLast (getReliability : ν → Reliability) (contents : List ν) : Prop :=
  contents.Pairwise (fun m n => getReliability m = .bad → getReliability n = .bad)

/-- With room the node must be new to the leaf, without room no bad node may stand before one
that is not. -/
def Admits (getReliability : ν → Reliability) (node : ν) (c : Fields) (contents : List ν) : Prop :=
  if contents.length < c.k then node ∉ contents else BadLast getReliability contents

variable {getReliability : ν → Reliability} {node : ν} {force : Bool}

lemma clean_eq_self {contents : List ν} (h : BadLast getReliability contents) :
    clean getReliability contents = contents :=
  removeIf_eq_self (h.imp (by simp))

lemma agrees_of_mem_nodes {path : List Bool} {t : KBucket ν} (hw : Wf getHash own k path t) {n : ν}
    (hn : n ∈ t.nodes) : Agrees (getHash n) path := by
  induction t generalizing path with
  | leaf c contents => exact hw.2.1 n hn
  | inner c first second ihf ihs =>
    obtain ⟨_, _, _, hf, hs⟩ := hw
    rcases List.mem_append.mp hn with hn | hn
    · exact (agrees_concat.mp (ihf hf hn)).1
    · exact (agrees_concat.mp (ihs hs hn)).1

variable [DecidableEq ν]

instance (contents : List ν) : Decidable (BadLast getReliability contents) :=
  inferInstanceAs (Decidable (List.Pairwise _ _))

instance (c : Fields) (contents : List ν) : Decidable (Admits getReliability node c contents) :=
  inferInstanceAs (Decidable (ite _ _ _))

variable (getHash) in
def Fresh (t : KBucket ν) : Op ν → Prop
  | .add node _ getReliability => ∀ place, t.leafFor (getHash node) = .ok place →
      Admits getReliability node place.1 place.2
  | .remove _ => True

instance (t : KBucket ν) : ∀ op, Decidable (Fresh getHash t op)
  | .remove _ => isTrue trivial
  | .add node _ getReliability =>
    match h : t.leafFor (getHash node) with
    | .ok place =>
      decidable_of_iff (Admits getReliability node place.1 place.2) (by simp [Fresh, h])
    | .error _ => isTrue (by simp [Fresh, h])

lemma exists_two_le_count_clean {contents : List ν} (h : ¬ BadLast getReliability contents) :
    ∃ n, getReliability n ≠ .bad ∧ 2 ≤ (clean getReliability contents).count n := by
  have hbad : ¬ contents.Pairwise (fun m n => decide (getReliability m = .bad) = true →
      decide (getReliability n = .bad) = true) := fun hp => h (hp.imp (by simp))
  obtain ⟨n, hn, hcount⟩ := exists_two_le_count_removeIf hbad
  exact ⟨n, by simpa using hn, hcount⟩

lemma count_onSide_add {c : Fields} {contents : List ν} (b : Bool) (n : ν)
    (hall : ∀ n ∈ contents, ∃ d, getBit (getHash n) (c.index + 1) = .ok d) :
    (onSide getHash c b contents).count n + (onSide getHash c (!b) contents).count n =
      contents.count n := by
  by_cases hn : n ∈ contents
  · obtain ⟨d, hd⟩ := hall n hn
    by_cases hdb : d = b
    · have hother : n ∉ onSide getHash c (!b) contents := by simp [mem_onSide, hd, hdb]
      rw [List.count_eq_zero_of_not_mem hother, onSide, List.count_filter (by simp [hd, hdb])]
      rfl
    · have hdb' : d = !b := by cases d <;> cases b <;> simp_all
      have hother : n ∉ onSide getHash c b contents := by simp [mem_onSide, hd, hdb]
      rw [List.count_eq_zero_of_not_mem hother, onSide, List.count_filter (by simp [hd, hdb'])]
      omega
  · have hside : ∀ d, n ∉ onSide getHash c d contents := fun d h => hn ((mem_onSide getHash).mp h).1
    rw [List.count_eq_zero_of_not_mem hn, List.count_eq_zero_of_not_mem (hside b),
      List.count_eq_zero_of_not_mem (hside !b)]

lemma count_join (c : Fields) (b : Bool) (u w : KBucket ν) (n : ν) :
    (join c b u w).nodes.count n = u.nodes.count n + w.nodes.count n := by
  rw [(nodes_join c b u w).count_eq, List.count_append]

lemma le_count_addToLeaf {c : Fields} {contents : List ν} {t : KBucket ν}
    (h : addToLeaf getHash getReliability node force c contents = .ok t) {n : ν}
    (hn : getReliability n ≠ .bad) :
    contents.count n ≤ t.nodes.count n ∧
      (c.k ≤ contents.length → (clean getReliability contents).count n ≤ t.nodes.count n) := by
  refine addToLeaf_induction getHash getReliability
    (P := fun c contents t => contents.count n ≤ t.nodes.count n ∧
      (c.k ≤ contents.length → (clean getReliability contents).count n ≤ t.nodes.count n))
    ?_ ?_ ?_ ?_ c contents t h
  · intro c contents hroom
    refine ⟨?_, fun hk => by omega⟩
    simp [nodes]
  · intro c contents _ _
    exact ⟨le_count_removeIf _ _ (by simpa using hn), fun _ => le_rfl⟩
  · intro c contents o b u _ _ _ _ _ hall ih
    have hclean : (clean getReliability contents).count n ≤ (join c b u (.leaf (c.child (o == !b))
        (onSide getHash c (!b) (clean getReliability contents)))).nodes.count n := by
      rw [count_join, ← count_onSide_add b n hall]
      exact Nat.add_le_add_right ih.1 _
    exact ⟨(le_count_removeIf _ _ (by simpa using hn)).trans hclean, fun _ => hclean⟩
  · intro c contents _ _ _
    have hclean : (clean getReliability contents).count n ≤ (KBucket.leaf c
        (if force then clean getReliability contents ++ [node]
          else clean getReliability contents)).nodes.count n := by
      cases force <;> simp [nodes]
    exact ⟨(le_count_removeIf _ _ (by simpa using hn)).trans hclean, fun _ => hclean⟩

lemma two_le_count_of_not_admits {c : Fields} {contents : List ν} {t : KBucket ν}
    (h : addToLeaf getHash getReliability node force c contents = .ok t)
    (ha : ¬ Admits getReliability node c contents) : ∃ n, 2 ≤ t.nodes.count n := by
  rw [Admits] at ha
  split at ha
  · next hroom =>
    rw [addToLeaf, if_pos hroom] at h
    obtain rfl := Except.ok.inj h
    have hmem := List.count_pos_iff.mpr (not_not.mp ha)
    refine ⟨node, ?_⟩
    simp only [nodes, List.count_append, List.count_singleton_self]
    omega
  · next hroom =>
    obtain ⟨n, hn, hcount⟩ := exists_two_le_count_clean ha
    exact ⟨n, hcount.trans ((le_count_addToLeaf h hn).2 (by omega))⟩

lemma count_addToLeaf_le {c : Fields} {contents : List ν} {t : KBucket ν}
    (h : addToLeaf getHash getReliability node force c contents = .ok t)
    (ha : Admits getReliability node c contents) (n : ν) :
    t.nodes.count n ≤ contents.count n + if n = node ∧ node ∉ contents then 1 else 0 := by
  refine addToLeaf_induction getHash getReliability
    (P := fun c contents t => Admits getReliability node c contents →
      t.nodes.count n ≤ contents.count n + if n = node ∧ node ∉ contents then 1 else 0)
    ?_ ?_ ?_ ?_ c contents t h ha
  · intro c contents hroom ha
    rw [Admits, if_pos hroom] at ha
    simp only [nodes, List.count_append, List.count_singleton, ha, beq_iff_eq, eq_comm (a := node),
      not_false_eq_true, and_true, le_refl]
  · intro c contents hk _ ha
    rw [Admits, if_neg (by omega)] at ha
    rw [clean_eq_self ha]
    exact Nat.le_add_right _ _
  · intro c contents o b u hk hin _ _ _ hall ih ha
    rw [Admits, if_neg (by omega)] at ha
    rw [clean_eq_self ha] at hin hall ih ⊢
    have hside : node ∉ onSide getHash c b contents := fun h => hin ((mem_onSide getHash).mp h).1
    have hchild : Admits getReliability node (c.child (o == b)) (onSide getHash c b contents) := by
      rw [Admits]
      split
      · exact hside
      · exact ha.sublist List.filter_sublist
    have hu := ih hchild
    rw [count_join, ← count_onSide_add b n hall]
    simp only [hside, hin, not_false_eq_true, and_true] at hu ⊢
    exact (Nat.add_le_add_right hu _).trans (le_of_eq (Nat.add_right_comm _ _ _))
  · intro c contents hk hin _ ha
    rw [Admits, if_neg (by omega)] at ha
    rw [clean_eq_self ha] at hin ⊢
    cases force with
    | true =>
      simp only [nodes, if_true, List.count_append, List.count_singleton, hin, beq_iff_eq,
        eq_comm (a := node), not_false_eq_true, and_true, le_refl]
    | false => exact Nat.le_add_right _ _

/-- A call replaces one leaf by what `addToLeaf` makes of it. -/
lemma addNode_replaces {t t' : KBucket ν}
    (h : t.addNode getHash getReliability node force = .ok t') :
    ∃ c contents u, t.leafFor (getHash node) = .ok (c, contents) ∧
      addToLeaf getHash getReliability node force c contents = .ok u ∧
      ∀ n, t'.nodes.count n + contents.count n = t.nodes.count n + u.nodes.count n := by
  induction t using child_induction generalizing t' with
  | leaf c contents => exact ⟨c, contents, t', rfl, h, fun n => Nat.add_comm _ _⟩
  | inner c first second ih =>
    obtain ⟨b, v, hb, hv, rfl⟩ := addNode_inner h
    obtain ⟨c', contents, u, hleaf, hu, hcount⟩ := ih b hv
    rw [inner_eq_join c b]
    refine ⟨c', contents, u, (leafFor_join hb).trans hleaf, hu, fun n => ?_⟩
    have := hcount n
    rw [count_join, count_join]
    omega

lemma count_leafFor {path : List Bool} {t : KBucket ν} (hw : Wf getHash own k path t) {n : ν}
    {c : Fields} {contents : List ν} (h : t.leafFor (getHash n) = .ok (c, contents)) :
    contents.count n = t.nodes.count n := by
  induction t using child_induction generalizing path with
  | leaf c' contents' =>
    obtain ⟨rfl, rfl⟩ := Prod.mk.inj (Except.ok.inj h)
    rfl
  | inner c' first second ih =>
    obtain ⟨b, hb, _⟩ := bind_ok_iff.mp h
    rw [inner_eq_join c' b] at h hw ⊢
    rw [leafFor_join hb] at h
    obtain ⟨hp, _, _, hsame, hother⟩ := wf_join.mp hw
    have hnot : n ∉ (bif b then first else second).nodes := by
      intro hn
      have hbit := (agrees_concat.mp (agrees_of_mem_nodes hother hn)).2
      rw [← hp.index, hb] at hbit
      exact absurd (Except.ok.inj hbit) (by cases b <;> decide)
    rw [count_join, List.count_eq_zero_of_not_mem hnot]
    exact ih b hsame h

lemma count_leafFor_le {t : KBucket ν} {hash : Hash} {c : Fields} {contents : List ν}
    (h : t.leafFor hash = .ok (c, contents)) (n : ν) : contents.count n ≤ t.nodes.count n := by
  induction t using child_induction with
  | leaf c' contents' =>
    obtain ⟨rfl, rfl⟩ := Prod.mk.inj (Except.ok.inj h)
    exact le_rfl
  | inner c' first second ih =>
    obtain ⟨b, hb, _⟩ := bind_ok_iff.mp h
    rw [inner_eq_join c' b] at h ⊢
    rw [leafFor_join hb] at h
    rw [count_join]
    exact (ih b h).trans (Nat.le_add_right _ _)

lemma addNode_nodup_iff {t t' : KBucket ν} (hw : Wf getHash own k [] t) (hd : t.nodes.Nodup)
    (h : t.addNode getHash getReliability node force = .ok t') :
    t'.nodes.Nodup ↔ Fresh getHash t (.add node force getReliability) := by
  obtain ⟨c, contents, u, hleaf, hu, hcount⟩ := addNode_replaces h
  have hfresh : Fresh getHash t (.add node force getReliability) ↔
      Admits getReliability node c contents := by
    simp [Fresh, hleaf]
  rw [hfresh]
  constructor
  · intro hd'
    by_contra ha
    obtain ⟨n, hn⟩ := two_le_count_of_not_admits hu ha
    have hle := count_leafFor_le hleaf n
    have hn' := hcount n
    have hone := List.nodup_iff_count_le_one.mp hd' n
    omega
  · intro ha
    apply List.nodup_iff_count_le_one.mpr
    intro n
    have hn' := hcount n
    have hone := List.nodup_iff_count_le_one.mp hd n
    have hle := count_addToLeaf_le hu ha n
    split at hle
    · next hnew =>
      have hzero := count_leafFor hw hleaf
      rw [List.count_eq_zero_of_not_mem hnew.2] at hzero
      rw [hnew.1] at hn' hle ⊢
      omega
    · omega

lemma removeNode_perm {t t' : KBucket ν} (hw : Wf getHash own k [] t) {n : ν} (hn : n ∈ t.nodes)
    (h : t.removeNode getHash n = .ok t') : (n :: t'.nodes).Perm t.nodes := by
  obtain ⟨q, c, contents, hat, hmem⟩ := mem_nodes_iff.mp hn
  have hroute := route_of_agrees hw hat (agrees_of_mem_nodes (wf_bucketAt hw hat) hmem)
  obtain ⟨u, hu, ⟨c', contents', hat', _, hperm⟩, _⟩ := removeNode_route hroute
  obtain ⟨rfl, rfl⟩ : c = c' ∧ contents = contents' := by simpa using hat.symm.trans hat'
  obtain rfl := Except.ok.inj (hu.symm.trans h)
  exact hperm hmem

lemma removeNode_nodup {t t' : KBucket ν} (hw : Wf getHash own k [] t) (hd : t.nodes.Nodup) {n : ν}
    (h : t.removeNode getHash n = .ok t') : t'.nodes.Nodup ∧ n ∉ t'.nodes := by
  by_cases hn : n ∈ t.nodes
  · have hcons := (removeNode_perm hw hn h).nodup_iff.mpr hd
    exact ⟨(List.nodup_cons.mp hcons).2, (List.nodup_cons.mp hcons).1⟩
  · obtain rfl := removeNode_of_not_mem hn h
    exact ⟨hd, hn⟩

lemma step_nodup_iff {t t' : KBucket ν} {op : Op ν} (hw : Wf getHash own k [] t)
    (hd : t.nodes.Nodup) (h : t.step getHash op = .ok t') :
    t'.nodes.Nodup ↔ Fresh getHash t op := by
  cases op with
  | add node force getReliability => exact addNode_nodup_iff hw hd h
  | remove node => exact iff_of_true (removeNode_nodup hw hd h).1 trivial

theorem nodes_unique {ops : List (Op ν)} {t : KBucket ν}
    (hf : Guarded (KBucket.step getHash) (Fresh getHash) (KBucket.new own k) ops)
    (h : run (KBucket.step getHash) (KBucket.new own k) ops = .ok t) :
    t.nodes.Nodup ∧ (∀ n t', t.removeNode getHash n = .ok t' → n ∉ t'.nodes) ∧
      ∀ op t', t.step getHash op = .ok t' → (t'.nodes.Nodup ↔ Fresh getHash t op) := by
  obtain ⟨hw, hd⟩ := guarded_invariant (I := fun t => Wf getHash own k [] t ∧ t.nodes.Nodup)
    (fun t op t' hi hc hs => ⟨step_wf t op t' hi.1 hs, (step_nodup_iff hi.1 hi.2 hs).mpr hc⟩)
    ⟨wf_new, List.nodup_nil⟩ hf h
  exact ⟨hd, fun n t' ht' => (removeNode_nodup hw hd ht').2,
    fun op t' ht' => step_nodup_iff hw hd ht'⟩

theorem nodes_unique_bad_last :
    ∃ t, run (KBucket.step (fun n : ℕ => [UInt8.ofNat n])) (KBucket.new [0] 2)
        [.add 64 false (fun _ => .good), .add 0 true (fun _ => .good),
          .add 32 false (fun n => if n = 0 then .bad else .questionable),
          .add 32 true (fun _ => .good), .remove 64] = .ok t ∧
      t.nodes = [0, 32] ∧ t.nodes.Nodup := by
  have hf : Guarded (KBucket.step (fun n : ℕ => [UInt8.ofNat n]))
      (Fresh (fun n : ℕ => [UInt8.ofNat n])) (KBucket.new [0] 2)
      [.add 64 false (fun _ => .good), .add 0 true (fun _ => .good),
        .add 32 false (fun n => if n = 0 then .bad else .questionable),
        .add 32 true (fun _ => .good), .remove 64] := by
    decide +kernel
  have h : run (KBucket.step (fun n : ℕ => [UInt8.ofNat n])) (KBucket.new [0] 2)
      [.add 64 false (fun _ => .good), .add 0 true (fun _ => .good),
        .add 32 false (fun n => if n = 0 then .bad else .questionable),
        .add 32 true (fun _ => .good), .remove 64] =
      .ok (.inner ⟨0, 2, true, [0]⟩ (.leaf ⟨1, 2, true, [0]⟩ [0, 32])
        (.leaf ⟨1, 2, false, [0]⟩ [])) := by
    decide +kernel
  exact ⟨_, h, rfl, (nodes_unique hf h).1⟩

/-- A second `addNode` of a node in a leaf with room, and `remove_if` moving a node over a bad
one. -/
theorem nodes_repeated :
    (∃ t t', run (KBucket.step (fun n : ℕ => [UInt8.ofNat n])) (KBucket.new [0] 2)
        [.add 64 false (fun _ => .good), .add 64 false (fun _ => .good)] = .ok t ∧
      ¬ t.nodes.Nodup ∧ t.removeNode (fun n : ℕ => [UInt8.ofNat n]) 64 = .ok t' ∧
      64 ∈ t'.nodes) ∧
    ∃ t, run (KBucket.step (fun n : ℕ => [UInt8.ofNat n])) (KBucket.new [0] 2)
        [.add 64 false (fun _ => .good), .add 0 false (fun _ => .good),
          .add 32 false (fun n => if n = 64 then .bad else .good)] = .ok t ∧
      t.nodes = [0, 0, 32] := by
  constructor
  · refine ⟨.leaf ⟨0, 2, true, [0]⟩ [64, 64], .leaf ⟨0, 2, true, [0]⟩ [64], ?_, ?_, rfl, ?_⟩
    · decide +kernel
    · decide
    · decide
  · refine ⟨.inner ⟨0, 2, true, [0]⟩ (.inner ⟨1, 2, true, [0]⟩ (.leaf ⟨2, 2, true, [0]⟩ [0, 0])
      (.leaf ⟨2, 2, false, [0]⟩ [32])) (.leaf ⟨1, 2, false, [0]⟩ []), ?_, rfl⟩
    decide +kernel

end P2PNet.DHT.KBucket
