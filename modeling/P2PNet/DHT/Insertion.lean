import P2PNet.DHT.Distance

/-! What one `addNode` leaves of the tree: the nodes that are not bad, the leaves that
it is not routed to, and a leaf in which room is only made by a split. -/

namespace P2PNet.DHT.KBucket

open Lib.Runs Lib.Lists

variable {ν : Type} [DecidableEq ν] {getHash : ν → Hash} {own : Hash} {k : ℕ}
  {getReliability : ν → Reliability} {node : ν} {force : Bool} {t t' : KBucket ν}

lemma addNode_replaceAt (h : t.addNode getHash getReliability node force = .ok t') :
    ∃ path c contents u, t.route (getHash node) = .ok path ∧
      t.bucketAt path = some (.leaf c contents) ∧
      addToLeaf getHash getReliability node force c contents = .ok u ∧ t' = t.replaceAt path u := by
  obtain ⟨path, hr⟩ := route_of_addNode getHash getReliability h
  obtain ⟨c, contents, hat, hadd⟩ := addNode_of_route getHash getReliability hr
  rw [hadd] at h
  obtain ⟨u, hu, ht⟩ := bind_ok_iff.mp h
  exact ⟨path, c, contents, u, hr, hat, hu, (Except.ok.inj ht).symm⟩

lemma mem_of_addNode (h : t.addNode getHash getReliability node force = .ok t') {n : ν}
    (hn : n ∈ t.nodes) (hgood : getReliability n ≠ .bad) : n ∈ t'.nodes := by
  obtain ⟨c, contents, u, _, hu, hcount⟩ := addNode_replaces h
  have hle := (le_count_addToLeaf hu hgood).1
  have hpos := List.count_pos_iff.mpr hn
  have hn' := hcount n
  apply List.count_pos_iff.mp
  omega

/-- The leaf that the cascade of splits ends at has the node, unless it is full and cannot
be split. -/
lemma addToLeaf_ends {c : Fields} {contents : List ν} {u : KBucket ν}
    (h : addToLeaf getHash getReliability node force c contents = .ok u) (hn : node ∉ contents) :
    ∃ path c' contents', u.route (getHash node) = .ok path ∧
      u.bucketAt path = some (.leaf c' contents') ∧
      (node ∈ contents' ∨
        c'.splittable = false ∧ c'.k ≤ contents'.length ∧ force = false) := by
  refine addToLeaf_induction getHash getReliability
    (P := fun _ contents u => node ∉ contents → ∃ path c' contents',
      u.route (getHash node) = .ok path ∧ u.bucketAt path = some (.leaf c' contents') ∧
      (node ∈ contents' ∨ c'.splittable = false ∧ c'.k ≤ contents'.length ∧ force = false))
    ?_ ?_ ?_ ?_ c contents u h hn
  · intro c contents _ _
    exact ⟨[], c, _, rfl, rfl, by simp⟩
  · intro c contents _ hin hn
    exact absurd (mem_of_mem_removeIf _ _ hin) hn
  · intro c contents own b u _ hin _ _ hb _ ih _
    obtain ⟨path, c', contents', hr, hat, hend⟩ :=
      ih (fun hside => hin ((mem_onSide getHash).mp hside).1)
    exact ⟨b :: path, c', contents', route_join hb hr, by rwa [bucketAt_join_same], hend⟩
  · intro c contents hk _ hsp _
    refine ⟨[], c, _, rfl, rfl, ?_⟩
    cases force with
    | true => simp
    | false => exact Or.inr ⟨hsp, by simpa using hk, rfl⟩

theorem good_nodes_kept {ops : List (Op ν)}
    (hrun : run (KBucket.step getHash) (KBucket.new own k) ops = .ok t)
    (h : t.addNode getHash getReliability node force = .ok t') :
    (∀ n ∈ t.nodes, getReliability n ≠ .bad → n ∈ t'.nodes) ∧
    (∃ path c contents, t.route (getHash node) = .ok path ∧
      t.bucketAt path = some (.leaf c contents) ∧
      ∀ path' c' contents', path' ≠ path → t.bucketAt path' = some (.leaf c' contents') →
        t'.bucketAt path' = some (.leaf c' contents')) ∧
    (node ∉ t.nodes → node ∈ t'.nodes ∨
      ∃ path c contents, t'.route (getHash node) = .ok path ∧
        t'.bucketAt path = some (.leaf c contents) ∧
        c.splittable = false ∧ k ≤ contents.length ∧ force = false) := by
  refine ⟨fun n hn hgood => mem_of_addNode h hn hgood, ?_, ?_⟩
  · obtain ⟨path, c, contents, u, hr, hat, _, rfl⟩ := addNode_replaceAt h
    exact ⟨path, c, contents, hr, hat, (bucketAt_replaceAt hat u).2⟩
  · intro hn
    have hw := addNode_wf (run_wf hrun) (agrees_nil _) h
    obtain ⟨path, c, contents, u, hr, hat, hu, rfl⟩ := addNode_replaceAt h
    have hcontents : node ∉ contents :=
      fun hm => hn (mem_nodes_iff.mpr ⟨path, c, contents, hat, hm⟩)
    obtain ⟨rest, c', contents', hr', hat', hend⟩ := addToLeaf_ends hu hcontents
    have hleaf : (t.replaceAt path u).bucketAt (path ++ rest) = some (.leaf c' contents') :=
      ((bucketAt_replaceAt hat u).1 rest).trans hat'
    rcases hend with hmem | ⟨hsp, hk, hforce⟩
    · exact Or.inl (mem_nodes_iff.mpr ⟨_, c', contents', hleaf, hmem⟩)
    · have hsize := (wf_bucketAt hw hleaf).1.size
      exact Or.inr ⟨_, c', contents', route_replaceAt hr hr', hleaf, hsp, hsize ▸ hk, hforce⟩

theorem good_nodes_kept_split :
    ∃ t t', run (KBucket.step (fun n : ℕ => [UInt8.ofNat n])) (KBucket.new [0] 2)
        [.add 64 false (fun _ => .good), .add 0 false (fun _ => .good)] = .ok t ∧
      t.addNode (fun n : ℕ => [UInt8.ofNat n]) (fun n => if n = 0 then .bad else .good) 32 false =
        .ok t' ∧ 64 ∈ t'.nodes ∧ 32 ∈ t'.nodes := by
  have hrun : run (KBucket.step (fun n : ℕ => [UInt8.ofNat n])) (KBucket.new [0] 2)
      [.add 64 false (fun _ => .good), .add 0 false (fun _ => .good)] =
      .ok (.leaf ⟨0, 2, true, [0]⟩ [64, 0]) := by
    decide +kernel
  have h : (KBucket.leaf ⟨0, 2, true, [0]⟩ [64, 0]).addNode (fun n : ℕ => [UInt8.ofNat n])
      (fun n => if n = 0 then .bad else .good) 32 false =
      .ok (.inner ⟨0, 2, true, [0]⟩ (.leaf ⟨1, 2, true, [0]⟩ [0, 32])
        (.leaf ⟨1, 2, false, [0]⟩ [64])) := by
    decide +kernel
  have hkept := (good_nodes_kept hrun h).1 64 (by decide) (by decide)
  exact ⟨_, _, hrun, h, hkept, by decide⟩

section FullLeaf

variable {c : Fields} {contents : List ν}

lemma addToLeaf_splits (hk : c.k ≤ contents.length) (hn : node ∉ contents)
    (hsp : c.splittable = true) {u : KBucket ν}
    (h : addToLeaf getHash getReliability node force c contents = .ok u) :
    ∃ first second, u = .inner c first second := by
  have hin : node ∉ clean getReliability contents := fun hm => hn (mem_of_mem_removeIf _ _ hm)
  rw [addToLeaf_divide getHash getReliability hk hin hsp] at h
  obtain ⟨_, _, hrest⟩ := bind_ok_iff.mp h
  obtain ⟨b, _, hrest⟩ := bind_ok_iff.mp hrest
  obtain ⟨v, _, hu⟩ := bind_ok_iff.mp hrest
  obtain rfl := Except.ok.inj hu
  cases b <;> exact ⟨_, _, rfl⟩

lemma addToLeaf_refuses (hk : c.k ≤ contents.length) (hn : node ∉ contents)
    (hsp : c.splittable = false) :
    addToLeaf getHash getReliability node false c contents =
      .ok (.leaf c (clean getReliability contents)) := by
  have hin : node ∉ clean getReliability contents := fun hm => hn (mem_of_mem_removeIf _ _ hm)
  exact addToLeaf_full getHash getReliability hk hin hsp

variable (getHash getReliability) in
lemma addToLeaf_evicts_iff (hn : node ∉ contents) :
    addToLeaf getHash getReliability node false c contents =
        .ok (.leaf c (contents.filter (fun n => getReliability n ≠ .bad) ++ [node])) ↔
      contents.length < c.k ∧ ∀ n ∈ contents, getReliability n ≠ .bad := by
  by_cases hroom : contents.length < c.k
  · rw [addToLeaf_room getHash getReliability hroom]
    simp [hroom, eq_comm (a := contents), List.filter_eq_self]
  · have hk : c.k ≤ contents.length := by omega
    refine iff_of_false (fun h => ?_) (fun h => hroom h.1)
    by_cases hsp : c.splittable = true
    · obtain ⟨_, _, hu⟩ := addToLeaf_splits hk hn hsp h
      cases hu
    · rw [addToLeaf_refuses hk hn (by simpa using hsp)] at h
      have hcontents := (KBucket.leaf.inj (Except.ok.inj h)).2
      have hmem : node ∈ clean getReliability contents := by simp [hcontents]
      exact hn (mem_of_mem_removeIf _ _ hmem)

theorem room_made_iff {ops : List (Op ν)} {path : List Bool}
    (hrun : run (KBucket.step getHash) (KBucket.new own k) ops = .ok t)
    (hr : t.route (getHash node) = .ok path) (hat : t.bucketAt path = some (.leaf c contents))
    (hn : node ∉ contents) :
    ((∃ t', t.addNode getHash getReliability node false = .ok t' ∧ t'.bucketAt path =
        some (.leaf c (contents.filter (fun n => getReliability n ≠ .bad) ++ [node]))) ↔
      contents.length < k ∧ ∀ n ∈ contents, getReliability n ≠ .bad) ∧
    (k ≤ contents.length → c.splittable = false →
      ∃ t', t.addNode getHash getReliability node false = .ok t' ∧
        t'.bucketAt path = some (.leaf c (clean getReliability contents))) ∧
    (k ≤ contents.length → c.splittable = true → ∀ t',
      t.addNode getHash getReliability node false = .ok t' →
        ∃ first second, t'.bucketAt path = some (.inner c first second)) := by
  have hk : c.k = k := (wf_bucketAt (run_wf hrun) hat).1.size
  obtain ⟨c', contents', hat', hadd⟩ := addNode_of_route getHash getReliability hr
  obtain ⟨rfl, rfl⟩ : c = c' ∧ contents = contents' := by simpa using hat.symm.trans hat'
  have hfound : ∀ u, (t.replaceAt path u).bucketAt path = some u := by
    intro u
    simpa using (bucketAt_replaceAt hat u).1 []
  rw [hadd, ← hk]
  refine ⟨?_, ?_, ?_⟩
  · rw [← addToLeaf_evicts_iff getHash getReliability hn]
    constructor
    · rintro ⟨t', ht', hleaf⟩
      obtain ⟨u, hu, hrep⟩ := bind_ok_iff.mp ht'
      rw [← Except.ok.inj hrep, hfound] at hleaf
      rw [hu, Option.some.inj hleaf]
    · intro hu
      rw [hu]
      exact ⟨_, rfl, hfound _⟩
  · intro hfull hsp
    rw [addToLeaf_refuses hfull hn hsp]
    exact ⟨_, rfl, hfound _⟩
  · intro hfull hsp t' ht'
    obtain ⟨u, hu, hrep⟩ := bind_ok_iff.mp ht'
    obtain ⟨first, second, rfl⟩ := addToLeaf_splits hfull hn hsp hu
    exact ⟨first, second, by rw [← Except.ok.inj hrep, hfound]⟩

theorem room_made_full :
    ∃ t, run (KBucket.step sampleHash) (KBucket.new (sampleHash 0) 2)
        [.add 64 false (fun _ => .good), .add 96 false (fun _ => .good),
          .add 0 false (fun _ => .good)] = .ok t ∧
      t.bucketAt [true] = some (.leaf ⟨1, 2, false, sampleHash 0⟩ [64, 96]) ∧
      (¬∃ t', t.addNode sampleHash (fun n => if n = 64 then .bad else .good) 112 false = .ok t' ∧
        t'.bucketAt [true] = some (.leaf ⟨1, 2, false, sampleHash 0⟩ [96, 112])) ∧
      ∃ t', t.addNode sampleHash (fun n => if n = 64 then .bad else .good) 112 false = .ok t' ∧
        t'.bucketAt [true] = some (.leaf ⟨1, 2, false, sampleHash 0⟩ [96, 96]) := by
  have hrun : run (KBucket.step sampleHash) (KBucket.new (sampleHash 0) 2)
      [.add 64 false (fun _ => .good), .add 96 false (fun _ => .good),
        .add 0 false (fun _ => .good)] = .ok (.inner ⟨0, 2, true, sampleHash 0⟩
      (.leaf ⟨1, 2, true, sampleHash 0⟩ [0]) (.leaf ⟨1, 2, false, sampleHash 0⟩ [64, 96])) := by
    decide +kernel
  have hroute : (.inner ⟨0, 2, true, sampleHash 0⟩ (.leaf ⟨1, 2, true, sampleHash 0⟩ [0])
      (.leaf ⟨1, 2, false, sampleHash 0⟩ [64, 96]) : KBucket ℕ).route (sampleHash 112) =
      .ok [true] := by decide
  have hnew : (112 : ℕ) ∉ [64, 96] := by decide
  refine ⟨_, hrun, rfl, fun hmade => ?_, (room_made_iff hrun hroute rfl hnew).2.1 (by decide) rfl⟩
  exact absurd ((room_made_iff hrun hroute rfl hnew).1.mp hmade).1 (by decide)

theorem bad_node_not_evicted :
    (∃ t t', run (KBucket.step sampleHash) (KBucket.new (sampleHash 0) 2)
        [.add 64 false (fun _ => .good), .add 96 false (fun _ => .good),
          .add 0 false (fun _ => .good)] = .ok t ∧
      t.bucketAt [true] = some (.leaf ⟨1, 2, false, sampleHash 0⟩ [64, 96]) ∧
      t.addNode sampleHash (fun n => if n = 64 then .bad else .good) 112 false = .ok t' ∧
      t'.bucketAt [true] = some (.leaf ⟨1, 2, false, sampleHash 0⟩ [96, 96])) ∧
    ∃ t t' first second, run (KBucket.step sampleHash) (KBucket.new (sampleHash 0) 2)
        [.add 64 false (fun _ => .good), .add 96 false (fun _ => .good)] = .ok t ∧
      t.bucketAt [] = some (.leaf ⟨0, 2, true, sampleHash 0⟩ [64, 96]) ∧
      t.addNode sampleHash (fun n => if n = 64 then .bad else .good) 0 false = .ok t' ∧
      t'.bucketAt [] = some (.inner ⟨0, 2, true, sampleHash 0⟩ first second) := by
  constructor
  · refine ⟨.inner ⟨0, 2, true, sampleHash 0⟩ (.leaf ⟨1, 2, true, sampleHash 0⟩ [0])
      (.leaf ⟨1, 2, false, sampleHash 0⟩ [64, 96]), .inner ⟨0, 2, true, sampleHash 0⟩
      (.leaf ⟨1, 2, true, sampleHash 0⟩ [0]) (.leaf ⟨1, 2, false, sampleHash 0⟩ [96, 96]),
      ?_, rfl, ?_, rfl⟩
    · decide +kernel
    · decide +kernel
  · refine ⟨.leaf ⟨0, 2, true, sampleHash 0⟩ [64, 96], .inner ⟨0, 2, true, sampleHash 0⟩
      (.leaf ⟨1, 2, true, sampleHash 0⟩ [0]) (.leaf ⟨1, 2, false, sampleHash 0⟩ [96, 96]),
      _, _, ?_, rfl, ?_, rfl⟩
    · decide +kernel
    · decide +kernel

end FullLeaf

end P2PNet.DHT.KBucket
