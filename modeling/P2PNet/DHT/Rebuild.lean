import P2PNet.DHT.Growth

/-! `rebuild` clears the root and adds the nodes of a set, but keeps the own hash that the
root was made with. The tree is therefore the one of the new own hash only as far
as the two hashes agree along it. -/

namespace P2PNet.DHT

open Lib.Runs Lib.Lists

def Fields.withHash (hash : Hash) (c : Fields) : Fields := { c with nodeHash := hash }

namespace KBucket

variable {ν : Type} {getHash : ν → Hash} {own hash : Hash} {k : ℕ}

def fields : KBucket ν → Fields
  | .leaf c _ => c
  | .inner c _ _ => c

/-- The nodes stand in the order of the set, each with the reliabilities at its call. -/
def rebuild [DecidableEq ν] (getHash : ν → Hash) (t : KBucket ν) (_nodeHash : Hash)
    (nodeList : List (ν × (ν → Reliability))) : Except Fault (KBucket ν) :=
  addAll getHash (.leaf t.fields []) nodeList

/-- The paths of the leaves, whether they are splittable, and their contents. -/
def leaves : KBucket ν → List (List Bool × Bool × List ν)
  | .leaf c contents => [([], c.splittable, contents)]
  | .inner _ first second => first.leaves.map (fun leaf => (false :: leaf.1, leaf.2)) ++
      second.leaves.map (fun leaf => (true :: leaf.1, leaf.2))

def withHash (hash : Hash) : KBucket ν → KBucket ν
  | .leaf c contents => .leaf (c.withHash hash) contents
  | .inner c first second => .inner (c.withHash hash) (first.withHash hash) (second.withHash hash)

/-- At every split bucket the hash has the bit of the own hash. -/
def Shares (hash : Hash) : KBucket ν → Prop
  | .leaf .. => True
  | .inner c first second => getBit hash (c.index + 1) = getBit c.nodeHash (c.index + 1) ∧
      Shares hash first ∧ Shares hash second

lemma withHash_join (c : Fields) (b : Bool) (u w : KBucket ν) :
    (join c b u w).withHash hash =
      join (c.withHash hash) b (u.withHash hash) (w.withHash hash) := by
  cases b <;> rfl

lemma shares_join {c : Fields} {b : Bool} {u w : KBucket ν} :
    Shares hash (join c b u w) ↔ getBit hash (c.index + 1) = getBit c.nodeHash (c.index + 1) ∧
      Shares hash u ∧ Shares hash w := by
  cases b
  · exact Iff.rfl
  · exact and_congr_right fun _ => and_comm

lemma leaves_withHash (t : KBucket ν) : (t.withHash hash).leaves = t.leaves := by
  induction t with
  | leaf c contents => rfl
  | inner c first second ihfirst ihsecond =>
    rw [withHash, leaves, ihfirst, ihsecond]
    rfl

lemma mem_leaves {t : KBucket ν} {path : List Bool} {splittable : Bool} {contents : List ν} :
    (path, splittable, contents) ∈ t.leaves ↔
      ∃ c, t.bucketAt path = some (.leaf c contents) ∧ c.splittable = splittable := by
  induction t generalizing path with
  | leaf d others =>
    cases path with
    | nil => simp [leaves, bucketAt, eq_comm, and_comm]
    | cons b path => simp [leaves, bucketAt]
  | inner d first second ihfirst ihsecond =>
    cases path with
    | nil => simp [leaves, bucketAt]
    | cons b path => cases b <;> simp [leaves, bucketAt, ihfirst, ihsecond]

lemma shares_iff {path q : List Bool} {t : KBucket ν} (hw : Wf getHash own k path t)
    (hr : t.route own = .ok q) (hh : Agrees hash path) :
    Shares hash t ↔ Agrees hash (path ++ q) := by
  induction t using child_induction generalizing path q with
  | leaf c contents =>
    obtain rfl := Except.ok.inj hr
    simpa [Shares] using hh
  | inner c first second ih =>
    obtain ⟨o, rest, ho, hrest, rfl⟩ := route_inner hr
    rw [inner_eq_join c o] at hw
    obtain ⟨hp, _, _, hsame, _⟩ := wf_join.mp hw
    obtain ⟨d, others, hleaf, _⟩ := wf_sibling hw ho
    rw [inner_eq_join c o, shares_join, hleaf, hp.nodeHash, ho, List.append_cons]
    simp only [Shares, and_true]
    constructor
    · rintro ⟨hbit, hs⟩
      have hh' : Agrees hash (path ++ [o]) := agrees_concat.mpr ⟨hh, hp.index ▸ hbit⟩
      exact (ih o hsame hrest hh').mp hs
    · intro hag
      exact ⟨hp.index ▸ (agrees_concat.mp hag.left).2, (ih o hsame hrest hag.left).mpr hag⟩

lemma fields_of_wf {t : KBucket ν} (hw : Wf getHash own k [] t) : t.fields = ⟨0, k, true, own⟩ := by
  have hnew : Placed own k [] ⟨0, k, true, own⟩ := ⟨rfl, rfl, rfl, by simp⟩
  cases t with
  | leaf c contents => exact hw.1.unique hnew
  | inner c first second => exact hw.1.unique hnew

variable [DecidableEq ν] {getReliability : ν → Reliability} {node : ν} {force : Bool}

lemma addToLeaf_withHash {c : Fields} {contents : List ν} {u : KBucket ν}
    (h : addToLeaf getHash getReliability node force c contents = .ok u) (hs : Shares hash u) :
    addToLeaf getHash getReliability node force (c.withHash hash) contents =
      .ok (u.withHash hash) := by
  refine addToLeaf_induction getHash getReliability
    (P := fun c contents u => Shares hash u →
      addToLeaf getHash getReliability node force (c.withHash hash) contents =
        .ok (u.withHash hash)) ?_ ?_ ?_ ?_ c contents u h hs
  · intro c contents hroom _
    exact addToLeaf_room getHash getReliability (c := c.withHash hash) hroom
  · intro c contents hk hin _
    exact addToLeaf_present getHash getReliability (c := c.withHash hash) hk hin
  · intro c contents o b u hk hin hsp ho hb hall ih hs
    obtain ⟨hbit, hu, _⟩ := shares_join.mp hs
    rw [addToLeaf_divide_of_bits getHash getReliability (c := c.withHash hash) hk hin hsp
      (hbit.trans ho) hb hall, withHash_join]
    exact bind_ok_iff.mpr ⟨_, ih hu, rfl⟩
  · intro c contents hk hin hsp _
    exact addToLeaf_full getHash getReliability (c := c.withHash hash) hk hin hsp

lemma addNode_withHash {t t' : KBucket ν}
    (h : t.addNode getHash getReliability node force = .ok t') (hs : Shares hash t') :
    Shares hash t ∧
      (t.withHash hash).addNode getHash getReliability node force = .ok (t'.withHash hash) := by
  induction t using child_induction generalizing t' with
  | leaf c contents => exact ⟨trivial, addToLeaf_withHash h hs⟩
  | inner c first second ih =>
    obtain ⟨b, u, hb, hu, rfl⟩ := addNode_inner h
    obtain ⟨hbit, hsu, hsw⟩ := shares_join.mp hs
    obtain ⟨hchild, hadd⟩ := ih b hu hsu
    rw [inner_eq_join c b]
    refine ⟨shares_join.mpr ⟨hbit, hchild, hsw⟩, ?_⟩
    rw [withHash_join, addNode_join getHash getReliability (c := c.withHash hash) hb, hadd,
      ok_bind, withHash_join]

lemma addAll_withHash {t t' : KBucket ν} {nodeList : List (ν × (ν → Reliability))}
    (h : addAll getHash t nodeList = .ok t') (hs : Shares hash t') :
    Shares hash t ∧ addAll getHash (t.withHash hash) nodeList = .ok (t'.withHash hash) := by
  induction nodeList generalizing t with
  | nil =>
    obtain rfl := Except.ok.inj h
    exact ⟨hs, rfl⟩
  | cons call nodeList ih =>
    obtain ⟨u, hu, hrest⟩ := run_cons.mp h
    obtain ⟨hsu, hall⟩ := ih hrest
    obtain ⟨hst, hadd⟩ := addNode_withHash hu hsu
    exact ⟨hst, run_cons.mpr ⟨_, hadd, hall⟩⟩

/-- The trees of two hashes differ, as each of them keeps its own. -/
lemma addAll_new_eq_iff {nodeList : List (ν × (ν → Reliability))} :
    addAll getHash (KBucket.new own k) nodeList = addAll getHash (KBucket.new hash k) nodeList ↔
      hash = own ∨ (∀ t', addAll getHash (KBucket.new own k) nodeList ≠ .ok t') ∧
        ∀ t', addAll getHash (KBucket.new hash k) nodeList ≠ .ok t' := by
  constructor
  · intro heq
    cases hold : addAll getHash (KBucket.new own k) nodeList with
    | error fault =>
      rw [← heq, hold]
      exact .inr (by simp)
    | ok t' =>
      have hfields := (fields_of_wf (run_wf (heq ▸ hold))).symm.trans (fields_of_wf (run_wf hold))
      exact .inl (congrArg Fields.nodeHash hfields)
  · rintro (rfl | ⟨hold, hnew⟩)
    · rfl
    · cases ho : addAll getHash (KBucket.new own k) nodeList with
      | ok t' => exact absurd ho (hold t')
      | error fault =>
        cases hn : addAll getHash (KBucket.new hash k) nodeList with
        | ok t' => exact absurd hn (hnew t')
        | error fault' =>
          cases fault
          cases fault'
          rfl

section Sets

variable {N : Finset ν} {nodeList : List (ν × (ν → Reliability))} {t' t'' : KBucket ν}

/-- Where the trees of the two hashes have the same splittable leaf, the hashes agree along its
path, and the other way round. -/
lemma leaves_eq_iff (ho : Orders N nodeList) (hbits : ∀ n ∈ N, own.length ≤ (getHash n).length)
    (ht' : addAll getHash (KBucket.new own k) nodeList = .ok t')
    (ht'' : addAll getHash (KBucket.new hash k) nodeList = .ok t'') :
    t'.leaves = t''.leaves ↔ ∀ i, k < (agreeing getHash own N i).card →
      getBit hash (i + 1) = getBit own (i + 1) := by
  have hw := run_wf ht'
  obtain ⟨path, hform⟩ := ho.closedForm hbits ht'
  obtain ⟨c, contents, hat, hsplittable, -⟩ := hform.leaf
  have hown : Agrees own path := (wf_bucketAt hw hat).1.splittable.mp hsplittable
  constructor
  · intro hsame i hi
    have hleaf : (path, true, contents) ∈ t''.leaves :=
      hsame ▸ mem_leaves.mpr ⟨c, hat, hsplittable⟩
    obtain ⟨c', hat', hsplittable'⟩ := mem_leaves.mp hleaf
    have hhash : Agrees hash path := (wf_bucketAt (run_wf ht'') hat').1.splittable.mp hsplittable'
    have hlt : i < path.length := by
      by_contra hge
      have hle := Finset.card_le_card (agreeing_subset getHash own N (not_lt.mp hge))
      have hsmall := hform.small
      rw [Nat.zero_add] at hsmall
      omega
    rw [hhash i hlt, hown i hlt]
  · intro hagree
    have hhash : Agrees hash path := by
      intro i hi
      have hlarge := hform.large i hi
      rw [Nat.zero_add] at hlarge
      rw [hagree i hlarge, hown i hi]
    have hshares := (shares_iff hw hform.route (agrees_nil hash)).mpr hhash
    obtain rfl := Except.ok.inj ((addAll_withHash ht' hshares).2.symm.trans ht'')
    exact (leaves_withHash t').symm

end Sets

/-- `rebuild` adds the nodes to a new bucket of the old hash. It comes out as building anew does
only for the old hash, or if neither returns; the leaves, if no node is bad, are the same exactly if
the two hashes agree in every bit by which more than `k` nodes are split along the old one. -/
theorem rebuild_as_new_iff {ops : List (Op ν)} {t : KBucket ν}
    (h : run (KBucket.step getHash) (KBucket.new own k) ops = .ok t) (hash : Hash)
    (nodeList : List (ν × (ν → Reliability))) :
    t.rebuild getHash hash nodeList = addAll getHash (KBucket.new own k) nodeList ∧
    (t.rebuild getHash hash nodeList = addAll getHash (KBucket.new hash k) nodeList ↔
      hash = own ∨ (∀ t', t.rebuild getHash hash nodeList ≠ .ok t') ∧
        ∀ t', addAll getHash (KBucket.new hash k) nodeList ≠ .ok t') ∧
    ∀ N : Finset ν, Orders N nodeList → own.length = 28 →
      (∀ n ∈ N, (getHash n).length = 28) →
      (∀ t' t'', t.rebuild getHash hash nodeList = .ok t' →
        addAll getHash (KBucket.new hash k) nodeList = .ok t'' →
        (t'.leaves = t''.leaves ↔ ∀ i, k < (agreeing getHash own N i).card →
          getBit hash (i + 1) = getBit own (i + 1))) ∧
      (2 ≤ k → hash.length = 28 → Set.InjOn getHash N →
        ∃ t' t'', t.rebuild getHash hash nodeList = .ok t' ∧
          addAll getHash (KBucket.new hash k) nodeList = .ok t'') := by
  have hrebuild : t.rebuild getHash hash nodeList =
      addAll getHash (KBucket.new own k) nodeList := by
    rw [rebuild, fields_of_wf (run_wf h), KBucket.new]
  rw [hrebuild]
  refine ⟨rfl, addAll_new_eq_iff, fun N ho hown hlen => ⟨?_, ?_⟩⟩
  · intro t' t'' ht' ht''
    exact leaves_eq_iff ho (fun n hn => by rw [hown, hlen n hn]) ht' ht''
  · intro hk hhash hinj
    obtain ⟨t', ht', -⟩ := ho.grown hk hown hlen hinj
    obtain ⟨t'', ht'', -⟩ := ho.grown hk hhash hlen hinj
    exact ⟨t', t'', ht', ht''⟩

def sampleNodes : List (ℕ × (ℕ → Reliability)) :=
  [(0, fun _ => .good), (32, fun _ => .good), (64, fun _ => .questionable)]

lemma orders_sampleNodes : Orders {0, 32, 64} sampleNodes where
  nodup := by decide
  nodes n := by simp [sampleNodes]
  good := by simp [sampleNodes]

/-- A tree that holds a node, and a new own hash that differs from the old one in bit 0 only. -/
theorem rebuild_as_new_split :
    ∃ t t' t'', run (KBucket.step sampleHash) (KBucket.new (sampleHash 0) 2)
        [.add 96 false fun _ => .good] = .ok t ∧
      t.leaves = [([], true, [96])] ∧
      t.rebuild sampleHash (sampleHash 128) sampleNodes = .ok t' ∧
      addAll sampleHash (KBucket.new (sampleHash 128) 2) sampleNodes = .ok t'' ∧
      t'.leaves = [([false], true, [0, 32]), ([true], false, [64])] ∧ t'.leaves = t''.leaves := by
  have hrun : run (KBucket.step sampleHash) (KBucket.new (sampleHash 0) 2)
      [.add 96 false fun _ => .good] = .ok (.leaf ⟨0, 2, true, sampleHash 0⟩ [96]) := by
    decide +kernel
  have hfew : (agreeing sampleHash (sampleHash 0) {0, 32, 64} 1).card ≤ 2 := by decide +kernel
  obtain ⟨hleaves, -⟩ := (rebuild_as_new_iff hrun (sampleHash 128) sampleNodes).2.2 _
    orders_sampleNodes (by decide) (fun n _ => by simp [sampleHash])
  refine ⟨.leaf ⟨0, 2, true, sampleHash 0⟩ [96],
    .inner ⟨0, 2, true, sampleHash 0⟩ (.leaf ⟨1, 2, true, sampleHash 0⟩ [0, 32])
      (.leaf ⟨1, 2, false, sampleHash 0⟩ [64]),
    .inner ⟨0, 2, true, sampleHash 128⟩ (.leaf ⟨1, 2, true, sampleHash 128⟩ [0, 32])
      (.leaf ⟨1, 2, false, sampleHash 128⟩ [64]),
    hrun, rfl, ?_, ?_, rfl, (hleaves _ _ ?_ ?_).mpr ?_⟩
  · decide +kernel
  · decide +kernel
  · decide +kernel
  · decide +kernel
  · intro i hi
    cases i with
    | zero => decide +kernel
    | succ i =>
      have hle := Finset.card_le_card (agreeing_subset sampleHash (sampleHash 0) {0, 32, 64}
        (Nat.le_add_left 1 i))
      omega

/-- The new own hash differs from the old one in bit 1, by which the tree is split. -/
theorem rebuild_keeps_hash :
    ∃ t' t'', (KBucket.new (sampleHash 0) 2).rebuild sampleHash (sampleHash 64) sampleNodes =
        .ok t' ∧
      addAll sampleHash (KBucket.new (sampleHash 64) 2) sampleNodes = .ok t'' ∧
      t'.leaves = [([false], true, [0, 32]), ([true], false, [64])] ∧
      t''.leaves = [([false], false, [0, 32]), ([true], true, [64])] ∧
      t''.route (sampleHash 64) = .ok [true] := by
  refine ⟨.inner ⟨0, 2, true, sampleHash 0⟩ (.leaf ⟨1, 2, true, sampleHash 0⟩ [0, 32])
      (.leaf ⟨1, 2, false, sampleHash 0⟩ [64]),
    .inner ⟨0, 2, true, sampleHash 64⟩ (.leaf ⟨1, 2, false, sampleHash 64⟩ [0, 32])
      (.leaf ⟨1, 2, true, sampleHash 64⟩ [64]), ?_, ?_, rfl, rfl, ?_⟩
  · decide +kernel
  · decide +kernel
  · decide +kernel

end KBucket

end P2PNet.DHT
