import P2PNet.DHT.Distance

/-! Calls that run off the end of the hash. A cascade of splits does so when all entries of
a full leaf go with the new node along the own hash to its last bit; of distinct
nodes at most two can share that way. -/

namespace P2PNet.DHT.KBucket

open Lib.Runs Lib.Lists Lib.Bits

variable {ν : Type} {getHash : ν → Hash} {own : Hash} {k : ℕ}

variable {getReliability : ν → Reliability} {node : ν} {force : Bool}

/-- Up to the last bit of the own hash, the entries that the repeated `remove_if` leaves and
the node itself follow it. -/
def Exhausts (getHash : ν → Hash) (getReliability : ν → Reliability) (node : ν) (c : Fields)
    (contents : List ν) : Prop :=
  c.splittable = true ∧ c.k ≤ contents.length ∧ node ∉ clean getReliability contents ∧
    ∀ i, c.index < i → i < 8 * c.nodeHash.length →
      getBit (getHash node) i = getBit c.nodeHash i ∧
      ∀ n ∈ (clean getReliability)^[i - c.index] contents,
        getBit (getHash n) i = getBit c.nodeHash i

section Cascade

variable {c : Fields} {contents : List ν} {o b : Bool}

lemma iterate_clean_child {i : ℕ} (hi : c.index + 1 < i) :
    (clean getReliability)^[i - (c.index + 1)] (clean getReliability contents) =
      (clean getReliability)^[i - c.index] contents := by
  rw [← Function.iterate_succ_apply]
  congr 1
  omega

lemma exhausts_child_iff (hk : c.k ≤ contents.length) (hle : contents.length ≤ c.k)
    (hsp : c.splittable = true) (hin : node ∉ clean getReliability contents)
    (ho : getBit c.nodeHash (c.index + 1) = .ok o)
    (hb : getBit (getHash node) (c.index + 1) = .ok b) :
    Exhausts getHash getReliability node (c.child (o == b))
        (onSide getHash c b (clean getReliability contents)) ↔
      Exhausts getHash getReliability node c contents := by
  -- a child is full only if all entries come to it, and then it is as its parent after `remove_if`
  have hself : (∀ n ∈ clean getReliability contents, getBit (getHash n) (c.index + 1) = .ok b) →
      onSide getHash c b (clean getReliability contents) = clean getReliability contents := by
    intro hall
    apply List.filter_eq_self.mpr
    simpa using hall
  constructor
  · rintro ⟨hob, hfull, _, hbits⟩
    obtain rfl : o = b := by simpa [Fields.child] using hob
    have hall : ∀ n ∈ clean getReliability contents, getBit (getHash n) (c.index + 1) = .ok o := by
      have hlen : (onSide getHash c o (clean getReliability contents)).length =
          (clean getReliability contents).length := by
        apply le_antisymm (length_onSide_le getHash c o _)
        rw [length_removeIf]
        exact hle.trans hfull
      simpa using List.length_filter_eq_length_iff.mp hlen
    rw [hself hall] at hbits
    refine ⟨hsp, hk, hin, ?_⟩
    intro i hi hlt
    by_cases hnext : i = c.index + 1
    · subst hnext
      rw [ho, hb]
      refine ⟨rfl, fun n hn => hall n ?_⟩
      simpa using hn
    · rw [← iterate_clean_child (by omega)]
      exact hbits i (by simp only [Fields.child]; omega) hlt
  · rintro ⟨_, _, _, hbits⟩
    obtain ⟨hnode, hclean⟩ := hbits (c.index + 1) (by omega) (getBit_lt ho)
    rw [ho] at hnode hclean
    obtain rfl : b = o := Except.ok.inj (hb.symm.trans hnode)
    have hall : ∀ n ∈ clean getReliability contents, getBit (getHash n) (c.index + 1) = .ok b := by
      intro n hn
      exact hclean n (by simpa using hn)
    rw [hself hall]
    refine ⟨by simp [Fields.child], by simpa [Fields.child] using hk, ?_, ?_⟩
    · exact fun hm => hin (mem_of_mem_removeIf _ _ hm)
    · intro i hi hlt
      simp only [Fields.child] at hi hlt ⊢
      rw [iterate_clean_child hi]
      exact hbits i (by omega) hlt

end Cascade

def Follows (own hash : Hash) : Prop := ∀ i < 223, bit hash (i + 1) = bit own (i + 1)

lemma Follows.eq {a b : Hash} (ha : Follows own a) (hb : Follows own b) (hla : a.length = 28)
    (hlb : b.length = 28) (h : bit a 0 = bit b 0) : a = b := by
  apply ext_bits (hla.trans hlb.symm)
  intro i hi
  cases i with
  | zero => exact h
  | succ i => rw [ha i (by omega), hb i (by omega)]

lemma follows_of_bits {c : Fields} {path : List Bool} {hash : Hash} (hp : Placed own k path c)
    (hown : own.length = 28) (hlen : hash.length = 28) (hs : c.splittable = true)
    (ha : Agrees hash path)
    (hbits : ∀ i, c.index < i → i < 8 * c.nodeHash.length → getBit hash i = getBit c.nodeHash i) :
    Follows own hash := by
  intro i hi
  by_cases hin : i < path.length
  · exact ha.bit_eq (hp.splittable.mp hs) hin
  · have hbit := hbits (i + 1) (by rw [hp.index]; omega) (by rw [hp.nodeHash]; omega)
    rw [hp.nodeHash, getBit_eq (by omega), getBit_eq (by omega)] at hbit
    exact Except.ok.inj hbit

/-- Of three nodes on the way of the own hash two have the same bit 0. -/
lemma not_three_follow {S : Set ν} (hlen : ∀ n ∈ S, (getHash n).length = 28)
    (hinj : Set.InjOn getHash S) {contents : List ν} (hS : ∀ n ∈ contents, n ∈ S) (hnode : node ∈ S)
    (hd : (node :: contents).Nodup) (htwo : 2 ≤ contents.length)
    (hf : ∀ n ∈ node :: contents, Follows own (getHash n)) : False := by
  have hbit : ∀ m ∈ node :: contents, ∀ n ∈ node :: contents,
      bit (getHash m) 0 = bit (getHash n) 0 → m = n := by
    intro m hm n hn h
    have hmem : ∀ l ∈ node :: contents, l ∈ S := List.forall_mem_cons.mpr ⟨hnode, hS⟩
    exact hinj (hmem m hm) (hmem n hn)
      ((hf m hm).eq (hf n hn) (hlen m (hmem m hm)) (hlen n (hmem n hn)) h)
  have hcard : ((node :: contents).map (fun n => bit (getHash n) 0)).Nodup :=
    hd.map_on hbit
  have hle := hcard.length_le_card
  simp at hle
  omega

/-- The tree holds nodes of `S` only. -/
structure Holds (getHash : ν → Hash) (own : Hash) (k : ℕ) (S : Set ν) (t : KBucket ν) : Prop where
  wf : Wf getHash own k [] t
  nodes : ∀ n ∈ t.nodes, n ∈ S

lemma Holds.route {S : Set ν} {t : KBucket ν} (h : Holds getHash own k S t) (hown : own.length = 28)
    (hlen : ∀ n ∈ S, (getHash n).length = 28) (hn : node ∈ S) :
    ∃ path, t.route (getHash node) = .ok path := by
  apply route_returns h.wf
  rw [hown, hlen node hn]

lemma holds_new {S : Set ν} : Holds getHash own k S (KBucket.new own k : KBucket ν) :=
  ⟨wf_new, fun n hn => by cases hn⟩

variable [DecidableEq ν]

theorem addToLeaf_returns_iff {c : Fields} {contents : List ν} (hown : c.nodeHash = own)
    (hlen : ∀ n ∈ contents, own.length ≤ (getHash n).length)
    (hnode : own.length ≤ (getHash node).length)
    (hle : c.splittable = true → contents.length ≤ c.k) :
    (∃ u, addToLeaf getHash getReliability node force c contents = .ok u) ↔
      ¬ Exhausts getHash getReliability node c contents := by
  -- on the bits of the own hash that are left to split by
  induction hm : 8 * c.nodeHash.length - c.index using Nat.strong_induction_on
    generalizing c contents with
  | _ m ih =>
    by_cases hroom : contents.length < c.k
    · rw [addToLeaf_room getHash getReliability hroom]
      exact iff_of_true ⟨_, rfl⟩ (fun h => absurd h.2.1 (by omega))
    have hk : c.k ≤ contents.length := by omega
    by_cases hin : node ∈ clean getReliability contents
    · rw [addToLeaf_present getHash getReliability hk hin]
      exact iff_of_true ⟨_, rfl⟩ (fun h => h.2.2.1 hin)
    by_cases hsp : c.splittable = true
    · by_cases hlast : c.index + 1 < 8 * c.nodeHash.length
      · have hclean : ∀ n ∈ clean getReliability contents, own.length ≤ (getHash n).length :=
          fun n hn => hlen n (mem_of_mem_removeIf _ _ hn)
        have hbits : ∀ n ∈ clean getReliability contents,
            ∃ b, getBit (getHash n) (c.index + 1) = .ok b := by
          intro n hn
          have := hclean n hn
          exact getBit_of_lt (by rw [hown] at hlast; omega)
        obtain ⟨o, ho⟩ := getBit_of_lt hlast
        obtain ⟨b, hb⟩ := getBit_of_lt (show c.index + 1 < 8 * (getHash node).length by
          rw [hown] at hlast; omega)
        rw [addToLeaf_divide_of_bits getHash getReliability hk hin hsp ho hb hbits]
        have hsize : (onSide getHash c b (clean getReliability contents)).length ≤ c.k :=
          (length_onSide_le getHash c b _).trans (by simpa using hle hsp)
        have hchild := ih _ (by simp only [Fields.child]; omega) (c := c.child (o == b)) hown
          (fun n hn => hclean n ((mem_onSide getHash).mp hn).1) (fun _ => hsize) rfl
        rw [← exhausts_child_iff hk (hle hsp) hsp hin ho hb, ← hchild]
        exact exists_map_ok_iff
      · -- no bit is left, so the split reads past the hash
        refine iff_of_false ?_ (not_not.mpr ⟨hsp, hk, hin, fun i hi hlt => by omega⟩)
        rintro ⟨u, hu⟩
        rw [addToLeaf_divide getHash getReliability hk hin hsp] at hu
        obtain ⟨_, hs, _⟩ := bind_ok_iff.mp hu
        exact hlast (splitContents_lt getHash hs)
    · rw [addToLeaf_full getHash getReliability hk hin (by simpa using hsp)]
      exact iff_of_true ⟨_, rfl⟩ (fun h => hsp h.1)

def Exhausted (getHash : ν → Hash) (t : KBucket ν) : Op ν → Prop
  | .add node _ getReliability => ∃ place, t.leafFor (getHash node) = .ok place ∧
      Exhausts getHash getReliability node place.1 place.2
  | .remove _ => False

section Runs

variable {S : Set ν} {t : KBucket ν} {op : Op ν}

lemma addNode_returns_iff (hown : own.length = 28) (hlen : ∀ n ∈ S, (getHash n).length = 28)
    (hnode : node ∈ S) (h : Holds getHash own k S t) :
    (∃ t', t.addNode getHash getReliability node force = .ok t') ↔
      ¬ Exhausted getHash t (.add node force getReliability) := by
  have hle : ∀ n ∈ S, own.length ≤ (getHash n).length := fun n hn => by rw [hown, hlen n hn]
  obtain ⟨path, hr⟩ := h.route hown hlen hnode
  obtain ⟨c, contents, hat, hadd⟩ := addNode_of_route getHash getReliability hr
  obtain ⟨hp, _, hsize⟩ := wf_bucketAt h.wf hat
  have hex : Exhausted getHash t (.add node force getReliability) ↔
      Exhausts getHash getReliability node c contents := by
    simp [Exhausted, leafFor_of_route hr hat]
  rw [hadd, exists_map_ok_iff, hex]
  refine addToLeaf_returns_iff hp.nodeHash (fun n hn => hle n (h.nodes n ?_)) (hle node hnode)
    (fun hs => hp.size ▸ hsize hs)
  exact mem_nodes_iff.mpr ⟨path, c, contents, hat, hn⟩

lemma step_returns_iff (hown : own.length = 28) (hlen : ∀ n ∈ S, (getHash n).length = 28)
    (hop : op.node ∈ S) (h : Holds getHash own k S t) :
    (∃ t', t.step getHash op = .ok t') ↔ ¬ Exhausted getHash t op := by
  cases op with
  | add node force getReliability => exact addNode_returns_iff hown hlen hop h
  | remove node =>
    obtain ⟨path, hr⟩ := h.route hown hlen hop
    obtain ⟨t', ht', _⟩ := removeNode_route hr
    exact iff_of_true ⟨t', ht'⟩ not_false

lemma not_exhausted_of_fresh (hk : 2 ≤ k) (hown : own.length = 28)
    (hlen : ∀ n ∈ S, (getHash n).length = 28) (hinj : Set.InjOn getHash S) (hop : op.node ∈ S)
    (h : Holds getHash own k S t) (hd : t.nodes.Nodup) (hf : Fresh getHash t op) :
    ¬ Exhausted getHash t op := by
  cases op with
  | remove node => exact not_false
  | add node force getReliability =>
    rintro ⟨⟨c, contents⟩, hleaf, hex⟩
    have hadmits := hf _ hleaf
    dsimp only at hadmits hex
    obtain ⟨hsp, hfull, hin, hbits⟩ := hex
    obtain ⟨path, hr⟩ := h.route hown hlen hop
    obtain ⟨c', contents', hat, _⟩ := descend_route hr
    obtain ⟨rfl, rfl⟩ : c = c' ∧ contents = contents' := by
      simpa using hleaf.symm.trans (leafFor_of_route hr hat)
    obtain ⟨hp, hagree, _⟩ := wf_bucketAt h.wf hat
    rw [Admits, if_neg (by omega)] at hadmits
    have hfixed : ∀ j, (clean getReliability)^[j] contents = contents :=
      fun j => Function.iterate_fixed (clean_eq_self hadmits) j
    rw [clean_eq_self hadmits] at hin
    have hS : ∀ n ∈ contents, n ∈ S :=
      fun n hn => h.nodes n (mem_nodes_iff.mpr ⟨path, c, contents, hat, hn⟩)
    have hnodup : contents.Nodup := by
      apply List.nodup_iff_count_le_one.mpr
      intro n
      exact (count_leafFor_le hleaf n).trans (List.nodup_iff_count_le_one.mp hd n)
    apply not_three_follow hlen hinj hS hop (List.nodup_cons.mpr ⟨hin, hnodup⟩)
      (hk.trans (hp.size ▸ hfull))
    refine List.forall_mem_cons.mpr ⟨?_, fun n hn => ?_⟩
    · exact follows_of_bits hp hown (hlen node hop) hsp (agrees_of_route h.wf (agrees_nil _) hr)
        (fun i hi hlt => (hbits i hi hlt).1)
    · apply follows_of_bits hp hown (hlen n (hS n hn)) hsp (hagree n hn)
      intro i hi hlt
      exact (hbits i hi hlt).2 n (by rwa [hfixed])

lemma addToLeaf_nodes_subset {c : Fields} {contents : List ν} {u : KBucket ν}
    (h : addToLeaf getHash getReliability node force c contents = .ok u) {n : ν}
    (hn : n ∈ u.nodes) : n ∈ contents ∨ n = node := by
  refine addToLeaf_induction getHash getReliability
    (P := fun _ contents u => n ∈ u.nodes → n ∈ contents ∨ n = node) ?_ ?_ ?_ ?_ c contents u h hn
  · intro c contents _ hn
    simpa [nodes] using hn
  · intro c contents _ _ hn
    exact Or.inl (mem_of_mem_removeIf _ _ hn)
  · intro c contents o b u _ _ _ _ _ _ ih hn
    have hclean : ∀ {d}, n ∈ onSide getHash c d (clean getReliability contents) → n ∈ contents :=
      fun hm => mem_of_mem_removeIf _ _ ((mem_onSide getHash).mp hm).1
    rcases List.mem_append.mp ((nodes_join _ _ _ _).mem_iff.mp hn) with hu | hw
    · exact (ih hu).imp_left hclean
    · exact Or.inl (hclean hw)
  · intro c contents _ _ _ hn
    have hmem : n ∈ clean getReliability contents ∨ n = node := by
      cases force with
      | true => simpa [nodes] using hn
      | false => exact Or.inl hn
    exact hmem.imp_left (mem_of_mem_removeIf _ _)

lemma mem_of_mem_step {t' : KBucket ν} (hw : Wf getHash own k [] t)
    (h : t.step getHash op = .ok t') {n : ν} (hn : n ∈ t'.nodes) : n ∈ t.nodes ∨ n = op.node := by
  cases op with
  | add node force getReliability =>
    obtain ⟨c, contents, u, hleaf, hu, hcount⟩ := addNode_replaces h
    by_contra hnot
    obtain ⟨hold, hnew⟩ := not_or.mp hnot
    have hu0 : n ∉ u.nodes := by
      intro hm
      rcases addToLeaf_nodes_subset hu hm with hc | rfl
      · have hle := count_leafFor_le hleaf n
        have hpos := List.count_pos_iff.mpr hc
        exact hold (List.count_pos_iff.mp (by omega))
      · exact hnew rfl
    have hn' := hcount n
    rw [List.count_eq_zero_of_not_mem hold, List.count_eq_zero_of_not_mem hu0] at hn'
    have hpos := List.count_pos_iff.mpr hn
    omega
  | remove node =>
    by_cases hnode : node ∈ t.nodes
    · have hperm := removeNode_perm hw hnode h
      exact Or.inl (hperm.mem_iff.mp (List.mem_cons_of_mem _ hn))
    · rw [removeNode_of_not_mem hnode h] at hn
      exact Or.inl hn

lemma Holds.step {t' : KBucket ν} (h : Holds getHash own k S t) (hop : op.node ∈ S)
    (hstep : t.step getHash op = .ok t') : Holds getHash own k S t' := by
  refine ⟨step_wf t op t' h.wf hstep, fun n hn => ?_⟩
  rcases mem_of_mem_step h.wf hstep hn with hold | rfl
  · exact h.nodes n hold
  · exact hop

theorem run_returns_of_fresh {ops : List (Op ν)} (hk : 2 ≤ k) (hown : own.length = 28)
    (hlen : ∀ n ∈ S, (getHash n).length = 28) (hinj : Set.InjOn getHash S)
    (hops : ∀ op ∈ ops, op.node ∈ S)
    (hf : Guarded (KBucket.step getHash) (Fresh getHash) (KBucket.new own k) ops) :
    ∃ t, run (KBucket.step getHash) (KBucket.new own k) ops = .ok t := by
  have hstep : ∀ (t : KBucket ν) (op : Op ν), op.node ∈ S →
      Holds getHash own k S t ∧ t.nodes.Nodup → Fresh getHash t op →
      ∃ t', t.step getHash op = .ok t' ∧ Holds getHash own k S t' ∧ t'.nodes.Nodup := by
    rintro t op hop ⟨h, hd⟩ hfresh
    obtain ⟨t', ht'⟩ := (step_returns_iff hown hlen hop h).mpr
      (not_exhausted_of_fresh hk hown hlen hinj hop h hd hfresh)
    exact ⟨t', ht', h.step hop ht', (step_nodup_iff h.wf hd ht').mpr hfresh⟩
  obtain ⟨t, ht, _⟩ := returns_of_guarded hstep hops ⟨holds_new, List.nodup_nil⟩ hf
  exact ⟨t, ht⟩

theorem run_returns_iff {ops : List (Op ν)} (hown : own.length = 28)
    (hlen : ∀ n ∈ S, (getHash n).length = 28) (hinj : Set.InjOn getHash S)
    (hops : ∀ op ∈ ops, op.node ∈ S) :
    ((∃ t, run (KBucket.step getHash) (KBucket.new own k) ops = .ok t) ↔
      Guarded (KBucket.step getHash) (fun t op => ¬ Exhausted getHash t op)
        (KBucket.new own k) ops) ∧
    (2 ≤ k → Guarded (KBucket.step getHash) (Fresh getHash) (KBucket.new own k) ops →
      ∃ t, run (KBucket.step getHash) (KBucket.new own k) ops = .ok t) := by
  refine ⟨?_, fun hk hf => run_returns_of_fresh hk hown hlen hinj hops hf⟩
  exact returns_iff_guarded (D := fun op => op.node ∈ S)
    (fun t op t' hop h hstep => Holds.step h hop hstep)
    (fun t op hop h => step_returns_iff hown hlen hop h) hops holds_new

end Runs

theorem run_returns_twins :
    ∃ t, run (KBucket.step sampleHash) (KBucket.new (sampleHash 0) 2)
      [.add 0 false (fun _ => .good), .add 128 true (fun _ => .good),
        .add 64 false (fun _ => .good), .remove 0, .add 0 true (fun _ => .bad)] = .ok t := by
  have hinj : Set.InjOn sampleHash {0, 64, 128} := by
    intro m hm n hn h
    have hall : ∀ m ∈ [0, 64, 128], ∀ n ∈ [0, 64, 128], sampleHash m = sampleHash n → m = n := by
      decide +kernel
    exact hall m (by simpa using hm) n (by simpa using hn) h
  refine (run_returns_iff (S := {0, 64, 128}) (by decide) (fun n _ => by simp [sampleHash]) hinj
    ?_).2 (by decide) ?_
  · simp [Op.node]
  · decide +kernel

theorem add_runs_off_hash :
    run (KBucket.step sampleHash) (KBucket.new (sampleHash 0) 1)
        [.add 0 false (fun _ => .good), .add 128 false (fun _ => .good)] = .error .readPastEnd ∧
      run (KBucket.step sampleHash) (KBucket.new (sampleHash 0) 2)
        [.add 0 false (fun _ => .good), .add 0 false (fun _ => .good),
          .add 128 false (fun _ => .good)] = .error .readPastEnd ∧
      (sampleHash 0).length = 28 ∧ (sampleHash 128).length = 28 ∧
      sampleHash 0 ≠ sampleHash 128 := by
  refine ⟨?_, ?_, rfl, rfl, ?_⟩
  · decide +kernel
  · decide +kernel
  · decide +kernel

end P2PNet.DHT.KBucket
