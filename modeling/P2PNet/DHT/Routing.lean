import P2PNet.DHT.Paths

/-! The joint invariant of place, flag and size, kept by every call, and what
follows from it for lookups, removal, shape and capacity. -/

namespace P2PNet.DHT

open Lib.Runs Lib.Lists

structure Placed (own : Hash) (k : ℕ) (path : List Bool) (c : Fields) : Prop where
  index : c.index = path.length
  size : c.k = k
  nodeHash : c.nodeHash = own
  splittable : c.splittable = true ↔ Agrees own path

lemma Placed.child {own : Hash} {k : ℕ} {path : List Bool} {c : Fields} (h : Placed own k path c)
    (hs : c.splittable = true) {o : Bool} (ho : getBit c.nodeHash (c.index + 1) = .ok o)
    (b : Bool) : Placed own k (path ++ [b]) (c.child (o == b)) := by
  refine ⟨by simp [Fields.child, h.index], h.size, h.nodeHash, ?_⟩
  rw [h.nodeHash, h.index] at ho
  have hp := h.splittable.mp hs
  simp only [Fields.child, agrees_concat, ho, Except.ok.injEq, beq_iff_eq, hp, true_and]

lemma Placed.unique {own : Hash} {k : ℕ} {path : List Bool} {c c' : Fields}
    (h : Placed own k path c) (h' : Placed own k path c') : c = c' := by
  have hs : c.splittable = c'.splittable :=
    Bool.eq_iff_iff.mpr (h.splittable.trans h'.splittable.symm)
  have hi := h.index.trans h'.index.symm
  have hk := h.size.trans h'.size.symm
  have hn := h.nodeHash.trans h'.nodeHash.symm
  cases c
  cases c'
  simp only at hs hi hk hn
  rw [hs, hi, hk, hn]

namespace KBucket

variable {ν : Type} (getHash : ν → Hash) (own : Hash) (k : ℕ)

def Wf : List Bool → KBucket ν → Prop
  | path, .leaf c contents => Placed own k path c ∧ (∀ n ∈ contents, Agrees (getHash n) path) ∧
      (c.splittable = true → contents.length ≤ k)
  | path, .inner c first second => Placed own k path c ∧ Agrees own path ∧
      (∃ b, getBit own (path.length + 1) = .ok b) ∧
      Wf (path ++ [false]) first ∧ Wf (path ++ [true]) second

variable {getHash own k}

lemma wf_join {path : List Bool} {c : Fields} {b : Bool} {u w : KBucket ν} :
    Wf getHash own k path (join c b u w) ↔ Placed own k path c ∧ Agrees own path ∧
      (∃ d, getBit own (path.length + 1) = .ok d) ∧
      Wf getHash own k (path ++ [b]) u ∧ Wf getHash own k (path ++ [!b]) w := by
  cases b
  · exact Iff.rfl
  · simp only [join, cond_true, Wf, Bool.not_true, and_comm (a := Wf getHash own k _ w)]

lemma wf_new : Wf getHash own k [] (KBucket.new own k : KBucket ν) := by
  refine ⟨⟨rfl, rfl, rfl, ?_⟩, ?_, ?_⟩
  · simp
  · intro n hn
    cases hn
  · simp

lemma wf_bucketAt {path q : List Bool} {t u : KBucket ν} (h : Wf getHash own k path t)
    (hq : t.bucketAt q = some u) : Wf getHash own k (path ++ q) u := by
  induction hq using bucketAt_induction generalizing path with
  | here => simpa using h
  | child c d v w q hq ih =>
    obtain ⟨_, _, _, hsame, _⟩ := wf_join.mp h
    rw [List.append_cons]
    exact ih hsame

/-- The child off the way of the own hash is a leaf that cannot be split. -/
lemma wf_sibling {path : List Bool} {c : Fields} {o : Bool} {u w : KBucket ν}
    (hw : Wf getHash own k path (join c o u w)) (ho : getBit own (c.index + 1) = .ok o) :
    ∃ d others, w = .leaf d others ∧ d.splittable = false ∧ d.k = k := by
  obtain ⟨hp, _, _, _, hother⟩ := wf_join.mp hw
  have hna : ¬ Agrees own (path ++ [!o]) := by
    intro hag
    have hno := (agrees_concat.mp hag).2
    rw [← hp.index, ho] at hno
    simp at hno
  cases w with
  | leaf d others => exact ⟨d, others, rfl, by simpa [hna] using hother.1.splittable, hother.1.size⟩
  | inner d first second => exact absurd hother.2.1 hna

section Calls

variable [DecidableEq ν] {getReliability : ν → Reliability} {node : ν} {force : Bool}

lemma addToLeaf_wf {path : List Bool} {c : Fields} {contents : List ν} {t : KBucket ν}
    (h : addToLeaf getHash getReliability node force c contents = .ok t)
    (hn : Agrees (getHash node) path) (hw : Wf getHash own k path (.leaf c contents)) :
    Wf getHash own k path t := by
  refine addToLeaf_induction getHash getReliability
    (P := fun c contents t => ∀ path, Agrees (getHash node) path →
      Wf getHash own k path (.leaf c contents) → Wf getHash own k path t)
    ?_ ?_ ?_ ?_ c contents t h path hn hw
  · rintro c contents hroom path hn ⟨hp, hc, _⟩
    refine ⟨hp, ?_, ?_⟩
    · simpa [or_imp, forall_and] using ⟨hc, hn⟩
    · intro _
      rw [← hp.size]
      simpa using hroom
  · rintro c contents _ _ path hn ⟨hp, hc, hsize⟩
    exact ⟨hp, fun n hm => hc n (mem_of_mem_removeIf _ _ hm), by simpa using hsize⟩
  · rintro c contents o b u _ _ hs ho hb _ ih path hn ⟨hp, hc, hsize⟩
    have hside : ∀ d, Wf getHash own k (path ++ [d])
        (.leaf (c.child (o == d)) (onSide getHash c d (clean getReliability contents))) := by
      intro d
      refine ⟨hp.child hs ho d, ?_, ?_⟩
      · intro n hm
        obtain ⟨hmem, hd⟩ := (mem_onSide getHash).mp hm
        rw [hp.index] at hd
        exact agrees_concat.mpr ⟨hc n (mem_of_mem_removeIf _ _ hmem), hd⟩
      · intro _
        exact (length_onSide_le getHash c d _).trans (by simpa using hsize hs)
    have hown : getBit own (path.length + 1) = .ok o := by rw [← hp.nodeHash, ← hp.index]; exact ho
    refine wf_join.mpr ⟨hp, hp.splittable.mp hs, ⟨o, hown⟩, ?_, hside (!b)⟩
    rw [hp.index] at hb
    exact ih (path ++ [b]) (agrees_concat.mpr ⟨hn, hb⟩) (hside b)
  · rintro c contents _ _ hs path hn ⟨hp, hc, _⟩
    refine ⟨hp, ?_, by simp [hs]⟩
    have hclean : ∀ n ∈ clean getReliability contents, Agrees (getHash n) path :=
      fun n hm => hc n (mem_of_mem_removeIf _ _ hm)
    cases force with
    | true => simpa [or_imp, forall_and] using ⟨hclean, hn⟩
    | false => simpa using hclean

lemma removeNode_inner {c : Fields} {first second t : KBucket ν}
    (h : (KBucket.inner c first second).removeNode getHash node = .ok t) :
    ∃ b u, getBit (getHash node) (c.index + 1) = .ok b ∧
      (bif b then second else first).removeNode getHash node = .ok u ∧
      t = join c b u (bif b then first else second) :=
  child_ok h

lemma addNode_wf {path : List Bool} {t t' : KBucket ν} (hw : Wf getHash own k path t)
    (hn : Agrees (getHash node) path)
    (h : t.addNode getHash getReliability node force = .ok t') : Wf getHash own k path t' := by
  induction t using child_induction generalizing path t' with
  | leaf c contents => exact addToLeaf_wf h hn hw
  | inner c first second ih =>
    obtain ⟨b, u, hb, hu, rfl⟩ := addNode_inner h
    rw [inner_eq_join c b, wf_join] at hw
    obtain ⟨hp, ho, hbit, hsame, hother⟩ := hw
    have hn' : Agrees (getHash node) (path ++ [b]) := agrees_concat.mpr ⟨hn, hp.index ▸ hb⟩
    exact wf_join.mpr ⟨hp, ho, hbit, ih b hsame hn' hu, hother⟩

lemma removeNode_wf {path : List Bool} {t t' : KBucket ν} (hw : Wf getHash own k path t)
    (h : t.removeNode getHash node = .ok t') : Wf getHash own k path t' := by
  induction t using child_induction generalizing path t' with
  | leaf c contents =>
    obtain rfl := Except.ok.inj h
    obtain ⟨hp, hc, hsize⟩ := hw
    exact ⟨hp, fun n hm => hc n (List.mem_of_mem_erase hm),
      fun hs => List.length_erase_le.trans (hsize hs)⟩
  | inner c first second ih =>
    obtain ⟨b, u, hb, hu, rfl⟩ := removeNode_inner h
    rw [inner_eq_join c b, wf_join] at hw
    obtain ⟨hp, ho, hbit, hsame, hother⟩ := hw
    exact wf_join.mpr ⟨hp, ho, hbit, ih b hsame hu, hother⟩

lemma step_wf (t : KBucket ν) (op : Op ν) (t' : KBucket ν) (hw : Wf getHash own k [] t)
    (h : t.step getHash op = .ok t') : Wf getHash own k [] t' := by
  cases op with
  | add node force getReliability => exact addNode_wf hw (agrees_nil _) h
  | remove node => exact removeNode_wf hw h

theorem run_wf {ops : List (Op ν)} {t : KBucket ν}
    (h : run (KBucket.step getHash) (KBucket.new own k) ops = .ok t) : Wf getHash own k [] t :=
  invariant step_wf wf_new h

end Calls

lemma route_of_agrees {path q : List Bool} {t : KBucket ν} {c : Fields} {contents : List ν}
    {hash : Hash} (hw : Wf getHash own k path t) (hq : t.bucketAt q = some (.leaf c contents))
    (ha : Agrees hash (path ++ q)) : t.route hash = .ok q := by
  induction hq using bucketAt_induction generalizing path with
  | here => rfl
  | child c' d v w q hq ih =>
    obtain ⟨hp, _, _, hsame, _⟩ := wf_join.mp hw
    rw [List.append_cons] at ha
    have hd : getBit hash (c'.index + 1) = .ok d := by
      have hi := ha path.length (by simp)
      rw [hp.index]
      simpa using hi
    exact route_join hd (ih hsame ha)

lemma route_returns {path : List Bool} {t : KBucket ν} {hash : Hash}
    (hw : Wf getHash own k path t) (hlen : own.length ≤ hash.length) :
    ∃ q, t.route hash = .ok q := by
  induction t using child_induction generalizing path with
  | leaf c contents => exact ⟨[], rfl⟩
  | inner c first second ih =>
    have hp := hw.1
    obtain ⟨o, ho⟩ := hw.2.2.1
    have hlt := getBit_lt ho
    obtain ⟨b, hb⟩ := getBit_of_lt (show c.index + 1 < 8 * hash.length by rw [hp.index]; omega)
    rw [inner_eq_join c b] at hw ⊢
    obtain ⟨_, _, _, hsame, _⟩ := wf_join.mp hw
    obtain ⟨q, hq⟩ := ih b hsame
    exact ⟨_, route_join hb hq⟩

lemma mem_nodes_iff {t : KBucket ν} {n : ν} :
    n ∈ t.nodes ↔ ∃ q c contents, t.bucketAt q = some (.leaf c contents) ∧ n ∈ contents := by
  induction t with
  | leaf c contents =>
    constructor
    · intro h
      exact ⟨[], c, contents, rfl, h⟩
    · rintro ⟨q, c', contents', hq, hn⟩
      cases q with
      | nil =>
        obtain ⟨rfl, rfl⟩ : c = c' ∧ contents = contents' := by simpa using hq
        exact hn
      | cons d q => simp at hq
  | inner c first second ihf ihs =>
    simp only [nodes, List.mem_append, ihf, ihs]
    constructor
    · rintro (⟨q, h⟩ | ⟨q, h⟩)
      · exact ⟨false :: q, h⟩
      · exact ⟨true :: q, h⟩
    · rintro ⟨q, c', contents', hq, hn⟩
      cases q with
      | nil => simp at hq
      | cons d q =>
        cases d with
        | false => exact Or.inl ⟨q, c', contents', hq, hn⟩
        | true => exact Or.inr ⟨q, c', contents', hq, hn⟩

section Removal

variable [DecidableEq ν]

lemma removeNode_join {c : Fields} {b : Bool} {u u' w : KBucket ν} {node : ν}
    (hb : getBit (getHash node) (c.index + 1) = .ok b) (hu : u.removeNode getHash node = .ok u') :
    (join c b u w).removeNode getHash node = .ok (join c b u' w) := by
  cases b <;> simp [join, removeNode, hb, hu, bind, Except.bind, pure, Except.pure]

/-- `t'` is `t` with one occurrence of the node erased from the leaf at `q`. -/
structure ErasedAt (node : ν) (q : List Bool) (t t' : KBucket ν) : Prop where
  leaf : ∃ c contents, t.bucketAt q = some (.leaf c contents) ∧
    t'.bucketAt q = some (.leaf c (contents.erase node)) ∧
    (node ∈ contents → (node :: t'.nodes).Perm t.nodes)
  frame : ∀ q' c contents, q' ≠ q → t.bucketAt q' = some (.leaf c contents) →
    t'.bucketAt q' = some (.leaf c contents)

lemma ErasedAt.join {node : ν} {q : List Bool} {u u' : KBucket ν} (h : ErasedAt node q u u')
    (c : Fields) (b : Bool) (w : KBucket ν) :
    ErasedAt node (b :: q) (join c b u w) (join c b u' w) := by
  constructor
  · obtain ⟨d, contents, hat, hat', hperm⟩ := h.leaf
    refine ⟨d, contents, by rwa [bucketAt_join_same], by rwa [bucketAt_join_same], fun hn => ?_⟩
    have hu := (hperm hn).append_right w.nodes
    exact ((nodes_join c b u' w).cons node).trans (hu.trans (nodes_join c b u w).symm)
  · intro q' d contents hne hq'
    cases q' with
    | nil => cases b <;> simp [KBucket.join] at hq'
    | cons e q' =>
      rw [bucketAt_join_cons] at hq' ⊢
      by_cases he : e = b
      · rw [if_pos he] at hq' ⊢
        exact h.frame q' d contents (fun hq => hne (by rw [he, hq])) hq'
      · rw [if_neg he] at hq' ⊢
        exact hq'

lemma removeNode_route {t : KBucket ν} {node : ν} {q : List Bool}
    (h : t.route (getHash node) = .ok q) :
    ∃ t', t.removeNode getHash node = .ok t' ∧ ErasedAt node q t t' := by
  induction t using child_induction generalizing q with
  | leaf c contents =>
    obtain rfl := Except.ok.inj h
    refine ⟨_, rfl, ⟨c, contents, rfl, rfl, fun hn => (List.perm_cons_erase hn).symm⟩, ?_⟩
    intro q' c' contents' hne hq'
    cases q' with
    | nil => exact absurd rfl hne
    | cons d q' => simp at hq'
  | inner c first second ih =>
    obtain ⟨b, p, hb, hp, rfl⟩ := route_inner h
    obtain ⟨u', hu', her⟩ := ih b hp
    rw [inner_eq_join c b]
    exact ⟨_, removeNode_join hb hu', her.join c b _⟩

lemma removeNode_of_not_mem {t t' : KBucket ν} {node : ν} (hn : node ∉ t.nodes)
    (h : t.removeNode getHash node = .ok t') : t' = t := by
  induction t generalizing t' with
  | leaf c contents =>
    obtain rfl := Except.ok.inj h
    exact congrArg (KBucket.leaf c) (List.erase_of_not_mem hn)
  | inner c first second ihf ihs =>
    obtain ⟨b, u, hb, hu, rfl⟩ := removeNode_inner h
    simp only [nodes, List.mem_append, not_or] at hn
    cases b with
    | false => rw [ihf hn.1 hu]; rfl
    | true => rw [ihs hn.2 hu]; rfl

theorem stored_nodes_routed {ops : List (Op ν)} {t : KBucket ν}
    (h : run (KBucket.step getHash) (KBucket.new own k) ops = .ok t) :
    (∀ path c contents, t.bucketAt path = some (.leaf c contents) → ∀ n ∈ contents,
      t.route (getHash n) = .ok path ∧
      t.descend (getHash n) path.length = .ok (.leaf c contents) ∧
      c.index = path.length ∧ Agrees (getHash n) path) ∧
    (∀ n ∈ t.nodes, ∃ t', t.removeNode getHash n = .ok t' ∧
      t'.nodes.count n + 1 = t.nodes.count n ∧ t'.count + 1 = t.count ∧
      ∀ path c contents, t.bucketAt path = some (.leaf c contents) →
        ∃ contents', t'.bucketAt path = some (.leaf c contents') ∧
          ∀ m, m ≠ n → contents'.count m = contents.count m) ∧
    (∀ n, n ∉ t.nodes → (∀ t', t.removeNode getHash n = .ok t' → t' = t) ∧
      (own.length ≤ (getHash n).length → t.removeNode getHash n = .ok t)) := by
  have hw := run_wf h
  have hroute : ∀ path c contents, t.bucketAt path = some (.leaf c contents) → ∀ n ∈ contents,
      t.route (getHash n) = .ok path ∧
      t.descend (getHash n) path.length = .ok (.leaf c contents) ∧
      c.index = path.length ∧ Agrees (getHash n) path := by
    intro path c contents hat n hn
    obtain ⟨hp, hc, _⟩ := wf_bucketAt hw hat
    have hr := route_of_agrees hw hat (hc n hn)
    obtain ⟨c', contents', hat', hd⟩ := descend_route hr
    obtain ⟨rfl, rfl⟩ : c = c' ∧ contents = contents' := by simpa using hat.symm.trans hat'
    exact ⟨hr, hd, hp.index, hc n hn⟩
  have habsent : ∀ n, n ∉ t.nodes → (∀ t', t.removeNode getHash n = .ok t' → t' = t) ∧
      (own.length ≤ (getHash n).length → t.removeNode getHash n = .ok t) := by
    intro n hn
    refine ⟨fun t' ht' => removeNode_of_not_mem hn ht', ?_⟩
    intro hlen
    obtain ⟨q, hq⟩ := route_returns hw hlen
    obtain ⟨t', ht', _⟩ := removeNode_route hq
    rw [ht', removeNode_of_not_mem hn ht']
  refine ⟨hroute, ?_, habsent⟩
  intro n hn
  obtain ⟨q, c, contents, hat, hmem⟩ := mem_nodes_iff.mp hn
  obtain ⟨t', ht', ⟨c', contents', hat', hat'', hperm⟩, hframe⟩ :=
    removeNode_route (hroute q c contents hat n hmem).1
  obtain ⟨rfl, rfl⟩ : c = c' ∧ contents = contents' := by simpa using hat.symm.trans hat'
  have hp := hperm hmem
  refine ⟨t', ht', by simpa using hp.count_eq n, ?_, ?_⟩
  · simpa [count_eq_length_nodes] using hp.length_eq
  · intro path d ys hpath
    by_cases he : path = q
    · subst he
      obtain ⟨rfl, rfl⟩ : c = d ∧ contents = ys := by simpa using hat.symm.trans hpath
      exact ⟨_, hat'', fun m hm => List.count_erase_of_ne hm⟩
    · exact ⟨ys, hframe path d ys he hpath, fun _ _ => rfl⟩

theorem stored_nodes_routed_two_splits :
    ∃ t t', run (KBucket.step (fun n : ℕ => [UInt8.ofNat n])) (KBucket.new [0] 1)
        [.add 64 false (fun _ => .good), .add 0 true (fun _ => .good),
          .add 32 false (fun _ => .questionable)] = .ok t ∧
      t.splits = 2 ∧ t.removeNode (fun n : ℕ => [UInt8.ofNat n]) 32 = .ok t' ∧
      t'.count + 1 = t.count := by
  have h : run (KBucket.step (fun n : ℕ => [UInt8.ofNat n])) (KBucket.new [0] 1)
      [.add 64 false (fun _ => .good), .add 0 true (fun _ => .good),
        .add 32 false (fun _ => .questionable)] =
      .ok (.inner ⟨0, 1, true, [0]⟩
        (.inner ⟨1, 1, true, [0]⟩ (.leaf ⟨2, 1, true, [0]⟩ [0]) (.leaf ⟨2, 1, false, [0]⟩ [32]))
        (.leaf ⟨1, 1, false, [0]⟩ [64])) := by
    decide +kernel
  obtain ⟨t', ht', _, hcount, _⟩ := (stored_nodes_routed h).2.1 32 (by decide)
  exact ⟨_, t', h, rfl, ht', hcount⟩

end Removal

end KBucket

end P2PNet.DHT
