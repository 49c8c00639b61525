import P2PNet.DHT.Capacity
import P2PNet.DHT.Exhaustion

/-! The tree that a set of nodes grows. As long as no node is bad and each is added
once, the tree is determined by the set up to which nodes its full leaves took,
whatever the order. -/

namespace P2PNet.DHT.KBucket

open Lib.Runs Lib.Lists

variable {ν : Type} {getHash : ν → Hash} {own : Hash} {k : ℕ}

def sideOf (getHash : ν → Hash) (c : Fields) (b : Bool) (S : Finset ν) : Finset ν :=
  S.filter (fun n => getBit (getHash n) (c.index + 1) = .ok b)

structure GrownLeaf (S : Finset ν) (c : Fields) (contents : List ν) : Prop where
  nodup : contents.Nodup
  subset : ∀ n ∈ contents, n ∈ S
  size : contents.length = min c.k S.card
  room : c.splittable = true → S.card ≤ c.k

/-- The tree after the nodes of `S` have been added, or those of them that came to it. -/
def Grown (getHash : ν → Hash) : Finset ν → KBucket ν → Prop
  | S, .leaf c contents => GrownLeaf S c contents
  | S, .inner c first second => c.k < S.card ∧ Grown getHash (sideOf getHash c false S) first ∧
      Grown getHash (sideOf getHash c true S) second

variable {S : Finset ν} {node : ν} {c : Fields} {b : Bool}

lemma mem_sideOf {n : ν} :
    n ∈ sideOf getHash c b S ↔ n ∈ S ∧ getBit (getHash n) (c.index + 1) = .ok b :=
  Finset.mem_filter

lemma grown_join {u w : KBucket ν} :
    Grown getHash S (join c b u w) ↔ c.k < S.card ∧ Grown getHash (sideOf getHash c b S) u ∧
      Grown getHash (sideOf getHash c (!b) S) w := by
  cases b
  · exact Iff.rfl
  · simp only [join, cond_true, Grown, Bool.not_true, and_comm (a := Grown getHash _ w)]

lemma grown_subset {t : KBucket ν} (hg : Grown getHash S t) {n : ν} (hn : n ∈ t.nodes) : n ∈ S := by
  induction t generalizing S with
  | leaf c contents => exact hg.subset n hn
  | inner c first second ihf ihs =>
    rcases List.mem_append.mp hn with hf | hs
    · exact (mem_sideOf.mp (ihf hg.2.1 hf)).1
    · exact (mem_sideOf.mp (ihs hg.2.2 hs)).1

lemma GrownLeaf.clean_eq {contents : List ν} {getReliability : ν → Reliability}
    (h : GrownLeaf S c contents) (hgood : ∀ n ∈ S, getReliability n ≠ .bad) :
    clean getReliability contents = contents := by
  apply removeIf_eq_self
  apply List.pairwise_of_forall_mem_list
  intro m hm n _ hbad
  exact absurd (by simpa using hbad) (hgood m (h.subset m hm))

/-- Only the contents are forgotten. -/
def outline : KBucket ν → KBucket Unit
  | .leaf c contents => .leaf c (contents.map fun _ => ())
  | .inner c first second => .inner c first.outline second.outline

lemma count_outline (t : KBucket ν) : t.outline.count = t.count := by
  induction t with
  | leaf c contents => simp [outline, count]
  | inner c first second ihf ihs => rw [outline, count, count, ihf, ihs]

lemma outline_eq {S : Finset ν} {t t' : KBucket ν} {path : List Bool}
    (hw : Wf getHash own k path t) (hw' : Wf getHash own k path t') (hg : Grown getHash S t)
    (hg' : Grown getHash S t') : t.outline = t'.outline := by
  induction t generalizing t' S path with
  | leaf c contents =>
    cases t' with
    | leaf c' contents' =>
      obtain rfl := Placed.unique hw.1 hw'.1
      simp [outline, List.map_const', hg.size, hg'.size]
    | inner c' first' second' =>
      have hroom := hg.room (hw.1.splittable.mpr hw'.2.1)
      have hlarge := hg'.1
      rw [hw.1.size] at hroom
      rw [hw'.1.size] at hlarge
      omega
  | inner c first second ihf ihs =>
    cases t' with
    | leaf c' contents' =>
      have hroom := hg'.room (hw'.1.splittable.mpr hw.2.1)
      have hlarge := hg.1
      rw [hw'.1.size] at hroom
      rw [hw.1.size] at hlarge
      omega
    | inner c' first' second' =>
      obtain rfl := Placed.unique hw.1 hw'.1
      obtain ⟨_, _, _, hf, hs⟩ := hw
      obtain ⟨_, _, _, hf', hs'⟩ := hw'
      rw [outline, outline, ihf hf hf' hg.2.1 hg'.2.1, ihs hs hs' hg.2.2 hg'.2.2]

/-- The nodes of `N` that agree with the own hash on bits `1 .. i`. -/
def agreeing (getHash : ν → Hash) (own : Hash) (N : Finset ν) (i : ℕ) : Finset ν :=
  N.filter (fun n => ∀ j < i, getBit (getHash n) (j + 1) = getBit own (j + 1))

@[simp] lemma agreeing_zero {N : Finset ν} : agreeing getHash own N 0 = N := by
  simp [agreeing]

lemma agreeing_subset (getHash : ν → Hash) (own : Hash) (N : Finset ν) {i j : ℕ} (hij : i ≤ j) :
    agreeing getHash own N j ⊆ agreeing getHash own N i := by
  intro n hn
  obtain ⟨hN, hbits⟩ := Finset.mem_filter.mp hn
  exact Finset.mem_filter.mpr ⟨hN, fun l hl => hbits l (hl.trans_le hij)⟩

lemma agreeing_succ {N : Finset ν} (ho : getBit own (c.index + 1) = .ok b) :
    agreeing getHash own N (c.index + 1) = sideOf getHash c b (agreeing getHash own N c.index) := by
  ext n
  simp only [agreeing, mem_sideOf, Finset.mem_filter, Nat.lt_succ_iff_lt_or_eq, or_imp, forall_and,
    forall_eq, ho, and_assoc]

variable [DecidableEq ν]

lemma sideOf_insert_same (hb : getBit (getHash node) (c.index + 1) = .ok b) :
    sideOf getHash c b (insert node S) = insert node (sideOf getHash c b S) :=
  (Finset.filter_insert _ _ _).trans (if_pos hb)

lemma sideOf_insert_other (hb : getBit (getHash node) (c.index + 1) = .ok b) :
    sideOf getHash c (!b) (insert node S) = sideOf getHash c (!b) S := by
  refine (Finset.filter_insert _ _ _).trans (if_neg ?_)
  rw [hb]
  cases b <;> simp

namespace GrownLeaf

variable {contents : List ν}

lemma toFinset_eq (h : GrownLeaf S c contents) (hS : S.card ≤ c.k) : contents.toFinset = S := by
  apply Finset.eq_of_subset_of_card_le
  · intro n hn
    exact h.subset n (List.mem_toFinset.mp hn)
  · rw [List.toFinset_card_of_nodup h.nodup, h.size, Nat.min_eq_right hS]

lemma onSide (h : GrownLeaf S c contents) (hS : S.card ≤ c.k) (d : Bool) {s : Bool} :
    GrownLeaf (sideOf getHash c d S) (c.child s) (KBucket.onSide getHash c d contents) := by
  have hset : (KBucket.onSide getHash c d contents).toFinset = sideOf getHash c d S := by
    rw [KBucket.onSide, List.toFinset_filter, h.toFinset_eq hS, sideOf]
    simp
  have hnodup : (KBucket.onSide getHash c d contents).Nodup := h.nodup.filter _
  have hcard : (sideOf getHash c d S).card = (KBucket.onSide getHash c d contents).length := by
    rw [← hset, List.toFinset_card_of_nodup hnodup]
  have hle : (sideOf getHash c d S).card ≤ c.k := (Finset.card_filter_le _ _).trans hS
  refine ⟨hnodup, ?_, ?_, fun _ => hle⟩
  · intro n hn
    rw [← hset]
    exact List.mem_toFinset.mpr hn
  · rw [← hcard]
    exact (Nat.min_eq_right hle).symm

lemma concat (h : GrownLeaf S c contents) (hroom : contents.length < c.k) (hnew : node ∉ S) :
    GrownLeaf (insert node S) c (contents ++ [node]) := by
  have hsize := h.size
  have hcard := Finset.card_insert_of_notMem hnew
  refine ⟨?_, ?_, ?_, fun _ => by omega⟩
  · exact List.nodup_append.mpr ⟨h.nodup, by simp, by
      intro m hm n hn
      obtain rfl := List.mem_singleton.mp hn
      rintro rfl
      exact hnew (h.subset m hm)⟩
  · intro n hn
    rcases List.mem_append.mp hn with hm | hm
    · exact Finset.mem_insert_of_mem (h.subset n hm)
    · simp [List.mem_singleton.mp hm]
  · rw [List.length_append, List.length_singleton]
    omega

lemma keep (h : GrownLeaf S c contents) (hfull : c.k ≤ contents.length) (hnew : node ∉ S)
    (hsp : c.splittable = false) : GrownLeaf (insert node S) c contents := by
  have hsize := h.size
  have hcard := Finset.card_insert_of_notMem hnew
  refine ⟨h.nodup, fun n hn => Finset.mem_insert_of_mem (h.subset n hn), by omega, by simp [hsp]⟩

end GrownLeaf

variable {getReliability : ν → Reliability}

lemma addToLeaf_grown {contents : List ν} {u : KBucket ν}
    (h : addToLeaf getHash getReliability node false c contents = .ok u)
    (hg : GrownLeaf S c contents) (hnew : node ∉ S) (hgood : ∀ n ∈ S, getReliability n ≠ .bad) :
    Grown getHash (insert node S) u := by
  refine addToLeaf_induction getHash getReliability
    (P := fun c contents u => ∀ S : Finset ν, GrownLeaf S c contents → node ∉ S →
      (∀ n ∈ S, getReliability n ≠ .bad) → Grown getHash (insert node S) u)
    ?_ ?_ ?_ ?_ c contents u h S hg hnew hgood
  · intro c contents hroom S hg hnew _
    exact hg.concat hroom hnew
  · intro c contents _ hin S hg hnew _
    exact absurd (hg.subset _ (mem_of_mem_removeIf _ _ hin)) hnew
  · intro c contents o b u hk _ hsp _ hb _ ih S hg hnew hgood
    -- a splittable leaf still has all its nodes, so none is missing from the two sides
    have hS := hg.room hsp
    have hsize := hg.size
    rw [hg.clean_eq hgood] at ih ⊢
    refine grown_join.mpr ⟨?_, ?_, ?_⟩
    · rw [Finset.card_insert_of_notMem hnew]
      omega
    · rw [sideOf_insert_same hb]
      apply ih _ (hg.onSide hS b)
      · exact fun hm => hnew (mem_sideOf.mp hm).1
      · exact fun n hn => hgood n (mem_sideOf.mp hn).1
    · rw [sideOf_insert_other hb]
      exact hg.onSide hS (!b)
  · intro c contents hk _ hsp S hg hnew hgood
    -- `k` nodes of the leaf stay, whichever came first
    rw [hg.clean_eq hgood]
    exact hg.keep hk hnew hsp

lemma addNode_grown {t t' : KBucket ν}
    (h : t.addNode getHash getReliability node false = .ok t') (hg : Grown getHash S t)
    (hnew : node ∉ S) (hgood : ∀ n ∈ S, getReliability n ≠ .bad) :
    Grown getHash (insert node S) t' := by
  induction t using child_induction generalizing S t' with
  | leaf c contents => exact addToLeaf_grown h hg hnew hgood
  | inner c first second ih =>
    obtain ⟨b, u, hb, hu, rfl⟩ := addNode_inner h
    rw [inner_eq_join c b, grown_join] at hg
    obtain ⟨hcard, hsame, hother⟩ := hg
    have hnew' : node ∉ sideOf getHash c b S := fun hm => hnew (mem_sideOf.mp hm).1
    have hgood' : ∀ n ∈ sideOf getHash c b S, getReliability n ≠ .bad :=
      fun n hn => hgood n (mem_sideOf.mp hn).1
    refine grown_join.mpr ⟨hcard.trans_le (Finset.card_le_card (Finset.subset_insert _ _)), ?_, ?_⟩
    · rw [sideOf_insert_same hb]
      exact ih b hu hsame hnew' hgood'
    · rwa [sideOf_insert_other hb]

def parting (getHash : ν → Hash) (own : Hash) (N : Finset ν) (i : ℕ) : Finset ν :=
  agreeing getHash own N i \ agreeing getHash own N (i + 1)

section ClosedForm

variable {N : Finset ν} {t : KBucket ν} {i : ℕ}

lemma parting_eq (ho : getBit own (c.index + 1) = .ok b)
    (hbits : ∀ n ∈ N, ∃ d, getBit (getHash n) (c.index + 1) = .ok d) :
    parting getHash own N c.index = sideOf getHash c (!b) (agreeing getHash own N c.index) := by
  ext n
  rw [parting, agreeing_succ ho, Finset.mem_sdiff, mem_sideOf, mem_sideOf]
  refine and_congr_right fun hn => ?_
  obtain ⟨d, hd⟩ := hbits n (Finset.mem_filter.mp hn).1
  simp only [hd, hn, true_and, Except.ok.injEq]
  cases d <;> cases b <;> simp

/-- The tree of `N` from depth `i` on, where `path` is the way of the own hash to the
splittable leaf. -/
structure ClosedForm (getHash : ν → Hash) (own : Hash) (k : ℕ) (N : Finset ν) (i : ℕ)
    (path : List Bool) (t : KBucket ν) : Prop where
  route : t.route own = .ok path
  leaf : ∃ c contents, t.bucketAt path = some (.leaf c contents) ∧ c.splittable = true ∧
    contents.Nodup ∧ contents.toFinset = agreeing getHash own N (i + path.length)
  small : (agreeing getHash own N (i + path.length)).card ≤ k
  large : ∀ j < path.length, k < (agreeing getHash own N (i + j)).card
  siblings : ∀ j (hj : j < path.length), ∃ c contents,
    t.bucketAt (path.take j ++ [!path[j]]) = some (.leaf c contents) ∧ c.splittable = false ∧
    contents.Nodup ∧ (∀ n ∈ contents, n ∈ parting getHash own N (i + j)) ∧
    contents.length = min k (parting getHash own N (i + j)).card
  splits : t.splits = path.length
  count : t.count = (agreeing getHash own N (i + path.length)).card +
    ∑ j ∈ Finset.range path.length, min k (parting getHash own N (i + j)).card

lemma ClosedForm.join {path : List Bool} {u : KBucket ν} {d : Fields} {others : List ν}
    (h : ClosedForm getHash own k N (c.index + 1) path u) (ho : getBit own (c.index + 1) = .ok b)
    (hk : d.k = k) (hd : d.splittable = false)
    (hlarge : k < (agreeing getHash own N c.index).card)
    (hg : GrownLeaf (parting getHash own N c.index) d others) :
    ClosedForm getHash own k N c.index (b :: path) (join c b u (.leaf d others)) := by
  have hshift : ∀ j, c.index + 1 + j = c.index + (j + 1) := fun j => by omega
  constructor
  · exact route_join ho h.route
  · obtain ⟨c', contents, hat, hrest⟩ := h.leaf
    rw [hshift] at hrest
    exact ⟨c', contents, by rwa [bucketAt_join_same], hrest⟩
  · rw [List.length_cons, ← hshift]
    exact h.small
  · intro j hj
    cases j with
    | zero => exact hlarge
    | succ j =>
      rw [← hshift]
      exact h.large j (by simpa using hj)
  · intro j hj
    cases j with
    | zero =>
      refine ⟨d, others, ?_, hd, hg.nodup, hg.subset, hk ▸ hg.size⟩
      simp [bucketAt_join_cons]
    | succ j =>
      obtain ⟨c', contents, hat, hrest⟩ := h.siblings j (by simpa using hj)
      rw [hshift] at hrest
      exact ⟨c', contents, by simpa [bucketAt_join_same] using hat, hrest⟩
  · rw [splits_join, h.splits, List.length_cons]
    rfl
  · have hsum :
        ∑ j ∈ Finset.range path.length, min k (parting getHash own N (c.index + 1 + j)).card =
        ∑ j ∈ Finset.range path.length, min k (parting getHash own N (c.index + (j + 1))).card :=
      Finset.sum_congr rfl (fun j _ => by rw [hshift])
    have hleaf : (KBucket.leaf d others).count = min k (parting getHash own N c.index).card :=
      hg.size.trans (by rw [hk])
    rw [tree_count_join, h.count, hsum, hshift, List.length_cons, Finset.sum_range_succ', hleaf,
      Nat.add_assoc]
    rfl

theorem closedForm_of_grown {path : List Bool} (hbits : ∀ n ∈ N, own.length ≤ (getHash n).length)
    (hw : Wf getHash own k path t) (ha : Agrees own path)
    (hg : Grown getHash (agreeing getHash own N path.length) t) :
    ∃ q, ClosedForm getHash own k N path.length q t := by
  induction t using child_induction generalizing path with
  | leaf c contents =>
    obtain ⟨hp, _, _⟩ := hw
    have hs : c.splittable = true := hp.splittable.mpr ha
    have hroom := hg.room hs
    refine ⟨[], rfl, ⟨c, contents, rfl, hs, hg.nodup, hg.toFinset_eq hroom⟩, hp.size ▸ hroom, ?_,
      ?_, rfl, ?_⟩
    · simp
    · simp
    · simp [count, hg.size, hroom]
  | inner c first second ih =>
    obtain ⟨o, ho⟩ := hw.2.2.1
    rw [inner_eq_join c o] at hw ⊢
    rw [inner_eq_join c o, grown_join] at hg
    obtain ⟨hp, _, _, hsame, _⟩ := wf_join.mp hw
    obtain ⟨d, others, hleaf, hsplit, hsize⟩ := wf_sibling hw (hp.index ▸ ho)
    obtain ⟨hlarge, hgsame, hgother⟩ := hg
    rw [hp.size] at hlarge
    rw [← hp.index] at ho hlarge hgsame hgother ⊢
    have hb : ∀ n ∈ N, ∃ d, getBit (getHash n) (c.index + 1) = .ok d := by
      intro n hn
      have := hbits n hn
      have := getBit_lt ho
      exact getBit_of_lt (by omega)
    have ha' : Agrees own (path ++ [o]) := agrees_concat.mpr ⟨ha, hp.index ▸ ho⟩
    have hlen : (path ++ [o]).length = c.index + 1 := by simp [hp.index]
    rw [← agreeing_succ ho, ← hlen] at hgsame
    obtain ⟨q, hq⟩ := ih o hsame ha' hgsame
    rw [← parting_eq ho hb, hleaf] at hgother
    rw [hlen] at hq
    rw [hleaf]
    exact ⟨o :: q, hq.join ho hsize hsplit hlarge hgother⟩

end ClosedForm

section Orders

variable {N : Finset ν} {calls calls' : List (ν × (ν → Reliability))} {t t' : KBucket ν}

/-- The nodes of `N` in some order, each with the reliabilities at the time of its call. -/
structure Orders (N : Finset ν) (calls : List (ν × (ν → Reliability))) : Prop where
  nodup : (calls.map Prod.fst).Nodup
  nodes : ∀ n, n ∈ calls.map Prod.fst ↔ n ∈ N
  good : ∀ call ∈ calls, ∀ n ∈ N, call.2 n ≠ .bad

structure Growing (getHash : ν → Hash) (own : Hash) (k : ℕ) (N S : Finset ν) (t : KBucket ν) :
    Prop where
  holds : Holds getHash own k N t
  nodup : t.nodes.Nodup
  grown : Grown getHash S t

lemma fresh_of_grown {getReliability : ν → Reliability} (h : Growing getHash own k N S t)
    (hnew : node ∉ S) (hgood : ∀ n ∈ S, getReliability n ≠ .bad) :
    Fresh getHash t (.add node false getReliability) := by
  rintro ⟨c, contents⟩ hleaf
  have hS : ∀ n ∈ contents, n ∈ S := by
    intro n hn
    have hle := count_leafFor_le hleaf n
    have hpos := List.count_pos_iff.mpr hn
    exact grown_subset h.grown (List.count_pos_iff.mp (by omega))
  rw [Admits]
  split
  · exact fun hn => hnew (hS node hn)
  · apply List.pairwise_of_forall_mem_list
    intro m hm n _ hbad
    exact absurd hbad (hgood m (hS m hm))

lemma notMem_insert (hhead : node ∉ calls.map Prod.fst) (hnew : ∀ call ∈ calls, call.1 ∉ S) :
    ∀ call ∈ calls, call.1 ∉ insert node S := by
  intro call hcall hmem
  rcases Finset.mem_insert.mp hmem with he | hmem
  · exact hhead (he ▸ List.mem_map_of_mem hcall)
  · exact hnew call hcall hmem

lemma addAll_grown (hk : 2 ≤ k) (hown : own.length = 28)
    (hlen : ∀ n ∈ N, (getHash n).length = 28) (hinj : Set.InjOn getHash N)
    (hnodup : (calls.map Prod.fst).Nodup) (hN : ∀ call ∈ calls, call.1 ∈ N)
    (hgood : ∀ call ∈ calls, ∀ n ∈ N, call.2 n ≠ .bad) (hS : S ⊆ N)
    (hnew : ∀ call ∈ calls, call.1 ∉ S) (h : Growing getHash own k N S t) :
    ∃ t', addAll getHash t calls = .ok t' ∧
      Growing getHash own k N (S ∪ (calls.map Prod.fst).toFinset) t' := by
  induction calls generalizing S t with
  | nil => exact ⟨t, rfl, by simpa using h⟩
  | cons call calls ih =>
    obtain ⟨hcallN, hN⟩ := List.forall_mem_cons.mp hN
    obtain ⟨hcallnew, hnew⟩ := List.forall_mem_cons.mp hnew
    obtain ⟨hcallgood, hgood⟩ := List.forall_mem_cons.mp hgood
    obtain ⟨hhead, hnodup⟩ := List.nodup_cons.mp hnodup
    have hgoodS : ∀ n ∈ S, call.2 n ≠ .bad := fun n hn => hcallgood n (hS hn)
    have hfresh := fresh_of_grown h hcallnew hgoodS
    have hop : (Op.add call.1 false call.2).node ∈ (N : Set ν) := hcallN
    obtain ⟨u, hu⟩ := (step_returns_iff hown hlen hop h.holds).mpr
      (not_exhausted_of_fresh hk hown hlen hinj hop h.holds h.nodup hfresh)
    have hu' : Growing getHash own k N (insert call.1 S) u :=
      ⟨h.holds.step hop hu, (step_nodup_iff h.holds.wf h.nodup hu).mpr hfresh,
        addNode_grown hu h.grown hcallnew hgoodS⟩
    have hnew' := notMem_insert hhead hnew
    obtain ⟨t', ht', hg⟩ := ih hnodup hN hgood
      (Finset.insert_subset hcallN hS) hnew' hu'
    refine ⟨t', run_cons.mpr ⟨u, hu, ht'⟩, ?_⟩
    rwa [Finset.insert_union, ← Finset.union_insert, ← List.toFinset_cons, ← List.map_cons] at hg

lemma grown_of_addAll (hnodup : (calls.map Prod.fst).Nodup)
    (hgood : ∀ call ∈ calls, ∀ n ∈ N, call.2 n ≠ .bad) (hN : ∀ call ∈ calls, call.1 ∈ N)
    (hS : S ⊆ N) (hnew : ∀ call ∈ calls, call.1 ∉ S) (hg : Grown getHash S t)
    (h : addAll getHash t calls = .ok t') :
    Grown getHash (S ∪ (calls.map Prod.fst).toFinset) t' := by
  induction calls generalizing S t with
  | nil =>
    obtain rfl := Except.ok.inj h
    simpa using hg
  | cons call calls ih =>
    obtain ⟨u, hu, hrest⟩ := run_cons.mp h
    obtain ⟨hcallN, hN⟩ := List.forall_mem_cons.mp hN
    obtain ⟨hcallnew, hnew⟩ := List.forall_mem_cons.mp hnew
    obtain ⟨hcallgood, hgood⟩ := List.forall_mem_cons.mp hgood
    obtain ⟨hhead, hnodup⟩ := List.nodup_cons.mp hnodup
    have hu' := addNode_grown hu hg hcallnew fun n hn => hcallgood n (hS hn)
    have hnew' := notMem_insert hhead hnew
    have hall := ih hnodup hgood hN (Finset.insert_subset hcallN hS) hnew' hu' hrest
    rwa [Finset.insert_union, ← Finset.union_insert, ← List.toFinset_cons, ← List.map_cons] at hall

lemma Orders.closedForm (ho : Orders N calls) (hbits : ∀ n ∈ N, own.length ≤ (getHash n).length)
    (h : addAll getHash (KBucket.new own k) calls = .ok t) :
    ∃ path, ClosedForm getHash own k N 0 path t := by
  have hN : ∀ call ∈ calls, call.1 ∈ N := fun call hc => (ho.nodes _).mp (List.mem_map_of_mem hc)
  have hempty : Grown getHash ∅ (KBucket.new own k) :=
    ⟨List.nodup_nil, by simp, by simp, by simp⟩
  have hgrown := grown_of_addAll ho.nodup ho.good hN (Finset.empty_subset N) (by simp) hempty h
  have hset : ∅ ∪ (calls.map Prod.fst).toFinset = agreeing getHash own N 0 := by
    ext n
    rw [Finset.empty_union, List.mem_toFinset, agreeing_zero]
    exact ho.nodes n
  rw [hset] at hgrown
  exact closedForm_of_grown hbits (run_wf h) (agrees_nil own) hgrown

lemma Orders.grown (ho : Orders N calls) (hk : 2 ≤ k) (hown : own.length = 28)
    (hlen : ∀ n ∈ N, (getHash n).length = 28) (hinj : Set.InjOn getHash N) :
    ∃ t, addAll getHash (KBucket.new own k) calls = .ok t ∧ Growing getHash own k N N t := by
  have hnew : Growing getHash own k N ∅ (KBucket.new own k) :=
    ⟨holds_new, List.nodup_nil, ⟨List.nodup_nil, by simp, by simp, by simp⟩⟩
  have hN : ∀ call ∈ calls, call.1 ∈ N := fun call hc => (ho.nodes _).mp (List.mem_map_of_mem hc)
  obtain ⟨t, ht, hg⟩ := addAll_grown hk hown hlen hinj ho.nodup hN ho.good (Finset.empty_subset N)
    (by simp) hnew
  refine ⟨t, ht, ?_⟩
  have hset : ∅ ∪ (calls.map Prod.fst).toFinset = N := by
    ext n
    rw [Finset.empty_union, List.mem_toFinset]
    exact ho.nodes n
  rwa [hset] at hg

theorem order_independent (hk : 2 ≤ k) (hown : own.length = 28)
    (hlen : ∀ n ∈ N, (getHash n).length = 28) (hinj : Set.InjOn getHash N) (ho : Orders N calls) :
    ∃ t path, addAll getHash (KBucket.new own k) calls = .ok t ∧
      IsLeast {i | (agreeing getHash own N i).card ≤ k} path.length ∧
      ClosedForm getHash own k N 0 path t ∧
      ∀ calls' t', Orders N calls' → addAll getHash (KBucket.new own k) calls' = .ok t' →
        t'.outline = t.outline ∧ t'.count = t.count := by
  obtain ⟨t, ht, hg⟩ := ho.grown hk hown hlen hinj
  have hbits : ∀ n ∈ N, own.length ≤ (getHash n).length := fun n hn => by rw [hown, hlen n hn]
  obtain ⟨path, hform⟩ := ho.closedForm hbits ht
  refine ⟨t, path, ht, ⟨?_, ?_⟩, hform, ?_⟩
  · have hsmall := hform.small
    rwa [Nat.zero_add] at hsmall
  · intro i hi
    by_contra hlt
    have hlarge := hform.large i (by omega)
    rw [Nat.zero_add] at hlarge
    exact absurd hlarge (Nat.not_lt.mpr hi)
  · intro calls' t' ho' ht'
    obtain ⟨u, hu, hg'⟩ := ho'.grown hk hown hlen hinj
    obtain rfl := Except.ok.inj (hu.symm.trans ht')
    have hsame := outline_eq hg'.holds.wf hg.holds.wf hg'.grown hg.grown
    exact ⟨hsame, by rw [← count_outline, hsame, count_outline]⟩

theorem order_independent_three :
    ∃ t, addAll sampleHash (KBucket.new (sampleHash 0) 2)
        [(64, fun _ => .good), (0, fun _ => .questionable), (128, fun _ => .good)] = .ok t ∧
      t.splits ≤ 1 := by
  have hall : ∀ m ∈ [0, 64, 128], ∀ n ∈ [0, 64, 128], sampleHash m = sampleHash n → m = n := by
    decide +kernel
  have hinj : Set.InjOn sampleHash ({0, 64, 128} : Finset ℕ) := by
    intro m hm n hn h
    exact hall m (by simpa using hm) n (by simpa using hn) h
  have ho : Orders {0, 64, 128}
      [(64, fun _ => Reliability.good), (0, fun _ => .questionable), (128, fun _ => .good)] := by
    refine ⟨by decide, ?_, ?_⟩
    · intro n
      simp only [List.map_cons, List.map_nil, List.mem_cons, List.not_mem_nil, or_false,
        Finset.mem_insert, Finset.mem_singleton]
      tauto
    · simp
  have hown : (sampleHash 0).length = 28 := by decide
  obtain ⟨t, path, ht, hleast, hform, _⟩ := order_independent (k := 2) (by decide) hown
    (fun n _ => by simp [sampleHash]) hinj ho
  refine ⟨t, ht, hform.splits ▸ hleast.2 ?_⟩
  decide +kernel

end Orders

end P2PNet.DHT.KBucket
