import P2PNet.DHT.Routing

/-! Shape and capacity: the split buckets lie on the path of the own hash, the
one splittable leaf is at its end, and without `force` no leaf outgrows `k`. -/

namespace P2PNet.DHT

open Lib.Runs Lib.Lists

def Op.force {ν : Type} : Op ν → Bool
  | .add _ force _ => force
  | .remove _ => false

namespace KBucket

variable {ν : Type} {getHash : ν → Hash} {own : Hash} {k : ℕ}

lemma wf_own_route {path : List Bool} {t : KBucket ν} (hw : Wf getHash own k path t)
    (ha : Agrees own path) :
    ∃ q c contents, t.route own = .ok q ∧ t.bucketAt q = some (.leaf c contents) ∧
      Agrees own (path ++ q) := by
  induction t using child_induction generalizing path with
  | leaf c contents => exact ⟨[], c, contents, rfl, rfl, by simpa using ha⟩
  | inner c first second ih =>
    obtain ⟨b, hb⟩ := hw.2.2.1
    rw [inner_eq_join c b, wf_join] at hw
    obtain ⟨hp, _, _, hsame, _⟩ := hw
    have ha' : Agrees own (path ++ [b]) := agrees_concat.mpr ⟨ha, hb⟩
    obtain ⟨q, d, contents, hr, hat, hq⟩ := ih b hsame ha'
    refine ⟨b :: q, d, contents, ?_, ?_, by simpa using hq⟩
    · rw [inner_eq_join c b]
      exact route_join (hp.index ▸ hb) hr
    · rwa [inner_eq_join c b, bucketAt_join_same]

lemma wf_inner_iff {path p q : List Bool} {t : KBucket ν} (hw : Wf getHash own k path t)
    (hr : t.route own = .ok p) :
    (∃ c first second, t.bucketAt q = some (.inner c first second)) ↔ q <+: p ∧ q ≠ p := by
  induction t using child_induction generalizing path p q with
  | leaf c contents =>
    obtain rfl := Except.ok.inj hr
    cases q <;> simp
  | inner c first second ih =>
    obtain ⟨b, p', hb, hp', rfl⟩ := route_inner hr
    cases q with
    | nil => simp
    | cons d q =>
      rw [inner_eq_join c b] at hw ⊢
      obtain ⟨e, contents, he, _⟩ := wf_sibling hw hb
      obtain ⟨_, _, _, hsame, _⟩ := wf_join.mp hw
      rw [bucketAt_join_cons]
      by_cases hd : d = b
      · subst hd
        simp only [if_pos, List.cons_prefix_cons, true_and, ne_eq, List.cons.injEq]
        exact ih d hsame hp'
      · rw [if_neg hd, he]
        cases q <;> simp [hd]

def Capped (k : ℕ) : KBucket ν → Prop
  | .leaf _ contents => contents.length ≤ k
  | .inner _ first second => Capped k first ∧ Capped k second

lemma capped_join {c : Fields} {b : Bool} {u w : KBucket ν} :
    Capped k (join c b u w) ↔ Capped k u ∧ Capped k w := by
  cases b
  · exact Iff.rfl
  · exact and_comm

lemma Capped.bucketAt {t u : KBucket ν} {q : List Bool} (h : Capped k t)
    (hq : t.bucketAt q = some u) : Capped k u := by
  induction hq using bucketAt_induction with
  | here => exact h
  | child c d v w q hq ih => exact ih (capped_join.mp h).1

lemma Capped.count_le {t : KBucket ν} (h : Capped k t) : t.count ≤ k * (t.splits + 1) := by
  induction t with
  | leaf c contents => simpa [count, splits, Capped] using h
  | inner c first second ihf ihs =>
    have hf := ihf h.1
    have hs := ihs h.2
    calc first.count + second.count ≤ k * (first.splits + 1) + k * (second.splits + 1) := by omega
      _ = k * (first.splits + second.splits + 1 + 1) := by ring

section Calls

variable [DecidableEq ν] {getReliability : ν → Reliability} {node : ν}

lemma addToLeaf_capped {c : Fields} {contents : List ν} {t : KBucket ν}
    (h : addToLeaf getHash getReliability node false c contents = .ok t)
    (hc : contents.length ≤ c.k) : Capped c.k t := by
  refine addToLeaf_induction getHash getReliability
    (P := fun c contents t => contents.length ≤ c.k → Capped c.k t)
    ?_ ?_ ?_ ?_ c contents t h hc
  · intro c contents hroom _
    simpa [Capped] using hroom
  · intro c contents _ _ hc
    simpa [Capped] using hc
  · intro c contents o b u _ _ _ _ _ _ ih hc
    have hside : ∀ d, (onSide getHash c d (clean getReliability contents)).length ≤ c.k :=
      fun d => (length_onSide_le getHash c d _).trans (by simpa using hc)
    exact capped_join.mpr ⟨ih (hside b), hside (!b)⟩
  · intro c contents _ _ _ hc
    simpa [Capped] using hc

lemma addNode_capped {path : List Bool} {t t' : KBucket ν} (hw : Wf getHash own k path t)
    (hc : Capped k t) (h : t.addNode getHash getReliability node false = .ok t') :
    Capped k t' := by
  induction t using child_induction generalizing path t' with
  | leaf c contents =>
    have hk : c.k = k := hw.1.size
    exact hk ▸ addToLeaf_capped h (hk.symm ▸ hc)
  | inner c first second ih =>
    obtain ⟨b, u, hb, hu, rfl⟩ := addNode_inner h
    rw [inner_eq_join c b, wf_join] at hw
    rw [inner_eq_join c b, capped_join] at hc
    obtain ⟨_, _, _, hsame, _⟩ := hw
    exact capped_join.mpr ⟨ih b hsame hc.1 hu, hc.2⟩

lemma removeNode_capped {t t' : KBucket ν} (hc : Capped k t)
    (h : t.removeNode getHash node = .ok t') : Capped k t' := by
  induction t using child_induction generalizing t' with
  | leaf c contents =>
    obtain rfl := Except.ok.inj h
    exact List.length_erase_le.trans hc
  | inner c first second ih =>
    obtain ⟨b, u, hb, hu, rfl⟩ := removeNode_inner h
    rw [inner_eq_join c b, capped_join] at hc
    exact capped_join.mpr ⟨ih b hc.1 hu, hc.2⟩

lemma run_capped {ops : List (Op ν)} {t : KBucket ν} (hf : ∀ op ∈ ops, op.force = false)
    (h : run (KBucket.step getHash) (KBucket.new own k) ops = .ok t) : Capped k t := by
  refine (guarded_invariant (I := fun t => Wf getHash own k [] t ∧ Capped k t)
    (C := fun _ op => op.force = false) ?_ ⟨wf_new, Nat.zero_le k⟩
    (guarded_of_forall (fun op hop _ => hf op hop)) h).2
  rintro t op t' ⟨hw, hc⟩ hforce hstep
  refine ⟨step_wf t op t' hw hstep, ?_⟩
  cases op with
  | add node force getReliability =>
    obtain rfl : force = false := hforce
    exact addNode_capped hw hc hstep
  | remove node => exact removeNode_capped hc hstep

theorem shape_and_capacity {ops : List (Op ν)} {t : KBucket ν}
    (h : run (KBucket.step getHash) (KBucket.new own k) ops = .ok t) :
    ∃ path c contents, t.bucketAt path = some (.leaf c contents) ∧ c.splittable = true ∧
      t.route own = .ok path ∧ t.descend own path.length = .ok (.leaf c contents) ∧
      (∀ path' c' contents', t.bucketAt path' = some (.leaf c' contents') →
        c'.splittable = true → path' = path) ∧
      (∀ q, (∃ c' first second, t.bucketAt q = some (.inner c' first second)) ↔
        q <+: path ∧ q ≠ path) ∧
      contents.length ≤ k ∧
      ((∀ op ∈ ops, op.force = false) →
        (∀ path' c' contents', t.bucketAt path' = some (.leaf c' contents') →
          contents'.length ≤ k) ∧
        t.count ≤ k * (t.splits + 1)) := by
  have hw := run_wf h
  obtain ⟨path, c, contents, hr, hat, ha⟩ := wf_own_route hw (agrees_nil own)
  obtain ⟨hp, _, hsize⟩ := wf_bucketAt hw hat
  have hs : c.splittable = true := hp.splittable.mpr ha
  obtain ⟨c', contents', hat', hd⟩ := descend_route hr
  obtain ⟨rfl, rfl⟩ : c = c' ∧ contents = contents' := by simpa using hat.symm.trans hat'
  refine ⟨path, c, contents, hat, hs, hr, hd, ?_, fun q => wf_inner_iff hw hr, hsize hs, ?_⟩
  · intro path' c' contents' hat' hs'
    obtain ⟨hp', _, _⟩ := wf_bucketAt hw hat'
    have hr' := route_of_agrees hw hat' (hp'.splittable.mp hs')
    exact Except.ok.inj (hr'.symm.trans hr)
  · intro hf
    have hc := run_capped hf h
    exact ⟨fun path' c' contents' hat' => hc.bucketAt hat', hc.count_le⟩

theorem shape_and_capacity_forced :
    ∃ t path c contents, run (KBucket.step (fun n : ℕ => [UInt8.ofNat n])) (KBucket.new [0] 1)
        [.add 64 false (fun _ => .good), .add 0 false (fun _ => .good),
          .add 96 true (fun _ => .good)] = .ok t ∧
      t.count = 3 ∧ t.bucketAt path = some (.leaf c contents) ∧ c.splittable = true ∧
      contents.length ≤ 1 := by
  have h : run (KBucket.step (fun n : ℕ => [UInt8.ofNat n])) (KBucket.new [0] 1)
      [.add 64 false (fun _ => .good), .add 0 false (fun _ => .good),
        .add 96 true (fun _ => .good)] =
      .ok (.inner ⟨0, 1, true, [0]⟩ (.leaf ⟨1, 1, true, [0]⟩ [0])
        (.leaf ⟨1, 1, false, [0]⟩ [64, 96])) := by
    decide +kernel
  obtain ⟨path, c, contents, hat, hs, _, _, _, _, hsize, _⟩ := shape_and_capacity h
  exact ⟨_, path, c, contents, h, rfl, hat, hs, hsize⟩

end Calls

end KBucket

end P2PNet.DHT
