import P2PNet.DHT.KBucket

/-! Places in the tree: paths of directions from the root, the descent by
`determineBucket`, and what the calls do along the one path they follow. -/

namespace P2PNet.DHT

open Lib.Runs Lib.Lists

/-- Bits `1 .. path.length` of the hash are the path. -/
def Agrees (hash : Hash) (path : List Bool) : Prop :=
  ∀ i (hi : i < path.length), getBit hash (i + 1) = .ok path[i]

lemma getBit_of_lt {hash : Hash} {i : ℕ} (h : i < 8 * hash.length) :
    ∃ b, getBit hash i = .ok b := by
  have hi : i / 8 < hash.length := by omega
  simp [getBit, List.getElem?_eq_getElem hi]

@[simp] lemma agrees_nil (hash : Hash) : Agrees hash [] := by
  intro i hi
  simp at hi

lemma Agrees.left {hash : Hash} {path rest : List Bool} (h : Agrees hash (path ++ rest)) :
    Agrees hash path := by
  intro i hi
  have hb := h i (by simp; omega)
  simpa only [List.getElem_append_left hi] using hb

lemma agrees_concat {hash : Hash} {path : List Bool} {b : Bool} :
    Agrees hash (path ++ [b]) ↔ Agrees hash path ∧ getBit hash (path.length + 1) = .ok b := by
  constructor
  · intro h
    exact ⟨h.left, by simpa using h path.length (by simp)⟩
  · rintro ⟨hp, hb⟩ i hi
    simp only [List.length_append, List.length_singleton] at hi
    by_cases hlt : i < path.length
    · simpa only [List.getElem_append_left hlt] using hp i hlt
    · obtain rfl : i = path.length := by omega
      simpa using hb

namespace KBucket

variable {ν : Type}

def bucketAt : KBucket ν → List Bool → Option (KBucket ν)
  | t, [] => some t
  | .leaf .., _ :: _ => none
  | .inner _ first second, d :: path => (bif d then second else first).bucketAt path

def route (hash : Hash) : KBucket ν → Except Fault (List Bool)
  | .leaf .. => .ok []
  | .inner c first second => do
    if (← getBit hash (c.index + 1)) = false then return false :: (← route hash first)
    else return true :: (← route hash second)

def descend (hash : Hash) : ℕ → KBucket ν → Except Fault (KBucket ν)
  | 0, t => .ok t
  | n + 1, t => do descend hash n (← t.determineBucket hash)

def nodes : KBucket ν → List ν
  | .leaf _ contents => contents
  | .inner _ first second => first.nodes ++ second.nodes

def splits : KBucket ν → ℕ
  | .leaf .. => 0
  | .inner _ first second => first.splits + second.splits + 1

lemma count_eq_length_nodes (t : KBucket ν) : t.count = t.nodes.length := by
  induction t with
  | leaf c contents => rfl
  | inner c first second ihf ihs => simp [count, nodes, ihf, ihs]

/-- The split bucket whose child in direction `b` is `u` and whose other child is `w`. -/
def join (c : Fields) (b : Bool) (u w : KBucket ν) : KBucket ν :=
  bif b then .inner c w u else .inner c u w

lemma inner_eq_join (c : Fields) (b : Bool) (first second : KBucket ν) :
    KBucket.inner c first second =
      join c b (bif b then second else first) (bif b then first else second) := by
  cases b <;> rfl

/-- Induction with a hypothesis for the child in each direction. -/
@[elab_as_elim] theorem child_induction {P : KBucket ν → Prop}
    (leaf : ∀ c contents, P (.leaf c contents))
    (inner : ∀ c first second, (∀ b, P (bif b then second else first)) →
      P (.inner c first second)) (t : KBucket ν) : P t := by
  induction t with
  | leaf c contents => exact leaf c contents
  | inner c first second ihf ihs =>
    apply inner
    intro b
    cases b with
    | false => exact ihf
    | true => exact ihs

lemma nodes_join (c : Fields) (b : Bool) (u w : KBucket ν) :
    (join c b u w).nodes.Perm (u.nodes ++ w.nodes) := by
  cases b
  · exact List.Perm.refl _
  · exact List.perm_append_comm

lemma splits_join (c : Fields) (b : Bool) (u w : KBucket ν) :
    (join c b u w).splits = u.splits + w.splits + 1 := by
  cases b
  · rfl
  · exact congrArg (· + 1) (Nat.add_comm _ _)

lemma tree_count_join (c : Fields) (b : Bool) (u w : KBucket ν) :
    (join c b u w).count = u.count + w.count := by
  cases b
  · rfl
  · exact Nat.add_comm _ _

@[simp] lemma bucketAt_nil (t : KBucket ν) : t.bucketAt [] = some t := by
  cases t <;> rfl

@[simp] lemma bucketAt_leaf_cons (c : Fields) (contents : List ν) (d : Bool) (path : List Bool) :
    (KBucket.leaf c contents).bucketAt (d :: path) = none := rfl

lemma bucketAt_join_same (c : Fields) (b : Bool) (u w : KBucket ν) (path : List Bool) :
    (join c b u w).bucketAt (b :: path) = u.bucketAt path := by
  cases b <;> rfl

/-- Induction along the path to a bucket, from the bucket upwards. -/
@[elab_as_elim] theorem bucketAt_induction {u : KBucket ν}
    {P : ∀ (t : KBucket ν) (path : List Bool), t.bucketAt path = some u → Prop}
    (here : P u [] (bucketAt_nil u))
    (child : ∀ c b v w path (h : v.bucketAt path = some u), P v path h →
      P (join c b v w) (b :: path) ((bucketAt_join_same c b v w path).trans h))
    {t : KBucket ν} {path : List Bool} (h : t.bucketAt path = some u) : P t path h := by
  induction path generalizing t with
  | nil =>
    obtain rfl : t = u := by simpa using h
    exact here
  | cons b path ih =>
    cases t with
    | leaf c contents => cases h
    | inner c first second =>
      have hchild := child c b _ (bif b then first else second) path h (ih h)
      cases b with
      | false => exact hchild
      | true => exact hchild

lemma bucketAt_join_cons {c : Fields} {b d : Bool} {u w : KBucket ν} {path : List Bool} :
    (join c b u w).bucketAt (d :: path) = (if d = b then u else w).bucketAt path := by
  cases b <;> cases d <;> rfl

lemma route_join {c : Fields} {b : Bool} {u w : KBucket ν} {hash : Hash} {path : List Bool}
    (hb : getBit hash (c.index + 1) = .ok b) (hu : u.route hash = .ok path) :
    (join c b u w).route hash = .ok (b :: path) := by
  cases b <;> simp [join, route, hb, hu, bind, Except.bind, pure, Except.pure]

lemma determineBucket_join {c : Fields} {b : Bool} {u w : KBucket ν} {hash : Hash}
    (hb : getBit hash (c.index + 1) = .ok b) : (join c b u w).determineBucket hash = .ok u := by
  cases b <;> simp [join, determineBucket, hb, bind, Except.bind, pure, Except.pure]

lemma route_inner {c : Fields} {first second : KBucket ν} {hash : Hash} {path : List Bool}
    (h : (KBucket.inner c first second).route hash = .ok path) :
    ∃ b rest, getBit hash (c.index + 1) = .ok b ∧
      (bif b then second else first).route hash = .ok rest ∧ path = b :: rest := by
  obtain ⟨b, hb, hrest⟩ := bind_ok_iff.mp h
  cases b <;>
  · obtain ⟨rest, hr, hp⟩ := bind_ok_iff.mp hrest
    exact ⟨_, rest, hb, hr, (Except.ok.inj hp).symm⟩

/-- What is done to the child that a bit selects, and the rest kept. -/
lemma child_ok {bit : Except Fault Bool} {f : KBucket ν → Except Fault (KBucket ν)} {c : Fields}
    {first second t : KBucket ν}
    (h : (do
      if (← bit) = false then return KBucket.inner c (← f first) second
      else return KBucket.inner c first (← f second)) = .ok t) :
    ∃ b u, bit = .ok b ∧ f (bif b then second else first) = .ok u ∧
      t = join c b u (bif b then first else second) := by
  obtain ⟨b, hb, hrest⟩ := bind_ok_iff.mp h
  cases b <;>
  · obtain ⟨u, hu, ht⟩ := bind_ok_iff.mp hrest
    exact ⟨_, u, hb, hu, (Except.ok.inj ht).symm⟩

theorem descend_route {t : KBucket ν} {hash : Hash} {path : List Bool}
    (h : t.route hash = .ok path) :
    ∃ c contents, t.bucketAt path = some (.leaf c contents) ∧
      t.descend hash path.length = .ok (.leaf c contents) := by
  induction t using child_induction generalizing path with
  | leaf c contents =>
    obtain rfl := Except.ok.inj h
    exact ⟨c, contents, rfl, rfl⟩
  | inner c first second ih =>
    obtain ⟨b, rest, hb, hr, rfl⟩ := route_inner h
    obtain ⟨d, contents, hat, hdesc⟩ := ih b hr
    rw [inner_eq_join c b]
    refine ⟨d, contents, by rwa [bucketAt_join_same], bind_ok_iff.mpr ⟨_, ?_, hdesc⟩⟩
    exact determineBucket_join hb

def replaceAt : KBucket ν → List Bool → KBucket ν → KBucket ν
  | _, [], u => u
  | .leaf c contents, _ :: _, _ => .leaf c contents
  | .inner c first second, d :: path, u =>
    join c d ((bif d then second else first).replaceAt path u) (bif d then first else second)

lemma replaceAt_join (c : Fields) (b : Bool) (path : List Bool) (v w u : KBucket ν) :
    (join c b v w).replaceAt (b :: path) u = join c b (v.replaceAt path u) w := by
  cases b <;> rfl

/-- Along the path to a leaf, a bucket put in its place is found there and nowhere else. -/
lemma bucketAt_replaceAt {t : KBucket ν} {path : List Bool} {c : Fields} {contents : List ν}
    (h : t.bucketAt path = some (.leaf c contents)) (u : KBucket ν) :
    (∀ rest, (t.replaceAt path u).bucketAt (path ++ rest) = u.bucketAt rest) ∧
      ∀ path' d others, path' ≠ path → t.bucketAt path' = some (.leaf d others) →
        (t.replaceAt path u).bucketAt path' = some (.leaf d others) := by
  induction h using bucketAt_induction with
  | here =>
    refine ⟨fun rest => rfl, ?_⟩
    intro path' d others hne hat
    cases path' with
    | nil => exact absurd rfl hne
    | cons e path' => simp at hat
  | child c' b v w path h ih =>
    obtain ⟨hsame, hother⟩ := ih
    rw [replaceAt_join]
    refine ⟨fun rest => ?_, ?_⟩
    · rw [List.cons_append, bucketAt_join_same]
      exact hsame rest
    · intro path' d others hne hat
      cases path' with
      | nil => cases b <;> simp [join] at hat
      | cons e path' =>
        rw [bucketAt_join_cons] at hat ⊢
        by_cases he : e = b
        · rw [if_pos he] at hat ⊢
          exact hother path' d others (fun hp => hne (by rw [he, hp])) hat
        · rw [if_neg he] at hat ⊢
          exact hat

lemma route_replaceAt {t u : KBucket ν} {hash : Hash} {path rest : List Bool}
    (h : t.route hash = .ok path) (hu : u.route hash = .ok rest) :
    (t.replaceAt path u).route hash = .ok (path ++ rest) := by
  induction t using child_induction generalizing path with
  | leaf c contents =>
    obtain rfl := Except.ok.inj h
    exact hu
  | inner c first second ih =>
    obtain ⟨b, path', hb, hr, rfl⟩ := route_inner h
    rw [inner_eq_join c b, replaceAt_join]
    exact route_join hb (ih b hr)

variable (getHash : ν → Hash)

def onSide (c : Fields) (b : Bool) (contents : List ν) : List ν :=
  contents.filter (fun n => getBit (getHash n) (c.index + 1) = .ok b)

lemma mem_onSide {c : Fields} {b : Bool} {contents : List ν} {n : ν} :
    n ∈ onSide getHash c b contents ↔
      n ∈ contents ∧ getBit (getHash n) (c.index + 1) = .ok b := by
  simp [onSide]

lemma distribute_spec {c : Fields} {contents first second f s : List ν}
    (h : distribute getHash c contents first second = .ok (f, s)) :
    f = first ++ onSide getHash c false contents ∧ s = second ++ onSide getHash c true contents ∧
      ∀ n ∈ contents, ∃ b, getBit (getHash n) (c.index + 1) = .ok b := by
  induction contents generalizing first second with
  | nil =>
    obtain ⟨rfl, rfl⟩ := Prod.mk.inj (Except.ok.inj h)
    simp [onSide]
  | cons node rest ih =>
    obtain ⟨b, hb, hrest⟩ := bind_ok_iff.mp h
    cases b with
    | false =>
      obtain ⟨hf, hs, hall⟩ := ih hrest
      refine ⟨by simp [hf, onSide, hb], by simp [hs, onSide, hb], ?_⟩
      exact List.forall_mem_cons.mpr ⟨⟨_, hb⟩, hall⟩
    | true =>
      obtain ⟨hf, hs, hall⟩ := ih hrest
      refine ⟨by simp [hf, onSide, hb], by simp [hs, onSide, hb], ?_⟩
      exact List.forall_mem_cons.mpr ⟨⟨_, hb⟩, hall⟩

lemma splitContents_spec {c : Fields} {contents f s : List ν} {b : Bool}
    (h : splitContents getHash c contents = .ok (b, f, s)) :
    getBit c.nodeHash (c.index + 1) = .ok b ∧ f = onSide getHash c false contents ∧
      s = onSide getHash c true contents ∧
      ∀ n ∈ contents, ∃ b, getBit (getHash n) (c.index + 1) = .ok b := by
  obtain ⟨b', hb, hrest⟩ := bind_ok_iff.mp h
  obtain ⟨⟨f', s'⟩, hd, hp⟩ := bind_ok_iff.mp hrest
  obtain ⟨rfl, rfl, rfl⟩ : b' = b ∧ f' = f ∧ s' = s := by simpa using Except.ok.inj hp
  obtain ⟨hf, hs, hall⟩ := distribute_spec getHash hd
  exact ⟨hb, by simpa using hf, by simpa using hs, hall⟩

lemma splitContents_of_bits {c : Fields} {contents : List ν} {o : Bool}
    (ho : getBit c.nodeHash (c.index + 1) = .ok o)
    (hall : ∀ n ∈ contents, ∃ b, getBit (getHash n) (c.index + 1) = .ok b) :
    splitContents getHash c contents =
      .ok (o, onSide getHash c false contents, onSide getHash c true contents) := by
  have hd : ∀ first second, distribute getHash c contents first second =
      .ok (first ++ onSide getHash c false contents, second ++ onSide getHash c true contents) := by
    induction contents with
    | nil =>
      intro first second
      simp [distribute, onSide]
    | cons node rest ih =>
      intro first second
      obtain ⟨⟨b, hb⟩, hrest⟩ := List.forall_mem_cons.mp hall
      cases b <;> simp [distribute, hb, ok_bind, ih hrest, onSide]
  simp [splitContents, ho, ok_bind, hd, pure, Except.pure]

lemma length_onSide_le (c : Fields) (b : Bool) (contents : List ν) :
    (onSide getHash c b contents).length ≤ contents.length :=
  List.length_filter_le _ _

variable [DecidableEq ν] (getReliability : ν → Reliability)

abbrev clean (contents : List ν) : List ν :=
  removeIf (fun n => getReliability n = .bad) contents

section Equations

variable {node : ν} {force : Bool} {c : Fields} {contents : List ν}

lemma addToLeaf_room (h : contents.length < c.k) :
    addToLeaf getHash getReliability node force c contents =
      .ok (.leaf c (contents ++ [node])) := by
  rw [addToLeaf, if_pos h]

lemma addToLeaf_present (hk : c.k ≤ contents.length) (hin : node ∈ clean getReliability contents) :
    addToLeaf getHash getReliability node force c contents =
      .ok (.leaf c (clean getReliability contents)) := by
  rw [addToLeaf, if_neg (by omega), if_pos hin]

lemma addToLeaf_full (hk : c.k ≤ contents.length) (hin : node ∉ clean getReliability contents)
    (hsp : c.splittable = false) :
    addToLeaf getHash getReliability node force c contents = .ok (.leaf c
      (if force then clean getReliability contents ++ [node]
        else clean getReliability contents)) := by
  rw [addToLeaf, if_neg (by omega), if_neg hin, if_neg (by simp [hsp])]
  cases force with
  | true => rw [if_pos (Or.inr rfl), if_pos rfl]
  | false => rw [if_neg (by simpa using hk), if_neg Bool.false_ne_true]

lemma addToLeaf_divide (hk : c.k ≤ contents.length) (hin : node ∉ clean getReliability contents)
    (hsp : c.splittable = true) :
    addToLeaf getHash getReliability node force c contents = (do
      let (own, first, second) ← splitContents getHash c (clean getReliability contents)
      let b ← getBit (getHash node) (c.index + 1)
      let u ← addToLeaf getHash getReliability node force (c.child (own == b))
        (bif b then second else first)
      return join c b u (.leaf (c.child (own == !b)) (bif b then first else second))) := by
  rw [addToLeaf, if_neg (by omega), if_neg hin, if_pos ⟨by simpa using hk, hsp⟩]
  split
  · next e he => rw [he]; rfl
  · next own first second hs =>
    rw [hs, ok_bind]
    cases getBit (getHash node) (c.index + 1) with
    | error e => rfl
    | ok b => cases b <;> cases own <;> rfl

lemma addToLeaf_divide_of_bits (hk : c.k ≤ contents.length)
    (hin : node ∉ clean getReliability contents) (hsp : c.splittable = true) {own b : Bool}
    (hown : getBit c.nodeHash (c.index + 1) = .ok own)
    (hb : getBit (getHash node) (c.index + 1) = .ok b)
    (hall : ∀ n ∈ clean getReliability contents, ∃ d, getBit (getHash n) (c.index + 1) = .ok d) :
    addToLeaf getHash getReliability node force c contents =
      addToLeaf getHash getReliability node force (c.child (own == b))
        (onSide getHash c b (clean getReliability contents)) >>= fun u => .ok (join c b u
          (.leaf (c.child (own == !b))
            (onSide getHash c (!b) (clean getReliability contents)))) := by
  rw [addToLeaf_divide getHash getReliability hk hin hsp, splitContents_of_bits getHash hown hall,
    ok_bind]
  simp only [hb, ok_bind]
  cases b <;> rfl

end Equations

/-- Everything `addNode` can do to a leaf, as an induction over the cascade of splits. -/
theorem addToLeaf_induction {node : ν} {force : Bool}
    {P : Fields → List ν → KBucket ν → Prop}
    (room : ∀ c contents, contents.length < c.k → P c contents (.leaf c (contents ++ [node])))
    (present : ∀ c contents, c.k ≤ contents.length → node ∈ clean getReliability contents →
      P c contents (.leaf c (clean getReliability contents)))
    (divide : ∀ c contents own b u, c.k ≤ contents.length →
      node ∉ clean getReliability contents → c.splittable = true →
      getBit c.nodeHash (c.index + 1) = .ok own → getBit (getHash node) (c.index + 1) = .ok b →
      (∀ n ∈ clean getReliability contents, ∃ d, getBit (getHash n) (c.index + 1) = .ok d) →
      P (c.child (own == b)) (onSide getHash c b (clean getReliability contents)) u →
      P c contents (join c b u
        (.leaf (c.child (own == !b)) (onSide getHash c (!b) (clean getReliability contents)))))
    (full : ∀ c contents, c.k ≤ contents.length → node ∉ clean getReliability contents →
      c.splittable = false → P c contents (.leaf c
        (if force then clean getReliability contents ++ [node] else clean getReliability contents)))
    (c : Fields) (contents : List ν) (t : KBucket ν)
    (h : addToLeaf getHash getReliability node force c contents = .ok t) : P c contents t := by
  -- on the bits of the own hash that are left, as a split needs one
  induction hm : 8 * c.nodeHash.length - c.index using Nat.strong_induction_on
    generalizing c contents t with
  | _ m ih =>
    by_cases hroom : contents.length < c.k
    · rw [addToLeaf_room getHash getReliability hroom] at h
      exact Except.ok.inj h ▸ room c contents hroom
    have hk : c.k ≤ contents.length := by omega
    by_cases hin : node ∈ clean getReliability contents
    · rw [addToLeaf_present getHash getReliability hk hin] at h
      exact Except.ok.inj h ▸ present c contents hk hin
    by_cases hsp : c.splittable = true
    · rw [addToLeaf_divide getHash getReliability hk hin hsp] at h
      obtain ⟨⟨own, first, second⟩, hs, hrest⟩ := bind_ok_iff.mp h
      obtain ⟨b, hb, hrest⟩ := bind_ok_iff.mp hrest
      obtain ⟨u, hu, ht⟩ := bind_ok_iff.mp hrest
      obtain rfl := Except.ok.inj ht
      obtain ⟨hown, rfl, rfl, hall⟩ := splitContents_spec getHash hs
      have hlt := getBit_lt hown
      have hP := ih _ (by simp only [Fields.child] at *; omega) _ _ u hu rfl
      have hd := divide c contents own b u hk hin hsp hown hb hall
      cases b <;> exact hd hP
    · have hsp' : c.splittable = false := by simpa using hsp
      rw [addToLeaf_full getHash getReliability hk hin hsp'] at h
      exact Except.ok.inj h ▸ full c contents hk hin hsp'

lemma addNode_join {c : Fields} {b : Bool} {v w : KBucket ν} {node : ν} {force : Bool}
    (hb : getBit (getHash node) (c.index + 1) = .ok b) :
    (join c b v w).addNode getHash getReliability node force =
      v.addNode getHash getReliability node force >>= fun u => .ok (join c b u w) := by
  cases b <;> simp only [join, cond_true, cond_false, addNode, hb, ok_bind] <;> rfl

/-- `addNode` replaces the leaf that it is routed to by what `addToLeaf` makes of it. -/
theorem addNode_of_route {t : KBucket ν} {node : ν} {force : Bool} {path : List Bool}
    (h : t.route (getHash node) = .ok path) :
    ∃ c contents, t.bucketAt path = some (.leaf c contents) ∧
      t.addNode getHash getReliability node force =
        addToLeaf getHash getReliability node force c contents >>= fun u =>
          .ok (t.replaceAt path u) := by
  induction t using child_induction generalizing path with
  | leaf c contents =>
    obtain rfl := Except.ok.inj h
    refine ⟨c, contents, rfl, ?_⟩
    simp only [addNode]
    cases addToLeaf getHash getReliability node force c contents <;> rfl
  | inner c first second ih =>
    obtain ⟨b, rest, hb, hr, rfl⟩ := route_inner h
    obtain ⟨d, contents, hat, hadd⟩ := ih b hr
    rw [inner_eq_join c b]
    refine ⟨d, contents, by rwa [bucketAt_join_same], ?_⟩
    rw [addNode_join getHash getReliability hb, hadd, bind_assoc]
    simp only [ok_bind, replaceAt_join]

variable {getHash getReliability} in
lemma addNode_inner {c : Fields} {first second t : KBucket ν} {node : ν} {force : Bool}
    (h : (KBucket.inner c first second).addNode getHash getReliability node force = .ok t) :
    ∃ b u, getBit (getHash node) (c.index + 1) = .ok b ∧
      (bif b then second else first).addNode getHash getReliability node force = .ok u ∧
      t = join c b u (bif b then first else second) :=
  child_ok h

lemma route_of_addNode {t t' : KBucket ν} {node : ν} {force : Bool}
    (h : t.addNode getHash getReliability node force = .ok t') :
    ∃ path, t.route (getHash node) = .ok path := by
  induction t using child_induction generalizing t' with
  | leaf c contents => exact ⟨[], rfl⟩
  | inner c first second ih =>
    obtain ⟨b, u, hb, hu, rfl⟩ := addNode_inner h
    obtain ⟨path, hr⟩ := ih b hu
    rw [inner_eq_join c b]
    exact ⟨_, route_join hb hr⟩

end KBucket

end P2PNet.DHT
