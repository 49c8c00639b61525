import P2PNet.DHT.Duplicates
import P2PNet.Lib.Bits

/-! The tree and the XOR metric. A split bucket separates nodes by the first bit from
bit 1 on in which they differ; bit 0, the most significant one of the distance, is
not looked at. -/

namespace P2PNet.DHT

open Lib.Runs Lib.Bits

def distance (a b : Hash) : Hash := xorBytes a b

lemma getBit_eq {hash : Hash} {i : ℕ} (hi : i < 8 * hash.length) :
    getBit hash i = .ok (bit hash i) := by
  have hbyte : i / 8 < hash.length := by omega
  simp [getBit, bit, List.getElem?_eq_getElem hbyte, Nat.testBit, Nat.and_comm]

lemma Agrees.bit_eq {a b : Hash} {path : List Bool} (ha : Agrees a path) (hb : Agrees b path)
    {i : ℕ} (hi : i < path.length) : bit a (i + 1) = bit b (i + 1) := by
  have hbit : ∀ {h : Hash}, Agrees h path → bit h (i + 1) = path[i] := by
    intro h hh
    have hget := hh i hi
    rw [getBit_eq (KBucket.getBit_lt hget)] at hget
    exact Except.ok.inj hget
  rw [hbit ha, hbit hb]

lemma distance_lt_of_bit {x y hash : Hash} {i : ℕ} (hx : x.length = hash.length)
    (hy : y.length = hash.length) (hsame : ∀ j < i, bit x j = bit y j)
    (hxi : bit x i = bit hash i) (hyi : bit y i ≠ bit hash i) :
    distance x hash < distance y hash := by
  apply lt_of_bit (i := i)
  · rw [distance, distance, length_xorBytes hx, length_xorBytes hy]
  · intro j hj
    rw [distance, distance, bit_xorBytes hx, bit_xorBytes hy, hsame j hj]
  · rw [distance, bit_xorBytes hx, hxi, Bool.xor_self]
  · rw [distance, bit_xorBytes hy]
    simpa using hyi

/-- Two nodes that part at bit `i + 1`, the one on the side of `hash` and the other not. -/
lemma distance_lt_iff {x y hash : Hash} {i : ℕ} (hx : x.length = hash.length)
    (hy : y.length = hash.length) (hxs : ∀ j ≤ i, bit x (j + 1) = bit hash (j + 1))
    (hys : ∀ j < i, bit y (j + 1) = bit hash (j + 1)) (hyi : bit y (i + 1) ≠ bit hash (i + 1)) :
    distance x hash < distance y hash ↔ bit x 0 = bit hash 0 ∨ bit y 0 ≠ bit hash 0 := by
  have hpart : bit x 0 = bit y 0 → distance x hash < distance y hash := by
    intro hzero
    refine distance_lt_of_bit hx hy ?_ (hxs i le_rfl) hyi
    intro j hj
    cases j with
    | zero => exact hzero
    | succ j => rw [hxs j (by omega), hys j (by omega)]
  by_cases hx0 : bit x 0 = bit hash 0
  · refine iff_of_true ?_ (Or.inl hx0)
    by_cases hy0 : bit y 0 = bit hash 0
    · exact hpart (hx0.trans hy0.symm)
    · exact distance_lt_of_bit hx hy (by simp) hx0 hy0
  · by_cases hy0 : bit y 0 = bit hash 0
    · refine iff_of_false (fun h => ?_) (by simp [hx0, hy0])
      have hlt := distance_lt_of_bit hy hx (by simp) hy0 hx0
      exact List.lt_irrefl _ (List.lt_trans h hlt)
    · refine iff_of_true (hpart ?_) (Or.inr hy0)
      exact (Bool.eq_not_of_ne hx0).trans (Bool.eq_not_of_ne hy0).symm

namespace KBucket

variable {ν : Type} {getHash : ν → Hash} {own : Hash} {k : ℕ}

lemma agrees_of_route {path q : List Bool} {t : KBucket ν} {hash : Hash}
    (hw : Wf getHash own k path t) (ha : Agrees hash path) (hr : t.route hash = .ok q) :
    Agrees hash (path ++ q) := by
  induction t using child_induction generalizing path q with
  | leaf c contents =>
    obtain rfl := Except.ok.inj hr
    simpa using ha
  | inner c first second ih =>
    obtain ⟨b, rest, hb, hrest, rfl⟩ := route_inner hr
    rw [inner_eq_join c b, wf_join] at hw
    obtain ⟨hp, _, _, hsame, _⟩ := hw
    have ha' : Agrees hash (path ++ [b]) := agrees_concat.mpr ⟨ha, hp.index ▸ hb⟩
    rw [List.append_cons]
    exact ih b hsame ha' hrest

theorem nearer_subtree_iff [DecidableEq ν] {ops : List (Op ν)} {t : KBucket ν}
    {path rest : List Bool} {c : Fields} {b : Bool} {first second : KBucket ν} {hash : Hash}
    (h : run (KBucket.step getHash) (KBucket.new own k) ops = .ok t)
    (hat : t.bucketAt path = some (.inner c first second))
    (hr : t.route hash = .ok (path ++ b :: rest)) (hlen : hash.length = 28) :
    (KBucket.inner c first second).determineBucket hash = .ok (bif b then second else first) ∧
    ∀ x ∈ (bif b then second else first).nodes, ∀ y ∈ (bif b then first else second).nodes,
      (getHash x).length = 28 → (getHash y).length = 28 →
      (distance (getHash x) hash < distance (getHash y) hash ↔
        getBit (getHash x) 0 = getBit hash 0 ∨ getBit (getHash y) 0 ≠ getBit hash 0) := by
  have hw := run_wf h
  have hbucket := wf_bucketAt hw hat
  rw [inner_eq_join c b, wf_join] at hbucket
  obtain ⟨hp, _, _, hnear, hfar⟩ := hbucket
  rw [List.nil_append] at hp hnear hfar
  have hhash := agrees_of_route hw (agrees_nil hash) hr
  rw [List.nil_append, List.append_cons] at hhash
  have hside := hhash.left
  refine ⟨?_, ?_⟩
  · rw [inner_eq_join c b]
    exact determineBucket_join (hp.index ▸ (agrees_concat.mp hside).2)
  intro x hx y hy hxl hyl
  have hxa := agrees_of_mem_nodes hnear hx
  have hya := agrees_of_mem_nodes hfar hy
  have hzero : ∀ {a : Hash}, a.length = 28 → getBit a 0 = .ok (bit a 0) := by
    intro a ha
    exact getBit_eq (by omega)
  rw [hzero hxl, hzero hyl, hzero hlen]
  simp only [ne_eq, Except.ok.injEq]
  apply distance_lt_iff (i := path.length) (by omega) (by omega)
  · intro j hj
    exact hxa.bit_eq hside (by simp; omega)
  · intro j hj
    exact hya.left.bit_eq hside.left hj
  · intro hbit
    have hyb := (agrees_concat.mp hya).2
    have hhb := (agrees_concat.mp hside).2
    rw [getBit_eq (getBit_lt hyb)] at hyb
    rw [getBit_eq (getBit_lt hhb)] at hhb
    rw [Except.ok.inj hyb, Except.ok.inj hhb] at hbit
    exact Bool.not_ne_self b hbit

/-- Hashes of 28 bytes that differ in the first byte only. -/
def sampleHash (n : ℕ) : Hash := UInt8.ofNat n :: List.replicate 27 0

theorem nearer_subtree_two :
    ∃ t, run (KBucket.step sampleHash) (KBucket.new (sampleHash 0) 1)
        [.add 64 false (fun _ => .good), .add 0 false (fun _ => .good)] = .ok t ∧
      distance (sampleHash 0) (sampleHash 0) < distance (sampleHash 64) (sampleHash 0) := by
  have h : run (KBucket.step sampleHash) (KBucket.new (sampleHash 0) 1)
      [.add 64 false (fun _ => .good), .add 0 false (fun _ => .good)] =
      .ok (.inner ⟨0, 1, true, sampleHash 0⟩ (.leaf ⟨1, 1, true, sampleHash 0⟩ [0])
        (.leaf ⟨1, 1, false, sampleHash 0⟩ [64])) := by
    decide +kernel
  refine ⟨_, h, ?_⟩
  have hroute : (KBucket.inner ⟨0, 1, true, sampleHash 0⟩ (.leaf ⟨1, 1, true, sampleHash 0⟩ [0])
      (.leaf ⟨1, 1, false, sampleHash 0⟩ [64])).route (sampleHash 0) = .ok ([] ++ false :: []) := by
    decide +kernel
  have hnear := (nearer_subtree_iff h rfl hroute (by decide)).2
  exact (hnear 0 (by decide) 64 (by decide) (by decide) (by decide)).mpr (Or.inl rfl)

/-- The nodes differ from each other in bits 0 and 1, from the hash one in bit 0 and one in
bit 1. -/
theorem nearer_subtree_farther :
    ∃ t, run (KBucket.step sampleHash) (KBucket.new (sampleHash 0) 1)
        [.add 64 false (fun _ => .good), .add 128 false (fun _ => .good)] = .ok t ∧
      t = .inner ⟨0, 1, true, sampleHash 0⟩ (.leaf ⟨1, 1, true, sampleHash 0⟩ [128])
        (.leaf ⟨1, 1, false, sampleHash 0⟩ [64]) ∧
      t.determineBucket (sampleHash 0) = .ok (.leaf ⟨1, 1, true, sampleHash 0⟩ [128]) ∧
      distance (sampleHash 64) (sampleHash 0) < distance (sampleHash 128) (sampleHash 0) := by
  refine ⟨_, ?_, rfl, ?_, ?_⟩
  · decide +kernel
  · decide +kernel
  · decide +kernel

end KBucket

end P2PNet.DHT
