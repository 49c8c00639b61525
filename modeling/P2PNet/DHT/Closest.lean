import P2PNet.DHT.Duplicates
import P2PNet.DHT.Service

/-! `getClosest` as the source has it: the iterator of the leaf loop is never advanced,
and the loop goes on while either of its two conditions holds. Loops and calls without end
are cut by fuel. -/

namespace P2PNet.DHT

open Lib.Runs

inductive Stop where
  | bit (fault : Fault)
  | endIterator
  | running
  deriving DecidableEq, Repr

namespace KBucket

variable {ν : Type} {hash : Hash} {n : ℤ}

/-- The list after `it` is what lies between the iterator and the end. -/
def closestLoop (n : ℤ) : ℕ → ℤ → List ν → List ν → Except Stop (List ν)
  | 0, _, _, _ => .error .running
  | fuel + 1, i, it, resultList =>
    if i < n ∨ it ≠ [] then
      match it with
      | [] => .error .endIterator
      | node :: _ => closestLoop n fuel (i + 1) it (resultList ++ [node])
    else .ok resultList

def getClosest (fuel : ℕ) (hash : Hash) (n : ℤ) : KBucket ν → Except Stop (List ν)
  | .leaf _ contents => closestLoop n fuel 0 contents []
  | .inner c first second => do
    let bit ← (getBit hash (c.index + 1)).mapError .bit
    let resultList ← bif bit then getClosest fuel hash n second else getClosest fuel hash n first
    -- the comparison converts `n` to `size_t`
    if resultList.length < (n % 2 ^ 64).toNat then
      let appendix ← bif bit then getClosest fuel hash n first else getClosest fuel hash n second
      return resultList ++ appendix
    else return resultList

lemma closestLoop_running (fuel : ℕ) (i : ℤ) {it : List ν} (resultList : List ν) (h : it ≠ []) :
    closestLoop n fuel i it resultList = .error .running := by
  induction fuel generalizing i resultList with
  | zero => rfl
  | succ fuel ih =>
    cases it with
    | nil => exact absurd rfl h
    | cons node rest => rw [closestLoop, if_pos (Or.inr h), ih]

lemma closestLoop_nil (hn : 0 ≤ n) (fuel : ℕ) :
    closestLoop n (fuel + 1) 0 ([] : List ν) [] =
      if n = 0 then .ok [] else .error .endIterator := by
  by_cases hzero : n = 0
  · simp [closestLoop, hzero]
  · have hpos : 0 < n := by omega
    simp [closestLoop, hpos, hzero]

lemma getClosest_join {c : Fields} {b : Bool} {u w : KBucket ν} (fuel : ℕ)
    (hb : getBit hash (c.index + 1) = .ok b) :
    (join c b u w).getClosest fuel hash n = (do
      let resultList ← u.getClosest fuel hash n
      if resultList.length < (n % 2 ^ 64).toNat then
        return resultList ++ (← w.getClosest fuel hash n)
      else return resultList) := by
  cases b <;> simp only [join, cond_true, cond_false, getClosest, hb, Except.mapError, ok_bind]

lemma getClosest_eq (hn : 0 ≤ n) {t : KBucket ν} {c : Fields} {contents : List ν}
    (h : t.leafFor hash = .ok (c, contents)) (fuel : ℕ) :
    t.getClosest (fuel + 1) hash n =
      if contents ≠ [] then .error .running
      else if n = 0 then .ok [] else .error .endIterator := by
  induction t using child_induction with
  | leaf c' contents' =>
    obtain ⟨rfl, rfl⟩ := Prod.mk.inj (Except.ok.inj h)
    rw [getClosest]
    by_cases hempty : contents' = []
    · rw [if_neg (not_not.mpr hempty), hempty, closestLoop_nil hn]
    · rw [closestLoop_running _ _ _ hempty, if_pos hempty]
  | inner c' first second ih =>
    obtain ⟨b, hb, _⟩ := bind_ok_iff.mp h
    rw [inner_eq_join c' b] at h ⊢
    rw [leafFor_join hb] at h
    rw [getClosest_join _ hb, ih b h]
    split
    · rfl
    · split
      · next hzero => simp [hzero, ok_bind, pure, Except.pure]
      · rfl

lemma getClosest_error {t : KBucket ν} {e : Fault} (h : t.leafFor hash = .error e) (fuel : ℕ) :
    t.getClosest fuel hash n = .error (.bit e) := by
  induction t using child_induction with
  | leaf c contents => cases h
  | inner c first second ih =>
    cases hb : getBit hash (c.index + 1) with
    | error e' =>
      rw [leafFor, hb] at h
      obtain rfl := Except.error.inj h
      rw [getClosest, hb]
      rfl
    | ok b =>
      rw [inner_eq_join c b] at h ⊢
      rw [leafFor_join hb] at h
      rw [getClosest_join _ hb, ih b h]
      rfl

lemma getClosest_zero (t : KBucket ν) (nodes : List ν) : t.getClosest 0 hash n ≠ .ok nodes := by
  induction t using child_induction generalizing nodes with
  | leaf c contents => simp [getClosest, closestLoop]
  | inner c first second ih =>
    cases hb : getBit hash (c.index + 1) with
    | error e' =>
      rw [getClosest, hb]
      exact fun h => by cases h
    | ok b =>
      rw [inner_eq_join c b, getClosest_join _ hb]
      intro h
      obtain ⟨resultList, hr, _⟩ := bind_ok_iff.mp h
      exact ih b _ hr

/-- A lookup that returns has been asked for no node, and gives none. -/
lemma getClosest_ok (hn : 0 ≤ n) {t : KBucket ν} {fuel : ℕ} {nodes : List ν}
    (h : t.getClosest fuel hash n = .ok nodes) :
    nodes = [] ∧ n = 0 ∧ ∃ c, t.leafFor hash = .ok (c, []) := by
  cases fuel with
  | zero => exact absurd h (getClosest_zero t nodes)
  | succ fuel =>
    cases hleaf : t.leafFor hash with
    | error e =>
      rw [getClosest_error hleaf] at h
      cases h
    | ok place =>
      obtain ⟨c, contents⟩ := place
      rw [getClosest_eq hn hleaf] at h
      split at h
      · cases h
      · next hempty =>
        split at h
        · next hzero => exact ⟨(Except.ok.inj h).symm, hzero, c, by rw [not_not.mp hempty]⟩
        · cases h

end KBucket

/-- `DHTService::getClosestTo`, which no class of the repository overrides: it calls itself. -/
def DHTService.baseGetClosestTo {ν : Type} (s : DHTService ν) :
    ℕ → Hash → Int16 → Except Stop (List ν)
  | 0, _, _ => .error .running
  | fuel + 1, hash, count => s.baseGetClosestTo fuel hash count

lemma DHTService.baseGetClosestTo_running {ν : Type} (s : DHTService ν) (fuel : ℕ) (hash : Hash)
    (count : Int16) : s.baseGetClosestTo fuel hash count = .error .running := by
  induction fuel with
  | zero => rfl
  | succ fuel ih => exact ih

namespace KBucket

variable {ν : Type}

theorem lookup_returns_iff (t : KBucket ν) (hash : Hash) {n : ℤ} (hn : 0 ≤ n) :
    ((∃ fuel nodes, t.getClosest fuel hash n = .ok nodes) ↔
      n = 0 ∧ ∃ c, t.leafFor hash = .ok (c, [])) ∧
    (1 ≤ n → ∀ c contents, t.leafFor hash = .ok (c, contents) → ∀ fuel,
      t.getClosest (fuel + 1) hash n =
        .error (if contents = [] then .endIterator else .running)) ∧
    ∀ (s : DHTService ν) fuel count, s.baseGetClosestTo fuel hash count = .error .running := by
  refine ⟨⟨?_, ?_⟩, ?_, fun s fuel count => s.baseGetClosestTo_running fuel hash count⟩
  · rintro ⟨fuel, nodes, h⟩
    exact (getClosest_ok hn h).2
  · rintro ⟨hzero, c, hleaf⟩
    exact ⟨1, [], by rw [getClosest_eq hn hleaf, if_neg (by simp), if_pos hzero]⟩
  · intro hpos c contents hleaf fuel
    rw [getClosest_eq hn hleaf]
    by_cases hempty : contents = []
    · rw [if_neg (not_not.mpr hempty), if_neg (by omega), if_pos hempty]
    · rw [if_pos hempty, if_neg hempty]

theorem lookup_returns_iff_split :
    ∃ t, run (KBucket.step (fun n : ℕ => [UInt8.ofNat n])) (KBucket.new [0] 1)
        [.add 64 false (fun _ => .good), .add 0 false (fun _ => .good)] = .ok t ∧ t.splits = 1 ∧
      (¬ ∃ fuel nodes, t.getClosest fuel [64] 1 = .ok nodes) ∧
      ∀ fuel, t.getClosest (fuel + 1) [64] 1 = .error .running := by
  have hrun : run (KBucket.step (fun n : ℕ => [UInt8.ofNat n])) (KBucket.new [0] 1)
      [.add 64 false (fun _ => .good), .add 0 false (fun _ => .good)] =
      .ok (.inner ⟨0, 1, true, [0]⟩ (.leaf ⟨1, 1, true, [0]⟩ [0])
        (.leaf ⟨1, 1, false, [0]⟩ [64])) := by
    decide +kernel
  obtain ⟨hreturns, hfails, -⟩ := lookup_returns_iff
    (.inner ⟨0, 1, true, [0]⟩ (.leaf ⟨1, 1, true, [0]⟩ [0]) (.leaf ⟨1, 1, false, [0]⟩ [64]) :
      KBucket ℕ) [64] (show (0 : ℤ) ≤ 1 by decide)
  refine ⟨_, hrun, rfl, ?_, hfails le_rfl ⟨1, 1, false, [0]⟩ [64] (by decide +kernel)⟩
  intro h
  exact absurd (hreturns.mp h).1 (by decide)

theorem lookup_fails :
    (∀ fuel, (KBucket.new [0] 20 : KBucket ℕ).getClosest (fuel + 1) [0] 1 = .error .endIterator) ∧
    (∃ t, run (KBucket.step (fun n : ℕ => [UInt8.ofNat n])) (KBucket.new [0] 20)
        [.add 64 false (fun _ => .good)] = .ok t ∧
      ∀ fuel, t.getClosest fuel [0] 1 = .error .running) ∧
    ∀ fuel, (DHTService.sampleService []).baseGetClosestTo fuel [0] 20 = .error .running := by
  refine ⟨fun fuel => rfl, ⟨.leaf ⟨0, 20, true, [0]⟩ [64], ?_, fun fuel => ?_⟩, fun fuel => ?_⟩
  · decide +kernel
  · exact closestLoop_running fuel 0 [] (by simp)
  · exact DHTService.baseGetClosestTo_running _ fuel _ _

end KBucket

end P2PNet.DHT
