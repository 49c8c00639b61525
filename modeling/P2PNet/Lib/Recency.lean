import Mathlib.Data.List.Induction
import Mathlib.Data.List.Nodup
import Mathlib.Data.List.Perm.Basic

/-! A list that every update changes by moving one element to the front or to the
back. The last update of each element determines it: the elements moved to the
front come first, the latest of them at the head, and the latest of those moved
to the back is at the end. -/

namespace P2PNet.Lib.Recency

variable {α : Type*} [DecidableEq α] {past : List (α × Bool)}

def touch (xs : List α) (u : α × Bool) : List α :=
  if u.2 then u.1 :: xs.erase u.1 else xs.erase u.1 ++ [u.1]

/-- The number of updates since the last one of `x`; in `past` the latest update comes first. -/
def age (past : List (α × Bool)) (x : α) : ℕ := past.findIdx (fun u => u.1 = x)

def lastFlag (past : List (α × Bool)) (x : α) : Option Bool :=
  (past.find? (fun u => u.1 = x)).map Prod.snd

def Precedes (past : List (α × Bool)) (x y : α) : Prop :=
  match lastFlag past x, lastFlag past y with
  | some true, some true => age past x < age past y
  | some true, some false => True
  | some false, some false => age past y < age past x
  | _, _ => False

structure Ranked (past : List (α × Bool)) (xs : List α) : Prop where
  nodup : xs.Nodup
  mem_iff : ∀ x, x ∈ xs ↔ ∃ flag, (x, flag) ∈ past
  ordered : xs.Pairwise (Precedes past)

def latest : List (α × Bool) → List (α × Bool)
  | [] => []
  | u :: past => u :: (latest past).filter (fun w => w.1 ≠ u.1)

def ranking (past : List (α × Bool)) : List α :=
  ((latest past).filter (fun u => u.2)).map Prod.fst ++
    (((latest past).filter (fun u => !u.2)).map Prod.fst).reverse

lemma nodup_latest (past : List (α × Bool)) : ((latest past).map Prod.fst).Nodup := by
  induction past with
  | nil => exact List.nodup_nil
  | cons u past ih =>
    rw [latest, List.map_cons, List.nodup_cons]
    constructor
    · simp
    · exact ih.sublist (List.filter_sublist.map Prod.fst)

lemma ranking_perm (past : List (α × Bool)) :
    (ranking past).Perm ((latest past).map Prod.fst) := by
  apply ((List.reverse_perm _).append_left _).trans
  rw [← List.map_append]
  exact (List.filter_append_perm _ _).map Prod.fst

lemma nodup_ranking (past : List (α × Bool)) : (ranking past).Nodup :=
  (ranking_perm past).nodup_iff.mpr (nodup_latest past)

lemma ranking_cons (u : α × Bool) (past : List (α × Bool)) :
    ranking (u :: past) = touch (ranking past) u := by
  have hfilter : ∀ p : α × Bool → Bool,
      (((latest past).filter p).map Prod.fst).filter (· != u.1) =
        (((latest past).filter (fun w => w.1 ≠ u.1)).filter p).map Prod.fst := by
    intro p
    rw [List.filter_map, List.filter_filter, List.filter_filter]
    congr 2
    funext w
    rw [Bool.and_comm]
    congr 1
    exact (decide_not ..).symm
  -- nothing is twice in the list, so that erasing is filtering
  rw [touch, (nodup_ranking past).erase_eq_filter, ranking, ranking, List.filter_append,
    List.filter_reverse, hfilter, hfilter, latest]
  cases h : u.2 <;> simp [h]

lemma foldl_touch (updates : List (α × Bool)) :
    updates.foldl touch [] = ranking updates.reverse := by
  induction updates using List.reverseRecOn with
  | nil => rfl
  | append_singleton updates u ih =>
    rw [List.foldl_append, List.reverse_append, List.reverse_singleton, List.singleton_append,
      ranking_cons, ← ih]
    rfl

lemma find_of_mem_latest {u : α × Bool} (h : u ∈ latest past) :
    past.find? (fun w => w.1 = u.1) = some u := by
  induction past with
  | nil => cases h
  | cons w past ih =>
    rw [latest, List.mem_cons, List.mem_filter] at h
    rcases h with rfl | ⟨hmem, hne⟩
    · simp
    · have hother : w.1 ≠ u.1 := Ne.symm (by simpa using hne)
      rw [List.find?_cons_of_neg (by simpa using hother), ih hmem]

lemma mem_latest_iff {x : α} :
    x ∈ (latest past).map Prod.fst ↔ ∃ flag, (x, flag) ∈ past := by
  induction past with
  | nil => simp [latest]
  | cons u past ih =>
    have hfilter : x ∈ ((latest past).filter (fun w => w.1 ≠ u.1)).map Prod.fst ↔
        x ∈ (latest past).map Prod.fst ∧ x ≠ u.1 := by
      simp only [List.mem_map, List.mem_filter, decide_eq_true_eq]
      constructor
      · rintro ⟨w, ⟨hmem, hne⟩, rfl⟩
        exact ⟨⟨w, hmem, rfl⟩, hne⟩
      · rintro ⟨⟨w, hmem, rfl⟩, hne⟩
        exact ⟨w, ⟨hmem, hne⟩, rfl⟩
    rw [latest, List.map_cons, List.mem_cons, hfilter, ih]
    by_cases hx : x = u.1
    · subst hx
      simp only [ne_eq, not_true_eq_false, and_false, or_false, true_iff]
      exact ⟨u.2, List.mem_cons_self⟩
    · simp [hx, Prod.ext_iff]

lemma latest_aged (past : List (α × Bool)) :
    (latest past).Pairwise (fun u w => age past u.1 < age past w.1) := by
  induction past with
  | nil => exact List.Pairwise.nil
  | cons u past ih =>
    have hage : ∀ w ∈ (latest past).filter (fun w => w.1 ≠ u.1),
        age (u :: past) w.1 = age past w.1 + 1 := by
      intro w hw
      have hne : u.1 ≠ w.1 := Ne.symm (by simpa using (List.mem_filter.mp hw).2)
      simp [age, List.findIdx_cons, hne]
    rw [latest, List.pairwise_cons]
    constructor
    · intro w hw
      rw [hage w hw]
      simp [age, List.findIdx_cons]
    · apply List.Pairwise.imp_of_mem _ (ih.sublist List.filter_sublist)
      intro v w hv hw hlt
      rw [hage v hv, hage w hw]
      exact Nat.succ_lt_succ hlt

lemma lastFlag_of_mem {flag : Bool} {x : α}
    (h : x ∈ ((latest past).filter (fun u => u.2 = flag)).map Prod.fst) :
    lastFlag past x = some flag := by
  obtain ⟨u, hu, rfl⟩ := List.mem_map.mp h
  obtain ⟨hmem, hflag⟩ := List.mem_filter.mp hu
  rw [lastFlag, find_of_mem_latest hmem]
  simpa using hflag

lemma latest_pairwise_of_flag (flag : Bool) :
    (((latest past).filter (fun u => u.2 = flag)).map Prod.fst).Pairwise
      (fun x y => age past x < age past y) :=
  List.pairwise_map.mpr ((latest_aged past).sublist List.filter_sublist)

theorem ranked_ranking (past : List (α × Bool)) : Ranked past (ranking past) where
  nodup := nodup_ranking past
  mem_iff := by
    intro x
    rw [(ranking_perm past).mem_iff, mem_latest_iff]
  ordered := by
    have htrue : ((latest past).filter (fun u => u.2)).map Prod.fst =
        ((latest past).filter (fun u => u.2 = true)).map Prod.fst := by simp
    have hfalse : ((latest past).filter (fun u => !u.2)).map Prod.fst =
        ((latest past).filter (fun u => u.2 = false)).map Prod.fst := by
      congr 2
      funext u
      cases u.2 <;> rfl
    rw [ranking, htrue, hfalse, List.pairwise_append]
    refine ⟨?_, ?_, ?_⟩
    · apply (latest_pairwise_of_flag true).imp_of_mem
      intro x y hx hy hlt
      rw [Precedes, lastFlag_of_mem hx, lastFlag_of_mem hy]
      exact hlt
    · rw [List.pairwise_reverse]
      apply (latest_pairwise_of_flag false).imp_of_mem
      intro x y hx hy hlt
      rw [Precedes, lastFlag_of_mem hx, lastFlag_of_mem hy]
      exact hlt
    · intro x hx y hy
      rw [Precedes, lastFlag_of_mem hx, lastFlag_of_mem (List.mem_reverse.mp hy)]
      trivial

end P2PNet.Lib.Recency
