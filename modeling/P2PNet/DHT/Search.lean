import P2PNet.DHT.Closest
import P2PNet.DHT.Distance
import P2PNet.Lib.StdMap

/-! The iterative searches of `dht::DHTService`. `searches` is keyed by the pointers that
`make_shared` returns, which are new at every call; what `findAny` sends is logged with the
node it is for. -/

namespace P2PNet.DHT

open Lib Lib.Runs KBucket

inductive RPCStatus where
  | ready
  | sentRequest
  deriving DecidableEq, Repr

structure Search (ν : Type) [Ord ν] where
  searchingHash : Hash
  closestNode : Option ν
  shortlist : StdMap ν RPCStatus

abbrev HashPtr := ℕ

structure Searches (ν : Type) [Ord ν] where
  searches : StdMap HashPtr (Search ν)
  requests : List (ν × Action)

/-- What a search uses; `start` is the uninitialised loop variable of `operator^`. -/
structure Finder (ν : Type) where
  service : DHTService ν
  getHash : ν → Hash
  kBuckets : KBucket ν
  alpha : UInt16
  start : Hash → Hash → ℕ

namespace Finder

variable {ν : Type} (f : Finder ν)

def xor (a b : Hash) : Hash := Hash.xor (f.start a b) a b

/-- The distance that `operator^` is to compute. -/
def distanceTo (findHash : Hash) (x : ν) : Hash := Hash.xor 0 (f.getHash x) findHash

def Nearest (findHash : Hash) (nodes : List ν) (x : ν) : Prop :=
  x ∈ nodes ∧ ∀ m ∈ nodes, ¬ f.distanceTo findHash m < f.distanceTo findHash x

/-- The first of the nodes that `operator^` puts farther away than the hash itself, or else the
last. -/
def candidate (findHash : Hash) (nodes : List ν) : Option ν :=
  (nodes.find? (fun x => findHash < f.xor (f.getHash x) findHash)).or nodes.getLast?

lemma candidate_eq_some {f : Finder ν} {findHash : Hash} {nodes : List ν} {x : ν}
    (h : f.candidate findHash nodes = some x) :
    x ∈ nodes ∧ (findHash < f.xor (f.getHash x) findHash ∨ nodes.getLast? = some x ∧
      ∀ m ∈ nodes, ¬ findHash < f.xor (f.getHash m) findHash) := by
  rw [candidate, Option.or_eq_some_iff] at h
  rcases h with h | ⟨hnone, h⟩
  · exact ⟨List.mem_of_find?_eq_some h, .inl (by simpa using List.find?_some h)⟩
  · refine ⟨List.mem_of_getLast? h, .inr ⟨h, fun m hm => ?_⟩⟩
    simpa using List.find?_eq_none.mp hnone m hm

lemma exists_candidate (findHash : Hash) {nodes : List ν} (hne : nodes ≠ []) :
    ∃ x, f.candidate findHash nodes = some x := by
  obtain ⟨x, rest, rfl⟩ := List.exists_cons_of_ne_nil hne
  rw [← Option.isSome_iff_exists]
  simp [candidate]

section Distances

variable {f} {findHash : Hash} {nodes : List ν} {x : ν}

/-- Bytes that are left out make a distance no greater. -/
lemma xor_le (start : ℕ) (a b : Hash) : Hash.xor start a b ≤ Hash.xor 0 a b := by
  have hmap : ∀ is : List ℕ, is.map (fun i => if start ≤ i then a.getD i 0 ^^^ b.getD i 0 else 0) ≤
      is.map (fun i => if 0 ≤ i then a.getD i 0 ^^^ b.getD i 0 else 0) := by
    intro is
    induction is with
    | nil => exact List.le_refl _
    | cons i is ih =>
      rw [List.map_cons, List.map_cons, List.cons_le_cons_iff, if_pos (Nat.zero_le i)]
      by_cases hi : start ≤ i
      · exact .inr ⟨if_pos hi, ih⟩
      · rw [if_neg hi]
        rcases UInt8.lt_or_eq_of_le (UInt8.zero_le (a := a.getD i 0 ^^^ b.getD i 0)) with hlt | heq
        · exact .inl hlt
        · exact .inr ⟨heq, ih⟩
  exact hmap _

variable (f) in
lemma lt_distanceTo (h : findHash < f.xor (f.getHash x) findHash) :
    findHash < f.distanceTo findHash x := by
  by_contra hle
  exact xor_le _ _ _ (List.lt_of_le_of_lt (List.not_lt.mp hle) h)

lemma xor_past_end {start : ℕ} {a b : Hash} (ha : a.length ≤ start) (hb : b.length = start) :
    Hash.xor start a b = List.replicate b.length 0 := by
  apply Hash.eq_of_getD
  · rw [Hash.length_xor, List.length_replicate]
    omega
  · intro j
    have hzero : (List.replicate b.length (0 : UInt8)).getD j 0 = 0 := by
      rw [List.getD_eq_getElem?_getD, List.getElem?_getD_replicate_default_eq]
    rw [Hash.getD_xor, hzero]
    split
    · next hj =>
      rw [List.getD_eq_default _ _ (by omega), List.getD_eq_default _ _ (by omega)]
      rfl
    · rfl

lemma not_lt_zeros (h : Hash) : ¬ h < List.replicate h.length 0 := by
  induction h with
  | nil => exact List.lt_irrefl _
  | cons b h ih =>
    rw [List.length_cons, List.replicate_succ, List.cons_lt_cons_iff]
    rintro (hlt | ⟨-, hlt⟩)
    · exact absurd hlt UInt8.not_lt_zero
    · exact ih hlt

/-- For these nodes `operator^` computes the distance. -/
def Exact (f : Finder ν) (findHash : Hash) (nodes : List ν) : Prop :=
  ∀ x ∈ nodes, f.xor (f.getHash x) findHash = f.distanceTo findHash x

/-- The first node is nearest, and farther away than the hash itself, or the last one is, and no
node is farther away than that. -/
def Settled (f : Finder ν) (findHash : Hash) (nodes : List ν) : Prop :=
  (∃ x, nodes.head? = some x ∧ f.Nearest findHash nodes x ∧ findHash < f.distanceTo findHash x) ∨
    ∃ x, nodes.getLast? = some x ∧ f.Nearest findHash nodes x ∧
      ∀ m ∈ nodes, ¬ findHash < f.distanceTo findHash m

lemma nearest_candidate_iff {c : ν} (hexact : f.Exact findHash nodes)
    (hc : f.candidate findHash nodes = some c) :
    f.Nearest findHash nodes c ↔ f.Settled findHash nodes := by
  obtain ⟨hmem, hcase⟩ := candidate_eq_some hc
  have hfar : ∀ m ∈ nodes, findHash < f.xor (f.getHash m) findHash ↔
      findHash < f.distanceTo findHash m := fun m hm => by rw [hexact m hm]
  constructor
  · intro hnear
    rcases hcase with hlt | ⟨hlast, hnone⟩
    · -- a node that is not farther away than the hash would be nearer than this one
      rw [hfar c hmem] at hlt
      have hall : ∀ m ∈ nodes, findHash < f.distanceTo findHash m := by
        intro m hm
        by_contra hle
        exact hnear.2 m hm (List.lt_of_le_of_lt (List.not_lt.mp hle) hlt)
      obtain ⟨x, rest, rfl⟩ := List.exists_cons_of_ne_nil (List.ne_nil_of_mem hmem)
      have hfirst : f.candidate findHash (x :: rest) = some x := by
        have hx := (hfar x List.mem_cons_self).mpr (hall x List.mem_cons_self)
        simp [candidate, hx]
      obtain rfl := Option.some.inj (hfirst.symm.trans hc)
      exact .inl ⟨x, rfl, hnear, hlt⟩
    · exact .inr ⟨c, hlast, hnear, fun m hm => (hfar m hm).not.mp (hnone m hm)⟩
  · rintro (⟨x, hhead, hnear, hlt⟩ | ⟨x, hlast, hnear, hnone⟩)
    · obtain ⟨rest, rfl⟩ : ∃ rest, nodes = x :: rest := List.head?_eq_some_iff.mp hhead
      have hx := (hfar x List.mem_cons_self).mpr hlt
      have hfirst : f.candidate findHash (x :: rest) = some x := by simp [candidate, hx]
      exact Option.some.inj (hfirst.symm.trans hc) ▸ hnear
    · have hfind : nodes.find? (fun x => findHash < f.xor (f.getHash x) findHash) = none := by
        rw [List.find?_eq_none]
        intro m hm
        simpa using (hfar m hm).not.mpr (hnone m hm)
      rw [candidate, hfind, Option.none_or, hlast] at hc
      exact Option.some.inj hc ▸ hnear

lemma Nearest.congr {y : ν} (h : f.Nearest findHash nodes x) (hy : y ∈ nodes)
    (hsame : f.getHash y = f.getHash x) : f.Nearest findHash nodes y := by
  refine ⟨hy, fun m hm => ?_⟩
  have hdistance : f.distanceTo findHash y = f.distanceTo findHash x := by
    rw [distanceTo, hsame, distanceTo]
  rw [hdistance]
  exact h.2 m hm

/-- Whatever the variable holds, a node can become the closest one if it is the last or farther
away than the hash itself. -/
lemma nearest_candidates_iff (hne : nodes ≠ []) (hlen : ∀ n ∈ nodes, (f.getHash n).length = 28)
    (hfind : findHash.length = 28) :
    (∀ start, ∃ c, { f with start := start }.candidate findHash nodes = some c ∧
        f.Nearest findHash nodes c) ↔
      (∃ x, nodes.getLast? = some x ∧ f.Nearest findHash nodes x) ∧
        ∀ x ∈ nodes, findHash < f.distanceTo findHash x → f.Nearest findHash nodes x := by
  have hzero : ∀ m ∈ nodes, ¬ findHash < Hash.xor 28 (f.getHash m) findHash := by
    intro m hm
    rw [xor_past_end (hlen m hm).le hfind]
    exact not_lt_zeros findHash
  constructor
  · intro h
    constructor
    · obtain ⟨c, hc, hnear⟩ := h fun _ _ => 28
      obtain ⟨hmem, hlt | ⟨hlast, -⟩⟩ := candidate_eq_some hc
      · exact absurd hlt (hzero c hmem)
      · exact ⟨c, hlast, hnear⟩
    · intro x hx hlt
      obtain ⟨c, hc, hnear⟩ := h fun a _ => if a = f.getHash x then 0 else 28
      obtain ⟨hmem, hcase⟩ := candidate_eq_some hc
      have hsame : f.getHash c = f.getHash x := by
        by_contra hother
        rcases hcase with hfar | ⟨-, hnone⟩
        · simp only [xor, if_neg hother] at hfar
          exact hzero c hmem hfar
        · apply hnone x hx
          simpa only [xor, if_pos, distanceTo] using hlt
      exact hnear.congr hx hsame.symm
  · rintro ⟨⟨last, hlast, hnear⟩, hfar⟩ start
    obtain ⟨c, hc⟩ := { f with start := start }.exists_candidate findHash hne
    refine ⟨c, hc, ?_⟩
    obtain ⟨hmem, hlt | ⟨hc', -⟩⟩ := candidate_eq_some hc
    · exact hfar c hmem ({ f with start := start }.lt_distanceTo hlt)
    · exact Option.some.inj (hlast.symm.trans hc') ▸ hnear

end Distances

section Lookup

variable {f} {fuel : ℕ} {hash : Hash}

/-- A lookup of the hash returns. -/
def Returns (f : Finder ν) (hash : Hash) : Prop :=
  f.alpha = 0 ∧ ∃ c, f.kBuckets.leafFor hash = .ok (c, [])

lemma getClosest_returns {nodes : List ν}
    (h : f.kBuckets.getClosest fuel hash f.alpha.toNat = .ok nodes) :
    nodes = [] ∧ f.Returns hash := by
  obtain ⟨hnil, hzero, hleaf⟩ := getClosest_ok (Int.natCast_nonneg _) h
  exact ⟨hnil, UInt16.toNat_inj.mp (Int.natCast_eq_zero.mp hzero), hleaf⟩

lemma getClosest_of_returns (h : f.Returns hash) (fuel : ℕ) :
    f.kBuckets.getClosest (fuel + 1) hash f.alpha.toNat = .ok [] := by
  obtain ⟨hzero, c, hleaf⟩ := h
  rw [getClosest_eq (Int.natCast_nonneg _) hleaf, if_neg (by simp), if_pos (by simp [hzero])]

end Lookup

def request (findHash : Hash) (action : DHTMessageType) (node : ν) : ν × Action :=
  (node, .send (f.getHash node) { messageType := some action, hash := some findHash })

variable [Ord ν]

def visit (findHash : Hash) (search : Search ν) (node : ν) : Search ν :=
  let search := { search with shortlist := search.shortlist.assign node .ready }
  match search.closestNode with
  | some closest =>
    let closestDistance := f.xor (f.getHash closest) findHash
    -- `<` binds tighter than `^`, which is then the one of two `bool`s
    if (f.getHash node).isPresent ^^ decide (findHash < closestDistance) then
      { search with closestNode := some node }
    else search
  | none => { search with closestNode := some node }

def askReady (action : DHTMessageType) (search : Search ν) : List (ν × Action) :=
  let ready := search.shortlist.keys.filter (fun node => search.shortlist.find node = some .ready)
  ready.flatMap (fun node =>
    (f.service.findAny search.searchingHash (f.getHash node) action).map (node, ·))

/-- `findAnyIterative` up to the lookup. -/
def thisSearch (ptr : HashPtr) (findHash : Hash) (s : Searches ν) : Search ν :=
  { (s.searches.find ptr).getD ⟨[], none, .empty⟩ with searchingHash := findHash }

/-- `findAnyIterative` from the lookup on, which has given `nodes`. -/
def searchAmong (nodes : List ν) (ptr : HashPtr) (findHash : Hash) (action : DHTMessageType)
    (s : Searches ν) : Searches ν :=
  let search := nodes.foldl (f.visit findHash) (thisSearch ptr findHash s)
  { searches := s.searches.assign ptr search
    requests := s.requests ++ f.askReady action search }

/-- A lookup that does not return leaves the search that was made for it. -/
def findAnyIterative (fuel : ℕ) (ptr : HashPtr) (findHash : Hash) (action : DHTMessageType)
    (s : Searches ν) : Except (Stop × Searches ν) (Searches ν) :=
  match f.kBuckets.getClosest fuel findHash f.alpha.toNat with
  | .ok nodes => .ok (f.searchAmong nodes ptr findHash action s)
  | .error stop => .error
    (stop, { s with searches := s.searches.assign ptr (thisSearch ptr findHash s) })

def findNodeIterative (fuel : ℕ) (ptr : HashPtr) (findHash : Hash) (s : Searches ν) :
    Except (Stop × Searches ν) (Searches ν) :=
  f.findAnyIterative fuel ptr findHash .findNode s

def findValueIterative (fuel : ℕ) (ptr : HashPtr) (findHash : Hash) (s : Searches ν) :
    Except (Stop × Searches ν) (Searches ν) :=
  f.findAnyIterative fuel ptr findHash .findValue s

/-- The calls `findNodeIterative(hash)` of a run, each with the pointer that it makes. -/
def findNodes (fuel : ℕ) (calls : List (HashPtr × Hash)) (s : Searches ν) :
    Except (Stop × Searches ν) (Searches ν) :=
  run (fun s call => f.findNodeIterative fuel call.1 call.2 s) s calls

def noSearches : Searches ν := ⟨.empty, []⟩

/-- The search at `ptr` has the nodes found on its shortlist, each of them asked once, and a
closest node with `P`. -/
def Tracked (nodes : List ν) (ptr : HashPtr) (findHash : Hash) (action : DHTMessageType)
    (s : Searches ν) (P : ν → Prop) : Prop :=
  let after := f.searchAmong nodes ptr findHash action s
  ∃ search x, after.searches.find ptr = some search ∧
    (∀ n, n ∈ search.shortlist.keys ↔ n ∈ nodes) ∧
    (∃ asked : List ν, asked.Nodup ∧ (∀ n, n ∈ asked ↔ n ∈ nodes) ∧
      after.requests = s.requests ++ asked.map (f.request findHash action)) ∧
    search.closestNode = some x ∧ P x

variable {f} {findHash : Hash} {search : Search ν}

lemma visit_searchingHash (node : ν) : (f.visit findHash search node).searchingHash =
    search.searchingHash := by
  simp only [visit]
  split
  · split <;> rfl
  · rfl

lemma visit_shortlist (node : ν) : (f.visit findHash search node).shortlist =
    search.shortlist.assign node .ready := by
  simp only [visit]
  split
  · split <;> rfl
  · rfl

lemma visit_none {node : ν} (h : search.closestNode = none) :
    (f.visit findHash search node).closestNode = some node := by
  simp [visit, h]

variable (findHash) in
lemma visit_some {x node : ν} (h : search.closestNode = some x) (hn : f.getHash node ≠ []) :
    (f.visit findHash search node).closestNode =
      if findHash < f.xor (f.getHash x) findHash then some x else some node := by
  have hpresent : (f.getHash node).isPresent = true := (Hash.isPresent_iff _).mpr hn
  simp only [visit, h, hpresent, Bool.true_xor]
  by_cases hlt : findHash < f.xor (f.getHash x) findHash <;> simp [hlt]

lemma foldl_searchingHash (nodes : List ν) :
    (nodes.foldl (f.visit findHash) search).searchingHash = search.searchingHash := by
  induction nodes generalizing search with
  | nil => rfl
  | cons node nodes ih => rw [List.foldl_cons, ih, visit_searchingHash]

lemma foldl_closestNode {x : ν} {nodes : List ν} (h : search.closestNode = some x)
    (hn : ∀ n ∈ nodes, f.getHash n ≠ []) :
    (nodes.foldl (f.visit findHash) search).closestNode = f.candidate findHash (x :: nodes) := by
  induction nodes generalizing search x with
  | nil =>
    by_cases hlt : findHash < f.xor (f.getHash x) findHash <;> simp [candidate, h, hlt]
  | cons node nodes ih =>
    -- a node farther away than the hash itself stays, any other one gives way to the next
    obtain ⟨hnode, hrest⟩ := List.forall_mem_cons.mp hn
    have hvisit := visit_some findHash h hnode
    by_cases hlt : findHash < f.xor (f.getHash x) findHash
    · rw [if_pos hlt] at hvisit
      rw [List.foldl_cons, ih hvisit hrest]
      simp [candidate, hlt]
    · rw [if_neg hlt] at hvisit
      rw [List.foldl_cons, ih hvisit hrest]
      simp [candidate, hlt]

section Fresh

variable {nodes : List ν} {ptr : HashPtr} {action : DHTMessageType} {s : Searches ν} {n : ν}

def newSearch (f : Finder ν) (findHash : Hash) (nodes : List ν) : Search ν :=
  nodes.foldl (f.visit findHash) ⟨findHash, none, .empty⟩

lemma newSearch_searchingHash (findHash : Hash) (nodes : List ν) :
    (f.newSearch findHash nodes).searchingHash = findHash :=
  foldl_searchingHash _

variable (findHash) in
lemma newSearch_closestNode (hn : ∀ n ∈ nodes, f.getHash n ≠ []) :
    (f.newSearch findHash nodes).closestNode = f.candidate findHash nodes := by
  rw [newSearch]
  cases nodes with
  | nil => rfl
  | cons node nodes =>
    rw [List.foldl_cons]
    exact foldl_closestNode (visit_none rfl) (fun n h => hn n (List.mem_cons_of_mem _ h))

lemma thisSearch_fresh (hfresh : s.searches.find ptr = none) :
    thisSearch ptr findHash s = ⟨findHash, none, .empty⟩ := by
  rw [thisSearch, hfresh]
  rfl

variable [Std.TransOrd ν] [Std.LawfulEqOrd ν] [DecidableEq ν]

lemma foldl_shortlist (nodes : List ν) (n : ν) :
    (nodes.foldl (f.visit findHash) search).shortlist.find n =
      if n ∈ nodes then some .ready else search.shortlist.find n := by
  induction nodes generalizing search with
  | nil => rfl
  | cons node nodes ih =>
    rw [List.foldl_cons, ih, visit_shortlist, StdMap.find_assign]
    by_cases hn : n ∈ nodes
    · simp [hn]
    · by_cases he : n = node <;> simp [hn, he]

lemma newSearch_shortlist (findHash : Hash) (nodes : List ν) (n : ν) :
    (f.newSearch findHash nodes).shortlist.find n = if n ∈ nodes then some .ready else none := by
  rw [newSearch, foldl_shortlist, StdMap.find_empty]

lemma mem_newSearch_keys : n ∈ (f.newSearch findHash nodes).shortlist.keys ↔ n ∈ nodes := by
  rw [StdMap.mem_keys, newSearch_shortlist]
  split <;> simp_all

lemma askReady_newSearch : f.askReady action (f.newSearch findHash nodes) =
    (f.newSearch findHash nodes).shortlist.keys.map (f.request findHash action) := by
  have hready : (f.newSearch findHash nodes).shortlist.keys.filter
      (fun node => (f.newSearch findHash nodes).shortlist.find node = some .ready) =
        (f.newSearch findHash nodes).shortlist.keys := by
    apply List.filter_eq_self.mpr
    intro node hnode
    simp [newSearch_shortlist, mem_newSearch_keys.mp hnode]
  have hsend : ∀ node, (f.service.findAny findHash (f.getHash node) action).map (node, ·) =
      [f.request findHash action node] := fun _ => rfl
  simp only [askReady, hready, newSearch_searchingHash, hsend, List.map_eq_flatMap]

lemma searchAmong_fresh (hfresh : s.searches.find ptr = none) :
    f.searchAmong nodes ptr findHash action s =
      { searches := s.searches.assign ptr (f.newSearch findHash nodes)
        requests := s.requests ++
          (f.newSearch findHash nodes).shortlist.keys.map (f.request findHash action) } := by
  rw [← askReady_newSearch, searchAmong, thisSearch_fresh hfresh]
  rfl

lemma tracked_iff (hfresh : s.searches.find ptr = none) (hn : ∀ n ∈ nodes, f.getHash n ≠ [])
    {P : ν → Prop} :
    f.Tracked nodes ptr findHash action s P ↔
      ∃ c, f.candidate findHash nodes = some c ∧ P c := by
  have hclosest := newSearch_closestNode findHash hn
  have hfind : (f.searchAmong nodes ptr findHash action s).searches.find ptr =
      some (f.newSearch findHash nodes) := by
    rw [searchAmong_fresh hfresh, StdMap.find_assign, if_pos rfl]
  constructor
  · rintro ⟨search, x, hsearch, -, -, hx, hP⟩
    obtain rfl : f.newSearch findHash nodes = search := Option.some.inj (hfind.symm.trans hsearch)
    exact ⟨x, hclosest.symm.trans hx, hP⟩
  · rintro ⟨c, hc, hP⟩
    refine ⟨_, c, hfind, fun n => mem_newSearch_keys, ?_, hclosest.trans hc, hP⟩
    rw [searchAmong_fresh hfresh]
    exact ⟨_, StdMap.keys_nodup _, fun n => mem_newSearch_keys, rfl⟩

end Fresh

section Runs

variable [Std.TransOrd ν] [Std.LawfulEqOrd ν] [DecidableEq ν]
variable {ptr : HashPtr} {s s' : Searches ν} {fuel : ℕ} {stop : Stop}

/-- Some node of the list becomes the closest one, but not by its distance. It is a nearest one
exactly if the first or the last node is nearest and the hash itself lies on the right side of all
distances; and whatever `operator^` starts from, only if the last one is nearest and no farther one
can stop the search. -/
theorem closest_tracked_iff (f : Finder ν) (nodes : List ν) (ptr : HashPtr) (findHash : Hash)
    (action : DHTMessageType) (s : Searches ν) (hfresh : s.searches.find ptr = none)
    (hne : nodes ≠ []) (hlen : ∀ n ∈ nodes, (f.getHash n).length = 28) :
    f.Tracked nodes ptr findHash action s (· ∈ nodes) ∧
    (f.Exact findHash nodes →
      (f.Tracked nodes ptr findHash action s (f.Nearest findHash nodes) ↔
        f.Settled findHash nodes)) ∧
    (findHash.length = 28 →
      ((∀ start, { f with start := start }.Tracked nodes ptr findHash action s
          (f.Nearest findHash nodes)) ↔
        (∃ x, nodes.getLast? = some x ∧ f.Nearest findHash nodes x) ∧
          ∀ x ∈ nodes, findHash < f.distanceTo findHash x → f.Nearest findHash nodes x)) := by
  have hn : ∀ n ∈ nodes, f.getHash n ≠ [] := by
    intro n hmem hnil
    have hlength := hlen n hmem
    simp [hnil] at hlength
  obtain ⟨c, hc⟩ := f.exists_candidate findHash hne
  refine ⟨(tracked_iff hfresh hn).mpr ⟨c, hc, (candidate_eq_some hc).1⟩, fun hexact => ?_,
    fun hfind => ?_⟩
  · rw [tracked_iff hfresh hn, ← nearest_candidate_iff hexact hc]
    constructor
    · rintro ⟨c', hc', hnear⟩
      exact Option.some.inj (hc.symm.trans hc') ▸ hnear
    · exact fun hnear => ⟨c, hc, hnear⟩
  · rw [← nearest_candidates_iff hne hlen hfind]
    exact forall_congr' fun start =>
      tracked_iff (f := { f with start := start }) (P := f.Nearest findHash nodes) hfresh hn

def sampleFinder (alpha : UInt16) (start : Hash → Hash → ℕ) : Finder ℕ :=
  ⟨⟨20, fun _ _ => [], fun _ => []⟩, sampleHash, KBucket.new (sampleHash 0) 20, alpha, start⟩

theorem closest_tracked_last :
    (sampleFinder 3 fun _ _ => 0).Tracked [0, 1] 0 (sampleHash 1) .findNode noSearches
      ((sampleFinder 3 fun _ _ => 0).Nearest (sampleHash 1) [0, 1]) := by
  have hlen : ∀ n ∈ [0, 1], (sampleHash n).length = 28 := by decide
  have hnear : ∀ m ∈ [0, 1], ¬ (sampleFinder 3 fun _ _ => 0).distanceTo (sampleHash 1) m <
      (sampleFinder 3 fun _ _ => 0).distanceTo (sampleHash 1) 1 := by decide
  have hclose : ∀ m ∈ [0, 1],
      ¬ sampleHash 1 < (sampleFinder 3 fun _ _ => 0).distanceTo (sampleHash 1) m := by decide
  have h := closest_tracked_iff (sampleFinder 3 fun _ _ => 0) [0, 1] 0 (sampleHash 1) .findNode
    noSearches (StdMap.find_empty 0) (List.cons_ne_nil _ _) hlen
  exact (h.2.1 fun _ _ => rfl).mpr (.inr ⟨1, rfl, ⟨by decide, hnear⟩, hclose⟩)

/-- The search for the hash of node 0 ends with node 1, whatever `operator^` starts from. -/
theorem searched_node_not_closest :
    (∀ n ∈ [0, 1], (sampleHash n).length = 28) ∧
    ∀ start : Hash → Hash → ℕ,
      (sampleFinder 3 start).Tracked [0, 1] 0 (sampleHash 0) .findNode noSearches (· = 1) ∧
        ¬ (sampleFinder 3 start).Tracked [0, 1] 0 (sampleHash 0) .findNode noSearches
          ((sampleFinder 3 start).Nearest (sampleHash 0) [0, 1]) := by
  refine ⟨by decide, fun start => ?_⟩
  have hfresh : (noSearches : Searches ℕ).searches.find 0 = none := StdMap.find_empty 0
  have hn : ∀ n ∈ [0, 1], (sampleFinder 3 start).getHash n ≠ [] := by
    intro n _ hnil
    cases hnil
  have hself : ¬ sampleHash 0 < (sampleFinder 3 start).xor (sampleHash 0) (sampleHash 0) := by
    rw [xor, Hash.xor_self]
    decide
  have hlast : (sampleFinder 3 start).candidate (sampleHash 0) [0, 1] = some 1 := by
    have hzero : (sampleFinder 3 start).getHash 0 = sampleHash 0 := rfl
    by_cases hone : sampleHash 0 <
        (sampleFinder 3 start).xor ((sampleFinder 3 start).getHash 1) (sampleHash 0)
    · simp [candidate, hzero, hself, hone]
    · simp [candidate, hzero, hself, hone]
  refine ⟨(tracked_iff hfresh hn).mpr ⟨1, hlast, rfl⟩, ?_⟩
  rw [tracked_iff hfresh hn]
  rintro ⟨c, hc, -, hmin⟩
  obtain rfl : 1 = c := Option.some.inj (hlast.symm.trans hc)
  have hcloser : (sampleFinder 3 fun _ _ => 0).distanceTo (sampleHash 0) 0 <
      (sampleFinder 3 fun _ _ => 0).distanceTo (sampleHash 0) 1 := by decide
  exact hmin 0 (by decide) hcloser

end Runs

section Calls

variable {ptr : HashPtr} {s s' : Searches ν} {fuel : ℕ} {past calls : List (HashPtr × Hash)}

def searchesFor (s : Searches ν) (hash : Hash) : ℕ :=
  s.searches.keys.countP (fun ptr => (s.searches.find ptr).map (·.searchingHash) = some hash)

lemma searchesFor_assign {search : Search ν} {requests : List (ν × Action)}
    (hfresh : s.searches.find ptr = none) (hash : Hash) :
    searchesFor ⟨s.searches.assign ptr search, requests⟩ hash =
      searchesFor s hash + if search.searchingHash = hash then 1 else 0 := by
  have hold : ∀ p ∈ s.searches.keys, p ≠ ptr := by
    rintro p hp rfl
    simp [StdMap.mem_keys, hfresh] at hp
  rw [searchesFor, searchesFor, (StdMap.keys_assign_perm hfresh _).countP_eq, List.countP_cons]
  congr 1
  · apply List.countP_congr
    intro p hp
    rw [StdMap.find_assign, if_neg (hold p hp)]
  · simp [StdMap.find_assign]

lemma findNodeIterative_returns (h : f.findNodeIterative fuel ptr findHash s = .ok s') :
    f.Returns findHash := by
  rw [findNodeIterative, findAnyIterative] at h
  split at h
  · next hlookup => exact (getClosest_returns hlookup).2
  · cases h

lemma findNodeIterative_of_returns (h : f.Returns findHash) (fuel : ℕ) (ptr : HashPtr)
    (s : Searches ν) : ∃ s', f.findNodeIterative (fuel + 1) ptr findHash s = .ok s' := by
  rw [findNodeIterative, findAnyIterative, getClosest_of_returns h]
  exact ⟨_, rfl⟩

lemma findNodes_of_returns (h : ∀ call ∈ calls, f.Returns call.2) (fuel : ℕ) (s : Searches ν) :
    ∃ s', f.findNodes (fuel + 1) calls s = .ok s' := by
  induction calls generalizing s with
  | nil => exact ⟨s, rfl⟩
  | cons call calls ih =>
    obtain ⟨hcall, hrest⟩ := List.forall_mem_cons.mp h
    obtain ⟨t, ht⟩ := findNodeIterative_of_returns hcall fuel call.1 s
    obtain ⟨s', hs'⟩ := ih hrest t
    exact ⟨s', run_cons.mpr ⟨t, ht, hs'⟩⟩

lemma findNodes_returns_iff (s : Searches ν) :
    (∃ fuel s', f.findNodes fuel calls s = .ok s') ↔ ∀ call ∈ calls, f.Returns call.2 := by
  constructor
  · rintro ⟨fuel, s', h⟩
    induction calls generalizing s with
    | nil => simp
    | cons call calls ih =>
      obtain ⟨t, ht, hrest⟩ := run_cons.mp h
      exact List.forall_mem_cons.mpr ⟨findNodeIterative_returns ht, ih t hrest⟩
  · intro h
    exact ⟨1, findNodes_of_returns h 0 s⟩

/-- After the calls `past` there is one search for each, and nobody has been asked. -/
structure Made (past : List (HashPtr × Hash)) (s : Searches ν) : Prop where
  fresh : ∀ ptr, ptr ∉ past.map Prod.fst → s.searches.find ptr = none
  count : ∀ hash, searchesFor s hash = (past.map Prod.snd).count hash
  requests : s.requests = []

lemma made_nil : Made [] (noSearches : Searches ν) :=
  ⟨fun ptr _ => StdMap.find_empty ptr, fun _ => rfl, rfl⟩

lemma Made.assign (search : Search ν) (h : Made past s) (hptr : ptr ∉ past.map Prod.fst) :
    Made (past ++ [(ptr, search.searchingHash)]) ⟨s.searches.assign ptr search, s.requests⟩ := by
  refine ⟨fun p hp => ?_, fun hash => ?_, h.requests⟩
  · simp only [List.map_append, List.mem_append, not_or] at hp
    rw [StdMap.find_assign, if_neg (by simpa using hp.2), h.fresh p hp.1]
  · rw [searchesFor_assign (h.fresh ptr hptr), h.count, List.map_append, List.count_append,
      List.map_cons, List.count_cons]
    simp

lemma Made.atMostOne_iff (h : Made past s) :
    (∀ hash, searchesFor s hash ≤ 1) ↔ (past.map Prod.snd).Nodup := by
  rw [List.nodup_iff_count_le_one]
  exact forall_congr' fun hash => by rw [h.count]

variable [Std.TransOrd ν] [Std.LawfulEqOrd ν] [DecidableEq ν]

/-- The lookup gives no node, so a call makes its search and asks nobody, whether it returns
or not. -/
lemma Made.findNodeIterative (h : Made past s) (hptr : ptr ∉ past.map Prod.fst) (fuel : ℕ)
    (findHash : Hash) :
    (∃ s', f.findNodeIterative fuel ptr findHash s = .ok s' ∧ Made (past ++ [(ptr, findHash)]) s') ∨
      ∃ stop s', f.findNodeIterative fuel ptr findHash s = .error (stop, s') ∧
        Made (past ++ [(ptr, findHash)]) s' := by
  have hmade := h.assign ⟨findHash, none, .empty⟩ hptr
  have hfresh := h.fresh ptr hptr
  rw [Finder.findNodeIterative, findAnyIterative]
  cases hlookup : f.kBuckets.getClosest fuel findHash f.alpha.toNat with
  | error stop =>
    rw [thisSearch_fresh hfresh]
    exact .inr ⟨stop, _, rfl, hmade⟩
  | ok nodes =>
    obtain ⟨rfl, -⟩ := getClosest_returns hlookup
    refine .inl ⟨_, rfl, ?_⟩
    have hnobody : (f.newSearch findHash []).shortlist.keys = [] := rfl
    rw [searchAmong_fresh hfresh, hnobody, List.map_nil, List.append_nil]
    exact hmade

/-- The calls up to the first one that does not return make their searches. -/
lemma Made.findNodes (h : Made past s) (hptr : (past.map Prod.fst ++ calls.map Prod.fst).Nodup)
    (fuel : ℕ) :
    (∃ s', f.findNodes (fuel + 1) calls s = .ok s' ∧ Made (past ++ calls) s') ∨
      ∃ stop s' before call after, f.findNodes (fuel + 1) calls s = .error (stop, s') ∧
        calls = before ++ call :: after ∧ (∀ c ∈ before, f.Returns c.2) ∧ ¬ f.Returns call.2 ∧
        Made (past ++ (before ++ [call])) s' := by
  induction calls generalizing past s with
  | nil => exact .inl ⟨s, rfl, by rwa [List.append_nil]⟩
  | cons call calls ih =>
    have hnew : call.1 ∉ past.map Prod.fst := by
      intro hmem
      exact (List.nodup_append.mp hptr).2.2 _ hmem _ List.mem_cons_self rfl
    rcases h.findNodeIterative (f := f) hnew (fuel + 1) call.2 with
      ⟨t, ht, hmade⟩ | ⟨stop, t, ht, hmade⟩
    · have hrest : ((past ++ [call]).map Prod.fst ++ calls.map Prod.fst).Nodup := by
        simpa using hptr
      rcases ih hmade hrest with
        ⟨s', hs', hall⟩ | ⟨stop, s', before, last, after, hs', rfl, hreturns, hlast, hall⟩
      · exact .inl ⟨s', run_cons.mpr ⟨t, ht, hs'⟩, by simpa using hall⟩
      · refine .inr ⟨stop, s', call :: before, last, after, ?_, rfl,
          List.forall_mem_cons.mpr ⟨findNodeIterative_returns ht, hreturns⟩, hlast,
          by simpa using hall⟩
        rw [Finder.findNodes, run, ht]
        exact hs'
    · refine .inr ⟨stop, t, [], call, calls, ?_, rfl, by simp, fun hreturns => ?_, hmade⟩
      · rw [Finder.findNodes, run, ht]
        rfl
      · obtain ⟨t', ht'⟩ := findNodeIterative_of_returns hreturns fuel call.1 s
        rw [ht'] at ht
        cases ht

/-- The calls return exactly if each of them looks for no node in an empty leaf. As far as they get,
each makes a search of its own, so there is at most one search for each hash exactly if no hash
comes twice; no request is ever sent. -/
theorem searched_once_iff (f : Finder ν) (calls : List (HashPtr × Hash))
    (hptr : (calls.map Prod.fst).Nodup) :
    ((∃ fuel s, f.findNodes fuel calls noSearches = .ok s) ↔
      ∀ call ∈ calls, f.alpha = 0 ∧ ∃ c, f.kBuckets.leafFor call.2 = .ok (c, [])) ∧
    ∀ fuel,
      (∀ s, f.findNodes (fuel + 1) calls noSearches = .ok s →
        s.requests = [] ∧ ((∀ hash, searchesFor s hash ≤ 1) ↔ (calls.map Prod.snd).Nodup)) ∧
      ∀ stop s, f.findNodes (fuel + 1) calls noSearches = .error (stop, s) →
        s.requests = [] ∧ ∃ before call after, calls = before ++ call :: after ∧
          (∀ c ∈ before, f.Returns c.2) ∧ ¬ f.Returns call.2 ∧
          ((∀ hash, searchesFor s hash ≤ 1) ↔ ((before ++ [call]).map Prod.snd).Nodup) := by
  refine ⟨findNodes_returns_iff noSearches, fun fuel => ?_⟩
  rcases made_nil.findNodes (f := f) hptr fuel with
    ⟨s', hs', hmade⟩ | ⟨stop', s', before, call, after, hs', hcalls, hreturns, hlast, hmade⟩
  · constructor
    · intro s hs
      obtain rfl : s' = s := Except.ok.inj (hs'.symm.trans hs)
      exact ⟨hmade.requests, hmade.atMostOne_iff⟩
    · intro stop s hs
      cases hs'.symm.trans hs
  · constructor
    · intro s hs
      cases hs'.symm.trans hs
    · intro stop s hs
      cases hs'.symm.trans hs
      exact ⟨hmade.requests, before, call, after, hcalls, hreturns, hlast, hmade.atMostOne_iff⟩

lemma sampleFinder_returns (hash : Hash) : (sampleFinder 0 fun _ _ => 0).Returns hash :=
  ⟨rfl, _, rfl⟩

theorem searched_once_two : ∃ s,
    (sampleFinder 0 fun _ _ => 0).findNodes 1 [(0, sampleHash 0), (1, sampleHash 1)] noSearches =
      .ok s ∧ s.requests = [] ∧ ∀ hash, searchesFor s hash ≤ 1 := by
  have hhashes : ([(0, sampleHash 0), (1, sampleHash 1)].map Prod.snd).Nodup := by decide
  obtain ⟨-, hcalls⟩ := searched_once_iff (sampleFinder 0 fun _ _ => 0)
    [(0, sampleHash 0), (1, sampleHash 1)] (by decide)
  obtain ⟨s, hs⟩ := findNodes_of_returns
    (fun call _ => sampleFinder_returns call.2) 0 noSearches
  obtain ⟨hrequests, hone⟩ := (hcalls 0).1 s hs
  exact ⟨s, hs, hrequests, hone.mpr hhashes⟩

/-- A table without nodes is searched for one hash twice, with `alpha` 0. -/
theorem searched_twice : ∃ s,
    (sampleFinder 0 fun _ _ => 0).findNodes 1 [(0, sampleHash 0), (1, sampleHash 0)] noSearches =
      .ok s ∧ searchesFor s (sampleHash 0) = 2 := by
  have hptr : (([] : List (HashPtr × Hash)).map Prod.fst ++
      [(0, sampleHash 0), (1, sampleHash 0)].map Prod.fst).Nodup := by decide
  rcases made_nil.findNodes (f := sampleFinder 0 fun _ _ => 0) hptr 0 with
    ⟨s, hs, hmade⟩ | ⟨-, -, -, call, -, -, -, -, hlast, -⟩
  · exact ⟨s, hs, hmade.count _⟩
  · exact absurd (sampleFinder_returns call.2) hlast

end Calls

end Finder

end P2PNet.DHT
