import Mathlib.Data.List.Perm.Basic
import Mathlib.Tactic.TypeStar

/-! Asynchronous waits on timers. Cancelling or re-arming a timer aborts its
pending waits, but not those whose handlers are queued already because the timer
has expired. -/

namespace P2PNet.Lib

inductive WaitState where
  | pending
  | expired
  | aborted
  deriving DecidableEq, Repr

structure Wait (τ η : Type*) where
  timer : τ
  handler : η
  state : WaitState
  deriving DecidableEq, Repr

namespace Wait

open scoped List

variable {τ η : Type*}

def abort (w : Wait τ η) : Wait τ η :=
  if w.state = .pending then { w with state := .aborted } else w

def cancel [DecidableEq τ] (timer : τ) (waits : List (Wait τ η)) : List (Wait τ η) :=
  waits.map (fun w => if w.timer = timer then w.abort else w)

def asyncWait (timer : τ) (handler : η) (waits : List (Wait τ η)) : List (Wait τ η) :=
  waits ++ [⟨timer, handler, .pending⟩]

def rearm [DecidableEq τ] (timer : τ) (handler : η) (waits : List (Wait τ η)) :
    List (Wait τ η) :=
  asyncWait timer handler (cancel timer waits)

def expire (k : ℕ) (waits : List (Wait τ η)) : Option (List (Wait τ η)) :=
  match waits[k]? with
  | some w => if w.state = .pending then some (waits.set k { w with state := .expired }) else none
  | none => none

def take (k : ℕ) (waits : List (Wait τ η)) : Option (Wait τ η × List (Wait τ η)) :=
  match waits[k]? with
  | some w => if w.state = .pending then none else some (w, waits.eraseIdx k)
  | none => none

lemma expire_eq_some_iff {k : ℕ} {waits waits' : List (Wait τ η)} :
    expire k waits = some waits' ↔ ∃ w, waits[k]? = some w ∧ w.state = .pending ∧
      waits' = waits.set k { w with state := .expired } := by
  rw [expire]
  cases hw : waits[k]? with
  | none => simp
  | some w => simp [eq_comm]

lemma take_eq_some_iff {k : ℕ} {waits rest : List (Wait τ η)} {w : Wait τ η} :
    take k waits = some (w, rest) ↔
      waits[k]? = some w ∧ w.state ≠ .pending ∧ rest = waits.eraseIdx k := by
  rw [take]
  cases hw : waits[k]? with
  | none => simp
  | some v =>
    by_cases hpending : v.state = .pending
    · simp only [hpending, if_true, Option.some.injEq]
      constructor
      · intro h
        cases h
      · rintro ⟨rfl, hne, _⟩
        exact absurd hpending hne
    · simp only [hpending, if_false, Option.some.injEq, Prod.mk.injEq]
      constructor
      · rintro ⟨rfl, rfl⟩
        exact ⟨rfl, hpending, rfl⟩
      · rintro ⟨rfl, _, rfl⟩
        exact ⟨rfl, rfl⟩

section Live

/-- The waits that have not been aborted: their handlers report no error. -/
def live (waits : List (Wait τ η)) : List (Wait τ η) := waits.filter (fun w => w.state ≠ .aborted)

def pendingOn [DecidableEq τ] (timer : τ) (waits : List (Wait τ η)) : List (Wait τ η) :=
  waits.filter (fun w => w.timer = timer ∧ w.state = .pending)

lemma live_cons (w : Wait τ η) (waits : List (Wait τ η)) :
    live (w :: waits) = if w.state = .aborted then live waits else w :: live waits := by
  rw [live, List.filter_cons]
  by_cases hw : w.state = .aborted
  · simp [hw, live]
  · simp [hw, live]

lemma pendingOn_cons [DecidableEq τ] (timer : τ) (w : Wait τ η) (waits : List (Wait τ η)) :
    pendingOn timer (w :: waits) =
      if w.timer = timer ∧ w.state = .pending then w :: pendingOn timer waits
      else pendingOn timer waits := by
  rw [pendingOn, List.filter_cons]
  by_cases hw : w.timer = timer ∧ w.state = .pending
  · simp [hw, pendingOn]
  · simp only [decide_eq_true_eq, if_neg hw, pendingOn]

lemma live_cancel_perm [DecidableEq τ] (timer : τ) (waits : List (Wait τ η)) :
    (live (cancel timer waits) ++ pendingOn timer waits).Perm (live waits) := by
  induction waits with
  | nil => exact .refl _
  | cons w waits ih =>
    rw [cancel, List.map_cons, ← cancel, live_cons, live_cons, pendingOn_cons]
    by_cases ht : w.timer = timer
    · cases hstate : w.state with
      | pending =>
        -- an aborted wait leaves the one list for the other
        simpa [ht, hstate, abort] using List.perm_middle.trans (ih.cons w)
      | expired => simpa [ht, hstate, abort] using ih.cons w
      | aborted => simpa [ht, hstate, abort] using ih
    · by_cases hstate : w.state = .aborted
      · simpa [ht, hstate] using ih
      · simpa [ht, hstate] using ih.cons w

lemma live_rearm_perm [DecidableEq τ] (timer : τ) (handler : η) (waits : List (Wait τ η)) :
    ((live (rearm timer handler waits)).map Wait.handler ++
      (pendingOn timer waits).map Wait.handler).Perm
        ((live waits).map Wait.handler ++ [handler]) := by
  have hnew : live (rearm timer handler waits) =
      live (cancel timer waits) ++ [⟨timer, handler, .pending⟩] := by
    simp [rearm, asyncWait, live, List.filter_append]
  have hcancel := (live_cancel_perm timer waits).map Wait.handler
  rw [List.map_append] at hcancel
  calc _ = (live (cancel timer waits)).map Wait.handler ++
        ([handler] ++ (pendingOn timer waits).map Wait.handler) := by
        rw [hnew, List.map_append, List.append_assoc]
        rfl
    _ ~ (live (cancel timer waits)).map Wait.handler ++
        ((pendingOn timer waits).map Wait.handler ++ [handler]) :=
        List.perm_append_comm.append_left _
    _ ~ (live waits).map Wait.handler ++ [handler] := by
        rw [← List.append_assoc]
        exact hcancel.append_right _

lemma live_expire {k : ℕ} {waits waits' : List (Wait τ η)} (h : expire k waits = some waits') :
    (live waits').map Wait.handler = (live waits).map Wait.handler := by
  obtain ⟨w, hw, hpending, rfl⟩ := expire_eq_some_iff.mp h
  clear h
  induction waits generalizing k with
  | nil => cases hw
  | cons v waits ih =>
    cases k with
    | zero =>
      obtain rfl := Option.some.inj hw
      rw [List.set_cons_zero, live_cons, live_cons]
      simp [hpending]
    | succ k =>
      rw [List.set_cons_succ, live_cons, live_cons]
      split
      · exact ih hw
      · rw [List.map_cons, List.map_cons, ih hw]

/-- A wait that expires and whose handler runs at once. -/
lemma take_of_expire {k : ℕ} {waits waits' : List (Wait τ η)} (h : expire k waits = some waits') :
    ∃ w, waits[k]? = some w ∧ w.state = .pending ∧
      waits'[k]? = some { w with state := .expired } ∧
      take k waits' = some ({ w with state := .expired }, waits.eraseIdx k) := by
  obtain ⟨w, hw, hpending, rfl⟩ := expire_eq_some_iff.mp h
  obtain ⟨hk, _⟩ := List.getElem?_eq_some_iff.mp hw
  have hset : (waits.set k { w with state := .expired })[k]? =
      some { w with state := .expired } := by
    rw [List.getElem?_set_self hk]
  refine ⟨w, hw, hpending, hset, take_eq_some_iff.mpr ⟨hset, by simp, ?_⟩⟩
  rw [List.eraseIdx_set_eq]

lemma live_take_perm {k : ℕ} {waits rest : List (Wait τ η)} {w : Wait τ η}
    (h : take k waits = some (w, rest)) : (live (w :: rest)).Perm (live waits) := by
  obtain ⟨hw, _, rfl⟩ := take_eq_some_iff.mp h
  obtain ⟨hk, rfl⟩ := List.getElem?_eq_some_iff.mp hw
  exact (List.getElem_cons_eraseIdx_perm hk).filter _

end Live

section Orderly

def abortIf (q : τ → Bool) (waits : List (Wait τ η)) : List (Wait τ η) :=
  waits.map (fun w => if q w.timer then w.abort else w)

@[simp] lemma timer_abort (w : Wait τ η) : w.abort.timer = w.timer := by
  rw [abort]
  split <;> rfl

@[simp] lemma handler_abort (w : Wait τ η) : w.abort.handler = w.handler := by
  rw [abort]
  split <;> rfl

lemma state_abort_ne_pending (w : Wait τ η) : w.abort.state ≠ .pending := by
  rw [abort]
  split
  · simp
  · assumption

lemma state_abort_ne_expired {w : Wait τ η} (h : w.state ≠ .expired) :
    w.abort.state ≠ .expired := by
  rw [abort]
  split
  · simp
  · exact h

lemma of_mem_abortIf {q : τ → Bool} {waits : List (Wait τ η)} {w : Wait τ η}
    (h : w ∈ abortIf q waits) : ∃ v ∈ waits, w = v ∨ w = v.abort := by
  obtain ⟨v, hv, rfl⟩ := List.mem_map.mp h
  refine ⟨v, hv, ?_⟩
  split
  · exact Or.inr rfl
  · exact Or.inl rfl

variable [DecidableEq τ]

lemma cancel_eq_abortIf (timer : τ) (waits : List (Wait τ η)) :
    cancel timer waits = abortIf (· = timer) waits := by
  simp [cancel, abortIf]

lemma pendingOn_abortIf (q : τ → Bool) (timer : τ) (waits : List (Wait τ η)) :
    pendingOn timer (abortIf q waits) = if q timer then [] else pendingOn timer waits := by
  induction waits with
  | nil => simp [abortIf, pendingOn]
  | cons w waits ih =>
    rw [abortIf, List.map_cons, ← abortIf, pendingOn_cons, pendingOn_cons, ih]
    by_cases ht : w.timer = timer
    · by_cases hq : q timer = true
      · simp [ht, hq, state_abort_ne_pending]
      · simp [ht, hq]
    · by_cases hq : q w.timer = true
      · simp [ht, hq]
      · simp [ht, hq]

lemma pendingOn_cancel (timer other : τ) (waits : List (Wait τ η)) :
    pendingOn timer (cancel other waits) = if timer = other then [] else pendingOn timer waits := by
  rw [cancel_eq_abortIf, pendingOn_abortIf]
  simp

lemma pendingOn_rearm (timer other : τ) (handler : η) (waits : List (Wait τ η)) :
    pendingOn timer (rearm other handler waits) =
      if timer = other then [⟨other, handler, .pending⟩] else pendingOn timer waits := by
  have hnew : pendingOn timer (rearm other handler waits) =
      pendingOn timer (cancel other waits) ++ pendingOn timer [⟨other, handler, .pending⟩] := by
    rw [rearm, asyncWait, pendingOn, List.filter_append]
    rfl
  rw [hnew, pendingOn_cancel]
  by_cases ht : timer = other
  · simp [ht, pendingOn]
  · simp [ht, pendingOn, Ne.symm ht]

lemma pendingOn_rearm_ne_nil {timer other : τ} {handler : η} {waits : List (Wait τ η)} :
    pendingOn timer (rearm other handler waits) ≠ [] ↔
      timer = other ∨ pendingOn timer waits ≠ [] := by
  rw [pendingOn_rearm]
  split
  · next ht => simp [ht]
  · next ht => simp [ht]

lemma pendingOn_eraseIdx_perm {k : ℕ} {waits : List (Wait τ η)} {w : Wait τ η}
    (h : waits[k]? = some w) (timer : τ) :
    (pendingOn timer (w :: waits.eraseIdx k)).Perm (pendingOn timer waits) := by
  obtain ⟨hk, rfl⟩ := List.getElem?_eq_some_iff.mp h
  exact (List.getElem_cons_eraseIdx_perm hk).filter _

/-- Timers in `P`, each with the handler that `f` gives it and with one pending wait at most,
where every handler has run as soon as its timer expired. -/
structure Orderly (P : τ → Prop) (f : τ → η) (waits : List (Wait τ η)) : Prop where
  timers : ∀ w ∈ waits, P w.timer
  handlers : ∀ w ∈ waits, w.handler = f w.timer
  settled : ∀ w ∈ waits, w.state ≠ .expired
  single : ∀ timer, (pendingOn timer waits).length ≤ 1

variable {P : τ → Prop} {f : τ → η} {waits : List (Wait τ η)}

lemma Orderly.nil : Orderly P f [] :=
  ⟨by simp, by simp, by simp, fun _ => Nat.zero_le _⟩

lemma Orderly.mono {Q : τ → Prop} (h : Orderly P f waits) (hPQ : ∀ t, P t → Q t) :
    Orderly Q f waits :=
  ⟨fun w hw => hPQ _ (h.timers w hw), h.handlers, h.settled, h.single⟩

lemma Orderly.abortIf (h : Orderly P f waits) (q : τ → Bool) : Orderly P f (abortIf q waits) := by
  refine ⟨fun w hw => ?_, fun w hw => ?_, fun w hw => ?_, fun timer => ?_⟩
  · obtain ⟨v, hv, rfl | rfl⟩ := of_mem_abortIf hw
    · exact h.timers _ hv
    · rw [timer_abort]
      exact h.timers v hv
  · obtain ⟨v, hv, rfl | rfl⟩ := of_mem_abortIf hw
    · exact h.handlers _ hv
    · rw [timer_abort, handler_abort]
      exact h.handlers v hv
  · obtain ⟨v, hv, rfl | rfl⟩ := of_mem_abortIf hw
    · exact h.settled _ hv
    · exact state_abort_ne_expired (h.settled v hv)
  · rw [pendingOn_abortIf]
    split
    · exact Nat.zero_le _
    · exact h.single timer

lemma Orderly.cancel (h : Orderly P f waits) (timer : τ) : Orderly P f (cancel timer waits) :=
  cancel_eq_abortIf timer waits ▸ h.abortIf _

lemma Orderly.rearm (h : Orderly P f waits) {timer : τ} (ht : P timer) :
    Orderly P f (rearm timer (f timer) waits) := by
  have hmem : ∀ w ∈ Wait.rearm timer (f timer) waits,
      w ∈ Wait.cancel timer waits ∨ w = ⟨timer, f timer, .pending⟩ := by
    intro w hw
    rcases List.mem_append.mp hw with hw | hw
    · exact Or.inl hw
    · exact Or.inr (List.mem_singleton.mp hw)
  have hcancel := h.cancel timer
  refine ⟨fun w hw => ?_, fun w hw => ?_, fun w hw => ?_, fun other => ?_⟩
  · rcases hmem w hw with hw | rfl
    · exact hcancel.timers w hw
    · exact ht
  · rcases hmem w hw with hw | rfl
    · exact hcancel.handlers w hw
    · rfl
  · rcases hmem w hw with hw | rfl
    · exact hcancel.settled w hw
    · simp
  · rw [pendingOn_rearm]
    split
    · exact Nat.le_refl _
    · exact h.single other

lemma Orderly.eraseIdx (h : Orderly P f waits) (k : ℕ) : Orderly P f (waits.eraseIdx k) := by
  have hsub : waits.eraseIdx k ⊆ waits := List.eraseIdx_subset
  refine ⟨fun w hw => h.timers w (hsub hw), fun w hw => h.handlers w (hsub hw),
    fun w hw => h.settled w (hsub hw), fun timer => ?_⟩
  exact Nat.le_trans ((List.eraseIdx_sublist waits k).filter _).length_le (h.single timer)

/-- A wait that is taken out of the list was the only one pending on its timer. -/
lemma Orderly.pendingOn_eraseIdx (h : Orderly P f waits) {k : ℕ} {w : Wait τ η}
    (hw : waits[k]? = some w) (timer : τ) :
    pendingOn timer (waits.eraseIdx k) ≠ [] ↔
      pendingOn timer waits ≠ [] ∧ ¬(timer = w.timer ∧ w.state = .pending) := by
  have hperm := (pendingOn_eraseIdx_perm hw timer).length_eq
  have hsingle := h.single timer
  rw [← List.length_pos_iff, ← List.length_pos_iff]
  rw [pendingOn_cons] at hperm
  by_cases hw' : w.timer = timer ∧ w.state = .pending
  · rw [if_pos hw', List.length_cons] at hperm
    have hnot : ¬¬(timer = w.timer ∧ w.state = .pending) := not_not_intro ⟨hw'.1.symm, hw'.2⟩
    constructor
    · intro hpos
      omega
    · exact fun hpos => absurd hpos.2 hnot
  · rw [if_neg hw'] at hperm
    rw [hperm]
    exact ⟨fun hpos => ⟨hpos, fun he => hw' ⟨he.1.symm, he.2⟩⟩, fun hpos => hpos.1⟩

end Orderly

end Wait

end P2PNet.Lib
