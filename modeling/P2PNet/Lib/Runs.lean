import Mathlib.Algebra.Ring.Nat
import Mathlib.Data.List.Basic
import Mathlib.Tactic.TypeStar

/-! Runs of a step function that may fail, with the rules by which a property
of single steps becomes a property of whole runs. -/

namespace P2PNet.Lib.Runs

universe u

variable {σ ι ε : Type*}

lemma bind_ok_iff {α β : Type u} {m : Except ε α} {k : α → Except ε β} {y : β} :
    m >>= k = .ok y ↔ ∃ x, m = .ok x ∧ k x = .ok y := by
  rcases m with e | x
  · constructor
    · intro h
      cases h
    · rintro ⟨_, h, _⟩
      cases h
  · exact ⟨fun h => ⟨x, rfl, h⟩, fun ⟨_, hx, h⟩ => Except.ok.inj hx ▸ h⟩

lemma bind_error_iff {α β : Type u} {m : Except ε α} {k : α → Except ε β} {e : ε} :
    m >>= k = .error e ↔ m = .error e ∨ ∃ x, m = .ok x ∧ k x = .error e := by
  rcases m with e' | x
  · constructor
    · intro h
      exact .inl (congrArg Except.error (Except.error.inj h))
    · rintro (h | ⟨_, h, _⟩)
      · rw [h]
        rfl
      · cases h
  · constructor
    · intro h
      exact .inr ⟨x, rfl, h⟩
    · rintro (h | ⟨_, hx, h⟩)
      · cases h
      · rw [hx]
        exact h

lemma ok_bind {α β : Type u} (x : α) (k : α → Except ε β) : (Except.ok x >>= k) = k x := rfl

lemma ok_of_toOption {α : Type u} {m : Except ε α} {x : α} (h : m.toOption = some x) :
    m = .ok x := by
  cases m with
  | error e => cases h
  | ok y => exact congrArg _ (Option.some.inj h)

lemma exists_map_ok_iff {α β : Type u} {m : Except ε α} {f : α → β} :
    (∃ y, (m >>= fun x => .ok (f x)) = .ok y) ↔ ∃ x, m = .ok x := by
  constructor
  · rintro ⟨y, hy⟩
    obtain ⟨x, hx, _⟩ := bind_ok_iff.mp hy
    exact ⟨x, hx⟩
  · rintro ⟨x, rfl⟩
    exact ⟨f x, rfl⟩

def run (step : σ → ι → Except ε σ) : σ → List ι → Except ε σ
  | s, [] => .ok s
  | s, i :: is => step s i >>= fun t => run step t is

variable {step : σ → ι → Except ε σ}

lemma run_cons {s t : σ} {i : ι} {is : List ι} :
    run step s (i :: is) = .ok t ↔ ∃ u, step s i = .ok u ∧ run step u is = .ok t :=
  bind_ok_iff

/-- Every step of the run is taken in a state in which `C` allows it. -/
def Guarded (step : σ → ι → Except ε σ) (C : σ → ι → Prop) : σ → List ι → Prop
  | _, [] => True
  | s, i :: is => C s i ∧ ∀ t, step s i = .ok t → Guarded step C t is

instance decidableGuarded {C : σ → ι → Prop} [∀ s i, Decidable (C s i)] :
    ∀ s is, Decidable (Guarded step C s is)
  | _, [] => isTrue trivial
  | s, i :: is =>
    match h : step s i with
    | .ok t =>
      have : Decidable (Guarded step C t is) := decidableGuarded t is
      decidable_of_iff (C s i ∧ Guarded step C t is) (by simp [Guarded, h])
    | .error e => decidable_of_iff (C s i) (by simp [Guarded, h])

lemma guarded_of_forall {C : σ → ι → Prop} {s : σ} {is : List ι}
    (h : ∀ i ∈ is, ∀ t, C t i) : Guarded step C s is := by
  induction is generalizing s with
  | nil => trivial
  | cons i is ih =>
    exact ⟨h i (by simp) s, fun t _ => ih (fun j hj => h j (List.mem_cons_of_mem _ hj))⟩

lemma guarded_imp {C D : σ → ι → Prop} (h : ∀ s i, C s i → D s i) {s : σ} {is : List ι}
    (hc : Guarded step C s is) : Guarded step D s is := by
  induction is generalizing s with
  | nil => trivial
  | cons i is ih => exact ⟨h s i hc.1, fun t ht => ih (hc.2 t ht)⟩

lemma guarded_congr {J : σ → Prop} {C D : σ → ι → Prop}
    (hJ : ∀ s i t, J s → step s i = .ok t → J t) (h : ∀ s i, J s → (C s i ↔ D s i)) {s : σ}
    {is : List ι} (hs : J s) : Guarded step C s is ↔ Guarded step D s is := by
  induction is generalizing s with
  | nil => exact .rfl
  | cons i is ih =>
    exact and_congr (h s i hs) (forall₂_congr fun t ht => ih (hJ s i t hs ht))

lemma run_append {s t u : σ} {is js : List ι} (hs : run step s is = .ok t)
    (ht : run step t js = .ok u) : run step s (is ++ js) = .ok u := by
  induction is generalizing s with
  | nil =>
    obtain rfl := Except.ok.inj hs
    exact ht
  | cons i is ih =>
    obtain ⟨v, hv, hrest⟩ := run_cons.mp hs
    exact run_cons.mpr ⟨v, hv, ih hrest⟩

lemma guarded_append {C : σ → ι → Prop} {s t : σ} {is js : List ι} (his : Guarded step C s is)
    (hs : run step s is = .ok t) (hjs : Guarded step C t js) : Guarded step C s (is ++ js) := by
  induction is generalizing s with
  | nil =>
    obtain rfl := Except.ok.inj hs
    exact hjs
  | cons i is ih =>
    obtain ⟨v, hv, hrest⟩ := run_cons.mp hs
    refine ⟨his.1, fun u hu => ?_⟩
    obtain rfl := Except.ok.inj (hv.symm.trans hu)
    exact ih (his.2 v hv) hrest

theorem guarded_invariant {I : σ → Prop} {C : σ → ι → Prop}
    (hstep : ∀ s i t, I s → C s i → step s i = .ok t → I t) {s t : σ} {is : List ι}
    (hs : I s) (hc : Guarded step C s is) (h : run step s is = .ok t) : I t := by
  induction is generalizing s with
  | nil =>
    obtain rfl := Except.ok.inj h
    exact hs
  | cons i is ih =>
    obtain ⟨u, hu, hrest⟩ := run_cons.mp h
    exact ih (hstep s i u hs hc.1 hu) (hc.2 u hu) hrest

theorem invariant {I : σ → Prop} (hstep : ∀ s i t, I s → step s i = .ok t → I t)
    {s t : σ} {is : List ι} (hs : I s) (h : run step s is = .ok t) : I t :=
  guarded_invariant (C := fun _ _ => True) (fun s i t hi _ => hstep s i t hi) hs
    (guarded_of_forall (fun _ _ _ => trivial)) h

/-- `G` holds in every state that the run comes to, the first one included. -/
def Always (step : σ → ι → Except ε σ) (G : σ → Prop) : σ → List ι → Prop
  | s, [] => G s
  | s, i :: is => G s ∧ ∀ t, step s i = .ok t → Always step G t is

lemma always_head {G : σ → Prop} {s : σ} {is : List ι} (h : Always step G s is) : G s := by
  cases is with
  | nil => exact h
  | cons i is => exact h.1

theorem always_of_guarded {G I : σ → Prop} {C : σ → ι → Prop} (hG : ∀ s, I s → G s)
    (hstep : ∀ s i t, I s → C s i → step s i = .ok t → I t) {s : σ} {is : List ι}
    (hs : I s) (hc : Guarded step C s is) : Always step G s is := by
  induction is generalizing s with
  | nil => exact hG s hs
  | cons i is ih => exact ⟨hG s hs, fun t ht => ih (hstep s i t hs hc.1 ht) (hc.2 t ht)⟩

/-- If in the states of `I` a step needs `C` to come to `G`, and with `C` comes to `I`
again, then a run is in `G` always exactly when it is guarded by `C`. -/
theorem always_iff_guarded {G I : σ → Prop} {C : σ → ι → Prop} (hG : ∀ s, I s → G s)
    (hkeep : ∀ s i t, I s → C s i → step s i = .ok t → I t)
    (hneed : ∀ s i, I s → (∀ t, step s i = .ok t → G t) → C s i) {s : σ} {is : List ι}
    (hs : I s) : Always step G s is ↔ Guarded step C s is := by
  refine ⟨fun h => ?_, always_of_guarded hG hkeep hs⟩
  induction is generalizing s with
  | nil => trivial
  | cons i is ih =>
    have hc : C s i := hneed s i hs fun t ht => always_head (h.2 t ht)
    exact ⟨hc, fun t ht => ih (hkeep s i t hs hc ht) (h.2 t ht)⟩

/-- Progress and preservation: a run that is guarded by `C` returns, and ends in `I`. -/
theorem returns_of_guarded {I : σ → Prop} {C : σ → ι → Prop} {D : ι → Prop}
    (hstep : ∀ s i, D i → I s → C s i → ∃ t, step s i = .ok t ∧ I t) {s : σ} {is : List ι}
    (hD : ∀ i ∈ is, D i) (hs : I s) (hc : Guarded step C s is) :
    ∃ t, run step s is = .ok t ∧ I t := by
  induction is generalizing s with
  | nil => exact ⟨s, rfl, hs⟩
  | cons i is ih =>
    obtain ⟨hi, his⟩ := List.forall_mem_cons.mp hD
    obtain ⟨u, hu, hI⟩ := hstep s i hi hs hc.1
    obtain ⟨t, ht, hIt⟩ := ih his hI (hc.2 u hu)
    exact ⟨t, run_cons.mpr ⟨u, hu, ht⟩, hIt⟩

/-- If in the states of `I` exactly the steps that `C` allows return, a run returns
exactly when it is guarded by `C`. -/
theorem returns_iff_guarded {I : σ → Prop} {C : σ → ι → Prop} {D : ι → Prop}
    (hkeep : ∀ s i t, D i → I s → step s i = .ok t → I t)
    (hstep : ∀ s i, D i → I s → ((∃ t, step s i = .ok t) ↔ C s i)) {s : σ} {is : List ι}
    (hD : ∀ i ∈ is, D i) (hs : I s) : (∃ t, run step s is = .ok t) ↔ Guarded step C s is := by
  constructor
  · rintro ⟨t, ht⟩
    induction is generalizing s with
    | nil => trivial
    | cons i is ih =>
      obtain ⟨hi, his⟩ := List.forall_mem_cons.mp hD
      obtain ⟨u, hu, hrest⟩ := run_cons.mp ht
      refine ⟨(hstep s i hi hs).mp ⟨u, hu⟩, fun v hv => ?_⟩
      obtain rfl := Except.ok.inj (hu.symm.trans hv)
      exact ih his (hkeep s i u hi hs hu) hrest
  · intro hc
    obtain ⟨t, ht, _⟩ := returns_of_guarded (D := D) (fun s i hi hI hci => by
      obtain ⟨t, ht⟩ := (hstep s i hi hI).mpr hci
      exact ⟨t, ht, hkeep s i t hi hI ht⟩) hD hs hc
    exact ⟨t, ht⟩

/-- A relation that every step of the one machine keeps by a step of the other is kept
by runs. -/
theorem run_simulation {τ κ ε' : Type*} {step' : τ → κ → Except ε' τ} {R : σ → τ → Prop}
    {f : ι → κ} (hstep : ∀ s i s' t, R s t → step s i = .ok s' →
      ∃ t', step' t (f i) = .ok t' ∧ R s' t') {s s' : σ} {t : τ} {is : List ι} (hs : R s t)
    (h : run step s is = .ok s') : ∃ t', run step' t (is.map f) = .ok t' ∧ R s' t' := by
  induction is generalizing s t with
  | nil =>
    obtain rfl := Except.ok.inj h
    exact ⟨t, rfl, hs⟩
  | cons i is ih =>
    obtain ⟨u, hu, hrest⟩ := run_cons.mp h
    obtain ⟨v, hv, huv⟩ := hstep s i u t hs hu
    obtain ⟨t', ht', hR⟩ := ih huv hrest
    exact ⟨t', run_cons.mpr ⟨v, hv, ht'⟩, hR⟩

/-- A relation that every guarded step of the one machine keeps by some guarded steps of the
other, or by none, is kept by runs. -/
theorem guarded_simulation {τ κ ε' : Type*} {step' : τ → κ → Except ε' τ} {R : σ → τ → Prop}
    {C : σ → ι → Prop} {D : τ → κ → Prop} (hstep : ∀ s i s' t, R s t → C s i → step s i = .ok s' →
      ∃ js t', Guarded step' D t js ∧ run step' t js = .ok t' ∧ R s' t') {s s' : σ} {t : τ}
    {is : List ι} (hs : R s t) (hc : Guarded step C s is) (h : run step s is = .ok s') :
    ∃ js t', Guarded step' D t js ∧ run step' t js = .ok t' ∧ R s' t' := by
  induction is generalizing s t with
  | nil =>
    obtain rfl := Except.ok.inj h
    exact ⟨[], t, trivial, rfl, hs⟩
  | cons i is ih =>
    obtain ⟨u, hu, hrest⟩ := run_cons.mp h
    obtain ⟨js, v, hjs, hv, huv⟩ := hstep s i u t hs hc.1 hu
    obtain ⟨ks, t', hks, ht', hR⟩ := ih huv (hc.2 u hu) hrest
    exact ⟨js ++ ks, t', guarded_append hjs hv hks, run_append hv ht', hR⟩

/-- An invariant that speaks of the inputs so far, the last one first. -/
theorem history_invariant {I : List ι → σ → Prop}
    (hstep : ∀ past s i t, I past s → step s i = .ok t → I (i :: past) t) {s t : σ}
    {past is : List ι} (hs : I past s) (h : run step s is = .ok t) : I (is.reverse ++ past) t := by
  induction is generalizing s past with
  | nil =>
    obtain rfl := Except.ok.inj h
    exact hs
  | cons i is ih =>
    obtain ⟨u, hu, hrest⟩ := run_cons.mp h
    rw [List.reverse_cons, List.append_assoc]
    exact ih (hstep past s i u hs hu) hrest

/-- An invariant that speaks of the inputs so far, in order. -/
theorem past_invariant {I : List ι → σ → Prop}
    (hstep : ∀ past s i t, I past s → step s i = .ok t → I (past ++ [i]) t) {s t : σ}
    {past is : List ι} (hs : I past s) (h : run step s is = .ok t) : I (past ++ is) t := by
  have hs' : I past.reverse.reverse s := by rwa [List.reverse_reverse]
  have hrev := history_invariant (I := fun rev => I rev.reverse)
    (fun rev s i t hI hi => by rw [List.reverse_cons]; exact hstep _ s i t hI hi) hs' h
  rwa [List.reverse_append, List.reverse_reverse, List.reverse_reverse] at hrev

/-- Where `I` ties the state to the inputs so far, and makes `G` of the state a property of
these inputs, a run that returns is in `G` always exactly if its beginnings have the property. -/
theorem always_iff_history {I : List ι → σ → Prop} {G : σ → Prop} {P : List ι → Prop}
    (hstep : ∀ past s i t, I past s → step s i = .ok t → I (past ++ [i]) t)
    (hG : ∀ past s, I past s → (G s ↔ P past)) {s t : σ} {past is : List ι} (hs : I past s)
    (h : run step s is = .ok t) :
    Always step G s is ↔ ∀ before after, is = before ++ after → P (past ++ before) := by
  induction is generalizing s past with
  | nil =>
    rw [Always, hG past s hs]
    constructor
    · intro hP before after hsplit
      rw [(List.append_eq_nil_iff.mp hsplit.symm).1, List.append_nil]
      exact hP
    · intro hP
      simpa using hP [] [] rfl
  | cons i is ih =>
    obtain ⟨u, hu, hrest⟩ := run_cons.mp h
    have hlater := ih (hstep past s i u hs hu) hrest
    constructor
    · rintro ⟨hnow, hnext⟩ before after hsplit
      cases before with
      | nil => simpa using (hG past s hs).mp hnow
      | cons j before =>
        obtain ⟨rfl, rfl⟩ := List.cons.inj hsplit
        simpa using hlater.mp (hnext u hu) before after rfl
    · intro hP
      refine ⟨(hG past s hs).mpr (by simpa using hP [] (i :: is) rfl), fun v hv => ?_⟩
      obtain rfl : u = v := Except.ok.inj (hu.symm.trans hv)
      refine hlater.mpr fun before after hsplit => ?_
      simpa using hP (i :: before) after (by rw [hsplit, List.cons_append])

/-- What is seen of the state is changed by the visible inputs only, so a run looks like the
visible part of its inputs. -/
theorem run_view {ω : Type*} {view : σ → ω} {visible : ι → Bool} {act : ω → ι → ω}
    (hstep : ∀ s i t, step s i = .ok t →
      view t = if visible i then act (view s) i else view s) {s t : σ} {is : List ι}
    (h : run step s is = .ok t) : view t = (is.filter visible).foldl act (view s) := by
  induction is generalizing s with
  | nil =>
    obtain rfl := Except.ok.inj h
    rfl
  | cons i is ih =>
    obtain ⟨u, hu, hrest⟩ := run_cons.mp h
    rw [ih hrest, hstep s i u hu, List.filter_cons]
    split
    · rfl
    · rfl

/-- If the cost of every step is paid from the potential of the state and the income of the
step, then the cost of a run is paid from the first potential and the income of the run. -/
theorem run_potential {potential : σ → ℕ} {cost income : ι → ℕ}
    (hstep : ∀ s i t, step s i = .ok t → cost i + potential t ≤ potential s + income i) {s t : σ}
    {is : List ι} (h : run step s is = .ok t) :
    (is.map cost).sum + potential t ≤ potential s + (is.map income).sum := by
  induction is generalizing s with
  | nil =>
    obtain rfl := Except.ok.inj h
    simp
  | cons i is ih =>
    obtain ⟨u, hu, hrest⟩ := run_cons.mp h
    have hfirst := hstep s i u hu
    have hothers := ih hrest
    rw [List.map_cons, List.map_cons, List.sum_cons, List.sum_cons]
    omega

end P2PNet.Lib.Runs
