import P2PNet.Overlay.KeyHistory

/-! The rotation signal of `KeyProvider`. `renewKeys` runs on a thread of its own,
which `loopGenerate` joins before it starts the next one. The handler that it
dispatches is queued for the thread of the io_service. It holds `new_info` by
reference and takes the front of the history when it runs, which can be at any
point of this renewal or of a later one. -/

namespace P2PNet.Overlay

open Lib.Runs

inductive RenewalPhase where
  | generated
  | dispatched
  | pushed
  deriving DecidableEq, Repr

/-- A `renewKeys` that has not returned. -/
structure RenewalFrame (C : Crypto) where
  index : ℕ
  renewal : Renewal C
  phase : RenewalPhase

/-- A queued handler refers to the `new_info` of one renewal. The key that was current before
this renewal and the one generated by it are kept for comparison, no code reads them here. -/
structure RotationHandler (C : Crypto) where
  index : ℕ
  previous : KeyInfo C
  generated : KeyInfo C

/-- A run of a handler, with the arguments of the signal. There are none if `new_info` was gone
or the history empty. -/
structure RotationCall (C : Crypto) where
  handler : RotationHandler C
  arguments : Option (KeyInfo C × KeyInfo C)

structure Rotating (C : Crypto) where
  keys : KeyProvider C
  frame : Option (RenewalFrame C)
  renewals : ℕ
  queue : List (RotationHandler C)
  calls : List (RotationCall C)

inductive RotationEvent (C : Crypto) where
  | generate (r : Renewal C)
  | dispatch
  | push
  | finish
  | handler (k : ℕ)

namespace Rotating

variable {C : Crypto}

def new : Rotating C := ⟨.empty, none, 0, [], []⟩

def generated (settings : KeySettings) (f : RenewalFrame C) : KeyInfo C :=
  KeyProvider.newInfo settings f.renewal.now f.renewal.key

def arguments (settings : KeySettings) (s : Rotating C) (h : RotationHandler C) :
    Option (KeyInfo C × KeyInfo C) :=
  match s.keys.history.head?, s.frame with
  | some front, some f => if f.index = h.index then some (front, generated settings f) else none
  | _, _ => none

def step (settings : KeySettings) (s : Rotating C) : RotationEvent C → Except Escape (Rotating C)
  | .generate r =>
    match s.frame with
    | none => .ok { s with frame := some ⟨s.renewals, r, .generated⟩, renewals := s.renewals + 1 }
    | some _ => .error .disabled
  | .dispatch =>
    match s.frame with
    | some ⟨index, r, .generated⟩ => .ok { s with
        frame := some ⟨index, r, .dispatched⟩
        queue :=
          match s.keys.history.head? with
          | none => s.queue
          | some front =>
            s.queue ++ [⟨index, front, generated settings ⟨index, r, .generated⟩⟩] }
    | _ => .error .disabled
  | .push =>
    match s.frame with
    | some ⟨index, r, .dispatched⟩ => .ok { s with
        frame := some ⟨index, r, .pushed⟩
        keys := s.keys.renewKeys settings r.now r.key }
    | _ => .error .disabled
  | .finish =>
    match s.frame with
    | some ⟨_, _, .pushed⟩ => .ok { s with frame := none }
    | _ => .error .disabled
  | .handler k =>
    match s.queue[k]? with
    | some h => .ok { s with
        queue := s.queue.eraseIdx k
        calls := s.calls ++ [⟨h, s.arguments settings h⟩] }
    | none => .error .disabled

/-- The listeners see the old key and the new one. -/
def Faithful (c : RotationCall C) : Prop :=
  c.arguments = some (c.handler.previous, c.handler.generated) ∧
    c.handler.previous ≠ c.handler.generated

def AllFaithful (s : Rotating C) : Prop := ∀ c ∈ s.calls, Faithful c

/-- The renewal that dispatched the handler has not yet pushed its key. -/
def BeforePush (s : Rotating C) (h : RotationHandler C) : Prop :=
  ∃ f, s.frame = some f ∧ f.index = h.index ∧ f.phase = .dispatched

def InTime (s : Rotating C) : RotationEvent C → Prop
  | .handler k => ∀ h, s.queue[k]? = some h → BeforePush s h ∧ h.previous ≠ h.generated
  | _ => True

/-- What a queued handler finds while its renewal runs. -/
structure Sees (settings : KeySettings) (s : Rotating C) (h : RotationHandler C)
    (f : RenewalFrame C) : Prop where
  phase : f.phase ≠ .generated
  generated_eq : h.generated = generated settings f
  front : s.keys.history.head? = some (if f.phase = .dispatched then h.previous else h.generated)

structure Tracked (settings : KeySettings) (s : Rotating C) : Prop where
  frame_lt : ∀ f, s.frame = some f → f.index < s.renewals
  queue_lt : ∀ h ∈ s.queue, h.index < s.renewals
  sees : ∀ h ∈ s.queue, ∀ f, s.frame = some f → f.index = h.index → Sees settings s h f

section Steps

variable {settings : KeySettings} {s t : Rotating C}

lemma head_renewKeys {p : KeyProvider C} {front : KeyInfo C} (now : ℤ) (key : C.PrivateKey)
    (h : p.history.head? = some front) :
    (p.renewKeys settings now key).history.head? =
      some (KeyProvider.newInfo settings now key) := by
  obtain ⟨rest, hrest⟩ : ∃ rest, p.history = front :: rest := by
    cases hp : p.history with
    | nil => simp [hp] at h
    | cons x rest =>
      rw [hp, List.head?_cons, Option.some.injEq] at h
      exact ⟨rest, by rw [h]⟩
  -- the evicted key is not the one just pushed, for there is another behind it
  simp only [KeyProvider.renewKeys, hrest]
  split <;> simp [List.dropLast]

lemma tracked_generate {r : Renewal C} (hs : Tracked settings s)
    (h : step settings s (.generate r) = .ok t) : Tracked settings t := by
  rw [step] at h
  split at h
  · obtain rfl := Except.ok.inj h
    refine ⟨?_, ?_, ?_⟩
    · intro f hf
      obtain rfl := Option.some.inj hf
      exact Nat.lt_succ_self _
    · intro handler hh
      exact Nat.lt_succ_of_lt (hs.queue_lt handler hh)
    · intro handler hh f hf hindex
      obtain rfl := Option.some.inj hf
      exact absurd hindex.symm (hs.queue_lt handler hh).ne
  · cases h

lemma step_dispatch (h : step settings s .dispatch = .ok t) :
    ∃ index r, s.frame = some ⟨index, r, .generated⟩ ∧ t.frame = some ⟨index, r, .dispatched⟩ ∧
      t.keys = s.keys ∧ t.renewals = s.renewals ∧
      ∀ handler ∈ t.queue, handler ∈ s.queue ∨ handler.index = index ∧
        handler.generated = generated settings ⟨index, r, .generated⟩ ∧
        s.keys.history.head? = some handler.previous := by
  rw [step] at h
  split at h
  · next index r hframe =>
    obtain rfl := Except.ok.inj h
    refine ⟨index, r, hframe, rfl, rfl, rfl, ?_⟩
    intro handler hh
    dsimp only at hh
    split at hh
    · exact .inl hh
    · next front hfront =>
      rcases List.mem_append.mp hh with hold | hnew
      · exact .inl hold
      · obtain rfl := List.mem_singleton.mp hnew
        exact .inr ⟨rfl, rfl, hfront⟩
  · cases h

lemma tracked_dispatch (hs : Tracked settings s) (h : step settings s .dispatch = .ok t) :
    Tracked settings t := by
  obtain ⟨index, r, hframe, hframe', hkeys, hrenewals, hqueue⟩ := step_dispatch h
  have hlt : index < t.renewals := hrenewals ▸ hs.frame_lt _ hframe
  refine ⟨?_, ?_, ?_⟩
  · intro f hf
    obtain rfl := Option.some.inj (hframe'.symm.trans hf)
    exact hlt
  · intro handler hh
    obtain hold | ⟨rfl, -, -⟩ := hqueue handler hh
    · exact hrenewals ▸ hs.queue_lt handler hold
    · exact hlt
  · intro handler hh f hf hindex
    obtain rfl := Option.some.inj (hframe'.symm.trans hf)
    obtain hold | ⟨-, hgenerated, hfront⟩ := hqueue handler hh
    · -- an older handler of this renewal would have been queued too early
      exact absurd rfl (hs.sees handler hold _ hframe hindex).phase
    · exact ⟨by simp, hgenerated, by rw [hkeys, hfront, if_pos rfl]⟩

lemma tracked_push (hs : Tracked settings s) (h : step settings s .push = .ok t) :
    Tracked settings t := by
  rw [step] at h
  split at h
  · next index r hframe =>
    obtain rfl := Except.ok.inj h
    have hlt : index < s.renewals := hs.frame_lt _ hframe
    refine ⟨?_, hs.queue_lt, ?_⟩
    · intro f hf
      obtain rfl := Option.some.inj hf
      exact hlt
    · intro handler hh f hf hindex
      obtain rfl := Option.some.inj hf
      have hsees := hs.sees handler hh _ hframe hindex
      refine ⟨by simp, hsees.generated_eq, ?_⟩
      rw [if_neg (by simp), hsees.generated_eq]
      exact head_renewKeys _ _ hsees.front
  · cases h

lemma tracked_finish (hs : Tracked settings s) (h : step settings s .finish = .ok t) :
    Tracked settings t := by
  rw [step] at h
  split at h
  · obtain rfl := Except.ok.inj h
    exact ⟨by simp, hs.queue_lt, by simp⟩
  · cases h

lemma step_handler {k : ℕ} (h : step settings s (.handler k) = .ok t) :
    ∃ handler, s.queue[k]? = some handler ∧
      t = { s with
        queue := s.queue.eraseIdx k
        calls := s.calls ++ [⟨handler, s.arguments settings handler⟩] } := by
  rw [step] at h
  split at h
  · next handler hhandler => exact ⟨handler, hhandler, (Except.ok.inj h).symm⟩
  · cases h

lemma tracked_handler {k : ℕ} (hs : Tracked settings s)
    (h : step settings s (.handler k) = .ok t) : Tracked settings t := by
  obtain ⟨handler, -, rfl⟩ := step_handler h
  refine ⟨hs.frame_lt, ?_, ?_⟩
  · intro other hother
    exact hs.queue_lt other (List.mem_of_mem_eraseIdx hother)
  · intro other hother f hf hindex
    have hsees := hs.sees other (List.mem_of_mem_eraseIdx hother) f hf hindex
    exact ⟨hsees.phase, hsees.generated_eq, hsees.front⟩

lemma tracked_step (s : Rotating C) (e : RotationEvent C) (t : Rotating C)
    (hs : Tracked settings s) (h : step settings s e = .ok t) : Tracked settings t := by
  cases e with
  | generate r => exact tracked_generate hs h
  | dispatch => exact tracked_dispatch hs h
  | push => exact tracked_push hs h
  | finish => exact tracked_finish hs h
  | handler k => exact tracked_handler hs h

lemma tracked_new : Tracked settings (new : Rotating C) :=
  ⟨by simp [new], by simp [new], by simp [new]⟩

lemma calls_step {e : RotationEvent C} (he : ∀ k, e ≠ .handler k)
    (h : step settings s e = .ok t) : t.calls = s.calls := by
  cases e with
  | handler k => exact absurd rfl (he k)
  | generate | dispatch | push | finish =>
    rw [step] at h
    split at h
    · obtain rfl := Except.ok.inj h
      rfl
    · cases h

end Steps

section Arguments

variable {settings : KeySettings} {s : Rotating C} {h : RotationHandler C}

lemma arguments_of_running {f : RenewalFrame C} (hs : Tracked settings s) (hh : h ∈ s.queue)
    (hf : s.frame = some f) (hindex : f.index = h.index) :
    s.arguments settings h =
      some (if f.phase = .dispatched then h.previous else h.generated, h.generated) := by
  have hsees := hs.sees h hh f hf hindex
  rw [arguments, hsees.front, hf]
  simp only [hindex, if_true, ← hsees.generated_eq]

lemma arguments_of_returned (h' : ∀ f, s.frame = some f → f.index ≠ h.index) :
    s.arguments settings h = none := by
  rw [arguments]
  split
  · next hf => rw [if_neg (h' _ hf)]
  · rfl

lemma faithful_iff (hs : Tracked settings s) (hh : h ∈ s.queue) :
    Faithful ⟨h, s.arguments settings h⟩ ↔ BeforePush s h ∧ h.previous ≠ h.generated := by
  constructor
  · rintro ⟨harguments, hne⟩
    refine ⟨?_, hne⟩
    by_cases hrunning : ∃ f, s.frame = some f ∧ f.index = h.index
    · obtain ⟨f, hf, hindex⟩ := hrunning
      refine ⟨f, hf, hindex, ?_⟩
      by_contra hphase
      dsimp only at harguments
      rw [arguments_of_running hs hh hf hindex, if_neg hphase] at harguments
      exact hne (Prod.ext_iff.mp (Option.some.inj harguments)).1.symm
    · dsimp only at harguments
      rw [arguments_of_returned fun f hf hindex => hrunning ⟨f, hf, hindex⟩] at harguments
      cases harguments
  · rintro ⟨⟨f, hf, hindex, hphase⟩, hne⟩
    refine ⟨?_, hne⟩
    dsimp only
    rw [arguments_of_running hs hh hf hindex, if_pos hphase]

end Arguments

lemma inTime_iff {settings : KeySettings} {s : Rotating C} (hs : Tracked settings s) {k : ℕ} :
    InTime s (.handler k) ↔
      ∀ h, s.queue[k]? = some h → Faithful ⟨h, s.arguments settings h⟩ := by
  constructor
  · intro htime h hh
    exact (faithful_iff hs (List.mem_of_getElem? hh)).mpr (htime h hh)
  · intro hfaithful h hh
    exact (faithful_iff hs (List.mem_of_getElem? hh)).mp (hfaithful h hh)

theorem rotation_seen_iff (settings : KeySettings) (events : List (RotationEvent C)) :
    (Always (step settings) AllFaithful new events ↔
      Guarded (step settings) InTime new events) ∧
    ∀ s, run (step settings) new events = .ok s → ∀ h ∈ s.queue,
      (∀ f, s.frame = some f → f.index = h.index →
        (f.phase = .dispatched →
          s.arguments settings h = some (h.previous, h.generated)) ∧
        (f.phase = .pushed → s.arguments settings h = some (h.generated, h.generated))) ∧
      ((∀ f, s.frame = some f → f.index ≠ h.index) → s.arguments settings h = none) := by
  constructor
  · refine always_iff_guarded (I := fun s => Tracked settings s ∧ AllFaithful s)
      (fun s hs => hs.2) ?_ ?_ ⟨tracked_new, by simp [AllFaithful, new]⟩
    · rintro s e t ⟨htracked, hfaithful⟩ htime h
      refine ⟨tracked_step s e t htracked h, ?_⟩
      by_cases he : ∃ k, e = .handler k
      · obtain ⟨k, rfl⟩ := he
        obtain ⟨handler, hhandler, rfl⟩ := step_handler h
        intro c hc
        rcases List.mem_append.mp hc with hold | hnew
        · exact hfaithful c hold
        · obtain rfl := List.mem_singleton.mp hnew
          exact (inTime_iff htracked).mp htime handler hhandler
      · intro c hc
        rw [calls_step (fun k hk => he ⟨k, hk⟩) h] at hc
        exact hfaithful c hc
    · rintro s e ⟨htracked, -⟩ hnext
      cases e with
      | generate | dispatch | push | finish => trivial
      | handler k =>
        rw [inTime_iff htracked]
        intro handler hhandler
        have hstep : step settings s (.handler k) = .ok { s with
            queue := s.queue.eraseIdx k
            calls := s.calls ++ [⟨handler, s.arguments settings handler⟩] } := by
          rw [step, hhandler]
        exact hnext _ hstep _ (by simp)
  · intro s hs h hh
    have htracked : Tracked settings s := invariant tracked_step tracked_new hs
    refine ⟨?_, arguments_of_returned⟩
    intro f hf hindex
    rw [arguments_of_running htracked hh hf hindex]
    constructor
    · intro hphase
      rw [if_pos hphase]
    · intro hphase
      rw [if_neg (by simp [hphase])]

/-- Two renewals and the handler of the second one: run after the push it gives the new key
twice, run after the return it reads a variable that is gone. -/
theorem rotation_seen_late :
    let first : Renewal sampleCrypto := ⟨0, (1 : ℕ)⟩
    let second : Renewal sampleCrypto := ⟨10 * ticksPerSecond, (2 : ℕ)⟩
    let settings := KeySettings.ofConfig 1 10
    let info := KeyProvider.newInfo settings second.now second.key
    (∃ s, run (step settings) new [.generate first, .dispatch, .push, .finish, .generate second,
        .dispatch, .push, .handler 0] = .ok s ∧
      s.calls.map RotationCall.arguments = [some (info, info)] ∧ ¬AllFaithful s) ∧
    ∃ s, run (step settings) new [.generate first, .dispatch, .push, .finish, .generate second,
        .dispatch, .push, .finish, .handler 0] = .ok s ∧
      s.calls.map RotationCall.arguments = [none] ∧ ¬AllFaithful s := by
  refine ⟨⟨_, rfl, rfl, ?_⟩, ⟨_, rfl, rfl, ?_⟩⟩
  · intro h
    obtain ⟨harguments, hne⟩ := h _ List.mem_cons_self
    exact hne (Prod.ext_iff.mp (Option.some.inj harguments)).1.symm
  · intro h
    obtain ⟨harguments, -⟩ := h _ List.mem_cons_self
    cases harguments

end Rotating

end P2PNet.Overlay
