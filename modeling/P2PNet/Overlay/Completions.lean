import P2PNet.Overlay.Handshaking
import P2PNet.Lib.Lists
import P2PNet.Lib.Waits

/-! How often the callbacks of an `overlay::Connection` are called. A message goes
to every transport that is connected, and each of them reports back; the waits of
all `connect` calls share one timer, on which a new wait aborts the last one. -/

namespace P2PNet.Overlay

open Lib Lib.Runs
open scoped List

variable {C : Crypto}

namespace Connection

section Sending

variable {env : Env C} {c c' : Connection C} {actions : List Action}

/-- The calls of send callbacks that come of some actions, if each transport reports the outcome
of what it is handed once. -/
def completions (outcome : TransportPtr → ℤ) (actions : List Action) :
    List (Option CallbackId × ℤ) :=
  actions.filterMap fun
    | .sent callback error => some (callback, error)
    | .transmit transport _ callback => some (callback, outcome transport)
    | _ => none

def handed (actions : List Action) : List (TransportPtr × OverlayMessage) :=
  actions.filterMap fun
    | .transmit transport message _ => some (transport, message)
    | _ => none

def alive (env : Env C) (c : Connection C) : List TransportPtr :=
  c.transportConnections.filter env.transportConnected

structure OneCompletion (outcome : TransportPtr → ℤ) (callback : Option CallbackId)
    (actions : List Action) : Prop where
  completed : ∃ error, completions outcome actions = [(callback, error)]
  handed : (handed actions).length ≤ 1

lemma handed_transmits (transports : List TransportPtr) (message : OverlayMessage)
    (callback : Option CallbackId) :
    handed (transports.map (fun transport => .transmit transport message callback)) =
      transports.map (·, message) := by
  rw [handed, List.filterMap_map, ← List.filterMap_eq_map]
  rfl

lemma oneCompletion_sendMessage_iff (outcome : TransportPtr → ℤ) (env : Env C)
    (message : OverlayMessage) (callback : Option CallbackId) (c : Connection C) :
    OneCompletion outcome callback (c.sendMessage env message callback).2 ↔
      (c.alive env).length ≤ 1 := by
  rw [sendMessage, ← alive]
  split
  · next hnone =>
    rw [hnone]
    exact iff_of_true ⟨⟨_, rfl⟩, Nat.zero_le _⟩ (Nat.zero_le _)
  · next hsome =>
    constructor
    · intro h
      have hle := h.handed
      rwa [handed_transmits, List.length_map] at hle
    · intro hle
      obtain ⟨transport, htransport⟩ : ∃ transport, c.alive env = [transport] := by
        have hpos := List.length_pos_iff.mpr hsome
        exact List.length_eq_one_iff.mp (by omega)
      rw [htransport]
      exact ⟨⟨outcome transport, rfl⟩, le_rfl⟩

/-- The branches of `send` that hand a message on. -/
def Sends (c : Connection C) (encrypted force : Bool) : Prop :=
  if encrypted then c.connected = true else (c.connected || force) = true

theorem send_completes_once_iff (outcome : TransportPtr → ℤ) (env : Env C) (c : Connection C) :
    (∀ message callback,
      (OneCompletion outcome callback (c.sendMessage env message callback).2 ↔
        (c.alive env).length ≤ 1) ∧
      handed (c.sendMessage env message callback).2 = (c.alive env).map (·, message)) ∧
    ∀ keys payload callback encrypted force c' actions,
      c.send keys env payload callback encrypted force = .ok (c', actions) →
      (OneCompletion outcome callback actions ↔
        (c.alive env).length ≤ 1 ∨ ¬c.Sends encrypted force) := by
  constructor
  · intro message callback
    refine ⟨oneCompletion_sendMessage_iff outcome env message callback c, ?_⟩
    rw [sendMessage, ← alive]
    split
    · next hnone =>
      rw [hnone]
      rfl
    · exact handed_transmits _ _ _
  · intro keys payload callback encrypted force c' actions h
    obtain ⟨message, -, h⟩ := bind_ok_iff.mp h
    dsimp only at h
    split_ifs at h with hencrypted hopen
    · obtain ⟨rfl, rfl⟩ := ok_pair h
      simp only [Bool.and_eq_true] at hencrypted
      rw [oneCompletion_sendMessage_iff]
      simp [Sends, hencrypted.1, hencrypted.2]
    · obtain ⟨rfl, rfl⟩ := ok_pair h
      simp only [Bool.and_eq_true, Bool.not_eq_true'] at hopen
      rw [oneCompletion_sendMessage_iff]
      simp [Sends, hopen.1, hopen.2]
    · obtain ⟨rfl, rfl⟩ := ok_pair h
      refine iff_of_true ⟨⟨_, rfl⟩, Nat.zero_le _⟩ (Or.inr ?_)
      cases encrypted
      · simpa [Sends] using hopen
      · simpa [Sends] using hencrypted

/-- Two transports are connected: both get the message, and the callback is called twice. -/
theorem send_completes_twice :
    let c : Connection sampleCrypto :=
      ((Connection.new [1]).updateTransport 5 false).updateTransport 6 true
    c.transportConnections = [6, 5] ∧
      handed (c.sendMessage Socket.sampleEnv {} (some 3)).2 = [(6, {}), (5, {})] ∧
      completions (fun _ => 0) (c.sendMessage Socket.sampleEnv {} (some 3)).2 =
        [(some 3, 0), (some 3, 0)] := by
  exact ⟨rfl, rfl, rfl⟩

end Sending

end Connection

/-- A connection with the waits on its `callback_timer` and the calls of connect callbacks that
were made. -/
structure TimedConnection (C : Crypto) where
  connection : Connection C
  callbackTimer : List (Wait Unit CallbackId)
  called : List (CallbackId × ℤ)

inductive TimerEvent (C : Crypto) where
  | call (e : Connection.Event C)
  | expire (k : ℕ)
  | handler (k : ℕ)

namespace TimedConnection

def start (c : Connection C) : TimedConnection C := ⟨c, [], []⟩

def act (t : TimedConnection C) : Action → TimedConnection C
  | .await callback _ => { t with callbackTimer := Wait.rearm () callback t.callbackTimer }
  | .connected callback error => { t with called := t.called ++ [(callback, error)] }
  | _ => t

def connectTimeout (callback : CallbackId) (state : WaitState) (t : TimedConnection C) :
    TimedConnection C :=
  if state = .expired then { t with called := t.called ++ [(callback, P2PError.timedOut.value)] }
  else t

def step (t : TimedConnection C) : TimerEvent C → Except Escape (TimedConnection C)
  | .call e =>
    match t.connection.perform e with
    | .ok (c, actions) => .ok (actions.foldl act { t with connection := c })
    | .error escape => .error escape
  | .expire k =>
    match Wait.expire k t.callbackTimer with
    | some waits => .ok { t with callbackTimer := waits }
    | none => .error .disabled
  | .handler k =>
    match Wait.take k t.callbackTimer with
    | some (w, rest) => .ok (connectTimeout w.handler w.state { t with callbackTimer := rest })
    | none => .error .disabled

def connects : TimerEvent C → Option CallbackId
  | .call e =>
    match e.call with
    | .connect callback => some callback
    | _ => none
  | _ => none

/-- No `connect` comes while the wait of an earlier one is pending. -/
def Undisturbed (t : TimedConnection C) (e : TimerEvent C) : Prop :=
  connects e ≠ none → ∀ w ∈ t.callbackTimer, w.state ≠ .pending

instance (t : TimedConnection C) (e : TimerEvent C) : Decidable (Undisturbed t e) :=
  inferInstanceAs (Decidable (_ → _))

def Quiet (a : Action) : Prop :=
  (∀ callback time, a ≠ .await callback time) ∧ ∀ callback error, a ≠ .connected callback error

lemma foldl_act_of_quiet {actions : List Action} (h : ∀ a ∈ actions, Quiet a)
    (t : TimedConnection C) : actions.foldl act t = t := by
  induction actions with
  | nil => rfl
  | cons a actions ih =>
    obtain ⟨hquiet, hrest⟩ := List.forall_mem_cons.mp h
    have hact : t.act a = t := by
      cases a with
      | connected callback error => exact absurd rfl (hquiet.2 callback error)
      | await callback time => exact absurd rfl (hquiet.1 callback time)
      | sent | transmit | process => rfl
    rw [List.foldl_cons, hact, ih hrest]

lemma quiet_sendMessage {c : Connection C} {env : Env C} {message : OverlayMessage}
    {callback : Option CallbackId} : ∀ a ∈ (c.sendMessage env message callback).2, Quiet a := by
  intro a ha
  rw [Connection.sendMessage] at ha
  split at ha
  · obtain rfl := List.mem_singleton.mp ha
    simp [Quiet]
  · obtain ⟨transport, _, rfl⟩ := List.mem_map.mp ha
    simp [Quiet]

lemma connects_of_not_connects {e : Connection.Event C} (h : ¬e.Connects) :
    connects (.call e) = none := by
  rw [connects]
  split
  · next callback hcall => exact absurd ⟨callback, hcall⟩ h
  · rfl

section Steps

variable {t t' : TimedConnection C}

lemma call_ok {e : Connection.Event C} (h : t.step (.call e) = .ok t') :
    ∃ c actions, t.connection.perform e = .ok (c, actions) ∧
      t' = actions.foldl act { t with connection := c } := by
  rw [step] at h
  split at h
  · next c actions hperform => exact ⟨c, actions, hperform, (Except.ok.inj h).symm⟩
  · cases h

lemma step_call {e : Connection.Event C} (hstate : t.connection.state ≠ .established)
    (h : t.step (.call e) = .ok t') :
    t'.connection.state ≠ .established ∧ t'.called = t.called ∧
      t'.callbackTimer = match connects (.call e) with
        | some callback => Wait.rearm () callback t.callbackTimer
        | none => t.callbackTimer := by
  obtain ⟨c, actions, hperform, rfl⟩ := call_ok h
  cases Connection.perform_effect hperform with
  | greeted hcall hest => exact absurd hest hstate
  | waiting hcall _ _ =>
    simp only [connects, hcall]
    exact ⟨hstate, rfl, rfl⟩
  | started hcall _ _ =>
    simp only [connects, hcall, List.foldl_cons]
    rw [foldl_act_of_quiet quiet_sendMessage]
    exact ⟨by simp [act], rfl, rfl⟩
  | moved _ hother _ hactions =>
    rw [connects_of_not_connects hother, foldl_act_of_quiet]
    · refine ⟨?_, rfl, rfl⟩
      rw [Connection.state_updateTransport]
      split
      · simp
      · exact hstate
    · intro a ha
      obtain ⟨p, payload, rfl⟩ := hactions a ha
      simp [Quiet]
  | @sent message callback _ hother _ =>
    rw [connects_of_not_connects hother, foldl_act_of_quiet quiet_sendMessage]
    refine ⟨?_, rfl, rfl⟩
    rcases t.connection.fst_sendMessage e.env message callback with hc | hc
    · rw [hc]
      exact hstate
    · rw [hc]
      simp [Connection.setState]
  | refused _ hother _ =>
    rw [connects_of_not_connects hother]
    exact ⟨hstate, rfl, rfl⟩
  | closed hcall =>
    simp only [connects, hcall]
    exact ⟨by simp [Connection.disconnect, Connection.setState], rfl, rfl⟩

lemma step_expire {k : ℕ} (h : t.step (.expire k) = .ok t') :
    ∃ waits, Wait.expire k t.callbackTimer = some waits ∧
      t' = { t with callbackTimer := waits } := by
  rw [step] at h
  split at h
  · next waits hw => exact ⟨waits, hw, (Except.ok.inj h).symm⟩
  · cases h

lemma step_handler {k : ℕ} (h : t.step (.handler k) = .ok t') :
    ∃ w rest, Wait.take k t.callbackTimer = some (w, rest) ∧
      t' = connectTimeout w.handler w.state { t with callbackTimer := rest } := by
  rw [step] at h
  split at h
  · next w rest hw => exact ⟨w, rest, hw, (Except.ok.inj h).symm⟩
  · cases h

/-- The callbacks that were called or whose waits are not aborted. -/
def due (t : TimedConnection C) : List CallbackId :=
  t.called.map Prod.fst ++ (Wait.live t.callbackTimer).map Wait.handler

structure Waiting (t : TimedConnection C) : Prop where
  state : t.connection.state ≠ .established
  timed_out : ∀ x ∈ t.called, x.2 = P2PError.timedOut.value

lemma called_connectTimeout (callback : CallbackId) (state : WaitState) (t : TimedConnection C) :
    (connectTimeout callback state t).called = t.called ++
      if state = .expired then [(callback, P2PError.timedOut.value)] else [] := by
  rw [connectTimeout]
  split
  · rfl
  · rw [List.append_nil]

lemma step_waiting (t : TimedConnection C) (e : TimerEvent C) (t' : TimedConnection C)
    (h : Waiting t) (hs : t.step e = .ok t') : Waiting t' := by
  cases e with
  | call e =>
    obtain ⟨hstate, hcalled, _⟩ := step_call h.state hs
    exact ⟨hstate, hcalled ▸ h.timed_out⟩
  | expire k =>
    obtain ⟨waits, _, rfl⟩ := step_expire hs
    exact ⟨h.state, h.timed_out⟩
  | handler k =>
    obtain ⟨w, rest, _, rfl⟩ := step_handler hs
    constructor
    · rw [connectTimeout]
      split
      · exact h.state
      · exact h.state
    · intro x hx
      rw [called_connectTimeout, List.mem_append] at hx
      rcases hx with hx | hx
      · exact h.timed_out x hx
      · split at hx
        · rw [List.mem_singleton.mp hx]
        · cases hx

lemma undisturbed_of_none {e : TimerEvent C} (h : connects e = none) (t : TimedConnection C) :
    Undisturbed t e :=
  fun hne => absurd h hne

lemma pendingOn_eq_nil_iff {waits : List (Wait Unit CallbackId)} :
    Wait.pendingOn () waits = [] ↔ ∀ w ∈ waits, w.state ≠ .pending := by
  simp [Wait.pendingOn, List.filter_eq_nil_iff]

/-- A step keeps what is due and adds the callback of a `connect`, which aborts the waits that
are pending. -/
lemma step_due {e : TimerEvent C} (h : Waiting t) (hs : t.step e = .ok t') :
    ∃ lost, (t'.due ++ lost).Perm (t.due ++ (connects e).toList) ∧
      (lost = [] ↔ Undisturbed t e) := by
  cases e with
  | call e =>
    obtain ⟨_, hcalled, htimer⟩ := step_call h.state hs
    cases hcb : connects (.call e) with
    | none =>
      rw [hcb] at htimer
      refine ⟨[], ?_, iff_of_true rfl (undisturbed_of_none hcb t)⟩
      rw [due, due, hcalled, htimer]
      exact .refl _
    | some callback =>
      rw [hcb] at htimer
      refine ⟨(Wait.pendingOn () t.callbackTimer).map Wait.handler, ?_, ?_⟩
      · rw [due, due, hcalled, htimer, List.append_assoc, List.append_assoc]
        exact (Wait.live_rearm_perm () callback t.callbackTimer).append_left _
      · rw [List.map_eq_nil_iff, pendingOn_eq_nil_iff, Undisturbed, hcb]
        simp
  | expire k =>
    obtain ⟨waits, hw, rfl⟩ := step_expire hs
    refine ⟨[], ?_, iff_of_true rfl (undisturbed_of_none rfl t)⟩
    rw [due, due, Wait.live_expire hw]
    exact .refl _
  | handler k =>
    obtain ⟨w, rest, hw, rfl⟩ := step_handler hs
    refine ⟨[], ?_, iff_of_true rfl (undisturbed_of_none rfl t)⟩
    have hperm := (Wait.live_take_perm hw).map Wait.handler
    have hsame : (connectTimeout w.handler w.state { t with callbackTimer := rest }).due =
        t.called.map Prod.fst ++ (Wait.live (w :: rest)).map Wait.handler := by
      obtain ⟨_, hpending, _⟩ := Wait.take_eq_some_iff.mp hw
      rw [due, called_connectTimeout, Wait.live_cons]
      cases hstate : w.state with
      | pending => exact absurd hstate hpending
      | expired => simp [connectTimeout]
      | aborted => simp [connectTimeout]
    rw [hsame, due, List.append_nil]
    exact (hperm.append_left _).trans (.of_eq (List.append_nil _).symm)

/-- The run loses the callbacks of the waits that its `connect` calls abort. -/
lemma run_due {events : List (TimerEvent C)} (h : Waiting t) (hr : run step t events = .ok t') :
    ∃ lost, (t'.due ++ lost).Perm (t.due ++ events.filterMap connects) ∧
      (lost = [] ↔ Guarded step Undisturbed t events) := by
  induction events generalizing t with
  | nil =>
    obtain rfl := Except.ok.inj hr
    exact ⟨[], .refl _, iff_of_true rfl trivial⟩
  | cons e events ih =>
    obtain ⟨u, hu, hrest⟩ := run_cons.mp hr
    obtain ⟨first, hfirst, hfirstiff⟩ := step_due h hu
    obtain ⟨later, hlater, hlateriff⟩ := ih (step_waiting t e u h hu) hrest
    have hconnects : (e :: events).filterMap connects =
        (connects e).toList ++ events.filterMap connects := by
      rw [List.filterMap_cons]
      cases connects e <;> rfl
    refine ⟨first ++ later, ?_, ?_⟩
    · calc t'.due ++ (first ++ later) ~ t'.due ++ later ++ first := by
            rw [List.append_assoc]
            exact List.perm_append_comm.append_left _
        _ ~ u.due ++ events.filterMap connects ++ first := hlater.append_right _
        _ ~ u.due ++ first ++ events.filterMap connects := by
            rw [List.append_assoc, List.append_assoc]
            exact List.perm_append_comm.append_left _
        _ ~ t.due ++ (connects e).toList ++ events.filterMap connects := hfirst.append_right _
        _ = t.due ++ (e :: events).filterMap connects := by rw [hconnects, List.append_assoc]
    · rw [List.append_eq_nil_iff, hfirstiff, hlateriff, Guarded]
      refine and_congr_right fun _ => ⟨fun hg v hv => ?_, fun hg => hg u hu⟩
      obtain rfl := Except.ok.inj (hu.symm.trans hv)
      exact hg

theorem connect_completed_once_iff {c : Connection C} (hc : c.state ≠ .established)
    {events : List (TimerEvent C)} (h : run step (start c) events = .ok t)
    (hidle : t.callbackTimer = []) :
    (t.called.Perm ((events.filterMap connects).map (·, P2PError.timedOut.value)) ↔
      Guarded step Undisturbed (start c) events) ∧
    ∃ lost, (t.called.map Prod.fst ++ lost).Perm (events.filterMap connects) := by
  have hstart : Waiting (start c) := ⟨hc, by simp [start]⟩
  have hwaiting : Waiting t := invariant step_waiting hstart h
  obtain ⟨lost, hperm, hlost⟩ := run_due hstart h
  have hdue : t.due = t.called.map Prod.fst := by
    rw [due, hidle]
    exact List.append_nil _
  have hnone : (start c).due = [] := rfl
  rw [hdue, hnone, List.nil_append] at hperm
  refine ⟨?_, lost, hperm⟩
  have hcalled : (t.called.map Prod.fst).map (·, P2PError.timedOut.value) = t.called := by
    rw [List.map_map]
    apply Lib.Lists.map_eq_self
    intro x hx
    rw [Function.comp_apply, ← hwaiting.timed_out x hx]
  rw [← hlost]
  constructor
  · intro hall
    have hlength := hperm.length_eq
    have hsame := hall.length_eq
    rw [List.length_append, List.length_map] at hlength
    rw [List.length_map] at hsame
    exact List.length_eq_zero_iff.mp (by omega)
  · rintro rfl
    rw [List.append_nil] at hperm
    rw [← hcalled]
    exact hperm.map _

def sampleConnect (callback : CallbackId) : TimerEvent sampleCrypto :=
  .call ⟨Socket.sampleEnv, Socket.sampleKeys, fun _ => [], .connect callback⟩

theorem connects_in_turn_completed_once :
    ∃ t, run step (start (.new [1])) [sampleConnect 1, .expire 0, .handler 0, sampleConnect 2,
        .expire 0, .handler 0] = .ok t ∧ t.callbackTimer = [] ∧
      t.called.Perm [(1, P2PError.timedOut.value), (2, P2PError.timedOut.value)] := by
  have hguard : Guarded step Undisturbed (start (.new [1])) [sampleConnect 1, .expire 0, .handler 0,
      sampleConnect 2, .expire 0, .handler 0] := by decide
  exact ⟨_, rfl, rfl, (connect_completed_once_iff (by decide) rfl rfl).1.mpr hguard⟩

/-- The second `connect` comes while the first one waits, whose callback is never called. -/
theorem overlapping_connect_lost :
    ∃ t, run step (start (.new [1])) [sampleConnect 1, sampleConnect 2, .expire 1, .handler 0,
        .handler 0] = .ok t ∧ t.callbackTimer = [] ∧
      t.called = [(2, P2PError.timedOut.value)] :=
  ⟨_, rfl, rfl, rfl⟩

end Steps

end TimedConnection

end P2PNet.Overlay
