import P2PNet.Lib.Recency
import P2PNet.Overlay.Completions

/-! The order of `transport_connections`, in which `Socket::send` goes through the
transports. Every update moves one of them to an end of the list. -/

namespace P2PNet.Overlay

open Lib.Runs Lib.Recency

variable {C : Crypto}

namespace Connection

def Event.transportUpdate (e : Event C) : Option (TransportPtr × Bool) :=
  match e.call with
  | .process origin _ _ => some (origin, false)
  | .updateTransport tconn verified => some (tconn, verified)
  | _ => none

def transportsAfter (xs : List TransportPtr) (update : Option (TransportPtr × Bool)) :
    List TransportPtr :=
  match update with
  | some u => touch xs u
  | none => xs

lemma transports_of_effect {c c' : Connection C} {e : Event C} {actions : List Action}
    (h : Effect c e c' actions) (hcall : ∀ other, ¬e.Introduces other) :
    c'.transportConnections = c.transportConnections := by
  cases h with
  | greeted | waiting | started | refused | closed => rfl
  | @moved tconn _ _ hintroduces => exact absurd ((hintroduces tconn).mpr rfl) (hcall tconn)
  | sent => exact transports_sendMessage ..

lemma transports_perform {c c' : Connection C} {e : Event C} {actions : List Action}
    (h : c.perform e = .ok (c', actions)) :
    c'.transportConnections = transportsAfter c.transportConnections e.transportUpdate := by
  have heffect := perform_effect h
  obtain ⟨env, keys, processors, call⟩ := e
  cases call with
  | process origin header body =>
    obtain ⟨rfl, -⟩ := ok_pair h
    rw [fst_process, transports_updateTransport]
    rfl
  | updateTransport tconn verified =>
    obtain ⟨rfl, -⟩ := ok_pair h
    rw [transports_updateTransport]
    rfl
  | connect | send | sendMessage | disconnect => exact transports_of_effect heffect fun _ => id

end Connection

def TimerEvent.transportUpdate : TimerEvent C → Option (TransportPtr × Bool)
  | .call e => e.transportUpdate
  | _ => none

namespace TimedConnection

lemma connection_foldl_act (actions : List Action) (t : TimedConnection C) :
    (actions.foldl act t).connection = t.connection := by
  induction actions generalizing t with
  | nil => rfl
  | cons a actions ih =>
    rw [List.foldl_cons, ih]
    cases a <;> rfl

lemma transports_step {t t' : TimedConnection C} {e : TimerEvent C} (h : t.step e = .ok t') :
    t'.connection.transportConnections =
      Connection.transportsAfter t.connection.transportConnections e.transportUpdate := by
  cases e with
  | call e =>
    obtain ⟨c, actions, hperform, rfl⟩ := call_ok h
    rw [connection_foldl_act]
    exact Connection.transports_perform hperform
  | expire k =>
    obtain ⟨waits, -, rfl⟩ := step_expire h
    rfl
  | handler k =>
    obtain ⟨w, rest, -, rfl⟩ := step_handler h
    rw [connectTimeout]
    split <;> rfl

def InOrder (past : List (TimerEvent C)) (t : TimedConnection C) : Prop :=
  t.connection.transportConnections = ranking (past.filterMap TimerEvent.transportUpdate)

lemma step_inOrder (past : List (TimerEvent C)) (t : TimedConnection C) (e : TimerEvent C)
    (t' : TimedConnection C) (h : InOrder past t) (hstep : t.step e = .ok t') :
    InOrder (e :: past) t' := by
  rw [InOrder, transports_step hstep, h, List.filterMap_cons]
  cases e.transportUpdate with
  | none => rfl
  | some u => exact (ranking_cons u _).symm

end TimedConnection

namespace Connection

lemma transports_foldl (updates : List (TransportPtr × Bool)) (c : Connection C) :
    (updates.foldl (fun c u => c.updateTransport u.1 u.2) c).transportConnections =
      updates.foldl touch c.transportConnections := by
  induction updates generalizing c with
  | nil => rfl
  | cons u updates ih =>
    rw [List.foldl_cons, ih, transports_updateTransport]
    rfl

theorem transports_ranked (th : TH) :
    (∀ updates : List (TransportPtr × Bool),
      Ranked updates.reverse (updates.foldl (fun c u => c.updateTransport u.1 u.2)
        (Connection.new th : Connection C)).transportConnections) ∧
    ∀ (events : List (TimerEvent C)) (t : TimedConnection C),
      run TimedConnection.step (.start (Connection.new th)) events = .ok t →
      Ranked (events.reverse.filterMap TimerEvent.transportUpdate)
        t.connection.transportConnections := by
  constructor
  · intro updates
    rw [transports_foldl,
      show (Connection.new th : Connection C).transportConnections = [] from rfl, foldl_touch]
    exact ranked_ranking _
  · intro events t h
    have hnew : TimedConnection.InOrder [] (.start (Connection.new th : Connection C)) := rfl
    have hend := history_invariant TimedConnection.step_inOrder hnew h
    rw [List.append_nil] at hend
    rw [hend]
    exact ranked_ranking _

example :
    ([(5, false), (6, true), (7, false), (8, true), (5, true), (6, false)].foldl
      (fun c u => c.updateTransport u.1 u.2)
      (Connection.new [1] : Connection sampleCrypto)).transportConnections = [5, 8, 7, 6] := rfl

end Connection

end P2PNet.Overlay
