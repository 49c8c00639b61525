import P2PNet.Transport.Establishment

/-! Where the traffic of a host comes from whose users call nothing but `connect`: every datagram
that it sends was asked for, by such a call or by a peer that sent `UDP_CONNECT`, and only such
peers are listened to. -/

namespace P2PNet.Transport.Host

open Lib Lib.Lists Lib.Runs

variable {h h' : Host} {past : List HostEvent} {p : ConnectionPtr} {e : Endpoint}

def address (h : Host) (p : ConnectionPtr) : Option Endpoint :=
  h.objects[p]?.map UDPConnection.endpoint

def Accepted (past : List HostEvent) (h : Host) (e : Endpoint) : Prop :=
  h.outgoingOnly = false ∧ .receive e connectMsg ∈ past

/-- The events so far, the last one first, account for what the host has and did. -/
structure Traced (past : List HostEvent) (h : Host) : Prop where
  silent : h.Silent
  registered : ∀ e p, h.connections.find e = some p → h.address p = some e ∧ Accepted past h e
  keeping : ∀ w ∈ h.waits, w.handler = .sendKeepAlive →
    ∃ e, h.address w.timer.1 = some e ∧ Accepted past h e
  sent : ∀ e m, (e, m) ∈ h.sent → m = connectMsg ∧ (∃ callback, .connect e callback ∈ past) ∨
    m = keepAliveMsg ∧ Accepted past h e
  received : ∀ p m, (p, m) ∈ h.received → m ≠ keepAliveMsg ∧ m ≠ disconnectMsg ∧
    ∃ e later earlier, h.address p = some e ∧ past = later ++ .receive e m :: earlier ∧
      .receive e connectMsg ∈ earlier
  disconnected : ∀ p code, (p, code) ∈ h.disconnectCalls → code = P2PError.connectionReset.value ∧
    ∃ e, h.address p = some e ∧ .receive e disconnectMsg ∈ past

lemma traced_new (outgoingOnly hasDisconnectCallback : Bool) :
    Traced [] (new outgoingOnly hasDisconnectCallback) where
  silent := List.forall_mem_nil _
  registered _ _ hfind := nomatch hfind
  keeping := List.forall_mem_nil _
  sent _ _ hsent := absurd hsent List.not_mem_nil
  received _ _ hreceived := absurd hreceived List.not_mem_nil
  disconnected _ _ hcall := absurd hcall List.not_mem_nil

lemma Accepted.cons (ha : Accepted past h e) (event : HostEvent) :
    Accepted (event :: past) h e :=
  ⟨ha.1, List.mem_cons_of_mem _ ha.2⟩

lemma Traced.cons (ht : Traced past h) (event : HostEvent) : Traced (event :: past) h where
  silent := ht.silent
  registered e p hfind := by
    obtain ⟨haddress, ha⟩ := ht.registered e p hfind
    exact ⟨haddress, ha.cons event⟩
  keeping w hw hhandler := by
    obtain ⟨e, haddress, ha⟩ := ht.keeping w hw hhandler
    exact ⟨e, haddress, ha.cons event⟩
  sent e m hsent := by
    rcases ht.sent e m hsent with ⟨hm, callback, hcall⟩ | ⟨hm, ha⟩
    · exact .inl ⟨hm, callback, List.mem_cons_of_mem _ hcall⟩
    · exact .inr ⟨hm, ha.cons event⟩
  received p m hreceived := by
    obtain ⟨hkeep, hdisc, e, later, earlier, haddress, rfl, hconnect⟩ := ht.received p m hreceived
    exact ⟨hkeep, hdisc, e, event :: later, earlier, haddress, rfl, hconnect⟩
  disconnected p code hcall := by
    obtain ⟨hcode, e, haddress, hreceive⟩ := ht.disconnected p code hcall
    exact ⟨hcode, e, haddress, List.mem_cons_of_mem _ hreceive⟩

section Parts

/-- Objects are only added, and timers change nothing but their state. -/
structure Extends (h h' : Host) : Prop where
  outgoingOnly : h'.outgoingOnly = h.outgoingOnly
  address : ∀ p e, h.address p = some e → h'.address p = some e
  connections : h'.connections = h.connections
  waits : ∀ w' ∈ h'.waits, ∃ w ∈ h.waits, w.timer = w'.timer ∧ w.handler = w'.handler
  sent : h'.sent = h.sent
  received : h'.received = h.received
  disconnectCalls : h'.disconnectCalls = h.disconnectCalls

lemma Traced.extends (ht : Traced past h) (hx : Extends h h') (hs : h'.Silent) :
    Traced past h' where
  silent := hs
  registered e p hfind := by
    rw [hx.connections] at hfind
    obtain ⟨haddress, ha⟩ := ht.registered e p hfind
    exact ⟨hx.address p e haddress, hx.outgoingOnly.trans ha.1, ha.2⟩
  keeping w' hw' hhandler := by
    obtain ⟨w, hw, htimer, hsame⟩ := hx.waits w' hw'
    obtain ⟨e, haddress, ha⟩ := ht.keeping w hw (hsame.trans hhandler)
    exact ⟨e, htimer ▸ hx.address _ e haddress, hx.outgoingOnly.trans ha.1, ha.2⟩
  sent e m hsent := by
    rw [hx.sent] at hsent
    rcases ht.sent e m hsent with hsent | ⟨hm, ha⟩
    · exact .inl hsent
    · exact .inr ⟨hm, hx.outgoingOnly.trans ha.1, ha.2⟩
  received p m hreceived := by
    rw [hx.received] at hreceived
    obtain ⟨hkeep, hdisc, e, later, earlier, haddress, hpast⟩ := ht.received p m hreceived
    exact ⟨hkeep, hdisc, e, later, earlier, hx.address p e haddress, hpast⟩
  disconnected p code hcall := by
    rw [hx.disconnectCalls] at hcall
    obtain ⟨hcode, e, haddress, hreceive⟩ := ht.disconnected p code hcall
    exact ⟨hcode, e, hx.address p e haddress, hreceive⟩

lemma address_setConnected (h : Host) (p q : ConnectionPtr) (value : Bool) :
    (h.setConnected p value).address q = h.address q := by
  apply map_getElem?_modify
  intro c
  rfl

lemma Traced.setConnected (ht : Traced past h) (p : ConnectionPtr) (value : Bool) :
    Traced past (h.setConnected p value) := by
  refine ht.extends ⟨rfl, ?_, rfl, ?_, rfl, rfl, rfl⟩
    ((frame_setConnected h p value).silent ht.silent)
  · intro q e he
    rw [address_setConnected, he]
  · exact fun w hw => ⟨w, hw, rfl, rfl⟩

lemma address_make (h : Host) (e : Endpoint) : (h.make e).1.address (h.make e).2 = some e := by
  simp [address, make, UDPConnection.new]

lemma Traced.make (ht : Traced past h) (e : Endpoint) : Traced past (h.make e).1 := by
  refine ht.extends ⟨rfl, ?_, rfl, ?_, rfl, rfl, rfl⟩ ((frame_make h e).silent ht.silent)
  · intro q e' he
    obtain ⟨c, hc, rfl⟩ := Option.map_eq_some_iff.mp he
    exact Option.map_eq_some_iff.mpr ⟨c, getElem?_concat_of_some hc, rfl⟩
  · exact fun w hw => ⟨w, hw, rfl, rfl⟩

lemma Traced.cancel (ht : Traced past h) (p : ConnectionPtr) (timer : Timer) :
    Traced past (h.cancel p timer) := by
  refine ht.extends ⟨rfl, fun _ _ he => he, rfl, ?_, rfl, rfl, rfl⟩ ht.silent
  intro w' hw'
  obtain ⟨w, hw, rfl⟩ := List.mem_map.mp hw'
  refine ⟨w, hw, ?_⟩
  split
  · exact ⟨(Wait.timer_abort w).symm, (Wait.handler_abort w).symm⟩
  · exact ⟨rfl, rfl⟩

lemma Traced.release (ht : Traced past h) : Traced past h.release := by
  refine ht.extends ⟨rfl, ?_, rfl, ?_, rfl, rfl, rfl⟩ ((frame_release h).silent ht.silent)
  · intro q e he
    obtain ⟨c, hc, rfl⟩ := Option.map_eq_some_iff.mp he
    rw [address, Host.release, List.getElem?_mapIdx, hc]
    simp only [Option.map_some]
    split
    · rfl
    · rfl
  · intro w' hw'
    obtain ⟨w, hw, rfl⟩ := List.mem_map.mp hw'
    refine ⟨w, hw, ?_⟩
    split
    · exact ⟨(Wait.timer_abort w).symm, (Wait.handler_abort w).symm⟩
    · exact ⟨rfl, rfl⟩

lemma Traced.rearm (ht : Traced past h) {timer : Timer} {handler : TimerHandler}
    (hp : handler = .sendKeepAlive → ∃ e, h.address p = some e ∧ Accepted past h e) :
    Traced past (h.rearm p timer handler) := by
  have hcancel := ht.cancel p timer
  refine ⟨ht.silent, ht.registered, ?_, ht.sent, ht.received, ht.disconnected⟩
  intro w hw hhandler
  rcases List.mem_append.mp hw with hw | hw
  · exact hcancel.keeping w hw hhandler
  · obtain rfl := List.mem_singleton.mp hw
    exact hp hhandler

lemma endpoint_of_address (hp : h.address p = some e) : h.endpoint p = e := by
  rw [address] at hp
  rw [endpoint, hp]
  rfl

lemma Traced.send (ht : Traced past h) {m : Bytes} (hp : h.address p = some e)
    (hm : m = connectMsg ∧ (∃ callback, .connect e callback ∈ past) ∨
      m = keepAliveMsg ∧ Accepted past h e) : Traced past (h.send p m) := by
  refine ⟨ht.silent, ht.registered, ht.keeping, ?_, ht.received, ht.disconnected⟩
  intro e' m' hsent
  rcases List.mem_append.mp hsent with hsent | hsent
  · exact ht.sent e' m' hsent
  · obtain ⟨rfl, rfl⟩ := Prod.mk.inj (List.mem_singleton.mp hsent)
    rw [endpoint_of_address hp]
    exact hm

lemma Traced.onConnect (ht : Traced past h) (hp : h.address p = some e) (ha : Accepted past h e) :
    Traced past (h.onConnect p) := by
  refine ⟨ht.silent, ?_, ht.keeping, ht.sent, ht.received, ht.disconnected⟩
  intro e' q hfind
  rw [Host.onConnect, endpoint_of_address hp, StdMap.find_insert] at hfind
  split at hfind
  · next heq =>
    subst heq
    cases hold : h.connections.find e' with
    | none =>
      rw [hold] at hfind
      obtain rfl := Option.some.inj hfind
      exact ⟨hp, ha⟩
    | some q₀ =>
      rw [hold] at hfind
      exact ht.registered e' q (hold.trans hfind)
  · exact ht.registered e' q hfind

lemma Traced.sendKeepAlive (ht : Traced past h) (hp : h.address p = some e)
    (ha : Accepted past h e) : Traced past (h.sendKeepAlive p) := by
  apply Traced.rearm
  · exact ht.send hp (.inr ⟨rfl, ha⟩)
  · exact fun _ => ⟨e, hp, ha⟩

lemma Traced.receivedConnect (ht : Traced past h) (hp : h.address p = some e)
    (ha : Accepted past h e) : Traced past (h.receivedConnect p) := by
  have hp' : (h.setConnected p true).address p = some e :=
    (address_setConnected h p p true).trans hp
  apply Traced.sendKeepAlive
  · exact (ht.setConnected p true).onConnect hp' ha
  · exact hp'
  · exact ha

lemma Traced.receivedKeepAlive (ht : Traced past h) (p : ConnectionPtr) :
    Traced past (h.receivedKeepAlive p) := by
  apply Traced.setConnected
  apply ht.rearm
  intro hhandler
  cases hhandler

lemma Traced.connect (ht : Traced past h) {callback : CallbackId}
    (hcall : .connect e callback ∈ past) : Traced past (h.connect e callback) := by
  apply Traced.send
  · apply (ht.make e).rearm
    intro hhandler
    cases hhandler
  · exact address_make h e
  · exact .inl ⟨rfl, callback, hcall⟩

lemma Traced.disconnectCallback (ht : Traced past h) (hp : h.address p = some e)
    (hmsg : .receive e disconnectMsg ∈ past)
    (hs : h.disconnectCallback p .connectionReset = .ok h') : Traced past h' := by
  rw [Host.disconnectCallback] at hs
  split at hs
  · obtain rfl := Except.ok.inj hs
    refine ⟨ht.silent, ht.registered, ht.keeping, ht.sent, ht.received, ?_⟩
    intro q code hcall
    rcases List.mem_append.mp hcall with hcall | hcall
    · exact ht.disconnected q code hcall
    · obtain ⟨rfl, rfl⟩ := Prod.mk.inj (List.mem_singleton.mp hcall)
      exact ⟨rfl, e, hp, hmsg⟩
  · cases hs

lemma Traced.onDisconnect (ht : Traced past h) (p : ConnectionPtr) :
    Traced past (h.onDisconnect p) := by
  refine ⟨ht.silent, ?_, ht.keeping, ht.sent, ht.received, ht.disconnected⟩
  intro e q hfind
  rw [Host.onDisconnect, StdMap.find_erase] at hfind
  split at hfind
  · cases hfind
  · exact ht.registered e q hfind

lemma Traced.receivedDisconnect (ht : Traced past h) (hp : h.address p = some e)
    (hmsg : .receive e disconnectMsg ∈ past) (hs : h.receivedDisconnect p = .ok h') :
    Traced past h' := by
  obtain ⟨h₁, hcall, hrest⟩ := bind_ok_iff.mp hs
  obtain rfl := Except.ok.inj hrest
  have hcancelled := (ht.cancel p .connSendTimer).cancel p .connReceiveTimeout
  have hcalled := hcancelled.disconnectCallback hp hmsg hcall
  exact (hcalled.setConnected p false).onDisconnect p

end Parts

section Steps

lemma Traced.receive (ht : Traced past h) {m : Bytes}
    (hs : h.handleReceive e m = .ok h') : Traced (.receive e m :: past) h' := by
  have hcons := ht.cons (.receive e m)
  rw [handleReceive] at hs
  split at hs
  · next p hfind =>
    obtain ⟨hp, ha⟩ := ht.registered e p hfind
    split at hs
    · obtain rfl := Except.ok.inj hs
      exact hcons.receivedKeepAlive p
    · next hkeep =>
      split at hs
      · next hdisc =>
        subst hdisc
        exact hcons.receivedDisconnect hp List.mem_cons_self hs
      · next hdisc =>
        obtain rfl := Except.ok.inj hs
        refine ⟨hcons.silent, hcons.registered, hcons.keeping, hcons.sent, ?_, hcons.disconnected⟩
        intro q m' hreceived
        rcases List.mem_append.mp hreceived with hreceived | hreceived
        · exact hcons.received q m' hreceived
        · obtain ⟨rfl, rfl⟩ := Prod.mk.inj (List.mem_singleton.mp hreceived)
          exact ⟨hkeep, hdisc, e, [], past, hp, rfl, ha.2⟩
  · split at hs
    · next hconnect =>
      rw [Bool.and_eq_true, decide_eq_true_eq, Bool.not_eq_true'] at hconnect
      obtain ⟨rfl, hopen⟩ := hconnect
      obtain rfl := Except.ok.inj hs
      exact (hcons.make e).receivedConnect (address_make h e) ⟨hopen, List.mem_cons_self⟩
    · obtain rfl := Except.ok.inj hs
      exact hcons

/-- The lambda of `connect` finds its connection destroyed, or calls a callback that was never
set. -/
lemma runHandler_connecting (hs : h.Silent) (p : ConnectionPtr) (aborted : Bool) :
    h.runHandler p aborted .connecting ≠ .ok h' := by
  intro hr
  rw [runHandler] at hr
  split at hr
  · cases hr
  · next c hc =>
    have hnone : c.connectingCallback = none := hs c (List.mem_of_getElem? hc)
    split at hr
    · simp only [connectingCallback, hnone] at hr
      split at hr
      · cases hr
      · cases hr
    · cases hr

lemma Traced.handler (ht : Traced past h) {w : Wait (ConnectionPtr × Timer) TimerHandler}
    {aborted : Bool} (hw : w.handler = .sendKeepAlive →
      ∃ e, h.address w.timer.1 = some e ∧ Accepted past h e)
    (hs : h.runHandler w.timer.1 aborted w.handler = .ok h') : Traced past h' := by
  cases hhandler : w.handler with
  | sendKeepAlive =>
    obtain ⟨e, hp, ha⟩ := hw hhandler
    rcases runHandler_ok ht.silent hs with rfl | rfl
    · exact ht
    · exact ht.sendKeepAlive hp ha
  | inactivity =>
    rw [hhandler, runHandler] at hs
    split at hs
    · obtain rfl := Except.ok.inj hs
      exact ht
    · cases hs
  | connecting =>
    rw [hhandler] at hs
    exact absurd hs (runHandler_connecting ht.silent _ _)

lemma Traced.expire (ht : Traced past h) {k : ℕ}
    {waits : List (Wait (ConnectionPtr × Timer) TimerHandler)}
    (hs : Wait.expire k h.waits = some waits) : Traced past { h with waits := waits } := by
  refine ht.extends ⟨rfl, fun _ _ he => he, rfl, ?_, rfl, rfl, rfl⟩ ht.silent
  obtain ⟨w, hw, -, rfl⟩ := Wait.expire_eq_some_iff.mp hs
  intro w' hw'
  rcases List.mem_or_eq_of_mem_set hw' with hw' | rfl
  · exact ⟨w', hw', rfl, rfl⟩
  · exact ⟨w, List.mem_of_getElem? hw, rfl, rfl⟩

lemma Traced.take (ht : Traced past h) {k : ℕ} {w : Wait (ConnectionPtr × Timer) TimerHandler}
    {waits : List (Wait (ConnectionPtr × Timer) TimerHandler)}
    (hs : Wait.take k h.waits = some (w, waits)) : Traced past { h with waits := waits } := by
  refine ht.extends ⟨rfl, fun _ _ he => he, rfl, ?_, rfl, rfl, rfl⟩ ht.silent
  obtain ⟨-, -, rfl⟩ := Wait.take_eq_some_iff.mp hs
  exact fun w' hw' => ⟨w', List.mem_of_mem_eraseIdx hw', rfl, rfl⟩

lemma step_traced (past : List HostEvent) (h : Host) (event : HostEvent) (h' : Host)
    (ht : Traced past h) (hs : h.step event = .ok h') : Traced (event :: past) h' := by
  obtain ⟨h₁, hh, rfl⟩ := step_ok hs
  apply Traced.release
  cases event with
  | connect e callback =>
    obtain rfl := Except.ok.inj hh
    exact (ht.cons _).connect List.mem_cons_self
  | receive e m => exact ht.receive hh
  | expire k =>
    rw [handle] at hh
    split at hh
    · next waits hexpire =>
      obtain rfl := Except.ok.inj hh
      exact (ht.cons _).expire hexpire
    · cases hh
  | handler k =>
    rw [handle] at hh
    split at hh
    · next w waits htake =>
      have hw := List.mem_of_getElem? (Wait.take_eq_some_iff.mp htake).1
      have hcons := ht.cons (.handler k)
      exact (hcons.take htake).handler (hcons.keeping w hw) hh
    · cases hh
  | handleSend k =>
    rw [handle] at hh
    split at hh
    · obtain rfl := Except.ok.inj hh
      have hcons := ht.cons (.handleSend k)
      exact ⟨hcons.silent, hcons.registered, hcons.keeping, hcons.sent, hcons.received,
        hcons.disconnected⟩
    · cases hh

end Steps

def samplePeer : Endpoint := ascii "UDP:fd00::2:2185"

end P2PNet.Transport.Host
