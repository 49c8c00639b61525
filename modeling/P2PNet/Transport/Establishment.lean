import P2PNet.Transport.UDP
import P2PNet.Lib.Lists
import P2PNet.Lib.Runs

/-! Two hosts that exchange datagrams, each of which may be lost, delivered more
than once or overtaken. The callback given to `Socket::connect` is kept nowhere,
and the connection it is meant for is registered nowhere. -/

namespace P2PNet.Transport

open Lib Lib.Lists Lib.Runs

inductive Side where
  | a
  | b
  deriving DecidableEq, Repr

structure Network where
  a : Host
  b : Host

inductive NetworkEvent where
  | host (side : Side) (event : HostEvent)
  | deliver (side : Side) (datagram : ℕ)
  deriving DecidableEq, Repr

namespace Host

variable {h h' h'' : Host} {p : ConnectionPtr}

structure Frame (h h' : Host) : Prop where
  calls : h'.connectCalls = h.connectCalls
  sent : h.sent ⊆ h'.sent
  callbacks : ∀ c' ∈ h'.objects, c'.connectingCallback = none ∨
    ∃ c ∈ h.objects, c'.connectingCallback = c.connectingCallback

def Silent (h : Host) : Prop := ∀ c ∈ h.objects, c.connectingCallback = none

lemma Frame.of_eq (hc : h'.connectCalls = h.connectCalls) (hs : h'.sent = h.sent)
    (ho : h'.objects = h.objects) : Frame h h' :=
  ⟨hc, by rw [hs]; exact List.Subset.refl _, fun c hc => Or.inr ⟨c, ho ▸ hc, rfl⟩⟩

lemma Frame.trans (h₁ : Frame h h') (h₂ : Frame h' h'') : Frame h h'' := by
  refine ⟨h₂.calls.trans h₁.calls, List.Subset.trans h₁.sent h₂.sent, ?_⟩
  intro c'' hc''
  rcases h₂.callbacks c'' hc'' with hn | ⟨c', hc', he'⟩
  · exact Or.inl hn
  · rcases h₁.callbacks c' hc' with hn | ⟨c, hc, he⟩
    · exact Or.inl (he'.trans hn)
    · exact Or.inr ⟨c, hc, he'.trans he⟩

lemma Frame.silent (hf : Frame h h') (hs : Silent h) : Silent h' := by
  intro c' hc'
  rcases hf.callbacks c' hc' with hn | ⟨c, hc, he⟩
  · exact hn
  · exact he.trans (hs c hc)

lemma frame_setConnected (h : Host) (p : ConnectionPtr) (value : Bool) :
    Frame h (h.setConnected p value) := by
  refine ⟨rfl, List.Subset.refl _, ?_⟩
  intro c' hc'
  rcases of_mem_modify hc' with hc | ⟨c, hc, rfl⟩
  · exact Or.inr ⟨c', hc, rfl⟩
  · exact Or.inr ⟨c, hc, rfl⟩

lemma frame_make (h : Host) (endpoint : Endpoint) : Frame h (h.make endpoint).1 := by
  refine ⟨rfl, List.Subset.refl _, ?_⟩
  intro c' hc'
  rcases List.mem_append.mp hc' with hc | hc
  · exact Or.inr ⟨c', hc, rfl⟩
  · exact Or.inl (List.mem_singleton.mp hc ▸ rfl)

lemma frame_send (h : Host) (p : ConnectionPtr) (data : Bytes) : Frame h (h.send p data) :=
  ⟨rfl, List.subset_append_left _ _, fun c hc => Or.inr ⟨c, hc, rfl⟩⟩

lemma frame_rearm (h : Host) (p : ConnectionPtr) (timer : Timer) (handler : TimerHandler) :
    Frame h (h.rearm p timer handler) :=
  .of_eq rfl rfl rfl

lemma frame_onConnect (h : Host) (p : ConnectionPtr) : Frame h (h.onConnect p) :=
  .of_eq rfl rfl rfl

lemma frame_sendKeepAlive (h : Host) (p : ConnectionPtr) : Frame h (h.sendKeepAlive p) :=
  (frame_send h p keepAliveMsg).trans (frame_rearm _ p _ _)

lemma frame_receivedConnect (h : Host) (p : ConnectionPtr) : Frame h (h.receivedConnect p) :=
  ((frame_setConnected h p true).trans (frame_onConnect _ p)).trans (frame_sendKeepAlive _ p)

lemma frame_receivedKeepAlive (h : Host) (p : ConnectionPtr) : Frame h (h.receivedKeepAlive p) :=
  (frame_rearm h p .connReceiveTimeout .inactivity).trans (frame_setConnected _ p true)

lemma frame_connect (h : Host) (endpoint : Endpoint) (callback : CallbackId) :
    Frame h (h.connect endpoint callback) :=
  ((frame_make h endpoint).trans
    (frame_rearm _ h.objects.length .connReceiveTimeout .connecting)).trans
    (frame_send _ _ connectMsg)

lemma disconnectCallback_ok {error : P2PError} (hd : h.disconnectCallback p error = .ok h') :
    Frame h h' ∧ h'.connections = h.connections := by
  rw [disconnectCallback] at hd
  split at hd
  · obtain rfl := Except.ok.inj hd
    exact ⟨.of_eq rfl rfl rfl, rfl⟩
  · cases hd

lemma receivedDisconnect_ok (hd : h.receivedDisconnect p = .ok h') :
    Frame h h' ∧ ∃ e, h'.connections = h.connections.erase e := by
  obtain ⟨h₁, hc, hr⟩ := bind_ok_iff.mp hd
  obtain ⟨hframe, hconn⟩ := disconnectCallback_ok hc
  obtain rfl := Except.ok.inj hr
  have hcancel : Frame h ((h.cancel p .connSendTimer).cancel p .connReceiveTimeout) :=
    .of_eq rfl rfl rfl
  have herase : Frame (h₁.setConnected p false) ((h₁.setConnected p false).onDisconnect p) :=
    .of_eq rfl rfl rfl
  refine ⟨((hcancel.trans hframe).trans (frame_setConnected h₁ p false)).trans herase, ?_⟩
  exact ⟨(h₁.setConnected p false).endpoint p, congrArg (StdMap.erase · _) hconn⟩

lemma handleReceive_frame {source : Endpoint} {message : Bytes}
    (hr : h.handleReceive source message = .ok h') : Frame h h' := by
  rw [handleReceive] at hr
  split at hr
  · next q _ =>
    split at hr
    · obtain rfl := Except.ok.inj hr
      exact frame_receivedKeepAlive h q
    · split at hr
      · exact (receivedDisconnect_ok hr).1
      · obtain rfl := Except.ok.inj hr
        exact .of_eq rfl rfl rfl
  · split at hr
    · obtain rfl := Except.ok.inj hr
      exact (frame_make h source).trans (frame_receivedConnect _ _)
    · obtain rfl := Except.ok.inj hr
      exact .of_eq rfl rfl rfl

lemma runHandler_ok (hs : Silent h) {aborted : Bool} {handler : TimerHandler}
    (hr : h.runHandler p aborted handler = .ok h') : h' = h ∨ h' = h.sendKeepAlive p := by
  cases handler with
  | sendKeepAlive =>
    simp only [runHandler] at hr
    split at hr
    · exact Or.inl (Except.ok.inj hr).symm
    · split at hr
      · split at hr
        · exact Or.inr (Except.ok.inj hr).symm
        · cases hr
      · cases hr
  | inactivity =>
    simp only [runHandler] at hr
    split at hr
    · exact Or.inl (Except.ok.inj hr).symm
    · cases hr
  | connecting =>
    simp only [runHandler] at hr
    split at hr
    · cases hr
    · next c hc =>
      have hn := hs c (List.mem_of_getElem? hc)
      simp only [connectingCallback, hn] at hr
      split at hr
      · split at hr
        · cases hr
        · cases hr
      · cases hr

lemma handle_frame (hs : Silent h) {event : HostEvent} (hh : h.handle event = .ok h') :
    Frame h h' := by
  cases event with
  | connect endpoint callback =>
    obtain rfl := Except.ok.inj hh
    exact frame_connect h endpoint callback
  | receive source message => exact handleReceive_frame hh
  | expire k =>
    simp only [handle] at hh
    split at hh
    · obtain rfl := Except.ok.inj hh
      exact .of_eq rfl rfl rfl
    · cases hh
  | handler k =>
    simp only [handle] at hh
    split at hh
    · next w waits _ =>
      have hframe : Frame h { h with waits := waits } := .of_eq rfl rfl rfl
      rcases runHandler_ok (hframe.silent hs) hh with rfl | rfl
      · exact hframe
      · exact hframe.trans (frame_sendKeepAlive _ _)
    · cases hh
  | handleSend k =>
    simp only [handle] at hh
    split at hh
    · obtain rfl := Except.ok.inj hh
      exact .of_eq rfl rfl rfl
    · cases hh

lemma frame_release (h : Host) : Frame h h.release := by
  refine ⟨rfl, List.Subset.refl _, ?_⟩
  intro c' hc'
  obtain ⟨i, hi, rfl⟩ := List.mem_mapIdx.mp hc'
  refine Or.inr ⟨h.objects[i], List.getElem_mem hi, ?_⟩
  split <;> rfl

lemma step_ok {event : HostEvent} (hst : h.step event = .ok h') :
    ∃ h₁, h.handle event = .ok h₁ ∧ h' = h₁.release := by
  obtain ⟨h₁, hh, hr⟩ := bind_ok_iff.mp hst
  exact ⟨h₁, hh, (Except.ok.inj hr).symm⟩

theorem step_frame (hs : Silent h) {event : HostEvent} (hst : h.step event = .ok h') :
    Frame h h' := by
  obtain ⟨h₁, hh, rfl⟩ := step_ok hst
  exact (handle_frame hs hh).trans (frame_release h₁)

lemma receivedConnect_make_connections (h : Host) (source : Endpoint) :
    ((h.make source).1.receivedConnect (h.make source).2).connections =
      h.connections.insert source h.objects.length := by
  simp [make, receivedConnect, onConnect, sendKeepAlive, send, rearm, setConnected, modify,
    endpoint, UDPConnection.new]

lemma handleReceive_connections {source e : Endpoint} {message : Bytes}
    (hr : h.handleReceive source message = .ok h') (hn : h.connections.find e = none)
    (hne : source = e → message ≠ connectMsg) : h'.connections.find e = none := by
  rw [handleReceive] at hr
  split at hr
  · split at hr
    · obtain rfl := Except.ok.inj hr
      exact hn
    · split at hr
      · obtain ⟨_, e', he'⟩ := receivedDisconnect_ok hr
        rw [he', StdMap.find_erase]
        split
        · rfl
        · exact hn
      · obtain rfl := Except.ok.inj hr
        exact hn
  · split at hr
    · next hc =>
      obtain rfl := Except.ok.inj hr
      have hm : message = connectMsg := by
        simp only [Bool.and_eq_true, decide_eq_true_eq] at hc
        exact hc.1
      have hse : e ≠ source := fun he => hne he.symm hm
      have hconn := receivedConnect_make_connections h source
      simp only [make] at hconn
      rw [hconn, StdMap.find_insert_of_ne _ _ hse, hn]
    · obtain rfl := Except.ok.inj hr
      exact hn

theorem step_connections (hs : Silent h) {event : HostEvent} {e : Endpoint}
    (hst : h.step event = .ok h') (hn : h.connections.find e = none)
    (hne : event ≠ .receive e connectMsg) : h'.connections.find e = none := by
  obtain ⟨h₁, hh, rfl⟩ := step_ok hst
  change h₁.connections.find e = none
  cases event with
  | connect endpoint callback =>
    obtain rfl := Except.ok.inj hh
    exact hn
  | receive source message =>
    apply handleReceive_connections hh hn
    rintro rfl rfl
    exact hne rfl
  | expire k =>
    simp only [handle] at hh
    split at hh
    · obtain rfl := Except.ok.inj hh
      exact hn
    · cases hh
  | handler k =>
    simp only [handle] at hh
    split at hh
    · next w waits _ =>
      have hs' : Silent { h with waits := waits } := hs
      rcases runHandler_ok hs' hh with rfl | rfl
      · exact hn
      · exact hn
    · cases hh
  | handleSend k =>
    simp only [handle] at hh
    split at hh
    · obtain rfl := Except.ok.inj hh
      exact hn
    · cases hh

end Host

namespace Network

def new (outgoingOnly hasDisconnectCallbackA hasDisconnectCallbackB : Bool) : Network :=
  ⟨.new outgoingOnly hasDisconnectCallbackA, .new false hasDisconnectCallbackB⟩

def setHost (n : Network) : Side → Host → Network
  | .a, h => { n with a := h }
  | .b, h => { n with b := h }

def host (n : Network) : Side → Host
  | .a => n.a
  | .b => n.b

def Side.other : Side → Side
  | .a => .b
  | .b => .a

variable (address : Side → Endpoint)

/-- Datagrams of the peer come by `deliver` only, which needs them to have been sent. -/
def isForeign : HostEvent → Bool
  | .receive source _ => source ≠ address .a ∧ source ≠ address .b
  | _ => true

def step (n : Network) : NetworkEvent → Except Escape Network
  | .host side event =>
    if isForeign address event then do
      let h ← (n.host side).step event
      .ok (n.setHost side h)
    else .error .disabled
  | .deliver side k =>
    match (n.host (Side.other side)).sent[k]? with
    | some (dest, message) =>
      if dest = address side then do
        let h ← (n.host side).step (.receive (address (Side.other side)) message)
        .ok (n.setHost side h)
      else .error .disabled
    | none => .error .disabled

lemma host_setHost (n : Network) (side s : Side) (h : Host) :
    (n.setHost side h).host s = if s = side then h else n.host s := by
  cases side <;> cases s <;> rfl

structure Established (n : Network) (callback : CallbackId) : Prop where
  registered : ∃ p c, n.a.connections.find (address .b) = some p ∧ n.a.objects[p]? = some c ∧
    c.mConnected = true
  called : n.a.connectCalls.filter (·.1 = callback) = [(callback, 0)]

structure Inv (n : Network) : Prop where
  silent : ∀ side, (n.host side).Silent
  calls : n.a.connectCalls = []
  unregistered : (address .a, connectMsg) ∉ n.b.sent → n.a.connections.find (address .b) = none

lemma inv_new (outgoingOnly disconnectA disconnectB : Bool) :
    Inv address (new outgoingOnly disconnectA disconnectB) := by
  refine ⟨?_, rfl, ?_⟩
  · intro side c hc
    cases side <;> simp [new, host, Host.new] at hc
  · intro _
    simp [new, Host.new]

lemma step_ok {n n' : Network} {event : NetworkEvent} (hs : n.step address event = .ok n') :
    ∃ side e h, (n.host side).step e = .ok h ∧ n' = n.setHost side h ∧
      (∀ message, side = .a → e = .receive (address .b) message →
        (address .a, message) ∈ n.b.sent) := by
  cases event with
  | host side e =>
    simp only [step] at hs
    split at hs
    · next hf =>
      obtain ⟨h, hh, hn⟩ := bind_ok_iff.mp hs
      refine ⟨side, e, h, hh, (Except.ok.inj hn).symm, ?_⟩
      rintro message _ rfl
      simp [isForeign] at hf
    · cases hs
  | deliver side k =>
    simp only [step] at hs
    split at hs
    · next dest message hk =>
      split at hs
      · next hd =>
        obtain ⟨h, hh, hn⟩ := bind_ok_iff.mp hs
        refine ⟨side, _, h, hh, (Except.ok.inj hn).symm, ?_⟩
        rintro m rfl he
        obtain rfl := (HostEvent.receive.inj he).2
        exact hd ▸ List.mem_of_getElem? hk
      · cases hs
    · cases hs

theorem step_inv (n : Network) (event : NetworkEvent) (n' : Network) (hi : Inv address n)
    (hs : n.step address event = .ok n') : Inv address n' := by
  obtain ⟨side, e, h, hh, rfl, hsent⟩ := step_ok address hs
  have hframe := Host.step_frame (hi.silent side) hh
  have hsilent : ∀ s, ((n.setHost side h).host s).Silent := by
    intro s
    rw [host_setHost]
    split
    · exact hframe.silent (hi.silent side)
    · exact hi.silent s
  cases side with
  | a =>
    refine ⟨hsilent, hframe.calls.trans hi.calls, ?_⟩
    intro hno
    apply Host.step_connections (hi.silent .a) hh (hi.unregistered hno)
    intro he
    exact hno (hsent connectMsg rfl he)
  | b =>
    refine ⟨hsilent, hi.calls, ?_⟩
    intro hno
    exact hi.unregistered (fun hm => hno (hframe.sent hm))

theorem never_established (events : List NetworkEvent) {outgoingOnly disconnectA disconnectB : Bool}
    {n : Network}
    (h : run (step address) (new outgoingOnly disconnectA disconnectB) events = .ok n) :
    (∀ callback, ¬ Established address n callback) ∧
      ((address .a, connectMsg) ∉ n.b.sent → n.a.connections.find (address .b) = none) := by
  have hi : Inv address n := invariant (step_inv address) (inv_new address _ _ _) h
  refine ⟨?_, hi.unregistered⟩
  intro callback he
  have hc := he.called
  rw [hi.calls] at hc
  cases hc

def sampleAddress : Side → Endpoint
  | .a => ascii "UDP:fd00::1:2185"
  | .b => ascii "UDP:fd00::2:2185"

theorem never_established_by_keepAlive :
    ∃ n, run (step sampleAddress) (new false true true)
        [.host .a (.connect (sampleAddress .b) 1), .deliver .b 0, .deliver .a 0] = .ok n ∧
      (∀ callback, ¬ Established sampleAddress n callback) ∧
      n.a.connections.find (sampleAddress .b) = none := by
  have h : run (step sampleAddress) (new false true true)
      [.host .a (.connect (sampleAddress .b) 1), .deliver .b 0, .deliver .a 0] = .ok _ := rfl
  obtain ⟨hnever, hnone⟩ := never_established sampleAddress _ h
  exact ⟨_, h, hnever, hnone (by decide)⟩

theorem keepAlive_establishes_nothing :
    ∃ n, run (step sampleAddress) (new false true true)
        [.host .a (.connect (sampleAddress .b) 1), .deliver .b 0, .deliver .a 0] = .ok n ∧
      n.a.sent = [(sampleAddress .b, connectMsg)] ∧
      n.b.connections.find (sampleAddress .a) = some 0 ∧
      n.b.sent = [(sampleAddress .a, keepAliveMsg)] ∧
      n.a.waits = [⟨(0, .connReceiveTimeout), .connecting, .pending⟩] ∧
      n.a.connections.find (sampleAddress .b) = none ∧ n.a.connectCalls = [] ∧
      ¬ Established sampleAddress n 1 ∧
      run (step sampleAddress) n [.host .a (.handleSend 0), .host .a (.handler 0)] =
        .error .dangling := by
  refine ⟨_, rfl, rfl, rfl, rfl, rfl, rfl, rfl, ?_, rfl⟩
  intro he
  cases he.called

end Network

end P2PNet.Transport
