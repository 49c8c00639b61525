import P2PNet.Overlay.Delivery
import P2PNet.Overlay.Preference
import P2PNet.Overlay.Secrecy
import P2PNet.Overlay.Skeleton
import P2PNet.Overlay.Wire

/-! The whole life of an `overlay::Connection` from its constructor on, and of the
`overlay::Socket` above it. A connection knows of its peer no more than a public key, and
without a private key no message of its own can be built. -/

namespace P2PNet.Overlay

open Lib Lib.Runs OverlayMessage

variable {C : Crypto}

/-- A connection with everything that its calls did. -/
structure Life (C : Crypto) where
  timed : TimedConnection C
  actions : List Action

inductive LifeEvent (C : Crypto) where
  | timer (e : TimerEvent C)
  | expirationTime (expiryTime : ℤ)
  | loseTime (lostTime : ℤ)
  | fromProtobuf (loadKey : Bytes → Except Escape (Option Bytes)) (keyInfo : Handshake.KeyInfo)

namespace Connection

variable {c c' : Connection C} {e : Event C} {actions : List Action}

def actionsOf (c : Connection C) (e : Event C) : List Action :=
  match c.perform e with
  | .ok (_, actions) => actions
  | .error _ => []

def Early (c : Connection C) : Prop :=
  c.state = .closed ∨ c.state = .searchingTransport ∨ c.state = .foundTransport

/-- What a call that returns can have done on a connection that no handshake was made for. -/
inductive Unshaken (c : Connection C) (e : Event C) : Connection C → List Action → Prop
  | waiting {callback : CallbackId} {time : ℤ} :
      Unshaken c e { c with connectCallbacks := c.connectCallbacks ++ [(callback, time)] }
        [.await callback time]
  | processed (origin : TransportPtr) (header : Header) (body : Body) :
      Unshaken c e (c.updateTransport origin false)
        (c.process e.processors e.env origin header body).2
  | moved (tconn : TransportPtr) (verified : Bool) :
      Unshaken c e (c.updateTransport tconn verified) []
  | messaged {message : OverlayMessage} {callback : Option CallbackId}
      (hcall : e.call = .sendMessage message callback) :
      Unshaken c e (c.sendMessage e.env message callback).1
        (c.sendMessage e.env message callback).2
  | closed : Unshaken c e c.disconnect []

lemma connect_unshaken {keys : KeyProvider C} {env : Env C} {callback : CallbackId}
    (hnone : c.nodeInfo.privateKey = none) (hearly : c.Early)
    (h : c.connect keys env callback = .ok (c', actions)) :
    c.state ≠ .foundTransport ∧
      c' = { c with
        connectCallbacks := c.connectCallbacks ++ [(callback, env.now + env.timeout)] } ∧
      actions = [.await callback (env.now + env.timeout)] := by
  have hestablished : c.state ≠ .established := by
    rcases hearly with hs | hs | hs <;> simp [hs]
  rw [connect, if_neg hestablished] at h
  dsimp only at h
  split at h
  · obtain ⟨payload, -, h⟩ := bind_ok_iff.mp h
    obtain ⟨result, hsend, -⟩ := bind_ok_iff.mp h
    refine absurd hsend (send_keyless ?_)
    exact hnone
  · next hfound =>
    obtain ⟨rfl, rfl⟩ := ok_pair h
    exact ⟨hfound, rfl, rfl⟩

theorem perform_unshaken (hnone : c.nodeInfo.privateKey = none) (hearly : c.Early)
    (h : c.perform e = .ok (c', actions)) : Unshaken c e c' actions := by
  rw [perform] at h
  split at h
  · obtain ⟨-, rfl, rfl⟩ := connect_unshaken hnone hearly h
    exact .waiting
  · next origin header body hcall =>
    obtain ⟨rfl, rfl⟩ := ok_pair h
    rw [fst_process]
    exact .processed origin header body
  · obtain ⟨rfl, rfl⟩ := ok_pair h
    exact .moved _ _
  · exact absurd h (send_keyless hnone)
  · next message callback hcall =>
    obtain ⟨rfl, rfl⟩ := ok_pair h
    exact .messaged hcall
  · obtain ⟨rfl, rfl⟩ := ok_pair h
    exact .closed

lemma Unshaken.nodeInfo (h : Unshaken c e c' actions) : c'.nodeInfo = c.nodeInfo := by
  cases h with
  | waiting => rfl
  | processed => exact nodeInfo_updateTransport _ _ _
  | moved => exact nodeInfo_updateTransport _ _ _
  | messaged => exact nodeInfo_sendMessage _ _ _ _
  | closed => rfl

lemma early_updateTransport (hearly : c.Early) (tconn : TransportPtr) (verified : Bool) :
    (c.updateTransport tconn verified).Early := by
  rw [Early, state_updateTransport]
  split
  · exact .inr (.inr rfl)
  · exact hearly

lemma Unshaken.early (h : Unshaken c e c' actions) (hearly : c.Early) : c'.Early := by
  cases h with
  | waiting => exact hearly
  | processed => exact early_updateTransport hearly _ _
  | moved => exact early_updateTransport hearly _ _
  | @messaged message callback =>
    rcases fst_sendMessage c e.env message callback with hsame | hlost
    · rw [hsame]
      exact hearly
    · rw [hlost]
      exact .inr (.inl rfl)
  | closed => exact .inl rfl

lemma Unshaken.mandatory (h : Unshaken c e c' actions) (hearly : c.Early) :
    mandatoryCalls actions = [] := by
  have hconnected : c.connected = false := by
    rcases hearly with hs | hs | hs <;> simp [connected, hs]
  cases h with
  | processed origin header body =>
    rw [mandatoryCalls_process, hconnected, Bool.and_false]
    rfl
  | @messaged message callback =>
    refine List.filterMap_eq_nil_iff.mpr fun a ha => ?_
    rw [sendMessage] at ha
    split at ha
    · obtain rfl := List.mem_singleton.mp ha
      rfl
    · obtain ⟨_, _, rfl⟩ := List.mem_map.mp ha
      rfl
  | waiting | moved | closed => rfl

lemma Unshaken.transmit (h : Unshaken c e c' actions) {tconn : TransportPtr}
    {message : OverlayMessage} {callback : Option CallbackId}
    (hmem : .transmit tconn message callback ∈ actions) :
    e.call = .sendMessage message callback := by
  cases h with
  | processed origin header body =>
    obtain ⟨p, payload, heq⟩ := snd_process _ _ _ _ _ _ _ hmem
    cases heq
  | messaged hcall =>
    rw [sendMessage] at hmem
    split at hmem
    · cases List.mem_singleton.mp hmem
    · obtain ⟨_, _, heq⟩ := List.mem_map.mp hmem
      obtain ⟨-, rfl, rfl⟩ := Action.transmit.inj heq
      exact hcall
  | waiting => cases List.mem_singleton.mp hmem
  | moved | closed => cases hmem

end Connection

namespace TimedConnection

variable {t t' : TimedConnection C}

lemma connection_step {e : TimerEvent C} (h : t.step e = .ok t') :
    (∃ event actions, e = .call event ∧
      t.connection.perform event = .ok (t'.connection, actions)) ∨
    t'.connection = t.connection := by
  cases e with
  | call e =>
    obtain ⟨c, actions, hperform, rfl⟩ := call_ok h
    refine .inl ⟨e, actions, rfl, ?_⟩
    rw [connection_foldl_act]
    exact hperform
  | expire k =>
    obtain ⟨waits, -, rfl⟩ := step_expire h
    exact .inr rfl
  | handler k =>
    obtain ⟨w, rest, -, rfl⟩ := step_handler h
    rw [connectTimeout]
    split
    · exact .inr rfl
    · exact .inr rfl

end TimedConnection

namespace Life

open Connection

def new (th : TH) : Life C := ⟨.start (.new th), []⟩

def actionsOf (l : Life C) : TimerEvent C → List Action
  | .call e => l.timed.connection.actionsOf e
  | _ => []

def setConnection (l : Life C) (c : Connection C) : Life C :=
  { l with timed := { l.timed with connection := c } }

def step (l : Life C) : LifeEvent C → Except Escape (Life C)
  | .timer e => do
    let timed ← l.timed.step e
    .ok ⟨timed, l.actions ++ l.actionsOf e⟩
  | .expirationTime expiryTime =>
    .ok (l.setConnection (l.timed.connection.updateExpirationTime expiryTime))
  | .loseTime lostTime => .ok (l.setConnection (l.timed.connection.updateLoseTime lostTime))
  | .fromProtobuf loadKey keyInfo => do
    let nodeInfo ← l.timed.connection.nodeInfo.fromProtobuf loadKey keyInfo
    .ok (l.setConnection { l.timed.connection with nodeInfo := nodeInfo })

def SentByCaller (past : List (LifeEvent C)) (message : OverlayMessage)
    (callback : Option CallbackId) : Prop :=
  ∃ e, .timer (.call e) ∈ past ∧ e.call = .sendMessage message callback

structure Unshaken (past : List (LifeEvent C)) (l : Life C) : Prop where
  privateKey : l.timed.connection.nodeInfo.privateKey = none
  early : l.timed.connection.Early
  timedOut : ∀ x ∈ l.timed.called, x.2 = P2PError.timedOut.value
  mandatory : mandatoryCalls l.actions = []
  transmit : ∀ tconn message callback, .transmit tconn message callback ∈ l.actions →
    SentByCaller past message callback

variable {past : List (LifeEvent C)} {l l' : Life C}

lemma SentByCaller.cons {message : OverlayMessage} {callback : Option CallbackId}
    (e : LifeEvent C) (h : SentByCaller past message callback) :
    SentByCaller (e :: past) message callback := by
  obtain ⟨call, hmem, hcall⟩ := h
  exact ⟨call, List.mem_cons_of_mem e hmem, hcall⟩

lemma unshaken_new (th : TH) : Unshaken [] (new th : Life C) where
  privateKey := rfl
  early := .inl rfl
  timedOut _ hx := nomatch hx
  mandatory := rfl
  transmit _ _ _ hmem := nomatch hmem

lemma Unshaken.setConnection (h : Unshaken past l) (e : LifeEvent C) {c : Connection C}
    (hnone : c.nodeInfo.privateKey = none) (hstate : c.state = l.timed.connection.state) :
    Unshaken (e :: past) (l.setConnection c) where
  privateKey := hnone
  early := by
    have hearly := h.early
    rw [Early, ← hstate] at hearly
    exact hearly
  timedOut := h.timedOut
  mandatory := h.mandatory
  transmit tconn message callback hmem := (h.transmit tconn message callback hmem).cons e

lemma Unshaken.waiting (h : Unshaken past l) : l.timed.Waiting where
  state := by rcases h.early with hs | hs | hs <;> simp [hs]
  timed_out := h.timedOut

/-- A call that returns is one of those that need no key of the peer. -/
lemma Unshaken.actionsOf (h : Unshaken past l) (e : TimerEvent C) :
    mandatoryCalls (l.actionsOf e) = [] ∧
      ∀ tconn message callback, .transmit tconn message callback ∈ l.actionsOf e →
        SentByCaller (.timer e :: past) message callback := by
  cases e with
  | expire k | handler k => exact ⟨rfl, fun _ _ _ hmem => nomatch hmem⟩
  | call e =>
    rw [Life.actionsOf, Connection.actionsOf]
    split
    · next c actions hperform =>
      have hdone := perform_unshaken h.privateKey h.early hperform
      refine ⟨hdone.mandatory h.early, fun tconn message callback hmem => ?_⟩
      exact ⟨e, List.mem_cons_self, hdone.transmit hmem⟩
    · exact ⟨rfl, fun _ _ _ hmem => nomatch hmem⟩

lemma Unshaken.timer (h : Unshaken past l) {e : TimerEvent C} {timed : TimedConnection C}
    (hstep : l.timed.step e = .ok timed) :
    Unshaken (.timer e :: past) ⟨timed, l.actions ++ l.actionsOf e⟩ := by
  have hkept : timed.connection.nodeInfo.privateKey = none ∧ timed.connection.Early := by
    rcases TimedConnection.connection_step hstep with ⟨event, actions, rfl, hperform⟩ | heq
    · have hdone := perform_unshaken h.privateKey h.early hperform
      rw [hdone.nodeInfo]
      exact ⟨h.privateKey, hdone.early h.early⟩
    · rw [heq]
      exact ⟨h.privateKey, h.early⟩
  obtain ⟨hmandatory, htransmit⟩ := h.actionsOf e
  refine ⟨hkept.1, hkept.2, ?_, ?_, ?_⟩
  · exact (TimedConnection.step_waiting _ _ _ h.waiting hstep).timed_out
  · rw [mandatoryCalls_append, h.mandatory, hmandatory]
    rfl
  · intro tconn message callback hmem
    obtain hmem | hmem := List.mem_append.mp hmem
    · exact (h.transmit tconn message callback hmem).cons _
    · exact htransmit tconn message callback hmem

lemma step_unshaken (past : List (LifeEvent C)) (l : Life C) (e : LifeEvent C) (l' : Life C)
    (h : Unshaken past l) (hstep : l.step e = .ok l') : Unshaken (e :: past) l' := by
  cases e with
  | timer e =>
    obtain ⟨timed, htimed, hstep⟩ := bind_ok_iff.mp hstep
    obtain rfl := Except.ok.inj hstep
    exact h.timer htimed
  | expirationTime expiryTime =>
    obtain rfl := Except.ok.inj hstep
    have hupdate := privateKey_update _ (.expirationTime expiryTime) _ h.privateKey rfl
    refine h.setConnection _ hupdate ?_
    rw [updateExpirationTime]
    split <;> rfl
  | loseTime lostTime =>
    obtain rfl := Except.ok.inj hstep
    exact h.setConnection _ h.privateKey rfl
  | fromProtobuf loadKey keyInfo =>
    obtain ⟨nodeInfo, hinfo, hstep⟩ := bind_ok_iff.mp hstep
    obtain rfl := Except.ok.inj hstep
    refine h.setConnection _ ?_ rfl
    exact (KeyInfo.privateKey_fromProtobuf hinfo).trans h.privateKey

/-- Whatever is called and received, a connection never gets beyond FOUND_TRANSPORT, where no
`connect` returns: none succeeds, no processor that insists on encryption is called, and nothing is
transmitted but the whole messages of its callers. -/
theorem never_shaken (th : TH) (events : List (LifeEvent C)) (l : Life C)
    (h : run step (new th) events = .ok l) :
    l.timed.connection.Early ∧ (∀ x ∈ l.timed.called, x.2 = P2PError.timedOut.value) ∧
      mandatoryCalls l.actions = [] ∧
      (∀ tconn message callback, .transmit tconn message callback ∈ l.actions →
        SentByCaller events message callback) ∧
      ∀ e callback, e.call = .connect callback → l.timed.connection.state = .foundTransport →
        ∃ escape, l.timed.connection.perform e = .error escape := by
  have hend := history_invariant step_unshaken (unshaken_new th) h
  refine ⟨hend.early, hend.timedOut, hend.mandatory, ?_, ?_⟩
  · intro tconn message callback hmem
    obtain ⟨e, he, hcall⟩ := hend.transmit tconn message callback hmem
    rw [List.append_nil, List.mem_reverse] at he
    exact ⟨e, he, hcall⟩
  · intro e callback hcall hfound
    cases hperform : l.timed.connection.perform e with
    | error escape => exact ⟨escape, rfl⟩
    | ok result =>
      rw [perform, hcall] at hperform
      exact absurd hfound (connect_unshaken hend.privateKey hend.early hperform).1

-- a `connect` times out, then a transport is missed and found
def sampleLife : List (LifeEvent sampleCrypto) :=
  [.timer (.call (sampleEvent true (.connect 7))), .timer (.expire 0), .timer (.handler 0),
    .timer (.call (sampleEvent false (.sendMessage {} none))),
    .timer (.call (sampleEvent true (.updateTransport 4 false))),
    .timer (.call (sampleEvent true (.sendMessage {} none)))]

theorem never_shaken_found :
    ∃ l, run step (new [3]) sampleLife = .ok l ∧
      l.timed.connection.state = .foundTransport ∧ l.timed.called ≠ [] ∧
      (∀ x ∈ l.timed.called, x.2 = P2PError.timedOut.value) ∧
      .transmit 4 {} none ∈ l.actions ∧ SentByCaller sampleLife {} none ∧
      ∃ escape, l.timed.connection.perform (sampleEvent true (.connect 8)) = .error escape := by
  have h := never_shaken [3] sampleLife _ rfl
  refine ⟨_, rfl, rfl, List.cons_ne_nil _ _, h.2.1, ?_, h.2.2.2.1 4 {} none ?_,
    h.2.2.2.2 _ 8 rfl rfl⟩ <;> decide

end Life

namespace Socket

inductive Event (C : Crypto) where
  | connect (env : Env C) (dest : TH) (callback : CallbackId)
  | receive (env : Env C) (origin : TransportPtr) (data : Bytes)
  | registerProcessor (payloadType : UInt32) (processor : Processor)
  | renewKeys (keyProvider : KeyProvider C)

def registerProcessor (s : Socket C) (payloadType : UInt32) (processor : Processor) : Socket C :=
  { s with processors := s.processors ++ [(payloadType, processor)] }

def handle (s : Socket C) : Event C → Outcome (Socket C)
  | .connect env dest callback => s.connect env dest callback
  | .receive env origin data => s.processString env origin data
  | .registerProcessor payloadType processor => .ok (s.registerProcessor payloadType processor)
  | .renewKeys keyProvider => .ok { s with keyProvider := keyProvider }

/-- No connection is ever stored, so every call makes its own. -/
structure Unconnected (s : Socket C) : Prop where
  connections : ∀ th, s.connections.find th = none
  actions : ∀ a ∈ s.actions, ∃ callback time, a = .await callback time

variable {s s' : Socket C}

lemma Unconnected.connect (h : Unconnected s) {env : Env C} {dest : TH} {callback : CallbackId}
    (hconnect : s.connect env dest callback = .ok s') : Unconnected s' := by
  have hnew : (s.objects ++ [Connection.new dest])[s.objects.length]? = some (.new dest) := by
    simp
  simp only [Socket.connect, h.connections dest, makeConnection, hnew] at hconnect
  split at hconnect
  · cases hconnect
  · next object actions hobject =>
    obtain rfl := Except.ok.inj hconnect
    obtain ⟨-, -, rfl⟩ := Connection.connect_unshaken rfl (.inl rfl) hobject
    refine ⟨h.connections, fun a ha => ?_⟩
    obtain ha | ha := List.mem_append.mp ha
    · exact h.actions a ha
    · exact ⟨callback, _, List.mem_singleton.mp ha⟩

/-- With no connection stored, a message is dropped or leads to the end iterator. -/
lemma Unconnected.process (h : Unconnected s) {info : KeyInfo C}
    (hk : s.keyProvider.current = .ok info) (env : Env C) (origin : TransportPtr)
    (message : OverlayMessage) :
    (message.getHeader.destTh.isSome ∧ message.getHeader.source = info.th →
      ∃ left, s.process env origin (some message) = .error (.endIterator, left)) ∧
    (¬(message.getHeader.destTh.isSome ∧ message.getHeader.source = info.th) →
      s.process env origin (some message) = .ok s) := by
  have hmissing := h.connections message.getHeader.source
  cases hd : message.getHeader.destTh with
  | none =>
    simp only [Socket.process, dispatch_of_none hk hd]
    exact ⟨fun hsome => absurd hsome.1 Bool.false_ne_true, fun _ => rfl⟩
  | some dest =>
    simp only [Socket.process, dispatch_of_some hk hd]
    by_cases hown : message.getHeader.source = info.th
    · rw [if_pos hown]
      simp only [processSelf, hmissing]
      exact ⟨fun _ => ⟨_, rfl⟩, fun hne => absurd ⟨rfl, hown⟩ hne⟩
    · rw [if_neg hown]
      refine ⟨fun hsome => absurd hsome.2 hown, fun _ => ?_⟩
      split
      · next hself =>
        split at hself <;> cases hself
      · next hself =>
        split at hself <;> cases hself
      · rfl
      · rfl

lemma Unconnected.receive (h : Unconnected s) {env : Env C} {origin : TransportPtr} {data : Bytes}
    (hreceive : s.processString env origin data = .ok s') : s' = s := by
  rw [processString] at hreceive
  cases hparse : OverlayMessage.parseFromString data with
  | none =>
    rw [hparse] at hreceive
    exact (Except.ok.inj hreceive).symm
  | some message =>
    rw [hparse] at hreceive
    cases hk : s.keyProvider.current with
    | error escape => simp [Socket.process, dispatch, hk, bind, Except.bind] at hreceive
    | ok info =>
      obtain ⟨hself, hother⟩ := h.process hk env origin message
      by_cases haddressed : message.getHeader.destTh.isSome ∧ message.getHeader.source = info.th
      · obtain ⟨left, herror⟩ := hself haddressed
        rw [herror] at hreceive
        cases hreceive
      · rw [hother haddressed] at hreceive
        exact (Except.ok.inj hreceive).symm

lemma handle_unconnected (s : Socket C) (e : Event C) (s' : Socket C) (h : Unconnected s)
    (hhandle : s.handle e = .ok s') : Unconnected s' := by
  cases e with
  | connect env dest callback => exact h.connect hhandle
  | receive env origin data =>
    obtain rfl := h.receive hhandle
    exact h
  | registerProcessor payloadType processor =>
    obtain rfl := Except.ok.inj hhandle
    exact ⟨h.connections, h.actions⟩
  | renewKeys keyProvider =>
    obtain rfl := Except.ok.inj hhandle
    exact ⟨h.connections, h.actions⟩

/-- A socket that has run without a fault has stored no connection, sent nothing and called no
processor; a datagram then changes nothing, or is a message from the socket's own transient hash
and ends in undefined behaviour. -/
theorem unconnected_forever (keyProvider : KeyProvider C) (processors : List (UInt32 × Processor))
    (events : List (Event C)) (s : Socket C)
    (h : run handle (new keyProvider processors) events = .ok s) :
    (∀ th, s.connections.find th = none) ∧
      (∀ a ∈ s.actions, ∃ callback time, a = .await callback time) ∧
      ∀ (info : KeyInfo C) (env : Env C) (origin : TransportPtr) (data : Bytes),
        s.keyProvider.current = .ok info →
        if ∃ message, OverlayMessage.parseFromString data = some message ∧
          message.getHeader.destTh.isSome ∧ message.getHeader.source = info.th
        then ∃ left, s.processString env origin data = .error (.endIterator, left)
        else s.processString env origin data = .ok s := by
  have hnew : Unconnected (new keyProvider processors) :=
    ⟨fun _ => StdMap.find_empty _, fun _ ha => nomatch ha⟩
  have hend := invariant handle_unconnected hnew h
  refine ⟨hend.connections, hend.actions, fun info env origin data hk => ?_⟩
  split
  · next hown =>
    obtain ⟨message, hparse, haddressed⟩ := hown
    rw [processString, hparse]
    exact (hend.process hk env origin message).1 haddressed
  · next hother =>
    rw [processString]
    cases hparse : OverlayMessage.parseFromString data with
    | none => rfl
    | some message =>
      exact (hend.process hk env origin message).2 fun haddressed =>
        hother ⟨message, hparse, haddressed⟩

theorem unconnected_forever_connect :
    ∃ s, run handle (new sampleKeys []) [.connect sampleEnv [5] 1, .receive sampleEnv 4 [],
        .registerProcessor 7 ⟨0, true⟩, .connect sampleEnv [5] 2] = .ok s ∧
      s.actions = [.await 1 130, .await 2 130] ∧ ∀ th, s.connections.find th = none := by
  refine ⟨_, rfl, rfl, ?_⟩
  exact (unconnected_forever sampleKeys [] [.connect sampleEnv [5] 1, .receive sampleEnv 4 [],
    .registerProcessor 7 ⟨0, true⟩, .connect sampleEnv [5] 2] _ rfl).1

end Socket

end P2PNet.Overlay
