import P2PNet.Overlay.Socket

/-! The handshake of an `overlay::Connection` over whole runs. A call comes with
its surroundings: which transports are connected, the keys and the processors at
that moment. The log holds the calls that returned, the last one first. -/

namespace P2PNet.Overlay.Connection

open Lib.Runs OverlayMessage

variable {C : Crypto}

inductive Call where
  | connect (callback : CallbackId)
  | process (origin : TransportPtr) (header : Header) (body : Body)
  | updateTransport (tconn : TransportPtr) (verified : Bool)
  | send (payload : Payload) (callback : Option CallbackId) (encrypted forceNonConnected : Bool)
  | sendMessage (message : OverlayMessage) (callback : Option CallbackId)
  | disconnect
  deriving DecidableEq, Repr

structure Event (C : Crypto) where
  env : Env C
  keys : KeyProvider C
  processors : UInt32 → List Processor
  call : Call

def perform (c : Connection C) (e : Event C) : Result C :=
  match e.call with
  | .connect callback => c.connect e.keys e.env callback
  | .process origin header body => .ok (c.process e.processors e.env origin header body)
  | .updateTransport tconn verified => .ok (c.updateTransport tconn verified, [])
  | .send payload callback encrypted forceNonConnected =>
    c.send e.keys e.env payload callback encrypted forceNonConnected
  | .sendMessage message callback => .ok (c.sendMessage e.env message callback)
  | .disconnect => .ok (c.disconnect, [])

structure Entry (C : Crypto) where
  before : Connection C
  event : Event C
  actions : List Action
  after : Connection C

structure Traced (C : Crypto) where
  connection : Connection C
  log : List (Entry C)

def step (t : Traced C) (e : Event C) : Except Escape (Traced C) := do
  let (c, actions) ← t.connection.perform e
  .ok ⟨c, ⟨t.connection, e, actions, c⟩ :: t.log⟩

def start (c : Connection C) : Traced C := ⟨c, []⟩

def Usable (c : Connection C) (env : Env C) : Prop :=
  ∃ tconn ∈ c.transportConnections, env.transportConnected tconn = true

def IsInitPayload (env : Env C) (payload : Payload) : Prop :=
  ∃ handshake : Handshake, handshake.stage = some .init ∧
    payload = ⟨some payloadHandshake, some (env.serializeHandshake handshake)⟩

def IsInit (env : Env C) (message : OverlayMessage) : Prop :=
  ∃ payload ∈ (message.getBody.openMultipayload.getD {}).payload, IsInitPayload env payload

/-- The actions hand an INIT handshake to a transport that is connected. -/
def Hands (c : Connection C) (env : Env C) (actions : List Action) : Prop :=
  ∃ tconn ∈ c.transportConnections, env.transportConnected tconn = true ∧
    ∃ message callback, .transmit tconn message callback ∈ actions ∧ IsInit env message

def Event.Connects (e : Event C) : Prop := ∃ callback, e.call = .connect callback

def Event.Introduces (e : Event C) (tconn : TransportPtr) : Prop :=
  match e.call with
  | .process origin _ _ => tconn = origin
  | .updateTransport other _ => tconn = other
  | _ => False

/-- The caller itself sends an INIT handshake, through one of the two `send`s. -/
def Offers (c : Connection C) (e : Event C) : Prop :=
  match e.call with
  | .send payload _ encrypted forceNonConnected =>
    encrypted = false ∧ (c.connected || forceNonConnected) = true ∧ IsInitPayload e.env payload
  | .sendMessage message _ => IsInit e.env message
  | _ => False

lemma step_ok_iff {t t' : Traced C} {e : Event C} :
    step t e = .ok t' ↔ ∃ c actions, t.connection.perform e = .ok (c, actions) ∧
      t' = ⟨c, ⟨t.connection, e, actions, c⟩ :: t.log⟩ := by
  rw [step, bind_ok_iff]
  constructor
  · rintro ⟨⟨c, actions⟩, h, ht⟩
    exact ⟨c, actions, h, (Except.ok.inj ht).symm⟩
  · rintro ⟨c, actions, h, rfl⟩
    exact ⟨(c, actions), h, rfl⟩

section Effects

variable {c c' : Connection C} {e : Event C} {actions : List Action}

lemma updateTransport_eq (c : Connection C) (tconn : TransportPtr) (verified : Bool) :
    c.updateTransport tconn verified = { c with
      state := if c.state = .searchingTransport then .foundTransport else c.state
      transportConnections :=
        if verified then tconn :: c.transportConnections.erase tconn
        else c.transportConnections.erase tconn ++ [tconn] } := by
  by_cases h : c.state = .searchingTransport
  · simp [updateTransport, setState, h]
  · simp [updateTransport, h]

lemma state_updateTransport (c : Connection C) (tconn : TransportPtr) (verified : Bool) :
    (c.updateTransport tconn verified).state =
      if c.state = .searchingTransport then .foundTransport else c.state := by
  rw [updateTransport_eq]

lemma callbacks_updateTransport (c : Connection C) (tconn : TransportPtr) (verified : Bool) :
    (c.updateTransport tconn verified).connectCallbacks = c.connectCallbacks := by
  rw [updateTransport_eq]

lemma nodeInfo_updateTransport (c : Connection C) (tconn : TransportPtr) (verified : Bool) :
    (c.updateTransport tconn verified).nodeInfo = c.nodeInfo := by
  rw [updateTransport_eq]

lemma transports_updateTransport (c : Connection C) (tconn : TransportPtr) (verified : Bool) :
    (c.updateTransport tconn verified).transportConnections =
      if verified then tconn :: c.transportConnections.erase tconn
      else c.transportConnections.erase tconn ++ [tconn] := by
  rw [updateTransport_eq]

lemma mem_updateTransport {tconn other : TransportPtr} {verified : Bool} :
    other ∈ (c.updateTransport tconn verified).transportConnections ↔
      other ∈ c.transportConnections ∨ other = tconn := by
  have hmem : other ∈ c.transportConnections.erase tconn ∨ other = tconn ↔
      other ∈ c.transportConnections ∨ other = tconn := by
    by_cases h : other = tconn
    · simp [h]
    · simp [h, List.mem_erase_of_ne h]
  rw [transports_updateTransport, ← hmem]
  cases verified <;> simp [or_comm]

lemma fst_process (processors : UInt32 → List Processor) (env : Env C) (origin : TransportPtr)
    (header : Header) (body : Body) (c : Connection C) :
    (c.process processors env origin header body).1 = c.updateTransport origin false := by
  unfold process
  dsimp only
  split <;> rfl

lemma snd_process (processors : UInt32 → List Processor) (env : Env C) (origin : TransportPtr)
    (header : Header) (body : Body) (c : Connection C) :
    ∀ a ∈ (c.process processors env origin header body).2, ∃ p payload, a = .process p payload := by
  intro a ha
  unfold process at ha
  dsimp only at ha
  split at ha
  · obtain ⟨⟨payload, encrypted⟩, -, ha⟩ := List.mem_flatMap.mp ha
    obtain ⟨p, -, rfl⟩ := List.mem_map.mp ha
    exact ⟨p, payload, rfl⟩
  · cases ha

lemma sendMessage_of_usable {env : Env C} {message : OverlayMessage}
    {callback : Option CallbackId} (h : c.Usable env) :
    c.sendMessage env message callback =
      (c, (c.transportConnections.filter env.transportConnected).map
        fun tconn => .transmit tconn message callback) := by
  obtain ⟨tconn, hmem, hconnected⟩ := h
  rw [sendMessage, if_neg (List.ne_nil_of_mem (List.mem_filter.mpr ⟨hmem, hconnected⟩))]

lemma sendMessage_of_not_usable {env : Env C} {message : OverlayMessage}
    {callback : Option CallbackId} (h : ¬c.Usable env) :
    c.sendMessage env message callback =
      (c.setState .searchingTransport, [.sent callback P2PError.noTransport.value]) := by
  rw [sendMessage, if_pos]
  exact List.filter_eq_nil_iff.mpr fun tconn hmem hconnected => h ⟨tconn, hmem, hconnected⟩

lemma fst_sendMessage (c : Connection C) (env : Env C) (message : OverlayMessage)
    (callback : Option CallbackId) :
    (c.sendMessage env message callback).1 = c ∨
      (c.sendMessage env message callback).1 = c.setState .searchingTransport := by
  by_cases h : c.Usable env
  · exact .inl (by rw [sendMessage_of_usable h])
  · exact .inr (by rw [sendMessage_of_not_usable h])

section Fields

variable (c : Connection C) (env : Env C) (message : OverlayMessage) (callback : Option CallbackId)

lemma setState_sendMessage (state : State) :
    (c.sendMessage env message callback).1.setState state = c.setState state := by
  obtain h | h := c.fst_sendMessage env message callback <;> rw [h]
  rfl

lemma transports_sendMessage :
    (c.sendMessage env message callback).1.transportConnections = c.transportConnections := by
  obtain h | h := c.fst_sendMessage env message callback <;> rw [h]
  rfl

lemma callbacks_sendMessage :
    (c.sendMessage env message callback).1.connectCallbacks = c.connectCallbacks := by
  obtain h | h := c.fst_sendMessage env message callback <;> rw [h]
  rfl

lemma nodeInfo_sendMessage : (c.sendMessage env message callback).1.nodeInfo = c.nodeInfo := by
  obtain h | h := c.fst_sendMessage env message callback <;> rw [h]
  rfl

end Fields

lemma snd_sendMessage (c : Connection C) (callbacks : List (CallbackId × ℤ)) (env : Env C)
    (message : OverlayMessage) (callback : Option CallbackId) :
    ({ c with connectCallbacks := callbacks }.sendMessage env message callback).2 =
      (c.sendMessage env message callback).2 := by
  unfold sendMessage
  dsimp only
  split <;> rfl

/-- What a call that returns can have done. -/
inductive Effect (c : Connection C) (e : Event C) : Connection C → List Action → Prop
  | greeted {callback : CallbackId} (hcall : e.call = .connect callback)
      (hstate : c.state = .established) : Effect c e c [.connected callback 0]
  | waiting {callback : CallbackId} {time : ℤ} (hcall : e.call = .connect callback)
      (hstate : c.state ≠ .established) (hfound : c.state ≠ .foundTransport) :
      Effect c e { c with connectCallbacks := c.connectCallbacks ++ [(callback, time)] }
        [.await callback time]
  | started {callback : CallbackId} {time : ℤ} {message : OverlayMessage}
      (hcall : e.call = .connect callback) (hstate : c.state = .foundTransport)
      (hinit : IsInit e.env message) :
      Effect c e
        { c with
          state := .handshakeInitSent
          connectCallbacks := c.connectCallbacks ++ [(callback, time)] }
        (.await callback time :: (c.sendMessage e.env message none).2)
  | moved {tconn : TransportPtr} {verified : Bool} {actions : List Action}
      (hcall : ∀ other, e.Introduces other ↔ other = tconn) (hother : ¬e.Connects)
      (hoffer : ¬c.Offers e) (hactions : ∀ a ∈ actions, ∃ p payload, a = .process p payload) :
      Effect c e (c.updateTransport tconn verified) actions
  | sent {message : OverlayMessage} {callback : Option CallbackId}
      (hcall : ∀ other, ¬e.Introduces other) (hother : ¬e.Connects)
      (hoffer : c.Offers e ↔ IsInit e.env message) :
      Effect c e (c.sendMessage e.env message callback).1
        (c.sendMessage e.env message callback).2
  | refused {callback : Option CallbackId} (hcall : ∀ other, ¬e.Introduces other)
      (hother : ¬e.Connects) (hoffer : ¬c.Offers e) :
      Effect c e c [.sent callback P2PError.notConnected.value]
  | closed (hcall : e.call = .disconnect) : Effect c e c.disconnect []

lemma ok_pair {result : Connection C × List Action}
    (h : (Except.ok result : Result C) = .ok (c', actions)) :
    c' = result.1 ∧ actions = result.2 := by
  obtain rfl := Except.ok.inj h
  exact ⟨rfl, rfl⟩

lemma handshakeInit_ok {keys : KeyProvider C} {env : Env C} {payload : Payload}
    (h : handshakeInit keys env = .ok payload) : IsInitPayload env payload := by
  obtain ⟨info, -, h⟩ := bind_ok_iff.mp h
  obtain ⟨keyInfo, -, h⟩ := bind_ok_iff.mp h
  cases hkey : info.privateKey with
  | none =>
    rw [hkey] at h
    cases h
  | some privateKey =>
    rw [hkey] at h
    obtain rfl := Except.ok.inj h
    exact ⟨_, rfl, rfl⟩

lemma isInit_open {env : Env C} {message : OverlayMessage} {payload : Payload} :
    IsInit env { message with body := some ⟨some ⟨[payload]⟩, none⟩ } ↔
      IsInitPayload env payload := by
  simp [IsInit, getBody]

lemma not_isInit_encrypted {env : Env C} {message : OverlayMessage} {text : Bytes} :
    ¬IsInit env { message with body := some ⟨none, some text⟩ } := by
  simp [IsInit, getBody]

lemma send_ok {keys : KeyProvider C} {env : Env C} {payload : Payload}
    {callback : Option CallbackId} {encrypted force : Bool}
    (h : c.send keys env payload callback encrypted force = .ok (c', actions)) :
    (∃ message, c' = (c.sendMessage env message callback).1 ∧
      actions = (c.sendMessage env message callback).2 ∧
      (IsInit env message ↔ encrypted = false ∧ (c.connected || force) = true ∧
        IsInitPayload env payload)) ∨
    c' = c ∧ actions = [.sent callback P2PError.notConnected.value] ∧
      (encrypted = false → (c.connected || force) = false) := by
  obtain ⟨message, -, h⟩ := bind_ok_iff.mp h
  dsimp only at h
  split_ifs at h with hencrypted hopen
  · simp only [Bool.and_eq_true] at hencrypted
    refine .inl ⟨_, (ok_pair h).1, (ok_pair h).2, ?_⟩
    simp [not_isInit_encrypted, hencrypted.1]
  · simp only [Bool.and_eq_true, Bool.not_eq_true'] at hopen
    refine .inl ⟨_, (ok_pair h).1, (ok_pair h).2, ?_⟩
    rw [isInit_open]
    simp [hopen.1, hopen.2]
  · obtain ⟨rfl, rfl⟩ := ok_pair h
    refine .inr ⟨rfl, rfl, fun hplain => ?_⟩
    simpa [hplain] using hopen

theorem perform_effect (h : c.perform e = .ok (c', actions)) : Effect c e c' actions := by
  obtain ⟨env, keys, processors, call⟩ := e
  cases call with
  | connect callback =>
    simp only [perform, connect] at h
    split_ifs at h with hestablished hfound
    · obtain ⟨rfl, rfl⟩ := ok_pair h
      exact .greeted rfl hestablished
    · obtain ⟨payload, hpayload, h⟩ := bind_ok_iff.mp h
      obtain ⟨⟨c₁, actions₁⟩, hsend, h⟩ := bind_ok_iff.mp h
      obtain ⟨rfl, rfl⟩ := ok_pair h
      obtain ⟨message, rfl, rfl, hinit⟩ | ⟨-, -, hforce⟩ := send_ok hsend
      · -- whichever state the nested `send` has written is overwritten
        simp only [snd_sendMessage, setState_sendMessage]
        exact .started rfl hfound (hinit.mpr ⟨rfl, by simp, handshakeInit_ok hpayload⟩)
      · simp at hforce
    · obtain ⟨rfl, rfl⟩ := ok_pair h
      exact .waiting rfl hestablished hfound
  | process origin header body =>
    obtain ⟨rfl, rfl⟩ := ok_pair h
    rw [fst_process]
    exact .moved (fun _ => .rfl) (by rintro ⟨_, ⟨⟩⟩) id (snd_process _ _ _ _ _ _)
  | updateTransport tconn verified =>
    obtain ⟨rfl, rfl⟩ := ok_pair h
    exact .moved (fun _ => .rfl) (by rintro ⟨_, ⟨⟩⟩) id (by simp)
  | send payload callback encrypted force =>
    obtain ⟨message, rfl, rfl, hinit⟩ | ⟨rfl, rfl, hrefused⟩ := send_ok h
    · exact .sent (fun _ => id) (by rintro ⟨_, ⟨⟩⟩) hinit.symm
    · refine .refused (fun _ => id) (by rintro ⟨_, ⟨⟩⟩) ?_
      rintro ⟨hplain, hopen, -⟩
      simp [hrefused hplain] at hopen
  | sendMessage message callback =>
    obtain ⟨rfl, rfl⟩ := ok_pair h
    exact .sent (fun _ => id) (by rintro ⟨_, ⟨⟩⟩) .rfl
  | disconnect =>
    obtain ⟨rfl, rfl⟩ := ok_pair h
    exact .closed rfl

lemma hands_sendMessage {env : Env C} {message : OverlayMessage} {callback : Option CallbackId} :
    c.Hands env (c.sendMessage env message callback).2 ↔ c.Usable env ∧ IsInit env message := by
  constructor
  · rintro ⟨tconn, hmem, hconnected, sent, callback', htransmit, hinit⟩
    have husable : c.Usable env := ⟨tconn, hmem, hconnected⟩
    rw [sendMessage_of_usable husable] at htransmit
    obtain ⟨_, -, heq⟩ := List.mem_map.mp htransmit
    obtain ⟨-, rfl, -⟩ := Action.transmit.inj heq
    exact ⟨husable, hinit⟩
  · rintro ⟨husable, hinit⟩
    obtain ⟨tconn, hmem, hconnected⟩ := id husable
    refine ⟨tconn, hmem, hconnected, message, callback, ?_, hinit⟩
    rw [sendMessage_of_usable husable]
    exact List.mem_map.mpr ⟨tconn, List.mem_filter.mpr ⟨hmem, hconnected⟩, rfl⟩

lemma hands_cons_await {env : Env C} {callback : CallbackId} {time : ℤ} :
    c.Hands env (.await callback time :: actions) ↔ c.Hands env actions := by
  simp [Hands]

lemma not_hands {env : Env C}
    (h : ∀ a ∈ actions, ∀ tconn message callback, a ≠ .transmit tconn message callback) :
    ¬c.Hands env actions := by
  rintro ⟨tconn, -, -, message, callback, hmem, -⟩
  exact h _ hmem tconn message callback rfl

/-- With a connected transport known, either the connect finds the state FOUND_TRANSPORT
or the caller sends an INIT of its own. -/
def Starts (c : Connection C) (e : Event C) : Prop :=
  c.Usable e.env ∧ (e.Connects ∧ c.state = .foundTransport ∨ c.Offers e)

lemma Effect.callbacks (h : Effect c e c' actions) :
    c'.connectCallbacks ≠ [] ↔ c.connectCallbacks ≠ [] ∨ e.Connects ∧ c.state ≠ .established := by
  cases h with
  | greeted hcall hstate => simp [hstate]
  | waiting hcall hstate hfound => simp [Event.Connects, hcall, hstate]
  | started hcall hstate hinit => simp [Event.Connects, hcall, hstate]
  | moved hcall hother hoffer hactions => simp [hother, callbacks_updateTransport]
  | sent hcall hother hoffer =>
    rw [callbacks_sendMessage]
    simp [hother]
  | refused hcall hother hoffer => simp [hother]
  | closed hcall => simp [Event.Connects, hcall, disconnect, setState]

lemma Effect.established (h : Effect c e c' actions) (hstate : c'.state = .established) :
    c.state = .established := by
  cases h with
  | started hcall hfound hinit => cases hstate
  | moved hcall hother hoffer hactions =>
    rw [state_updateTransport] at hstate
    split at hstate
    · cases hstate
    · exact hstate
  | sent hcall hother hoffer =>
    obtain h | h := c.fst_sendMessage e.env _ _ <;> rw [h] at hstate
    · exact hstate
    · cases hstate
  | closed hcall => cases hstate
  | _ => exact hstate

lemma Effect.transports (h : Effect c e c' actions) {tconn : TransportPtr} :
    tconn ∈ c'.transportConnections ↔ tconn ∈ c.transportConnections ∨ e.Introduces tconn := by
  cases h with
  | greeted hcall hstate => simp [Event.Introduces, hcall]
  | waiting hcall hstate hfound => simp [Event.Introduces, hcall]
  | started hcall hstate hinit => simp [Event.Introduces, hcall]
  | moved hcall hother hoffer hactions => rw [mem_updateTransport, hcall]
  | sent hcall hother hoffer =>
    rw [transports_sendMessage]
    simp [hcall]
  | refused hcall hother hoffer => simp [hcall]
  | closed hcall => simp [Event.Introduces, hcall, disconnect, setState]

lemma Effect.hands (h : Effect c e c' actions) : c.Hands e.env actions ↔ c.Starts e := by
  cases h with
  | greeted hcall hstate =>
    exact iff_of_false (not_hands (by simp)) (by simp [Starts, Offers, hcall, hstate])
  | waiting hcall hstate hfound =>
    exact iff_of_false (not_hands (by simp)) (by simp [Starts, Offers, hcall, hfound])
  | started hcall hstate hinit =>
    rw [hands_cons_await, hands_sendMessage]
    simp [Starts, Event.Connects, hcall, hstate, hinit]
  | moved hcall hother hoffer hactions =>
    refine iff_of_false (not_hands ?_) (by simp [Starts, hother, hoffer])
    intro a ha
    obtain ⟨p, payload, rfl⟩ := hactions a ha
    simp
  | sent hcall hother hoffer =>
    rw [hands_sendMessage]
    simp [Starts, hother, hoffer]
  | refused hcall hother hoffer =>
    exact iff_of_false (not_hands (by simp)) (by simp [Starts, hother, hoffer])
  | closed hcall =>
    exact iff_of_false (not_hands (by simp)) (by simp [Starts, Offers, Event.Connects, hcall])

lemma Effect.initSent (h : Effect c e c' actions) (hstate : c'.state = .handshakeInitSent) :
    c.state = .handshakeInitSent ∨ e.Connects ∧ c.state = .foundTransport := by
  cases h with
  | started hcall hfound hinit => exact .inr ⟨⟨_, hcall⟩, hfound⟩
  | moved hcall hother hoffer hactions =>
    rw [state_updateTransport] at hstate
    split at hstate
    · cases hstate
    · exact .inl hstate
  | sent hcall hother hoffer =>
    obtain h | h := c.fst_sendMessage e.env _ _ <;> rw [h] at hstate
    · exact .inl hstate
    · cases hstate
  | closed hcall => cases hstate
  | _ => exact .inl hstate

lemma Effect.connect_found (h : Effect c e c' actions) (hconnect : e.Connects)
    (hfound : c.state = .foundTransport) : c'.state = .handshakeInitSent := by
  cases h with
  | greeted hcall hstate => simp [hfound] at hstate
  | waiting hcall hstate hother => exact absurd hfound hother
  | started hcall hstate hinit => rfl
  | moved hcall hother hoffer hactions => exact absurd hconnect hother
  | sent hcall hother hoffer => exact absurd hconnect hother
  | refused hcall hother hoffer => exact absurd hconnect hother
  | closed hcall =>
    obtain ⟨callback, hconnect⟩ := hconnect
    simp [hcall] at hconnect

end Effects

/-- The last call that moved the connection to HANDSHAKE_INIT_SENT. -/
def initSetter (t : Traced C) : Option (Entry C) :=
  t.log.find? fun entry =>
    entry.before.state ≠ .handshakeInitSent ∧ entry.after.state = .handshakeInitSent

def InitSent (t : Traced C) : Prop :=
  t.connection.state = .handshakeInitSent → ∃ entry, initSetter t = some entry ∧
    entry.event.Connects ∧ entry.before.Hands entry.event.env entry.actions

/-- A connect that would set HANDSHAKE_INIT_SENT with no connected transport goes
back to SEARCHING_TRANSPORT. -/
def FallsBack (t : Traced C) (e : Event C) : Prop :=
  e.Connects → t.connection.state = .foundTransport → ¬t.connection.Usable e.env →
    ∃ t', step t e = .ok t' ∧ t'.connection.state = .searchingTransport

def ConnectsUsable (t : Traced C) (e : Event C) : Prop :=
  e.Connects → t.connection.state = .foundTransport → t.connection.Usable e.env

lemma step_initSent {t t' : Traced C} {e : Event C} (hsent : InitSent t)
    (husable : ConnectsUsable t e) (h : step t e = .ok t') : InitSent t' := by
  obtain ⟨c, actions, hperform, rfl⟩ := step_ok_iff.mp h
  have heffect := perform_effect hperform
  intro hstate
  by_cases hbefore : t.connection.state = .handshakeInitSent
  · obtain ⟨entry, hsetter, hentry⟩ := hsent hbefore
    refine ⟨entry, ?_, hentry⟩
    rw [initSetter, List.find?_cons_of_neg (by simp [hbefore])]
    exact hsetter
  · obtain hsame | ⟨hconnects, hfound⟩ := heffect.initSent hstate
    · exact absurd hsame hbefore
    · refine ⟨⟨t.connection, e, actions, c⟩, ?_, hconnects, ?_⟩
      · exact List.find?_cons_of_pos (by simpa using ⟨hbefore, hstate⟩)
      · exact heffect.hands.mpr ⟨husable hconnects hfound, .inl ⟨hconnects, hfound⟩⟩

lemma not_fallsBack {t : Traced C} {e : Event C} (h : FallsBack t e) : ConnectsUsable t e := by
  intro hconnects hfound
  by_contra husable
  obtain ⟨t', hstep, hstate⟩ := h hconnects hfound husable
  obtain ⟨c, actions, hperform, rfl⟩ := step_ok_iff.mp hstep
  rw [(perform_effect hperform).connect_found hconnects hfound] at hstate
  cases hstate

theorem init_sent_iff (c : Connection C) (hc : c.state ≠ .handshakeInitSent)
    (events : List (Event C)) :
    Always step InitSent (start c) events ∧ Guarded step FallsBack (start c) events ↔
      Guarded step ConnectsUsable (start c) events := by
  constructor
  · rintro ⟨-, hfalls⟩
    exact guarded_imp (fun _ _ => not_fallsBack) hfalls
  · intro husable
    refine ⟨always_of_guarded (fun _ h => h) (fun _ _ _ => step_initSent)
      (fun h => absurd h hc) husable, ?_⟩
    exact guarded_imp (fun _ _ h hconnects hfound hnone => absurd (h hconnects hfound) hnone)
      husable

def sampleEvent (up : Bool) (call : Call) : Event sampleCrypto :=
  ⟨{ Socket.sampleEnv with transportConnected := fun _ => up }, Socket.sampleKeys, fun _ => [],
    call⟩

/-- A connection that knows the keys of the other side, as none does that `Socket` makes. -/
def sampleKeyed : Connection sampleCrypto :=
  ⟨.closed, ⟨some (1 : ℕ), some (samplePublicKey 1), [3], 0, 0⟩, [], []⟩

theorem init_sent_iff_usable :
    let events := [sampleEvent false (.sendMessage {} none),
      sampleEvent false (.updateTransport 4 false), sampleEvent true (.connect 7)]
    (∃ t, run step (start sampleKeyed) events = .ok t ∧
      t.connection.state = .handshakeInitSent) ∧
      Always step InitSent (start sampleKeyed) events := by
  intro events
  refine ⟨⟨_, rfl, rfl⟩, ((init_sent_iff sampleKeyed (by decide) events).mpr ?_).1⟩
  refine ⟨by rintro ⟨_, ⟨⟩⟩, fun t ht => ?_⟩
  obtain rfl := Except.ok.inj ht
  refine ⟨by rintro ⟨_, ⟨⟩⟩, fun t ht => ?_⟩
  obtain rfl := Except.ok.inj ht
  exact ⟨fun _ _ => ⟨4, by decide, rfl⟩, fun _ _ => trivial⟩

theorem connect_without_transport :
    let events := [sampleEvent false (.sendMessage {} none),
      sampleEvent false (.updateTransport 4 false), sampleEvent false (.connect 7)]
    let Holds := fun c : Connection sampleCrypto =>
      Always step InitSent (start c) events ∧ Guarded step FallsBack (start c) events
    ¬Holds (Connection.new [3]) ∧ ¬Holds sampleKeyed ∧
      run step (start (Connection.new [3])) events = .error .absentKey ∧
      ∃ t, run step (start sampleKeyed) events = .ok t ∧
        t.connection.state = .handshakeInitSent ∧
        t.log.head?.map Entry.actions =
          some [.await 7 130, .sent none P2PError.noTransport.value] := by
  intro events Holds
  refine ⟨fun h => ?_, fun h => ?_, rfl, _, rfl, rfl, rfl⟩
  · obtain ⟨_, _, hup⟩ := not_fallsBack ((h.2.2 _ rfl).2 _ rfl).1 ⟨7, rfl⟩ rfl
    cases hup
  · obtain ⟨_, _, hup⟩ := not_fallsBack ((h.2.2 _ rfl).2 _ rfl).1 ⟨7, rfl⟩ rfl
    cases hup

/-- An INIT has been handed over by one of the calls so far, if after the last of them
a connect is pending and a known transport is connected. -/
def Started (t : Traced C) : Prop :=
  ∀ entry, t.log.head? = some entry → t.connection.connectCallbacks ≠ [] →
    t.connection.Usable entry.event.env →
    ∃ earlier ∈ t.log, earlier.before.Hands earlier.event.env earlier.actions

def Event.SendsInit (e : Event C) : Prop :=
  ∃ message callback, e.call = .sendMessage message callback ∧ IsInit e.env message

/-- One of the calls has brought a transport that is connected now. -/
def Known (calls : List (Event C)) (env : Env C) : Prop :=
  ∃ e ∈ calls, ∃ tconn, e.Introduces tconn ∧ env.transportConnected tconn = true

/-- The caller has sent an INIT of its own when a transport brought before was connected. -/
def InitOffered (calls : List (Event C)) : Prop :=
  ∃ before e after, calls = before ++ e :: after ∧ e.SendsInit ∧ Known before e.env

lemma initOffered_concat {calls : List (Event C)} {e : Event C} :
    InitOffered (calls ++ [e]) ↔ e.SendsInit ∧ Known calls e.env ∨ InitOffered calls := by
  constructor
  · rintro ⟨before, x, after, hsplit, hx⟩
    obtain rfl | ⟨after, y, rfl⟩ := after.eq_nil_or_concat'
    · obtain ⟨rfl, heq⟩ := List.append_inj' hsplit rfl
      obtain rfl := List.singleton_injective heq
      exact .inl hx
    · rw [← List.cons_append, ← List.append_assoc] at hsplit
      exact .inr ⟨before, x, after, (List.append_inj' hsplit rfl).1, hx⟩
  · rintro (hx | ⟨before, x, after, rfl, hx⟩)
    · exact ⟨calls, e, [], rfl, hx⟩
    · exact ⟨before, x, after ++ [e], by simp, hx⟩

section Keyless

variable {c c' : Connection C} {e : Event C} {actions : List Action}

lemma messageSkel_keyless (hkey : c.nodeInfo.privateKey = none) (keys : KeyProvider C)
    (message : OverlayMessage) : c.messageSkel keys ≠ .ok message := by
  intro h
  obtain ⟨info, -, h⟩ := bind_ok_iff.mp h
  obtain ⟨remote, hremote, -⟩ := bind_ok_iff.mp h
  simp [remoteKeyInfo, KeyInfo.copy, hkey] at hremote

lemma send_keyless (hkey : c.nodeInfo.privateKey = none) {keys : KeyProvider C} {env : Env C}
    {payload : Payload} {callback : Option CallbackId} {encrypted force : Bool} :
    c.send keys env payload callback encrypted force ≠ .ok (c', actions) := by
  intro h
  obtain ⟨message, hskel, -⟩ := bind_ok_iff.mp h
  exact messageSkel_keyless hkey keys message hskel

/-- Without a key of the peer no handshake of `connect` is ever sent, only one of the caller. -/
lemma starts_keyless (hkey : c.nodeInfo.privateKey = none)
    (h : c.perform e = .ok (c', actions)) : c.Starts e ↔ e.SendsInit ∧ c.Usable e.env := by
  obtain ⟨env, keys, processors, call⟩ := e
  cases call with
  | connect callback =>
    have hfound : c.state ≠ .foundTransport := by
      intro hstate
      simp only [perform, connect, hstate, reduceCtorEq, if_false, if_true] at h
      obtain ⟨payload, -, h⟩ := bind_ok_iff.mp h
      obtain ⟨⟨c₁, actions₁⟩, hsend, -⟩ := bind_ok_iff.mp h
      exact send_keyless (c := { c with
        state := .foundTransport
        connectCallbacks := c.connectCallbacks ++ [(callback, env.now + env.timeout)] }) hkey hsend
    simp [Starts, Event.SendsInit, Offers, hfound]
  | send payload callback encrypted force => exact absurd h (send_keyless hkey)
  | sendMessage message callback =>
    simp [Starts, Event.SendsInit, Event.Connects, Offers, and_comm]
  | process | updateTransport | disconnect =>
    simp [Starts, Event.SendsInit, Event.Connects, Offers]

end Keyless

/-- What the calls so far say about a connection that was constructed before them. -/
structure Since (calls : List (Event C)) (t : Traced C) : Prop where
  last : t.log.head?.map Entry.event = calls.getLast?
  key : t.connection.nodeInfo.privateKey = none
  state : t.connection.state ≠ .established
  callbacks : t.connection.connectCallbacks ≠ [] ↔ ∃ e ∈ calls, e.Connects
  transports : ∀ tconn, tconn ∈ t.connection.transportConnections ↔
    ∃ e ∈ calls, e.Introduces tconn
  handed : (∃ entry ∈ t.log, entry.before.Hands entry.event.env entry.actions) ↔
    InitOffered calls

lemma since_new (th : TH) : Since [] (start (Connection.new th : Connection C)) where
  last := rfl
  key := rfl
  state := by simp [start, new]
  callbacks := by simp [start, new]
  transports tconn := by simp [start, new]
  handed := by simp [start, InitOffered]

lemma Since.usable {calls : List (Event C)} {t : Traced C} (h : Since calls t) (env : Env C) :
    t.connection.Usable env ↔ Known calls env := by
  constructor
  · rintro ⟨tconn, hmem, hconnected⟩
    obtain ⟨e, he, hintroduces⟩ := (h.transports tconn).mp hmem
    exact ⟨e, he, tconn, hintroduces, hconnected⟩
  · rintro ⟨e, he, tconn, hintroduces, hconnected⟩
    exact ⟨tconn, (h.transports tconn).mpr ⟨e, he, hintroduces⟩, hconnected⟩

lemma nodeInfo_perform {c c' : Connection C} {e : Event C} {actions : List Action}
    (h : c.perform e = .ok (c', actions)) : c'.nodeInfo = c.nodeInfo := by
  cases perform_effect h with
  | greeted | waiting | started | refused | closed => rfl
  | moved => exact nodeInfo_updateTransport ..
  | sent => exact nodeInfo_sendMessage ..

lemma Since.step {calls : List (Event C)} {t t' : Traced C} {e : Event C} (h : Since calls t)
    (hstep : step t e = .ok t') : Since (calls ++ [e]) t' := by
  obtain ⟨c, actions, hperform, rfl⟩ := step_ok_iff.mp hstep
  have heffect := perform_effect hperform
  have hhands : t.connection.Hands e.env actions ↔ e.SendsInit ∧ Known calls e.env := by
    rw [heffect.hands, starts_keyless h.key hperform, h.usable]
  refine ⟨by simp, ?_, fun hstate => h.state (heffect.established hstate), ?_, ?_, ?_⟩
  · rw [nodeInfo_perform hperform]
    exact h.key
  · rw [heffect.callbacks, h.callbacks, and_iff_left h.state]
    simp [or_and_right, exists_or]
  · intro tconn
    rw [heffect.transports, h.transports]
    simp [or_and_right, exists_or]
  · rw [initOffered_concat, ← h.handed, ← hhands]
    simp

lemma Since.started_iff {calls : List (Event C)} {t : Traced C} (h : Since calls t) :
    Started t ↔ ∀ e, calls.getLast? = some e → (∃ c ∈ calls, c.Connects) → Known calls e.env →
      InitOffered calls := by
  rw [Started, ← h.handed, ← h.callbacks, ← h.last]
  constructor
  · intro hstarted e he hpending hknown
    obtain ⟨entry, hentry, rfl⟩ := Option.map_eq_some_iff.mp he
    exact hstarted entry hentry hpending ((h.usable _).mpr hknown)
  · intro hstarted entry hentry hpending husable
    exact hstarted entry.event (by rw [hentry]; rfl) hpending ((h.usable _).mp husable)

/-- A constructed connection never sends an INIT by itself: a run is lawful exactly if, whenever a
connect has been called and a transport brought so far is connected, the caller has already sent an
INIT message while such a transport was connected. -/
theorem pending_connect_started_iff (th : TH) (events : List (Event C)) (t : Traced C)
    (h : run step (start (Connection.new th)) events = .ok t) :
    Always step Started (start (Connection.new th)) events ↔
      ∀ before e after, events = before ++ e :: after → (∃ c ∈ before ++ [e], c.Connects) →
        Known (before ++ [e]) e.env → InitOffered (before ++ [e]) := by
  rw [always_iff_history (fun _ _ _ _ => Since.step) (fun _ _ => Since.started_iff)
    (since_new th) h]
  constructor
  · intro hlaw before e after hsplit
    exact hlaw (before ++ [e]) after (by simpa using hsplit) e (by simp)
  · intro hlaw calls after hsplit e hlast
    obtain ⟨before, rfl⟩ := List.getLast?_eq_some_iff.mp hlast
    exact hlaw before e after (by simpa using hsplit)

/-- The INIT that a caller sends itself. -/
def sampleInit : OverlayMessage :=
  let handshake : Handshake := { stage := some .init }
  let payload : Payload :=
    ⟨some payloadHandshake, some (Socket.sampleEnv.serializeHandshake handshake)⟩
  { body := some ⟨some ⟨[payload]⟩, none⟩ }

theorem pending_connect_started_offered :
    let events := [sampleEvent true (.updateTransport 4 false),
      sampleEvent true (.sendMessage sampleInit none), sampleEvent true (.connect 7)]
    ∃ t, run step (start (Connection.new [3])) events = .ok t ∧
      t.connection.connectCallbacks = [(7, 130)] ∧
      Always step Started (start (Connection.new [3])) events := by
  intro events
  refine ⟨_, rfl, rfl, (pending_connect_started_iff [3] events _ rfl).mpr ?_⟩
  intro before e after hsplit hconnects _
  -- the connect is the last call
  have hall : before ++ [e] = events := by
    rcases before with - | ⟨first, - | ⟨second, - | ⟨third, rest⟩⟩⟩
    · obtain ⟨rfl, -⟩ := List.cons.inj hsplit
      simp [Event.Connects, sampleEvent] at hconnects
    · obtain ⟨rfl, hrest⟩ := List.cons.inj hsplit
      obtain ⟨rfl, -⟩ := List.cons.inj hrest
      simp [Event.Connects, sampleEvent] at hconnects
    · obtain ⟨hfirst, hrest⟩ := List.cons.inj hsplit
      obtain ⟨hsecond, hlast⟩ := List.cons.inj hrest
      rw [← hfirst, ← hsecond, ← (List.cons.inj hlast).1]
      rfl
    · have hlength := congrArg List.length hsplit
      simp [events] at hlength
  have hinit : (sampleEvent true (.sendMessage sampleInit none)).SendsInit :=
    ⟨sampleInit, none, rfl, _, List.mem_singleton_self _, { stage := some .init }, rfl, rfl⟩
  rw [hall]
  exact ⟨[sampleEvent true (.updateTransport 4 false)], _, _, rfl, hinit, _,
    List.mem_singleton_self _, 4, rfl, rfl⟩

theorem connect_before_transport :
    let events := [sampleEvent true (.connect 7), sampleEvent true (.updateTransport 4 false)]
    (∃ t, run step (start (Connection.new [3])) events = .ok t ∧
      t.connection.connectCallbacks = [(7, 130)] ∧ t.connection.transportConnections = [4] ∧
      t.log.map Entry.actions = [[], [.await 7 130]]) ∧
      ¬Always step Started (start (Connection.new [3])) events := by
  intro events
  refine ⟨⟨_, rfl, rfl, rfl, rfl⟩, fun h => ?_⟩
  obtain ⟨entry, hentry, tconn, -, -, message, callback, hmem, -⟩ :=
    ((h.2 _ rfl).2 _ rfl) _ rfl (List.cons_ne_nil _ _) ⟨4, by decide, rfl⟩
  obtain rfl | hentry := List.mem_cons.mp hentry
  · cases hmem
  · obtain rfl := List.mem_singleton.mp hentry
    simp at hmem

end P2PNet.Overlay.Connection
