import P2PNet.Common.Crypto
import P2PNet.Common.Error
import P2PNet.Lib.StdMap
import P2PNet.Lib.Waits

/-! One host of the transport layer: `transport::Socket`, its `UDPInterface` and
the `UDPConnection` objects. An endpoint is the text that endpoints are compared
by. A connection lives as long as the socket has it registered or a send of it
has not completed; the handlers of its timers hold a bare pointer. Timers may
expire at any time, so their intervals do not occur. -/

namespace P2PNet.Transport

open Lib

abbrev Endpoint := Bytes
abbrev ConnectionPtr := ℕ
abbrev CallbackId := ℕ

def ascii (s : String) : Bytes := s.toList.map (fun c => UInt8.ofNat c.toNat)

def keepAliveMsg : Bytes := ascii "UDP_KEEPALIVE"
def connectMsg : Bytes := ascii "UDP_CONNECT"
def disconnectMsg : Bytes := ascii "UDP_DISCONNECT"

inductive Timer where
  | connSendTimer
  | connReceiveTimeout
  deriving DecidableEq, Repr

/-- The handlers: `sendKeepAlive` and the lambdas of `receivedKeepAlive` and of `connect`. -/
inductive TimerHandler where
  | sendKeepAlive
  | inactivity
  | connecting
  deriving DecidableEq, Repr

structure UDPConnection where
  endpoint : Endpoint
  connectingCallback : Option CallbackId
  mConnected : Bool
  alive : Bool
  deriving DecidableEq, Repr

structure Host where
  outgoingOnly : Bool
  hasDisconnectCallback : Bool
  connections : StdMap Endpoint ConnectionPtr
  objects : List UDPConnection
  waits : List (Wait (ConnectionPtr × Timer) TimerHandler)
  sending : List ConnectionPtr
  sent : List (Endpoint × Bytes)
  received : List (ConnectionPtr × Bytes)
  connectCalls : List (CallbackId × ℤ)
  disconnectCalls : List (ConnectionPtr × ℤ)

inductive HostEvent where
  | connect (endpoint : Endpoint) (callback : CallbackId)
  | receive (source : Endpoint) (message : Bytes)
  | expire (wait : ℕ)
  | handler (wait : ℕ)
  | handleSend (send : ℕ)
  deriving DecidableEq, Repr

def UDPConnection.new (endpoint : Endpoint) : UDPConnection := ⟨endpoint, none, false, true⟩

namespace Host

def new (outgoingOnly hasDisconnectCallback : Bool) : Host :=
  ⟨outgoingOnly, hasDisconnectCallback, .empty, [], [], [], [], [], [], []⟩

def modify (h : Host) (p : ConnectionPtr) (f : UDPConnection → UDPConnection) : Host :=
  { h with objects := h.objects.modify p f }

def setConnected (h : Host) (p : ConnectionPtr) (value : Bool) : Host :=
  h.modify p (fun c => { c with mConnected := value })

def endpoint (h : Host) (p : ConnectionPtr) : Endpoint :=
  (h.objects[p]?.map UDPConnection.endpoint).getD []

def make (h : Host) (endpoint : Endpoint) : Host × ConnectionPtr :=
  ({ h with objects := h.objects ++ [.new endpoint] }, h.objects.length)

def onConnect (h : Host) (p : ConnectionPtr) : Host :=
  { h with connections := h.connections.insert (h.endpoint p) p }

def onDisconnect (h : Host) (p : ConnectionPtr) : Host :=
  { h with connections := h.connections.erase (h.endpoint p) }

def send (h : Host) (p : ConnectionPtr) (data : Bytes) : Host :=
  { h with
    sent := h.sent ++ [(h.endpoint p, data)]
    sending := h.sending ++ [p] }

def rearm (h : Host) (p : ConnectionPtr) (timer : Timer) (handler : TimerHandler) : Host :=
  { h with waits := Wait.rearm (p, timer) handler h.waits }

def cancel (h : Host) (p : ConnectionPtr) (timer : Timer) : Host :=
  { h with waits := Wait.cancel (p, timer) h.waits }

def sendKeepAlive (h : Host) (p : ConnectionPtr) : Host :=
  (h.send p keepAliveMsg).rearm p .connSendTimer .sendKeepAlive

def receivedConnect (h : Host) (p : ConnectionPtr) : Host :=
  ((h.setConnected p true).onConnect p).sendKeepAlive p

def receivedKeepAlive (h : Host) (p : ConnectionPtr) : Host :=
  (h.rearm p .connReceiveTimeout .inactivity).setConnected p true

def disconnectCallback (h : Host) (p : ConnectionPtr) (error : P2PError) :
    Except Escape Host :=
  if h.hasDisconnectCallback then
    .ok { h with disconnectCalls := h.disconnectCalls ++ [(p, error.value)] }
  else .error .badFunctionCall

def receivedDisconnect (h : Host) (p : ConnectionPtr) : Except Escape Host := do
  let h := (h.cancel p .connSendTimer).cancel p .connReceiveTimeout
  let h ← h.disconnectCallback p .connectionReset
  .ok ((h.setConnected p false).onDisconnect p)

/-- `UDPConnection::connect`; the callback is not kept. -/
def connectionConnect (h : Host) (p : ConnectionPtr) (_callback : CallbackId) : Host :=
  (h.rearm p .connReceiveTimeout .connecting).send p connectMsg

def connect (h : Host) (endpoint : Endpoint) (callback : CallbackId) : Host :=
  let (h, p) := h.make endpoint
  h.connectionConnect p callback

def connectingCallback (h : Host) (c : UDPConnection) (error : ℤ) : Except Escape Host :=
  match c.connectingCallback with
  | some callback => .ok { h with connectCalls := h.connectCalls ++ [(callback, error)] }
  | none => .error .badFunctionCall

def handleReceive (h : Host) (source : Endpoint) (message : Bytes) : Except Escape Host :=
  match h.connections.find source with
  | some p =>
    if message = keepAliveMsg then .ok (h.receivedKeepAlive p)
    else if message = disconnectMsg then h.receivedDisconnect p
    else .ok { h with received := h.received ++ [(p, message)] }
  | none =>
    if message = connectMsg && !h.outgoingOnly then
      let (h, p) := h.make source
      .ok (h.receivedConnect p)
    else .ok h

def runHandler (h : Host) (p : ConnectionPtr) (aborted : Bool) :
    TimerHandler → Except Escape Host
  | .sendKeepAlive =>
    if aborted then .ok h
    else
      match h.objects[p]? with
      | some c => if c.alive then .ok (h.sendKeepAlive p) else .error .dangling
      | none => .error .dangling
  -- `udp_interface` is a reference to a local variable of `receivedKeepAlive`
  | .inactivity => if aborted then .ok h else .error .dangling
  | .connecting =>
    match h.objects[p]? with
    | none => .error .dangling
    | some c =>
      if c.alive then
        if aborted then do
          let h ← h.connectingCallback c 0
          .ok (((h.setConnected p true).onConnect p).sendKeepAlive p)
        else do
          let h ← h.connectingCallback c P2PError.timedOut.value
          .ok (h.setConnected p false)
      else .error .dangling

def held (h : Host) (p : ConnectionPtr) (c : UDPConnection) : Bool :=
  h.connections.find c.endpoint = some p || h.sending.contains p

/-- Connections without an owner are destroyed, which cancels their timers. -/
def release (h : Host) : Host :=
  let dead (p : ConnectionPtr) (c : UDPConnection) : Bool := c.alive && !h.held p c
  { h with
    objects := h.objects.mapIdx (fun p c => if dead p c then { c with alive := false } else c)
    waits := h.waits.map (fun w =>
      if h.objects[w.timer.1]?.any (dead w.timer.1) then w.abort else w) }

def handle (h : Host) : HostEvent → Except Escape Host
  | .connect endpoint callback => .ok (h.connect endpoint callback)
  | .receive source message => h.handleReceive source message
  | .expire k =>
    match Wait.expire k h.waits with
    | some waits => .ok { h with waits := waits }
    | none => .error .disabled
  | .handler k =>
    match Wait.take k h.waits with
    | some (w, waits) =>
      runHandler { h with waits := waits } w.timer.1 (w.state = .aborted) w.handler
    | none => .error .disabled
  | .handleSend k =>
    if k < h.sending.length then .ok { h with sending := h.sending.eraseIdx k }
    else .error .disabled

def step (h : Host) (event : HostEvent) : Except Escape Host := do
  let h ← h.handle event
  .ok h.release

end Host

end P2PNet.Transport
