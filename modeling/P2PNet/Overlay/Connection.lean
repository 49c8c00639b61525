import P2PNet.Overlay.Message

/-! `overlay::Connection`. What a call does outside its connection is a list of
actions; the transports, the clock, the other random values and the formats that
are opaque here come with `Env`. -/

namespace P2PNet.Overlay

open OverlayMessage

abbrev TransportPtr := ℕ
abbrev CallbackId := ℕ

inductive State where
  | closed
  | searchingTransport
  | foundTransport
  | handshakeInitSent
  | handshakeReplySent
  | established
  | lost
  deriving DecidableEq, Repr

def payloadHandshake : UInt32 := 1

structure Processor where
  id : ℕ
  isEncryptionMandatory : Bool := true
  deriving DecidableEq, Repr

structure Env (C : Crypto) where
  transportConnected : TransportPtr → Bool
  now : ℤ
  timeout : ℤ
  ecdhPublicKey : Bytes
  sign : C.PrivateKey → Bytes → Bytes
  encrypt : Bytes → Bytes
  decrypt : Bytes → Bytes
  serializeSigned : Handshake.SignedHandshake → Bytes
  serializeHandshake : Handshake → Bytes
  serializeMulti : MultiPayload → Bytes
  parseMulti : Bytes → MultiPayload

/-- `none` as a callback is the empty lambda that `Connection::connect` passes to `send`. -/
inductive Action where
  | connected (callback : CallbackId) (error : ℤ)
  | sent (callback : Option CallbackId) (error : ℤ)
  | await (callback : CallbackId) (time : ℤ)
  | transmit (transport : TransportPtr) (message : OverlayMessage) (callback : Option CallbackId)
  | process (processor : Processor) (payload : Payload)
  deriving DecidableEq, Repr

structure Connection (C : Crypto) where
  state : State
  nodeInfo : KeyInfo C
  transportConnections : List TransportPtr
  connectCallbacks : List (CallbackId × ℤ)

namespace Connection

variable {C : Crypto}

abbrev Result (C : Crypto) := Except Escape (Connection C × List Action)

def new (th : TH) : Connection C := ⟨.closed, ⟨none, none, th, 0, 0⟩, [], []⟩

def setState (c : Connection C) (state : State) : Connection C := { c with state := state }

def connected (c : Connection C) : Bool := c.state = .established

def remoteKeyInfo (c : Connection C) : Except Escape (KeyInfo C) := c.nodeInfo.copy

def messageSkel (keys : KeyProvider C) (c : Connection C) : Except Escape OverlayMessage := do
  let localKeyInfo ← keys.current
  let remoteKeyInfo ← c.remoteKeyInfo
  .ok (genMessageSkel localKeyInfo.th remoteKeyInfo.th)

/-- `Socket::send` -/
def sendMessage (env : Env C) (message : OverlayMessage) (callback : Option CallbackId)
    (c : Connection C) : Connection C × List Action :=
  let alive := c.transportConnections.filter env.transportConnected
  if alive = [] then
    (c.setState .searchingTransport, [.sent callback P2PError.noTransport.value])
  else (c, alive.map (fun transport => .transmit transport message callback))

def send (keys : KeyProvider C) (env : Env C) (payload : Payload) (callback : Option CallbackId)
    (encrypted forceNonConnected : Bool) (c : Connection C) : Result C := do
  let message ← c.messageSkel keys
  let multipayload : MultiPayload := ⟨[payload]⟩
  if encrypted && c.connected then
    let body : Body := ⟨none, some (env.encrypt (env.serializeMulti multipayload))⟩
    .ok (c.sendMessage env { message with body := some body } callback)
  else if !encrypted && (c.connected || forceNonConnected) then
    let body : Body := ⟨some multipayload, none⟩
    .ok (c.sendMessage env { message with body := some body } callback)
  else .ok (c, [.sent callback P2PError.notConnected.value])

def updateTransport (c : Connection C) (tconn : TransportPtr) (verified : Bool) : Connection C :=
  let others := c.transportConnections.erase tconn
  let c := { c with
    transportConnections := if verified then tconn :: others else others ++ [tconn] }
  if c.state = .searchingTransport then c.setState .foundTransport else c

def payloads (env : Env C) (body : Body) (c : Connection C) : List (Payload × Bool) :=
  (body.openMultipayload.getD {}).payload.map (·, false) ++
    if c.connected then
      (env.parseMulti (env.decrypt (body.encryptedMultipayload.getD []))).payload.map (·, true)
    else []

/-- `process`; `processHandshake`, called last for a handshake, has an empty body. -/
def process (processors : UInt32 → List Processor) (env : Env C) (origin : TransportPtr)
    (header : Header) (body : Body) (c : Connection C) : Connection C × List Action :=
  let c := c.updateTransport origin false
  let destTh : TH := header.destTh.getD []
  if destTh.isPresent then
    (c, (c.payloads env body).flatMap fun (payload, encrypted) =>
      ((processors (payload.type.getD 0)).filter
        (fun p => !(p.isEncryptionMandatory && !encrypted))).map (.process · payload))
  else (c, [])

def handshakeInit (keys : KeyProvider C) (env : Env C) : Except Escape Payload := do
  let localKeyInfo ← keys.current
  let keyInfo ← localKeyInfo.toProtobuf
  let signedHandshake : Handshake.SignedHandshake := ⟨some keyInfo, some env.ecdhPublicKey⟩
  match localKeyInfo.privateKey with
  | none => .error .absentKey
  | some privateKey =>
    let content : Handshake :=
      { stage := some .init
        signedHandshake := some signedHandshake
        newKeySignature := some (env.sign privateKey (env.serializeSigned signedHandshake)) }
    .ok ⟨some payloadHandshake, some (env.serializeHandshake content)⟩

def connect (keys : KeyProvider C) (env : Env C) (callback : CallbackId) (c : Connection C) :
    Result C :=
  if c.state = .established then .ok (c, [.connected callback 0])
  else
    let timeoutTime := env.now + env.timeout
    let c := { c with connectCallbacks := c.connectCallbacks ++ [(callback, timeoutTime)] }
    let armed : List Action := [.await callback timeoutTime]
    if c.state = .foundTransport then do
      let payload ← handshakeInit keys env
      let (c, actions) ← c.send keys env payload none false true
      .ok (c.setState .handshakeInitSent, armed ++ actions)
    else .ok (c, armed)

def disconnect (c : Connection C) : Connection C := c.setState .closed

end Connection

end P2PNet.Overlay
