import P2PNet.Overlay.Connection
import P2PNet.Lib.StdMap
import P2PNet.Lib.Runs

/-! `overlay::Socket`. `objects` holds every `Connection` that was made, in the
order of their creation, and a shared pointer is a position in it. -/

namespace P2PNet.Overlay

open Lib OverlayMessage

abbrev ConnectionPtr := ℕ

structure Socket (C : Crypto) where
  keyProvider : KeyProvider C
  processors : List (UInt32 × Processor)
  connections : StdMap TH ConnectionPtr
  objects : List (Connection C)
  actions : List Action

inductive Handler where
  | self
  | relay
  | request
  deriving DecidableEq, Repr

namespace Socket

variable {C : Crypto}

def new (keyProvider : KeyProvider C) (processors : List (UInt32 × Processor)) : Socket C :=
  ⟨keyProvider, processors, .empty, [], []⟩

def getProcessors (s : Socket C) (payloadType : UInt32) : List Processor :=
  (s.processors.filter (·.1 = payloadType)).map Prod.snd

def makeConnection (s : Socket C) (th : TH) : Socket C × ConnectionPtr :=
  ({ s with objects := s.objects ++ [.new th] }, s.objects.length)

def connect (s : Socket C) (env : Env C) (dest : TH) (callback : CallbackId) :
    Outcome (Socket C) :=
  let (s, pointer) :=
    match s.connections.find dest with
    | some pointer => (s, pointer)
    | none => s.makeConnection dest
  match s.objects[pointer]? with
  | none => .error (.dangling, s)
  | some object =>
    match object.connect s.keyProvider env callback with
    | .error escape => .error (escape, s)
    | .ok (object, actions) => .ok { s with
        objects := s.objects.set pointer object
        actions := s.actions ++ actions }

def processSelf (s : Socket C) (env : Env C) (origin : TransportPtr) (header : Header)
    (body : Body) : Outcome (Socket C) :=
  let srcTh := header.source
  match s.connections.find srcTh with
  | none =>
    -- the new connection is inserted, but it is the end iterator that is dereferenced
    let (s, pointer) := s.makeConnection srcTh
    .error (.endIterator, { s with connections := s.connections.insert srcTh pointer })
  | some pointer =>
    match s.objects[pointer]? with
    | none => .error (.dangling, s)
    | some object =>
      let (object, actions) := object.process s.getProcessors env origin header body
      .ok { s with
        objects := s.objects.set pointer object
        actions := s.actions ++ actions }

def processRelay (s : Socket C) (_header : Header) (_body : Body) : Outcome (Socket C) := .ok s

def processRequest (s : Socket C) (_header : Header) (_body : Body) : Outcome (Socket C) := .ok s

/-- The choice that `process` makes; the destination is read from the source field. -/
def dispatch (s : Socket C) (header : Header) : Except Escape Handler := do
  let destTh : TH := if header.destTh.isSome then header.source else []
  let keyInfo ← s.keyProvider.current
  if destTh = keyInfo.th then .ok .self
  else if destTh.isPresent then .ok .relay
  else .ok .request

def process (s : Socket C) (env : Env C) (origin : TransportPtr)
    (parsed : Option OverlayMessage) : Outcome (Socket C) :=
  match parsed with
  | none => .ok s
  | some message =>
    match s.dispatch message.getHeader with
    | .error escape => .error (escape, s)
    | .ok .self => s.processSelf env origin message.getHeader message.getBody
    | .ok .relay => s.processRelay message.getHeader message.getBody
    | .ok .request => s.processRequest message.getHeader message.getBody

def sampleKeys : KeyProvider sampleCrypto where
  history :=
    [⟨some (1 : ℕ), some (samplePublicKey 1), sampleCrypto.serviceHash (1 : ℕ), 600, 3600⟩]
  derived info h := by
    obtain rfl := List.mem_singleton.mp h
    exact ⟨(1 : ℕ), rfl, rfl, rfl⟩

def sampleSocket : Socket sampleCrypto := new sampleKeys []

def sampleEnv : Env sampleCrypto where
  transportConnected _ := true
  now := 100
  timeout := 30
  ecdhPublicKey := [4]
  sign _ _ := [5]
  encrypt s := s
  decrypt s := s
  serializeSigned _ := [6]
  serializeHandshake _ := [8]
  serializeMulti _ := [9]
  parseMulti _ := {}

end Socket

end P2PNet.Overlay
