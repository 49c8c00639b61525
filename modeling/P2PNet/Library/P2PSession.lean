import P2PNet.API.Message
import P2PNet.Lib.StdMap
import P2PNet.Lib.Runs

/-! `P2PSession` of the client library with any number of `clientExchange` calls
under way. An exchange is the frame of one call: its marked request, the shared
state of its promise, how the call ended, and what the daemon answered to it.
A promise in `awaiting_receive` is the number of the exchange whose state it sets. -/

namespace P2PNet.Library

open Lib API

structure P2PSession where
  nextMsgToken : UInt32
  awaitingReceive : StdMap UInt32 ℕ

inductive Result where
  | returned (reply : APIMessage)
  | threw (errorCode : ℤ)
  deriving DecidableEq, Repr

structure Exchange where
  request : APIMessage
  reply : Option APIMessage := none
  value : Option APIMessage := none
  result : Option Result := none
  deriving DecidableEq, Repr

/-- `disabled` marks an event that cannot happen in the state; the others are what goes wrong. -/
inductive Fault where
  | disabled
  | endDereferenced
  | promiseAlreadySatisfied
  | futureAlreadyRetrieved
  | invalidIterator
  deriving DecidableEq, Repr

structure Client where
  session : P2PSession
  exchanges : List Exchange
  inFlight : List (ℕ × APIMessage)

inductive Event where
  | start (request : APIMessage)
  | answer (exchange : ℕ) (content : APIMessage)
  | deliver (position : ℕ)
  | finish (exchange : ℕ)
  deriving DecidableEq, Repr

namespace P2PSession

def new : P2PSession := ⟨0, .empty⟩

def markMessage (s : P2PSession) (message : APIMessage) : P2PSession × APIMessage :=
  ({ s with nextMsgToken := s.nextMsgToken + 1 },
    { message with messageToken := some s.nextMsgToken })

end P2PSession

def outcome (reply : APIMessage) : Result :=
  match reply.error with
  | some error => .threw (error.errorCode.getD 0)
  | none => .returned reply

namespace Client

def new : Client := ⟨.new, [], []⟩

/-- `clientExchange` up to the wait for the reply. -/
def start (w : Client) (request : APIMessage) : Except Fault Client :=
  let (session, request) := w.session.markMessage request
  let token := request.getMessageToken
  match session.awaitingReceive.find token with
  | some _ => .error .futureAlreadyRetrieved
  | none => .ok { w with
      session := { session with
        awaitingReceive := session.awaitingReceive.insert token w.exchanges.length }
      exchanges := w.exchanges ++ [{ request := request }] }

/-- The daemon has sent `reply` for exchange `i`. -/
def replyWith (w : Client) (i : ℕ) (reply : APIMessage) : Except Fault Client :=
  match w.exchanges[i]? with
  | none => .error .disabled
  | some exchange =>
    if exchange.reply.isSome then .error .disabled
    else .ok { w with
      exchanges := w.exchanges.modify i (fun e => { e with reply := some reply })
      inFlight := w.inFlight ++ [(i, reply)] }

/-- A daemon that copies the token of the request into its reply has sent this content. -/
def answer (w : Client) (i : ℕ) (content : APIMessage) : Except Fault Client :=
  match w.exchanges[i]? with
  | none => .error .disabled
  | some exchange =>
    w.replyWith i { content with messageToken := exchange.request.messageToken }

def setValue (w : Client) (promise : ℕ) (message : APIMessage) : Except Fault Client :=
  if (w.exchanges[promise]?.bind Exchange.value).isSome then .error .promiseAlreadySatisfied
  else .ok { w with
    exchanges := w.exchanges.modify promise (fun e => { e with value := some message }) }

def handleReceive (w : Client) (message : APIMessage) : Except Fault Client :=
  let token := message.getMessageToken
  if message.messageToken.isSome then
    match w.session.awaitingReceive.find token with
    | none => .error .endDereferenced
    | some promise => w.setValue promise message
  else .ok w

def deliver (w : Client) (position : ℕ) : Except Fault Client :=
  match w.inFlight[position]? with
  | none => .error .disabled
  | some (_, message) =>
    handleReceive { w with inFlight := w.inFlight.eraseIdx position } message

/-- `clientExchange` from the moment its future is ready. -/
def finish (w : Client) (i : ℕ) : Except Fault Client :=
  match w.exchanges[i]? with
  | none => .error .disabled
  | some exchange =>
    match exchange.result, exchange.value with
    | none, some reply =>
      let token := exchange.request.getMessageToken
      if w.session.awaitingReceive.find token = some i then
        let erased := w.session.awaitingReceive.erase token
        -- the handler of the rethrown error looks the token up once more
        let awaiting :=
          match reply.error with
          | none => erased
          | some _ =>
            match erased.find token with
            | none => erased
            | some _ => erased.erase token
        .ok { w with
          session := { w.session with awaitingReceive := awaiting }
          exchanges := w.exchanges.modify i (fun e => { e with result := some (outcome reply) }) }
      else .error .invalidIterator
    | _, _ => .error .disabled

def step (w : Client) : Event → Except Fault Client
  | .start request => w.start request
  | .answer i content => w.answer i content
  | .deliver position => w.deliver position
  | .finish i => w.finish i

/-- No exchange stays outstanding while `2 ^ 32` later ones are started. -/
def Timely (w : Client) : Event → Prop
  | .start _ => ∀ i < w.exchanges.length,
      (w.exchanges[i]?.bind Exchange.result) = none → w.exchanges.length - i < 2 ^ 32
  | _ => True

instance (w : Client) : ∀ event, Decidable (Timely w event)
  | .start _ => inferInstanceAs (Decidable (∀ i < w.exchanges.length, _))
  | .answer _ _ | .deliver _ | .finish _ => isTrue trivial

end Client

end P2PNet.Library
