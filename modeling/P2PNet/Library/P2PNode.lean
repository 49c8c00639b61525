import P2PNet.API.NodeIds
import P2PNet.API.Noninterference
import P2PNet.Library.Matching

/-! `P2PNode` objects of a client program over its `P2PSession`, which is one session of the
daemon. The threads of the program call in any order, the daemon serves the requests in any
order among those of other sessions, and a node is named by the exchange of its constructor. -/

namespace P2PNet.Library

open Lib Lib.Lists Lib.Runs API P2P

inductive Method where
  | bind (base58PrivateKey : Bytes)
  | listen (maxConn : UInt32)
  | accept
  | connect (sh : Bytes)
  deriving DecidableEq, Repr

inductive Call where
  | construct
  | invoke (node : ℕ) (method : Method)
  | destruct (node : ℕ)
  deriving DecidableEq, Repr

def Method.request (nodeId : UInt32) : Method → APIMessage
  | .bind base58PrivateKey =>
    { type := some .nodeBind
      nodeBind := some { nodeId := some nodeId, b58PrivateKey := some base58PrivateKey } }
  | .listen maxConn =>
    { type := some .nodeListen, nodeListen := some ⟨some nodeId, some maxConn⟩ }
  | .accept => { type := some .nodeAccept, nodeAccept := some { nodeId := some nodeId } }
  | .connect sh =>
    { type := some .nodeConnect, nodeConnect := some { nodeId := some nodeId, sh := some sh } }

namespace Call

def node : Call → Option ℕ
  | .construct => none
  | .invoke node _ | .destruct node => some node

def request (nodeId : UInt32) : Call → APIMessage
  | .construct => { type := some .nodeRegister }
  | .invoke _ method => method.request nodeId
  | .destruct _ => { type := some .nodeUnregister, nodeUnregister := some ⟨some nodeId⟩ }

end Call

/-- `calls` says what each exchange was started for. -/
structure Application (C : Crypto) where
  client : Client
  calls : List Call
  served : List ℕ
  daemon : Daemon C

inductive ApplicationEvent (C : Crypto) where
  | start (call : Call)
  | serve (exchange : ℕ) (env : Env C)
  | deliver (position : ℕ)
  | finish (exchange : ℕ)
  | other (event : API.Event C)

inductive Halt where
  | disabled
  | client (fault : Library.Fault)
  | daemon (escape : Escape)
  deriving DecidableEq

namespace Application

variable {C : Crypto}

def new (daemon : Daemon C) : Application C := ⟨.new, [], [], daemon⟩

def request (a : Application C) (i : ℕ) : Option APIMessage :=
  a.client.exchanges[i]?.map Exchange.request

def reply (a : Application C) (i : ℕ) : Option APIMessage :=
  a.client.exchanges[i]?.bind Exchange.reply

def result (a : Application C) (i : ℕ) : Option Result :=
  a.client.exchanges[i]?.bind Exchange.result

/-- `impl->node_id` of a node whose constructor has returned. -/
def nodeId (a : Application C) (node : ℕ) : Option UInt32 :=
  match a.calls[node]?, a.result node with
  | some .construct, some (.returned reply) =>
    some (((reply.nodeRegister.getD {}).nodeId).getD 0)
  | _, _ => none

/-- No method runs on an object after its destructor is called, or while it runs. -/
def Permitted (a : Application C) : Call → Prop
  | .construct => True
  | .invoke node _ => .destruct node ∉ a.calls
  | .destruct node => .destruct node ∉ a.calls ∧
      ∀ i < a.calls.length, a.calls[i]?.bind Call.node = some node → (a.result i).isSome

instance (a : Application C) : ∀ call, Decidable (a.Permitted call)
  | .construct => isTrue trivial
  | .invoke _ _ => inferInstanceAs (Decidable (_ ∉ _))
  | .destruct _ => inferInstanceAs (Decidable (_ ∧ _))

def startRequest (a : Application C) (call : Call) (request : APIMessage) :
    Except Halt (Application C) :=
  match a.client.start request with
  | .error fault => .error (.client fault)
  | .ok client => .ok { a with client := client, calls := a.calls ++ [call] }

def start (a : Application C) (call : Call) : Except Halt (Application C) :=
  if a.Permitted call then
    match call.node with
    | none => a.startRequest call (call.request 0)
    | some node =>
      match a.nodeId node with
      | none => .error .disabled
      | some nodeId => a.startRequest call (call.request nodeId)
  else .error .disabled

def answered (a : Application C) (i : ℕ) (reply : Option (SessionPtr × APIMessage)) :
    Except Halt (Application C) :=
  match reply with
  | none => .ok a
  | some (_, content) =>
    match a.client.replyWith i content with
    | .error fault => .error (.client fault)
    | .ok client => .ok { a with client := client }

def serve (self : SessionPtr) (a : Application C) (i : ℕ) (env : Env C) :
    Except Halt (Application C) :=
  match a.request i with
  | none => .error .disabled
  | some request =>
    if i ∈ a.served then .error .disabled
    else
      match a.daemon.step (.receive self env request) with
      | .error escape => .error (.daemon escape)
      | .ok daemon =>
        -- what the daemon has just sent, if anything
        let reply := daemon.sent[a.daemon.sent.length]?
        { a with daemon := daemon, served := i :: a.served }.answered i reply

def step (self : SessionPtr) (a : Application C) :
    ApplicationEvent C → Except Halt (Application C)
  | .start call => a.start call
  | .serve i env => a.serve self i env
  | .deliver position =>
    match a.client.deliver position with
    | .error fault => .error (.client fault)
    | .ok client => .ok { a with client := client }
  | .finish i =>
    match a.client.finish i with
    | .error fault => .error (.client fault)
    | .ok client => .ok { a with client := client }
  | .other event =>
    if event.session = self then .error .disabled
    else
      match a.daemon.step event with
      | .error escape => .error (.daemon escape)
      | .ok daemon => .ok { a with daemon := daemon }

section Inversion

variable {self : SessionPtr} {a a' : Application C}

lemma startRequest_ok {call : Call} {request : APIMessage}
    (h : a.startRequest call request = .ok a') :
    ∃ client, a.client.start request = .ok client ∧
      a' = { a with client := client, calls := a.calls ++ [call] } := by
  rw [startRequest] at h
  split at h
  · cases h
  · next client hclient => exact ⟨client, hclient, (Except.ok.inj h).symm⟩

lemma start_ok {call : Call} (h : a.start call = .ok a') :
    a.Permitted call ∧ ∃ id, (∀ node, call.node = some node → a.nodeId node = some id) ∧
      a.startRequest call (call.request id) = .ok a' := by
  rw [start] at h
  split at h
  · next hpermitted =>
    refine ⟨hpermitted, ?_⟩
    split at h
    · next hnone =>
      refine ⟨0, fun node hnode => ?_, h⟩
      cases hnone.symm.trans hnode
    · next node hnode =>
      split at h
      · cases h
      · next id hid =>
        refine ⟨id, fun node' hnode' => ?_, h⟩
        obtain rfl := Option.some.inj (hnode.symm.trans hnode')
        exact hid
  · cases h

lemma serve_ok {i : ℕ} {env : Env C} (h : a.serve self i env = .ok a') :
    ∃ request daemon, a.request i = some request ∧ i ∉ a.served ∧
      a.daemon.step (.receive self env request) = .ok daemon ∧
      { a with daemon := daemon, served := i :: a.served }.answered i
        daemon.sent[a.daemon.sent.length]? = .ok a' := by
  rw [serve] at h
  split at h
  · cases h
  next request hrequest =>
  split at h
  · cases h
  next hi =>
  split at h
  · cases h
  · next daemon hdaemon => exact ⟨request, daemon, hrequest, hi, hdaemon, h⟩

lemma deliver_ok {k : ℕ} (h : a.step self (.deliver k) = .ok a') :
    ∃ client, a.client.deliver k = .ok client ∧ a' = { a with client := client } := by
  rw [step] at h
  split at h
  · cases h
  · next client hclient => exact ⟨client, hclient, (Except.ok.inj h).symm⟩

lemma finish_ok {i : ℕ} (h : a.step self (.finish i) = .ok a') :
    ∃ client, a.client.finish i = .ok client ∧ a' = { a with client := client } := by
  rw [step] at h
  split at h
  · cases h
  · next client hclient => exact ⟨client, hclient, (Except.ok.inj h).symm⟩

lemma other_ok {event : API.Event C} (h : a.step self (.other event) = .ok a') :
    event.session ≠ self ∧ ∃ daemon, a.daemon.step event = .ok daemon ∧
      a' = { a with daemon := daemon } := by
  rw [step] at h
  split at h
  · cases h
  next hne =>
  split at h
  · cases h
  · next daemon hdaemon => exact ⟨hne, daemon, hdaemon, (Except.ok.inj h).symm⟩

end Inversion

end Application

end P2PNet.Library
