import P2PNet.Library.Agreement
import P2PNet.Library.Link

/-! A client program and the daemon with nothing but bytes between them. The requests go through
one direction of the socket and the replies through the other, and each side reads a frame in two
steps. The program does what it does with whole messages. -/

namespace P2PNet.Library

open Lib Lib.Lists Lib.Runs Lib.Words API P2P UnixAPISocket

/-- `outgoing` holds what the client has written and the daemon has not read, `serving` is the
daemon's read under way, and `queue` says which exchanges the daemon has still to read. -/
structure Stack (C : Crypto) where
  link : Link
  calls : List Call
  served : List ℕ
  daemon : Daemon C
  queue : List ℕ
  outgoing : Bytes
  serving : Reading

inductive StackEvent (C : Crypto) where
  | start (call : Call)
  | write (exchange : ℕ)
  | receive (env : Env C)
  | read
  | finish (exchange : ℕ)
  | other (event : API.Event C)

/-- How many bytes the caller hands over. -/
def Call.payload : Call → ℕ
  | .invoke _ (.bind base58PrivateKey) => base58PrivateKey.length
  | .invoke _ (.connect sh) => sh.length
  | _ => 0

namespace Application

variable {C : Crypto}

def setInFlight (a : Application C) (inFlight : List (ℕ × APIMessage)) : Application C :=
  { a with client := { a.client with inFlight := inFlight } }

/-- `UnixAPIServer::handleReceive` with the message of exchange `i`. -/
def serveMessage (self : SessionPtr) (a : Application C) (i : ℕ) (env : Env C)
    (message : APIMessage) : Except Halt (Application C) :=
  match a.daemon.step (.receive self env message) with
  | .error escape => .error (.daemon escape)
  | .ok daemon =>
    let reply := daemon.sent[a.daemon.sent.length]?
    { a with daemon := daemon, served := i :: a.served }.answered i reply

end Application

namespace Stack

variable {C : Crypto}

/-- The program as if these replies were under way. -/
def application (w : Stack C) (inFlight : List (ℕ × APIMessage)) : Application C :=
  ⟨w.link.client inFlight, w.calls, w.served, w.daemon⟩

def setApplication (w : Stack C) (a : Application C) : Stack C :=
  { w with
    link := w.link.setClient a.client
    calls := a.calls
    served := a.served
    daemon := a.daemon }

def new (daemon : Daemon C) : Stack C := ⟨.connect, [], [], daemon, [], [], .size⟩

section Step

variable (own : SessionPtr) (client server : Endian) (leftover : Bytes → APIMessage)

/-- `asyncSend` of an exchange. Another thread may have started a later one before. -/
def write (w : Stack C) (i : ℕ) : Except Halt (Stack C) :=
  match (w.application []).request i with
  | none => .error .disabled
  | some request =>
    if i ∈ w.served ∨ i ∈ w.queue then .error .disabled
    else .ok { w with
      queue := w.queue ++ [i]
      outgoing := w.outgoing ++ frame client request }

/-- `UnixAPIServer::handleReceive` without an error, up to its `receiveLoop`. -/
def handleReceive (w : Stack C) (env : Env C) (message : APIMessage) : Except Halt (Stack C) :=
  match w.queue with
  | [] => .error .disabled
  | i :: queue =>
    match (w.application []).serveMessage own i env message with
    | .error halt => .error halt
    | .ok a =>
      let replies := (a.daemon.sent.drop w.daemon.sent.length).map Prod.snd
      let w := w.setApplication a
      .ok { w with
        queue := queue
        serving := .size
        link := { w.link with pipe := w.link.pipe ++ replies.flatMap (frame server) } }

/-- A read of the daemon completes. -/
def receive (w : Stack C) (env : Env C) : Except Halt (Stack C) :=
  match w.serving with
  | .size =>
    if messageSizeLength ≤ w.outgoing.length then
      .ok { w with
        outgoing := w.outgoing.drop messageSizeLength
        serving := .body (ntohl server (load server (w.outgoing.take messageSizeLength))) }
    else .error .disabled
  | .body size =>
    if size.toNat ≤ w.outgoing.length then
      { w with outgoing := w.outgoing.drop size.toNat }.handleReceive own server env
        (APIMessage.parseFromArray leftover (w.outgoing.take size.toNat)).2
    else .error .disabled

/-- A step of the program to which the replies under way do not matter. -/
def perform (w : Stack C) (event : ApplicationEvent C) : Except Halt (Stack C) := do
  let a ← (w.application []).step own event
  .ok (w.setApplication a)

def step (w : Stack C) : StackEvent C → Except Halt (Stack C)
  | .start call => w.perform own (.start call)
  | .write i => w.write client i
  | .receive env => w.receive own server leftover env
  | .read =>
    match w.link.read client leftover with
    | .error fault => .error (.client fault)
    | .ok link => .ok { w with link := link }
  | .finish i => w.perform own (.finish i)
  | .other event => w.perform own (.other event)

end Step

/-- Exchanges are started in time, and no key or hash that is handed over is overlong. -/
def Sound (w : Stack C) : StackEvent C → Prop
  | .start call => (w.application []).Timely (.start call) ∧ call.payload < 2 ^ 29
  | _ => True

instance (w : Stack C) : ∀ event, Decidable (Sound w event)
  | .start _ => inferInstanceAs (Decidable (_ ∧ _))
  | .write _ | .receive _ | .read | .finish _ | .other _ => isTrue trivial

end Stack

namespace Application

variable {C : Crypto} {own : SessionPtr}

section Frame

variable (a : Application C) (inFlight : List (ℕ × APIMessage))

lemma startRequest_setInFlight (call : Call) (request : APIMessage) :
    (a.setInFlight inFlight).startRequest call request =
      (a.startRequest call request).map (setInFlight · inFlight) := by
  have hstart : (a.setInFlight inFlight).client.start request =
      (a.client.start request).map ({ · with inFlight := inFlight }) :=
    a.client.start_inFlight inFlight request
  rw [startRequest, hstart, startRequest]
  cases a.client.start request with
  | error fault => rfl
  | ok client => rfl

lemma start_setInFlight (call : Call) :
    (a.setInFlight inFlight).start call = (a.start call).map (setInFlight · inFlight) := by
  have hpermitted : (a.setInFlight inFlight).Permitted call ↔ a.Permitted call := by
    cases call <;> exact Iff.rfl
  have hnode : ∀ node, (a.setInFlight inFlight).nodeId node = a.nodeId node := fun _ => rfl
  by_cases hcall : a.Permitted call
  · rw [start, if_pos (hpermitted.mpr hcall), start, if_pos hcall]
    cases call.node with
    | none => exact startRequest_setInFlight a inFlight call _
    | some node =>
      simp only [hnode]
      cases a.nodeId node with
      | none => rfl
      | some id => exact startRequest_setInFlight a inFlight call _
  · rw [start, if_neg (mt hpermitted.mp hcall), start, if_neg hcall]
    rfl

lemma finish_setInFlight (i : ℕ) :
    (a.setInFlight inFlight).step own (.finish i) =
      (a.step own (.finish i)).map (setInFlight · inFlight) := by
  have hfinish : (a.setInFlight inFlight).client.finish i =
      (a.client.finish i).map ({ · with inFlight := inFlight }) :=
    a.client.finish_inFlight inFlight i
  rw [step, hfinish, step]
  cases a.client.finish i with
  | error fault => rfl
  | ok client => rfl

lemma other_setInFlight (event : API.Event C) :
    (a.setInFlight inFlight).step own (.other event) =
      (a.step own (.other event)).map (setInFlight · inFlight) := by
  have hdaemon : (a.setInFlight inFlight).daemon = a.daemon := rfl
  rw [step, hdaemon, step]
  split
  · rfl
  · cases a.daemon.step event with
    | error escape => rfl
    | ok daemon => rfl

lemma answered_setInFlight (i : ℕ) (reply : Option (SessionPtr × APIMessage)) :
    (a.setInFlight inFlight).answered i reply =
      ((a.setInFlight []).answered i reply).map fun b =>
        b.setInFlight (inFlight ++ b.client.inFlight) := by
  cases reply with
  | none => simp only [answered, Except.map, setInFlight, List.append_nil]
  | some reply =>
    have hreply : (a.setInFlight inFlight).client.replyWith i reply.2 =
        ((a.setInFlight []).client.replyWith i reply.2).map fun c =>
          { c with inFlight := inFlight ++ c.inFlight } :=
      a.client.replyWith_inFlight inFlight i reply.2
    simp only [answered, hreply]
    cases (a.setInFlight []).client.replyWith i reply.2 with
    | error fault => rfl
    | ok client => rfl

lemma serveMessage_setInFlight (i : ℕ) (env : Env C) (m : APIMessage) :
    (a.setInFlight inFlight).serveMessage own i env m =
      ((a.setInFlight []).serveMessage own i env m).map fun b =>
        b.setInFlight (inFlight ++ b.client.inFlight) := by
  have hdaemon : ∀ f, (a.setInFlight f).daemon = a.daemon := fun _ => rfl
  simp only [serveMessage, hdaemon]
  cases a.daemon.step (.receive own env m) with
  | error escape => rfl
  | ok daemon =>
    exact answered_setInFlight { a with daemon := daemon, served := i :: a.served } inFlight i _

end Frame

lemma serve_eq_serveMessage {a : Application C} {i : ℕ} {m : APIMessage}
    (hm : a.request i = some m) (hi : i ∉ a.served) (env : Env C) :
    a.serve own i env = a.serveMessage own i env m := by
  simp only [serve, hm, if_neg hi]
  rfl

section Sizes

lemma fits_request {call : Call} (hsmall : call.payload < 2 ^ 29) (id token : UInt32) :
    Link.Fits { call.request id with messageToken := some token } := by
  cases call with
  | construct =>
    apply Link.fits_of_fields rfl
    exact show 0 + 15 + (0 + 15 + 0) < 2 ^ 31 by decide
  | destruct node =>
    refine Link.fits_of_part (S := Message.NodeUnRegister.schema) rfl
      ⟨fun _ _ => trivial, trivial⟩ rfl ?_
    exact show 0 + 15 + 0 < 2 ^ 30 by decide
  | invoke node method =>
    cases method with
    | bind key =>
      refine Link.fits_of_part (S := Message.NodeBind.schema) rfl
        ⟨fun _ _ => trivial, fun _ _ => trivial, fun _ _ => trivial, trivial⟩ rfl ?_
      change 0 + 15 + (key.length + 15 + 0) < 2 ^ 30
      change key.length < 2 ^ 29 at hsmall
      omega
    | listen maxConn =>
      refine Link.fits_of_part (S := Message.NodeListen.schema) rfl
        ⟨fun _ _ => trivial, fun _ _ => trivial, trivial⟩ rfl ?_
      exact show 0 + 15 + (0 + 15 + 0) < 2 ^ 30 by decide
    | accept =>
      refine Link.fits_of_part (S := Message.NodeAccept.schema) rfl
        ⟨fun _ _ => trivial, fun _ _ => trivial, fun _ _ => trivial, trivial⟩ rfl ?_
      exact show 0 + 15 + 0 < 2 ^ 30 by decide
    | connect sh =>
      refine Link.fits_of_part (S := Message.NodeConnect.schema) rfl
        ⟨fun _ _ => trivial, fun _ _ => trivial, fun _ _ => trivial, trivial⟩ rfl ?_
      change 0 + 15 + (sh.length + 15 + 0) < 2 ^ 30
      change sh.length < 2 ^ 29 at hsmall
      omega

lemma fits_answers {call : Call} (hsmall : call.payload < 2 ^ 29) {id token : UInt32}
    {replies : List APIMessage}
    (h : Answers { call.request id with messageToken := some token } replies) :
    ∀ reply ∈ replies, Link.Fits reply := by
  cases h with
  | silent => exact List.forall_mem_nil _
  | echo => exact List.forall_mem_singleton.mpr (fits_request hsmall id token)
  | registered nodeId htype =>
    refine List.forall_mem_singleton.mpr ?_
    cases call with
    | construct =>
      refine Link.fits_of_part (S := Message.NodeRegister.schema) rfl
        ⟨fun _ _ => trivial, trivial⟩ rfl ?_
      exact show 0 + 15 + 0 < 2 ^ 30 by decide
    | destruct node => cases htype
    | invoke node method => cases method <;> cases htype

end Sizes

/-- What the daemon has sent for a request is under way to the client. -/
lemma serveMessage_ok {a a' : Application C} {i : ℕ} {env : Env C} {m : APIMessage}
    (hnone : a.client.inFlight = []) (hm : a.request i = some m)
    (h : a.serveMessage own i env m = .ok a') :
    ∃ replies, (a'.daemon.sent.drop a.daemon.sent.length).map Prod.snd = replies ∧
      Answers m replies ∧ a'.client.inFlight = replies.map (i, ·) ∧ a'.calls = a.calls ∧
      a'.served = i :: a.served ∧ ∀ j, a'.request j = a.request j := by
  rw [serveMessage] at h
  split at h
  · cases h
  next daemon hstep =>
  obtain ⟨replies, hanswers, hsent⟩ := Daemon.receive_sent hstep
  have hreplies : (daemon.sent.drop a.daemon.sent.length).map Prod.snd = replies := by
    rw [hsent, List.drop_left, List.map_map]
    exact List.map_id _
  have hfirst : daemon.sent[a.daemon.sent.length]? = replies[0]?.map (own, ·) := by
    rw [hsent, List.getElem?_append_right (Nat.le_refl _), Nat.sub_self, List.getElem?_map]
  rw [hfirst] at h
  obtain ⟨e, he, rfl⟩ := Option.map_eq_some_iff.mp hm
  have hone : ∀ reply : APIMessage, replies = [reply] →
      a'.client.inFlight = [(i, reply)] ∧ a'.daemon = daemon ∧ a'.calls = a.calls ∧
        a'.served = i :: a.served ∧ ∀ j, a'.request j = a.request j := by
    intro reply hreply
    rw [hreply] at h
    simp only [List.getElem?_cons_zero, Option.map_some, answered] at h
    split at h
    · cases h
    · next client hclient =>
      obtain ⟨-, -, -, rfl⟩ := Client.replyWith_ok hclient
      obtain rfl := Except.ok.inj h
      refine ⟨?_, rfl, rfl, rfl, fun j => ?_⟩
      · rw [hnone]
        rfl
      · rw [request, map_getElem?_modify]
        · rfl
        · exact fun _ => rfl
  cases hanswers with
  | silent =>
    obtain rfl := Except.ok.inj h
    exact ⟨[], hreplies, .silent, hnone, rfl, rfl, fun _ => rfl⟩
  | echo =>
    obtain ⟨hclient, rfl, hrest⟩ := hone e.request rfl
    exact ⟨_, hreplies, .echo, hclient, hrest⟩
  | registered id htype =>
    obtain ⟨hclient, rfl, hrest⟩ :=
      hone { e.request with nodeRegister := some ⟨some id⟩ } rfl
    exact ⟨_, hreplies, .registered id htype, hclient, hrest⟩

end Application

namespace Stack

variable {C : Crypto} {own : SessionPtr} {client server : Endian} {leftover : Bytes → APIMessage}
  {w w' : Stack C} {inFlight pending : List (ℕ × APIMessage)}

/-- Both directions of the socket carry whole messages, of which the first may be read in part:
`pending` are the requests and `inFlight` the replies. -/
structure Carries (client server : Endian) (w : Stack C)
    (inFlight pending : List (ℕ × APIMessage)) : Prop where
  link : w.link.Carries server inFlight
  opened : w.link.closed = none
  fits : ∀ request ∈ pending, Link.Fits request.2
  bytes : w.serving.header ++ w.outgoing = Link.written client pending
  queue : w.queue = pending.map Prod.fst
  once : w.queue.Nodup
  asked : ∀ request ∈ pending,
    request.1 ∉ w.served ∧ (w.application []).request request.1 = some request.2
  small : ∀ call ∈ w.calls, call.payload < 2 ^ 29

lemma Carries.setApplication (h : Carries client server w inFlight pending) {a : Application C}
    (hserved : a.served = w.served)
    (hrequest : ∀ i m, (w.application []).request i = some m → a.request i = some m)
    (hsmall : ∀ call ∈ a.calls, call.payload < 2 ^ 29) :
    Carries client server (w.setApplication a) inFlight pending where
  link := h.link.setClient a.client
  opened := h.opened
  fits := h.fits
  bytes := h.bytes
  queue := h.queue
  once := h.once
  asked request hrequested := by
    obtain ⟨hwaiting, hasked⟩ := h.asked request hrequested
    exact ⟨fun hmem => hwaiting (hserved ▸ hmem), hrequest _ _ hasked⟩
  small := hsmall

lemma Carries.request_eq (h : Carries client server w inFlight pending)
    (hagrees : Application.Agrees own (w.application inFlight)) {i : ℕ} {m : APIMessage}
    (hm : (w.application []).request i = some m) :
    ∃ call id token, call.payload < 2 ^ 29 ∧
      m = { Call.request id call with messageToken := some token } := by
  obtain ⟨call, hcall⟩ := hagrees.call_of_request hm
  obtain ⟨id, token, -, hasks⟩ := hagrees.asks i call hcall
  obtain rfl := Option.some.inj (hm.symm.trans hasks)
  obtain ⟨e, he, hrequest⟩ := Option.map_eq_some_iff.mp hm
  have htoken := (hagrees.client.exchanges i e he).token
  rw [hrequest] at htoken
  obtain rfl : token = _ := htoken
  exact ⟨call, id, _, h.small call (List.mem_of_getElem? hcall), rfl⟩

lemma Carries.write (h : Carries client server w inFlight pending)
    (hagrees : Application.Agrees own (w.application inFlight)) {i : ℕ}
    (hs : w.write client i = .ok w') :
    ∃ m, w'.application = w.application ∧
      Carries client server w' inFlight (pending ++ [(i, m)]) := by
  rw [Stack.write] at hs
  split at hs
  · cases hs
  next m hm =>
  split at hs
  · cases hs
  next hnew =>
  obtain ⟨hserved, hqueue⟩ := not_or.mp hnew
  obtain rfl := Except.ok.inj hs
  refine ⟨m, rfl, h.link, h.opened, ?_, ?_, ?_, ?_, ?_, h.small⟩
  · refine List.forall_mem_append.mpr ⟨h.fits, List.forall_mem_singleton.mpr ?_⟩
    obtain ⟨call, id, token, hsmall, rfl⟩ := h.request_eq hagrees hm
    exact Application.fits_request hsmall id token
  · rw [Link.written, List.map_append, List.flatMap_append, List.map_singleton,
      List.flatMap_singleton, ← List.append_assoc]
    exact congrArg (· ++ frame client m) h.bytes
  · rw [List.map_append, h.queue]
    rfl
  · exact List.nodup_append.mpr ⟨h.once, List.nodup_singleton i, by
      intro j hj k hk hjk
      obtain rfl := List.mem_singleton.mp hk
      exact hqueue (hjk ▸ hj)⟩
  · exact List.forall_mem_append.mpr ⟨h.asked, List.forall_mem_singleton.mpr ⟨hserved, hm⟩⟩

lemma Carries.receive_size (h : Carries client server w inFlight pending)
    (hserving : w.serving = .size) (hlong : messageSizeLength ≤ w.outgoing.length) {env : Env C} :
    ∃ size outgoing, w.receive own server leftover env =
        .ok { w with outgoing := outgoing, serving := .body size } ∧
      Carries client server { w with outgoing := outgoing, serving := .body size }
        inFlight pending := by
  have htake : (w.outgoing.take messageSizeLength).length = 4 := List.length_take_of_le hlong
  refine ⟨ofBytes (w.outgoing.take messageSizeLength), w.outgoing.drop messageSizeLength, ?_,
    { h with bytes := ?_ }⟩
  · simp only [receive, hserving, if_pos hlong, ntohl_load server htake]
  · rw [← h.bytes, hserving]
    simp only [Reading.header, toBytes_ofBytes htake, List.take_append_drop, List.nil_append]

lemma Carries.receive_body (h : Carries client server w inFlight pending) {size : UInt32}
    (hserving : w.serving = .body size) (env : Env C) :
    ∃ i m rest outgoing, pending = (i, m) :: rest ∧ outgoing = Link.written client rest ∧
      w.receive own server leftover env =
        { w with outgoing := outgoing }.handleReceive own server env m := by
  have hlen : ∀ m ∈ pending.map Prod.snd, m.serializeAsString.length < 2 ^ 31 := by
    intro m hm
    obtain ⟨request, hrequest, rfl⟩ := List.mem_map.mp hm
    exact (h.fits request hrequest).2
  have hbytes := h.bytes
  rw [hserving] at hbytes
  obtain ⟨m, messages, hmessages, hsize, houtgoing⟩ := frames_body hlen hbytes
  obtain ⟨request, rest, rfl, rfl, rfl⟩ := List.map_eq_cons_iff.mp hmessages
  have hfits := h.fits request List.mem_cons_self
  refine ⟨request.1, request.2, rest, _, rfl, rfl, ?_⟩
  have hlong : size.toNat ≤ w.outgoing.length := by
    rw [houtgoing, hsize, List.length_append]
    exact Nat.le_add_right _ _
  simp only [receive, hserving, if_pos hlong]
  rw [houtgoing, hsize, List.take_left, List.drop_left,
    APIMessage.parse_serializeAsString hfits.1 hfits.2]
  rfl

lemma Carries.serve_eq {i : ℕ} {m : APIMessage} {rest : List (ℕ × APIMessage)}
    (h : Carries client server w inFlight ((i, m) :: rest)) (f : List (ℕ × APIMessage))
    {env : Env C} :
    (w.application f).serve own i env = (w.application f).serveMessage own i env m := by
  obtain ⟨hwaiting, hm⟩ := h.asked (i, m) List.mem_cons_self
  refine Application.serve_eq_serveMessage ?_ hwaiting env
  exact hm

lemma Carries.handleReceive {i : ℕ} {m : APIMessage} {rest : List (ℕ × APIMessage)}
    (h : Carries client server w inFlight ((i, m) :: rest))
    (hagrees : Application.Agrees own (w.application inFlight)) {outgoing : Bytes}
    (houtgoing : outgoing = Link.written client rest) {env : Env C}
    (hs : { w with outgoing := outgoing }.handleReceive own server env m = .ok w') :
    ∃ a, (w.application []).serveMessage own i env m = .ok a ∧
      (∀ f, w'.application f = a.setInFlight f) ∧
      Carries client server w' (inFlight ++ a.client.inFlight) rest := by
  obtain ⟨⟨-, hm⟩, hasked⟩ := List.forall_mem_cons.mp h.asked
  change (w.application []).request i = some m at hm
  have hqueue : w.queue = i :: rest.map Prod.fst := h.queue
  have honce := h.once
  rw [hqueue, List.nodup_cons] at honce
  simp only [Stack.handleReceive, hqueue] at hs
  split at hs
  · cases hs
  next a ha =>
  obtain rfl := Except.ok.inj hs
  obtain ⟨replies, hreplies, hanswers, hclient, hcalls, hserved, hrequest⟩ :=
    Application.serveMessage_ok rfl hm ha
  obtain ⟨call, id, token, hsmall, rfl⟩ := h.request_eq hagrees hm
  have hfresh : ∀ request ∈ rest, request.1 ∉ a.served := by
    intro request hrest hmem
    rw [hserved] at hmem
    rcases List.mem_cons.mp hmem with heq | hmem
    · exact honce.1 (heq ▸ List.mem_map_of_mem hrest)
    · exact (hasked request hrest).1 hmem
  have hfits : ∀ reply ∈ a.client.inFlight, Link.Fits reply.2 := by
    rw [hclient]
    exact List.forall_mem_map.mpr (Application.fits_answers hsmall hanswers)
  have hwritten : replies.flatMap (frame server) = Link.written server a.client.inFlight := by
    rw [hclient, Link.written, List.map_map]
    exact congrArg _ (List.map_id replies).symm
  refine ⟨a, ha, fun _ => rfl, ?_, h.opened, ?_, houtgoing, rfl, honce.2, ?_, ?_⟩
  · have hlink := (h.link.setClient a.client).answer h.opened hfits
    rw [← hwritten, ← hreplies] at hlink
    exact hlink
  · exact (List.forall_mem_cons.mp h.fits).2
  · intro request hrest
    exact ⟨hfresh request hrest, (hrequest _).trans (hasked request hrest).2⟩
  · have hsame : a.calls = w.calls := hcalls
    exact fun call hcall => h.small call (hsame ▸ hcall)

/-- A read of the client hands over the first reply under way, or nothing. -/
lemma Carries.read (h : Carries client server w inFlight pending)
    (hagrees : Application.Agrees own (w.application inFlight)) {link : Link}
    (hs : w.link.read client leftover = .ok link) :
    (∀ f, { w with link := link }.application f = w.application f) ∧
        Carries client server { w with link := link } inFlight pending ∨
      ∃ rest, (w.application inFlight).step own (.deliver 0) =
          .ok ({ w with link := link }.application rest) ∧
        Carries client server { w with link := link } rest pending := by
  rcases h.link.read_cases with ⟨hread, -⟩ | ⟨pipe, reading, hread, hcarries⟩ |
    ⟨i, m, rest, pipe, hfirst, hread, hcarries⟩
  · cases hread.symm.trans hs
  · obtain rfl := Except.ok.inj (hread.symm.trans hs)
    exact .inl ⟨fun _ => rfl, { h with link := hcarries }⟩
  · rw [hread, Link.handleReceive_reply] at hs
    subst hfirst
    have hdeliver := hagrees.client.deliver_eq (k := 0) (i := i) (m := m) rfl
    change (w.link.client ((i, m) :: rest)).deliver 0 = _ at hdeliver
    rw [Link.deliver_client] at hdeliver
    cases hc : (w.link.client []).handleReceive m with
    | error fault =>
      rw [hc] at hs
      cases hs
    | ok c =>
      rw [hc] at hs hdeliver
      obtain rfl := Except.ok.inj hs
      refine .inr ⟨rest, ?_, { h with link := hcarries.setClient c, asked := ?_ }⟩
      · have hclient : (w.link.client ((i, m) :: rest)).deliver 0 =
            .ok { c with inFlight := rest } :=
          (Link.deliver_client w.link i m rest).trans (congrArg _ hc)
        simp only [Application.step, application, hclient]
        rfl
      · have hexchanges : c.exchanges =
            w.link.exchanges.modify i fun e => { e with value := some m } :=
          congrArg Client.exchanges (Except.ok.inj hdeliver)
        intro request hrequest
        refine ⟨(h.asked request hrequest).1, ?_⟩
        rw [← (h.asked request hrequest).2, Application.request, Application.request]
        change c.exchanges[_]?.map _ = w.link.exchanges[_]?.map _
        rw [hexchanges, map_getElem?_modify]
        exact fun _ => rfl

end Stack

namespace Application

variable {C : Crypto} {own : SessionPtr} {a a' : Application C}

lemma Agrees.start_kept (h : Agrees own a) {call : Call} (ht : a.Timely (.start call))
    (hs : a.start call = .ok a') :
    a'.calls = a.calls ++ [call] ∧ a'.served = a.served ∧
      ∀ j m, a.request j = some m → a'.request j = some m := by
  obtain ⟨-, id, -, hs⟩ := start_ok hs
  obtain ⟨hcalls, hserved, -, -, -, -, hrequest, -⟩ := h.started ht hs
  exact ⟨hcalls, hserved, hrequest⟩

lemma Agrees.finish_kept (h : Agrees own a) {i : ℕ} (hs : a.step own (.finish i) = .ok a') :
    a'.calls = a.calls ∧ a'.served = a.served ∧ ∀ j, a'.request j = a.request j := by
  obtain ⟨client, hclient, rfl⟩ := finish_ok hs
  rcases Client.finish_cases a.client i with hd | ⟨e, v, he, hr, hv⟩
  · cases hd.symm.trans hclient
  rw [h.client.finish_eq he hr hv] at hclient
  obtain rfl := Except.ok.inj hclient
  refine ⟨rfl, rfl, fun j => ?_⟩
  rw [request, map_getElem?_modify]
  · rfl
  · exact fun _ => rfl

lemma other_kept {event : API.Event C} (hs : a.step own (.other event) = .ok a') :
    a'.calls = a.calls ∧ a'.served = a.served ∧ ∀ j, a'.request j = a.request j := by
  obtain ⟨-, daemon, -, rfl⟩ := other_ok hs
  exact ⟨rfl, rfl, fun _ => rfl⟩

/-- The client library itself never goes wrong. -/
lemma Agrees.safe (h : Agrees own a) {event : ApplicationEvent C} (ht : a.Timely event)
    {fault : Fault} (hs : a.step own event = .error (.client fault)) : fault = .disabled := by
  cases event with
  | start call =>
    have hsafe : ∀ m, a.startRequest call m = .error (.client fault) → fault = .disabled := by
      intro m hm
      rw [Application.startRequest, h.client.start_eq ht] at hm
      cases hm
    rw [Application.step, Application.start] at hs
    split at hs
    · split at hs
      · exact hsafe _ hs
      · split at hs
        · cases hs
        · exact hsafe _ hs
    · cases hs
  | serve i env =>
    rw [Application.step, Application.serve] at hs
    split at hs
    · cases hs
    split at hs
    · cases hs
    split at hs
    · cases hs
    simp only [answered] at hs
    split at hs
    · cases hs
    split at hs
    · next hanswer =>
      obtain rfl := Halt.client.inj (Except.error.inj hs)
      exact Client.replyWith_error hanswer
    · cases hs
  | deliver k =>
    rw [Application.step] at hs
    split at hs
    · next hdeliver =>
      obtain rfl := Halt.client.inj (Except.error.inj hs)
      exact h.client.deliver_error hdeliver
    · cases hs
  | finish i =>
    rw [Application.step] at hs
    split at hs
    · next hfinish =>
      have hstep : a.client.step (.finish i) = .error fault :=
        hfinish.trans (congrArg _ (Halt.client.inj (Except.error.inj hs)))
      refine h.client.safe ?_ hstep
      exact trivial
    · cases hs
  | other event =>
    rw [Application.step] at hs
    split at hs
    · cases hs
    split at hs
    · cases hs
    · cases hs

lemma answered_client {i : ℕ} {m : APIMessage} {reply : Option (SessionPtr × APIMessage)}
    (hm : a.request i = some m) (htoken : ∀ r ∈ reply, r.2.messageToken = m.messageToken)
    (hs : a.answered i reply = .ok a') :
    a'.client = a.client ∨ ∃ event, Client.Timely a.client event ∧
      a.client.step event = .ok a'.client := by
  cases reply with
  | none =>
    obtain rfl := Except.ok.inj hs
    exact .inl rfl
  | some reply =>
    simp only [answered] at hs
    split at hs
    · cases hs
    · next client hclient =>
      obtain rfl := Except.ok.inj hs
      obtain ⟨e, he, rfl⟩ := Option.map_eq_some_iff.mp hm
      refine .inr ⟨.answer i reply.2, trivial, ?_⟩
      exact (Client.answer_eq_replyWith he (htoken reply rfl)).trans hclient

/-- What a step of the program is for the client library. -/
lemma step_client {event : ApplicationEvent C} (ht : a.Timely event)
    (hs : a.step own event = .ok a') :
    a'.client = a.client ∨ ∃ event, Client.Timely a.client event ∧
      a.client.step event = .ok a'.client := by
  cases event with
  | start call =>
    obtain ⟨-, id, -, hs⟩ := start_ok hs
    obtain ⟨client, hclient, rfl⟩ := startRequest_ok hs
    exact .inr ⟨.start (call.request id), ht, hclient⟩
  | serve i env =>
    obtain ⟨m, daemon, hm, -, hstep, hs⟩ := serve_ok hs
    obtain ⟨replies, hanswers, hsent⟩ := Daemon.receive_sent hstep
    have htoken : ∀ r ∈ daemon.sent[a.daemon.sent.length]?, r.2.messageToken = m.messageToken := by
      rw [hsent, List.getElem?_append_right (Nat.le_refl _), Nat.sub_self, List.getElem?_map]
      intro r hr
      obtain ⟨reply, hreply, rfl⟩ := Option.map_eq_some_iff.mp hr
      exact hanswers.token reply (List.mem_of_getElem? hreply)
    exact answered_client (a := { a with daemon := daemon, served := i :: a.served }) hm htoken hs
  | deliver k =>
    obtain ⟨client, hclient, rfl⟩ := deliver_ok hs
    exact .inr ⟨.deliver k, trivial, hclient⟩
  | finish i =>
    obtain ⟨client, hclient, rfl⟩ := finish_ok hs
    exact .inr ⟨.finish i, trivial, hclient⟩
  | other event =>
    obtain ⟨-, daemon, -, rfl⟩ := other_ok hs
    exact .inl rfl

lemma step_kept (own : SessionPtr) (a : Application C) (event : ApplicationEvent C)
    (a' : Application C) (h : Client.Inv a.client ∧ Client.Kept a.client) (ht : a.Timely event)
    (hs : a.step own event = .ok a') : Client.Inv a'.client ∧ Client.Kept a'.client := by
  rcases step_client ht hs with hsame | ⟨event, ht, hclient⟩
  · rw [hsame]
    exact h
  · exact Client.step_kept _ event _ h ht hclient

end Application

namespace Stack

variable {C : Crypto} {own : SessionPtr} {client server : Endian} {leftover : Bytes → APIMessage}
  {w w' : Stack C} {inFlight pending : List (ℕ × APIMessage)}

open Application (Agrees)

/-- The program with the messages under way that the bytes stand for. -/
def Refines (own : SessionPtr) (client server : Endian) (w : Stack C) (a : Application C) : Prop :=
  ∃ inFlight pending, a = w.application inFlight ∧ Carries client server w inFlight pending ∧
    Agrees own a

lemma refines_of_step {inFlight' pending' : List (ℕ × APIMessage)}
    (hagrees : Agrees own (w.application inFlight)) (event : ApplicationEvent C)
    (ht : (w.application inFlight).Timely event)
    (hs : (w.application inFlight).step own event = .ok (w'.application inFlight'))
    (h : Carries client server w' inFlight' pending') :
    ∃ events a', Guarded (Application.step own) Application.Timely (w.application inFlight) events ∧
      run (Application.step own) (w.application inFlight) events = .ok a' ∧
      Refines own client server w' a' :=
  ⟨[event], _, ⟨ht, fun _ _ => trivial⟩, run_cons.mpr ⟨_, hs, rfl⟩, inFlight', pending', rfl, h,
    Application.step_agrees own _ event _ hagrees ht hs⟩

lemma perform_refines (h : Carries client server w inFlight pending)
    (hagrees : Agrees own (w.application inFlight)) (event : ApplicationEvent C)
    (ht : (w.application inFlight).Timely event)
    (hframe : ∀ a : Application C, (a.setInFlight inFlight).step own event =
      (a.step own event).map (Application.setInFlight · inFlight))
    (hkept : ∀ a', (w.application inFlight).step own event = .ok a' → a'.served = w.served ∧
      (∀ j m, (w.application []).request j = some m → a'.request j = some m) ∧
      ∀ call ∈ a'.calls, call.payload < 2 ^ 29)
    (hs : w.perform own event = .ok w') :
    ∃ events a', Guarded (Application.step own) Application.Timely (w.application inFlight) events ∧
      run (Application.step own) (w.application inFlight) events = .ok a' ∧
      Refines own client server w' a' := by
  obtain ⟨a, ha, hw⟩ := bind_ok_iff.mp hs
  obtain rfl := Except.ok.inj hw
  have hstep : (w.application inFlight).step own event = .ok (a.setInFlight inFlight) :=
    (hframe (w.application [])).trans (congrArg _ ha)
  obtain ⟨hserved, hrequest, hsmall⟩ := hkept _ hstep
  exact refines_of_step hagrees event ht hstep (h.setApplication hserved hrequest hsmall)

/-- A step on the socket is a step of the program or, when it only moves bytes, none. -/
lemma step_refines (w : Stack C) (event : StackEvent C) (w' : Stack C) (a : Application C)
    (h : Refines own client server w a) (hsound : Sound w event)
    (hs : w.step own client server leftover event = .ok w') :
    ∃ events a', Guarded (Application.step own) Application.Timely a events ∧
      run (Application.step own) a events = .ok a' ∧ Refines own client server w' a' := by
  obtain ⟨inFlight, pending, rfl, h, hagrees⟩ := h
  cases event with
  | start call =>
    have ht : (w.application inFlight).Timely (.start call) := hsound.1
    refine perform_refines h hagrees (.start call) ht (fun a => a.start_setInFlight inFlight call)
      (fun a' ha' => ?_) hs
    obtain ⟨hcalls, hserved, hrequest⟩ := hagrees.start_kept ht ha'
    refine ⟨hserved, hrequest, fun call' hcall' => ?_⟩
    rw [hcalls] at hcall'
    rcases List.mem_append.mp hcall' with hcall' | hcall'
    · exact h.small call' hcall'
    · exact List.mem_singleton.mp hcall' ▸ hsound.2
  | write i =>
    obtain ⟨m, hsame, hcarries⟩ := h.write hagrees hs
    exact ⟨[], _, trivial, rfl, inFlight, _, (congrFun hsame inFlight).symm, hcarries, hagrees⟩
  | receive env =>
    cases hserving : w.serving with
    | size =>
      by_cases hlong : messageSizeLength ≤ w.outgoing.length
      · obtain ⟨size, outgoing, hreceive, hcarries⟩ := h.receive_size hserving hlong
        obtain rfl := Except.ok.inj (hreceive.symm.trans hs)
        exact ⟨[], _, trivial, rfl, inFlight, pending, rfl, hcarries, hagrees⟩
      · simp only [step, receive, hserving, if_neg hlong] at hs
        cases hs
    | body size =>
      obtain ⟨i, m, rest, outgoing, rfl, houtgoing, hreceive⟩ := h.receive_body hserving env
      rw [step, hreceive] at hs
      obtain ⟨a, ha, hsame, hcarries⟩ := h.handleReceive hagrees houtgoing hs
      refine refines_of_step hagrees (.serve i env) trivial ?_ hcarries
      rw [Application.step, h.serve_eq inFlight, hsame]
      exact ((w.application []).serveMessage_setInFlight inFlight i env m).trans (congrArg _ ha)
  | read =>
    rw [step] at hs
    split at hs
    · cases hs
    next link hlink =>
    obtain rfl := Except.ok.inj hs
    rcases h.read hagrees hlink with ⟨hsame, hcarries⟩ | ⟨rest, hdeliver, hcarries⟩
    · exact ⟨[], _, trivial, rfl, inFlight, pending, (hsame inFlight).symm, hcarries, hagrees⟩
    · exact refines_of_step hagrees (.deliver 0) trivial hdeliver hcarries
  | finish i =>
    refine perform_refines h hagrees (.finish i) trivial (fun a => a.finish_setInFlight inFlight i)
      (fun a' ha' => ?_) hs
    obtain ⟨hcalls, hserved, hrequest⟩ := hagrees.finish_kept ha'
    exact ⟨hserved, fun j m hm => (hrequest j).trans hm, hcalls ▸ h.small⟩
  | other event =>
    refine perform_refines h hagrees (.other event) trivial
      (fun a => a.other_setInFlight inFlight event) (fun a' ha' => ?_) hs
    obtain ⟨hcalls, hserved, hrequest⟩ := Application.other_kept ha'
    exact ⟨hserved, fun j m hm => (hrequest j).trans hm, hcalls ▸ h.small⟩

lemma refines_new {d : Daemon C} (hd : d.sessions.find own = some .new) :
    Refines own client server (new d) (.new d) := by
  refine ⟨[], [], rfl, ⟨?_, rfl, List.forall_mem_nil _, rfl, rfl, List.nodup_nil,
    List.forall_mem_nil _, List.forall_mem_nil _⟩, Application.agrees_new hd⟩
  exact ⟨List.forall_mem_nil _, List.prefix_rfl, fun _ => rfl, fun _ => rfl, nofun⟩

-- two constructors, whose requests are written in the other order
def sampleEvents : List (StackEvent sampleCrypto) :=
  [.start .construct, .start .construct, .write 1, .write 0, .receive ⟨(), 10⟩,
    .receive ⟨(), 10⟩, .read, .other (.accept 2), .receive ⟨(), 11⟩, .read, .receive ⟨(), 11⟩,
    .read, .read, .finish 0, .finish 1]

end Stack

end P2PNet.Library
