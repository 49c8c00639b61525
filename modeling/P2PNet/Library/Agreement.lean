import P2PNet.Library.P2PNode

/-! The nodes of a client program and those that its session holds at the daemon. Every id that
the daemon holds belongs to one constructor that it has served and whose node it has not
destroyed since. -/

namespace P2PNet.Library

open Lib Lib.Lists Lib.Runs API P2P

variable {C : Crypto}

namespace Application

variable {own : SessionPtr} {a a' : Application C}

/-- The daemon has served the constructor of the node with this id. -/
def Registered (a : Application C) (node : ℕ) (id : UInt32) : Prop :=
  a.calls[node]? = some .construct ∧
    ∃ m, a.reply node = some m ∧ ((m.nodeRegister.getD {}).nodeId).getD 0 = id

def Holds (a : Application C) (node : ℕ) (id : UInt32) : Prop :=
  a.Registered node id ∧ ∀ i ∈ a.served, a.calls[i]? ≠ some (.destruct node)

structure Agrees (own : SessionPtr) (a : Application C) : Prop where
  client : Client.Inv a.client
  length : a.calls.length = a.client.exchanges.length
  asks : ∀ i call, a.calls[i]? = some call → ∃ id token,
    (∀ node, call.node = some node → a.Registered node id) ∧
      a.request i = some { call.request id with messageToken := token }
  replied : ∀ i m, a.reply i = some m → i ∈ a.served ∧ m.error = none
  known : ∀ i ∈ a.served, i < a.calls.length
  exclusive : ∀ i j node, a.calls[i]? = some (.destruct node) → j ≠ i →
    a.calls[j]?.bind Call.node = some node → j ∈ a.served
  session : ∃ session, a.daemon.sessions.find own = some session ∧ session.IdsOk ∧
    ∀ id, (session.nodes.find id).isSome ↔ ∃ node, a.Holds node id
  once : ∀ node node' id, a.Holds node id → a.Holds node' id → node = node'

section Views

lemma Agrees.result_eq (h : Agrees own a) {i : ℕ} {r : Result} (hr : a.result i = some r) :
    ∃ m, a.reply i = some m ∧ r = .returned m := by
  obtain ⟨e, he, hresult⟩ := Option.bind_eq_some_iff.mp hr
  obtain ⟨v, hvalue, rfl⟩ := (h.client.exchanges i e he).result r hresult
  have hreply : a.reply i = some v :=
    Option.bind_eq_some_iff.mpr ⟨e, he, (h.client.exchanges i e he).value v hvalue⟩
  refine ⟨v, hreply, ?_⟩
  rw [outcome, (h.replied i v hreply).2]

lemma Agrees.registered (h : Agrees own a) {node : ℕ} {id : UInt32}
    (hid : a.nodeId node = some id) : a.Registered node id := by
  rw [nodeId] at hid
  split at hid
  · next m hcall hresult =>
    obtain ⟨v, hreply, hv⟩ := h.result_eq hresult
    obtain rfl := Result.returned.inj hv
    exact ⟨hcall, m, hreply, Option.some.inj hid⟩
  · cases hid

lemma Agrees.nodeId_eq (h : Agrees own a) {node : ℕ} {id : UInt32} (hn : a.Registered node id)
    (hdone : (a.result node).isSome) : a.nodeId node = some id := by
  obtain ⟨hcall, m, hm, rfl⟩ := hn
  obtain ⟨r, hr⟩ := Option.isSome_iff_exists.mp hdone
  obtain ⟨v, hv, rfl⟩ := h.result_eq hr
  obtain rfl := Option.some.inj (hm.symm.trans hv)
  rw [nodeId, hcall, hr]

lemma Agrees.call_of_request (h : Agrees own a) {i : ℕ} {m : APIMessage}
    (hm : a.request i = some m) : ∃ call, a.calls[i]? = some call := by
  obtain ⟨e, he, -⟩ := Option.map_eq_some_iff.mp hm
  have hi : i < a.calls.length := h.length ▸ (List.getElem?_eq_some_iff.mp he).1
  exact ⟨_, List.getElem?_eq_getElem hi⟩

/-- A node is held while a call on it has not been served. -/
lemma Agrees.holds (h : Agrees own a) {i node : ℕ} {id : UInt32}
    (hcall : a.calls[i]?.bind Call.node = some node) (hi : i ∉ a.served)
    (hn : a.Registered node id) : a.Holds node id := by
  refine ⟨hn, fun k hk hdestruct => hi ?_⟩
  refine h.exclusive k i node hdestruct ?_ hcall
  rintro rfl
  exact hi hk

end Views

section Serving

/-- What the session makes of a call, and its answer. -/
inductive Handled (session : APISession) (call : Call) (id : UInt32) :
    APISession → Option APIMessage → Prop
  | full (hcall : call = .construct) (hfull : session.nextNodeId = 0) :
      Handled session call id session none
  | constructed {m : APIMessage} (entry : NodeT) (hcall : call = .construct)
      (hfree : session.nextNodeId ≠ 0)
      (hid : ((m.nodeRegister.getD {}).nodeId).getD 0 = session.nextNodeId)
      (herror : m.error = none) : Handled session call id (session.register entry) (some m)
  | invoked {m : APIMessage} {node : ℕ} {method : Method} (hcall : call = .invoke node method)
      (herror : m.error = none) : Handled session call id session (some m)
  | destructed {m : APIMessage} {node : ℕ} (hcall : call = .destruct node)
      (herror : m.error = none) : Handled session call id (session.unregister id) (some m)

lemma process_handled {env : Env C} {token : Option UInt32} {call : Call} {id : UInt32}
    {w w' : World C} (hsent : w.sent = [])
    (hheld : ∀ node, call.node = some node → (w.session.nodes.find id).isSome)
    (h : w.process own env { call.request id with messageToken := token } = .ok w') :
    Handled w.session call id w'.session w'.sent[0]? := by
  have hrespond := World.process_respond hsent h
  cases call with
  | construct =>
    simp only [APISession.respond, Call.request, APIMessage.getType, Option.getD_some] at hrespond
    split at hrespond
    · next hfull =>
      obtain ⟨hsession, hreply⟩ := Prod.mk.inj hrespond
      rw [hsession, hreply]
      exact .full rfl hfull
    · next hfree =>
      obtain ⟨hsession, hreply⟩ := Prod.mk.inj hrespond
      rw [hsession, hreply]
      exact .constructed _ rfl hfree rfl rfl
  | destruct node =>
    simp only [APISession.respond, Call.request, APIMessage.getType, Option.getD_some,
      APIMessage.unregisterId, hheld node rfl, if_true] at hrespond
    obtain ⟨hsession, hreply⟩ := Prod.mk.inj hrespond
    rw [hsession, hreply]
    exact .destructed rfl rfl
  | invoke node method =>
    cases method with
    | accept | connect => cases h
    | listen maxConn =>
      simp only [APISession.respond, Call.request, Method.request, APIMessage.getType,
        Option.getD_some, APIMessage.listenId, hheld node rfl, if_true] at hrespond
      obtain ⟨hsession, hreply⟩ := Prod.mk.inj hrespond
      rw [hsession, hreply]
      exact .invoked rfl rfl
    | bind key =>
      simp only [APISession.respond, Call.request, Method.request, APIMessage.getType,
        Option.getD_some, APIMessage.bindId, hheld node rfl, if_true] at hrespond
      obtain ⟨hsession, hreply⟩ := Prod.mk.inj hrespond
      rw [hsession, hreply]
      exact .invoked rfl rfl

lemma Handled.error {session session' : APISession} {call : Call} {id : UInt32} {m : APIMessage}
    (h : Handled session call id session' (some m)) : m.error = none := by
  cases h with
  | constructed _ _ _ _ herror => exact herror
  | invoked _ herror => exact herror
  | destructed _ herror => exact herror

lemma Handled.idsOk {session session' : APISession} {call : Call} {id : UInt32}
    {answer : Option APIMessage} (h : Handled session call id session' answer)
    (hheld : ∀ node, call.node = some node → (session.nodes.find id).isSome)
    (hok : session.IdsOk) : session'.IdsOk := by
  cases h with
  | full => exact hok
  | constructed entry _ hfree => exact APISession.register_idsOk hok hfree entry
  | invoked => exact hok
  | destructed hcall =>
    subst hcall
    exact APISession.unregister_idsOk hok (hheld _ rfl)

/-- The daemon has served the call of exchange `i`. -/
structure Serves (own : SessionPtr) (a : Application C) (i : ℕ) (call : Call) (id : UInt32)
    (session session' : APISession) (answer : Option APIMessage) (a' : Application C) : Prop where
  started : a.calls[i]? = some call
  waiting : i ∉ a.served
  held : ∀ node, call.node = some node → a.Holds node id
  before : a.daemon.sessions.find own = some session
  after : a'.daemon.sessions.find own = some session'
  handled : Handled session call id session' answer
  calls : a'.calls = a.calls
  served : a'.served = i :: a.served
  client : Client.Inv a'.client
  length : a'.client.exchanges.length = a.client.exchanges.length
  request : ∀ j, a'.request j = a.request j
  reply : ∀ j, a'.reply j = if j = i then answer else a.reply j

lemma replyWith_eq {w : Client} {i : ℕ} {e : Exchange} (he : w.exchanges[i]? = some e)
    (hreply : e.reply = none) (reply : APIMessage) :
    w.replyWith i reply = .ok { w with
      exchanges := w.exchanges.modify i fun e => { e with reply := some reply }
      inFlight := w.inFlight ++ [(i, reply)] } := by
  simp [Client.replyWith, he, hreply]

lemma receive_reply {d d' : Daemon C} {env : Env C} {m : APIMessage}
    (h : d.step (.receive own env m) = .ok d') :
    ∃ session w, d.sessions.find own = some session ∧
      (d.world session).process own env m = .ok w ∧
      d'.sessions.find own = some w.session ∧
      d'.sent[d.sent.length]? = w.sent[0]?.map (own, ·) := by
  obtain ⟨session, w, hs, hw, rfl⟩ := Daemon.receive_ok h
  refine ⟨session, w, hs, hw, ?_, ?_⟩
  · rw [StdMap.find_assign, if_pos rfl]
  · rw [List.getElem?_append_right (Nat.le_refl _), Nat.sub_self, List.getElem?_map]

lemma Agrees.find_isSome (h : Agrees own a) {session : APISession} {node : ℕ} {id : UInt32}
    (hs : a.daemon.sessions.find own = some session) (hn : a.Holds node id) :
    (session.nodes.find id).isSome := by
  obtain ⟨session', hs', -, hnodes⟩ := h.session
  obtain rfl := Option.some.inj (hs.symm.trans hs')
  exact (hnodes id).mpr ⟨node, hn⟩

lemma Agrees.serves (h : Agrees own a) {i : ℕ} {env : Env C}
    (hserve : a.serve own i env = .ok a') :
    ∃ call id session session' answer, Serves own a i call id session session' answer a' := by
  obtain ⟨m, daemon, hm, hwaiting, hstep, hserve⟩ := serve_ok hserve
  obtain ⟨session, w, hs, hw, hafter, hsent⟩ := receive_reply hstep
  obtain ⟨call, hcall⟩ := h.call_of_request hm
  obtain ⟨id, token, hnamed, hasks⟩ := h.asks i call hcall
  obtain rfl := Option.some.inj (hm.symm.trans hasks)
  have hheld : ∀ node, call.node = some node → a.Holds node id := fun node hnode =>
    h.holds (by rw [hcall]; exact hnode) hwaiting (hnamed node hnode)
  have hhandled := process_handled (w := a.daemon.world session) rfl
    (fun node hnode => h.find_isSome hs (hheld node hnode)) hw
  obtain ⟨e, he, hrequest⟩ := Option.map_eq_some_iff.mp hm
  have hnone : e.reply = none := by
    by_contra hsome
    obtain ⟨m, hreply⟩ := Option.ne_none_iff_exists'.mp hsome
    exact hwaiting (h.replied i m (Option.bind_eq_some_iff.mpr ⟨e, he, hreply⟩)).1
  have hreply : a.reply i = none := by rw [Application.reply, he, Option.bind_some, hnone]
  cases hanswer : w.sent[0]? with
  | none =>
    rw [hanswer] at hhandled
    simp only [hsent, hanswer, Option.map_none, answered] at hserve
    obtain rfl := Except.ok.inj hserve
    refine ⟨call, id, session, w.session, none, hcall, hwaiting, hheld, hs, hafter, hhandled, rfl,
      rfl, h.client, rfl, fun j => rfl, fun j => ?_⟩
    split
    · next hj => rw [hj]; exact hreply
    · rfl
  | some content =>
    rw [hanswer] at hhandled
    -- the session has copied the token of the request
    have htoken : content.messageToken = e.request.messageToken := by
      have hrespond := congrArg Prod.snd (World.process_respond rfl hw)
      have hanswers :=
        answers_respond session env.address { call.request id with messageToken := token }
      rw [hrequest]
      exact hanswers.token content (hrespond ▸ List.mem_of_getElem? hanswer)
    have hclient := replyWith_eq (w := a.client) he hnone content
    simp only [hsent, hanswer, Option.map_some, answered, hclient] at hserve
    obtain rfl := Except.ok.inj hserve
    refine ⟨call, id, session, w.session, _, hcall, hwaiting, hheld, hs, hafter,
      hhandled, rfl, rfl, Client.replyWith_inv h.client he htoken hclient,
      List.length_modify _ _ _, fun j => ?_, fun j => ?_⟩
    · rw [Application.request, map_getElem?_modify]
      · rfl
      · exact fun _ => rfl
    · rw [Application.reply, bind_getElem?_modify]
      split
      · next hj => rw [hj, he]; rfl
      · rfl

end Serving

section Steps

lemma Agrees.congr (h : Agrees own a) (hclient : Client.Inv a'.client)
    (hlength : a'.client.exchanges.length = a.client.exchanges.length)
    (hcalls : a'.calls = a.calls) (hserved : a'.served = a.served)
    (hrequest : ∀ i, a'.request i = a.request i) (hreply : ∀ i, a'.reply i = a.reply i)
    (hsession : a'.daemon.sessions.find own = a.daemon.sessions.find own) : Agrees own a' := by
  have hregistered : ∀ node id, a'.Registered node id ↔ a.Registered node id := by
    intro node id
    rw [Registered, Registered, hcalls, hreply]
  have hholds : ∀ node id, a'.Holds node id ↔ a.Holds node id := by
    intro node id
    rw [Holds, Holds, hregistered, hserved, hcalls]
  constructor
  · exact hclient
  · rw [hcalls, hlength, h.length]
  · simpa only [hcalls, hregistered, hrequest] using h.asks
  · simpa only [hreply, hserved] using h.replied
  · simpa only [hcalls, hserved] using h.known
  · simpa only [hcalls, hserved] using h.exclusive
  · simpa only [hsession, hholds] using h.session
  · simpa only [hholds] using h.once

section Served

variable {i : ℕ} {call : Call} {id : UInt32} {session session' : APISession}
  {answer : Option APIMessage}

lemma Serves.registered_iff (hs : Serves own a i call id session session' answer a')
    (h : Agrees own a) {node : ℕ} {id' : UInt32} :
    a'.Registered node id' ↔ a.Registered node id' ∨ node = i ∧ call = .construct ∧
      ∃ m, answer = some m ∧ ((m.nodeRegister.getD {}).nodeId).getD 0 = id' := by
  rw [Registered, Registered, hs.calls, hs.reply]
  by_cases hnode : node = i
  · subst hnode
    have hnone : ∀ m, a.reply node ≠ some m := fun m hm => hs.waiting (h.replied node m hm).1
    simp [hs.started, hnone]
  · simp [hnode]

/-- Nothing names a node whose constructor has not been served. -/
lemma Agrees.not_named (h : Agrees own a) {i j node : ℕ} (hi : i ∉ a.served)
    (hj : a.calls[j]?.bind Call.node = some node) : node ≠ i := by
  rintro rfl
  obtain ⟨call, hcall, hnode⟩ := Option.bind_eq_some_iff.mp hj
  obtain ⟨id, token, hnamed, -⟩ := h.asks j call hcall
  obtain ⟨-, m, hm, -⟩ := hnamed node hnode
  exact hi (h.replied node m hm).1

lemma Serves.holds_iff (hs : Serves own a i call id session session' answer a')
    (h : Agrees own a) {node : ℕ} {id' : UInt32} :
    a'.Holds node id' ↔ a.Holds node id' ∧ call ≠ .destruct node ∨ node = i ∧ call = .construct ∧
      ∃ m, answer = some m ∧ ((m.nodeRegister.getD {}).nodeId).getD 0 = id' := by
  rw [Holds, hs.registered_iff h, hs.calls, hs.served]
  constructor
  · rintro ⟨hold | hnew, hnot⟩
    · refine .inl ⟨⟨hold, fun k hk => hnot k (List.mem_cons_of_mem i hk)⟩, ?_⟩
      rintro rfl
      exact hnot i List.mem_cons_self hs.started
    · exact .inr hnew
  · rintro (⟨⟨hold, hnot⟩, hne⟩ | ⟨rfl, hnew⟩)
    · refine ⟨.inl hold, fun k hk hdestruct => ?_⟩
      obtain rfl | hk := List.mem_cons.mp hk
      · exact hne (Option.some.inj (hs.started.symm.trans hdestruct))
      · exact hnot k hk hdestruct
    · refine ⟨.inr ⟨rfl, hnew⟩, fun k _ hdestruct => ?_⟩
      refine h.not_named hs.waiting (j := k) ?_ rfl
      rw [hdestruct]
      rfl

lemma find_register (session : APISession) (entry : NodeT) (id : UInt32) :
    ((session.register entry).nodes.find id).isSome ↔
      (session.nodes.find id).isSome ∨ id = session.nextNodeId := by
  rw [APISession.register, StdMap.find_insert]
  split
  · next heq => simp [heq]
  · next hne => simp [hne]

lemma find_unregister (session : APISession) (id id' : UInt32) :
    ((session.unregister id).nodes.find id').isSome ↔
      (session.nodes.find id').isSome ∧ id' ≠ id := by
  rw [APISession.unregister, StdMap.find_erase]
  split
  · next heq => simp [heq]
  · next hne => simp [hne]

lemma Serves.nodes_iff (hs : Serves own a i call id session session' answer a')
    (h : Agrees own a)
    (hnodes : ∀ id, (session.nodes.find id).isSome ↔ ∃ node, a.Holds node id) (id' : UInt32) :
    (session'.nodes.find id').isSome ↔ ∃ node, a'.Holds node id' := by
  simp only [hs.holds_iff h]
  have hhandled := hs.handled
  have hheld := hs.held
  cases hhandled with
  | full hcall hfull => simp [hnodes, hcall]
  | constructed entry hcall hfree hid =>
    rw [find_register]
    simp [hnodes, hcall, hid, eq_comm, exists_or]
  | invoked hcall => simp [hnodes, hcall]
  | @destructed _ node hcall =>
    rw [find_unregister, hnodes]
    subst hcall
    have hnode := hheld node rfl
    simp only [reduceCtorEq, false_and, and_false, or_false]
    constructor
    · rintro ⟨⟨other, hother⟩, hne⟩
      refine ⟨other, hother, ?_⟩
      intro heq
      obtain rfl := Call.destruct.inj heq
      obtain ⟨⟨-, m, hm, rfl⟩, -⟩ := hnode
      obtain ⟨⟨-, m', hm', rfl⟩, -⟩ := hother
      obtain rfl := Option.some.inj (hm.symm.trans hm')
      exact hne rfl
    · rintro ⟨other, hother, hne⟩
      refine ⟨⟨other, hother⟩, ?_⟩
      rintro rfl
      exact hne (by rw [h.once _ _ _ hnode hother])

lemma Serves.once (hs : Serves own a i call id session session' answer a') (h : Agrees own a)
    (hok : session.IdsOk)
    (hnodes : ∀ id, (session.nodes.find id).isSome ↔ ∃ node, a.Holds node id)
    {node node' : ℕ} {id' : UInt32} (hn : a'.Holds node id') (hn' : a'.Holds node' id') :
    node = node' := by
  -- the id of a new node was free
  have hnew : ∀ other, a.Holds other id' → call = .construct →
      ¬∃ m, answer = some m ∧ ((m.nodeRegister.getD {}).nodeId).getD 0 = id' := by
    rintro other hother rfl ⟨m, rfl, rfl⟩
    have hhandled := hs.handled
    cases hhandled with
    | constructed entry _ hfree hid =>
      have hsome := (hnodes _).mpr ⟨other, hother⟩
      rw [hid, (hok.least hfree).1] at hsome
      cases hsome
    | invoked hcall => cases hcall
    | destructed hcall => cases hcall
  rw [hs.holds_iff h] at hn hn'
  rcases hn with ⟨hn, -⟩ | ⟨rfl, hcall, hm⟩
  · rcases hn' with ⟨hn', -⟩ | ⟨rfl, hcall, hm⟩
    · exact h.once _ _ _ hn hn'
    · exact absurd hm (hnew node hn hcall)
  · rcases hn' with ⟨hn', -⟩ | ⟨rfl, -, -⟩
    · exact absurd hm (hnew node' hn' hcall)
    · rfl

lemma Serves.agrees (hs : Serves own a i call id session session' answer a')
    (h : Agrees own a) : Agrees own a' := by
  obtain ⟨session₀, hs₀, hok, hnodes⟩ := h.session
  obtain rfl := Option.some.inj (hs.before.symm.trans hs₀)
  have hheld : ∀ node, call.node = some node → (session.nodes.find id).isSome :=
    fun node hnode => h.find_isSome hs.before (hs.held node hnode)
  constructor
  · exact hs.client
  · rw [hs.calls, hs.length, h.length]
  · intro j other hj
    rw [hs.calls] at hj
    obtain ⟨id', token, hnamed, hrequest⟩ := h.asks j other hj
    refine ⟨id', token, fun node hnode => ?_, (hs.request j).trans hrequest⟩
    exact (hs.registered_iff h).mpr (.inl (hnamed node hnode))
  · intro j m hj
    rw [hs.reply] at hj
    rw [hs.served]
    split at hj
    · next heq =>
      subst heq hj
      exact ⟨List.mem_cons_self, hs.handled.error⟩
    · obtain ⟨hserved, herror⟩ := h.replied j m hj
      exact ⟨List.mem_cons_of_mem i hserved, herror⟩
  · intro j hj
    rw [hs.served] at hj
    rw [hs.calls]
    obtain rfl | hj := List.mem_cons.mp hj
    · exact (List.getElem?_eq_some_iff.mp hs.started).1
    · exact h.known j hj
  · intro k j node hk hne hj
    rw [hs.calls] at hk hj
    rw [hs.served]
    exact List.mem_cons_of_mem i (h.exclusive k j node hk hne hj)
  · exact ⟨session', hs.after, hs.handled.idsOk hheld hok, hs.nodes_iff h hnodes⟩
  · intro node node' id' hn hn'
    exact hs.once h hok hnodes hn hn'

end Served

/-- The token of the new exchange is the only thing that the session adds to its request. -/
lemma Agrees.started {call : Call} {m : APIMessage} (h : Agrees own a)
    (htimely : Client.Timely a.client (.start m)) (hstart : a.startRequest call m = .ok a') :
    a'.calls = a.calls ++ [call] ∧ a'.served = a.served ∧ a'.daemon = a.daemon ∧
      Client.Inv a'.client ∧ a'.client.exchanges.length = a.client.exchanges.length + 1 ∧
      (∀ j, a'.reply j = a.reply j) ∧
      (∀ j m', a.request j = some m' → a'.request j = some m') ∧
      ∃ token, a'.request a.client.exchanges.length = some { m with messageToken := token } := by
  obtain ⟨client, hclient, rfl⟩ := startRequest_ok hstart
  have hinv := Client.start_inv h.client htimely hclient
  rw [h.client.start_eq htimely] at hclient
  obtain rfl := Except.ok.inj hclient
  refine ⟨rfl, rfl, rfl, hinv, by simp, fun j => ?_, fun j m' hm => ?_, ?_⟩
  · exact bind_getElem?_concat rfl _ _
  · obtain ⟨e, he, rfl⟩ := Option.map_eq_some_iff.mp hm
    exact Option.map_eq_some_iff.mpr ⟨e, getElem?_concat_of_some he, rfl⟩
  · exact ⟨some (UInt32.ofNat a.client.exchanges.length), by simp [Application.request]⟩

lemma Permitted.not_destructed {call : Call} (h : a.Permitted call) {node : ℕ}
    (hnode : call.node = some node) : .destruct node ∉ a.calls := by
  cases call with
  | construct => cases hnode
  | invoke node' method =>
    obtain rfl := Option.some.inj hnode
    exact h
  | destruct node' =>
    obtain rfl := Option.some.inj hnode
    exact h.1

/-- A new call on a node is the first one after all that the daemon must have served. -/
lemma Agrees.startRequest (h : Agrees own a) {call : Call} {id : UInt32}
    (hpermitted : a.Permitted call)
    (hnamed : ∀ node, call.node = some node → a.Registered node id)
    (htimely : Client.Timely a.client (.start (call.request id)))
    (hstart : a.startRequest call (call.request id) = .ok a') : Agrees own a' := by
  obtain ⟨hcalls, hserved, hdaemon, hclient, hlength, hreply, hrequest, token, hnew⟩ :=
    h.started htimely hstart
  have hold : ∀ {j : ℕ} {other : Call}, a'.calls[j]? = some other →
      a.calls[j]? = some other ∨ j = a.calls.length ∧ other = call := by
    intro j other hj
    rw [hcalls] at hj
    exact of_getElem?_concat hj
  have hregistered : ∀ node id', a'.Registered node id' ↔ a.Registered node id' := by
    intro node id'
    rw [Registered, Registered, hreply]
    constructor
    · rintro ⟨hcall, m, hm, hid⟩
      obtain hcall | ⟨rfl, -⟩ := hold hcall
      · exact ⟨hcall, m, hm, hid⟩
      · obtain ⟨e, he, -⟩ := Option.bind_eq_some_iff.mp hm
        rw [h.length, List.getElem?_eq_none (Nat.le_refl _)] at he
        cases he
    · rintro ⟨hcall, hm⟩
      refine ⟨?_, hm⟩
      rw [hcalls]
      exact getElem?_concat_of_some hcall
  have hholds : ∀ node id', a'.Holds node id' ↔ a.Holds node id' := by
    intro node id'
    rw [Holds, Holds, hregistered, hserved, hcalls]
    refine and_congr_right fun _ => forall₂_congr fun j hj => ?_
    rw [List.getElem?_append_left (h.known j hj)]
  constructor
  · exact hclient
  · rw [hcalls, List.length_append, hlength, h.length]
    rfl
  · intro j other hj
    obtain hj | ⟨rfl, rfl⟩ := hold hj
    · obtain ⟨id', token', hnamed', hasked⟩ := h.asks j other hj
      exact ⟨id', token', fun node hnode => (hregistered node id').mpr (hnamed' node hnode),
        hrequest j _ hasked⟩
    · refine ⟨id, token, fun node hnode => (hregistered node id).mpr (hnamed node hnode), ?_⟩
      rw [h.length]
      exact hnew
  · simpa only [hreply, hserved] using h.replied
  · intro j hj
    rw [hserved] at hj
    rw [hcalls, List.length_append]
    exact Nat.lt_add_right _ (h.known j hj)
  · intro i j node hi hne hj
    rw [hserved]
    obtain ⟨other, hother, hnode⟩ := Option.bind_eq_some_iff.mp hj
    obtain hi | ⟨rfl, rfl⟩ := hold hi
    · obtain hother | ⟨rfl, rfl⟩ := hold hother
      · exact h.exclusive i j node hi hne (Option.bind_eq_some_iff.mpr ⟨other, hother, hnode⟩)
      · exact absurd (List.mem_of_getElem? hi) (hpermitted.not_destructed hnode)
    · obtain hother | ⟨rfl, -⟩ := hold hother
      · have hj := Option.bind_eq_some_iff.mpr ⟨other, hother, hnode⟩
        have hlt := (List.getElem?_eq_some_iff.mp hother).1
        obtain ⟨r, hr⟩ := Option.isSome_iff_exists.mp (hpermitted.2 j hlt hj)
        obtain ⟨m, hm, -⟩ := h.result_eq hr
        exact (h.replied j m hm).1
      · exact absurd rfl hne
  · simpa only [hdaemon, hholds] using h.session
  · simpa only [hholds] using h.once

lemma Agrees.deliver (h : Agrees own a) {k : ℕ} {client : Client}
    (hdeliver : a.client.deliver k = .ok client) : Agrees own { a with client := client } := by
  have hinv := Client.deliver_inv h.client hdeliver
  cases hk : a.client.inFlight[k]? with
  | none => simp [Client.deliver, hk] at hdeliver
  | some im =>
    rw [h.client.deliver_eq hk] at hdeliver
    obtain rfl := Except.ok.inj hdeliver
    refine h.congr hinv (List.length_modify _ _ _) rfl rfl (fun j => ?_) (fun j => ?_) rfl
    · exact map_getElem?_modify (by exact fun _ => rfl) _ _ _
    · rw [reply, bind_getElem?_modify]
      simp only [ite_self]
      rfl

lemma Agrees.finish (h : Agrees own a) {i : ℕ} {client : Client}
    (hfinish : a.client.finish i = .ok client) : Agrees own { a with client := client } := by
  have hinv := Client.finish_inv h.client hfinish
  obtain hdisabled | ⟨e, v, he, hr, hv⟩ := Client.finish_cases a.client i
  · rw [hdisabled] at hfinish
    cases hfinish
  · rw [h.client.finish_eq he hr hv] at hfinish
    obtain rfl := Except.ok.inj hfinish
    refine h.congr hinv (List.length_modify _ _ _) rfl rfl (fun j => ?_) (fun j => ?_) rfl
    · exact map_getElem?_modify (by exact fun _ => rfl) _ _ _
    · rw [reply, bind_getElem?_modify]
      simp only [ite_self]
      rfl

lemma Agrees.start (h : Agrees own a) {call : Call} (htimely : Client.Timely a.client (.start {}))
    (hstart : a.start call = .ok a') : Agrees own a' := by
  obtain ⟨hpermitted, id, hid, hstart⟩ := start_ok hstart
  exact h.startRequest hpermitted (fun node hnode => h.registered (hid node hnode)) htimely hstart

end Steps

/-- No call stays unanswered while `2 ^ 32` later ones are made. -/
def Timely (a : Application C) : ApplicationEvent C → Prop
  | .start _ => Client.Timely a.client (.start {})
  | _ => True

instance (a : Application C) : ∀ e, Decidable (Timely a e)
  | .start _ => inferInstanceAs (Decidable (Client.Timely a.client (.start {})))
  | .serve _ _ | .deliver _ | .finish _ | .other _ => isTrue trivial

lemma step_agrees (own : SessionPtr) (a : Application C) (e : ApplicationEvent C)
    (a' : Application C) (h : Agrees own a) (htimely : Timely a e)
    (hstep : a.step own e = .ok a') : Agrees own a' := by
  cases e with
  | start call => exact h.start htimely hstep
  | serve i env =>
    obtain ⟨call, id, session, session', answer, hserves⟩ := h.serves hstep
    exact hserves.agrees h
  | deliver k =>
    obtain ⟨client, hclient, rfl⟩ := deliver_ok hstep
    exact h.deliver hclient
  | finish i =>
    obtain ⟨client, hclient, rfl⟩ := finish_ok hstep
    exact h.finish hclient
  | other event =>
    obtain ⟨hne, daemon, hdaemon, rfl⟩ := other_ok hstep
    exact h.congr h.client rfl rfl rfl (fun _ => rfl) (fun _ => rfl)
      (Daemon.sessions_other hne hdaemon)

lemma agrees_new {d : Daemon C} (hd : d.sessions.find own = some .new) :
    Agrees own (new d) where
  client := Client.inv_new
  length := rfl
  asks _ _ hcall := nomatch hcall
  replied _ _ hreply := nomatch hreply
  known _ hi := nomatch hi
  exclusive _ _ _ hi := nomatch hi
  session := by
    refine ⟨.new, hd, APISession.idsOk_new, fun id => ?_⟩
    rw [APISession.new, StdMap.find_empty]
    constructor
    · intro hnone
      cases hnone
    · rintro ⟨node, ⟨hcall, -⟩, -⟩
      cases hcall
  once _ _ _ hn := nomatch hn.1.1

lemma run_agrees {d : Daemon C} (hd : d.sessions.find own = some .new)
    {events : List (ApplicationEvent C)} (htimely : Guarded (step own) Timely (new d) events)
    (h : run (step own) (new d) events = .ok a) : Agrees own a :=
  guarded_invariant (step_agrees own) (agrees_new hd) htimely h

/-- The constructor of the node has returned with this id, and its destructor is not called. -/
def Live (a : Application C) (node : ℕ) (id : UInt32) : Prop :=
  a.nodeId node = some id ∧ .destruct node ∉ a.calls

lemma Agrees.holds_of_live (h : Agrees own a) {node : ℕ} {id : UInt32} (hl : a.Live node id) :
    a.Holds node id :=
  ⟨h.registered hl.1, fun _ _ hdestruct => hl.2 (List.mem_of_getElem? hdestruct)⟩

/-- However the threads of the program and the other sessions interleave, live nodes have
different ids, which the daemon knows; and when no call is under way, it knows no others. -/
theorem nodes_agree (own : SessionPtr) (d : Daemon C) (hd : d.sessions.find own = some .new)
    (events : List (ApplicationEvent C)) (htimely : Guarded (step own) Timely (new d) events)
    (a : Application C) (h : run (step own) (new d) events = .ok a) :
    ∃ session, a.daemon.sessions.find own = some session ∧
      (∀ node id, a.Live node id → (session.nodes.find id).isSome) ∧
      (∀ node node' id, a.Live node id → a.Live node' id → node = node') ∧
      ((∀ i < a.calls.length, (a.result i).isSome) →
        ∀ id, (session.nodes.find id).isSome ↔ ∃ node, a.Live node id) := by
  have hagrees := run_agrees hd htimely h
  obtain ⟨session, hs, -, hnodes⟩ := hagrees.session
  refine ⟨session, hs, ?_, ?_, ?_⟩
  · intro node id hl
    exact (hnodes id).mpr ⟨node, hagrees.holds_of_live hl⟩
  · intro node node' id hl hl'
    exact hagrees.once node node' id (hagrees.holds_of_live hl) (hagrees.holds_of_live hl')
  · intro hquiet id
    rw [hnodes]
    refine exists_congr fun node => ⟨?_, hagrees.holds_of_live⟩
    rintro ⟨hn, hnot⟩
    have hlt := (List.getElem?_eq_some_iff.mp hn.1).1
    refine ⟨hagrees.nodeId_eq hn (hquiet node hlt), fun hdestruct => ?_⟩
    obtain ⟨i, hi⟩ := List.mem_iff_getElem?.mp hdestruct
    obtain ⟨r, hr⟩ := Option.isSome_iff_exists.mp (hquiet i (List.getElem?_eq_some_iff.mp hi).1)
    obtain ⟨m, hm, -⟩ := hagrees.result_eq hr
    exact hnot i (hagrees.replied i m hm).1 hi

def sampleDaemon : Daemon sampleCrypto :=
  { Daemon.new with sessions := StdMap.empty.insert 1 .new }

-- two constructors overlap, and the first node is destroyed again
def sampleEvents : List (ApplicationEvent sampleCrypto) :=
  [.start .construct, .start .construct, .serve 1 ⟨(), 10⟩, .other (.accept 2),
    .serve 0 ⟨(), 11⟩, .deliver 1, .finish 0, .start (.invoke 0 (.listen 5)), .deliver 0,
    .finish 1, .serve 2 ⟨(), 12⟩, .deliver 0, .finish 2, .start (.destruct 0),
    .serve 3 ⟨(), 12⟩, .deliver 0, .finish 3, .start (.invoke 1 .accept)]

theorem nodes_agree_overlapping :
    ∃ a, run (step 1) (new sampleDaemon) sampleEvents = .ok a ∧ a.Live 1 1 ∧
      ∃ session, a.daemon.sessions.find 1 = some session ∧ (session.nodes.find 1).isSome := by
  have htimely : Guarded (step 1) Timely (new sampleDaemon) sampleEvents := by decide
  obtain ⟨session, hs, hnodes, -⟩ := nodes_agree 1 sampleDaemon rfl sampleEvents htimely _ rfl
  exact ⟨_, rfl, ⟨rfl, by decide⟩, session, hs, hnodes 1 1 ⟨rfl, by decide⟩⟩

end Application

end P2PNet.Library
