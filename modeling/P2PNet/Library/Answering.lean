import P2PNet.API.Answers
import P2PNet.Library.Agreement

/-! Which calls of a client program are answered. A call that is not waits for ever or takes the
daemon down, and with it every other program. -/

namespace P2PNet.Library

open Lib Lib.Lists Lib.Runs API P2P

namespace Application

variable {C : Crypto} {own : SessionPtr} {a a' : Application C} {i : ℕ}

section Owned

lemma answered_daemon {reply : Option (SessionPtr × APIMessage)}
    (h : a.answered i reply = .ok a') : a'.daemon = a.daemon := by
  cases reply with
  | none =>
    obtain rfl := Except.ok.inj h
    rfl
  | some content =>
    simp only [answered] at h
    split at h
    · cases h
    · obtain rfl := Except.ok.inj h
      rfl

/-- The daemon is left alone or takes a step of its own. -/
lemma step_daemon {e : ApplicationEvent C} (h : a.step own e = .ok a') :
    a'.daemon = a.daemon ∨ ∃ event, a.daemon.step event = .ok a'.daemon := by
  cases e with
  | start call =>
    obtain ⟨-, id, -, h⟩ := start_ok h
    obtain ⟨client, -, rfl⟩ := startRequest_ok h
    exact .inl rfl
  | serve i env =>
    obtain ⟨request, daemon, -, -, hdaemon, h⟩ := serve_ok h
    rw [answered_daemon h]
    exact .inr ⟨_, hdaemon⟩
  | deliver position =>
    obtain ⟨client, -, rfl⟩ := deliver_ok h
    exact .inl rfl
  | finish i =>
    obtain ⟨client, -, rfl⟩ := finish_ok h
    exact .inl rfl
  | other event =>
    obtain ⟨-, daemon, hdaemon, rfl⟩ := other_ok h
    exact .inr ⟨event, hdaemon⟩

lemma step_daemon_owned (a : Application C) (e : ApplicationEvent C) (a' : Application C)
    (h : a.daemon.Owned) (hstep : a.step own e = .ok a') : a'.daemon.Owned := by
  rcases step_daemon hstep with hsame | ⟨event, hdaemon⟩
  · rwa [hsame]
  · exact Daemon.step_owned _ _ _ h hdaemon

end Owned

/-- The object of the daemon that a node of the program stands for. -/
def StandsFor (own : SessionPtr) (a : Application C) (node : ℕ) (p : NodePtr) : Prop :=
  ∃ id, a.Holds node id ∧ a.daemon.Has own id p

/-- There is an id left; the key of a `bind` loads, and the node is unbound or the hash of the key
bound already; the node to destroy is unbound or its hash bound. -/
def Answerable (own : SessionPtr) (a : Application C) (env : Env C) : Call → Prop
  | .construct => ∃ id, 0 < id ∧ ∀ p, ¬a.daemon.Has own id p
  | .destruct node => ∃ p object, a.StandsFor own node p ∧
      a.daemon.manager.heap.find p = some object ∧
      (p ∈ a.daemon.manager.nodesUnbound ∨ (a.daemon.manager.getBoundNode object.boundSh).isSome)
  | .invoke node (.bind base58PrivateKey) => ∃ p key, a.StandsFor own node p ∧
      C.fromBase58 env.rng base58PrivateKey = some key ∧
      (p ∈ a.daemon.manager.nodesUnbound ∨
        (a.daemon.manager.getBoundNode (C.serviceHash key)).isSome)
  | .invoke _ (.listen _) => True
  | .invoke _ .accept | .invoke _ (.connect _) => False

section Session

variable {session : APISession} {env : Env C} {call : Call} {id : UInt32} {token : Option UInt32}

/-- A node has one id, and the session one object for it. -/
lemma standsFor_iff (hs : a.daemon.sessions.find own = some session) {node : ℕ} {entry : NodeT}
    (hn : a.Holds node id) (he : session.nodes.find id = some entry) {p : NodePtr} :
    a.StandsFor own node p ↔ p = entry.node := by
  constructor
  · rintro ⟨id', ⟨⟨-, m, hm, rfl⟩, -⟩, hhas⟩
    obtain ⟨⟨-, m', hm', rfl⟩, -⟩ := hn
    obtain rfl := Option.some.inj (hm.symm.trans hm')
    obtain ⟨entry', he', rfl⟩ := (Daemon.has_self_iff hs).mp hhas
    rw [Option.some.inj (he.symm.trans he')]
  · rintro rfl
    exact ⟨id, hn, (Daemon.has_self_iff hs).mpr ⟨entry, he, rfl⟩⟩

lemma nextNodeId_iff (hs : a.daemon.sessions.find own = some session) (hok : session.IdsOk) :
    session.nextNodeId ≠ 0 ↔ ∃ id, 0 < id ∧ ∀ p, ¬a.daemon.Has own id p := by
  rw [ne_eq, hok.full, not_forall]
  refine exists_congr fun id => ?_
  rw [Classical.not_imp, Option.not_isSome_iff_eq_none, Option.eq_none_iff_forall_ne_some]
  refine and_congr_right fun _ => ⟨?_, ?_⟩
  · intro hnone p hhas
    obtain ⟨entry, he, -⟩ := (Daemon.has_self_iff hs).mp hhas
    exact hnone entry he
  · intro hfree entry he
    exact hfree entry.node ((Daemon.has_self_iff hs).mpr ⟨entry, he, rfl⟩)

lemma served_iff_answerable (hs : a.daemon.sessions.find own = some session) (hok : session.IdsOk)
    (hheld : ∀ node, call.node = some node → a.Holds node id)
    (hfind : ∀ node, call.node = some node → (session.nodes.find id).isSome) :
    World.Served env { call.request id with messageToken := token } (a.daemon.world session) ↔
      a.Answerable own env call := by
  cases call with
  | construct =>
    rw [Answerable, ← nextNodeId_iff hs hok]
    exact and_iff_right rfl
  | destruct node =>
    obtain ⟨entry, he⟩ := Option.isSome_iff_exists.mp (hfind node rfl)
    simp only [Answerable, standsFor_iff hs (hheld node rfl) he]
    constructor
    · rintro ⟨-, entry', object, he', ho, hplace⟩
      obtain rfl := Option.some.inj (he.symm.trans he')
      exact ⟨entry.node, object, rfl, ho, hplace⟩
    · rintro ⟨_, object, rfl, ho, hplace⟩
      exact ⟨rfl, entry, object, he, ho, hplace⟩
  | invoke node method =>
    obtain ⟨entry, he⟩ := Option.isSome_iff_exists.mp (hfind node rfl)
    cases method with
    | accept | connect => exact and_iff_right rfl
    | listen maxConn => exact ⟨fun _ => trivial, fun _ => ⟨rfl, hfind node rfl⟩⟩
    | bind base58PrivateKey =>
      have hkey : World.suppliedKey env
          { (Call.invoke node (.bind base58PrivateKey)).request id with messageToken := token } =
          some (C.fromBase58 env.rng base58PrivateKey) := rfl
      simp only [Answerable, standsFor_iff hs (hheld node rfl) he]
      constructor
      · rintro ⟨-, entry', he', hplace⟩
        obtain rfl := Option.some.inj (he.symm.trans he')
        rw [hkey] at hplace
        cases hload : C.fromBase58 env.rng base58PrivateKey with
        | none => simp only [hload] at hplace
        | some key =>
          simp only [hload] at hplace
          exact ⟨entry.node, key, rfl, rfl, hplace⟩
      · rintro ⟨_, key, rfl, hload, hplace⟩
        refine ⟨rfl, entry, he, ?_⟩
        rw [hkey]
        simp only [hload]
        exact hplace

end Session

section Serving

variable {call : Call} {env : Env C}

/-- What the daemon finds when it comes to the call of an exchange. -/
structure Waiting (own : SessionPtr) (a : Application C) (i : ℕ) (call : Call) (id : UInt32)
    (m : APIMessage) (session : APISession) : Prop where
  asks : a.request i = some m
  request : ∃ token, m = { call.request id with messageToken := token }
  unserved : i ∉ a.served
  before : a.daemon.sessions.find own = some session
  idsOk : session.IdsOk
  held : ∀ node, call.node = some node → a.Holds node id
  find : ∀ node, call.node = some node → (session.nodes.find id).isSome

lemma Agrees.waiting (h : Agrees own a) (hcall : a.calls[i]? = some call) (hi : i ∉ a.served) :
    ∃ id m session, Waiting own a i call id m session := by
  obtain ⟨session, hs, hok, -⟩ := h.session
  obtain ⟨id, token, hnamed, hrequest⟩ := h.asks i call hcall
  have hheld : ∀ node, call.node = some node → a.Holds node id := fun node hnode =>
    h.holds (by rw [hcall]; exact hnode) hi (hnamed node hnode)
  exact ⟨id, _, session, hrequest, ⟨token, rfl⟩, hi, hs, hok, hheld,
    fun node hnode => h.find_isSome hs (hheld node hnode)⟩

variable {id : UInt32} {m : APIMessage} {session : APISession}

lemma Waiting.serve_of_error (hw : Waiting own a i call id m session) {escape : Escape}
    {w : World C} (h : (a.daemon.world session).process own env m = .error (escape, w)) :
    a.serve own i env = .error (.daemon escape) := by
  have hstep : a.daemon.step (.receive own env m) = .error escape := by
    simp only [Daemon.step, hw.before, h]
  simp only [serve, hw.asks, if_neg hw.unserved, hstep]

lemma Waiting.serve_of_ok (hw : Waiting own a i call id m session) (hagrees : Agrees own a)
    {w : World C} (h : (a.daemon.world session).process own env m = .ok w) :
    ∃ a', a.serve own i env = .ok a' := by
  have hstep : ∃ d', a.daemon.step (.receive own env m) = .ok d' := by
    simp only [Daemon.step, hw.before, h]
    exact ⟨_, rfl⟩
  obtain ⟨d', hstep⟩ := hstep
  simp only [serve, hw.asks, if_neg hw.unserved, hstep]
  cases d'.sent[a.daemon.sent.length]? with
  | none => exact ⟨_, rfl⟩
  | some content =>
    obtain ⟨e, he, -⟩ := Option.map_eq_some_iff.mp hw.asks
    have hnone : e.reply = none := by
      by_contra hsome
      obtain ⟨reply, hreply⟩ := Option.ne_none_iff_exists'.mp hsome
      exact hw.unserved (hagrees.replied i reply (Option.bind_eq_some_iff.mpr ⟨e, he, hreply⟩)).1
    simp only [answered, replyWith_eq he hnone]
    exact ⟨_, rfl⟩

lemma Waiting.served_iff (hw : Waiting own a i call id m session) :
    World.Served env m (a.daemon.world session) ↔ a.Answerable own env call := by
  obtain ⟨token, rfl⟩ := hw.request
  exact served_iff_answerable hw.before hw.idsOk hw.held hw.find

lemma Waiting.handled (hw : Waiting own a i call id m session) {w : World C}
    (h : (a.daemon.world session).process own env m = .ok w) :
    Handled session call id w.session w.sent[0]? := by
  obtain ⟨token, rfl⟩ := hw.request
  exact process_handled (w := a.daemon.world session) rfl hw.find h

/-- Only a constructor that finds no id is served without an answer. -/
lemma Handled.answer_eq_none {session' : APISession} {answer : Option APIMessage}
    (h : Handled session call id session' answer) :
    answer = none ↔ call = .construct ∧ session.nextNodeId = 0 := by
  cases h with
  | full hcall hfull => exact iff_of_true rfl ⟨hcall, hfull⟩
  | constructed _ _ hfree => exact iff_of_false nofun fun hfull => hfree hfull.2
  | invoked hcall =>
    subst hcall
    exact iff_of_false nofun nofun
  | destructed hcall =>
    subst hcall
    exact iff_of_false nofun nofun

lemma Waiting.answerable (hw : Waiting own a i call id m session) {w : World C}
    (h : (a.daemon.world session).process own env m = .ok w) (hcall : call ≠ .construct) :
    a.Answerable own env call := by
  have herror : m.error.isSome = false := by
    obtain ⟨token, rfl⟩ := hw.request
    cases call with
    | construct | destruct => rfl
    | invoke node method => cases method <;> rfl
  have hsent : w.sent ≠ (a.daemon.world session).sent := by
    intro hnil
    exact hcall ((hw.handled h).answer_eq_none.mp (by rw [hnil]; rfl)).1
  exact hw.served_iff.mp (World.served_of_answered (World.answered_of_process h hsent herror))

lemma Waiting.reply_eq_none (hw : Waiting own a i call id m session) (hagrees : Agrees own a)
    (hcall : a.calls[i]? = some call) (h : a.serve own i env = .ok a') :
    a'.reply i = none ↔ call = .construct ∧ session.nextNodeId = 0 := by
  obtain ⟨call', id', session', session'', answer, hserves⟩ := hagrees.serves h
  obtain rfl := Option.some.inj (hcall.symm.trans hserves.started)
  obtain rfl := Option.some.inj (hw.before.symm.trans hserves.before)
  rw [hserves.reply, if_pos rfl]
  exact hserves.handled.answer_eq_none

end Serving

/-- A call of the program on a daemon that has run until now. When the daemon comes to it, it is
answered if it is `Answerable`; otherwise a constructor waits for ever and every other call ends
the daemon. -/
theorem calls_answered (own : SessionPtr) (before : List (API.Event C)) (d : Daemon C)
    (hd : run Daemon.step .new before = .ok d) (hown : d.sessions.find own = some .new)
    (events : List (ApplicationEvent C)) (htimely : Guarded (step own) Timely (new d) events)
    (a : Application C) (h : run (step own) (new d) events = .ok a) (i : ℕ) (call : Call)
    (hcall : a.calls[i]? = some call) (hwaiting : i ∉ a.served) (env : Env C)
    (hfresh : a.daemon.manager.heap.find env.address = none) :
    (a.Answerable own env call → ∃ a', a.serve own i env = .ok a' ∧ (a'.reply i).isSome) ∧
      (¬a.Answerable own env call →
        (call = .construct → ∃ a', a.serve own i env = .ok a' ∧ a'.reply i = none) ∧
        (call ≠ .construct → ∃ escape, a.serve own i env = .error (.daemon escape))) := by
  have hagrees := run_agrees hown htimely h
  have howned : a.daemon.Owned :=
    invariant (I := fun a => a.daemon.Owned) step_daemon_owned
      (invariant Daemon.step_owned Daemon.owned_new hd) h
  obtain ⟨id, m, session, hw⟩ := hagrees.waiting hcall hwaiting
  refine ⟨fun hanswerable => ?_, fun hnot => ⟨?_, fun hconstruct => ?_⟩⟩
  · have hserved := hw.served_iff.mpr hanswerable
    have hlive : ∀ id entry, session.nodes.find id = some entry →
        (a.daemon.manager.heap.find entry.node).isSome := fun id entry he =>
      howned.live own id entry.node ⟨session, entry, hw.before, he, rfl⟩
    have hanswered : World.Answered own env m (a.daemon.world session) :=
      World.answered_of_served hfresh hlive hserved
    obtain ⟨w, reply, hp, -⟩ := hanswered
    obtain ⟨a', ha'⟩ := hw.serve_of_ok hagrees hp
    refine ⟨a', ha', Option.isSome_iff_ne_none.mpr fun hnone => ?_⟩
    obtain ⟨rfl, hfull⟩ := (hw.reply_eq_none hagrees hcall ha').mp hnone
    exact (nextNodeId_iff hw.before hw.idsOk).mpr hanswerable hfull
  · rintro rfl
    have hfull : session.nextNodeId = 0 := by
      by_contra hfree
      exact hnot ((nextNodeId_iff hw.before hw.idsOk).mp hfree)
    have hp : (a.daemon.world session).process own env m = .ok (a.daemon.world session) := by
      obtain ⟨token, rfl⟩ := hw.request
      exact if_pos hfull
    obtain ⟨a', ha'⟩ := hw.serve_of_ok hagrees hp
    exact ⟨a', ha', (hw.reply_eq_none hagrees hcall ha').mpr ⟨rfl, hfull⟩⟩
  · cases hp : (a.daemon.world session).process own env m with
    | error failure => exact ⟨failure.1, hw.serve_of_error hp⟩
    | ok w => exact absurd (hw.answerable hp hconstruct) hnot

-- a node that is bound to the key `2` in base 58 is asked to bind to `3`
def rebindEvents : List (ApplicationEvent sampleCrypto) :=
  [.start .construct, .serve 0 ⟨(), 10⟩, .deliver 0, .finish 0,
    .start (.invoke 0 (.bind [50])), .serve 1 ⟨(), 11⟩, .deliver 0, .finish 1,
    .start (.invoke 0 (.bind [51]))]

theorem calls_answered_rebind :
    ∃ a, run (step 1) (new sampleDaemon) rebindEvents = .ok a ∧ (a.result 1).isSome ∧
      ∃ escape, a.serve 1 2 ⟨(), 12⟩ = .error (.daemon escape) := by
  have htimely : Guarded (step 1) Timely (new sampleDaemon) rebindEvents := by decide
  have h : run (step 1) (new sampleDaemon) rebindEvents = .ok _ := rfl
  refine ⟨_, h, rfl, ?_⟩
  refine ((calls_answered 1 [.accept 1] sampleDaemon rfl rfl rebindEvents htimely _ h 2
    (.invoke 0 (.bind [51])) rfl (by decide) ⟨(), 12⟩ rfl).2 ?_).2 nofun
  rintro ⟨p, key, -, hload, hunbound | hbound⟩
  · cases hunbound
  · obtain rfl : (2 : ℕ) = key := Option.some.inj hload
    cases hbound

end Application

end P2PNet.Library
