import P2PNet.API.Daemon

/-! What one session sees of the daemon. The handlers decide on a reply and on the nodes of
their session by the session alone; the `NodeManager`, which all sessions share, decides
whether they come to an end, and a request that does not ends the daemon for all. -/

namespace P2PNet.API

open Lib Lib.Runs P2P

variable {C : Crypto}

def Event.session : Event C → SessionPtr
  | .accept session | .receive session _ _ | .drop session => session

/-- What a request makes of its session, and the replies to it. -/
def APISession.respond (s : APISession) (address : NodePtr) (request : APIMessage) :
    APISession × List APIMessage :=
  match request.getType with
  | .nodeRegister =>
    if s.nextNodeId = 0 then (s, [])
    else (s.register ⟨address, 1⟩,
      [{ request with nodeRegister := some ⟨some s.nextNodeId⟩ }])
  | .nodeUnregister =>
    if (s.nodes.find request.unregisterId).isSome then
      (s.unregister request.unregisterId, [request])
    else (s, [])
  | .nodeListen => (s, if (s.nodes.find request.listenId).isSome then [request] else [])
  | .nodeBind => (s, if (s.nodes.find request.bindId).isSome then [request] else [])
  | .nodeConnect | .nodeAccept | .socketUnregister => (s, [])

/-- A request is answered with itself or, if it is a registration, with itself and an id. -/
inductive Answers (request : APIMessage) : List APIMessage → Prop
  | silent : Answers request []
  | echo : Answers request [request]
  | registered (id : UInt32) (htype : request.getType = .nodeRegister) :
      Answers request [{ request with nodeRegister := some ⟨some id⟩ }]

/-- The token of a request is copied. -/
lemma Answers.token {request : APIMessage} {replies : List APIMessage}
    (h : Answers request replies) :
    ∀ reply ∈ replies, reply.messageToken = request.messageToken := by
  cases h with
  | silent => exact List.forall_mem_nil _
  | echo | registered => exact List.forall_mem_singleton.mpr rfl

lemma answers_respond (s : APISession) (address : NodePtr) (request : APIMessage) :
    Answers request (s.respond address request).2 := by
  rw [APISession.respond]
  split
  · next htype =>
    split
    · exact .silent
    · exact .registered _ htype
  · split
    · exact .echo
    · exact .silent
  · split
    · exact .echo
    · exact .silent
  · split
    · exact .echo
    · exact .silent
  · exact .silent
  · exact .silent
  · exact .silent

/-- The session of a client and what it was sent. -/
structure Seen where
  session : Option APISession
  replies : List APIMessage

/-- An event of the session that does not end the daemon. -/
def Seen.step (v : Seen) : Event C → Seen
  | .accept _ => { v with session := some .new }
  | .receive _ env request =>
    match v.session with
    | none => v
    | some session =>
      let (session, replies) := session.respond env.address request
      ⟨some session, v.replies ++ replies⟩
  | .drop _ => { v with session := none }

/-- The ids that the client can use and the one it gets next. -/
def Seen.ids (v : Seen) : Option (List UInt32 × UInt32) :=
  v.session.map fun s => (s.nodes.keys, s.nextNodeId)

inductive Input where
  | accept
  | receive (request : APIMessage)
  | drop

/-- What the client does in an event; the address of a new node is not its doing. -/
def Event.input : Event C → Input
  | .accept _ => .accept
  | .receive _ _ request => .receive request
  | .drop _ => .drop

namespace APISession

variable {s s' : APISession} {entry entry' : NodeT}

def Alike (s s' : APISession) : Prop :=
  s.nodes.keys = s'.nodes.keys ∧ s.nextNodeId = s'.nextNodeId

lemma Alike.isSome (h : Alike s s') (id : UInt32) :
    (s.nodes.find id).isSome = (s'.nodes.find id).isSome := by
  rw [Bool.eq_iff_iff, ← StdMap.mem_keys, ← StdMap.mem_keys, h.1]

lemma Alike.register (h : Alike s s') : Alike (s.register entry) (s'.register entry') := by
  have hkeys : (s.nodes.insert s.nextNodeId entry).keys =
      (s'.nodes.insert s'.nextNodeId entry').keys := by
    apply StdMap.keys_eq_of_mem_iff
    intro id
    rw [StdMap.mem_keys, StdMap.mem_keys, StdMap.find_insert, StdMap.find_insert, h.2]
    split
    · simp
    · rw [h.isSome]
  refine ⟨hkeys, ?_⟩
  rw [APISession.register, APISession.register, StdMap.keysAfter, StdMap.keysAfter, hkeys, h.2]

lemma Alike.unregister (h : Alike s s') (id : UInt32) :
    Alike (s.unregister id) (s'.unregister id) := by
  refine ⟨StdMap.keys_eq_of_mem_iff fun a => ?_, ?_⟩
  · rw [StdMap.mem_keys, StdMap.mem_keys, APISession.unregister, APISession.unregister,
      StdMap.find_erase, StdMap.find_erase]
    split
    · rfl
    · rw [h.isSome]
  · rw [APISession.unregister, APISession.unregister, h.2]

/-- Where the nodes lie does not decide on the replies. -/
lemma Alike.respond (h : Alike s s') (address address' : NodePtr) (request : APIMessage) :
    Alike (s.respond address request).1 (s'.respond address' request).1 ∧
      (s.respond address request).2 = (s'.respond address' request).2 := by
  unfold APISession.respond
  cases request.getType with
  | nodeRegister =>
    dsimp only
    rw [h.2]
    split
    · exact ⟨h, rfl⟩
    · exact ⟨h.register, rfl⟩
  | nodeUnregister =>
    dsimp only
    rw [h.isSome]
    split
    · exact ⟨h.unregister _, rfl⟩
    · exact ⟨h, rfl⟩
  | nodeListen => exact ⟨h, by simp only [h.isSome]⟩
  | nodeBind => exact ⟨h, by simp only [h.isSome]⟩
  | nodeConnect | nodeAccept | socketUnregister => exact ⟨h, rfl⟩

end APISession

namespace Seen

variable {v v' : Seen}

def Alike (v v' : Seen) : Prop := v.ids = v'.ids ∧ v.replies = v'.replies

lemma Alike.receive (h : Alike v v') (self self' : SessionPtr) (env env' : Env C)
    (request : APIMessage) :
    Alike (v.step (.receive self env request)) (v'.step (.receive self' env' request)) := by
  obtain ⟨hids, hreplies⟩ := h
  rw [step, step]
  cases hs : v.session with
  | none =>
    cases hs' : v'.session with
    | none => exact ⟨hids, hreplies⟩
    | some s' => simp [ids, hs, hs'] at hids
  | some s =>
    cases hs' : v'.session with
    | none => simp [ids, hs, hs'] at hids
    | some s' =>
      have hsession : s.Alike s' := by simpa [APISession.Alike, ids, hs, hs'] using hids
      obtain ⟨hrespond, hanswers⟩ := hsession.respond env.address env'.address request
      exact ⟨congrArg some (Prod.ext hrespond.1 hrespond.2), by simp only [hreplies, hanswers]⟩

lemma Alike.step (h : Alike v v') {e e' : Event C} (he : e.input = e'.input) :
    Alike (v.step e) (v'.step e') := by
  cases e with
  | accept =>
    cases e' with
    | accept => exact ⟨rfl, h.2⟩
    | receive | drop => cases he
  | receive self env request =>
    cases e' with
    | receive self' env' request' =>
      cases he
      exact h.receive self self' env env' request
    | accept | drop => cases he
  | drop =>
    cases e' with
    | drop => exact ⟨rfl, h.2⟩
    | accept | receive => cases he

lemma Alike.foldl (h : Alike v v') {es es' : List (Event C)}
    (hes : es.map Event.input = es'.map Event.input) :
    Alike (es.foldl Seen.step v) (es'.foldl Seen.step v') := by
  induction es generalizing es' v v' with
  | nil =>
    obtain rfl := List.map_eq_nil_iff.mp hes.symm
    exact h
  | cons e es ih =>
    obtain ⟨e', es', rfl, he, hrest⟩ := List.map_eq_cons_iff.mp hes.symm
    exact ih (h.step he.symm) hrest.symm

end Seen

namespace World

variable {self : SessionPtr} {env : Env C} {request : APIMessage} {w w' : World C}

lemma respond_of_call {outcome : Outcome (NodeManager C)} {f : World C → World C}
    (h : (w.call outcome >>= fun w => (.ok (f w) : Handled C)) = .ok w') :
    ∃ m, w' = f { w with manager := m } := by
  obtain ⟨w₁, hcall, h⟩ := bind_ok_iff.mp h
  obtain ⟨m, -, rfl⟩ := call_ok hcall
  exact ⟨m, (Except.ok.inj h).symm⟩

theorem process_respond (hsent : w.sent = []) (h : w.process self env request = .ok w') :
    (w'.session, w'.sent) = w.session.respond env.address request := by
  cases htype : request.getType with
  | nodeRegister =>
    simp only [process, htype, nodeRegister] at h
    simp only [APISession.respond, htype]
    split at h
    · next hfull =>
      obtain rfl := Except.ok.inj h
      rw [if_pos hfull, remoteThrow, hsent]
    · next hfree =>
      obtain ⟨m, rfl⟩ := respond_of_call h
      simp [send, hfree, hsent]
  | nodeUnregister =>
    simp only [process, htype, nodeUnRegister] at h
    simp only [APISession.respond, htype]
    split at h
    · next hnone =>
      obtain rfl := Except.ok.inj h
      simp [remoteThrow, hnone, hsent]
    · next entry hentry =>
      obtain ⟨m, rfl⟩ := respond_of_call h
      simp [send, hentry, hsent]
  | nodeConnect | nodeAccept =>
    simp only [process, htype] at h
    cases h
  | nodeListen =>
    simp only [process, htype, nodeListen] at h
    simp only [APISession.respond, htype]
    split at h
    · next hnone =>
      obtain rfl := Except.ok.inj h
      simp [remoteThrow, hnone, hsent]
    · next entry hentry =>
      obtain ⟨m, rfl⟩ := respond_of_call h
      simp [send, hentry, hsent]
  | nodeBind =>
    simp only [process, htype, nodeBind_eq] at h
    simp only [APISession.respond, htype]
    split at h
    · next hnone =>
      obtain rfl := Except.ok.inj h
      simp [remoteThrow, hnone, hsent]
    · next entry hentry =>
      split at h
      · obtain rfl := Except.ok.inj h
        simp [send, hentry, hsent]
      · rw [bindKey.eq_def] at h
        split at h
        · cases h
        · obtain ⟨m, rfl⟩ := respond_of_call h
          simp [send, hentry, hsent]
  | socketUnregister =>
    simp only [process, htype, socketUnRegister] at h
    obtain rfl := Except.ok.inj h
    simp only [APISession.respond, htype, hsent]

end World

namespace Daemon

variable {own : SessionPtr} {d d' : Daemon C}

def repliesTo (own : SessionPtr) (sent : List (SessionPtr × APIMessage)) : List APIMessage :=
  sent.filterMap fun x => if x.1 = own then some x.2 else none

def seenBy (own : SessionPtr) (d : Daemon C) : Seen :=
  ⟨d.sessions.find own, repliesTo own d.sent⟩

lemma repliesTo_append (xs : List (SessionPtr × APIMessage)) (self : SessionPtr)
    (ms : List APIMessage) :
    repliesTo own (xs ++ ms.map (self, ·)) =
      repliesTo own xs ++ if self = own then ms else [] := by
  rw [repliesTo, List.filterMap_append]
  split
  · next heq => simp [repliesTo, List.filterMap_map, heq]
  · next hne => simp [repliesTo, List.filterMap_map, hne]

lemma step_seenBy (own : SessionPtr) (d : Daemon C) (e : Event C) (d' : Daemon C)
    (h : d.step e = .ok d') :
    d'.seenBy own = if e.session = own then (d.seenBy own).step e else d.seenBy own := by
  cases e with
  | accept self =>
    obtain ⟨hfree, rfl⟩ := accept_ok h
    simp only [seenBy, Event.session, Seen.step, StdMap.find_insert, eq_comm (a := self)]
    split
    · next heq =>
      rw [hfree]
      rfl
    · rfl
  | receive self env request =>
    obtain ⟨session, w, hs, hw, rfl⟩ := receive_ok h
    have hrespond : (w.session, w.sent) = session.respond env.address request :=
      World.process_respond rfl hw
    simp only [seenBy, Event.session, StdMap.find_assign, repliesTo_append, eq_comm (a := self)]
    split
    · next heq =>
      subst heq
      simp only [Seen.step, hs, ← hrespond]
    · rw [List.append_nil]
  | drop self =>
    obtain rfl := drop_ok h
    simp only [seenBy, Event.session, Seen.step, StdMap.find_erase, eq_comm (a := self)]
    split
    · rfl
    · rfl

lemma receive_sent {env : Env C} {m : APIMessage} (h : d.step (.receive own env m) = .ok d') :
    ∃ replies, Answers m replies ∧ d'.sent = d.sent ++ replies.map (own, ·) := by
  obtain ⟨session, w, -, hw, rfl⟩ := receive_ok h
  have hrespond : (w.session, w.sent) = session.respond env.address m :=
    World.process_respond rfl hw
  refine ⟨w.sent, ?_, rfl⟩
  rw [(Prod.mk.inj hrespond).2]
  exact answers_respond session env.address m

lemma sessions_other {event : Event C} (hne : event.session ≠ own) (h : d.step event = .ok d') :
    d'.sessions.find own = d.sessions.find own := by
  have hseen := step_seenBy own d event d' h
  rw [if_neg hne] at hseen
  exact congrArg Seen.session hseen

lemma seenBy_run (own : SessionPtr) {events : List (Event C)} {d : Daemon C}
    (h : run step new events = .ok d) :
    d.seenBy own = (events.filter (·.session = own)).foldl Seen.step ⟨none, []⟩ := by
  have hseen : (new : Daemon C).seenBy own = ⟨none, []⟩ := by
    rw [seenBy, new, StdMap.find_empty]
    rfl
  have hstep : ∀ (d : Daemon C) (e : Event C) (d' : Daemon C), step d e = .ok d' →
      seenBy own d' =
        if decide (e.session = own) then (seenBy own d).step e else seenBy own d := by
    simpa using step_seenBy own
  rw [← hseen]
  exact run_view hstep h

/-- In two runs of the daemon in which a client does the same and that the daemon survives, the
client has the same ids and was sent the same replies, whatever the other clients do in them. -/
theorem undisturbed_by_others (own : SessionPtr) (events events' : List (Event C))
    (d d' : Daemon C) (h : run step new events = .ok d) (h' : run step new events' = .ok d')
    (hown : (events.filter (·.session = own)).map Event.input =
      (events'.filter (·.session = own)).map Event.input) :
    (d.seenBy own).ids = (d'.seenBy own).ids ∧
      (d.seenBy own).replies = (d'.seenBy own).replies := by
  rw [seenBy_run own h, seenBy_run own h']
  have hnone : Seen.Alike ⟨none, []⟩ ⟨none, []⟩ := ⟨rfl, rfl⟩
  exact hnone.foldl hown

theorem undisturbed_by_others_alone :
    let register : APIMessage := { type := some .nodeRegister }
    let listen : APIMessage := { type := some .nodeListen, nodeListen := some ⟨some 1, some 5⟩ }
    let among : List (Event sampleCrypto) :=
      [.accept 1, .accept 2, .receive 2 ⟨(), 10⟩ register, .receive 1 ⟨(), 11⟩ register,
        .receive 2 ⟨(), 12⟩ listen, .drop 2, .receive 1 ⟨(), 12⟩ listen]
    let alone : List (Event sampleCrypto) :=
      [.accept 1, .receive 1 ⟨(), 10⟩ register, .receive 1 ⟨(), 11⟩ listen]
    ∃ d d', run step new among = .ok d ∧ run step new alone = .ok d' ∧ d.sent.length = 4 ∧
      (d.seenBy 1).ids = (d'.seenBy 1).ids ∧
      (d.seenBy 1).replies = (d'.seenBy 1).replies := by
  intro register listen among alone
  exact ⟨_, _, rfl, rfl, rfl, undisturbed_by_others 1 among alone _ _ rfl rfl rfl⟩

end Daemon

end P2PNet.API
