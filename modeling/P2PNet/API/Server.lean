import P2PNet.API.Answers

/-! `UnixAPIServer`: the receive loop around the sessions, with every access of a
handler to its session written out. A session that is not in `api_sessions` has
been deleted, and an access to it is a fault. The handlers are those of `World`,
in smaller steps. -/

namespace P2PNet.API

open Lib Lib.Runs P2P

structure Server (C : Crypto) where
  daemon : Daemon C
  armed : List SessionPtr

inductive Access where
  | field
  | send
  | arm
  deriving DecidableEq, Repr

inductive Fault where
  | escaped (escape : Escape)
  | usedAfterDrop (session : SessionPtr) (access : Access)
  deriving DecidableEq, Repr

inductive ServerEvent (C : Crypto) where
  | accept (session : SessionPtr)
  | receive (session : SessionPtr) (env : Env C) (request : APIMessage) (sendFails : Bool)
  | receiveError (session : SessionPtr)

namespace Server

variable {C : Crypto}

abbrev Done (C : Crypto) := Except Fault (Server C)

def new : Server C := ⟨.new, []⟩

def access (srv : Server C) (self : SessionPtr) (kind : Access) : Except Fault APISession :=
  match srv.daemon.sessions.find self with
  | some session => .ok session
  | none => .error (.usedAfterDrop self kind)

def write (srv : Server C) (self : SessionPtr) (session : APISession) : Done C := do
  let _ ← srv.access self .field
  .ok { srv with
    daemon := { srv.daemon with sessions := srv.daemon.sessions.assign self session } }

def call (srv : Server C) (outcome : Outcome (NodeManager C)) : Done C :=
  match outcome with
  | .ok manager => .ok { srv with daemon := { srv.daemon with manager := manager } }
  | .error (escape, _) => .error (.escaped escape)

def dropSession (srv : Server C) (self : SessionPtr) : Done C := do
  let _ ← srv.access self .field
  .ok { srv with daemon := { srv.daemon with sessions := srv.daemon.sessions.erase self } }

/-- `UnixAPISession::send` -/
def send (srv : Server C) (self : SessionPtr) (reply : APIMessage) (fails : Bool) : Done C := do
  let _ ← srv.access self .send
  if fails then srv.dropSession self
  else .ok { srv with daemon := { srv.daemon with sent := srv.daemon.sent ++ [(self, reply)] } }

def nodeRegister (self : SessionPtr) (env : Env C) (request : APIMessage) (fails : Bool)
    (srv : Server C) : Done C := do
  let session ← srv.access self .field
  if session.nextNodeId = 0 then .ok srv
  else
    let nodeId := session.nextNodeId
    let srv ← srv.call (srv.daemon.manager.createNode env.address (some self))
    let srv ← srv.write self { session with nodes := session.nodes.insert nodeId ⟨env.address, 1⟩ }
    let messageReply := { request with
      nodeRegister := some { request.nodeRegister.getD {} with nodeId := some nodeId } }
    let srv ← srv.send self messageReply fails
    let session ← srv.access self .field
    srv.write self { session with
      nextNodeId := APISession.advance (session.nodes.keysAfter nodeId) (session.nextNodeId + 1) }

def nodeUnRegister (self : SessionPtr) (request : APIMessage) (fails : Bool) (srv : Server C) :
    Done C := do
  let session ← srv.access self .field
  match session.nodes.find request.unregisterId with
  | none => .ok srv
  | some entry =>
    let srv ← srv.call (srv.daemon.manager.destroyNode entry.node)
    let srv ← srv.write self (session.unregister request.unregisterId)
    srv.send self request fails

def nodeListen (self : SessionPtr) (request : APIMessage) (fails : Bool) (srv : Server C) :
    Done C := do
  let session ← srv.access self .field
  match session.nodes.find request.listenId with
  | none => .ok srv
  | some entry =>
    let srv ← srv.call (srv.daemon.manager.listen entry.node request.maxConnections)
    srv.send self request fails

def bindKey (node : NodePtr) (key : Option C.PrivateKey) (srv : Server C) : Done C :=
  match key with
  | none => .error (.escaped .botan)
  | some privateKey => srv.call (srv.daemon.manager.bind node privateKey)

def nodeBind (self : SessionPtr) (env : Env C) (request : APIMessage) (fails : Bool)
    (srv : Server C) : Done C := do
  let session ← srv.access self .field
  match session.nodes.find request.bindId with
  | none => .ok srv
  | some entry =>
    let srv ←
      match request.binaryPrivateKey, request.b58PrivateKey with
      | some key, _ => srv.bindKey entry.node (C.fromBinaryString env.rng key)
      | none, some key => srv.bindKey entry.node (C.fromBase58 env.rng key)
      | none, none => .ok srv
    srv.send self request fails

def process (self : SessionPtr) (env : Env C) (request : APIMessage) (fails : Bool)
    (srv : Server C) : Done C :=
  match request.getType with
  | .nodeRegister => srv.nodeRegister self env request fails
  | .nodeUnregister => srv.nodeUnRegister self request fails
  | .nodeConnect => .error (.escaped .terminate)
  | .nodeAccept => .error (.escaped .terminate)
  | .nodeListen => srv.nodeListen self request fails
  | .nodeBind => srv.nodeBind self env request fails
  | .socketUnregister => .ok srv

def receiveLoop (self : SessionPtr) (srv : Server C) : Done C := do
  let _ ← srv.access self .arm
  .ok { srv with armed := self :: srv.armed }

/-- A receive completes only if it is armed, and `new` returns no address in use. -/
def step (srv : Server C) : ServerEvent C → Done C
  | .accept self =>
    match srv.daemon.sessions.find self with
    | some _ => .error (.escaped .disabled)
    | none =>
      receiveLoop self { srv with
        daemon := { srv.daemon with sessions := srv.daemon.sessions.insert self .new } }
  | .receive self env request fails =>
    if self ∈ srv.armed then do
      let srv ← process self env request fails { srv with armed := srv.armed.erase self }
      srv.receiveLoop self
    else .error (.escaped .disabled)
  | .receiveError self =>
    if self ∈ srv.armed then dropSession { srv with armed := srv.armed.erase self } self
    else .error (.escaped .disabled)

section Refinement

variable {srv srv' : Server C} {self : SessionPtr} {session : APISession} {kind : Access}
  {env : Env C} {request reply : APIMessage} {fails : Bool}

lemma access_of_live (h : srv.daemon.sessions.find self = some session) :
    srv.access self kind = .ok session := by
  rw [access, h]

lemma access_of_dropped (h : srv.daemon.sessions.find self = none) :
    srv.access self kind = .error (.usedAfterDrop self kind) := by
  rw [access, h]

/-- What the daemon is after the session has done what `w` says. -/
def settled (srv : Server C) (self : SessionPtr) (w : World C) : Daemon C :=
  ⟨srv.daemon.sessions.assign self w.session, w.manager, srv.daemon.sent ++ w.sent.map (self, ·)⟩

structure Agree (d d' : Daemon C) : Prop where
  sessions : ∀ p, d.sessions.find p = d'.sessions.find p
  manager : d.manager = d'.manager
  sent : d.sent = d'.sent

lemma agree_settled (h : srv.daemon.sessions.find self = some session) :
    Agree srv.daemon (srv.settled self (srv.daemon.world session)) := by
  refine ⟨fun p => ?_, rfl, by simp [settled, Daemon.world]⟩
  rw [settled, StdMap.find_assign]
  split
  · next hp => rw [hp, h]; rfl
  · rfl

/-- How a handler ends, next to how the handler of `World` ends. -/
inductive Processed (srv : Server C) (self : SessionPtr) (fails : Bool) :
    Handled C → Done C → Prop
  | escaped (e : Escape) (w : World C) :
      Processed srv self fails (.error (e, w)) (.error (.escaped e))
  | returned {w : World C} {srv' : Server C} (hsent : w.sent = [] ∨ fails = false)
      (harmed : srv'.armed = srv.armed) (hagree : Agree srv'.daemon (srv.settled self w)) :
      Processed srv self fails (.ok w) (.ok srv')
  | dropped {w : World C} {srv' : Server C} (hsent : w.sent ≠ []) (hfails : fails = true)
      (hgone : srv'.daemon.sessions.find self = none) : Processed srv self fails (.ok w) (.ok srv')
  | faulted {w : World C} (hsent : w.sent ≠ []) (hfails : fails = true) :
      Processed srv self fails (.ok w) (.error (.usedAfterDrop self .field))

lemma dropSession_of_live (srv : Server C) (h : srv.daemon.sessions.find self = some session) :
    srv.dropSession self = .ok { srv with
      daemon := { srv.daemon with sessions := srv.daemon.sessions.erase self } } := by
  rw [dropSession, access_of_live h]
  rfl

lemma send_of_ok (h : srv.daemon.sessions.find self = some session) :
    srv.send self reply false =
      .ok { srv with
        daemon := { srv.daemon with sent := srv.daemon.sent ++ [(self, reply)] } } := by
  rw [send, access_of_live h]
  rfl

lemma send_of_fails (h : srv.daemon.sessions.find self = some session) :
    srv.send self reply true =
      .ok { srv with
        daemon := { srv.daemon with sessions := srv.daemon.sessions.erase self } } := by
  rw [send, access_of_live h, ok_bind, if_pos rfl, dropSession_of_live _ h]

lemma send_processed {srv₁ : Server C} {w : World C} (hw : w.sent = [reply])
    (harmed : srv₁.armed = srv.armed) (hsent : srv₁.daemon.sent = srv.daemon.sent)
    (hmanager : srv₁.daemon.manager = w.manager)
    (hsessions : ∀ p, srv₁.daemon.sessions.find p =
      if p = self then some w.session else srv.daemon.sessions.find p) :
    Processed srv self fails (.ok w) (srv₁.send self reply fails) := by
  have hlive : srv₁.daemon.sessions.find self = some w.session := by
    rw [hsessions, if_pos rfl]
  cases fails with
  | false =>
    rw [send_of_ok hlive]
    refine .returned (.inr rfl) harmed ⟨fun p => ?_, hmanager, ?_⟩
    · rw [settled, StdMap.find_assign]
      exact hsessions p
    · simp [settled, hw, hsent]
  | true =>
    rw [send_of_fails hlive]
    exact .dropped (by simp [hw]) rfl (StdMap.find_erase_self _ _)

lemma write_of_live (srv : Server C) (h : srv.daemon.sessions.find self = some session)
    (session' : APISession) :
    srv.write self session' = .ok { srv with
      daemon := { srv.daemon with sessions := srv.daemon.sessions.assign self session' } } := by
  rw [write, access_of_live h]
  rfl

lemma refused_processed (hs : srv.daemon.sessions.find self = some session) :
    Processed srv self fails (.ok (srv.daemon.world session)) (.ok srv) :=
  .returned (.inl rfl) rfl (agree_settled hs)

lemma find_of_live (hs : srv.daemon.sessions.find self = some session) (p : SessionPtr) :
    srv.daemon.sessions.find p = if p = self then some session else srv.daemon.sessions.find p := by
  split
  · next hp => rw [hp, hs]
  · rfl

lemma nodeUnRegister_processed (hs : srv.daemon.sessions.find self = some session) :
    Processed srv self fails ((srv.daemon.world session).nodeUnRegister request)
      (srv.nodeUnRegister self request fails) := by
  simp only [nodeUnRegister, access_of_live hs, ok_bind, World.nodeUnRegister, Daemon.world]
  cases session.nodes.find request.unregisterId with
  | none => exact refused_processed hs
  | some entry =>
    dsimp only
    cases srv.daemon.manager.destroyNode entry.node with
    | error e => exact .escaped e.1 _
    | ok m =>
      simp only [call, World.call, ok_bind]
      rw [write_of_live { srv with daemon := { srv.daemon with manager := m } } hs, ok_bind]
      exact send_processed rfl rfl rfl rfl (fun p => StdMap.find_assign _ _ _ _)

lemma nodeListen_processed (hs : srv.daemon.sessions.find self = some session) :
    Processed srv self fails ((srv.daemon.world session).nodeListen request)
      (srv.nodeListen self request fails) := by
  simp only [nodeListen, access_of_live hs, ok_bind, World.nodeListen, Daemon.world]
  cases session.nodes.find request.listenId with
  | none => exact refused_processed hs
  | some entry =>
    dsimp only
    cases srv.daemon.manager.listen entry.node request.maxConnections with
    | error e => exact .escaped e.1 _
    | ok m => exact send_processed rfl rfl rfl rfl (find_of_live hs)

lemma bindKey_processed {node : NodePtr} (hs : srv.daemon.sessions.find self = some session)
    (key : Option C.PrivateKey) :
    Processed srv self fails
      ((srv.daemon.world session).bindKey node key >>= fun w => .ok (w.send request))
      (srv.bindKey node key >>= fun srv => srv.send self request fails) := by
  cases key with
  | none => exact .escaped .botan _
  | some key =>
    simp only [bindKey, World.bindKey, Daemon.world]
    cases srv.daemon.manager.bind node key with
    | error e => exact .escaped e.1 _
    | ok m => exact send_processed rfl rfl rfl rfl (find_of_live hs)

lemma nodeBind_processed (hs : srv.daemon.sessions.find self = some session) :
    Processed srv self fails ((srv.daemon.world session).nodeBind env request)
      (srv.nodeBind self env request fails) := by
  simp only [nodeBind, access_of_live hs, ok_bind, World.nodeBind]
  have hworld : (srv.daemon.world session).session = session := rfl
  rw [hworld]
  cases session.nodes.find request.bindId with
  | none => exact refused_processed hs
  | some entry =>
    cases request.binaryPrivateKey with
    | some key => exact bindKey_processed hs _
    | none =>
      cases request.b58PrivateKey with
      | some key => exact bindKey_processed hs _
      | none => exact send_processed rfl rfl rfl rfl (find_of_live hs)

lemma nodeRegister_processed (hs : srv.daemon.sessions.find self = some session) :
    Processed srv self fails ((srv.daemon.world session).nodeRegister self env request)
      (srv.nodeRegister self env request fails) := by
  simp only [nodeRegister, access_of_live hs, ok_bind, World.nodeRegister, Daemon.world]
  by_cases hz : session.nextNodeId = 0
  · simp only [hz, if_true]
    exact refused_processed hs
  · simp only [hz, if_false]
    cases srv.daemon.manager.createNode env.address (some self) with
    | error e => exact .escaped e.1 _
    | ok m =>
      simp only [call, World.call, ok_bind]
      rw [write_of_live { srv with daemon := { srv.daemon with manager := m } } hs, ok_bind]
      have hlive : (srv.daemon.sessions.assign self { session with
          nodes := session.nodes.insert session.nextNodeId ⟨env.address, 1⟩ }).find self =
          some { session with
            nodes := session.nodes.insert session.nextNodeId ⟨env.address, 1⟩ } := by
        rw [StdMap.find_assign, if_pos rfl]
      cases fails with
      | true =>
        -- the session is gone when `NodeRegister` comes back to it
        rw [send_of_fails hlive, ok_bind, access_of_dropped (StdMap.find_erase_self _ _)]
        exact .faulted (by simp [World.send]) rfl
      | false =>
        rw [send_of_ok hlive, ok_bind, access_of_live hlive, ok_bind,
          write_of_live _ hlive]
        refine .returned (.inr rfl) rfl ⟨fun p => ?_, rfl, rfl⟩
        simp only [settled, StdMap.find_assign]
        split <;> rfl

theorem process_processed (hs : srv.daemon.sessions.find self = some session) :
    Processed srv self fails ((srv.daemon.world session).process self env request)
      (srv.process self env request fails) := by
  rw [process, World.process]
  cases request.getType with
  | nodeRegister => exact nodeRegister_processed hs
  | nodeUnregister => exact nodeUnRegister_processed hs
  | nodeConnect => exact .escaped .terminate _
  | nodeAccept => exact .escaped .terminate _
  | nodeListen => exact nodeListen_processed hs
  | nodeBind => exact nodeBind_processed hs
  | socketUnregister => exact refused_processed hs

def ArmedLive (srv : Server C) : Prop :=
  ∀ p ∈ srv.armed, (srv.daemon.sessions.find p).isSome

structure Inv (srv : Server C) : Prop where
  live : srv.ArmedLive
  once : srv.armed.Nodup

def Replies (srv : Server C) (self : SessionPtr) (env : Env C) (request : APIMessage) : Prop :=
  ∃ session, srv.daemon.sessions.find self = some session ∧
    (srv.daemon.world session).Sends env request

lemma replies_iff (hs : srv.daemon.sessions.find self = some session) :
    srv.Replies self env request ↔
      ∃ w, (srv.daemon.world session).process self env request = .ok w ∧ w.sent ≠ [] := by
  refine Iff.trans ?_ (World.sends_iff (w := srv.daemon.world session) self)
  constructor
  · rintro ⟨session', hs', hsends⟩
    rwa [Option.some.inj (hs.symm.trans hs')]
  · exact fun hsends => ⟨session, hs, hsends⟩

def SendWorks (srv : Server C) : ServerEvent C → Prop
  | .receive self env request fails =>
    self ∈ srv.armed → srv.Replies self env request → fails = false
  | _ => True

def Unused (srv : Server C) (e : ServerEvent C) : Prop :=
  ∀ p kind, srv.step e ≠ .error (.usedAfterDrop p kind)

lemma find_settled (hs : srv.daemon.sessions.find self = some session) {w : World C}
    (h : Agree srv'.daemon (srv.settled self w)) (p : SessionPtr) :
    (srv'.daemon.sessions.find p).isSome = (srv.daemon.sessions.find p).isSome := by
  rw [h.sessions, settled, StdMap.find_assign]
  split
  · next hp => rw [hp, hs]; rfl
  · rfl

lemma receiveLoop_of_live (hs : srv.daemon.sessions.find self = some session) :
    srv.receiveLoop self = .ok { srv with armed := self :: srv.armed } := by
  rw [receiveLoop, access_of_live hs]
  rfl

lemma receiveLoop_of_dropped (hs : srv.daemon.sessions.find self = none) :
    srv.receiveLoop self = .error (.usedAfterDrop self .arm) := by
  rw [receiveLoop, access_of_dropped hs]
  rfl

inductive Received (srv : Server C) (self : SessionPtr) (env : Env C) (request : APIMessage)
    (fails : Bool) : Done C → Prop
  | escaped (e : Escape) (hreply : ¬srv.Replies self env request) :
      Received srv self env request fails (.error (.escaped e))
  | served {session : APISession} {w : World C} {srv' : Server C}
      (hs : srv.daemon.sessions.find self = some session)
      (hw : (srv.daemon.world session).process self env request = .ok w)
      (hsent : w.sent = [] ∨ fails = false) (harmed : srv'.armed = self :: srv.armed.erase self)
      (hagree : Agree srv'.daemon (srv.settled self w)) :
      Received srv self env request fails (.ok srv')
  | used (kind : Access) (hreply : srv.Replies self env request) (hfails : fails = true) :
      Received srv self env request fails (.error (.usedAfterDrop self kind))

theorem step_received (hinv : Inv srv) (harmed : self ∈ srv.armed) (env : Env C)
    (request : APIMessage) (fails : Bool) :
    Received srv self env request fails (srv.step (.receive self env request fails)) := by
  obtain ⟨session, hs⟩ := Option.isSome_iff_exists.mp (hinv.live self harmed)
  have hprocess : Processed { srv with armed := srv.armed.erase self } self fails
      ((srv.daemon.world session).process self env request)
      (process self env request fails { srv with armed := srv.armed.erase self }) :=
    process_processed hs
  rw [step, if_pos harmed]
  generalize hhandled : (srv.daemon.world session).process self env request = handled at hprocess
  generalize process self env request fails _ = done at hprocess ⊢
  have hreplies : srv.Replies self env request ↔ _ := replies_iff hs
  rw [hhandled] at hreplies
  cases hprocess with
  | escaped e w =>
    refine .escaped e fun hreply => ?_
    obtain ⟨w', hw', -⟩ := hreplies.mp hreply
    cases hw'
  | @returned w srv' hsent harmed' hagree =>
    have hself : srv'.daemon.sessions.find self = some w.session := by
      rw [hagree.sessions, settled, StdMap.find_assign, if_pos rfl]
    rw [ok_bind, receiveLoop_of_live hself]
    exact .served hs hhandled hsent (congrArg (self :: ·) harmed') hagree
  | @dropped w srv' hsent hfails hgone =>
    rw [ok_bind, receiveLoop_of_dropped hgone]
    exact .used .arm (hreplies.mpr ⟨w, rfl, hsent⟩) hfails
  | @faulted w hsent hfails => exact .used .field (hreplies.mpr ⟨w, rfl, hsent⟩) hfails

lemma step_accept (srv : Server C) (self : SessionPtr) :
    srv.step (.accept self) =
      if (srv.daemon.sessions.find self).isSome then .error (.escaped .disabled)
      else .ok ⟨{ srv.daemon with sessions := srv.daemon.sessions.insert self .new },
        self :: srv.armed⟩ := by
  cases hfree : srv.daemon.sessions.find self with
  | some session => simp only [step, hfree, Option.isSome_some, if_true]
  | none =>
    have hlive : (srv.daemon.sessions.insert self .new).find self = some APISession.new := by
      simp [hfree]
    simp only [step, hfree]
    exact receiveLoop_of_live hlive

lemma step_receiveError (hinv : Inv srv) (self : SessionPtr) :
    srv.step (.receiveError self) =
      if self ∈ srv.armed then
        .ok ⟨{ srv.daemon with sessions := srv.daemon.sessions.erase self }, srv.armed.erase self⟩
      else .error (.escaped .disabled) := by
  rw [step]
  split
  · next harmed =>
    obtain ⟨session, hs⟩ := Option.isSome_iff_exists.mp (hinv.live self harmed)
    exact dropSession_of_live _ hs
  · rfl

lemma step_receive_ok (hinv : Inv srv) (h : srv.step (.receive self env request fails) = .ok srv') :
    self ∈ srv.armed ∧ ∃ session w, srv.daemon.sessions.find self = some session ∧
      (srv.daemon.world session).process self env request = .ok w ∧
      srv'.armed = self :: srv.armed.erase self ∧ Agree srv'.daemon (srv.settled self w) := by
  by_cases harmed : self ∈ srv.armed
  · have hreceived := step_received hinv harmed env request fails
    rw [h] at hreceived
    cases hreceived with
    | served hs hw _ harmed' hagree => exact ⟨harmed, _, _, hs, hw, harmed', hagree⟩
  · rw [step, if_neg harmed] at h
    cases h

theorem step_inv {e : ServerEvent C} (hinv : Inv srv) (h : srv.step e = .ok srv') : Inv srv' := by
  cases e with
  | accept self =>
    rw [step_accept] at h
    split at h
    · cases h
    · next hfree =>
      obtain rfl := Except.ok.inj h
      refine ⟨fun p hp => ?_,
        List.nodup_cons.mpr ⟨fun hmem => hfree (hinv.live self hmem), hinv.once⟩⟩
      rw [StdMap.find_insert]
      split
      · rfl
      · next hne => exact hinv.live p ((List.mem_cons.mp hp).resolve_left hne)
  | receive self env request fails =>
    obtain ⟨harmed, session, w, hs, _, harmed', hagree⟩ := step_receive_ok hinv h
    refine ⟨fun p hp => ?_, ?_⟩
    · rw [find_settled hs hagree]
      rw [harmed'] at hp
      obtain rfl | hp := List.mem_cons.mp hp
      · exact hinv.live p harmed
      · exact hinv.live p (List.mem_of_mem_erase hp)
    · rw [harmed']
      exact List.nodup_cons.mpr ⟨hinv.once.not_mem_erase, hinv.once.erase self⟩
  | receiveError self =>
    rw [step_receiveError hinv] at h
    split at h
    · obtain rfl := Except.ok.inj h
      refine ⟨fun p hp => ?_, hinv.once.erase self⟩
      obtain ⟨hne, hp⟩ := hinv.once.mem_erase_iff.mp hp
      rw [StdMap.find_erase_of_ne _ hne]
      exact hinv.live p hp
    · cases h

lemma unused_iff (hinv : Inv srv) (e : ServerEvent C) : srv.Unused e ↔ srv.SendWorks e := by
  cases e with
  | accept self =>
    refine iff_of_true (fun p kind h => ?_) trivial
    rw [step_accept] at h
    split at h <;> cases h
  | receive self env request fails =>
    by_cases harmed : self ∈ srv.armed
    · have hreceived := step_received hinv harmed env request fails
      generalize hdone : srv.step (.receive self env request fails) = done at hreceived
      simp only [Unused, SendWorks, hdone]
      cases hreceived with
      | escaped e hreply => simp [hreply]
      | @served session w srv' hs hw hsent _ _ =>
        refine iff_of_true (by simp) ?_
        intro _ hreply
        obtain ⟨w', hw', hne⟩ := (replies_iff hs).mp hreply
        obtain rfl := Except.ok.inj (hw.symm.trans hw')
        exact hsent.resolve_left hne
      | used kind hreply hfails => simp [harmed, hreply, hfails]
    · refine iff_of_true (fun p kind h => ?_) (fun h => absurd h harmed)
      rw [step, if_neg harmed] at h
      cases h
  | receiveError self =>
    refine iff_of_true (fun p kind h => ?_) trivial
    rw [step_receiveError hinv] at h
    split at h <;> cases h

lemma inv_new : Inv (new : Server C) := ⟨fun p hp => (by cases hp), List.nodup_nil⟩

def toEvent : ServerEvent C → Event C
  | .accept self => .accept self
  | .receive self env request _ => .receive self env request
  | .receiveError self => .drop self

lemma step_simulates {e : ServerEvent C} {d : Daemon C} (hinv : Inv srv)
    (hagree : Agree srv.daemon d) (h : srv.step e = .ok srv') :
    ∃ d', d.step (toEvent e) = .ok d' ∧ Agree srv'.daemon d' := by
  cases e with
  | accept self =>
    rw [step_accept] at h
    split at h
    · cases h
    · next hfree =>
      obtain rfl := Except.ok.inj h
      rw [hagree.sessions, Option.not_isSome_iff_eq_none] at hfree
      have hstep : d.step (.accept self) =
          .ok { d with sessions := d.sessions.insert self .new } := by
        simp only [Daemon.step, hfree]
      refine ⟨_, hstep, fun p => ?_, hagree.manager, hagree.sent⟩
      simp only [StdMap.find_insert, hagree.sessions]
  | receive self env request fails =>
    obtain ⟨harmed, session, w, hs, hw, _, hsettled⟩ := step_receive_ok hinv h
    have hworld : d.world session = srv.daemon.world session := by
      rw [Daemon.world, Daemon.world, hagree.manager]
    have hd : d.sessions.find self = some session := by rw [← hagree.sessions, hs]
    have hstep : d.step (.receive self env request) =
        .ok ⟨d.sessions.assign self w.session, w.manager, d.sent ++ w.sent.map (self, ·)⟩ := by
      simp only [Daemon.step, hd, hworld, hw]
    refine ⟨_, hstep, fun p => ?_, hsettled.manager, ?_⟩
    · rw [hsettled.sessions, settled, StdMap.find_assign, StdMap.find_assign, hagree.sessions]
    · rw [hsettled.sent, settled, hagree.sent]
  | receiveError self =>
    rw [step_receiveError hinv] at h
    split at h
    · next harmed =>
      obtain rfl := Except.ok.inj h
      obtain ⟨session, hs⟩ := Option.isSome_iff_exists.mp (hinv.live self harmed)
      rw [hagree.sessions] at hs
      have hstep : d.step (.drop self) = .ok { d with sessions := d.sessions.erase self } := by
        simp only [Daemon.step, hs]
      refine ⟨_, hstep, fun p => ?_, hagree.manager, hagree.sent⟩
      simp only [StdMap.find_erase, hagree.sessions]
    · cases h

/-- A run of the server that returns is a run of the daemon. -/
theorem run_simulates {events : List (ServerEvent C)} (h : run step new events = .ok srv') :
    ∃ d, run Daemon.step .new (events.map toEvent) = .ok d ∧ Agree srv'.daemon d := by
  have hnew : Inv (new : Server C) ∧ Agree (new : Server C).daemon .new :=
    ⟨inv_new, fun _ => rfl, rfl, rfl⟩
  obtain ⟨d, hd, -, hagree⟩ := run_simulation (R := fun srv d => Inv srv ∧ Agree srv.daemon d)
    (fun srv e srv' d hR hstep => by
      obtain ⟨d', hd', hagree'⟩ := step_simulates hR.1 hR.2 hstep
      exact ⟨d', hd', step_inv hR.1 hstep, hagree'⟩) hnew h
  exact ⟨d, hd, hagree⟩

end Refinement

theorem dropped_session_unused_iff (events : List (ServerEvent C)) :
    Guarded step Unused new events ∧ Always step ArmedLive new events ↔
      Guarded step SendWorks new events := by
  have hlive : Always step ArmedLive (new : Server C) events :=
    always_of_guarded (C := fun _ _ => True) (fun _ h => h.live) (fun _ _ _ hinv _ => step_inv hinv)
      inv_new (guarded_of_forall fun _ _ _ => trivial)
  rw [guarded_congr (fun _ _ _ => step_inv) (fun _ e hinv => unused_iff hinv e) inv_new]
  exact and_iff_left hlive

theorem dropped_session_used :
    let register : APIMessage := { type := some .nodeRegister }
    let listen : APIMessage := { type := some .nodeListen, nodeListen := some ⟨some 1, some 5⟩ }
    let registering : List (ServerEvent sampleCrypto) :=
      [.accept 1, .receive 1 ⟨(), 10⟩ register true]
    let listening : List (ServerEvent sampleCrypto) :=
      [.accept 1, .receive 1 ⟨(), 10⟩ register false, .receive 1 ⟨(), 11⟩ listen true]
    run step new registering = .error (.usedAfterDrop 1 .field) ∧
      run step new listening = .error (.usedAfterDrop 1 .arm) ∧
      ¬Guarded step Unused new registering ∧ ¬Guarded step Unused new listening := by
  intro register listen registering listening
  refine ⟨rfl, rfl, fun h => ?_, fun h => ?_⟩
  · exact (h.2 _ rfl).1 1 .field rfl
  · exact ((h.2 _ rfl).2 _ rfl).1 1 .arm rfl

end Server

end P2PNet.API
