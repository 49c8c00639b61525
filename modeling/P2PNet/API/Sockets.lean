import Mathlib.Logic.Function.Basic
import P2PNet.API.Noninterference
import P2PNet.API.Wire

/-! `UnixAPIServer` on its sockets, with clients that write whatever bytes they like. A run that
does not end the daemon is one of the daemon with whole messages, in which a client that writes
frames has made the requests that it wrote, whatever the others write. -/

namespace P2PNet.API

open Lib Lib.Runs Lib.Words P2P UnixAPISocket

/-- `written` is all that the client has written, of which `unread` is left; `reading` is the read
under way, and `replies` holds what the daemon has written. -/
structure Channel where
  written : Bytes
  unread : Bytes
  closed : Bool
  reading : Reading
  replies : Bytes

structure Sockets (C : Crypto) where
  daemon : Daemon C
  channels : SessionPtr → Option Channel

inductive SocketsEvent (C : Crypto) where
  | accept (session : SessionPtr)
  | write (session : SessionPtr) (bytes : Bytes)
  | close (session : SessionPtr)
  | read (session : SessionPtr) (env : Env C) (sendFails : Bool)

def SocketsEvent.session {C : Crypto} : SocketsEvent C → SessionPtr
  | .accept session | .write session _ | .close session | .read session _ _ => session

namespace Sockets

variable {C : Crypto}

def new : Sockets C := ⟨.new, fun _ => none⟩

def setChannel (w : Sockets C) (self : SessionPtr) (channel : Option Channel) : Sockets C :=
  { w with channels := Function.update w.channels self channel }

/-- `handleReceive` with an error. -/
def dropSession (w : Sockets C) (self : SessionPtr) : Except Escape (Sockets C) := do
  let daemon ← w.daemon.step (.drop self)
  .ok ({ w with daemon := daemon }.setChannel self none)

section Step

variable (server : Endian) (leftover : Bytes → APIMessage)

/-- `handleReceive` without an error, up to its `receiveLoop`. -/
def handleReceive (w : Sockets C) (self : SessionPtr) (channel : Channel) (env : Env C)
    (sendFails : Bool) (message : APIMessage) : Except Escape (Sockets C) := do
  let daemon ← w.daemon.step (.receive self env message)
  let replies := (daemon.sent.drop w.daemon.sent.length).map Prod.snd
  -- a `send` that fails drops the session, which `receiveLoop` goes on to use
  if sendFails ∧ replies ≠ [] then .error .dangling
  else .ok ({ w with daemon := daemon }.setChannel self (some { channel with
    reading := .size
    replies := channel.replies ++ replies.flatMap (frame server) }))

def read (w : Sockets C) (self : SessionPtr) (env : Env C) (sendFails : Bool) :
    Except Escape (Sockets C) :=
  match w.channels self with
  | none => .error .disabled
  | some channel =>
    let n := channel.reading.awaited
    if n ≤ channel.unread.length then
      let buffer := channel.unread.take n
      let channel := { channel with unread := channel.unread.drop n }
      match channel.reading with
      | .size =>
        let size := ntohl server (load server buffer)
        .ok (w.setChannel self (some { channel with reading := .body size }))
      | .body _ =>
        w.handleReceive server self channel env sendFails
          (APIMessage.parseFromArray leftover buffer).2
    else if channel.closed then w.dropSession self
    else .error .disabled

def step (w : Sockets C) : SocketsEvent C → Except Escape (Sockets C)
  | .accept self => do
    let daemon ← w.daemon.step (.accept self)
    .ok ({ w with daemon := daemon }.setChannel self (some ⟨[], [], false, .size, []⟩))
  | .write self bytes =>
    match w.channels self with
    | none => .error .disabled
    | some channel =>
      if channel.closed then .error .disabled
      else .ok (w.setChannel self (some { channel with
        written := channel.written ++ bytes
        unread := channel.unread ++ bytes }))
  | .close self =>
    match w.channels self with
    | none => .error .disabled
    | some channel =>
      if channel.closed then .error .disabled
      else .ok (w.setChannel self (some { channel with closed := true }))
  | .read self env sendFails => w.read server leftover self env sendFails

end Step

variable {server : Endian} {leftover : Bytes → APIMessage} {w w' : Sockets C} {own : SessionPtr}

/-- What a read that completes does. -/
inductive Reads (server : Endian) (leftover : Bytes → APIMessage) (w : Sockets C)
    (self : SessionPtr) (env : Env C) (w' : Sockets C) : Prop
  | size (channel : Channel) (hchannel : w.channels self = some channel)
      (hreading : channel.reading = .size) (hlong : messageSizeLength ≤ channel.unread.length)
      (hw : w' = w.setChannel self (some { channel with
        unread := channel.unread.drop messageSizeLength
        reading := .body (ofBytes (channel.unread.take messageSizeLength)) }))
  | body (channel : Channel) (size : UInt32) (daemon : Daemon C)
      (hchannel : w.channels self = some channel) (hreading : channel.reading = .body size)
      (hlong : size.toNat ≤ channel.unread.length)
      (hdaemon : w.daemon.step (.receive self env
        (APIMessage.parseFromArray leftover (channel.unread.take size.toNat)).2) = .ok daemon)
      (hw : w' = { w with daemon := daemon }.setChannel self (some { channel with
        unread := channel.unread.drop size.toNat
        reading := .size
        replies := channel.replies ++
          ((daemon.sent.drop w.daemon.sent.length).map Prod.snd).flatMap (frame server) }))
  | dropped (daemon : Daemon C) (hdaemon : w.daemon.step (.drop self) = .ok daemon)
      (hw : w' = { w with daemon := daemon }.setChannel self none)

lemma read_ok {self : SessionPtr} {env : Env C} {sendFails : Bool}
    (hs : w.read server leftover self env sendFails = .ok w') :
    Reads server leftover w self env w' := by
  rw [read] at hs
  split at hs
  · cases hs
  next channel hchannel =>
  by_cases hlong : channel.reading.awaited ≤ channel.unread.length
  · simp only [if_pos hlong] at hs
    cases hreading : channel.reading with
    | size =>
      rw [hreading] at hlong
      have htake : (channel.unread.take messageSizeLength).length = 4 :=
        List.length_take_of_le hlong
      simp only [hreading] at hs
      rw [show Reading.size.awaited = messageSizeLength from rfl, ntohl_load server htake] at hs
      exact .size channel hchannel hreading hlong (Except.ok.inj hs).symm
    | body size =>
      rw [hreading] at hlong
      simp only [hreading] at hs
      obtain ⟨daemon, hdaemon, hw⟩ := bind_ok_iff.mp hs
      dsimp only at hw
      split at hw
      · cases hw
      · exact .body channel size daemon hchannel hreading hlong hdaemon (Except.ok.inj hw).symm
  · simp only [if_neg hlong] at hs
    split at hs
    · obtain ⟨daemon, hdaemon, hw⟩ := bind_ok_iff.mp hs
      exact .dropped daemon hdaemon (Except.ok.inj hw).symm
    · cases hs

lemma channels_setChannel (w : Sockets C) {self : SessionPtr} (hne : own ≠ self)
    (channel : Option Channel) : (w.setChannel self channel).channels own = w.channels own :=
  Function.update_of_ne hne _ _

lemma channels_setChannel_self (w : Sockets C) (self : SessionPtr) (channel : Option Channel) :
    (w.setChannel self channel).channels self = channel :=
  Function.update_self _ _ _

end Sockets

namespace Daemon

variable {C : Crypto} {own : SessionPtr} {past : List (Event C)} {d d' : Daemon C}
  {requests : List (Env C × APIMessage)} {replies : List APIMessage}

/-- Since it was accepted, the session has made these requests and been sent these replies. -/
def Dialogue (own : SessionPtr) (past : List (Event C)) (d : Daemon C)
    (requests : List (Env C × APIMessage)) (replies : List APIMessage) : Prop :=
  ∃ before after d₀ sent, past = before ++ .accept own :: after ∧
    run step new before = .ok d₀ ∧ d.sent = d₀.sent ++ sent ∧
    after.filter (·.session = own) = requests.map (fun r => .receive own r.1 r.2) ∧
    replies = repliesTo own sent

lemma step_sent {e : Event C} (h : d.step e = .ok d') :
    ∃ ms : List APIMessage, d'.sent = d.sent ++ ms.map (e.session, ·) := by
  cases e with
  | accept self =>
    obtain ⟨-, rfl⟩ := accept_ok h
    exact ⟨[], (List.append_nil _).symm⟩
  | receive self env m =>
    obtain ⟨session, w, -, -, rfl⟩ := receive_ok h
    exact ⟨w.sent, rfl⟩
  | drop self =>
    obtain rfl := drop_ok h
    exact ⟨[], (List.append_nil _).symm⟩

lemma dialogue_accept (hrun : run step new past = .ok d) (h : d.step (.accept own) = .ok d') :
    Dialogue own (past ++ [.accept own]) d' [] [] := by
  obtain ⟨-, rfl⟩ := accept_ok h
  exact ⟨past, [], d, [], rfl, hrun, (List.append_nil _).symm, rfl, rfl⟩

lemma Dialogue.other (h : Dialogue own past d requests replies) {e : Event C}
    (hne : own ≠ e.session) (hs : d.step e = .ok d') :
    Dialogue own (past ++ [e]) d' requests replies := by
  obtain ⟨before, after, d₀, sent, rfl, hrun, hsent, hrequests, rfl⟩ := h
  obtain ⟨ms, hms⟩ := step_sent hs
  refine ⟨before, after ++ [e], d₀, sent ++ ms.map (e.session, ·), ?_, hrun, ?_, ?_, ?_⟩
  · rw [List.append_assoc, List.cons_append]
  · rw [hms, hsent, List.append_assoc]
  · rw [List.filter_append, hrequests, List.filter_singleton, decide_eq_false hne.symm]
    exact List.append_nil _
  · rw [repliesTo_append, if_neg hne.symm, List.append_nil]

lemma Dialogue.receive (h : Dialogue own past d requests replies) {env : Env C} {m : APIMessage}
    (hs : d.step (.receive own env m) = .ok d') :
    Dialogue own (past ++ [.receive own env m]) d' (requests ++ [(env, m)])
      (replies ++ (d'.sent.drop d.sent.length).map Prod.snd) := by
  obtain ⟨before, after, d₀, sent, rfl, hrun, hsent, hrequests, rfl⟩ := h
  obtain ⟨ms, hms⟩ := step_sent hs
  refine ⟨before, after ++ [.receive own env m], d₀, sent ++ ms.map (own, ·), ?_, hrun, ?_, ?_, ?_⟩
  · rw [List.append_assoc, List.cons_append]
  · rw [hms, hsent, List.append_assoc]
    rfl
  · rw [List.filter_append, hrequests, List.map_append, List.filter_singleton,
      decide_eq_true (show (Event.receive own env m).session = own from rfl)]
    rfl
  · rw [repliesTo_append, if_pos rfl, hms, List.drop_left, List.map_map]
    exact congrArg _ (List.map_id _)

end Daemon

namespace Sockets

variable {C : Crypto} {server : Endian} {leftover : Bytes → APIMessage} {w w' : Sockets C}
  {own : SessionPtr} {channel : Channel} {past : List (Event C)} {d d' : Daemon C}

/-- The frames that have been read, each with its `Env`, and what became of them. -/
structure Served (server : Endian) (leftover : Bytes → APIMessage) (own : SessionPtr)
    (past : List (Event C)) (d : Daemon C) (channel : Channel) (bodies : List (Env C × Bytes)) :
    Prop where
  short : ∀ body ∈ bodies, body.2.length < 2 ^ 32
  written : channel.written = (bodies.map Prod.snd).flatMap (generateSendString server) ++
    (channel.reading.header ++ channel.unread)
  dialogue : ∃ replies, d.Dialogue own past
    (bodies.map fun b => (b.1, (APIMessage.parseFromArray leftover b.2).2)) replies ∧
      channel.replies = replies.flatMap (frame server)

variable {bodies : List (Env C × Bytes)}

lemma Served.other (h : Served server leftover own past d channel bodies) {e : Event C}
    (hne : own ≠ e.session) (hs : d.step e = .ok d') :
    Served server leftover own (past ++ [e]) d' channel bodies := by
  obtain ⟨replies, hdialogue, hreplies⟩ := h.dialogue
  exact { h with dialogue := ⟨replies, hdialogue.other hne hs, hreplies⟩ }

lemma Served.size (h : Served server leftover own past d channel bodies)
    (hreading : channel.reading = .size) (hlong : messageSizeLength ≤ channel.unread.length) :
    Served server leftover own past d { channel with
      unread := channel.unread.drop messageSizeLength
      reading := .body (ofBytes (channel.unread.take messageSizeLength)) } bodies := by
  have htake : (channel.unread.take messageSizeLength).length = 4 := List.length_take_of_le hlong
  refine { h with written := ?_ }
  rw [h.written, hreading, Reading.header, Reading.header, toBytes_ofBytes htake,
    List.take_append_drop]
  rfl

lemma Served.body (h : Served server leftover own past d channel bodies) {size : UInt32}
    (hreading : channel.reading = .body size) (hlong : size.toNat ≤ channel.unread.length)
    {env : Env C} {m : APIMessage}
    (hm : m = (APIMessage.parseFromArray leftover (channel.unread.take size.toNat)).2)
    (hs : d.step (.receive own env m) = .ok d') :
    Served server leftover own (past ++ [.receive own env m]) d' { channel with
      unread := channel.unread.drop size.toNat
      reading := .size
      replies := channel.replies ++
        ((d'.sent.drop d.sent.length).map Prod.snd).flatMap (frame server) }
      (bodies ++ [(env, channel.unread.take size.toNat)]) := by
  have htake : (channel.unread.take size.toNat).length = size.toNat := List.length_take_of_le hlong
  obtain ⟨replies, hdialogue, hreplies⟩ := h.dialogue
  refine ⟨?_, ?_, replies ++ (d'.sent.drop d.sent.length).map Prod.snd, ?_, ?_⟩
  · refine List.forall_mem_append.mpr ⟨h.short, List.forall_mem_singleton.mpr ?_⟩
    rw [htake]
    exact size.toNat_lt
  · rw [h.written, hreading, List.map_append, List.flatMap_append, List.map_singleton,
      List.flatMap_singleton, generateSendString_eq, htake, List.append_assoc, List.append_assoc,
      Reading.header, UInt32.ofNat_toNat]
    simp [Reading.header]
  · rw [List.map_append, List.map_singleton, ← hm]
    exact hdialogue.receive hs
  · rw [hreplies, List.flatMap_append]

/-- The daemon has run as with the whole messages that were read. -/
structure Refines (server : Endian) (leftover : Bytes → APIMessage) (w : Sockets C)
    (past : List (Event C)) : Prop where
  run : run Daemon.step .new past = .ok w.daemon
  served : ∀ own channel, w.channels own = some channel →
    ∃ bodies, Served server leftover own past w.daemon channel bodies

lemma refines_new : Refines server leftover (new : Sockets C) [] :=
  ⟨rfl, fun _ _ hchannel => nomatch hchannel⟩

/-- Only the bytes of one client have moved. -/
lemma Refines.setChannel (h : Refines server leftover w past) {self : SessionPtr}
    (hserved : ∃ bodies, Served server leftover self past w.daemon channel bodies) :
    Refines server leftover (w.setChannel self (some channel)) past where
  run := h.run
  served own channel' hchannel := by
    by_cases hne : own = self
    · subst hne
      rw [channels_setChannel_self] at hchannel
      obtain rfl := Option.some.inj hchannel
      exact hserved
    · rw [channels_setChannel w hne] at hchannel
      exact h.served own channel' hchannel

/-- The daemon has handled an event of one client. -/
lemma Refines.step (h : Refines server leftover w past) {e : Event C}
    (hs : w.daemon.step e = .ok d) (channel : Option Channel)
    (hserved : ∀ c, channel = some c →
      ∃ bodies, Served server leftover e.session (past ++ [e]) d c bodies) :
    Refines server leftover ({ w with daemon := d }.setChannel e.session channel)
      (past ++ [e]) where
  run := run_append h.run (run_cons.mpr ⟨d, hs, rfl⟩)
  served own c hc := by
    by_cases hne : own = e.session
    · subst hne
      rw [channels_setChannel_self] at hc
      exact hserved c hc
    · rw [channels_setChannel _ hne] at hc
      obtain ⟨bodies, hother⟩ := h.served own c hc
      exact ⟨bodies, hother.other hne hs⟩

lemma step_refines (w : Sockets C) (event : SocketsEvent C) (w' : Sockets C)
    (h : ∃ past, Refines server leftover w past)
    (hs : w.step server leftover event = .ok w') : ∃ past, Refines server leftover w' past := by
  obtain ⟨past, h⟩ := h
  cases event with
  | accept self =>
    obtain ⟨d, hd, hw⟩ := bind_ok_iff.mp hs
    obtain rfl := Except.ok.inj hw
    refine ⟨past ++ [Event.accept self], h.step hd _ fun c hc => ⟨[], ?_⟩⟩
    obtain rfl := Option.some.inj hc
    exact ⟨List.forall_mem_nil _, rfl, [], Daemon.dialogue_accept h.run hd, rfl⟩
  | write self bytes =>
    rw [Sockets.step] at hs
    split at hs
    · cases hs
    next channel hchannel =>
    split at hs
    · cases hs
    obtain rfl := Except.ok.inj hs
    obtain ⟨bodies, hserved⟩ := h.served self channel hchannel
    have hwritten : channel.written ++ bytes =
        (bodies.map Prod.snd).flatMap (generateSendString server) ++
          (channel.reading.header ++ (channel.unread ++ bytes)) := by
      rw [hserved.written, List.append_assoc, List.append_assoc]
    exact ⟨past, h.setChannel ⟨bodies, hserved.short, hwritten, hserved.dialogue⟩⟩
  | close self =>
    rw [Sockets.step] at hs
    split at hs
    · cases hs
    next channel hchannel =>
    split at hs
    · cases hs
    obtain rfl := Except.ok.inj hs
    obtain ⟨bodies, hserved⟩ := h.served self channel hchannel
    exact ⟨past, h.setChannel ⟨bodies, hserved.short, hserved.written, hserved.dialogue⟩⟩
  | read self env sendFails =>
    cases read_ok hs with
    | size channel hchannel hreading hlong hw =>
      subst hw
      obtain ⟨bodies, hserved⟩ := h.served self channel hchannel
      exact ⟨past, h.setChannel ⟨bodies, hserved.size hreading hlong⟩⟩
    | body channel size d hchannel hreading hlong hd hw =>
      subst hw
      obtain ⟨bodies, hserved⟩ := h.served self channel hchannel
      refine ⟨_, h.step hd _ fun c hc => ?_⟩
      obtain rfl := Option.some.inj hc
      exact ⟨_, hserved.body hreading hlong rfl hd⟩
    | dropped d hd hw =>
      subst hw
      exact ⟨_, h.step hd none fun c hc => nomatch hc⟩

/-- If the bytes are frames of messages, then so is each body that was read. -/
lemma Served.messages (h : Served server leftover own past d channel bodies) {client : Endian}
    {messages : List APIMessage}
    (hmessages : ∀ m ∈ messages, m.Representable ∧ m.serializeAsString.length < 2 ^ 31)
    (hwritten : channel.written <+: messages.flatMap (frame client)) :
    bodies.map Prod.snd <+: messages.map APIMessage.serializeAsString ∧
      (bodies.map fun b => (APIMessage.parseFromArray leftover b.2).2) <+: messages ∧
      channel.reading.header ++ channel.unread <+:
        (messages.drop bodies.length).flatMap (frame client) := by
  rw [h.written] at hwritten
  obtain ⟨hinit, hrest⟩ := bodies_of_frames (List.forall_mem_map.mpr h.short)
    (fun m hm => (hmessages m hm).2) hwritten
  rw [List.length_map] at hrest
  refine ⟨hinit, ?_, hrest⟩
  have hparsed : (messages.map APIMessage.serializeAsString).map
      (fun content => (APIMessage.parseFromArray leftover content).2) = messages := by
    rw [List.map_map]
    refine (List.map_congr_left fun m hm => ?_).trans (List.map_id messages)
    obtain ⟨hm, hlen⟩ := hmessages m hm
    exact congrArg Prod.snd (APIMessage.parse_serializeAsString hm hlen leftover)
  have hmapped := hinit.map fun content => (APIMessage.parseFromArray leftover content).2
  rw [hparsed, List.map_map] at hmapped
  exact hmapped

/-- The daemon does not wait for a message that has arrived. -/
lemma awaited_le {client : Endian} {reading : Reading} {unread : Bytes} {m : APIMessage}
    {rest : List APIMessage}
    (hlen : ∀ m' ∈ m :: rest, m'.serializeAsString.length < 2 ^ 31)
    (h : reading.header ++ unread <+: (m :: rest).flatMap (frame client))
    (harrived : (frame client m).length ≤ (reading.header ++ unread).length) :
    reading.awaited ≤ unread.length := by
  rw [frame, generateSendString_eq, List.length_append, length_toBytes] at harrived
  cases reading with
  | size => exact Nat.le_trans (Nat.le_add_right _ _) harrived
  | body n =>
    obtain ⟨tail, htail⟩ := h
    rw [Reading.header, List.append_assoc] at htail
    obtain ⟨m', rest', hcons, hsize, -⟩ := frames_body hlen htail
    obtain ⟨rfl, rfl⟩ := List.cons.inj hcons
    rw [Reading.header, List.length_append, length_toBytes] at harrived
    rw [Reading.awaited, hsize]
    omega

/-- A run that does not end the daemon is one of the daemon with whole messages. A client that
writes frames has made the first of the requests in them and has been written the replies to these,
whatever bytes the other clients write; and the daemon does not wait for a request that has
arrived. -/
theorem served_among_bytes (server : Endian) (leftover : Bytes → APIMessage)
    (events : List (SocketsEvent C)) (w : Sockets C)
    (h : run (step server leftover) new events = .ok w) :
    ∃ past, run Daemon.step .new past = .ok w.daemon ∧
      ∀ own channel, w.channels own = some channel → ∀ (client : Endian)
        (messages : List APIMessage),
        (∀ m ∈ messages, m.Representable ∧ m.serializeAsString.length < 2 ^ 31) →
        channel.written <+: messages.flatMap (frame client) →
        ∃ requests replies, w.daemon.Dialogue own past requests replies ∧
          requests.map Prod.snd <+: messages ∧
          channel.replies = replies.flatMap (frame server) ∧
          (((messages.take (requests.length + 1)).flatMap (frame client)).length ≤
              channel.written.length → requests.length < messages.length →
            channel.reading.awaited ≤ channel.unread.length) := by
  obtain ⟨past, hrefines⟩ := invariant step_refines ⟨[], refines_new⟩ h
  refine ⟨past, hrefines.run, ?_⟩
  intro own channel hchannel client messages hmessages hwritten
  obtain ⟨bodies, hserved⟩ := hrefines.served own channel hchannel
  obtain ⟨hbodies, hparsed, hrest⟩ := hserved.messages hmessages hwritten
  obtain ⟨replies, hdialogue, hreplies⟩ := hserved.dialogue
  refine ⟨_, replies, hdialogue, ?_, hreplies, ?_⟩
  · rw [List.map_map]
    exact hparsed
  rw [List.length_map]
  intro harrived hmore
  have hread : (bodies.map Prod.snd).flatMap (generateSendString server) =
      (messages.take bodies.length).flatMap (frame client) := by
    have hsame : generateSendString server = generateSendString client := by
      funext content
      rw [generateSendString_eq, generateSendString_eq]
    rw [List.prefix_iff_eq_take, List.length_map, ← List.map_take] at hbodies
    rw [hbodies, hsame, flatMap_frame]
  rw [hserved.written, hread, List.take_succ_eq_append_getElem hmore, List.flatMap_append,
    List.flatMap_singleton, List.length_append, List.length_append] at harrived
  rw [List.drop_eq_getElem_cons hmore] at hrest
  refine awaited_le (fun m hm => (hmessages m ?_).2) hrest (Nat.le_of_add_le_add_left harrived)
  rw [← List.drop_eq_getElem_cons hmore] at hm
  exact List.mem_of_mem_drop hm

-- the second client writes a frame that is no message, in the middle of the first one's
def sampleEvents : List (SocketsEvent sampleCrypto) :=
  [.accept 1, .accept 2, .write 2 [0, 0, 0, 3, 255], .write 1 [0, 0, 0, 4, 8],
    .read 2 ⟨(), 10⟩ false,
    .read 1 ⟨(), 10⟩ false, .write 2 [255, 255, 0], .write 1 [0, 16, 5], .read 2 ⟨(), 11⟩ false,
    .close 2, .read 1 ⟨(), 12⟩ false, .read 2 ⟨(), 13⟩ false]

theorem served_among_bytes_garbage :
    ∃ w past channel, run (step .big fun _ => {}) new sampleEvents = .ok w ∧
      run Daemon.step .new past = .ok w.daemon ∧ w.channels 1 = some channel ∧
      channel.replies = frame .big World.sampleRegistered ∧
      ∃ requests replies, w.daemon.Dialogue 1 past requests replies ∧
        requests.map Prod.snd <+: [World.sampleRegister] ∧
        channel.replies = replies.flatMap (frame .big) := by
  have hfinal : (run (step .big fun _ => {}) new sampleEvents).toOption.bind (fun w =>
      (w.channels 1).map fun channel => (channel.written, channel.replies)) =
      some (frame .little World.sampleRegister, frame .big World.sampleRegistered) := by
    decide +kernel
  obtain ⟨w, hrun, hw⟩ := Option.bind_eq_some_iff.mp hfinal
  obtain ⟨channel, hchannel, hbytes⟩ := Option.map_eq_some_iff.mp hw
  obtain ⟨hwritten, hreplies⟩ := Prod.mk.inj hbytes
  have hrun := ok_of_toOption hrun
  have hfits : ∀ m ∈ [World.sampleRegister], m.Representable ∧
      m.serializeAsString.length < 2 ^ 31 := by
    refine List.forall_mem_singleton.mpr ⟨APIMessage.representable_of_no_error rfl, ?_⟩
    rw [World.serialize_samples.1]
    decide
  have hinit : channel.written <+: [World.sampleRegister].flatMap (frame .little) := by
    rw [hwritten, List.flatMap_singleton]
  obtain ⟨past, hpast, hall⟩ := served_among_bytes .big (fun _ => {}) sampleEvents w hrun
  obtain ⟨requests, replies, hdialogue, hrequests, hserved, -⟩ :=
    hall 1 channel hchannel .little [World.sampleRegister] hfits hinit
  exact ⟨w, past, channel, hrun, hpast, hchannel, hreplies, requests, replies, hdialogue,
    hrequests, hserved⟩

end Sockets

end P2PNet.API
