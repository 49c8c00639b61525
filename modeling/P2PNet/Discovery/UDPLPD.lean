import P2PNet.Common.Crypto
import P2PNet.Common.Error
import P2PNet.Lib.Lists
import P2PNet.Lib.Runs
import P2PNet.Lib.Schema

/-! The receive loop of `UDPLPD`. The socket writes a datagram to the member
`udp_buffer`, but the handler was given a copy of it when the receive was started,
so what is parsed is what the buffer held before. -/

namespace P2PNet.Discovery

open Lib.Lists Lib.Runs Lib.Wire

def maxUdpPacketSize : ℕ := 64 * 1024

structure Buffer where
  bytes : Bytes
  size_eq : bytes.length = maxUdpPacketSize

structure Datagram where
  address : ℕ
  bytes : Bytes
  fits : bytes.length ≤ maxUdpPacketSize

def Buffer.write (b : Buffer) (d : Datagram) : Buffer :=
  ⟨overwrite d.bytes b.bytes, (length_overwrite (b.size_eq ▸ d.fits)).trans b.size_eq⟩

structure UDPDiscoveryMessage where
  port : UInt32
  version : Option UInt32
  deriving DecidableEq, Repr

namespace UDPDiscoveryMessage

def schema : Schema (Option UInt32 × Option UInt32 × Unit) :=
  .cons 1 .uint32 <| .cons 2 .uint32 .nil

def serializeAsString (m : UDPDiscoveryMessage) : Bytes :=
  schema.serialize (some m.port, m.version, ())

/-- The port is required. -/
def parseFromString (data : Bytes) : Option UDPDiscoveryMessage := do
  let (port, version, _) ← schema.parse data
  let port ← port
  some ⟨port, version⟩

lemma parse_serialize {m : UDPDiscoveryMessage} (hlen : m.serializeAsString.length < 2 ^ 31) :
    parseFromString m.serializeAsString = some m := by
  have hvalid : schema.Valid (some m.port, m.version, ()) :=
    ⟨fun _ _ => trivial, fun _ _ => trivial, trivial⟩
  rw [serializeAsString] at hlen
  rw [parseFromString, serializeAsString, schema.parse_serialize hvalid hlen]
  rfl

end UDPDiscoveryMessage

/-- The receive under way: the copy that its handler is bound to and, once it has completed, the
datagram that was received. -/
structure Receiving where
  recvBuffer : Buffer
  received : Option Datagram

/-- `queue` holds the datagrams that the socket has not delivered yet, `parsed` the strings that
were handed to the parser, and `handshakes` the endpoints that `handshake` was called for. -/
structure UDPLPD where
  udpBuffer : Buffer
  queue : List Datagram
  receiving : Option Receiving
  parsed : List Bytes
  handshakes : List (ℕ × UInt16)

inductive Event where
  | arrive (d : Datagram)
  | transfer
  | handle

namespace UDPLPD

def receive (s : UDPLPD) : UDPLPD := { s with receiving := some ⟨s.udpBuffer, none⟩ }

def startReceiveLoop (udpBuffer : Buffer) : UDPLPD :=
  receive ⟨udpBuffer, [], none, [], []⟩

variable (parse : Bytes → Option UDPDiscoveryMessage)

def processReceived (recvBuffer : Buffer) (recvBytes : ℕ) (address : ℕ) (s : UDPLPD) : UDPLPD :=
  let string := recvBuffer.bytes.take recvBytes
  let s := { s with parsed := s.parsed ++ [string] }
  match parse string with
  -- the error is thrown, caught and logged
  | none => receive s
  | some message =>
    receive { s with handshakes := s.handshakes ++ [(address, message.port.toUInt16)] }

def step (s : UDPLPD) : Event → Except Escape UDPLPD
  | .arrive d => .ok { s with queue := s.queue ++ [d] }
  | .transfer =>
    match s.receiving, s.queue with
    | some ⟨recvBuffer, none⟩, d :: queue => .ok { s with
        udpBuffer := s.udpBuffer.write d
        queue := queue
        receiving := some ⟨recvBuffer, some d⟩ }
    | _, _ => .error .disabled
  | .handle =>
    match s.receiving with
    | some ⟨recvBuffer, some d⟩ =>
      .ok (processReceived parse recvBuffer d.bytes.length d.address { s with receiving := none })
    | _ => .error .disabled

def arrivals (events : List Event) : List Datagram :=
  events.filterMap fun
    | .arrive d => some d
    | _ => none

def written (b : Buffer) (ds : List Datagram) : Buffer := ds.foldl Buffer.write b

/-- What the handlers of the datagrams `ds` parse when the buffer holds `b` at first. -/
def stale : Buffer → List Datagram → List Bytes
  | _, [] => []
  | b, d :: ds => b.bytes.take d.bytes.length :: stale (b.write d) ds

@[simp] lemma length_stale (b : Buffer) (ds : List Datagram) : (stale b ds).length = ds.length := by
  induction ds generalizing b with
  | nil => rfl
  | cons d ds ih => rw [stale, List.length_cons, ih, List.length_cons]

lemma written_concat (b : Buffer) (ds : List Datagram) (d : Datagram) :
    written b (ds ++ [d]) = (written b ds).write d := by
  rw [written, List.foldl_concat, written]

lemma stale_concat (b : Buffer) (ds : List Datagram) (d : Datagram) :
    stale b (ds ++ [d]) = stale b ds ++ [(written b ds).bytes.take d.bytes.length] := by
  induction ds generalizing b with
  | nil => rfl
  | cons d' ds ih =>
    rw [List.cons_append, stale, ih, stale]
    rfl

lemma write_eq_self {b : Buffer} {d : Datagram} (h : d.bytes <+: b.bytes) : b.write d = b := by
  obtain ⟨bytes, hsize⟩ := b
  simp only [Buffer.write, overwrite_eq_self h]

lemma stale_eq_iff (b : Buffer) (ds : List Datagram) :
    stale b ds = ds.map Datagram.bytes ↔ ∀ d ∈ ds, d.bytes <+: b.bytes := by
  induction ds generalizing b with
  | nil => simp [stale]
  | cons d ds ih =>
    rw [stale, List.map_cons, List.cons.injEq, List.forall_mem_cons, List.prefix_iff_eq_take,
      eq_comm (a := d.bytes)]
    refine and_congr_right fun hd => ?_
    -- a datagram that the buffer starts with leaves it as it is
    rw [write_eq_self (List.prefix_iff_eq_take.mpr hd.symm), ih]

def target (string : Bytes) (address : ℕ) : Option (ℕ × UInt16) :=
  (parse string).map fun message => (address, message.port.toUInt16)

/-- What the handlers of the datagrams `ds` try when the buffer holds `b` at first. -/
def targets : Buffer → List Datagram → List (ℕ × UInt16)
  | _, [] => []
  | b, d :: ds =>
    (target parse (b.bytes.take d.bytes.length) d.address).toList ++ targets (b.write d) ds

lemma targets_concat (b : Buffer) (ds : List Datagram) (d : Datagram) :
    targets parse b (ds ++ [d]) = targets parse b ds ++
      (target parse ((written b ds).bytes.take d.bytes.length) d.address).toList := by
  induction ds generalizing b with
  | nil => exact (List.append_nil _).trans (List.nil_append _).symm
  | cons x ds ih =>
    rw [List.cons_append, targets, targets, ih, List.append_assoc]
    rfl

lemma processReceived_eq (recvBuffer : Buffer) (recvBytes address : ℕ) (s : UDPLPD) :
    processReceived parse recvBuffer recvBytes address s = receive { s with
      parsed := s.parsed ++ [recvBuffer.bytes.take recvBytes]
      handshakes := s.handshakes ++
        (target parse (recvBuffer.bytes.take recvBytes) address).toList } := by
  rw [processReceived, target]
  cases parse (recvBuffer.bytes.take recvBytes) with
  | none => simp
  | some message => simp

/-- What was parsed and tried, the buffer, the copy and the queue after the events of `past`, the
last one first. -/
structure Tracked (b : Buffer) (past : List Event) (s : UDPLPD) : Prop where
  split : ∃ done, s.parsed = stale b done ∧ s.handshakes = targets parse b done ∧
    ∃ received : Option Datagram, s.receiving = some ⟨written b done, received⟩ ∧
      s.udpBuffer = written b (done ++ received.toList) ∧
      arrivals past.reverse = done ++ received.toList ++ s.queue

lemma tracked_start (b : Buffer) : Tracked parse b [] (startReceiveLoop b) :=
  ⟨[], rfl, rfl, none, rfl, rfl, rfl⟩

lemma arrivals_snoc (e : Event) (past : List Event) :
    arrivals (e :: past).reverse = arrivals past.reverse ++ arrivals [e] := by
  rw [List.reverse_cons, arrivals, List.filterMap_append]
  rfl

variable {parse}

lemma step_tracked {b : Buffer} (past : List Event) (s : UDPLPD) (e : Event) (t : UDPLPD)
    (h : Tracked parse b past s) (hs : s.step parse e = .ok t) :
    Tracked parse b (e :: past) t := by
  obtain ⟨done, hparsed, hhandshakes, received, hreceiving, hbuffer, harrived⟩ := h.split
  constructor
  rw [arrivals_snoc, harrived]
  cases e with
  | arrive d =>
    obtain rfl := Except.ok.inj hs
    exact ⟨done, hparsed, hhandshakes, received, hreceiving, hbuffer, by simp [arrivals]⟩
  | transfer =>
    rw [step, hreceiving] at hs
    cases received with
    | some d => cases hs
    | none =>
      cases hqueue : s.queue with
      | nil =>
        rw [hqueue] at hs
        cases hs
      | cons d queue =>
        rw [hqueue] at hs
        obtain rfl := Except.ok.inj hs
        refine ⟨done, hparsed, hhandshakes, some d, rfl, ?_, by simp [arrivals]⟩
        rw [hbuffer, Option.toList_none, List.append_nil, Option.toList_some, written_concat]
  | handle =>
    rw [step, hreceiving] at hs
    cases received with
    | none => cases hs
    | some d =>
      obtain rfl := Except.ok.inj hs
      rw [processReceived_eq]
      refine ⟨done ++ [d], ?_, ?_, none, ?_, ?_, by simp [receive, arrivals]⟩
      · rw [stale_concat, ← hparsed]
        rfl
      · rw [targets_concat, ← hhandshakes]
        rfl
      · rw [receive, hbuffer]
        rfl
      · rw [Option.toList_none, List.append_nil]
        exact hbuffer

lemma run_handled {b : Buffer} {events : List Event} {s : UDPLPD}
    (h : run (step parse) (startReceiveLoop b) events = .ok s) :
    ∃ done, done <+: arrivals events ∧ s.parsed = stale b done ∧
      s.handshakes = targets parse b done := by
  have htracked := history_invariant step_tracked (tracked_start parse b) h
  obtain ⟨done, hparsed, hhandshakes, received, -, -, harrived⟩ := htracked.split
  rw [List.append_nil, List.reverse_reverse, List.append_assoc] at harrived
  exact ⟨done, ⟨_, harrived.symm⟩, hparsed, hhandshakes⟩

/-- The datagrams come one by one, each after the handler of the one before it. -/
def inTurn (ds : List Datagram) : List Event := ds.flatMap fun d => [.arrive d, .transfer, .handle]

lemma arrivals_inTurn (ds : List Datagram) : arrivals (inTurn ds) = ds := by
  induction ds with
  | nil => rfl
  | cons d ds ih =>
    rw [inTurn, List.flatMap_cons, arrivals, List.filterMap_append]
    exact congrArg (d :: ·) ih

variable (parse) in
lemma run_inTurn (b : Buffer) (ds : List Datagram) (parsed : List Bytes)
    (handshakes : List (ℕ × UInt16)) :
    ∃ t, run (step parse) ⟨b, [], some ⟨b, none⟩, parsed, handshakes⟩ (inTurn ds) = .ok t ∧
      t.parsed = parsed ++ stale b ds := by
  induction ds generalizing b parsed handshakes with
  | nil => exact ⟨_, rfl, by simp [stale]⟩
  | cons d ds ih =>
    obtain ⟨t, ht, hparsed⟩ := ih (b.write d) (parsed ++ [b.bytes.take d.bytes.length])
      (handshakes ++ (target parse (b.bytes.take d.bytes.length) d.address).toList)
    have hturn : run (step parse) ⟨b, [], some ⟨b, none⟩, parsed, handshakes⟩ (inTurn (d :: ds)) =
        run (step parse) (processReceived parse b d.bytes.length d.address
          ⟨b.write d, [], none, parsed, handshakes⟩) (inTurn ds) := rfl
    refine ⟨t, ?_, ?_⟩
    · rw [hturn, processReceived_eq]
      exact ht
    · rw [hparsed, stale, List.append_assoc]
      rfl

lemma stale_succ {b : Buffer} {ds : List Datagram} {i : ℕ} {d d' : Datagram}
    (hd : ds[i]? = some d) (hd' : ds[i + 1]? = some d') (hle : d'.bytes.length ≤ d.bytes.length) :
    (stale b ds)[i + 1]? = some (d.bytes.take d'.bytes.length) := by
  induction ds generalizing b i with
  | nil => cases hd
  | cons e ds ih =>
    cases i with
    | succ i => exact ih hd hd'
    | zero =>
      obtain rfl := Option.some.inj hd
      cases ds with
      | nil => cases hd'
      | cons e' ds =>
        obtain rfl := Option.some.inj hd'
        exact congrArg some (take_overwrite hle)

lemma stale_take (b : Buffer) (ds : List Datagram) (n : ℕ) :
    stale b (ds.take n) = (stale b ds).take n := by
  induction ds generalizing b n with
  | nil => simp [stale]
  | cons d ds ih =>
    cases n with
    | zero => rfl
    | succ n => rw [List.take_succ_cons, stale, stale, ih, List.take_succ_cons]

variable (parse) in
theorem datagrams_parsed_iff (b : Buffer) (ds : List Datagram) :
    ((∀ events s, arrivals events = ds → run (step parse) (startReceiveLoop b) events = .ok s →
        s.parsed <+: ds.map Datagram.bytes) ↔ ∀ d ∈ ds, d.bytes <+: b.bytes) ∧
      (∀ events s, arrivals events = ds → run (step parse) (startReceiveLoop b) events = .ok s →
        s.parsed <+: stale b ds) ∧
      ∀ i d d', ds[i]? = some d → ds[i + 1]? = some d' → d'.bytes.length ≤ d.bytes.length →
        (stale b ds)[i + 1]? = some (d.bytes.take d'.bytes.length) := by
  have hparsed : ∀ events s, arrivals events = ds →
      run (step parse) (startReceiveLoop b) events = .ok s → s.parsed <+: stale b ds := by
    intro events s harrived h
    obtain ⟨done, hdone, hs, -⟩ := run_handled h
    rw [harrived, List.prefix_iff_eq_take] at hdone
    rw [hs, hdone, stale_take]
    exact List.take_prefix _ _
  refine ⟨?_, hparsed, fun i d d' => stale_succ⟩
  rw [← stale_eq_iff]
  constructor
  · intro hall
    obtain ⟨s, hrun, hs⟩ := run_inTurn parse b ds [] []
    have hsame := hall _ s (arrivals_inTurn ds) hrun
    rw [hs, List.nil_append] at hsame
    exact hsame.eq_of_length (by simp)
  · intro heq events s harrived h
    exact heq ▸ hparsed events s harrived h

/-- An announcement of port 10000 and one of port 10001 reach a buffer of zeros. -/
theorem announcement_parsed_from_old_bytes :
    ∃ s, run (step UDPDiscoveryMessage.parseFromString)
        (startReceiveLoop ⟨List.replicate maxUdpPacketSize 0, List.length_replicate⟩)
        [.arrive ⟨1, [8, 144, 78], by decide⟩, .transfer, .handle,
          .arrive ⟨2, [8, 145, 78], by decide⟩, .transfer, .handle] = .ok s ∧
      s.parsed = [[0, 0, 0], [8, 144, 78]] :=
  run_inTurn UDPDiscoveryMessage.parseFromString _
    [⟨1, [8, 144, 78], by decide⟩, ⟨2, [8, 145, 78], by decide⟩] [] []

end UDPLPD

end P2PNet.Discovery
