import P2PNet.API.Garbage
import P2PNet.API.NodeIds
import P2PNet.Lib.Schema

/-! `APIMessage` on the wire: the message types of the schema, and whole streams of messages
between a client and the daemon. -/

namespace P2PNet.API

open Lib.Wire Lib.Words P2P

def MessageType.number : MessageType → ℕ
  | nodeRegister => 0
  | nodeUnregister => 1
  | nodeConnect => 2
  | nodeAccept => 3
  | nodeListen => 4
  | nodeBind => 5
  | socketUnregister => 6

def MessageType.ofNumber : ℕ → Option MessageType
  | 0 => some nodeRegister
  | 1 => some nodeUnregister
  | 2 => some nodeConnect
  | 3 => some nodeAccept
  | 4 => some nodeListen
  | 5 => some nodeBind
  | 6 => some socketUnregister
  | _ => none

def MessageType.cell : Cell (Option MessageType) :=
  .enum number ofNumber (by intro x; cases x <;> decide) (by intro x; cases x <;> rfl)

namespace Message

def Error.schema : Schema Error :=
  .map (.cons 1 .int32 <| .cons 2 .text <| .cons 3 .text .nil)
    { toFun m := (m.errorCode, m.errorWhat, m.errorCategory, ())
      invFun m := ⟨m.1, m.2.1, m.2.2.1⟩
      left_inv _ := rfl
      right_inv _ := rfl }

def NodeRegister.schema : Schema NodeRegister :=
  .map (.cons 1 .uint32 .nil)
    { toFun m := (m.nodeId, ())
      invFun m := ⟨m.1⟩
      left_inv _ := rfl
      right_inv _ := rfl }

def NodeUnRegister.schema : Schema NodeUnRegister :=
  .map (.cons 1 .uint32 .nil)
    { toFun m := (m.nodeId, ())
      invFun m := ⟨m.1⟩
      left_inv _ := rfl
      right_inv _ := rfl }

def NodeConnect.schema : Schema NodeConnect :=
  .map (.cons 1 .uint32 <| .cons 2 .bytes <| .cons 3 .uint32 .nil)
    { toFun m := (m.nodeId, m.sh, m.socketId, ())
      invFun m := ⟨m.1, m.2.1, m.2.2.1⟩
      left_inv _ := rfl
      right_inv _ := rfl }

def NodeAccept.schema : Schema NodeAccept :=
  .map (.cons 1 .uint32 <| .cons 2 .bytes <| .cons 3 .uint32 .nil)
    { toFun m := (m.nodeId, m.sh, m.socketId, ())
      invFun m := ⟨m.1, m.2.1, m.2.2.1⟩
      left_inv _ := rfl
      right_inv _ := rfl }

def NodeListen.schema : Schema NodeListen :=
  .map (.cons 1 .uint32 <| .cons 2 .uint32 .nil)
    { toFun m := (m.nodeId, m.maxConnections, ())
      invFun m := ⟨m.1, m.2.1⟩
      left_inv _ := rfl
      right_inv _ := rfl }

def NodeBind.schema : Schema NodeBind :=
  .map (.cons 1 .uint32 <| .cons 2 .bytes <| .cons 3 .bytes .nil)
    { toFun m := (m.nodeId, m.binaryPrivateKey, m.b58PrivateKey, ())
      invFun m := ⟨m.1, m.2.1, m.2.2.1⟩
      left_inv _ := rfl
      right_inv _ := rfl }

def SocketUnRegister.schema : Schema SocketUnRegister :=
  .map (.cons 1 .uint32 <| .cons 2 .uint32 .nil)
    { toFun m := (m.nodeId, m.socketId, ())
      invFun m := ⟨m.1, m.2.1⟩
      left_inv _ := rfl
      right_inv _ := rfl }

end Message

namespace APIMessage

open Message

def schema : Schema APIMessage :=
  .map (.cons 1 MessageType.cell <| .cons 2 .uint32 <| .cons 3 (.message Error.schema) <|
      .cons 4 .bool <| .cons 16 (.message NodeRegister.schema) <|
      .cons 17 (.message NodeUnRegister.schema) <| .cons 18 (.message NodeConnect.schema) <|
      .cons 19 (.message NodeAccept.schema) <| .cons 20 (.message NodeListen.schema) <|
      .cons 21 (.message NodeBind.schema) <| .cons 22 (.message SocketUnRegister.schema) .nil)
    { toFun m := (m.type, m.messageToken, m.error, m.reply, m.nodeRegister, m.nodeUnregister,
        m.nodeConnect, m.nodeAccept, m.nodeListen, m.nodeBind, m.socketUnregister, ())
      invFun := fun (type, messageToken, error, reply, nodeRegister, nodeUnregister, nodeConnect,
        nodeAccept, nodeListen, nodeBind, socketUnregister, _) =>
          ⟨type, messageToken, error, reply, nodeRegister, nodeUnregister, nodeConnect, nodeAccept,
            nodeListen, nodeBind, socketUnregister⟩
      left_inv _ := rfl
      right_inv _ := rfl }

def serializeAsString (m : APIMessage) : Bytes := schema.serialize m

/-- `ParseFromArray`; what it leaves of data that it refuses is arbitrary. -/
def parseFromArray (leftover : Bytes → APIMessage) : Parser := fun data =>
  match schema.parse data with
  | some m => (true, m)
  | none => (false, leftover data)

/-- The error of the message has a code of 32 bits and texts made of bytes. -/
def Representable (m : APIMessage) : Prop :=
  ∀ e ∈ m.error, (∀ code ∈ e.errorCode, Cell.IsSigned (2 ^ 31) code) ∧
    (∀ what ∈ e.errorWhat, Cell.IsText what) ∧ ∀ name ∈ e.errorCategory, Cell.IsText name

lemma representable_of_no_error {m : APIMessage} (h : m.error = none) : m.Representable := by
  intro e he
  rw [h] at he
  cases he

lemma valid_iff_representable (m : APIMessage) : schema.Valid m ↔ m.Representable := by
  have htrue {α : Type} (o : Option α) : ∀ x ∈ o, True := fun _ _ => trivial
  constructor
  · rintro ⟨-, -, herror, -⟩ e he
    obtain ⟨hcode, hwhat, hcategory, -⟩ := herror e he
    exact ⟨hcode, hwhat, hcategory⟩
  · intro h
    refine ⟨htrue _, htrue _, fun e he => ?_, htrue _, fun _ _ => ⟨htrue _, trivial⟩,
      fun _ _ => ⟨htrue _, trivial⟩, fun _ _ => ⟨htrue _, htrue _, htrue _, trivial⟩,
      fun _ _ => ⟨htrue _, htrue _, htrue _, trivial⟩, fun _ _ => ⟨htrue _, htrue _, trivial⟩,
      fun _ _ => ⟨htrue _, htrue _, htrue _, trivial⟩, fun _ _ => ⟨htrue _, htrue _, trivial⟩,
      trivial⟩
    obtain ⟨hcode, hwhat, hcategory⟩ := h e he
    exact ⟨hcode, hwhat, hcategory, trivial⟩

lemma parse_serializeAsString {m : APIMessage} (hm : m.Representable)
    (hlen : m.serializeAsString.length < 2 ^ 31) (leftover : Bytes → APIMessage) :
    parseFromArray leftover m.serializeAsString = (true, m) := by
  have hparse := schema.parse_serialize ((valid_iff_representable m).mpr hm) hlen
  rw [parseFromArray, serializeAsString, hparse]

end APIMessage

namespace UnixAPISocket

/-- What `send` and `asyncSend` write for a message. -/
def frame (endian : Endian) (m : APIMessage) : Bytes :=
  generateSendString endian m.serializeAsString

lemma flatMap_frame (endian : Endian) (messages : List APIMessage) :
    messages.flatMap (frame endian) =
      (messages.map APIMessage.serializeAsString).flatMap (generateSendString endian) := by
  rw [List.flatMap_map]
  rfl

open APIMessage

lemma frames_cons (sender : Endian) (m : APIMessage) (rest : List APIMessage) :
    (m :: rest).flatMap (frame sender) =
      toBytes (UInt32.ofNat m.serializeAsString.length) ++
        (m.serializeAsString ++ rest.flatMap (frame sender)) := by
  rw [List.flatMap_cons, frame, generateSendString_eq, List.append_assoc]

/-- After a size was read, what follows is the message that it belongs to. -/
lemma frames_body {sender : Endian} {messages : List APIMessage} {size : UInt32} {bytes : Bytes}
    (hlen : ∀ m ∈ messages, m.serializeAsString.length < 2 ^ 31)
    (h : toBytes size ++ bytes = messages.flatMap (frame sender)) :
    ∃ m rest, messages = m :: rest ∧ size.toNat = m.serializeAsString.length ∧
      bytes = m.serializeAsString ++ rest.flatMap (frame sender) := by
  cases messages with
  | nil => exact absurd h (by simp [toBytes])
  | cons m rest =>
    rw [frames_cons] at h
    obtain ⟨hsize, hbytes⟩ := List.append_inj h rfl
    have hm := hlen m List.mem_cons_self
    refine ⟨m, rest, rfl, ?_, hbytes⟩
    rw [← ofBytes_toBytes size, hsize, ofBytes_toBytes, UInt32.toNat_ofNat',
      Nat.mod_eq_of_lt (Nat.lt_trans hm (by decide))]

/-- However a stream of messages is cut into frames, they are those of the messages. -/
lemma bodies_of_frames {reader sender : Endian} {bodies : List Bytes} {messages : List APIMessage}
    {rest : Bytes} (hbodies : ∀ body ∈ bodies, body.length < 2 ^ 32)
    (hlen : ∀ m ∈ messages, m.serializeAsString.length < 2 ^ 31)
    (h : bodies.flatMap (generateSendString reader) ++ rest <+: messages.flatMap (frame sender)) :
    bodies <+: messages.map serializeAsString ∧
      rest <+: (messages.drop bodies.length).flatMap (frame sender) := by
  induction bodies generalizing messages with
  | nil => exact ⟨List.nil_prefix, h⟩
  | cons body bodies ih =>
    obtain ⟨tail, htail⟩ := h
    rw [List.flatMap_cons, generateSendString_eq, List.append_assoc, List.append_assoc,
      List.append_assoc] at htail
    obtain ⟨m, messages, rfl, hsize, hbytes⟩ := frames_body hlen htail
    obtain ⟨hbody, hothers⟩ := List.forall_mem_cons.mp hbodies
    rw [UInt32.toNat_ofNat', Nat.mod_eq_of_lt hbody] at hsize
    obtain ⟨rfl, hrest⟩ := List.append_inj hbytes hsize
    obtain ⟨hinit, hleft⟩ := ih hothers (List.forall_mem_cons.mp hlen).2
      ⟨tail, (List.append_assoc _ _ _).trans hrest⟩
    exact ⟨List.cons_prefix_cons.mpr ⟨rfl, hinit⟩, hleft⟩

/-- The bytes of the frame under way that have been read. -/
def Reading.header : Reading → Bytes
  | .size => []
  | .body n => toBytes n

/-- How many bytes the read under way waits for. -/
def Reading.awaited : Reading → ℕ
  | .size => messageSizeLength
  | .body n => n.toNat

end UnixAPISocket

namespace World

variable {C : Crypto}

open APIMessage

open UnixAPISocket

def sampleRegister : APIMessage := { type := some .nodeRegister, messageToken := some 5 }

def sampleListen : APIMessage :=
  { type := some .nodeListen, messageToken := some 6, nodeListen := some ⟨some 1, some 128⟩ }

def sampleRegistered : APIMessage := { sampleRegister with nodeRegister := some ⟨some 1⟩ }

lemma serialize_samples :
    sampleRegister.serializeAsString = [8, 0, 16, 5] ∧
      sampleListen.serializeAsString = [8, 4, 16, 6, 162, 1, 5, 8, 1, 16, 128, 1] ∧
      sampleRegistered.serializeAsString = [8, 0, 16, 5, 130, 1, 2, 8, 1] := by
  have hregister : schema.fields sampleRegister = [⟨1, .varint 0⟩, ⟨2, .varint 5⟩] := rfl
  have hlisten : schema.fields sampleListen = [⟨1, .varint 4⟩, ⟨2, .varint 6⟩,
      ⟨20, .delimited (encode [⟨1, .varint 1⟩, ⟨2, .varint 128⟩])⟩] := rfl
  have hregistered : schema.fields sampleRegistered = [⟨1, .varint 0⟩, ⟨2, .varint 5⟩,
      ⟨16, .delimited (encode [⟨1, .varint 1⟩])⟩] := rfl
  simp only [serializeAsString, Schema.serialize, hregister, hlisten, hregistered]
  simp [encode, Field.encode, Field.tag, Value.encode, Value.wireType, varint]

end World

end P2PNet.API
