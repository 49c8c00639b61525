import P2PNet.API.Wire
import P2PNet.Library.Matching

/-! The client library on its socket. The daemon's replies are bytes, which the receive loop
reads in two steps each; until the connection is lost this is the session with whole replies
under way, and afterwards the loop goes on by itself. -/

namespace P2PNet.Library

open Lib Lib.Lists Lib.Runs Lib.Words API UnixAPISocket

/-- `boost::asio::error::operation_aborted`. -/
def operationAborted : ℤ := 125

/-- `pipe` holds what the daemon has written and the client has not read, `closed` the error of
a read beyond it once the connection is lost, and `reading` is the read under way. -/
structure Link where
  session : P2PSession
  exchanges : List Exchange
  pipe : Bytes
  closed : Option ℤ
  reading : Option Reading

inductive LinkEvent where
  | start (request : APIMessage)
  | answer (exchange : ℕ) (content : APIMessage)
  | close (arrived : ℕ) (error : ℤ)
  | read
  | finish (exchange : ℕ)
  deriving DecidableEq, Repr

namespace Link

/-- The session as if these replies were under way. -/
def client (w : Link) (inFlight : List (ℕ × APIMessage)) : Client :=
  ⟨w.session, w.exchanges, inFlight⟩

def setClient (w : Link) (c : Client) : Link :=
  { w with session := c.session, exchanges := c.exchanges }

def receiveLoop (w : Link) : Link := { w with reading := some .size }

/-- `P2PUnixDaemon::connect`, which ends with `receiveLoop`. -/
def connect : Link := receiveLoop ⟨.new, [], [], none, none⟩

/-- `async_read` of `n` bytes: the error, the bytes and what is left, once it completes. -/
def asyncRead (w : Link) (n : ℕ) : Option (ℤ × Bytes × Bytes) :=
  if n ≤ w.pipe.length then some (0, w.pipe.take n, w.pipe.drop n)
  else w.closed.map fun error => (error, w.pipe, [])

/-- `P2PSession::handleReceive`. -/
def handleReceive (w : Link) (message : APIMessage) (error : ℤ) : Except Fault Link := do
  let c ← (w.client []).handleReceive message
  let w := w.setClient c
  if error ≠ operationAborted then .ok w.receiveLoop else .ok w

section Step

variable (sender receiver : Endian) (leftover : Bytes → APIMessage)

def handleReceiveSize (w : Link) (error : ℤ) (charMessageSize : Bytes) : Except Fault Link :=
  if error ≠ 0 then w.handleReceive {} error
  else .ok { w with reading := some (.body (ntohl receiver (load receiver charMessageSize))) }

/-- `UnixAPISocket::handleReceive`. -/
def handleReceiveBody (w : Link) (error : ℤ) (message : Bytes) : Except Fault Link :=
  if error ≠ 0 then w.handleReceive {} error
  else w.handleReceive (APIMessage.parseFromArray leftover message).2 error

def read (w : Link) : Except Fault Link :=
  match w.reading with
  | none => .error .disabled
  | some .size =>
    match w.asyncRead messageSizeLength with
    | none => .error .disabled
    | some (error, buffer, pipe) =>
      { w with pipe := pipe, reading := none }.handleReceiveSize receiver error buffer
  | some (.body size) =>
    match w.asyncRead size.toNat with
    | none => .error .disabled
    | some (error, buffer, pipe) =>
      { w with pipe := pipe, reading := none }.handleReceiveBody leftover error buffer

def step (w : Link) : LinkEvent → Except Fault Link
  | .start request => do
    let c ← (w.client []).start request
    .ok (w.setClient c)
  | .answer i content =>
    if w.closed.isSome then .error .disabled
    else do
      let c ← (w.client []).answer i content
      let written := c.inFlight.flatMap fun (_, reply) => frame sender reply
      .ok { w.setClient c with pipe := w.pipe ++ written }
  | .close arrived error =>
    if w.closed.isSome ∨ error = 0 then .error .disabled
    else .ok { w with pipe := w.pipe.take arrived, closed := some error }
  | .read => w.read receiver leftover
  | .finish i => do
    let c ← (w.client []).finish i
    .ok (w.setClient c)

end Step

/-- The reply can be written and read again. -/
def Fits (m : APIMessage) : Prop := m.Representable ∧ m.serializeAsString.length < 2 ^ 31

lemma fits_of_fields {m : APIMessage} (herror : m.error = none)
    (hsum : ((APIMessage.schema.fields m).map fun f => f.value.payload + 15).sum < 2 ^ 31) :
    Fits m := by
  have hm := APIMessage.representable_of_no_error herror
  have hvalid := (APIMessage.valid_iff_representable m).mpr hm
  exact ⟨hm, APIMessage.schema.length_serialize_lt hvalid (by decide) hsum⟩

/-- A message of its type, a token and one part is not much longer than the part. -/
lemma fits_of_part {m : APIMessage} {α : Type} {S : Lib.Wire.Schema α} {part : α}
    {type token number : ℕ} (herror : m.error = none) (hpart : S.Valid part)
    (hfields : APIMessage.schema.fields m =
      [⟨1, .varint type⟩, ⟨2, .varint token⟩, ⟨number, .delimited (S.serialize part)⟩])
    (hsum : ((S.fields part).map fun f => f.value.payload + 15).sum < 2 ^ 30) : Fits m := by
  have hlength := S.length_serialize_lt hpart (by decide) hsum
  apply fits_of_fields herror
  rw [hfields]
  simp only [List.map_cons, List.map_nil, List.sum_cons, List.sum_nil, Lib.Wire.Value.payload]
  omega

/-- Exchanges are started in time, and the daemon's replies fit. -/
def Sound (w : Link) : LinkEvent → Prop
  | .start request => Client.Timely (w.client []) (.start request)
  | .answer i content => ∀ e, w.exchanges[i]? = some e →
      Fits { content with messageToken := e.request.messageToken }
  | _ => True

end Link

namespace Client

-- the replies under way matter to none of these but `answer`, which adds one

variable (c : Client) (inFlight : List (ℕ × APIMessage))

lemma start_inFlight (request : APIMessage) :
    { c with inFlight := inFlight }.start request =
      (c.start request).map ({ · with inFlight := inFlight }) := by
  simp only [start]
  split
  · rfl
  · rfl

lemma replyWith_inFlight (i : ℕ) (reply : APIMessage) :
    { c with inFlight := inFlight }.replyWith i reply =
      ({ c with inFlight := [] }.replyWith i reply).map fun c : Client =>
        { c with inFlight := inFlight ++ c.inFlight } := by
  simp only [replyWith]
  split
  · rfl
  · split_ifs
    · rfl
    · rfl

lemma answer_inFlight (i : ℕ) (content : APIMessage) :
    { c with inFlight := inFlight }.answer i content =
      ({ c with inFlight := [] }.answer i content).map fun c : Client =>
        { c with inFlight := inFlight ++ c.inFlight } := by
  simp only [answer]
  split
  · rfl
  · exact c.replyWith_inFlight inFlight i _

lemma handleReceive_inFlight (message : APIMessage) :
    { c with inFlight := inFlight }.handleReceive message =
      (c.handleReceive message).map ({ · with inFlight := inFlight }) := by
  simp only [handleReceive, setValue]
  split
  · split
    · rfl
    · split_ifs
      · rfl
      · rfl
  · rfl

lemma finish_inFlight (i : ℕ) :
    { c with inFlight := inFlight }.finish i =
      (c.finish i).map ({ · with inFlight := inFlight }) := by
  simp only [finish]
  split
  · rfl
  · split
    · split_ifs
      · rfl
      · rfl
    · rfl

end Client

namespace Link

section Refinement

variable {sender receiver : Endian} {leftover : Bytes → APIMessage} {w w' : Link}
  {inFlight : List (ℕ × APIMessage)}

def header : Option Reading → Bytes
  | some reading => reading.header
  | none => []

def written (sender : Endian) (inFlight : List (ℕ × APIMessage)) : Bytes :=
  (inFlight.map Prod.snd).flatMap (frame sender)

lemma written_eq (sender : Endian) (inFlight : List (ℕ × APIMessage)) :
    written sender inFlight = inFlight.flatMap fun (_, reply) => frame sender reply := by
  rw [written, List.flatMap_map]

/-- Before a frame is begun, the size of the next one is there. -/
lemma length_of_written {sender : Endian} {bytes : Bytes} {inFlight : List (ℕ × APIMessage)}
    (hsome : inFlight ≠ []) (h : header (some .size) ++ bytes = written sender inFlight) :
    messageSizeLength ≤ bytes.length := by
  obtain ⟨reply, rest, rfl⟩ := List.exists_cons_of_ne_nil hsome
  rw [show header (some .size) = [] from rfl, List.nil_append] at h
  rw [h, written, List.map_cons, frames_cons, List.length_append, length_toBytes]
  exact Nat.le_add_right _ _

/-- The pipe carries the replies under way; of a connection that is lost, a part of them. -/
structure Carries (sender : Endian) (w : Link) (inFlight : List (ℕ × APIMessage)) : Prop where
  fits : ∀ reply ∈ inFlight, Fits reply.2
  bytes : header w.reading ++ w.pipe <+: written sender inFlight
  opened : w.closed = none → header w.reading ++ w.pipe = written sender inFlight
  looping : w.closed ≠ some operationAborted → w.reading.isSome
  ending : ∀ error, w.closed = some error → error ≠ 0

lemma Carries.setClient (h : Carries sender w inFlight) (c : Client) :
    Carries sender (w.setClient c) inFlight :=
  ⟨h.fits, h.bytes, h.opened, h.looping, h.ending⟩

lemma Carries.close (h : Carries sender w inFlight) (hopen : w.closed = none) (arrived : ℕ)
    {error : ℤ} (he : error ≠ 0) :
    Carries sender { w with pipe := w.pipe.take arrived, closed := some error } inFlight where
  fits := h.fits
  bytes := ((List.prefix_append_right_inj _).mpr (List.take_prefix _ _)).trans h.bytes
  opened hopen := nomatch hopen
  looping _ := h.looping (by simp [hopen])
  ending _ herror := Option.some.inj herror ▸ he

lemma Carries.answer (h : Carries sender w inFlight) (hopen : w.closed = none)
    {replies : List (ℕ × APIMessage)} (hreplies : ∀ reply ∈ replies, Fits reply.2) :
    Carries sender { w with pipe := w.pipe ++ written sender replies } (inFlight ++ replies) := by
  have hwritten : header w.reading ++ (w.pipe ++ written sender replies) =
      written sender (inFlight ++ replies) := by
    rw [← List.append_assoc, h.opened hopen, written, written, written, List.map_append,
      List.flatMap_append]
  exact ⟨List.forall_mem_append.mpr ⟨h.fits, hreplies⟩, hwritten ▸ List.prefix_rfl,
    fun _ => hwritten, h.looping, h.ending⟩

/-- While the body of a frame is read, the reply that it belongs to is the first one under way. -/
lemma Carries.body (h : Carries sender w inFlight) {size : UInt32}
    (hreading : w.reading = some (.body size)) :
    ∃ i m rest, inFlight = (i, m) :: rest ∧ Fits m ∧ size.toNat = m.serializeAsString.length ∧
      w.pipe <+: m.serializeAsString ++ written sender rest ∧
      (w.closed = none → w.pipe = m.serializeAsString ++ written sender rest) := by
  have hlen : ∀ m ∈ inFlight.map Prod.snd, m.serializeAsString.length < 2 ^ 31 := by
    intro m hm
    obtain ⟨reply, hreply, rfl⟩ := List.mem_map.mp hm
    exact (h.fits reply hreply).2
  obtain ⟨tail, htail⟩ := h.bytes
  have hnil : w.closed = none → tail = [] :=
    fun hopen => List.append_right_eq_self.mp (htail.trans (h.opened hopen).symm)
  rw [hreading, List.append_assoc] at htail
  obtain ⟨m, messages, hmessages, hsize, hpipe⟩ := frames_body hlen htail
  obtain ⟨reply, rest, rfl, rfl, rfl⟩ := List.map_eq_cons_iff.mp hmessages
  refine ⟨reply.1, reply.2, rest, rfl, h.fits reply List.mem_cons_self, hsize, ⟨tail, hpipe⟩, ?_⟩
  intro hopen
  rw [hnil hopen, List.append_nil] at hpipe
  exact hpipe

lemma Carries.read_body (h : Carries sender w inFlight) {size : UInt32}
    (hreading : w.reading = some (.body size)) (hsize : size.toNat ≤ w.pipe.length) :
    ∃ i m rest pipe, inFlight = (i, m) :: rest ∧
      w.read receiver leftover = { w with pipe := pipe, reading := none }.handleReceive m 0 ∧
      Carries sender { w with pipe := pipe, reading := some .size } rest := by
  obtain ⟨i, m, rest, rfl, hm, hlength, hbytes, hopened⟩ := h.body hreading
  rw [hlength] at hsize
  obtain ⟨pipe, hpipe⟩ := List.prefix_of_prefix_length_le (List.prefix_append _ _) hbytes hsize
  rw [← hpipe, List.prefix_append_right_inj] at hbytes
  refine ⟨i, m, rest, pipe, rfl, ?_, ⟨?_, hbytes, ?_, fun _ => rfl, h.ending⟩⟩
  · simp only [read, hreading, asyncRead, hlength, if_pos hsize]
    rw [← hpipe, List.take_left, List.drop_left]
    simp only [handleReceiveBody, APIMessage.parse_serializeAsString hm.1 hm.2]
    rfl
  · exact fun reply hreply => h.fits reply (List.mem_cons_of_mem _ hreply)
  · intro hopen
    have hall := hopened hopen
    rw [← hpipe] at hall
    exact List.append_cancel_left hall

lemma Carries.read_size (h : Carries sender w inFlight) (hreading : w.reading = some .size)
    (hsize : messageSizeLength ≤ w.pipe.length) :
    ∃ size pipe, w.read receiver leftover =
        .ok { w with pipe := pipe, reading := some (.body size) } ∧
      Carries sender { w with pipe := pipe, reading := some (.body size) } inFlight := by
  have htake : (w.pipe.take messageSizeLength).length = 4 := List.length_take_of_le hsize
  have hsame : header (some (.body (ofBytes (w.pipe.take messageSizeLength)))) ++
      w.pipe.drop messageSizeLength = header w.reading ++ w.pipe := by
    rw [hreading, header, Reading.header, toBytes_ofBytes htake, List.take_append_drop]
    rfl
  refine ⟨ofBytes (w.pipe.take messageSizeLength), w.pipe.drop messageSizeLength, ?_,
    ⟨h.fits, hsame ▸ h.bytes, fun hopen => hsame.trans (h.opened hopen), fun _ => rfl, h.ending⟩⟩
  simp only [read, hreading, asyncRead, if_pos hsize]
  rw [handleReceiveSize, if_neg (by decide), ntohl_load receiver htake]

lemma handleReceive_default (w : Link) {error : ℤ} :
    w.handleReceive {} error = .ok
      { w with reading := if error ≠ operationAborted then some .size else w.reading } := by
  rw [handleReceive, Client.handleReceive, if_neg (by decide), ok_bind]
  split_ifs
  · rfl
  · rfl

lemma read_waits {reading : Reading} (hreading : w.reading = some reading)
    (hshort : w.pipe.length < reading.awaited) (hopen : w.closed = none) :
    w.read receiver leftover = .error .disabled := by
  have hread : w.asyncRead reading.awaited = none := by
    rw [asyncRead, if_neg (Nat.not_le.mpr hshort), hopen]
    rfl
  cases reading with
  | size => simp only [read, hreading, show w.asyncRead messageSizeLength = none from hread]
  | body size => simp only [read, hreading, show w.asyncRead size.toNat = none from hread]

lemma read_lost {reading : Reading} (hreading : w.reading = some reading)
    (hshort : w.pipe.length < reading.awaited) {error : ℤ} (hclosed : w.closed = some error)
    (he : error ≠ 0) :
    w.read receiver leftover = .ok { w with
      pipe := []
      reading := if error ≠ operationAborted then some .size else none } := by
  have hread : w.asyncRead reading.awaited = some (error, w.pipe, []) := by
    rw [asyncRead, if_neg (Nat.not_le.mpr hshort), hclosed]
    rfl
  cases reading with
  | size =>
    simp only [read, hreading, show w.asyncRead messageSizeLength = _ from hread,
      handleReceiveSize, if_pos he, handleReceive_default]
  | body size =>
    simp only [read, hreading, show w.asyncRead size.toNat = _ from hread,
      handleReceiveBody, if_pos he, handleReceive_default]

lemma Carries.lost (h : Carries sender w inFlight) {error : ℤ} (hclosed : w.closed = some error) :
    Carries sender { w with
      pipe := []
      reading := if error ≠ operationAborted then some .size else none } inFlight := by
  have hnone : header (if error ≠ operationAborted then some .size else none) = [] := by
    split_ifs
    · rfl
    · rfl
  refine ⟨h.fits, ?_, fun hopen => absurd (hclosed.symm.trans hopen) (by simp), ?_, h.ending⟩
  · rw [hnone]
    exact List.nil_prefix
  · intro herror
    rw [if_pos]
    · rfl
    · rintro rfl
      exact herror hclosed

/-- A read that completes either hands over the first reply under way, or nothing. -/
lemma Carries.read_cases (h : Carries sender w inFlight) :
    (w.read receiver leftover = .error .disabled ∧ (w.reading = none ∨ w.closed = none)) ∨
    (∃ pipe reading, w.read receiver leftover = .ok { w with pipe := pipe, reading := reading } ∧
      Carries sender { w with pipe := pipe, reading := reading } inFlight) ∨
    ∃ i m rest pipe, inFlight = (i, m) :: rest ∧
      w.read receiver leftover = { w with pipe := pipe, reading := none }.handleReceive m 0 ∧
      Carries sender { w with pipe := pipe, reading := some .size } rest := by
  cases hreading : w.reading with
  | none =>
    left
    simp only [read, hreading, true_or, and_true]
  | some reading =>
    rcases Nat.lt_or_ge w.pipe.length reading.awaited with hshort | hlong
    · rcases Option.eq_none_or_eq_some w.closed with hclosed | ⟨error, hclosed⟩
      · exact .inl ⟨read_waits hreading hshort hclosed, .inr hclosed⟩
      · exact .inr (.inl ⟨_, _, read_lost hreading hshort hclosed (h.ending error hclosed),
          h.lost hclosed⟩)
    · cases reading with
      | size =>
        obtain ⟨size, pipe, hread, hcarries⟩ := h.read_size hreading hlong
        exact .inr (.inl ⟨_, _, hread, hcarries⟩)
      | body size => exact .inr (.inr (h.read_body hreading hlong))

lemma deliver_client (w : Link) (i : ℕ) (m : APIMessage) (rest : List (ℕ × APIMessage)) :
    (w.client ((i, m) :: rest)).deliver 0 =
      ((w.client []).handleReceive m).map ({ · with inFlight := rest }) :=
  (w.client []).handleReceive_inFlight rest m

lemma handleReceive_reply (w : Link) (m : APIMessage) (pipe : Bytes) :
    { w with pipe := pipe, reading := none }.handleReceive m 0 =
      ((w.client []).handleReceive m).map fun c =>
        { w.setClient c with pipe := pipe, reading := some .size } := by
  have hclient : { w with pipe := pipe, reading := none }.client [] = w.client [] := rfl
  rw [handleReceive, hclient]
  cases (w.client []).handleReceive m with
  | error fault => rfl
  | ok c => rfl

/-- The session with the replies under way that the bytes stand for. -/
def Refines (sender : Endian) (w : Link) (c : Client) : Prop :=
  ∃ inFlight, c = w.client inFlight ∧ Carries sender w inFlight

lemma answer_fits {i : ℕ} {content : APIMessage} {c : Client} (hsound : Sound w (.answer i content))
    (hc : (w.client []).answer i content = .ok c) :
    ∃ reply, c.inFlight = [(i, reply)] ∧ Fits reply := by
  obtain ⟨e, he, hreply⟩ := Client.answer_ok hc
  obtain ⟨-, -, -, rfl⟩ := Client.replyWith_ok hreply
  exact ⟨_, rfl, hsound e he⟩

lemma refines_of_step {c c' : Client} (event : Event) (ht : Client.Timely c event)
    (hs : c.step event = .ok c') (h : Refines sender w' c') :
    ∃ events c', Guarded Client.step Client.Timely c events ∧
      run Client.step c events = .ok c' ∧ Refines sender w' c' :=
  ⟨[event], c', ⟨ht, fun _ _ => trivial⟩, run_cons.mpr ⟨c', hs, rfl⟩, h⟩

/-- A step on the socket is a step of the session or, when it only moves bytes, none. -/
lemma step_refines (w : Link) (event : LinkEvent) (w' : Link) (c : Client)
    (h : Refines sender w c) (hsound : Sound w event)
    (hs : w.step sender receiver leftover event = .ok w') :
    ∃ events c', Guarded Client.step Client.Timely c events ∧
      run Client.step c events = .ok c' ∧ Refines sender w' c' := by
  obtain ⟨inFlight, rfl, h⟩ := h
  cases event with
  | start request =>
    obtain ⟨c, hc, hw⟩ := bind_ok_iff.mp hs
    obtain rfl := Except.ok.inj hw
    refine refines_of_step (.start request) hsound ?_ ⟨inFlight, rfl, h.setClient c⟩
    exact ((w.client []).start_inFlight inFlight request).trans (congrArg _ hc)
  | answer i content =>
    rw [step] at hs
    split at hs
    · cases hs
    · next hopen =>
      obtain ⟨c, hc, hw⟩ := bind_ok_iff.mp hs
      obtain rfl := Except.ok.inj hw
      obtain ⟨reply, hreply, hfits⟩ := answer_fits hsound hc
      have hreplies : ∀ r ∈ c.inFlight, Fits r.2 := by
        rw [hreply]
        exact List.forall_mem_singleton.mpr hfits
      refine refines_of_step (.answer i content) trivial
        (((w.client []).answer_inFlight inFlight i content).trans (congrArg _ hc))
        ⟨inFlight ++ c.inFlight, rfl, ?_⟩
      rw [← written_eq]
      exact (h.setClient c).answer (Option.not_isSome_iff_eq_none.mp hopen) hreplies
  | close arrived error =>
    rw [step] at hs
    split at hs
    · cases hs
    · next hopen =>
      obtain rfl := Except.ok.inj hs
      exact ⟨[], _, trivial, rfl, inFlight, rfl,
        h.close (Option.not_isSome_iff_eq_none.mp (not_or.mp hopen).1) arrived (not_or.mp hopen).2⟩
  | read =>
    rcases h.read_cases with ⟨hread, -⟩ | ⟨pipe, reading, hread, hcarries⟩ |
      ⟨i, m, rest, pipe, rfl, hread, hcarries⟩
    · exact nomatch hread.symm.trans hs
    · obtain rfl := Except.ok.inj (hread.symm.trans hs)
      exact ⟨[], _, trivial, rfl, inFlight, rfl, hcarries⟩
    · rw [step, hread, handleReceive_reply] at hs
      cases hc : (w.client []).handleReceive m with
      | error fault =>
        rw [hc] at hs
        cases hs
      | ok c =>
        rw [hc] at hs
        obtain rfl := Except.ok.inj hs
        exact refines_of_step (.deliver 0) trivial
          ((deliver_client w i m rest).trans (congrArg _ hc)) ⟨rest, rfl, hcarries.setClient c⟩
  | finish i =>
    obtain ⟨c, hc, hw⟩ := bind_ok_iff.mp hs
    obtain rfl := Except.ok.inj hw
    refine refines_of_step (.finish i) trivial ?_ ⟨inFlight, rfl, h.setClient c⟩
    exact ((w.client []).finish_inFlight inFlight i).trans (congrArg _ hc)

lemma refines_connect : Refines sender connect .new :=
  ⟨[], rfl, ⟨List.forall_mem_nil _, List.prefix_rfl, fun _ => rfl, fun _ => rfl, nofun⟩⟩

end Refinement

end Link

namespace Client

variable {c c' : Client}

/-- A reply that the daemon has given is under way until the exchange has its value. -/
def Kept (c : Client) : Prop :=
  ∀ i e, c.exchanges[i]? = some e → e.reply.isSome → e.value = none → i ∈ c.inFlight.map Prod.fst

lemma kept_new : Kept new := fun _ _ he => nomatch he

lemma Kept.modify (h : Kept c) {i : ℕ} {f : Exchange → Exchange} {inFlight : List (ℕ × APIMessage)}
    (hsub : ∀ j ≠ i, j ∈ c.inFlight.map Prod.fst → j ∈ inFlight.map Prod.fst)
    (hi : ∀ e, c.exchanges[i]? = some e → (f e).reply.isSome → (f e).value = none →
      i ∈ inFlight.map Prod.fst) :
    Kept { c with exchanges := c.exchanges.modify i f, inFlight := inFlight } := by
  intro j e he hreply hvalue
  rcases of_getElem?_modify he with ⟨hne, he⟩ | ⟨rfl, e₀, he₀, rfl⟩
  · exact hsub j (Ne.symm hne) (h j e he hreply hvalue)
  · exact hi e₀ he₀ hreply hvalue

lemma step_kept (c : Client) (event : Event) (c' : Client) (h : Inv c ∧ Kept c)
    (ht : Timely c event) (hs : c.step event = .ok c') : Inv c' ∧ Kept c' := by
  refine ⟨step_inv c event c' h.1 ht hs, ?_⟩
  obtain ⟨hinv, h⟩ := h
  cases event with
  | start request =>
    rw [step, hinv.start_eq ht] at hs
    obtain rfl := Except.ok.inj hs
    intro i e he hreply hvalue
    rcases of_getElem?_concat he with he | ⟨-, rfl⟩
    · exact h i e he hreply hvalue
    · cases hreply
  | answer i content =>
    obtain ⟨e, -, hreply⟩ := answer_ok hs
    obtain ⟨-, -, -, rfl⟩ := replyWith_ok hreply
    refine h.modify (fun j _ hj => ?_) fun _ _ _ _ => ?_
    · rw [List.map_append]
      exact List.mem_append_left _ hj
    · simp
  | deliver k =>
    cases hk : c.inFlight[k]? with
    | none =>
      simp only [step, deliver, hk] at hs
      cases hs
    | some reply =>
      rw [step, hinv.deliver_eq hk] at hs
      obtain rfl := Except.ok.inj hs
      refine h.modify (fun j hj hmem => ?_) fun _ _ _ hvalue => ?_
      · obtain ⟨r, hr, rfl⟩ := List.mem_map.mp hmem
        obtain ⟨l, hl⟩ := List.mem_iff_getElem?.mp hr
        refine List.mem_map_of_mem (List.mem_eraseIdx_iff_getElem?.mpr ⟨l, ?_, hl⟩)
        rintro rfl
        exact hj (congrArg Prod.fst (Option.some.inj (hl.symm.trans hk)))
      · cases hvalue
  | finish i =>
    rcases finish_cases c i with hd | ⟨e, v, he, hr, hv⟩
    · rw [step, hd] at hs
      cases hs
    rw [step, hinv.finish_eq he hr hv] at hs
    obtain rfl := Except.ok.inj hs
    refine h.modify (fun _ _ hj => hj) fun e' he' hreply hvalue => ?_
    exact h i e' he' hreply hvalue

end Client

namespace Link

section Results

variable {sender receiver : Endian} {leftover : Bytes → APIMessage} {w w' : Link}
  {inFlight : List (ℕ × APIMessage)}

structure Tracks (sender : Endian) (w : Link) (inFlight : List (ℕ × APIMessage)) : Prop where
  carries : Carries sender w inFlight
  inv : Client.Inv (w.client inFlight)
  kept : Client.Kept (w.client inFlight)

lemma Tracks.handleReceive (h : Tracks sender w inFlight) {i : ℕ} {m : APIMessage}
    {rest : List (ℕ × APIMessage)} (hfirst : inFlight = (i, m) :: rest) {pipe : Bytes}
    (hcarries : Carries sender { w with pipe := pipe, reading := some .size } rest) :
    ∃ c, { w with pipe := pipe, reading := none }.handleReceive m 0 =
        .ok { w.setClient c with pipe := pipe, reading := some .size } ∧
      Tracks sender { w.setClient c with pipe := pipe, reading := some .size } rest := by
  subst hfirst
  have hdeliver := h.inv.deliver_eq (k := 0) (i := i) (m := m) rfl
  have hstep := Client.step_kept _ (.deliver 0) _ ⟨h.inv, h.kept⟩ trivial hdeliver
  rw [deliver_client] at hdeliver
  cases hc : (w.client []).handleReceive m with
  | error fault =>
    rw [hc] at hdeliver
    cases hdeliver
  | ok c =>
    rw [hc] at hdeliver
    rw [← Except.ok.inj hdeliver] at hstep
    refine ⟨c, ?_, ⟨hcarries.setClient c, hstep.1, hstep.2⟩⟩
    rw [handleReceive_reply, hc]
    rfl

/-- What cannot happen fails, and nothing else does. -/
lemma Tracks.safe (h : Tracks sender w inFlight) {event : LinkEvent} {fault : Fault}
    (hsound : Sound w event) (hs : w.step sender receiver leftover event = .error fault) :
    fault = .disabled := by
  cases event with
  | start request =>
    have hstart : (w.client []).start request = .error fault := by
      rcases bind_error_iff.mp hs with hs | ⟨c, -, hc⟩
      · exact hs
      · cases hc
    have hstep : (w.client inFlight).step (.start request) = .error fault :=
      ((w.client []).start_inFlight inFlight request).trans (congrArg _ hstart)
    refine h.inv.safe ?_ hstep
    exact hsound
  | answer i content =>
    rw [step] at hs
    split at hs
    · exact (Except.error.inj hs).symm
    · rcases bind_error_iff.mp hs with hs | ⟨c, -, hc⟩
      · exact Client.answer_error hs
      · cases hc
  | close arrived error =>
    rw [step] at hs
    split at hs
    · exact (Except.error.inj hs).symm
    · cases hs
  | read =>
    rcases h.carries.read_cases with ⟨hread, -⟩ | ⟨pipe, reading, hread, -⟩ |
      ⟨i, m, rest, pipe, hfirst, hread, hcarries⟩
    · exact Except.error.inj (hs.symm.trans hread)
    · exact nomatch hs.symm.trans hread
    · obtain ⟨c, hc, -⟩ := h.handleReceive hfirst hcarries
      exact nomatch hs.symm.trans (hread.trans hc)
  | finish i =>
    have hfinish : (w.client []).finish i = .error fault := by
      rcases bind_error_iff.mp hs with hs | ⟨c, -, hc⟩
      · exact hs
      · cases hc
    have hstep : (w.client inFlight).step (.finish i) = .error fault :=
      ((w.client []).finish_inFlight inFlight i).trans (congrArg _ hfinish)
    refine h.inv.safe ?_ hstep
    exact trivial

lemma Tracks.read_body (h : Tracks sender w inFlight) (hopen : w.closed = none) {size : UInt32}
    (hreading : w.reading = some (.body size)) :
    ∃ i m rest w', inFlight = (i, m) :: rest ∧ w.read receiver leftover = .ok w' ∧
      w'.closed = none ∧ Tracks sender w' rest := by
  obtain ⟨_, _, _, _, _, hsize, _, hpipe⟩ := h.carries.body hreading
  have hlong : size.toNat ≤ w.pipe.length := by
    rw [hpipe hopen, hsize, List.length_append]
    exact Nat.le_add_right _ _
  obtain ⟨i, m, rest, pipe, hfirst, hread, hcarries⟩ := h.carries.read_body hreading hlong
  obtain ⟨c, hc, htracks⟩ := h.handleReceive hfirst hcarries
  exact ⟨i, m, rest, _, hfirst, hread.trans hc, hopen, htracks⟩

/-- Reading on delivers every reply under way. -/
lemma Tracks.drains (h : Tracks sender w inFlight) (hopen : w.closed = none) :
    ∃ n w', run (step sender receiver leftover) w (List.replicate n .read) = .ok w' ∧
      Tracks sender w' [] := by
  induction inFlight generalizing w with
  | nil => exact ⟨0, w, rfl, h⟩
  | cons reply rest ih =>
    -- from within a frame one read is enough for the reply, otherwise two are
    have hbody : ∀ {w : Link} {size}, Tracks sender w (reply :: rest) → w.closed = none →
        w.reading = some (.body size) →
        ∃ n w', run (step sender receiver leftover) w (List.replicate n .read) = .ok w' ∧
          Tracks sender w' [] := by
      intro w size h hopen hreading
      obtain ⟨i, m, rest', u, hfirst, hread, hopen, htracks⟩ := h.read_body hopen hreading
      obtain ⟨-, rfl⟩ := List.cons.inj hfirst
      obtain ⟨n, w', hrun, hw'⟩ := ih htracks hopen
      exact ⟨n + 1, w', run_cons.mpr ⟨u, hread, hrun⟩, hw'⟩
    obtain ⟨reading, hreading⟩ := Option.isSome_iff_exists.mp (h.carries.looping (by simp [hopen]))
    cases reading with
    | body size => exact hbody h hopen hreading
    | size =>
      have hlong := length_of_written (List.cons_ne_nil _ _) (hreading ▸ h.carries.opened hopen)
      obtain ⟨size, pipe, hread, hcarries⟩ := h.carries.read_size hreading hlong
      obtain ⟨n, w', hrun, hw'⟩ := hbody ⟨hcarries, h.inv, h.kept⟩ hopen rfl
      exact ⟨n + 1, w', run_cons.mpr ⟨_, hread, hrun⟩, hw'⟩

lemma run_tracks {events : List LinkEvent}
    (hsound : Guarded (step sender receiver leftover) Sound connect events)
    (h : run (step sender receiver leftover) connect events = .ok w) :
    ∃ inFlight events', Guarded Client.step Client.Timely .new events' ∧
      run Client.step .new events' = .ok (w.client inFlight) ∧ Tracks sender w inFlight := by
  obtain ⟨events', c, hguarded, hrun, inFlight, rfl, hcarries⟩ :=
    guarded_simulation step_refines refines_connect hsound h
  obtain ⟨hinv, hkept⟩ := guarded_invariant Client.step_kept
    ⟨Client.inv_new, Client.kept_new⟩ hguarded hrun
  exact ⟨inFlight, events', hguarded, hrun, hcarries, hinv, hkept⟩

/-- On the socket the session runs as if whole replies were delivered to it: nothing goes wrong,
every call ends with the daemon's answer to it, and while the connection holds, reading on
brings every answer to its call. -/
theorem replies_over_stream (sender receiver : Endian) (leftover : Bytes → APIMessage)
    (events : List LinkEvent)
    (hsound : Guarded (step sender receiver leftover) Sound connect events) (w : Link)
    (h : run (step sender receiver leftover) connect events = .ok w) :
    (∃ events' c, Guarded Client.step Client.Timely .new events' ∧
      run Client.step .new events' = .ok c ∧ c.session = w.session ∧ c.exchanges = w.exchanges) ∧
    (∀ event fault, Sound w event → w.step sender receiver leftover event = .error fault →
      fault = .disabled) ∧
    (∀ e ∈ w.exchanges, ∀ r, e.result = some r → ∃ reply, e.reply = some reply ∧
      r = outcome reply) ∧
    (w.closed = none → ∃ n w',
      run (step sender receiver leftover) w (List.replicate n .read) = .ok w' ∧
        ∀ e ∈ w'.exchanges, e.reply.isSome → e.value = e.reply) := by
  obtain ⟨inFlight, events', hguarded, hrun, htracks⟩ := run_tracks hsound h
  refine ⟨⟨events', _, hguarded, hrun, rfl, rfl⟩, fun _ _ => htracks.safe,
    htracks.inv.matched.own, fun hopen => ?_⟩
  obtain ⟨n, w', hdrained, hw'⟩ := htracks.drains hopen
  refine ⟨n, w', hdrained, fun e he hreply => ?_⟩
  obtain ⟨i, hi⟩ := List.mem_iff_getElem?.mp he
  cases hvalue : e.value with
  | none => exact nomatch hw'.kept i e hi hreply hvalue
  | some v => exact ((hw'.inv.exchanges i e hi).value v hvalue).symm

def sampleReply : APIMessage := { type := some .nodeRegister, nodeRegister := some ⟨some 1⟩ }

lemma fits_sampleReply : Fits { sampleReply with messageToken := some 0 } := by
  refine fits_of_part (S := Message.NodeRegister.schema) rfl ⟨fun _ _ => trivial, trivial⟩ rfl ?_
  exact show 0 + 15 + 0 < 2 ^ 30 by decide

lemma sound_start {request : APIMessage} (h : w.exchanges.length < 2 ^ 32) :
    Sound w (.start request) := by
  intro i hi _
  exact Nat.lt_of_le_of_lt (Nat.sub_le _ _) h

lemma sound_sample (sender receiver : Endian) (leftover : Bytes → APIMessage)
    (later : List LinkEvent) (hlater : ∀ w, run (step sender receiver leftover) connect
        [.start { type := some .nodeRegister }, .answer 0 sampleReply] = .ok w →
      Guarded (step sender receiver leftover) Sound w later) :
    Guarded (step sender receiver leftover) Sound connect
      (.start { type := some .nodeRegister } :: .answer 0 sampleReply :: later) := by
  refine ⟨sound_start (by decide), fun u hu => ⟨fun e he => ?_, fun w hw => ?_⟩⟩
  · obtain rfl := Except.ok.inj hu
    obtain rfl := Option.some.inj he
    exact fits_sampleReply
  · exact hlater w (run_cons.mpr ⟨u, hu, run_cons.mpr ⟨w, hw, rfl⟩⟩)

theorem replies_over_stream_register :
    ∃ w, run (step .little .big fun _ => {}) connect
        [.start { type := some .nodeRegister }, .answer 0 sampleReply] = .ok w ∧
      ∃ n w', run (step .little .big fun _ => {}) w (List.replicate n .read) = .ok w' ∧
        ∀ e ∈ w'.exchanges, e.reply.isSome → e.value = e.reply := by
  refine ⟨_, rfl, ?_⟩
  have hsound := sound_sample .little .big (fun _ => {}) [] fun _ _ => trivial
  exact (replies_over_stream .little .big (fun _ => {}) _ hsound _ rfl).2.2.2 rfl

end Results

section Loss

variable {sender receiver : Endian} {leftover : Bytes → APIMessage} {w w' : Link}

def reply (w : Link) (i : ℕ) : Option APIMessage := w.exchanges[i]?.bind Exchange.reply

def value (w : Link) (i : ℕ) : Option APIMessage := w.exchanges[i]?.bind Exchange.value

def result (w : Link) (i : ℕ) : Option Result := w.exchanges[i]?.bind Exchange.result

lemma view_modify {α : Type} {g : Exchange → Option α} {f : Exchange → Exchange}
    (hf : ∀ e, g (f e) = g e) (exchanges : List Exchange) (i j : ℕ) :
    (exchanges.modify i f)[j]?.bind g = exchanges[j]?.bind g := by
  simp [bind_getElem?_modify, hf]

section Views

variable {α : Type} {g : Exchange → Option α} {c : Client}

lemma view_start (hg : ∀ request, g { request := request } = none) {request : APIMessage}
    (hc : (w.client []).start request = .ok c) (i : ℕ) :
    c.exchanges[i]?.bind g = w.exchanges[i]?.bind g := by
  simp only [Client.start] at hc
  split at hc
  · cases hc
  · obtain rfl := Except.ok.inj hc
    exact bind_getElem?_concat (hg _) w.exchanges i

lemma view_finish (hg : ∀ e r, g { e with result := r } = g e) {j : ℕ}
    (hc : (w.client []).finish j = .ok c) (i : ℕ) :
    c.exchanges[i]?.bind g = w.exchanges[i]?.bind g := by
  simp only [Client.finish] at hc
  split at hc
  · cases hc
  · split at hc
    · split at hc
      · obtain rfl := Except.ok.inj hc
        exact view_modify (fun e => hg e _) w.exchanges j i
      · cases hc
    · cases hc

/-- After the loss there are reads, and calls that start and finish. -/
lemma step_closed (hnew : ∀ request, g { request := request } = none)
    (hresult : ∀ e r, g { e with result := r } = g e) {error : ℤ} (hclosed : w.closed = some error)
    {event : LinkEvent} (hs : w.step sender receiver leftover event = .ok w') :
    w.read receiver leftover = .ok w' ∨
      w'.closed = w.closed ∧ w'.pipe = w.pipe ∧ w'.reading = w.reading ∧
        ∀ i : ℕ, w'.exchanges[i]?.bind g = w.exchanges[i]?.bind g := by
  cases event with
  | start request =>
    obtain ⟨c, hc, hw⟩ := bind_ok_iff.mp hs
    obtain rfl := Except.ok.inj hw
    exact .inr ⟨rfl, rfl, rfl, view_start hnew hc⟩
  | answer j content =>
    rw [step, hclosed] at hs
    cases hs
  | close arrived error' =>
    rw [step, hclosed] at hs
    cases hs
  | read => exact .inl hs
  | finish j =>
    obtain ⟨c, hc, hw⟩ := bind_ok_iff.mp hs
    obtain rfl := Except.ok.inj hw
    exact .inr ⟨rfl, rfl, rfl, view_finish hresult hc⟩

end Views

lemma reply_handleReceive {message : APIMessage} {error : ℤ}
    (h : w.handleReceive message error = .ok w') (i : ℕ) :
    w'.closed = w.closed ∧ w'.reply i = w.reply i := by
  have hclient : ∀ {c}, (w.client []).handleReceive message = .ok c →
      (w.setClient c).reply i = w.reply i := by
    intro c hc
    simp only [Client.handleReceive, Client.setValue] at hc
    split at hc
    · split at hc
      · cases hc
      · split at hc
        · cases hc
        · obtain rfl := Except.ok.inj hc
          refine view_modify ?_ w.exchanges _ i
          exact fun _ => rfl
    · obtain rfl := Except.ok.inj hc
      rfl
  obtain ⟨c, hc, hw⟩ := bind_ok_iff.mp h
  split at hw
  · obtain rfl := Except.ok.inj hw
    exact ⟨rfl, hclient hc⟩
  · obtain rfl := Except.ok.inj hw
    exact ⟨rfl, hclient hc⟩

lemma reply_read (h : w.read receiver leftover = .ok w') (i : ℕ) :
    w'.closed = w.closed ∧ w'.reply i = w.reply i := by
  rw [read.eq_def] at h
  split at h
  · cases h
  · split at h
    · cases h
    · rw [handleReceiveSize] at h
      split at h
      · exact reply_handleReceive h i
      · obtain rfl := Except.ok.inj h
        exact ⟨rfl, rfl⟩
  · split at h
    · cases h
    · rw [handleReceiveBody] at h
      split at h
      · exact reply_handleReceive h i
      · exact reply_handleReceive h i

/-- After the loss nothing is answered any more. -/
lemma step_lost {i : ℕ} {error : ℤ} (w : Link) (event : LinkEvent) (w' : Link)
    (h : w.closed = some error ∧ w.reply i = none)
    (hs : w.step sender receiver leftover event = .ok w') :
    w'.closed = some error ∧ w'.reply i = none := by
  obtain ⟨hclosed, hreply⟩ := h
  rcases step_closed (g := Exchange.reply) (fun _ => rfl) (fun _ _ => rfl) hclosed hs with
    hread | ⟨hsame, -, -, hview⟩
  · obtain ⟨hsame, hview⟩ := reply_read hread i
    exact ⟨hsame.trans hclosed, hview.trans hreply⟩
  · exact ⟨hsame.trans hclosed, (hview i).trans hreply⟩

/-- The read under way, if there is one, is of more than what is left. -/
def Drained (w : Link) : Prop :=
  ∀ reading, w.reading = some reading → w.pipe.length < reading.awaited

lemma drained_lost (w : Link) (error : ℤ) :
    Drained { w with
      pipe := []
      reading := if error ≠ operationAborted then some .size else none } := by
  intro reading hreading
  by_cases herror : error ≠ operationAborted
  · rw [if_pos herror] at hreading
    obtain rfl := Option.some.inj hreading
    change 0 < messageSizeLength
    decide
  · rw [if_neg herror] at hreading
    cases hreading

/-- Once the rest of what has arrived is no whole reply, no future gets its value any more. -/
lemma step_drained {i : ℕ} {error : ℤ} (he : error ≠ 0) (w : Link) (event : LinkEvent) (w' : Link)
    (h : w.closed = some error ∧ w.Drained ∧ w.value i = none)
    (hs : w.step sender receiver leftover event = .ok w') :
    w'.closed = some error ∧ w'.Drained ∧ w'.value i = none := by
  obtain ⟨hclosed, hdrained, hvalue⟩ := h
  rcases step_closed (g := Exchange.value) (fun _ => rfl) (fun _ _ => rfl) hclosed hs with
    hread | ⟨hsame, hpipe, hreading, hview⟩
  · cases hreading : w.reading with
    | none =>
      rw [read, hreading] at hread
      cases hread
    | some reading =>
      rw [read_lost hreading (hdrained reading hreading) hclosed he] at hread
      obtain rfl := Except.ok.inj hread
      exact ⟨hclosed, drained_lost w error, hvalue⟩
  · refine ⟨hsame.trans hclosed, ?_, (hview i).trans hvalue⟩
    rw [Drained, hpipe, hreading]
    exact hdrained

lemma Tracks.result_of_value {inFlight : List (ℕ × APIMessage)} (h : Tracks sender w inFlight)
    {i : ℕ} (hvalue : w.value i = none) : w.result i = none := by
  rw [value] at hvalue
  rw [result]
  cases he : w.exchanges[i]? with
  | none => rfl
  | some e =>
    rw [he] at hvalue
    cases hr : e.result with
    | none => exact hr
    | some r =>
      obtain ⟨v, hv, -⟩ := (h.inv.exchanges i e he).result r hr
      exact nomatch hv.symm.trans hvalue

lemma Tracks.value_of_reply {inFlight : List (ℕ × APIMessage)} (h : Tracks sender w inFlight)
    {i : ℕ} (hreply : w.reply i = none) : w.value i = none := by
  rw [reply] at hreply
  rw [value]
  cases he : w.exchanges[i]? with
  | none => rfl
  | some e =>
    rw [he] at hreply
    cases hv : e.value with
    | none => exact hv
    | some v => exact nomatch ((h.inv.exchanges i e he).value v hv).symm.trans hreply

/-- Once the connection is lost, no call that had not been answered ends, whether it was made
before or is made later, nor does one whose answer did not come through whole; and the receive
loop goes round for ever. -/
theorem lost_forever (sender receiver : Endian) (leftover : Bytes → APIMessage)
    (before later : List LinkEvent)
    (hsound : Guarded (step sender receiver leftover) Sound connect (before ++ later)) (w w' : Link)
    (hw : run (step sender receiver leftover) connect before = .ok w) (error : ℤ)
    (hclosed : w.closed = some error)
    (hw' : run (step sender receiver leftover) w later = .ok w') :
    (∀ i, w.reply i = none → w'.result i = none) ∧
      (w.Drained → ∀ i, w.value i = none → w'.result i = none) ∧
      (error ≠ operationAborted → ∃ w'', w'.step sender receiver leftover .read = .ok w'') := by
  obtain ⟨inFlight, -, -, -, htracks⟩ := run_tracks hsound (run_append hw hw')
  have hlost : ∀ i, w.reply i = none → w'.closed = some error ∧ w'.reply i = none :=
    fun i hi => invariant step_lost ⟨hclosed, hi⟩ hw'
  have hstays : w'.closed = some error := (hlost w.exchanges.length (by simp [reply])).1
  refine ⟨fun i hi => ?_, fun hdrained i hi => ?_, fun herror => ?_⟩
  · exact htracks.result_of_value (htracks.value_of_reply (hlost i hi).2)
  · have hnever := invariant (step_drained (htracks.carries.ending error hstays))
      ⟨hclosed, hdrained, hi⟩ hw'
    exact htracks.result_of_value hnever.2.2
  · have hreading : w'.reading.isSome := htracks.carries.looping (by simpa [hstays] using herror)
    rcases htracks.carries.read_cases with ⟨-, hnone | hopen⟩ | ⟨pipe, reading, hread, -⟩ |
      ⟨i, m, rest, pipe, hfirst, hread, hcarries⟩
    · rw [hnone] at hreading
      cases hreading
    · exact nomatch hstays.symm.trans hopen
    · exact ⟨_, hread⟩
    · obtain ⟨c, hc, -⟩ := htracks.handleReceive hfirst hcarries
      exact ⟨_, hread.trans hc⟩

/-- The daemon is gone when three bytes of its first answer have come through, and a third call
is made. -/
theorem lost_forever_register :
    let before : List LinkEvent := [.start { type := some .nodeRegister }, .answer 0 sampleReply,
      .start { type := some .nodeRegister }, .close 3 2]
    ∃ w w', run (step .little .big fun _ => {}) connect before = .ok w ∧
      run (step .little .big fun _ => {}) w [.start { type := some .nodeRegister }] = .ok w' ∧
      w'.result 0 = none ∧ w'.result 1 = none ∧ w'.result 2 = none ∧
      ∃ w'', w'.step .little .big (fun _ => {}) .read = .ok w'' := by
  intro before
  refine ⟨_, _, rfl, rfl, ?_⟩
  have hsound : Guarded (step .little .big fun _ => {}) Sound connect
      (before ++ [.start { type := some .nodeRegister }]) := by
    refine sound_sample .little .big (fun _ => {}) _ fun w hw => ?_
    obtain rfl := Except.ok.inj hw
    refine ⟨?_, fun u hu => ⟨trivial, fun v hv => ⟨?_, fun _ _ => trivial⟩⟩⟩
    · exact sound_start (by decide)
    · obtain rfl := Except.ok.inj hu
      obtain rfl := Except.ok.inj hv
      exact sound_start (by decide)
  obtain ⟨hresult, hcut, hread⟩ :=
    lost_forever .little .big (fun _ => {}) before _ hsound _ _ rfl 2 rfl rfl
  refine ⟨hcut ?_ 0 rfl, hresult 1 rfl, hresult 2 rfl, hread (by decide)⟩
  rintro reading ⟨⟩
  decide

end Loss

end Link

end P2PNet.Library
