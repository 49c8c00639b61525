import Mathlib.Logic.Function.Iterate
import P2PNet.Common.Crypto
import P2PNet.Lib.Words

/-! `UnixAPISocket`: frames on a byte stream, and its two receivers. The parser of
the payloads is arbitrary, and `default` is the message that `APIMessage()` makes. -/

namespace P2PNet.API

open Lib.Words

def messageSizeLength : ℕ := 4

/-- What is still to be read from a socket, and the error of a read that asks for more. -/
structure Stream where
  bytes : Bytes
  ending : ℤ
  ending_ne : ending ≠ 0

/-- `boost::asio::read`: the error, the bytes in the buffer and what is left. -/
def Stream.read (s : Stream) (n : ℕ) : ℤ × Bytes × Stream :=
  if n ≤ s.bytes.length then (0, s.bytes.take n, { s with bytes := s.bytes.drop n })
  else (s.ending, s.bytes, { s with bytes := [] })

structure Delivery (α : Type*) where
  message : α
  error : ℤ
  deriving DecidableEq, Repr

namespace UnixAPISocket

def generateSendString (endian : Endian) (content : Bytes) : Bytes :=
  let nativeSize := UInt32.ofNat content.length
  let sizeNetlong := htonl endian nativeSize
  store endian sizeNetlong ++ content

variable {α : Type*}

inductive Reading where
  | size
  | body (size : UInt32)
  deriving DecidableEq, Repr

structure Async (α : Type*) where
  stream : Stream
  reading : Option Reading
  delivered : List (Delivery α)

def asyncReceive (a : Async α) : Async α := { a with reading := some .size }

/-- `UnixAPIServer::handleReceive`, which receives again unless there was an error. -/
def receiveHandler (d : Delivery α) (a : Async α) : Async α :=
  let a := { a with delivered := a.delivered ++ [d] }
  if d.error ≠ 0 then a else asyncReceive a

lemma receiveHandler_of_error {d : Delivery α} (h : d.error ≠ 0) (a : Async α) :
    receiveHandler d a = { a with delivered := a.delivered ++ [d] } :=
  if_pos h

lemma receiveHandler_of_ok {d : Delivery α} (h : d.error = 0) (a : Async α) :
    receiveHandler d a = { a with reading := some .size, delivered := a.delivered ++ [d] } :=
  if_neg (not_not.mpr h)

variable [Inhabited α] (endian : Endian) (parse : Bytes → α)

def receive (s : Stream) : Delivery α × Stream :=
  let (error, charMessageSize, s) := s.read messageSizeLength
  if error ≠ 0 then (⟨default, error⟩, s)
  else
    let size := ntohl endian (load endian charMessageSize)
    let (error, buffer, s) := s.read size.toNat
    if error ≠ 0 then (⟨default, error⟩, s)
    else (⟨parse buffer, error⟩, s)

def handleReceiveSize (error : ℤ) (charMessageSize : Bytes) (a : Async α) : Async α :=
  if error ≠ 0 then receiveHandler ⟨default, error⟩ a
  else { a with reading := some (.body (ntohl endian (load endian charMessageSize))) }

def handleReceive (error : ℤ) (message : Bytes) (size : UInt32) (a : Async α) : Async α :=
  if error ≠ 0 then receiveHandler ⟨default, error⟩ a
  else receiveHandler ⟨parse (message.take size.toNat), error⟩ a

/-- The read under way completes; the size that `handleReceive` gets is the number of
bytes transferred. -/
def complete (a : Async α) : Async α :=
  match a.reading with
  | none => a
  | some .size =>
    let (error, buffer, stream) := a.stream.read messageSizeLength
    handleReceiveSize endian error buffer { a with stream := stream, reading := none }
  | some (.body size) =>
    let (error, buffer, stream) := a.stream.read size.toNat
    handleReceive parse error buffer (UInt32.ofNat buffer.length)
      { a with stream := stream, reading := none }

section Frames

variable {endian parse} {s : Stream}

lemma read_of_le {n : ℕ} (h : n ≤ s.bytes.length) :
    s.read n = (0, s.bytes.take n, { s with bytes := s.bytes.drop n }) :=
  if_pos h

lemma read_of_lt {n : ℕ} (h : s.bytes.length < n) :
    s.read n = (s.ending, s.bytes, { s with bytes := [] }) :=
  if_neg (by omega)

def announced (s : Stream) : ℕ := (ofBytes (s.bytes.take messageSizeLength)).toNat

lemma ntohl_load_take (h : messageSizeLength ≤ s.bytes.length) :
    (ntohl endian (load endian (s.bytes.take messageSizeLength))).toNat = announced s := by
  rw [ntohl_load endian (by simpa [messageSizeLength] using h), announced]

lemma receive_of_whole (h : messageSizeLength + announced s ≤ s.bytes.length) :
    receive endian parse s =
      (⟨parse ((s.bytes.drop messageSizeLength).take (announced s)), 0⟩,
        { s with bytes := (s.bytes.drop messageSizeLength).drop (announced s) }) := by
  have hsize : messageSizeLength ≤ s.bytes.length := by omega
  have hbody : announced s ≤ (s.bytes.drop messageSizeLength).length := by
    rw [List.length_drop]
    omega
  simp only [receive, read_of_le hsize, ntohl_load_take hsize]
  rw [read_of_le (s := { s with bytes := s.bytes.drop messageSizeLength }) hbody]
  rfl

lemma receive_of_cut (h : s.bytes.length < messageSizeLength + announced s) :
    receive endian parse s = (⟨default, s.ending⟩, { s with bytes := [] }) := by
  by_cases hsize : messageSizeLength ≤ s.bytes.length
  · have hbody : (s.bytes.drop messageSizeLength).length < announced s := by
      rw [List.length_drop]
      omega
    simp only [receive, read_of_le hsize, ntohl_load_take hsize]
    rw [read_of_lt (s := { s with bytes := s.bytes.drop messageSizeLength }) hbody]
    simp [s.ending_ne]
  · simp [receive, read_of_lt (not_le.mp hsize), s.ending_ne]

lemma receive_shorter (h : (receive endian parse s).1.error = 0) :
    (receive endian parse s).2.bytes.length < s.bytes.length := by
  by_cases hwhole : messageSizeLength + announced s ≤ s.bytes.length
  · rw [receive_of_whole hwhole]
    simp only [List.length_drop, messageSizeLength] at *
    omega
  · rw [receive_of_cut (not_le.mp hwhole)] at h
    exact absurd h s.ending_ne

variable (endian parse)

/-- `receive` again and again, until it reports an error. -/
def receiveAll (s : Stream) : List (Delivery α) :=
  if _h : (receive endian parse s).1.error = 0 then
    (receive endian parse s).1 :: receiveAll (receive endian parse s).2
  else [(receive endian parse s).1]
termination_by s.bytes.length
decreasing_by exact receive_shorter _h

variable {endian parse}

lemma receiveAll_of_ok (h : (receive endian parse s).1.error = 0) :
    receiveAll endian parse s =
      (receive endian parse s).1 :: receiveAll endian parse (receive endian parse s).2 := by
  rw [receiveAll, dif_pos h]

lemma receiveAll_of_error (h : (receive endian parse s).1.error ≠ 0) :
    receiveAll endian parse s = [(receive endian parse s).1] := by
  rw [receiveAll, dif_neg h]

lemma receiveAll_of_cut (h : s.bytes.length < messageSizeLength + announced s) :
    receiveAll endian parse s = [⟨default, s.ending⟩] := by
  have herror : (receive endian parse s).1.error ≠ 0 := by
    rw [receive_of_cut h]
    exact s.ending_ne
  rw [receiveAll_of_error herror, receive_of_cut h]

lemma generateSendString_eq (endian : Endian) (content : Bytes) :
    generateSendString endian content = toBytes (UInt32.ofNat content.length) ++ content := by
  rw [generateSendString, store_htonl]

lemma length_generateSendString (endian : Endian) (content : Bytes) :
    (generateSendString endian content).length = messageSizeLength + content.length := by
  rw [generateSendString_eq, List.length_append]
  rfl

section Frame

variable {sender : Endian} {content rest : Bytes} {ending : ℤ} {hending : ending ≠ 0}

lemma take_frame :
    (generateSendString sender content ++ rest).take messageSizeLength =
      toBytes (UInt32.ofNat content.length) := by
  rw [generateSendString_eq]
  rfl

lemma drop_frame :
    (generateSendString sender content ++ rest).drop messageSizeLength = content ++ rest := by
  rw [generateSendString_eq]
  rfl

lemma announced_eq (h : content.length < 2 ^ 32)
    (htake : s.bytes.take messageSizeLength = toBytes (UInt32.ofNat content.length)) :
    announced s = content.length := by
  rw [announced, htake, ofBytes_toBytes, UInt32.toNat_ofNat']
  exact Nat.mod_eq_of_lt h

lemma receiveAll_frame (h : content.length < 2 ^ 32) :
    receiveAll endian parse ⟨generateSendString sender content ++ rest, ending, hending⟩ =
      ⟨parse content, 0⟩ :: receiveAll endian parse ⟨rest, ending, hending⟩ := by
  have hsize : announced ⟨generateSendString sender content ++ rest, ending, hending⟩ =
      content.length := announced_eq h take_frame
  have hreceive :
      receive endian parse ⟨generateSendString sender content ++ rest, ending, hending⟩ =
      (⟨parse content, 0⟩, ⟨rest, ending, hending⟩) := by
    rw [receive_of_whole, hsize, drop_frame, List.take_left, List.drop_left]
    rw [hsize, List.length_append, length_generateSendString]
    omega
  rw [receiveAll_of_ok (by rw [hreceive]), hreceive]

lemma receiveAll_frame_cut (h : content.length < 2 ^ 32) {n : ℕ}
    (hn : n < messageSizeLength + content.length) :
    receiveAll endian parse
        ⟨(generateSendString sender content ++ rest).take n, ending, hending⟩ =
      [⟨default, ending⟩] := by
  apply receiveAll_of_cut
  have hlength := List.length_take_le n (generateSendString sender content ++ rest)
  by_cases hheader : messageSizeLength ≤ n
  · rw [announced_eq h]
    · exact hlength.trans_lt hn
    · rw [List.take_take, min_eq_left hheader, take_frame]
  · exact hlength.trans_lt (by omega)

theorem receiveAll_take (payloads : List Bytes) (h : ∀ content ∈ payloads, content.length < 2 ^ 32)
    (n : ℕ) :
    ∃ k ≤ payloads.length,
      (∀ j ≤ payloads.length,
        ((payloads.take j).flatMap (generateSendString sender)).length ≤ n ↔ j ≤ k) ∧
      receiveAll endian parse
          ⟨(payloads.flatMap (generateSendString sender)).take n, ending, hending⟩ =
        (payloads.take k).map (⟨parse ·, 0⟩) ++ [⟨default, ending⟩] := by
  induction payloads generalizing n with
  | nil =>
    refine ⟨0, le_rfl, by simp, ?_⟩
    rw [receiveAll_of_cut]
    · rfl
    · simp [messageSizeLength]
  | cons content payloads ih =>
    have hcontent := h content (by simp)
    have hlength := length_generateSendString sender content
    by_cases hn : messageSizeLength + content.length ≤ n
    · obtain ⟨k, hk, hcomplete, hreceived⟩ := ih (fun c hc => h c (by simp [hc]))
        (n - (messageSizeLength + content.length))
      refine ⟨k + 1, by simpa using hk, ?_, ?_⟩
      · rintro (_ | j) hj
        · simp
        · have hrest := hcomplete j (by simpa using hj)
          simp only [List.take_succ_cons, List.flatMap_cons, List.length_append, hlength]
          omega
      · rw [List.flatMap_cons, List.take_append, List.take_of_length_le (by omega),
          receiveAll_frame hcontent, hlength, hreceived]
        rfl
    · refine ⟨0, Nat.zero_le _, ?_, ?_⟩
      · rintro (_ | j) hj
        · simp
        · simp only [List.take_succ_cons, List.flatMap_cons, List.length_append, hlength]
          omega
      · rw [List.flatMap_cons, receiveAll_frame_cut hcontent (by omega)]
        rfl

end Frame

end Frames

section Chain

variable {endian parse}

lemma complete_of_idle {a : Async α} (h : a.reading = none) : complete endian parse a = a := by
  rw [complete, h]

lemma complete_body {s : Stream} {size : UInt32} (h : size.toNat ≤ s.bytes.length)
    (delivered : List (Delivery α)) :
    complete endian parse ⟨s, some (.body size), delivered⟩ =
      receiveHandler ⟨parse (s.bytes.take size.toNat), 0⟩
        ⟨{ s with bytes := s.bytes.drop size.toNat }, none, delivered⟩ := by
  have htransferred : (UInt32.ofNat (s.bytes.take size.toNat).length).toNat = size.toNat := by
    rw [List.length_take, min_eq_left h, UInt32.ofNat_toNat]
  simp only [complete, read_of_le h, handleReceive, htransferred, List.take_take, min_self]
  rfl

lemma complete_body_cut {s : Stream} {size : UInt32} (h : s.bytes.length < size.toNat)
    (delivered : List (Delivery α)) :
    complete endian parse ⟨s, some (.body size), delivered⟩ =
      receiveHandler ⟨default, s.ending⟩ ⟨{ s with bytes := [] }, none, delivered⟩ := by
  simp [complete, read_of_lt h, handleReceive, s.ending_ne]

/-- The two reads of the chain do what one `receive` does. -/
lemma complete_complete (s : Stream) (delivered : List (Delivery α)) :
    complete endian parse (complete endian parse ⟨s, some .size, delivered⟩) =
      receiveHandler (receive endian parse s).1 ⟨(receive endian parse s).2, none, delivered⟩ := by
  by_cases hsize : messageSizeLength ≤ s.bytes.length
  · have hfirst : complete endian parse ⟨s, some .size, delivered⟩ =
        ⟨{ s with bytes := s.bytes.drop messageSizeLength },
          some (.body (ntohl endian (load endian (s.bytes.take messageSizeLength)))),
          delivered⟩ := by
      simp only [complete, read_of_le hsize]
      rfl
    have hannounced : (ntohl endian (load endian (s.bytes.take messageSizeLength))).toNat =
        announced s := ntohl_load_take hsize
    rw [hfirst]
    by_cases hwhole : messageSizeLength + announced s ≤ s.bytes.length
    · rw [receive_of_whole hwhole, complete_body, hannounced]
      rw [hannounced, List.length_drop]
      omega
    · rw [receive_of_cut (not_le.mp hwhole), complete_body_cut]
      rw [hannounced, List.length_drop]
      omega
  · have hfirst : complete endian parse ⟨s, some .size, delivered⟩ =
        ⟨{ s with bytes := [] }, none, delivered ++ [⟨default, s.ending⟩]⟩ := by
      simp only [complete, read_of_lt (not_le.mp hsize), handleReceiveSize, if_pos s.ending_ne]
      exact receiveHandler_of_error s.ending_ne _
    rw [receive_of_cut (by omega), hfirst, complete_of_idle rfl,
      receiveHandler_of_error s.ending_ne]

variable (endian parse) in
lemma chain_ends (s : Stream) (delivered : List (Delivery α)) :
    ∃ k, ((complete endian parse)^[k] ⟨s, some .size, delivered⟩).reading = none ∧
      ((complete endian parse)^[k] ⟨s, some .size, delivered⟩).delivered =
        delivered ++ receiveAll endian parse s := by
  induction hlength : s.bytes.length using Nat.strong_induction_on generalizing s delivered with
  | _ length ih =>
    by_cases hok : (receive endian parse s).1.error = 0
    · obtain ⟨k, hidle, hdelivered⟩ := ih _ (hlength ▸ receive_shorter hok)
        (receive endian parse s).2 (delivered ++ [(receive endian parse s).1]) rfl
      refine ⟨k + 2, ?_⟩
      rw [Function.iterate_add_apply, Function.iterate_succ_apply, Function.iterate_one,
        complete_complete, receiveHandler_of_ok hok, receiveAll_of_ok hok]
      refine ⟨hidle, hdelivered.trans ?_⟩
      rw [List.append_assoc]
      rfl
    · refine ⟨2, ?_⟩
      rw [Function.iterate_succ_apply, Function.iterate_one, complete_complete,
        receiveHandler_of_error hok, receiveAll_of_error hok]
      exact ⟨rfl, rfl⟩

lemma delivered_complete (a : Async α) : a.delivered <+: (complete endian parse a).delivered := by
  have hhandler : ∀ (d : Delivery α) (stream : Stream),
      a.delivered <+: (receiveHandler d ⟨stream, none, a.delivered⟩).delivered := by
    intro d stream
    by_cases hd : d.error = 0
    · rw [receiveHandler_of_ok hd]
      exact List.prefix_append _ _
    · rw [receiveHandler_of_error hd]
      exact List.prefix_append _ _
  rcases hreading : a.reading with _ | _ | size
  · simp [complete_of_idle hreading]
  · simp only [complete, hreading, handleReceiveSize]
    split
    · exact hhandler _ _
    · exact List.prefix_rfl
  · simp only [complete, hreading, handleReceive]
    split
    · exact hhandler _ _
    · exact hhandler _ _

lemma delivered_iterate (a : Async α) {m n : ℕ} (h : m ≤ n) :
    ((complete endian parse)^[m] a).delivered <+: ((complete endian parse)^[n] a).delivered := by
  induction n, h using Nat.le_induction with
  | base => exact List.prefix_rfl
  | succ n _ ih =>
    rw [Function.iterate_succ_apply']
    exact ih.trans (delivered_complete _)

/-- The chain delivers what repeated calls of `receive` return, on every stream. -/
theorem chain_eq_receiveAll (s : Stream) :
    let delivered := fun n => ((complete endian parse)^[n] (asyncReceive ⟨s, none, []⟩)).delivered
    (∃ k, ∀ n ≥ k, delivered n = receiveAll endian parse s) ∧
      ∀ n, delivered n <+: receiveAll endian parse s := by
  obtain ⟨k, hidle, hdelivered⟩ := chain_ends endian parse s []
  have hstable : ∀ n ≥ k,
      ((complete endian parse)^[n] (asyncReceive ⟨s, none, []⟩)).delivered =
        receiveAll endian parse s := by
    intro n hn
    obtain ⟨m, rfl⟩ := Nat.exists_eq_add_of_le' hn
    rw [Function.iterate_add_apply]
    refine (congrArg Async.delivered ?_).trans hdelivered
    exact Function.iterate_fixed (complete_of_idle hidle) m
  refine ⟨⟨k, hstable⟩, fun n => ?_⟩
  rw [← hstable (max n k) (le_max_right n k)]
  exact delivered_iterate _ (le_max_left n k)

end Chain

theorem frames_received (sender receiver : Endian) (parse : Bytes → α) (ending : ℤ)
    (hending : ending ≠ 0) (payloads : List Bytes)
    (h : ∀ payload ∈ payloads, payload.length < 2 ^ 32) :
    let stream := payloads.flatMap (generateSendString sender)
    let received := fun bytes => receiveAll receiver parse ⟨bytes, ending, hending⟩
    received stream = payloads.map (⟨parse ·, 0⟩) ++ [⟨default, ending⟩] ∧
    (∀ n, ∃ k ≤ payloads.length,
      (∀ j ≤ payloads.length,
        ((payloads.take j).flatMap (generateSendString sender)).length ≤ n ↔ j ≤ k) ∧
      received (stream.take n) =
        (payloads.take k).map (⟨parse ·, 0⟩) ++ [⟨default, ending⟩]) ∧
    ∀ bytes,
      let delivered := fun n =>
        ((complete receiver parse)^[n]
          (asyncReceive ⟨⟨bytes, ending, hending⟩, none, []⟩)).delivered
      (∃ k, ∀ n ≥ k, delivered n = received bytes) ∧ ∀ n, delivered n <+: received bytes := by
  intro stream received
  have hcut : ∀ n, ∃ k ≤ payloads.length,
      (∀ j ≤ payloads.length,
        ((payloads.take j).flatMap (generateSendString sender)).length ≤ n ↔ j ≤ k) ∧
      received (stream.take n) =
        (payloads.take k).map (⟨parse ·, 0⟩) ++ [⟨default, ending⟩] := receiveAll_take payloads h
  refine ⟨?_, hcut, fun bytes => chain_eq_receiveAll _⟩
  obtain ⟨k, hk, hcomplete, hreceived⟩ := hcut stream.length
  have hall : payloads.length ≤ k := (hcomplete _ le_rfl).mp (by rw [List.take_length])
  rwa [List.take_length, List.take_of_length_le hall] at hreceived

theorem frames_received_cut :
    let stream := [[7, 8], [], [9]].flatMap (generateSendString .little)
    stream = [0, 0, 0, 2, 7, 8, 0, 0, 0, 0, 0, 0, 0, 1, 9] ∧
      receiveAll .little id ⟨stream, 2, by decide⟩ =
        [⟨[7, 8], 0⟩, ⟨[], 0⟩, ⟨[9], 0⟩, ⟨[], 2⟩] ∧
      receiveAll .big id ⟨stream.take 14, 2, by decide⟩ = [⟨[7, 8], 0⟩, ⟨[], 0⟩, ⟨[], 2⟩] := by
  intro stream
  refine ⟨by decide, (frames_received .little .little id 2 (by decide) _ (by decide)).1, ?_⟩
  obtain ⟨k, -, hcomplete, hreceived⟩ :=
    (frames_received .little .big id 2 (by decide) [[7, 8], [], [9]] (by decide)).2.1 14
  have htwo : 2 ≤ k := (hcomplete 2 (by decide)).mp (by decide)
  have hthree : ¬3 ≤ k := fun h => absurd ((hcomplete 3 (by decide)).mpr h) (by decide)
  obtain rfl : k = 2 := by omega
  exact hreceived

end UnixAPISocket

end P2PNet.API
