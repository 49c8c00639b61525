import P2PNet.Discovery.UDPLPD

/-! The announcements of `UDPLPD`, from the bytes that one node sends to the endpoints that
another one tries. The address is that of the datagram, while the port comes from what the
buffer held before. -/

namespace P2PNet.Discovery

open Lib.Lists Lib.Runs Lib.Wire

def myVersion : UInt32 := 0

open UDPDiscoveryMessage

def getMulticastMessage (udpPort : UInt16) : Bytes :=
  serializeAsString ⟨udpPort.toUInt32, some myVersion⟩

lemma length_getMulticastMessage (udpPort : UInt16) :
    (getMulticastMessage udpPort).length = 3 + (varint udpPort.toNat).length := by
  have hfields : getMulticastMessage udpPort =
      encode [⟨1, .varint udpPort.toUInt32.toNat⟩, ⟨2, .varint 0⟩] := rfl
  rw [hfields, UInt16.toNat_toUInt32]
  simp [encode, Field.encode, Field.tag, Value.encode, Value.wireType,
    varint_of_lt (show 8 < 128 by decide), varint_of_lt (show 16 < 128 by decide),
    varint_of_lt (show 0 < 128 by decide)]
  omega

lemma length_getMulticastMessage_le (udpPort : UInt16) :
    (getMulticastMessage udpPort).length ≤ 515 := by
  have hport := udpPort.toNat_lt
  have hlen := length_varint_le udpPort.toNat
  rw [length_getMulticastMessage]
  omega

lemma parse_getMulticastMessage (udpPort : UInt16) :
    parseFromString (getMulticastMessage udpPort) = some ⟨udpPort.toUInt32, some myVersion⟩ :=
  parse_serialize (Nat.lt_of_le_of_lt (length_getMulticastMessage_le udpPort) (by decide))

/-- A node that announces itself, by its address and the port of its UDP interface. -/
structure Announcer where
  address : ℕ
  udpPort : UInt16
  deriving DecidableEq, Repr

def Announcer.datagram (a : Announcer) : Datagram :=
  ⟨a.address, getMulticastMessage a.udpPort,
    Nat.le_trans (length_getMulticastMessage_le a.udpPort) (by decide)⟩

namespace UDPLPD

lemma take_write_datagram (b : Buffer) (a : Announcer) :
    (b.write a.datagram).bytes.take (getMulticastMessage a.udpPort).length =
      getMulticastMessage a.udpPort :=
  (take_overwrite (Nat.le_refl _)).trans (List.take_length ..)

/-- With announcements of one length, the buffer starts with the last of them. -/
lemma targets_announced {n : ℕ} (as : List Announcer) (prev : Announcer) (b : Buffer)
    (hlen : ∀ a ∈ as, (getMulticastMessage a.udpPort).length = n)
    (hb : b.bytes.take n = getMulticastMessage prev.udpPort) :
    targets parseFromString b (as.map Announcer.datagram) =
      List.zipWith (fun before a => (a.address, before.udpPort)) (prev :: as) as := by
  induction as generalizing prev b with
  | nil => rfl
  | cons a as ih =>
    obtain ⟨ha, hlen⟩ := List.forall_mem_cons.mp hlen
    have hwrite := take_write_datagram b a
    rw [ha] at hwrite
    rw [List.map_cons, targets, ih a _ hlen hwrite, show a.datagram.bytes.length = n from ha, hb,
      target, parse_getMulticastMessage]
    simp [Announcer.datagram]

/-- The handler of an announcement tries the announcer's address with the port that the
announcement before it named. -/
theorem announcements_shifted (b : Buffer) (as : List Announcer) (n : ℕ)
    (hlen : ∀ a ∈ as, (getMulticastMessage a.udpPort).length = n) (events : List Event)
    (harrivals : arrivals events = as.map Announcer.datagram) (s : UDPLPD)
    (h : run (step parseFromString) (startReceiveLoop b) events = .ok s) :
    s.handshakes = ((as.take s.parsed.length).head?.bind fun a =>
        target parseFromString (b.bytes.take n) a.address).toList ++
      List.zipWith (fun before a => (a.address, before.udpPort))
        (as.take s.parsed.length) (as.take s.parsed.length).tail := by
  obtain ⟨done, hdone, hparsed, hs⟩ := run_handled h
  have hcount : s.parsed.length = done.length := by rw [hparsed, length_stale]
  have hlen : ∀ a ∈ as.take s.parsed.length, (getMulticastMessage a.udpPort).length = n :=
    fun a ha => hlen a (List.mem_of_mem_take ha)
  rw [harrivals, List.prefix_iff_eq_take, ← List.map_take, ← hcount] at hdone
  rw [hs, hdone]
  -- the first handler is given the copy that was made before anything was received
  cases hhandled : as.take s.parsed.length with
  | nil => rfl
  | cons a handled =>
    rw [hhandled, List.forall_mem_cons] at hlen
    obtain ⟨ha, hlen⟩ := hlen
    have hwrite := take_write_datagram b a
    rw [ha] at hwrite
    rw [List.map_cons, targets, targets_announced handled a _ hlen hwrite,
      show a.datagram.bytes.length = n from ha]
    rfl

/-- Two nodes that announce the ports 10000 and 10001 to a buffer of zeros. -/
theorem announcements_shifted_two :
    let b : Buffer := ⟨List.replicate maxUdpPacketSize 0, List.length_replicate⟩
    let as : List Announcer := [⟨1, 10000⟩, ⟨2, 10001⟩]
    ∃ s, run (step parseFromString) (startReceiveLoop b) (inTurn (as.map Announcer.datagram)) =
        .ok s ∧ (2, 10000) ∈ s.handshakes := by
  intro b as
  have hvarint : ∀ n, 128 ≤ n → n < 128 * 128 → (varint n).length = 2 := by
    intro n hle hlt
    rw [varint, if_neg (by omega), varint_of_lt (by omega)]
    rfl
  have hlen : ∀ a ∈ as, (getMulticastMessage a.udpPort).length = 5 := by
    intro a ha
    have hport : 128 ≤ a.udpPort.toNat ∧ a.udpPort.toNat < 128 * 128 := by
      obtain rfl | rfl := List.mem_pair.mp ha <;> decide
    rw [length_getMulticastMessage, hvarint _ hport.1 hport.2]
  obtain ⟨s, hrun, hparsed⟩ :=
    run_inTurn parseFromString b (as.map Announcer.datagram) [] []
  have hshifted := announcements_shifted b as 5 hlen _ (arrivals_inTurn _) s hrun
  refine ⟨s, hrun, ?_⟩
  rw [hshifted, hparsed]
  simp [as]

end UDPLPD

end P2PNet.Discovery
