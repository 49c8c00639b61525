import P2PNet.Common.Crypto
import P2PNet.Common.Error
import P2PNet.Lib.Runs

/-! `OverlayMessage` and `Handshake` as protobuf generates them, and the keys a
node is known by. A message is initialised if no required field is missing; only
such a message survives `SerializeAsString` and `ParseFromString`. -/

namespace P2PNet.Overlay

open Lib.Runs

inductive MessagePriority where
  | realtime
  | reliable
  deriving DecidableEq, Repr

namespace OverlayMessage

structure Header where
  srcTh : Option Bytes := none
  destTh : Option Bytes := none
  prio : Option MessagePriority := none
  deriving DecidableEq, Repr

structure Payload where
  type : Option UInt32 := none
  content : Option Bytes := none
  deriving DecidableEq, Repr

structure MultiPayload where
  payload : List Payload := []
  deriving DecidableEq, Repr

structure Body where
  openMultipayload : Option MultiPayload := none
  encryptedMultipayload : Option Bytes := none
  deriving DecidableEq, Repr

end OverlayMessage

open OverlayMessage in
structure OverlayMessage where
  header : Option Header := none
  body : Option Body := none
  deriving DecidableEq, Repr

namespace OverlayMessage

def Payload.isInitialized (p : Payload) : Bool := p.type.isSome && p.content.isSome

def Body.isInitialized (b : Body) : Bool :=
  (b.openMultipayload.getD {}).payload.all Payload.isInitialized

def isInitialized (m : OverlayMessage) : Bool :=
  m.header.any (fun h => h.srcTh.isSome) && m.body.any Body.isInitialized

def transmitted (m : OverlayMessage) : Option OverlayMessage :=
  if m.isInitialized then some m else none

def getHeader (m : OverlayMessage) : Header := m.header.getD {}

def getBody (m : OverlayMessage) : Body := m.body.getD {}

def Header.source (h : Header) : TH := h.srcTh.getD []

end OverlayMessage

def genMessageSkel (source dest : TH) : OverlayMessage :=
  { header := some { srcTh := some source, destTh := some dest } }

inductive Stage where
  | init
  | reply
  | pubkeyRotation
  | connectionRequest
  deriving DecidableEq, Repr

namespace Handshake

structure KeyInfo where
  ecdsaKey : Option Bytes := none
  expirationTime : Option ℤ := none
  loseTime : Option ℤ := none
  deriving DecidableEq, Repr

structure SignedHandshake where
  keyInfo : Option KeyInfo := none
  ecdhKey : Option Bytes := none
  deriving DecidableEq, Repr

end Handshake

structure Handshake where
  stage : Option Stage := none
  signedHandshake : Option Handshake.SignedHandshake := none
  newKeySignature : Option Bytes := none
  oldKeySignature : Option Bytes := none
  deriving DecidableEq, Repr

/-- Time points are counted in the ticks of the system clock, nanoseconds. -/
def ticksPerSecond : ℤ := 10 ^ 9

def toTimeT (time : ℤ) : ℤ := time.tdiv ticksPerSecond

structure KeyInfo (C : Crypto) where
  privateKey : Option C.PrivateKey
  publicKey : Option Bytes
  th : TH
  expirationTime : ℤ
  loseTime : ℤ

namespace KeyInfo

variable {C : Crypto}

/-- The copy constructor: both keys are copied through their pointers. -/
def copy (k : KeyInfo C) : Except Escape (KeyInfo C) :=
  match k.privateKey, k.publicKey with
  | some _, some _ => .ok k
  | _, _ => .error .absentKey

lemma copy_eq {k k' : KeyInfo C} (h : k.copy = .ok k') : k' = k := by
  rw [copy] at h
  split at h
  · exact (Except.ok.inj h).symm
  · cases h

def toProtobuf (k : KeyInfo C) : Except Escape Handshake.KeyInfo :=
  match k.publicKey with
  | some key => .ok ⟨some key, some (toTimeT k.expirationTime), some (toTimeT k.loseTime)⟩
  | none => .error .absentKey

end KeyInfo

/-- `renewKeys`, which alone adds to the history, derives the public key and the hash. -/
structure KeyProvider (C : Crypto) where
  history : List (KeyInfo C)
  derived : ∀ info ∈ history, ∃ key, info.privateKey = some key ∧
    info.publicKey = some (C.publicKey key) ∧ info.th = C.serviceHash key

namespace KeyProvider

variable {C : Crypto}

def getKeyInfo (p : KeyProvider C) (offset : ℕ) : Except Escape (Option (KeyInfo C)) :=
  match p.history[offset]? with
  | some info => info.copy >>= fun info => .ok (some info)
  | none => .ok none

def current (p : KeyProvider C) : Except Escape (KeyInfo C) := do
  match ← p.getKeyInfo 0 with
  | some info => .ok info
  | none => .error .emptyOptional

lemma mem_of_current {p : KeyProvider C} {info : KeyInfo C} (h : p.current = .ok info) :
    info ∈ p.history := by
  obtain ⟨found, hf, hc⟩ := bind_ok_iff.mp h
  cases found with
  | none => cases hc
  | some found =>
    obtain rfl := Except.ok.inj hc
    rw [getKeyInfo] at hf
    split at hf
    · next old hold =>
      obtain ⟨copied, hcopy, hsome⟩ := bind_ok_iff.mp hf
      obtain rfl := Option.some.inj (Except.ok.inj hsome)
      rw [KeyInfo.copy_eq hcopy]
      exact List.mem_of_getElem? hold
    · cases hf

lemma current_th_ne_nil {p : KeyProvider C} {info : KeyInfo C} (h : p.current = .ok info) :
    info.th ≠ [] := by
  obtain ⟨key, _, _, hth⟩ := p.derived info (mem_of_current h)
  rw [hth]
  exact C.serviceHash_ne_nil key

end KeyProvider

end P2PNet.Overlay
