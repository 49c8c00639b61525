import P2PNet.Overlay.Handshaking

/-! `node_info`, the key that an `overlay::Connection` has of its peer. The message
skeleton is made from a copy of it, and a copy goes through both key pointers. -/

namespace P2PNet.Overlay

open Lib.Runs OverlayMessage

variable {C : Crypto}

def fromTimeT (time : ℤ) : ℤ := time * ticksPerSecond

namespace KeyInfo

/-- `loadKey` is `X509::load_key` with the cast after it: it throws, or it gives no key if the
bytes hold one that is not for ECDSA. `TH` takes the new key by value. -/
def fromProtobuf (loadKey : Bytes → Except Escape (Option Bytes)) (keyInfo : Handshake.KeyInfo)
    (k : KeyInfo C) : Except Escape (KeyInfo C) := do
  match ← loadKey (keyInfo.ecdsaKey.getD []) with
  | none => .error .absentKey
  | some key => .ok { k with
      publicKey := some key
      th := C.keccak key
      expirationTime := fromTimeT (keyInfo.expirationTime.getD 0)
      loseTime := fromTimeT (keyInfo.loseTime.getD 0) }

def Complete (k : KeyInfo C) : Prop := k.privateKey ≠ none ∧ k.publicKey ≠ none

lemma copy_of_complete {k : KeyInfo C} (h : k.Complete) : k.copy = .ok k := by
  obtain ⟨key, hkey⟩ := Option.ne_none_iff_exists'.mp h.1
  obtain ⟨publicKey, hpublic⟩ := Option.ne_none_iff_exists'.mp h.2
  simp [copy, hkey, hpublic]

lemma copy_of_not_complete {k : KeyInfo C} (h : ¬k.Complete) : k.copy = .error .absentKey := by
  rw [copy]
  split
  · next hkey hpublic => exact absurd ⟨by simp [hkey], by simp [hpublic]⟩ h
  · rfl

lemma copy_ok_iff {k k' : KeyInfo C} : k.copy = .ok k' ↔ k.Complete ∧ k' = k := by
  constructor
  · intro h
    refine ⟨?_, copy_eq h⟩
    by_contra hk
    rw [copy_of_not_complete hk] at h
    cases h
  · rintro ⟨hk, rfl⟩
    exact copy_of_complete hk

lemma privateKey_fromProtobuf {loadKey : Bytes → Except Escape (Option Bytes)}
    {keyInfo : Handshake.KeyInfo} {k k' : KeyInfo C}
    (h : k.fromProtobuf loadKey keyInfo = .ok k') : k'.privateKey = k.privateKey := by
  obtain ⟨key, -, h⟩ := bind_ok_iff.mp h
  cases key with
  | none => cases h
  | some key =>
    obtain rfl := Except.ok.inj h
    rfl

end KeyInfo

namespace Connection

def updateExpirationTime (expiryTime : ℤ) (c : Connection C) : Connection C :=
  -- this is to prevent spoofing
  if expiryTime > c.nodeInfo.expirationTime then
    { c with nodeInfo := { c.nodeInfo with expirationTime := expiryTime } }
  else c

def updateLoseTime (lostTime : ℤ) (c : Connection C) : Connection C :=
  { c with nodeInfo := { c.nodeInfo with loseTime := lostTime } }

inductive Update (C : Crypto) where
  | call (e : Event C)
  | expirationTime (expiryTime : ℤ)
  | loseTime (lostTime : ℤ)
  | fromProtobuf (loadKey : Bytes → Except Escape (Option Bytes)) (keyInfo : Handshake.KeyInfo)

def update (c : Connection C) : Update C → Except Escape (Connection C)
  | .call e => do
    let (c, _) ← c.perform e
    .ok c
  | .expirationTime expiryTime => .ok (c.updateExpirationTime expiryTime)
  | .loseTime lostTime => .ok (c.updateLoseTime lostTime)
  | .fromProtobuf loadKey keyInfo => do
    let nodeInfo ← c.nodeInfo.fromProtobuf loadKey keyInfo
    .ok { c with nodeInfo := nodeInfo }

/-- No update brings a private key of the peer. -/
lemma privateKey_update (c : Connection C) (u : Update C) (c' : Connection C)
    (hnone : c.nodeInfo.privateKey = none) (h : c.update u = .ok c') :
    c'.nodeInfo.privateKey = none := by
  cases u with
  | call e =>
    obtain ⟨⟨c₁, actions⟩, hperform, h⟩ := bind_ok_iff.mp h
    obtain rfl := Except.ok.inj h
    rw [nodeInfo_perform hperform]
    exact hnone
  | expirationTime expiryTime =>
    obtain rfl := Except.ok.inj h
    rw [updateExpirationTime]
    split
    · exact hnone
    · exact hnone
  | loseTime lostTime =>
    obtain rfl := Except.ok.inj h
    exact hnone
  | fromProtobuf loadKey keyInfo =>
    obtain ⟨nodeInfo, hinfo, h⟩ := bind_ok_iff.mp h
    obtain rfl := Except.ok.inj h
    exact (KeyInfo.privateKey_fromProtobuf hinfo).trans hnone

lemma messageSkel_ok_iff {keys : KeyProvider C} {c : Connection C} {message : OverlayMessage} :
    c.messageSkel keys = .ok message ↔ ∃ info, keys.current = .ok info ∧ c.nodeInfo.Complete ∧
      message = genMessageSkel info.th c.nodeInfo.th := by
  rw [messageSkel, bind_ok_iff]
  constructor
  · rintro ⟨info, hinfo, h⟩
    obtain ⟨remote, hremote, h⟩ := bind_ok_iff.mp h
    obtain ⟨hcomplete, rfl⟩ := KeyInfo.copy_ok_iff.mp hremote
    exact ⟨info, hinfo, hcomplete, (Except.ok.inj h).symm⟩
  · rintro ⟨info, hinfo, hcomplete, rfl⟩
    refine ⟨info, hinfo, bind_ok_iff.mpr ⟨c.nodeInfo, ?_, rfl⟩⟩
    exact KeyInfo.copy_of_complete hcomplete

theorem skeleton_iff :
    (∀ k : KeyInfo C, (k.copy = .ok k ↔ k.privateKey ≠ none ∧ k.publicKey ≠ none) ∧
      (k.copy = .error .absentKey ↔ k.privateKey = none ∨ k.publicKey = none)) ∧
    (∀ (keys : KeyProvider C) (c : Connection C) (message : OverlayMessage),
      c.messageSkel keys = .ok message ↔
        ∃ info, keys.current = .ok info ∧ c.nodeInfo.privateKey ≠ none ∧
          c.nodeInfo.publicKey ≠ none ∧ message = genMessageSkel info.th c.nodeInfo.th) ∧
    ∀ (th : TH) (updates : List (Update C)) (c : Connection C),
      run update (Connection.new th) updates = .ok c →
      c.nodeInfo.privateKey = none ∧ c.remoteKeyInfo = .error .absentKey ∧
        ∀ keys message, c.messageSkel keys ≠ .ok message := by
  refine ⟨?_, ?_, ?_⟩
  · intro k
    by_cases hk : k.Complete
    · have hpresent : ¬(k.privateKey = none ∨ k.publicKey = none) := not_or.mpr hk
      rw [KeyInfo.copy_of_complete hk]
      exact ⟨iff_of_true rfl hk, iff_of_false (by simp) hpresent⟩
    · have habsent : k.privateKey = none ∨ k.publicKey = none := by
        by_contra hpresent
        exact hk (not_or.mp hpresent)
      rw [KeyInfo.copy_of_not_complete hk]
      exact ⟨iff_of_false (by simp) hk, iff_of_true rfl habsent⟩
  · intro keys c message
    rw [messageSkel_ok_iff]
    simp only [KeyInfo.Complete, and_assoc]
  · intro th updates c h
    have hnone : c.nodeInfo.privateKey = none := invariant privateKey_update rfl h
    have hincomplete : ¬c.nodeInfo.Complete := fun hcomplete => hcomplete.1 hnone
    refine ⟨hnone, KeyInfo.copy_of_not_complete hincomplete, ?_⟩
    intro keys message hskel
    obtain ⟨_, -, hcomplete, -⟩ := messageSkel_ok_iff.mp hskel
    exact hincomplete hcomplete

/-- The public key that a fresh connection then learns does not help. -/
theorem skeleton_dereferences_null :
    (Connection.new [1] : Connection sampleCrypto).messageSkel Socket.sampleKeys =
        .error .absentKey ∧
      ∃ c, (Connection.new [1] : Connection sampleCrypto).update
          (.fromProtobuf (fun key => .ok (some key)) ⟨some (samplePublicKey 1), some 5, some 9⟩) =
            .ok c ∧
        c.nodeInfo.publicKey = some (samplePublicKey 1) ∧
        c.remoteKeyInfo = .error .absentKey := by
  exact ⟨rfl, _, rfl, rfl, rfl⟩

end Connection

end P2PNet.Overlay
