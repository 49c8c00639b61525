import P2PNet.API.Effects
import P2PNet.Common.MathString
import P2PNet.P2P.Rebinding

/-! The key of a `NODE_BIND` request. The two forms of one key bind the node to
the same hash; a string that is no base58 is read as the number that some base58
string denotes. -/

namespace P2PNet.API

open Lib P2P

namespace APIMessage

def setBinaryPrivateKey (m : APIMessage) (key : Bytes) : APIMessage :=
  { m with nodeBind := some { m.nodeBind.getD {} with binaryPrivateKey := some key } }

def setB58PrivateKey (m : APIMessage) (key : Bytes) : APIMessage :=
  { m with nodeBind := some { m.nodeBind.getD {} with b58PrivateKey := some key } }

lemma binaryPrivateKey_setB58 (m : APIMessage) (key : Bytes) :
    (m.setB58PrivateKey key).binaryPrivateKey = m.binaryPrivateKey := rfl

lemma bindId_setB58 (m : APIMessage) (key : Bytes) :
    (m.setB58PrivateKey key).bindId = m.bindId := rfl

end APIMessage

namespace World

variable {C : Crypto} {env : Env C} {request : APIMessage} {w : World C}

lemma suppliedKey_setBinary (env : Env C) (request : APIMessage) (key : Bytes) :
    suppliedKey env (request.setBinaryPrivateKey key) = some (C.fromBinaryString env.rng key) :=
  rfl

lemma suppliedKey_setB58 (h : request.binaryPrivateKey = none) (env : Env C) (key : Bytes) :
    suppliedKey env (request.setB58PrivateKey key) = some (C.fromBase58 env.rng key) := by
  rw [suppliedKey, APIMessage.binaryPrivateKey_setB58, h]
  rfl

lemma suppliedKey_congr {t u : Bytes} (h : decodeFromBase58 t = decodeFromBase58 u) (env : Env C)
    (request : APIMessage) :
    suppliedKey env (request.setB58PrivateKey t) =
      suppliedKey env (request.setB58PrivateKey u) := by
  have hkey : C.fromBase58 env.rng t = C.fromBase58 env.rng u := by
    rw [Crypto.fromBase58, h, Crypto.fromBase58]
  cases hb : request.binaryPrivateKey with
  | none => rw [suppliedKey_setB58 hb, suppliedKey_setB58 hb, hkey]
  | some key =>
    rw [suppliedKey, suppliedKey, APIMessage.binaryPrivateKey_setB58,
      APIMessage.binaryPrivateKey_setB58, hb]

lemma after_nodeBind {entry : NodeT} {key : C.PrivateKey}
    (he : w.session.nodes.find request.bindId = some entry)
    (hk : suppliedKey env request = some (some key)) :
    (after (w.nodeBind env request)).manager = stateAfter (w.manager.bind entry.node key) := by
  rw [nodeBind_eq, he]
  simp only [hk, bindKey, call]
  cases w.manager.bind entry.node key with
  | ok m => rfl
  | error e => rfl

lemma after_nodeBind_congr {request' : APIMessage} (hid : request.bindId = request'.bindId)
    (hk : suppliedKey env request = suppliedKey env request') :
    (after (w.nodeBind env request)).manager = (after (w.nodeBind env request')).manager := by
  rw [nodeBind_eq, nodeBind_eq, hid, hk]
  cases w.session.nodes.find request'.bindId with
  | none => rfl
  | some entry =>
    cases suppliedKey env request' with
    | none => rfl
    | some key =>
      dsimp only
      cases w.bindKey entry.node key with
      | ok w' => rfl
      | error e => rfl

/-- Whatever characters a string has, a base58 string denotes the same bytes and binds a node in
the same way. -/
theorem every_string_reads_as_base58 (t : Bytes) (hlen : t.length + 10 < 2 ^ 31) :
    ∃ u, (∀ c ∈ u, c ∈ base58Alphabet) ∧ decodeFromBase58 t = decodeFromBase58 u ∧
      ∀ (C : Crypto) (env : Env C) (request : APIMessage) (w : World C),
        (after (w.nodeBind env (request.setB58PrivateKey t))).manager =
          (after (w.nodeBind env (request.setB58PrivateKey u))).manager := by
  have hle := length_encode_decode_le t
  have hshort : (encodeToBase58 (decodeFromBase58 t)).length < 2 ^ 31 := by omega
  have hsame : decodeFromBase58 t = decodeFromBase58 (encodeToBase58 (decodeFromBase58 t)) := by
    -- the decoder writes the number with no zero byte in front, so nothing is dropped
    rw [decode_encode hshort, ← bigIntEncode_decode, decodeFromBase58_eq, bigIntDecode_encode]
  refine ⟨encodeToBase58 (decodeFromBase58 t), fun c hc => mem_alphabet_of_mem_encode hc, hsame, ?_⟩
  intro C env request w
  apply after_nodeBind_congr
  · rw [APIMessage.bindId_setB58, APIMessage.bindId_setB58]
  · exact suppliedKey_congr hsame env request

theorem every_string_reads_as_base58_zero :
    ∃ u, (∀ c ∈ u, c ∈ base58Alphabet) ∧ decodeFromBase58 u = List.replicate 8 255 ∧
      ∀ (env : Env sampleCrypto) (request : APIMessage) (w : World sampleCrypto),
        (after (w.nodeBind env (request.setB58PrivateKey [48]))).manager =
          (after (w.nodeBind env (request.setB58PrivateKey u))).manager := by
  obtain ⟨u, hu, hsame, hbind⟩ := every_string_reads_as_base58 [48] (by decide)
  exact ⟨u, hu, hsame.symm.trans (by decide +kernel), hbind sampleCrypto⟩

/-- `0` is no base58 character; it is read as the digit `npos`, like the string `JPwcyDCgEup`. -/
theorem zero_reads_as_base58 :
    ¬ (48 ∈ base58Alphabet) ∧
      (∀ c ∈ [74, 80, 119, 99, 121, 68, 67, 103, 69, 117, 112], c ∈ base58Alphabet) ∧
      decodeFromBase58 [48] = List.replicate 8 255 ∧
      decodeFromBase58 [74, 80, 119, 99, 121, 68, 67, 103, 69, 117, 112] = List.replicate 8 255 ∧
      ∀ (C : Crypto) (rng : C.Rng), C.fromBase58 rng [48] =
        C.fromBase58 rng [74, 80, 119, 99, 121, 68, 67, 103, 69, 117, 112] := by
  have hzero : decodeFromBase58 [48] = List.replicate 8 255 := by decide +kernel
  have hword : decodeFromBase58 [74, 80, 119, 99, 121, 68, 67, 103, 69, 117, 112] =
      List.replicate 8 255 := by decide +kernel
  refine ⟨by decide +kernel, by decide +kernel, hzero, hword, fun C rng => ?_⟩
  rw [Crypto.fromBase58, hzero, Crypto.fromBase58, hword]

theorem key_forms_agree (B : PrivateValues C) {key : C.PrivateKey} (hpos : 1 ≤ B.privateValue key)
    (hlt : B.privateValue key < secp256r1Order) :
    ∃ s t, (∀ rng, (B.mathString rng).toBinaryString key = some s ∧
        (B.mathString rng).toBase58 key = some t) ∧ s.length = 32 ∧
      (∀ rng, ∃ key', (B.mathString rng).fromBinaryString s = some key' ∧
        B.privateValue key' = B.privateValue key) ∧
      (∀ rng, ∃ key', (B.mathString rng).fromBase58 t = some key' ∧
        B.privateValue key' = B.privateValue key) ∧
      ∀ (env env' : Env C) (request : APIMessage) (w : World C) (entry : NodeT) (object : Node C),
        request.binaryPrivateKey = none → w.session.nodes.find request.bindId = some entry →
        w.manager.heap.find entry.node = some object →
        let m := (after (w.nodeBind env (request.setBinaryPrivateKey s))).manager
        let m' := (after (w.nodeBind env' (request.setB58PrivateKey t))).manager
        m.getLocalSH entry.node = some (C.serviceHash key) ∧
          m'.getLocalSH entry.node = some (C.serviceHash key) ∧
          m.nodesBound = m'.nodesBound ∧ m.nodesUnbound = m'.nodesUnbound := by
  have hs := B.toBinaryVector_eq hlt
  set s := List.replicate (dsaByteLength - (bigIntEncode (B.privateValue key)).length) 0 ++
    bigIntEncode (B.privateValue key) with hsdef
  have hload := B.fromBinaryString_toBinaryVector hpos hlt hs
  have hb58 : ∀ rng, C.fromBase58 rng (encodeToBase58 s) = C.fromBinaryString rng s :=
    fun rng => PrivateValues.fromBase58_encode rng (by rw [B.length_toBinaryVector hs]; decide)
  refine ⟨s, encodeToBase58 s, fun rng => ⟨hs, ?_⟩, B.length_toBinaryVector hs, hload,
    fun rng => ?_, ?_⟩
  · rw [MathString.toBase58, show (B.mathString rng).toBinaryString key = some s from hs,
      Option.map_some]
  · rw [B.fromBase58_eq, hb58, ← B.fromBinaryString_eq]
    exact hload rng
  · intro env env' request w entry object hnone he ho
    obtain ⟨k, hk, hvalue⟩ := hload env.rng
    obtain ⟨k', hk', hvalue'⟩ := hload env'.rng
    have hbinary : suppliedKey env (request.setBinaryPrivateKey s) = some (some k) := by
      rw [suppliedKey_setBinary, hk]
    have hprinted : suppliedKey env' (request.setB58PrivateKey (encodeToBase58 s)) =
        some (some k') := by
      rw [suppliedKey_setB58 hnone, hb58, hk']
    have hm : (after (w.nodeBind env (request.setBinaryPrivateKey s))).manager =
        stateAfter (w.manager.bind entry.node k) := after_nodeBind he hbinary
    have hm' : (after (w.nodeBind env' (request.setB58PrivateKey (encodeToBase58 s)))).manager =
        stateAfter (w.manager.bind entry.node k') := after_nodeBind he hprinted
    have hsh := B.serviceHash_congr hvalue
    have hsh' := B.serviceHash_congr hvalue'
    obtain ⟨hbound, hunbound⟩ := NodeManager.containers_after_bind ho k
    obtain ⟨hbound', hunbound'⟩ := NodeManager.containers_after_bind ho k'
    dsimp only
    rw [hm, hm', NodeManager.getLocalSH_after_bind ho, NodeManager.getLocalSH_after_bind ho,
      hbound, hbound', hunbound, hunbound', hsh, hsh']
    exact ⟨rfl, rfl, rfl, rfl⟩

theorem key_forms_agree_registered :
    ∃ s t, samplePrivateValues.toBinaryVector (1 : ℕ) = some s ∧ s.length = 32 ∧
      (samplePrivateValues.mathString ()).toBase58 (1 : ℕ) = some t ∧
      ∃ w : World sampleCrypto, ∃ request : APIMessage,
        (after (w.nodeBind ⟨(), 0⟩ (request.setBinaryPrivateKey s))).manager.getLocalSH 1 =
          some (sampleCrypto.serviceHash (1 : ℕ)) ∧
        (after (w.nodeBind ⟨(), 0⟩ (request.setB58PrivateKey t))).manager.getLocalSH 1 =
          some (sampleCrypto.serviceHash (1 : ℕ)) := by
  have hpos : 1 ≤ samplePrivateValues.privateValue (1 : ℕ) := by decide
  obtain ⟨s, t, hst, hlen, _, _, hbind⟩ := key_forms_agree samplePrivateValues hpos (by decide)
  refine ⟨s, t, (hst ()).1, hlen, (hst ()).2,
    ⟨APISession.new.register ⟨1, 1⟩, stateAfter (NodeManager.new.createNode 1 none), []⟩,
    { type := some .nodeBind, nodeBind := some { nodeId := some 1 } }, ?_⟩
  have hboth := hbind ⟨(), 0⟩ ⟨(), 0⟩
    { type := some .nodeBind, nodeBind := some { nodeId := some 1 } }
    ⟨APISession.new.register ⟨1, 1⟩, stateAfter (NodeManager.new.createNode 1 none), []⟩
    ⟨1, 1⟩ ⟨none, [], none, 0⟩ rfl (by decide) rfl
  exact ⟨hboth.1, hboth.2.1⟩

end World

end P2PNet.API
