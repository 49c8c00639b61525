import P2PNet.API.Session
import P2PNet.Lib.Runs

/-! What a request can do, once for all handlers: a request that returns has one
of six effects, one that escapes has changed neither the session nor what was sent. -/

namespace P2PNet.API

open Lib Lib.Runs P2P

namespace World

variable {C : Crypto}

def after (handled : Handled C) : World C :=
  match handled with
  | .ok w => w
  | .error (_, w) => w

lemma call_ok {w w' : World C} {outcome : Outcome (NodeManager C)}
    (h : w.call outcome = .ok w') : ∃ m, outcome = .ok m ∧ w' = { w with manager := m } := by
  cases outcome with
  | ok m => exact ⟨m, rfl, (Except.ok.inj h).symm⟩
  | error e => cases h

/-- The key that a bind request carries, if it carries one: `some none` if Botan refuses it. -/
def suppliedKey (env : Env C) (request : APIMessage) : Option (Option C.PrivateKey) :=
  match request.binaryPrivateKey, request.b58PrivateKey with
  | some key, _ => some (C.fromBinaryString env.rng key)
  | none, some key => some (C.fromBase58 env.rng key)
  | none, none => none

inductive Effect (self : SessionPtr) (env : Env C) (request : APIMessage) (w : World C) :
    World C → Prop
  | nothing : Effect self env request w w
  | register {m : NodeManager C} (reply : APIMessage) : request.getType = .nodeRegister →
      w.session.nextNodeId ≠ 0 → w.manager.createNode env.address (some self) = .ok m →
      reply = { request with nodeRegister := some ⟨some w.session.nextNodeId⟩ } →
      Effect self env request w
        ⟨w.session.register ⟨env.address, 1⟩, m, w.sent ++ [reply]⟩
  | unregister {m : NodeManager C} (entry : NodeT) : request.getType = .nodeUnregister →
      w.session.nodes.find request.unregisterId = some entry →
      w.manager.destroyNode entry.node = .ok m →
      Effect self env request w
        ⟨w.session.unregister request.unregisterId, m, w.sent ++ [request]⟩
  | listen {m : NodeManager C} (entry : NodeT) : request.getType = .nodeListen →
      w.session.nodes.find request.listenId = some entry →
      w.manager.listen entry.node request.maxConnections = .ok m →
      Effect self env request w ⟨w.session, m, w.sent ++ [request]⟩
  | bind {m : NodeManager C} (entry : NodeT) (key : C.PrivateKey) : request.getType = .nodeBind →
      w.session.nodes.find request.bindId = some entry →
      suppliedKey env request = some (some key) → w.manager.bind entry.node key = .ok m →
      Effect self env request w ⟨w.session, m, w.sent ++ [request]⟩
  | keyless (entry : NodeT) : request.getType = .nodeBind →
      w.session.nodes.find request.bindId = some entry → suppliedKey env request = none →
      Effect self env request w ⟨w.session, w.manager, w.sent ++ [request]⟩

lemma nodeBind_eq (env : Env C) (request : APIMessage) (w : World C) :
    w.nodeBind env request =
      match w.session.nodes.find request.bindId with
      | none => .ok (w.remoteThrow request .nonexistentNode)
      | some entry =>
        match suppliedKey env request with
        | none => .ok (w.send request)
        | some key => w.bindKey entry.node key >>= fun w => .ok (w.send request) := by
  rw [nodeBind, suppliedKey]
  cases w.session.nodes.find request.bindId with
  | none => rfl
  | some entry =>
    cases request.binaryPrivateKey with
    | some key => rfl
    | none => cases request.b58PrivateKey <;> rfl

theorem process_ok {self : SessionPtr} {env : Env C} {request : APIMessage} {w w' : World C}
    (h : w.process self env request = .ok w') : Effect self env request w w' := by
  rw [process] at h
  split at h
  · next ht =>
    rw [nodeRegister] at h
    split at h
    · exact Except.ok.inj h ▸ .nothing
    · next hne =>
      obtain ⟨w₁, h₁, h⟩ := bind_ok_iff.mp h
      obtain ⟨m, hm, rfl⟩ := call_ok h₁
      obtain rfl := Except.ok.inj h
      exact .register _ ht hne hm rfl
  · next ht =>
    rw [nodeUnRegister] at h
    split at h
    · exact Except.ok.inj h ▸ .nothing
    · next entry he =>
      obtain ⟨w₁, h₁, h⟩ := bind_ok_iff.mp h
      obtain ⟨m, hm, rfl⟩ := call_ok h₁
      obtain rfl := Except.ok.inj h
      exact .unregister entry ht he hm
  · cases h
  · cases h
  · next ht =>
    rw [nodeListen] at h
    split at h
    · exact Except.ok.inj h ▸ .nothing
    · next entry he =>
      obtain ⟨w₁, h₁, h⟩ := bind_ok_iff.mp h
      obtain ⟨m, hm, rfl⟩ := call_ok h₁
      obtain rfl := Except.ok.inj h
      exact .listen entry ht he hm
  · next ht =>
    rw [nodeBind_eq] at h
    split at h
    · exact Except.ok.inj h ▸ .nothing
    · next entry he =>
      split at h
      · next hk => exact Except.ok.inj h ▸ .keyless entry ht he hk
      · next key hk =>
        obtain ⟨w₁, h₁, h⟩ := bind_ok_iff.mp h
        cases key with
        | none => cases h₁
        | some key =>
          obtain ⟨m, hm, rfl⟩ := call_ok h₁
          obtain rfl := Except.ok.inj h
          exact .bind entry key ht he hk hm
  · exact Except.ok.inj h ▸ .nothing

section Returns

variable {self : SessionPtr} {env : Env C} {request : APIMessage} {w : World C}
  {m : NodeManager C} {entry : NodeT}

lemma process_register (ht : request.getType = .nodeRegister) (hz : w.session.nextNodeId ≠ 0)
    (hm : w.manager.createNode env.address (some self) = .ok m) :
    w.process self env request = .ok ⟨w.session.register ⟨env.address, 1⟩, m,
      w.sent ++ [{ request with nodeRegister := some ⟨some w.session.nextNodeId⟩ }]⟩ := by
  simp only [process, ht, nodeRegister, if_neg hz, hm]
  rfl

lemma process_unregister (ht : request.getType = .nodeUnregister)
    (he : w.session.nodes.find request.unregisterId = some entry)
    (hm : w.manager.destroyNode entry.node = .ok m) :
    w.process self env request =
      .ok ⟨w.session.unregister request.unregisterId, m, w.sent ++ [request]⟩ := by
  simp only [process, ht, nodeUnRegister, he, hm]
  rfl

lemma process_listen (ht : request.getType = .nodeListen)
    (he : w.session.nodes.find request.listenId = some entry)
    (hm : w.manager.listen entry.node request.maxConnections = .ok m) :
    w.process self env request = .ok ⟨w.session, m, w.sent ++ [request]⟩ := by
  simp only [process, ht, nodeListen, he, hm]
  rfl

lemma process_bind_eq {key : C.PrivateKey} (ht : request.getType = .nodeBind)
    (he : w.session.nodes.find request.bindId = some entry)
    (hk : suppliedKey env request = some (some key)) :
    w.process self env request =
      w.call (w.manager.bind entry.node key) >>= fun w => .ok (w.send request) := by
  simp only [process, ht, nodeBind_eq, he, hk, bindKey]

lemma process_bind {key : C.PrivateKey} (ht : request.getType = .nodeBind)
    (he : w.session.nodes.find request.bindId = some entry)
    (hk : suppliedKey env request = some (some key))
    (hm : w.manager.bind entry.node key = .ok m) :
    w.process self env request = .ok ⟨w.session, m, w.sent ++ [request]⟩ := by
  rw [process_bind_eq ht he hk, hm]
  rfl

lemma process_keyless (ht : request.getType = .nodeBind)
    (he : w.session.nodes.find request.bindId = some entry)
    (hk : suppliedKey env request = none) :
    w.process self env request = .ok ⟨w.session, w.manager, w.sent ++ [request]⟩ := by
  simp only [process, ht, nodeBind_eq, he, hk]
  rfl

end Returns

lemma bind_call_error {w w' : World C} {outcome : Outcome (NodeManager C)} {f : World C → World C}
    {e : Escape} (h : (w.call outcome >>= fun w => (.ok (f w) : Handled C)) = .error (e, w')) :
    w'.session = w.session ∧ w'.sent = w.sent := by
  cases outcome with
  | ok m => cases h
  | error e' =>
    obtain ⟨_, rfl⟩ := Prod.mk.inj (Except.error.inj h)
    exact ⟨rfl, rfl⟩

theorem process_error {self : SessionPtr} {env : Env C} {request : APIMessage} {w w' : World C}
    {e : Escape} (h : w.process self env request = .error (e, w')) :
    w'.session = w.session ∧ w'.sent = w.sent := by
  rw [process] at h
  split at h
  · rw [nodeRegister] at h
    split at h
    · cases h
    · exact bind_call_error h
  · rw [nodeUnRegister] at h
    split at h
    · cases h
    · exact bind_call_error h
  · obtain ⟨_, rfl⟩ := Prod.mk.inj (Except.error.inj h)
    exact ⟨rfl, rfl⟩
  · obtain ⟨_, rfl⟩ := Prod.mk.inj (Except.error.inj h)
    exact ⟨rfl, rfl⟩
  · rw [nodeListen] at h
    split at h
    · cases h
    · exact bind_call_error h
  · rw [nodeBind_eq] at h
    split at h
    · cases h
    · split at h
      · cases h
      · next key _ =>
        cases key with
        | none =>
          obtain ⟨_, rfl⟩ := Prod.mk.inj (Except.error.inj h)
          exact ⟨rfl, rfl⟩
        | some key => exact bind_call_error h
  · cases h

lemma session_after_process (self : SessionPtr) (env : Env C) (request : APIMessage) (w : World C) :
    (after (w.process self env request)).session = w.session ∨
    (w.session.nextNodeId ≠ 0 ∧
      (after (w.process self env request)).session = w.session.register ⟨env.address, 1⟩) ∨
    ((w.session.nodes.find request.unregisterId).isSome ∧
      (after (w.process self env request)).session =
        w.session.unregister request.unregisterId) := by
  cases hp : w.process self env request with
  | error e => exact Or.inl (process_error hp).1
  | ok w' =>
    cases process_ok hp with
    | nothing => exact Or.inl rfl
    | register reply _ hne _ _ => exact Or.inr (Or.inl ⟨hne, rfl⟩)
    | unregister entry _ he _ => exact Or.inr (Or.inr ⟨by simp [he], rfl⟩)
    | listen entry _ _ _ => exact Or.inl rfl
    | bind entry key _ _ _ _ => exact Or.inl rfl
    | keyless entry _ _ _ => exact Or.inl rfl

end World

end P2PNet.API
