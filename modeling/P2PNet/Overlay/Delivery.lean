import P2PNet.Overlay.Socket

/-! What becomes of a message at its receiver: the handler that `process` picks
for it, and the `Connection` that a call about a transient hash works on. -/

namespace P2PNet.Overlay.Socket

open Lib Lib.Runs OverlayMessage

section Dispatch

variable {C : Crypto} {s : Socket C} {info : KeyInfo C} {header : Header}

/-- The handler that an addressed message is meant for at the node of hash `own`. -/
structure AsAddressed (s : Socket C) (own : TH) (header : Header) : Prop where
  self : header.destTh = some own → header.source ≠ own → header.source ≠ [] →
    s.dispatch header = .ok .self
  relay : ∀ dest, header.destTh = some dest → dest ≠ [] → dest ≠ own →
    s.dispatch header = .ok .relay
  request : header.destTh = none → s.dispatch header = .ok .request

lemma dispatch_of_none (hk : s.keyProvider.current = .ok info) (hd : header.destTh = none) :
    s.dispatch header = .ok .request := by
  have hne := KeyProvider.current_th_ne_nil hk
  simp [dispatch, hk, hd, hne.symm, bind, Except.bind]

lemma dispatch_of_some (hk : s.keyProvider.current = .ok info) {dest : Bytes}
    (hd : header.destTh = some dest) :
    s.dispatch header = .ok (if header.source = info.th then .self
      else if header.source = [] then .request else .relay) := by
  simp only [dispatch, hk, hd, Option.isSome_some, if_true, bind, Except.bind]
  by_cases hown : header.source = info.th
  · rw [if_pos hown, if_pos hown]
  · rw [if_neg hown, if_neg hown]
    by_cases hnil : header.source = []
    · simp [hnil]
    · rw [if_pos ((Hash.isPresent_iff _).mpr hnil), if_neg hnil]

lemma dispatch_relay_iff (hk : s.keyProvider.current = .ok info) {dest : Bytes}
    (hd : header.destTh = some dest) :
    s.dispatch header = .ok .relay ↔ header.source ≠ info.th ∧ header.source ≠ [] := by
  rw [dispatch_of_some hk hd]
  split
  · next hown => simp [hown]
  · next hown =>
    split
    · next hnil => simp [hnil]
    · next hnil => simp [hown, hnil]

lemma dispatch_self (hk : s.keyProvider.current = .ok info) {dest : Bytes}
    (hd : header.destTh = some dest) (h : s.dispatch header = .ok .self) :
    header.source = info.th := by
  by_contra hown
  rw [dispatch_of_some hk hd, if_neg hown] at h
  split at h
  · cases h
  · cases h

theorem dispatch_as_addressed_iff (hk : s.keyProvider.current = .ok info) (header : Header) :
    (AsAddressed s info.th header ↔
      header.destTh = none ∨ header.destTh = some [] ∨
      (header.destTh = some info.th ∧ (header.source = info.th ∨ header.source = [])) ∨
      (header.destTh ≠ some info.th ∧ header.source ≠ info.th ∧ header.source ≠ [])) ∧
    ∀ source body message, source ≠ info.th → source ≠ [] →
      ({ genMessageSkel source info.th with body := some body }).transmitted = some message →
      s.dispatch message.getHeader = .ok .relay := by
  refine ⟨⟨?_, ?_⟩, ?_⟩
  · intro h
    cases hd : header.destTh with
    | none => exact Or.inl rfl
    | some dest =>
      by_cases hnil : dest = []
      · exact Or.inr (Or.inl (by rw [hnil]))
      refine Or.inr (Or.inr ?_)
      by_cases hown : dest = info.th
      · subst hown
        refine Or.inl ⟨rfl, ?_⟩
        by_contra hsrc
        obtain ⟨hsrc, hsnil⟩ := not_or.mp hsrc
        exact hsrc (dispatch_self hk hd (h.self hd hsrc hsnil))
      · have hrelay := (dispatch_relay_iff hk hd).mp (h.relay dest hd hnil hown)
        exact Or.inr ⟨fun he => hown (Option.some.inj he), hrelay⟩
  · intro h
    refine ⟨?_, ?_, dispatch_of_none hk⟩
    · intro hd hsrc hnil
      rcases h with h | h | ⟨_, h | h⟩ | ⟨h, _⟩
      · rw [hd] at h
        cases h
      · rw [hd] at h
        exact absurd (Option.some.inj h) (KeyProvider.current_th_ne_nil hk)
      · exact absurd h hsrc
      · exact absurd h hnil
      · exact absurd hd h
    · intro dest hd hnil hown
      apply (dispatch_relay_iff hk hd).mpr
      rcases h with h | h | ⟨h, _⟩ | ⟨_, h⟩
      · rw [hd] at h
        cases h
      · rw [hd] at h
        exact absurd (Option.some.inj h) hnil
      · rw [hd] at h
        exact absurd (Option.some.inj h) hown
      · exact h
  · intro source body message hsrc hnil hm
    obtain ⟨_, hm⟩ := Option.ite_none_right_eq_some.mp hm
    obtain rfl := Option.some.inj hm
    apply (dispatch_relay_iff hk rfl).mpr
    exact ⟨hsrc, hnil⟩

end Dispatch

theorem dispatch_as_addressed_relay :
    AsAddressed sampleSocket (sampleCrypto.serviceHash (1 : ℕ))
      { srcTh := some [7], destTh := some (sampleCrypto.serviceHash (2 : ℕ)) } := by
  have hk : sampleSocket.keyProvider.current = .ok _ := rfl
  apply (dispatch_as_addressed_iff hk _).1.mpr
  decide

theorem addressed_message_lost :
    ∃ message, ({ genMessageSkel (sampleCrypto.serviceHash (2 : ℕ))
        (sampleCrypto.serviceHash (1 : ℕ)) with body := some {} }).transmitted = some message ∧
      sampleSocket.dispatch message.getHeader = .ok .relay ∧
      sampleSocket.process sampleEnv 3 (some message) = .ok sampleSocket :=
  ⟨_, rfl, rfl, rfl⟩

section Registration

variable {C : Crypto} {s t : Socket C}

inductive Call (C : Crypto) where
  | connect (env : Env C) (dest : TH) (callback : CallbackId)
  | processSelf (env : Env C) (origin : TransportPtr) (header : Header) (body : Body)

def Call.th : Call C → TH
  | .connect _ dest _ => dest
  | .processSelf _ _ header _ => header.source

def step (s : Socket C) : Call C → Outcome (Socket C)
  | .connect env dest callback => s.connect env dest callback
  | .processSelf env origin header body => s.processSelf env origin header body

/-- The connection that a call works on; an end iterator leads to none. -/
def target (s : Socket C) : Call C → Option ConnectionPtr
  | .connect _ dest _ => some ((s.connections.find dest).getD s.objects.length)
  | .processSelf _ _ header _ => s.connections.find header.source

def Uses (f : TH → ConnectionPtr) (s : Socket C) (call : Call C) : Prop :=
  s.target call = some (f call.th) ∧
    ∀ t, s.step call = .ok t → t.connections.find call.th = some (f call.th)

def OneConnection (s : Socket C) (calls : List (Call C)) : Prop :=
  ∃ f : TH → ConnectionPtr, Guarded step (Uses f) s calls

def Known (s : Socket C) (call : Call C) : Prop := (s.connections.find call.th).isSome

lemma connect_new_returns (keys : KeyProvider C) (env : Env C) (callback : CallbackId) (th : TH) :
    ∃ object actions, (Connection.new th).connect keys env callback = .ok (object, actions) := by
  simp [Connection.connect, Connection.new]

lemma connect_unknown {env : Env C} {dest : TH} (h : s.connections.find dest = none)
    (callback : CallbackId) :
    ∃ t, s.connect env dest callback = .ok t ∧ t.connections = s.connections := by
  obtain ⟨object, actions, hc⟩ := connect_new_returns s.keyProvider env callback dest
  simp [connect, h, makeConnection, hc]

lemma connect_connections {env : Env C} {dest : TH} {callback : CallbackId}
    (h : s.connect env dest callback = .ok t) : t.connections = s.connections := by
  cases hf : s.connections.find dest with
  | none =>
    obtain ⟨t', ht', hc⟩ := connect_unknown hf callback
    rw [h] at ht'
    rw [Except.ok.inj ht', hc]
  | some pointer =>
    simp only [connect, hf] at h
    split at h
    · cases h
    · split at h
      · cases h
      · rw [← Except.ok.inj h]

lemma processSelf_connections {env : Env C} {origin : TransportPtr} {header : Header} {body : Body}
    (h : s.processSelf env origin header body = .ok t) : t.connections = s.connections := by
  simp only [processSelf] at h
  split at h
  · cases h
  · split at h
    · cases h
    · rw [← Except.ok.inj h]

lemma step_connections {call : Call C} (h : s.step call = .ok t) :
    t.connections = s.connections := by
  cases call with
  | connect env dest callback => exact connect_connections h
  | processSelf env origin header body => exact processSelf_connections h

lemma known_of_uses {f : TH → ConnectionPtr} {call : Call C} (h : Uses f s call) :
    Known s call := by
  cases call with
  | connect env dest callback =>
    cases hf : s.connections.find dest with
    | some pointer => simp [Known, Call.th, hf]
    | none =>
      obtain ⟨t, ht, hc⟩ := connect_unknown hf callback
      have hfind : t.connections.find dest = some (f dest) := h.2 t ht
      rw [hc, hf] at hfind
      cases hfind
  | processSelf env origin header body => exact Option.isSome_iff_exists.mpr ⟨_, h.1⟩

lemma target_of_known {call : Call C} (h : Known s call) :
    s.target call = s.connections.find call.th := by
  obtain ⟨pointer, hp⟩ := Option.isSome_iff_exists.mp h
  cases call with
  | connect env dest callback =>
    change some _ = s.connections.find dest
    rw [show s.connections.find dest = some pointer from hp, Option.getD_some]
  | processSelf env origin header body => rfl

def stored (m : StdMap TH ConnectionPtr) (th : TH) : ConnectionPtr := (m.find th).getD 0

lemma uses_stored {call : Call C} (h : Known s call) : Uses (stored s.connections) s call := by
  obtain ⟨pointer, hp⟩ := Option.isSome_iff_exists.mp h
  have hstored : stored s.connections call.th = pointer := by
    rw [stored, hp, Option.getD_some]
  refine ⟨?_, ?_⟩
  · rw [target_of_known h, hp, hstored]
  · intro t ht
    rw [step_connections ht, hp, hstored]

lemma guarded_uses_stored (calls : List (Call C)) (h : Guarded step Known s calls) :
    Guarded step (Uses (stored s.connections)) s calls := by
  induction calls generalizing s with
  | nil => trivial
  | cons call calls ih =>
    refine ⟨uses_stored h.1, ?_⟩
    intro t ht
    rw [← step_connections ht]
    exact ih (h.2 t ht)

theorem one_connection_iff (s : Socket C) (calls : List (Call C)) :
    (OneConnection s calls ↔ Guarded step Known s calls) ∧
      ∀ keyProvider processors,
        OneConnection (new keyProvider processors : Socket C) calls ↔ calls = [] := by
  have hiff : ∀ s : Socket C, OneConnection s calls ↔ Guarded step Known s calls := by
    intro s
    constructor
    · rintro ⟨f, hf⟩
      exact guarded_imp (fun _ _ => known_of_uses) hf
    · intro h
      exact ⟨_, guarded_uses_stored calls h⟩
  refine ⟨hiff s, ?_⟩
  intro keyProvider processors
  rw [hiff]
  cases calls with
  | nil => simp [Guarded]
  | cons call calls => simp [Guarded, Known, new]

end Registration

theorem reply_misses_pending_callback :
    ∃ t u, sampleSocket.step (.connect sampleEnv [7] 1) = .ok t ∧
      t.objects.map Connection.connectCallbacks = [[(1, 130)]] ∧ t.connections.find [7] = none ∧
      t.step (.processSelf sampleEnv 3 { srcTh := some [7] } {}) = .error (.endIterator, u) ∧
      ¬ OneConnection sampleSocket [.connect sampleEnv [7] 1,
        .processSelf sampleEnv 3 { srcTh := some [7] } {}] := by
  refine ⟨_, _, rfl, rfl, rfl, rfl, ?_⟩
  rintro ⟨f, ⟨_, hstored⟩, _⟩
  cases hstored _ rfl

end P2PNet.Overlay.Socket
