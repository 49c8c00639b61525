import P2PNet.Library.P2PSession
import P2PNet.Lib.Lists

/-! Requests and replies of the client library over all interleavings: tokens
count the exchanges modulo `2 ^ 32`, so they tell apart the exchanges that are
outstanding at one time. -/

namespace P2PNet.Library.Client

open Lib Lib.Lists Lib.Runs API

variable {w w' : Client}

structure Matched (w : Client) : Prop where
  keys : ∀ t, t ∈ w.session.awaitingReceive.keys ↔
    ∃ e ∈ w.exchanges, e.result = none ∧ e.request.messageToken = some t
  entry : ∀ i m, (i, m) ∈ w.inFlight → ∃ t e, m.messageToken = some t ∧
    w.session.awaitingReceive.find t = some i ∧ w.exchanges[i]? = some e ∧ e.value = none
  own : ∀ e ∈ w.exchanges, ∀ r, e.result = some r →
    ∃ reply, e.reply = some reply ∧ r = outcome reply
  safe : ∀ event fault, Timely w event → w.step event = .error fault → fault = .disabled

structure Exchange.Ok (i : ℕ) (e : Exchange) : Prop where
  token : e.request.messageToken = some (UInt32.ofNat i)
  value : ∀ v, e.value = some v → e.reply = some v
  result : ∀ r, e.result = some r → ∃ v, e.value = some v ∧ r = outcome v

structure Inv (w : Client) : Prop where
  next : w.session.nextMsgToken = UInt32.ofNat w.exchanges.length
  exchanges : ∀ i e, w.exchanges[i]? = some e → Exchange.Ok i e
  awaiting : ∀ t i, w.session.awaitingReceive.find t = some i ↔
    ∃ e, w.exchanges[i]? = some e ∧ e.result = none ∧ t = UInt32.ofNat i
  inFlight : ∀ i m, (i, m) ∈ w.inFlight →
    ∃ e, w.exchanges[i]? = some e ∧ e.reply = some m ∧ e.value = none ∧
      m.messageToken = e.request.messageToken
  once : (w.inFlight.map Prod.fst).Nodup

lemma inv_new : Inv new := by
  refine ⟨rfl, ?_, ?_, ?_, List.nodup_nil⟩
  · intro i e he
    simp [new] at he
  · intro t i
    simp [new, P2PSession.new]
  · intro i m hm
    simp [new] at hm

lemma ofNat_inj_of_near {i n : ℕ} (hi : i < n) (hn : n - i < 2 ^ 32) :
    UInt32.ofNat i ≠ UInt32.ofNat n := by
  intro h
  have h' := congrArg UInt32.toNat h
  simp only [UInt32.toNat_ofNat'] at h'
  omega

lemma unfinished_modify {es : List Exchange} {i j : ℕ} {f : Exchange → Exchange}
    (hf : ∀ e, (f e).result = e.result) {p : Prop} :
    (∃ e, (es.modify i f)[j]? = some e ∧ e.result = none ∧ p) ↔
      ∃ e, es[j]? = some e ∧ e.result = none ∧ p := by
  by_cases hij : i = j
  · subst hij
    cases he : es[i]? with
    | none => simp [he]
    | some e => simp [he, hf e]
  · simp [hij]

lemma Inv.token_fresh (h : Inv w) {request : APIMessage} (ht : Timely w (.start request)) :
    w.session.awaitingReceive.find (UInt32.ofNat w.exchanges.length) = none := by
  cases hf : w.session.awaitingReceive.find (UInt32.ofNat w.exchanges.length) with
  | none => rfl
  | some i =>
    obtain ⟨e, he, hr, heq⟩ := (h.awaiting _ i).mp hf
    have hi := (List.getElem?_eq_some_iff.mp he).1
    have hnear := ht i hi (by rw [he]; exact hr)
    exact absurd heq.symm (ofNat_inj_of_near hi hnear)

lemma Inv.start_eq (h : Inv w) {request : APIMessage} (ht : Timely w (.start request)) :
    w.start request = .ok { w with
      session := ⟨UInt32.ofNat (w.exchanges.length + 1),
        w.session.awaitingReceive.insert (UInt32.ofNat w.exchanges.length) w.exchanges.length⟩
      exchanges := w.exchanges ++ [{ request :=
        { request with messageToken := some (UInt32.ofNat w.exchanges.length) } }] } := by
  simp [start, P2PSession.markMessage, APIMessage.getMessageToken, h.next, h.token_fresh ht]

lemma replyWith_ok {i : ℕ} {reply : APIMessage} (h : w.replyWith i reply = .ok w') :
    ∃ e, w.exchanges[i]? = some e ∧ e.reply = none ∧ w' = { w with
      exchanges := w.exchanges.modify i (fun e => { e with reply := some reply })
      inFlight := w.inFlight ++ [(i, reply)] } := by
  rw [replyWith] at h
  split at h
  · cases h
  · next e he =>
    split at h
    · cases h
    · next hr => exact ⟨e, he, Option.not_isSome_iff_eq_none.mp hr, (Except.ok.inj h).symm⟩

lemma replyWith_error {i : ℕ} {reply : APIMessage} {fault : Fault}
    (h : w.replyWith i reply = .error fault) : fault = .disabled := by
  rw [replyWith] at h
  split at h
  · exact (Except.error.inj h).symm
  · split at h
    · exact (Except.error.inj h).symm
    · cases h

lemma answer_ok {i : ℕ} {content : APIMessage} (h : w.answer i content = .ok w') :
    ∃ e, w.exchanges[i]? = some e ∧
      w.replyWith i { content with messageToken := e.request.messageToken } = .ok w' := by
  rw [answer] at h
  split at h
  · cases h
  · next e he => exact ⟨e, he, h⟩

lemma answer_eq_replyWith {i : ℕ} {e : Exchange} {reply : APIMessage}
    (he : w.exchanges[i]? = some e) (ht : reply.messageToken = e.request.messageToken) :
    w.answer i reply = w.replyWith i reply := by
  simp only [answer, he, ← ht]

lemma answer_error {i : ℕ} {content : APIMessage} {fault : Fault}
    (h : w.answer i content = .error fault) : fault = .disabled := by
  rw [answer] at h
  split at h
  · exact (Except.error.inj h).symm
  · exact replyWith_error h

lemma Inv.find_inFlight (h : Inv w) {i : ℕ} {m : APIMessage} (hm : (i, m) ∈ w.inFlight) :
    ∃ e, w.exchanges[i]? = some e ∧ e.reply = some m ∧ e.value = none ∧
      m.messageToken = some (UInt32.ofNat i) ∧
      w.session.awaitingReceive.find (UInt32.ofNat i) = some i := by
  obtain ⟨e, he, hr, hv, ht⟩ := h.inFlight i m hm
  have hok := h.exchanges i e he
  refine ⟨e, he, hr, hv, ht.trans hok.token, (h.awaiting _ i).mpr ⟨e, he, ?_, rfl⟩⟩
  cases hres : e.result with
  | none => rfl
  | some r =>
    obtain ⟨v, hval, _⟩ := hok.result r hres
    rw [hv] at hval
    cases hval

lemma Inv.deliver_eq (h : Inv w) {k i : ℕ} {m : APIMessage}
    (hk : w.inFlight[k]? = some (i, m)) :
    w.deliver k = .ok { w with
      exchanges := w.exchanges.modify i (fun e => { e with value := some m })
      inFlight := w.inFlight.eraseIdx k } := by
  obtain ⟨e, he, _, hv, ht, hf⟩ := h.find_inFlight (List.mem_of_getElem? hk)
  simp [deliver, hk, handleReceive, APIMessage.getMessageToken, ht, hf, setValue, he, hv]

lemma Inv.deliver_error (h : Inv w) {k : ℕ} {fault : Fault}
    (hd : w.deliver k = .error fault) : fault = .disabled := by
  cases hk : w.inFlight[k]? with
  | none =>
    simp only [deliver, hk] at hd
    exact (Except.error.inj hd).symm
  | some im =>
    rw [h.deliver_eq hk] at hd
    cases hd

lemma Inv.finish_eq (h : Inv w) {i : ℕ} {e : Exchange} {v : APIMessage}
    (he : w.exchanges[i]? = some e) (hr : e.result = none) (hv : e.value = some v) :
    w.finish i = .ok { w with
      session := { w.session with
        awaitingReceive := w.session.awaitingReceive.erase (UInt32.ofNat i) }
      exchanges := w.exchanges.modify i (fun e => { e with result := some (outcome v) }) } := by
  have ht : e.request.getMessageToken = UInt32.ofNat i := by
    rw [APIMessage.getMessageToken, (h.exchanges i e he).token, Option.getD_some]
  have hf := (h.awaiting _ i).mpr ⟨e, he, hr, rfl⟩
  simp only [finish, he, hr, hv, ht, hf, if_true]
  cases v.error with
  | none => rfl
  | some error => simp

lemma finish_cases (w : Client) (i : ℕ) :
    w.finish i = .error .disabled ∨
      ∃ e v, w.exchanges[i]? = some e ∧ e.result = none ∧ e.value = some v := by
  rw [finish]
  split
  · exact Or.inl rfl
  · next e he =>
    split
    · next v hr hv => exact Or.inr ⟨e, v, he, hr, hv⟩
    · exact Or.inl rfl

/-- A change to exchange `i` leaves the other ones and their replies under way. -/
lemma Inv.exchanges_modify (h : Inv w) {i : ℕ} {e : Exchange} {f : Exchange → Exchange}
    (he : w.exchanges[i]? = some e) (hf : Exchange.Ok i (f e)) (j : ℕ) (e' : Exchange)
    (he' : (w.exchanges.modify i f)[j]? = some e') : Exchange.Ok j e' := by
  rcases of_getElem?_modify he' with ⟨_, he'⟩ | ⟨rfl, e₀, he₀, rfl⟩
  · exact h.exchanges j e' he'
  · obtain rfl : e = e₀ := Option.some.inj (he.symm.trans he₀)
    exact hf

lemma Inv.inFlight_modify (h : Inv w) {i j : ℕ} {m : APIMessage} (hm : (j, m) ∈ w.inFlight)
    (hij : i ≠ j) (f : Exchange → Exchange) :
    ∃ e, (w.exchanges.modify i f)[j]? = some e ∧ e.reply = some m ∧ e.value = none ∧
      m.messageToken = e.request.messageToken := by
  obtain ⟨e, he, hrest⟩ := h.inFlight j m hm
  exact ⟨e, by simpa [hij] using he, hrest⟩

lemma start_inv (h : Inv w) {request : APIMessage} (ht : Timely w (.start request))
    (hs : w.start request = .ok w') : Inv w' := by
  rw [h.start_eq ht] at hs
  obtain rfl := Except.ok.inj hs
  refine ⟨by simp, ?_, ?_, ?_, h.once⟩
  · intro i e he
    rcases of_getElem?_concat he with he | ⟨rfl, rfl⟩
    · exact h.exchanges i e he
    · exact ⟨rfl, by simp, by simp⟩
  · intro t i
    rw [StdMap.find_insert, h.token_fresh ht, Option.getD_none]
    split
    · next htok =>
      constructor
      · intro hi
        obtain rfl := Option.some.inj hi
        exact ⟨_, List.getElem?_concat_length, rfl, htok⟩
      · rintro ⟨e, he, hr, hti⟩
        rcases of_getElem?_concat he with he | ⟨rfl, _⟩
        · have hold := (h.awaiting t i).mpr ⟨e, he, hr, hti⟩
          rw [htok, h.token_fresh ht] at hold
          cases hold
        · rfl
    · next htok =>
      rw [h.awaiting t i]
      constructor
      · rintro ⟨e, he, hrest⟩
        exact ⟨e, getElem?_concat_of_some he, hrest⟩
      · rintro ⟨e, he, hr, hti⟩
        rcases of_getElem?_concat he with he | ⟨rfl, _⟩
        · exact ⟨e, he, hr, hti⟩
        · exact absurd hti htok
  · intro i m hm
    obtain ⟨e, he, hrest⟩ := h.inFlight i m hm
    exact ⟨e, getElem?_concat_of_some he, hrest⟩

lemma replyWith_inv (h : Inv w) {i : ℕ} {e : Exchange} {reply : APIMessage}
    (he : w.exchanges[i]? = some e) (ht : reply.messageToken = e.request.messageToken)
    (hs : w.replyWith i reply = .ok w') : Inv w' := by
  obtain ⟨e', he', hr, rfl⟩ := replyWith_ok hs
  obtain rfl := Option.some.inj (he.symm.trans he')
  have hnew : ∀ m, (i, m) ∉ w.inFlight := by
    intro m hm
    obtain ⟨e', he', hr', _⟩ := h.inFlight i m hm
    rw [he] at he'
    rw [← Option.some.inj he', hr] at hr'
    cases hr'
  have hok := h.exchanges i e he
  have hvalue : e.value = none := by
    apply Option.eq_none_iff_forall_ne_some.mpr
    intro v hv
    have hv' := hok.value v hv
    rw [hr] at hv'
    cases hv'
  refine ⟨by simpa using h.next, ?_, ?_, ?_, ?_⟩
  · apply h.exchanges_modify he
    refine ⟨hok.token, fun v hv => ?_, hok.result⟩
    rw [hvalue] at hv
    cases hv
  · intro t j
    rw [h.awaiting t j]
    symm
    apply unfinished_modify
    intro e'
    rfl
  · intro j m hm
    rcases List.mem_append.mp hm with hm | hm
    · apply h.inFlight_modify hm
      rintro rfl
      exact hnew m hm
    · obtain ⟨rfl, rfl⟩ := Prod.mk.inj (List.mem_singleton.mp hm)
      exact ⟨{ e with reply := some m }, by simp [he], rfl, hvalue, ht⟩
  · rw [List.map_append, List.nodup_append]
    refine ⟨h.once, by simp, ?_⟩
    intro j hj k hk
    obtain ⟨⟨j', m⟩, hm, rfl⟩ := List.mem_map.mp hj
    rw [List.map_singleton, List.mem_singleton] at hk
    rintro rfl
    obtain rfl : j' = i := hk
    exact hnew m hm

lemma deliver_inv (h : Inv w) {k : ℕ} (hs : w.deliver k = .ok w') : Inv w' := by
  cases hk : w.inFlight[k]? with
  | none => simp [deliver, hk] at hs
  | some im =>
    obtain ⟨i, m⟩ := im
    rw [h.deliver_eq hk] at hs
    obtain rfl := Except.ok.inj hs
    obtain ⟨e, he, hr, hv, ht, _⟩ := h.find_inFlight (List.mem_of_getElem? hk)
    refine ⟨by simpa using h.next, ?_, ?_, ?_, ?_⟩
    · apply h.exchanges_modify he
      have hok := h.exchanges i e he
      refine ⟨hok.token, fun v hv' => Option.some.inj hv' ▸ hr, fun r hres => ?_⟩
      obtain ⟨v, hval, _⟩ := hok.result r hres
      rw [hv] at hval
      cases hval
    · intro t j
      rw [h.awaiting t j]
      symm
      apply unfinished_modify
      intro e'
      rfl
    · intro j m' hm'
      obtain ⟨l, hl, hlk⟩ := List.mem_eraseIdx_iff_getElem?.mp hm'
      apply h.inFlight_modify (List.mem_of_getElem? hlk)
      rintro rfl
      apply hl
      have hlt := (List.getElem?_eq_some_iff.mp hlk).1
      apply (List.getElem?_inj (by simpa using hlt) h.once).mp
      simp [hlk, hk]
    · exact h.once.sublist ((List.eraseIdx_sublist _ k).map _)

lemma finish_inv (h : Inv w) {i : ℕ} (hs : w.finish i = .ok w') : Inv w' := by
  rcases finish_cases w i with hd | ⟨e, v, he, hr, hv⟩
  · rw [hd] at hs
    cases hs
  rw [h.finish_eq he hr hv] at hs
  obtain rfl := Except.ok.inj hs
  have hi := (h.awaiting _ i).mpr ⟨e, he, hr, rfl⟩
  refine ⟨by simpa using h.next, ?_, ?_, ?_, h.once⟩
  · have hok := h.exchanges i e he
    apply h.exchanges_modify he
    exact ⟨hok.token, hok.value, fun r hres => ⟨v, hv, (Option.some.inj hres).symm⟩⟩
  · intro t j
    rw [StdMap.find_erase]
    by_cases hij : i = j
    · subst hij
      constructor
      · split
        · intro hn
          cases hn
        · next htok =>
          intro hf
          obtain ⟨_, _, _, hti⟩ := (h.awaiting t i).mp hf
          exact absurd hti htok
      · rintro ⟨e', he', hr', _⟩
        rcases of_getElem?_modify he' with ⟨hne, _⟩ | ⟨_, _, _, rfl⟩
        · exact absurd rfl hne
        · cases hr'
    · simp only [ne_eq, hij, not_false_eq_true, List.getElem?_modify_ne]
      rw [← h.awaiting t j]
      split
      · next htok =>
        rw [htok, hi]
        constructor
        · intro hn
          cases hn
        · exact fun hf => absurd (Option.some.inj hf) hij
      · rfl
  · intro j m hm
    apply h.inFlight_modify hm
    rintro rfl
    obtain ⟨e', he', _, hv', _⟩ := h.inFlight i m hm
    obtain rfl : e = e' := Option.some.inj (he.symm.trans he')
    rw [hv'] at hv
    cases hv

theorem step_inv (w : Client) (event : Event) (w' : Client) (h : Inv w) (ht : Timely w event)
    (hs : w.step event = .ok w') : Inv w' := by
  cases event with
  | start request => exact start_inv h ht hs
  | answer i content =>
    obtain ⟨e, he, hreply⟩ := answer_ok hs
    refine replyWith_inv h he ?_ hreply
    rfl
  | deliver k => exact deliver_inv h hs
  | finish i => exact finish_inv h hs

lemma Inv.safe (h : Inv w) {event : Event} {fault : Fault} (ht : Timely w event)
    (hs : w.step event = .error fault) : fault = .disabled := by
  cases event with
  | start request =>
    rw [step, h.start_eq ht] at hs
    cases hs
  | answer i content => exact answer_error hs
  | deliver k => exact h.deliver_error hs
  | finish i =>
    rw [step] at hs
    rcases finish_cases w i with hd | ⟨e, v, he, hr, hv⟩
    · exact Except.error.inj (hs.symm.trans hd)
    · rw [h.finish_eq he hr hv] at hs
      cases hs

lemma Inv.matched (h : Inv w) : Matched w := by
  refine ⟨?_, ?_, ?_, fun event fault => h.safe⟩
  · intro t
    rw [StdMap.mem_keys, Option.isSome_iff_exists]
    constructor
    · rintro ⟨i, hi⟩
      obtain ⟨e, he, hr, rfl⟩ := (h.awaiting t i).mp hi
      exact ⟨e, List.mem_of_getElem? he, hr, (h.exchanges i e he).token⟩
    · rintro ⟨e, he, hr, ht⟩
      obtain ⟨i, hi⟩ := List.mem_iff_getElem?.mp he
      rw [(h.exchanges i e hi).token] at ht
      exact ⟨i, (h.awaiting t i).mpr ⟨e, hi, hr, (Option.some.inj ht).symm⟩⟩
  · intro i m hm
    obtain ⟨e, he, _, hv, ht, hf⟩ := h.find_inFlight hm
    exact ⟨_, e, ht, hf, he, hv⟩
  · intro e he r hr
    obtain ⟨i, hi⟩ := List.mem_iff_getElem?.mp he
    have hok := h.exchanges i e hi
    obtain ⟨v, hv, hrv⟩ := hok.result r hr
    exact ⟨v, hok.value v hv, hrv⟩

theorem replies_matched {events : List Event} (ht : Guarded step Timely new events)
    (h : run step new events = .ok w) : Matched w :=
  (guarded_invariant step_inv inv_new ht h).matched

theorem replies_matched_out_of_order :
    ∃ w, run step new [.start { type := some .nodeRegister },
        .start { type := some .nodeListen, nodeListen := some ⟨some 3, some 8⟩ },
        .answer 1 { type := some .nodeListen, error := some ⟨some 259, none, none⟩ },
        .answer 0 { type := some .nodeRegister, nodeRegister := some ⟨some 1⟩ },
        .deliver 0, .finish 1, .deliver 0, .start { type := some .nodeBind }, .finish 0] = .ok w ∧
      Matched w := by
  have ht : Guarded step Timely new [.start { type := some .nodeRegister },
      .start { type := some .nodeListen, nodeListen := some ⟨some 3, some 8⟩ },
      .answer 1 { type := some .nodeListen, error := some ⟨some 259, none, none⟩ },
      .answer 0 { type := some .nodeRegister, nodeRegister := some ⟨some 1⟩ },
      .deliver 0, .finish 1, .deliver 0, .start { type := some .nodeBind }, .finish 0] := by
    decide
  exact ⟨_, rfl, replies_matched ht rfl⟩

end P2PNet.Library.Client
