import P2PNet.Transport.Registration

/-! The timers of accepted connections, when every handler runs as soon as its
timer expires and to its end. A registered connection always has a keep-alive
ahead of it, but no inactivity wait before its peer sends a keep-alive, and the
handler of that wait leaves the keep-alives going. -/

namespace P2PNet.Transport

open Lib Lib.Lists Lib.Runs

inductive TimedEvent where
  | receive (source : Endpoint) (message : Bytes)
  | expire (wait : ℕ)
  | aborted (wait : ℕ)
  | handleSend (send : ℕ)
  deriving DecidableEq, Repr

/-- An event, and the connections that users still hold after it. -/
structure Timed where
  event : TimedEvent
  kept : List ConnectionPtr
  deriving DecidableEq, Repr

def timerHandler (t : ConnectionPtr × Timer) : TimerHandler :=
  match t.2 with
  | .connSendTimer => .sendKeepAlive
  | .connReceiveTimeout => .inactivity

namespace Host

variable {h h' : Host} {p : ConnectionPtr}

def expireNow (h : Host) (k : ℕ) : Except Escape Host := do
  let h ← h.accept (.expire k)
  match h.waits[k]? with
  | some w => if w.handler = .inactivity then h.accept (.inactivity k) else h.accept (.handler k)
  | none => .error .disabled

def timed (h : Host) : TimedEvent → Except Escape Host
  | .receive source message => h.accept (.receive source message)
  | .expire k => h.expireNow k
  | .aborted k =>
    match h.waits[k]? with
    | some w => if w.state = .aborted then h.accept (.handler k) else .error .disabled
    | none => .error .disabled
  | .handleSend k => h.accept (.handleSend k)

def timedStep (h : Host) (e : Timed) : Except Escape Host := do
  let h ← h.timed e.event
  .ok (h.releaseKept e.kept)

def Pending (h : Host) (p : ConnectionPtr) (timer : Timer) : Prop :=
  Wait.pendingOn (p, timer) h.waits ≠ []

def IsRegistered (h : Host) (p : ConnectionPtr) : Prop :=
  h.connections.find (h.endpoint p) = some p

def TimersFollow (h : Host) : Prop :=
  ∀ p c, h.objects[p]? = some c → c.alive = true →
    (h.IsRegistered p ↔ h.Pending p .connReceiveTimeout) ∧
      (h.IsRegistered p ↔ h.Pending p .connSendTimer)

/-- The half that holds of every run. -/
def TimersImply (h : Host) : Prop :=
  ∀ p, (h.Pending p .connReceiveTimeout → h.IsRegistered p) ∧
    (h.IsRegistered p → h.Pending p .connSendTimer)

def Opens (h : Host) (e : Timed) : Prop :=
  ∃ source, e.event = .receive source connectMsg ∧ h.connections.find source = none ∧
    h.outgoingOnly = false

structure Timely (h : Host) : Prop where
  entry : ∀ ep p, h.connections.find ep = some p →
    ∃ c, h.objects[p]? = some c ∧ c.endpoint = ep ∧ c.alive = true
  keepAlive : ∀ ep p, h.connections.find ep = some p → h.Pending p .connSendTimer
  inactivity : ∀ p, h.Pending p .connReceiveTimeout → h.IsRegistered p
  waits : Wait.Orderly (fun t => t.1 < h.objects.length) timerHandler h.waits

lemma Timely.imply (ht : Timely h) : TimersImply h :=
  fun p => ⟨ht.inactivity p, ht.keepAlive _ p⟩

lemma Timely.endpoint_eq {ep : Endpoint} (ht : Timely h) (hfind : h.connections.find ep = some p) :
    h.endpoint p = ep := by
  obtain ⟨c, hc, hep, _⟩ := ht.entry ep p hfind
  rw [Host.endpoint_eq hc, hep]

lemma Timely.lt_length {ep : Endpoint} (ht : Timely h) (hfind : h.connections.find ep = some p) :
    p < h.objects.length := by
  obtain ⟨c, hc, _⟩ := ht.entry ep p hfind
  exact (List.getElem?_eq_some_iff.mp hc).1

section Objects

/-- The objects keep their endpoints and stay alive or dead. -/
structure SameObjects (h h' : Host) : Prop where
  length_eq : h'.objects.length = h.objects.length
  object_eq : ∀ (q : ConnectionPtr) (c : UDPConnection), h.objects[q]? = some c →
    ∃ c', h'.objects[q]? = some c' ∧ c'.endpoint = c.endpoint ∧ c'.alive = c.alive
  endpoint_eq : ∀ q, h'.endpoint q = h.endpoint q

lemma sameObjects_of_eq (ho : h'.objects = h.objects) : SameObjects h h' :=
  ⟨by rw [ho], fun q c hc => ⟨c, ho ▸ hc, rfl, rfl⟩, fun q => by rw [endpoint, ho, endpoint]⟩

lemma sameObjects_of_modify {value : Bool}
    (ho : h'.objects = h.objects.modify p (fun c => { c with mConnected := value })) :
    SameObjects h h' := by
  have hget : ∀ q, h'.objects[q]? =
      h.objects[q]?.map fun c => if q = p then { c with mConnected := value } else c := by
    intro q
    rw [ho, getElem_setConnected]
  refine ⟨by rw [ho, List.length_modify], fun q c hc => ?_, fun q => ?_⟩
  · refine ⟨_, by rw [hget, hc]; rfl, ?_⟩
    split
    · exact ⟨rfl, rfl⟩
    · exact ⟨rfl, rfl⟩
  · rw [endpoint, hget, Option.map_map, endpoint]
    congr 2
    funext c
    rw [Function.comp_apply]
    split <;> rfl

lemma SameObjects.entry (hsame : SameObjects h h') {ep : Endpoint}
    (hc : ∃ c, h.objects[p]? = some c ∧ c.endpoint = ep ∧ c.alive = true) :
    ∃ c, h'.objects[p]? = some c ∧ c.endpoint = ep ∧ c.alive = true := by
  obtain ⟨c, hc, hep, halive⟩ := hc
  obtain ⟨c', hc', hep', halive'⟩ := hsame.object_eq p c hc
  exact ⟨c', hc', hep'.trans hep, halive'.trans halive⟩

end Objects

lemma pending_rearm_iff {timer timer' : Timer} {handler : TimerHandler} {q : ConnectionPtr}
    (hw : h'.waits = Wait.rearm (p, timer') handler h.waits) :
    h'.Pending q timer ↔ (q = p ∧ timer = timer') ∨ h.Pending q timer := by
  rw [Pending, hw, Wait.pendingOn_rearm_ne_nil, Prod.mk.injEq, Pending]

/-- Whatever keeps the registered connections. -/
lemma Timely.kept (ht : Timely h) (hsame : SameObjects h h')
    (hc : h'.connections = h.connections)
    (hw : Wait.Orderly (fun t => t.1 < h.objects.length) timerHandler h'.waits)
    (hsend : ∀ q, h.Pending q .connSendTimer → h'.Pending q .connSendTimer)
    (hreceive : ∀ q, h'.Pending q .connReceiveTimeout →
      h.Pending q .connReceiveTimeout ∨ h.IsRegistered q) : Timely h' := by
  refine ⟨fun ep q hq => ?_, fun ep q hq => ?_, fun q hq => ?_, ?_⟩
  · rw [hc] at hq
    exact hsame.entry (ht.entry ep q hq)
  · rw [hc] at hq
    exact hsend q (ht.keepAlive ep q hq)
  · rw [IsRegistered, hc, hsame.endpoint_eq]
    exact (hreceive q hq).elim (ht.inactivity q) id
  · rwa [hsame.length_eq]

/-- The connection `p` is dropped, and with it its inactivity wait. -/
lemma Timely.closed (ht : Timely h) (hsame : SameObjects h h')
    (hp : h.IsRegistered p) (hc : h'.connections = h.connections.erase (h.endpoint p))
    (hw : Wait.Orderly (fun t => t.1 < h.objects.length) timerHandler h'.waits)
    (hothers : ∀ q timer, q ≠ p → (h'.Pending q timer ↔ h.Pending q timer))
    (hgone : ¬h'.Pending p .connReceiveTimeout) : Timely h' := by
  have hne : ∀ ep q, h'.connections.find ep = some q → h.connections.find ep = some q ∧ q ≠ p := by
    intro ep q hq
    rw [hc, StdMap.find_erase] at hq
    split at hq
    · cases hq
    · next hep =>
      refine ⟨hq, ?_⟩
      rintro rfl
      exact hep (ht.endpoint_eq hq).symm
  refine ⟨fun ep q hq => ?_, fun ep q hq => ?_, fun q hq => ?_, ?_⟩
  · exact hsame.entry (ht.entry ep q (hne ep q hq).1)
  · obtain ⟨hfind, hqp⟩ := hne ep q hq
    exact (hothers q _ hqp).mpr (ht.keepAlive ep q hfind)
  · have hqp : q ≠ p := by
      rintro rfl
      exact hgone hq
    have hreg := ht.inactivity q ((hothers q _ hqp).mp hq)
    rw [IsRegistered] at hreg
    -- two connections are not registered under one endpoint
    have hep : h.endpoint q ≠ h.endpoint p := by
      intro heq
      rw [heq, hp] at hreg
      exact hqp (Option.some.inj hreg).symm
    rw [IsRegistered, hc, hsame.endpoint_eq, StdMap.find_erase_of_ne _ hep, hreg]
  · rwa [hsame.length_eq]

lemma Timely.opened {source : Endpoint} (ht : Timely h)
    (hfree : h.connections.find source = none)
    (hc : h'.connections = h.connections.insert source h.objects.length)
    (ho : h'.objects = h.objects ++ [⟨source, none, true, true⟩])
    (hw : h'.waits = Wait.rearm (h.objects.length, .connSendTimer) .sendKeepAlive h.waits) :
    Timely h' := by
  have hlast : h'.objects[h.objects.length]? = some ⟨source, none, true, true⟩ := by
    rw [ho]
    exact List.getElem?_concat_length
  have hlength : h'.objects.length = h.objects.length + 1 := by
    rw [ho, List.length_append]
    rfl
  refine ⟨fun ep q hq => ?_, fun ep q hq => ?_, fun q hq => ?_, ?_⟩
  · rw [hc, StdMap.find_insert, hfree] at hq
    split at hq
    · next hep =>
      obtain rfl := Option.some.inj hq
      exact ⟨_, hlast, hep.symm, rfl⟩
    · obtain ⟨c, hcq, hrest⟩ := ht.entry ep q hq
      exact ⟨c, ho ▸ getElem?_concat_of_some hcq, hrest⟩
  · apply (pending_rearm_iff hw).mpr
    rw [hc, StdMap.find_insert, hfree] at hq
    split at hq
    · exact .inl ⟨(Option.some.inj hq).symm, rfl⟩
    · exact .inr (ht.keepAlive ep q hq)
  · obtain ⟨_, htimer⟩ | hq := (pending_rearm_iff hw).mp hq
    · cases htimer
    have hreg := ht.inactivity q hq
    rw [IsRegistered] at hreg
    obtain ⟨c, hcq, hep, _⟩ := ht.entry _ q hreg
    have hep' : h'.endpoint q = h.endpoint q := by
      rw [Host.endpoint_eq (ho ▸ getElem?_concat_of_some hcq), hep]
    have hne : h.endpoint q ≠ source := by
      intro heq
      rw [heq, hfree] at hreg
      cases hreg
    rw [IsRegistered, hep', hc, StdMap.find_insert_of_ne _ _ hne, hreg]
  · rw [hw, hlength]
    have hlast : (h.objects.length, Timer.connSendTimer).1 < h.objects.length + 1 :=
      Nat.lt_succ_self _
    exact (ht.waits.mono fun t hlt => Nat.lt_succ_of_lt hlt).rearm hlast

lemma Timely.isRegistered {ep : Endpoint} (ht : Timely h)
    (hfind : h.connections.find ep = some p) : h.IsRegistered p := by
  rw [IsRegistered, ht.endpoint_eq hfind, hfind]

lemma Timely.receivedKeepAlive {source : Endpoint} (ht : Timely h)
    (hfind : h.connections.find source = some p) : Timely (h.receivedKeepAlive p) := by
  have hw : (h.receivedKeepAlive p).waits =
      Wait.rearm (p, .connReceiveTimeout) .inactivity h.waits := rfl
  refine ht.kept (sameObjects_of_modify rfl) rfl ?_ (fun q hq => ?_) (fun q hq => ?_)
  · have htimer : (p, Timer.connReceiveTimeout).1 < h.objects.length := ht.lt_length hfind
    exact ht.waits.rearm htimer
  · exact (pending_rearm_iff hw).mpr (.inr hq)
  · rcases (pending_rearm_iff hw).mp hq with ⟨rfl, _⟩ | hq
    · exact .inr (ht.isRegistered hfind)
    · exact .inl hq

lemma Timely.receivedDisconnect {source : Endpoint} (ht : Timely h)
    (hfind : h.connections.find source = some p) (hr : h.receivedDisconnect p = .ok h') :
    Timely h' := by
  -- both timers are cancelled before the connection is dropped
  obtain ⟨hc, ho, _, hwaits, -⟩ := close_ok hr
  have hpending : ∀ q timer, h'.Pending q timer ↔ q ≠ p ∧ h.Pending q timer := by
    intro q timer
    rw [Pending, hwaits]
    change Wait.pendingOn _ (Wait.cancel _ (Wait.cancel _ h.waits)) ≠ [] ↔ _
    rw [Wait.pendingOn_cancel, Wait.pendingOn_cancel]
    by_cases hq : q = p
    · cases timer <;> simp [hq]
    · simp [hq, Pending]
  refine ht.closed (sameObjects_of_modify ho) (ht.isRegistered hfind) hc ?_ ?_ ?_
  · rw [hwaits]
    exact (ht.waits.cancel _).cancel _
  · exact fun q timer hq => (hpending q timer).trans (and_iff_right hq)
  · exact fun hgone => ((hpending p _).mp hgone).1 rfl

lemma Timely.receive {source : Endpoint} {message : Bytes} (ht : Timely h)
    (hr : h.handleReceive source message = .ok h') : Timely h' := by
  rw [handleReceive] at hr
  split at hr
  · next p hp =>
    split at hr
    · obtain rfl := Except.ok.inj hr
      exact ht.receivedKeepAlive hp
    · split at hr
      · exact ht.receivedDisconnect hp hr
      · obtain rfl := Except.ok.inj hr
        exact ht.kept (sameObjects_of_eq rfl) rfl ht.waits (fun _ => id) (fun _ => .inl)
  · next hfree =>
    split at hr
    · obtain rfl := Except.ok.inj hr
      obtain ⟨hc, ho, hw⟩ := accepted_eq h source
      exact ht.opened hfree hc ho hw
    · obtain rfl := Except.ok.inj hr
      exact ht

section Expiry

variable {k : ℕ}

lemma expireNow_ok (hk : h.expireNow k = .ok h') :
    ∃ w, h.waits[k]? = some w ∧ w.state = .pending ∧
      if w.handler = .inactivity then
        inactivityHandler { h with waits := h.waits.eraseIdx k } w.timer.1 = .ok h'
      else
        runHandler { h with waits := h.waits.eraseIdx k } w.timer.1 false w.handler = .ok h' := by
  obtain ⟨h₁, hexpire, hk⟩ := bind_ok_iff.mp hk
  simp only [accept, handle] at hexpire
  split at hexpire
  · next waits hwaits =>
    obtain rfl := Except.ok.inj hexpire
    obtain ⟨w, hw, hpending, hget, htake⟩ := Wait.take_of_expire hwaits
    refine ⟨w, hw, hpending, ?_⟩
    dsimp only at hk
    rw [hget] at hk
    dsimp only at hk
    split at hk
    · next hhandler =>
      rw [if_pos hhandler]
      simpa only [accept, htake, hhandler, and_self, if_true] using hk
    · next hhandler =>
      rw [if_neg hhandler]
      simpa [accept, handle, htake] using hk
  · cases hexpire

lemma pending_of_getElem {w : Wait (ConnectionPtr × Timer) TimerHandler}
    (hw : h.waits[k]? = some w) (hpending : w.state = .pending) :
    h.Pending w.timer.1 w.timer.2 := by
  have hmem : w ∈ Wait.pendingOn w.timer h.waits :=
    List.mem_filter.mpr ⟨List.mem_of_getElem? hw, by simp [hpending]⟩
  exact List.ne_nil_of_mem hmem

/-- The wait that expired is gone, and the others are as before. -/
lemma Timely.pending_erase_iff {handler : TimerHandler} {q : ConnectionPtr} {timer timer' : Timer}
    (ht : Timely h) (hw : h.waits[k]? = some ⟨(p, timer'), handler, .pending⟩) :
    Pending { h with waits := h.waits.eraseIdx k } q timer ↔
      h.Pending q timer ∧ ¬(q = p ∧ timer = timer') := by
  rw [Pending, ht.waits.pendingOn_eraseIdx hw, Pending, Prod.mk.injEq, and_iff_left rfl]

lemma Timely.sendKeepAlive (ht : Timely h) (hlt : p < h.objects.length)
    (hw : h.waits[k]? = some ⟨(p, .connSendTimer), .sendKeepAlive, .pending⟩) :
    Timely (Host.sendKeepAlive { h with waits := h.waits.eraseIdx k } p) := by
  have hpending (q : ConnectionPtr) (timer : Timer) :
      Pending (Host.sendKeepAlive { h with waits := h.waits.eraseIdx k } p) q timer ↔
        (q = p ∧ timer = .connSendTimer) ∨
          Pending { h with waits := h.waits.eraseIdx k } q timer := pending_rearm_iff rfl
  refine ht.kept (sameObjects_of_eq rfl) rfl ?_ (fun q hq => ?_) (fun q hq => ?_)
  · have htimer : (p, Timer.connSendTimer).1 < h.objects.length := hlt
    exact (ht.waits.eraseIdx k).rearm htimer
  · -- the keep-alive that was sent is followed by the next one
    by_cases hqp : q = p
    · exact (hpending q _).mpr (.inl ⟨hqp, rfl⟩)
    · have hleft := (ht.pending_erase_iff hw).mpr ⟨hq, fun heq => hqp heq.1⟩
      exact (hpending q _).mpr (.inr hleft)
  · rcases (hpending q _).mp hq with ⟨_, htimer⟩ | hq
    · cases htimer
    · exact .inl ((ht.pending_erase_iff hw).mp hq).1

lemma Timely.inactivityHandler (ht : Timely h)
    (hw : h.waits[k]? = some ⟨(p, .connReceiveTimeout), .inactivity, .pending⟩)
    (hrun : Host.inactivityHandler { h with waits := h.waits.eraseIdx k } p = .ok h') :
    Timely h' := by
  rw [Host.inactivityHandler] at hrun
  split at hrun
  · cases hrun
  · split at hrun
    · obtain ⟨hc, ho, _, hwaits, -⟩ := close_ok hrun
      have hpending : ∀ q timer, h'.Pending q timer ↔
          h.Pending q timer ∧ ¬(q = p ∧ timer = .connReceiveTimeout) := by
        intro q timer
        rw [Pending, hwaits]
        exact ht.pending_erase_iff hw
      have hwas := pending_of_getElem hw rfl
      refine ht.closed (sameObjects_of_modify ho) (ht.inactivity p hwas) hc ?_ ?_ ?_
      · rw [hwaits]
        exact ht.waits.eraseIdx k
      · intro q timer hq
        rw [hpending]
        exact and_iff_left fun heq => hq heq.1
      · exact fun hgone => ((hpending p _).mp hgone).2 ⟨rfl, rfl⟩
    · cases hrun

lemma Timely.expire (ht : Timely h) (hk : h.expireNow k = .ok h') : Timely h' := by
  obtain ⟨w, hw, hpending, hrun⟩ := expireNow_ok hk
  have hhandler := ht.waits.handlers w (List.mem_of_getElem? hw)
  obtain ⟨⟨p, timer⟩, handler, state⟩ := w
  obtain rfl : state = .pending := hpending
  cases timer with
  | connSendTimer =>
    obtain rfl : handler = .sendKeepAlive := hhandler
    rw [if_neg (by simp)] at hrun
    simp only [runHandler, Bool.false_eq_true, if_false] at hrun
    split at hrun
    · next c hc =>
      split at hrun
      · obtain rfl := Except.ok.inj hrun
        exact ht.sendKeepAlive (List.getElem?_eq_some_iff.mp hc).1 hw
      · cases hrun
    · cases hrun
  | connReceiveTimeout =>
    obtain rfl : handler = .inactivity := hhandler
    rw [if_pos rfl] at hrun
    exact ht.inactivityHandler hw hrun

lemma Timely.aborted {w : Wait (ConnectionPtr × Timer) TimerHandler} (ht : Timely h)
    (hw : h.waits[k]? = some w) (hstate : w.state = .aborted)
    (hk : h.accept (.handler k) = .ok h') : Timely h' := by
  have hhandler := ht.waits.handlers w (List.mem_of_getElem? hw)
  have htake : Wait.take k h.waits = some (w, h.waits.eraseIdx k) :=
    Wait.take_eq_some_iff.mpr ⟨hw, by simp [hstate], rfl⟩
  have hh' : h' = { h with waits := h.waits.eraseIdx k } := by
    obtain ⟨⟨p, timer⟩, handler, state⟩ := w
    obtain rfl : state = .aborted := hstate
    cases timer with
    | connSendTimer =>
      obtain rfl : handler = .sendKeepAlive := hhandler
      simpa [accept, handle, htake, runHandler, eq_comm] using hk
    | connReceiveTimeout =>
      obtain rfl : handler = .inactivity := hhandler
      simpa [accept, handle, htake, runHandler, eq_comm] using hk
  have hpending : ∀ q timer, h'.Pending q timer ↔ h.Pending q timer := by
    intro q timer
    rw [hh', Pending, ht.waits.pendingOn_eraseIdx hw]
    simp [Pending, hstate]
  refine ht.kept (sameObjects_of_eq (by rw [hh'])) (by rw [hh']) ?_ ?_ ?_
  · rw [hh']
    exact ht.waits.eraseIdx k
  · exact fun q => (hpending q _).mpr
  · exact fun q hq => .inl ((hpending q _).mp hq)

end Expiry

lemma Timely.timed {e : TimedEvent} (ht : Timely h) (he : h.timed e = .ok h') : Timely h' := by
  cases e with
  | receive source message => exact ht.receive he
  | expire k => exact ht.expire he
  | aborted k =>
    simp only [Host.timed] at he
    split at he
    · next w hw =>
      split at he
      · next hstate => exact ht.aborted hw hstate he
      · cases he
    · cases he
  | handleSend k =>
    simp only [Host.timed, accept, handle] at he
    split at he
    · obtain rfl := Except.ok.inj he
      exact ht.kept (sameObjects_of_eq rfl) rfl ht.waits (fun _ => id) (fun _ => .inl)
    · cases he

lemma endpoint_releaseKept (h : Host) (kept : List ConnectionPtr) (q : ConnectionPtr) :
    (h.releaseKept kept).endpoint q = h.endpoint q := by
  obtain ⟨f, hf, hsurvives⟩ := getElem_releaseKept h kept q
  rw [endpoint, hf, Option.map_map, endpoint]
  congr 2
  funext c
  exact (hsurvives c).1

lemma length_releaseKept (h : Host) (kept : List ConnectionPtr) :
    (h.releaseKept kept).objects.length = h.objects.length := by
  rw [releaseKept, release, List.length_mapIdx]

lemma waits_releaseKept (h : Host) (kept : List ConnectionPtr) :
    (h.releaseKept kept).waits = Wait.abortIf (fun t => h.objects[t.1]?.any fun c =>
      c.alive && !held { h with sending := kept ++ h.sending } t.1 c) h.waits :=
  rfl

lemma pending_of_releaseKept {kept : List ConnectionPtr} {timer : Timer}
    (hp : (h.releaseKept kept).Pending p timer) : h.Pending p timer := by
  rw [Pending, waits_releaseKept, Wait.pendingOn_abortIf] at hp
  split at hp
  · exact absurd rfl hp
  · exact hp

lemma Timely.release (ht : Timely h) (kept : List ConnectionPtr) : Timely (h.releaseKept kept) := by
  refine ⟨fun ep q hq => ?_, fun ep q hq => ?_, fun q hq => ?_, ?_⟩
  · obtain ⟨c, hc, hep, halive⟩ := ht.entry ep q hq
    obtain ⟨c', hc', hep', _, halive'⟩ := survives_releaseKept kept hc
    refine ⟨c', hc', hep'.trans hep, halive'.mpr ⟨halive, .inl ?_⟩⟩
    rw [hep]
    exact hq
  · -- a connection that is destroyed was not registered
    obtain ⟨c, hc, hep, _⟩ := ht.entry ep q hq
    have hheld : held { h with sending := kept ++ h.sending } q c = true := by
      rw [held, hep]
      exact Bool.or_eq_true_iff.mpr (.inl (decide_eq_true hq))
    rw [Pending, waits_releaseKept, Wait.pendingOn_abortIf, if_neg (by simp [hc, hheld])]
    exact ht.keepAlive ep q hq
  · rw [IsRegistered, endpoint_releaseKept]
    exact ht.inactivity q (pending_of_releaseKept hq)
  · rw [waits_releaseKept]
    refine (ht.waits.abortIf _).mono fun t hlt => ?_
    rwa [length_releaseKept]

lemma timedStep_timely {e : Timed} (ht : Timely h) (hstep : h.timedStep e = .ok h') :
    Timely h' := by
  obtain ⟨h₁, he, hend⟩ := bind_ok_iff.mp hstep
  obtain rfl := Except.ok.inj hend
  exact (ht.timed he).release e.kept

lemma timely_new (outgoingOnly hasDisconnectCallback : Bool) :
    Timely (new outgoingOnly hasDisconnectCallback) := by
  refine ⟨fun ep p hp => ?_, fun ep p hp => ?_, fun p hp => absurd rfl hp, .nil⟩
  · simp [new] at hp
  · simp [new] at hp

section Empty

/-! As long as no connection was accepted there is nothing that could go wrong. -/

variable {e : Timed}

lemma Timely.find_eq_none (ht : Timely h) (hempty : h.objects = []) (ep : Endpoint) :
    h.connections.find ep = none := by
  rw [Option.eq_none_iff_forall_ne_some]
  intro p hp
  have hlt := ht.lt_length hp
  rw [hempty] at hlt
  exact Nat.not_lt_zero _ hlt

lemma Timely.waits_eq_nil (ht : Timely h) (hempty : h.objects = []) : h.waits = [] := by
  rw [List.eq_nil_iff_forall_not_mem]
  intro w hw
  have hlt := ht.waits.timers w hw
  rw [hempty] at hlt
  exact Nat.not_lt_zero _ hlt

lemma timersFollow_of_empty (hempty : h.objects = []) : TimersFollow h := by
  intro p c hc
  rw [hempty] at hc
  cases hc

lemma timedStep_empty (ht : Timely h) (hempty : h.objects = []) (hopens : ¬h.Opens e)
    (hstep : h.timedStep e = .ok h') : h'.objects = [] := by
  obtain ⟨h₁, he, hend⟩ := bind_ok_iff.mp hstep
  obtain rfl := Except.ok.inj hend
  suffices h₁.objects = [] by
    rw [← List.length_eq_zero_iff, length_releaseKept, this, List.length_nil]
  obtain ⟨event, kept⟩ := e
  have hwaits := ht.waits_eq_nil hempty
  cases event with
  | receive source message =>
    have hfree := ht.find_eq_none hempty source
    simp only [timed, accept, handle, handleReceive, hfree] at he
    split at he
    · next hconnect =>
      obtain ⟨hmessage, hout⟩ := (Bool.and_eq_true _ _).mp hconnect
      refine absurd ⟨source, ?_, hfree, Bool.not_eq_true' _ ▸ hout⟩ hopens
      rw [of_decide_eq_true hmessage]
    · obtain rfl := Except.ok.inj he
      exact hempty
  | expire k =>
    obtain ⟨w, hw, _⟩ := expireNow_ok he
    rw [hwaits] at hw
    cases hw
  | aborted k =>
    rw [timed, hwaits] at he
    cases he
  | handleSend k =>
    simp only [timed, accept, handle] at he
    split at he
    · obtain rfl := Except.ok.inj he
      exact hempty
    · cases he

/-- The first connection that is accepted has no inactivity wait. -/
lemma not_timersFollow_of_opens (ht : Timely h) (hempty : h.objects = []) (hopens : h.Opens e) :
    ∃ h', h.timedStep e = .ok h' ∧ ¬TimersFollow h' := by
  obtain ⟨source, he, hfree, hout⟩ := hopens
  obtain ⟨event, kept⟩ := e
  obtain rfl : event = .receive source connectMsg := he
  have hreceive : h.timed (.receive source connectMsg) =
      .ok ((h.make source).1.receivedConnect (h.make source).2) := by
    simp [timed, accept, handle, handleReceive, hfree, hout]
  obtain ⟨hc, ho, hw⟩ := accepted_eq h source
  have ht' := (ht.timed hreceive).release kept
  refine ⟨_, by rw [timedStep, hreceive]; rfl, fun hfollow => ?_⟩
  have hfind := StdMap.find_insert_self h.connections source h.objects.length
  rw [hfree, Option.getD_none, ← hc] at hfind
  obtain ⟨c, hget, hep, halive⟩ := ht'.entry _ _ hfind
  have hreg : ((h.make source).1.receivedConnect (h.make source).2 |>.releaseKept kept).IsRegistered
      h.objects.length := by
    exact ht'.isRegistered hfind
  have hwait := pending_of_releaseKept ((hfollow _ c hget halive).1.mp hreg)
  rw [Pending, hw, Wait.pendingOn_rearm, ht.waits_eq_nil hempty, if_neg (by simp)] at hwait
  exact hwait rfl

end Empty

theorem timers_follow_registration_iff (outgoingOnly hasDisconnectCallback : Bool)
    (events : List Timed) :
    Always timedStep TimersImply (new outgoingOnly hasDisconnectCallback) events ∧
      (Always timedStep TimersFollow (new outgoingOnly hasDisconnectCallback) events ↔
        Guarded timedStep (fun h e => ¬h.Opens e) (new outgoingOnly hasDisconnectCallback)
          events) := by
  have hnew := timely_new outgoingOnly hasDisconnectCallback
  constructor
  · exact always_of_guarded (I := Timely) (C := fun _ _ => True) (fun _ ht => ht.imply)
      (fun _ _ _ ht _ hstep => timedStep_timely ht hstep) hnew
      (guarded_of_forall fun _ _ _ => trivial)
  · refine always_iff_guarded (I := fun h => Timely h ∧ h.objects = [])
      (fun _ h => timersFollow_of_empty h.2) ?_ ?_ ⟨hnew, rfl⟩
    · exact fun h e h' hi hopens hstep =>
        ⟨timedStep_timely hi.1 hstep, timedStep_empty hi.1 hi.2 hopens hstep⟩
    · intro h e hi hnext hopens
      obtain ⟨h', hstep, hnot⟩ := not_timersFollow_of_opens hi.1 hi.2 hopens
      exact hnot (hnext h' hstep)

/-- The first peer never sends a keep-alive; the second one falls silent after one, while a
keep-alive is still being sent to it. -/
theorem silent_peer_outlives_registration :
    (∃ h, run timedStep (new false true) [⟨.receive [1] connectMsg, []⟩] = .ok h ∧
      h.IsRegistered 0 ∧ ¬h.Pending 0 .connReceiveTimeout ∧ ¬TimersFollow h) ∧
    ∃ h, run timedStep (new false true)
        [⟨.receive [2] connectMsg, []⟩, ⟨.receive [2] keepAliveMsg, []⟩, ⟨.expire 1, []⟩] = .ok h ∧
      h.objects = [⟨[2], none, false, true⟩] ∧ ¬h.IsRegistered 0 ∧ h.Pending 0 .connSendTimer ∧
      ¬TimersFollow h := by
  refine ⟨⟨_, rfl, rfl, fun hp => hp rfl, fun hfollow => ?_⟩,
    ⟨_, rfl, rfl, fun hr => ?_, fun hp => ?_, fun hfollow => ?_⟩⟩
  · exact (hfollow 0 _ rfl rfl).1.mp rfl rfl
  · cases hr
  · cases hp
  · cases (hfollow 0 _ rfl rfl).2.mpr fun hp => by cases hp

end Host

end P2PNet.Transport
