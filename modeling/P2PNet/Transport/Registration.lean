import P2PNet.Transport.Establishment

/-! The accepting side of one host: connections that arise from UDP_CONNECT
datagrams. The handler of an inactivity timer that has expired reads a dangling
reference; it may escape, as in `runHandler`, or still find the interface and run
to its end, which is the event `inactivity`. Users may keep connections alive. -/

namespace P2PNet.Transport

open Lib Lib.Lists Lib.Runs

inductive AcceptEvent where
  | receive (source : Endpoint) (message : Bytes)
  | expire (wait : ℕ)
  | handler (wait : ℕ)
  | handleSend (send : ℕ)
  | inactivity (wait : ℕ)
  deriving DecidableEq, Repr

/-- An event, and the connections that users still hold after it. -/
structure Accepting where
  event : AcceptEvent
  kept : List ConnectionPtr
  deriving DecidableEq, Repr

namespace Host

variable {h h' : Host} {e : Accepting} {p : ConnectionPtr}

/-- The lambda of `receivedKeepAlive`, called with no error. -/
def inactivityHandler (h : Host) (p : ConnectionPtr) : Except Escape Host :=
  match h.objects[p]? with
  | none => .error .dangling
  | some c =>
    if c.alive then do
      let h ← h.disconnectCallback p .timedOut
      .ok ((h.setConnected p false).onDisconnect p)
    else .error .dangling

def accept (h : Host) : AcceptEvent → Except Escape Host
  | .receive source message => h.handle (.receive source message)
  | .expire k => h.handle (.expire k)
  | .handler k => h.handle (.handler k)
  | .handleSend k => h.handle (.handleSend k)
  | .inactivity k =>
    match Wait.take k h.waits with
    | none => .error .disabled
    | some (w, waits) =>
      if w.handler = .inactivity ∧ w.state = .expired then
        inactivityHandler { h with waits := waits } w.timer.1
      else .error .disabled

def releaseKept (h : Host) (kept : List ConnectionPtr) : Host :=
  { ({ h with sending := kept ++ h.sending } : Host).release with sending := h.sending }

def acceptStep (h : Host) (e : Accepting) : Except Escape Host := do
  let h ← h.accept e.event
  .ok (h.releaseKept e.kept)

/-- A connection that exists is registered under its endpoint exactly if it is connected. -/
def RegisteredIffConnected (h : Host) : Prop :=
  ∀ p c, h.objects[p]? = some c → c.alive = true →
    (h.connections.find c.endpoint = some p ↔ c.mConnected = true)

/-- The wait of an inactivity timer that has expired, whose connection exists, on a host with a
disconnect callback: its handler runs to its end. -/
structure RunsOut (h : Host) (w : Wait (ConnectionPtr × Timer) TimerHandler) : Prop where
  handler : w.handler = .inactivity
  expired : w.state = .expired
  alive : ∃ c, h.objects[w.timer.1]? = some c ∧ c.alive = true
  callback : h.hasDisconnectCallback = true

/-- No inactivity handler runs to its end while another connection, one that users or
sends still hold, is registered under the endpoint of its connection. -/
def SparesOthers (h : Host) (e : Accepting) : Prop :=
  ∀ k w q, e.event = .inactivity k → h.waits[k]? = some w → h.RunsOut w →
    h.connections.find (h.endpoint w.timer.1) = some q → q ≠ w.timer.1 →
    q ∉ e.kept ∧ q ∉ h.sending

structure Registered (h : Host) : Prop where
  entry : ∀ ep p, h.connections.find ep = some p → ∃ c, h.objects[p]? = some c ∧
    c.endpoint = ep ∧ c.mConnected = true ∧ c.alive = true
  object : ∀ p c, h.objects[p]? = some c → c.alive = true → c.mConnected = true →
    h.connections.find c.endpoint = some p

lemma Registered.law (hr : Registered h) : RegisteredIffConnected h := by
  intro p c hc halive
  constructor
  · intro hfind
    obtain ⟨c', hc', -, hconnected, -⟩ := hr.entry _ p hfind
    rwa [Option.some.inj (hc.symm.trans hc')]
  · exact hr.object p c hc halive

def Owned (h : Host) (kept : List ConnectionPtr) (p : ConnectionPtr) (c : UDPConnection) : Prop :=
  h.connections.find c.endpoint = some p ∨ p ∈ kept ∨ p ∈ h.sending

/-- What `handle` and the destruction of connections do to one object. -/
def Survives (h : Host) (kept : List ConnectionPtr) (p : ConnectionPtr) (c c' : UDPConnection) :
    Prop :=
  c'.endpoint = c.endpoint ∧ c'.mConnected = c.mConnected ∧
    (c'.alive = true ↔ c.alive = true ∧ h.Owned kept p c)

lemma getElem_releaseKept (h : Host) (kept : List ConnectionPtr) (p : ConnectionPtr) :
    ∃ f : UDPConnection → UDPConnection, (h.releaseKept kept).objects[p]? = h.objects[p]?.map f ∧
      ∀ c, h.Survives kept p c (f c) := by
  refine ⟨_, List.getElem?_mapIdx, fun c => ?_⟩
  have hheld : held { h with sending := kept ++ h.sending } p c = true ↔ h.Owned kept p c := by
    simp [held, Owned]
  by_cases howned : h.Owned kept p c
  · simp [Survives, hheld.mpr howned, howned]
  · have hnot : held { h with sending := kept ++ h.sending } p c = false := by
      rwa [← Bool.not_eq_true, hheld]
    cases halive : c.alive
    · simp [Survives, halive]
    · simp [Survives, hnot, howned, halive]

lemma of_releaseKept {kept : List ConnectionPtr} {c' : UDPConnection}
    (hc' : (h.releaseKept kept).objects[p]? = some c') :
    ∃ c, h.objects[p]? = some c ∧ h.Survives kept p c c' := by
  obtain ⟨f, hf, hsurvives⟩ := getElem_releaseKept h kept p
  rw [hf] at hc'
  obtain ⟨c, hc, rfl⟩ := Option.map_eq_some_iff.mp hc'
  exact ⟨c, hc, hsurvives c⟩

lemma survives_releaseKept (kept : List ConnectionPtr) {c : UDPConnection}
    (hc : h.objects[p]? = some c) :
    ∃ c', (h.releaseKept kept).objects[p]? = some c' ∧ h.Survives kept p c c' := by
  obtain ⟨f, hf, hsurvives⟩ := getElem_releaseKept h kept p
  exact ⟨f c, by rw [hf, hc, Option.map_some], hsurvives c⟩

/-- What an event does to the registered connections and to the objects, before those
without an owner are destroyed. -/
inductive Edits (h : Host) (e : AcceptEvent) (h' : Host) : Prop
  | nothing (hc : h'.connections = h.connections) (ho : h'.objects = h.objects) : Edits h e h'
  | opened {source : Endpoint} (hfree : h.connections.find source = none)
      (hc : h'.connections = h.connections.insert source h.objects.length)
      (ho : h'.objects = h.objects ++ [⟨source, none, true, true⟩]) : Edits h e h'
  | kept {source : Endpoint} {p : ConnectionPtr} (hfind : h.connections.find source = some p)
      (hc : h'.connections = h.connections)
      (ho : h'.objects = h.objects.modify p (fun c => { c with mConnected := true })) : Edits h e h'
  | closed {p : ConnectionPtr}
      (hcause : (∃ source, h.connections.find source = some p) ∨
        ∃ k w, e = .inactivity k ∧ h.waits[k]? = some w ∧ h.RunsOut w ∧ w.timer.1 = p)
      (hs : h'.sending = h.sending) (hc : h'.connections = h.connections.erase (h.endpoint p))
      (ho : h'.objects = h.objects.modify p (fun c => { c with mConnected := false })) :
      Edits h e h'

lemma endpoint_setConnected (h : Host) (p : ConnectionPtr) (value : Bool) :
    (h.setConnected p value).endpoint p = h.endpoint p := by
  simp only [endpoint, setConnected, modify, List.getElem?_modify]
  cases h.objects[p]? <;> rfl

lemma endpoint_eq {c : UDPConnection} (hc : h.objects[p]? = some c) :
    h.endpoint p = c.endpoint := by
  rw [endpoint, hc]
  rfl

lemma close_ok {error : P2PError}
    (hd : (h.disconnectCallback p error >>= fun h =>
      (.ok ((h.setConnected p false).onDisconnect p) : Except Escape Host)) = .ok h') :
    h'.connections = h.connections.erase (h.endpoint p) ∧
      h'.objects = h.objects.modify p (fun c => { c with mConnected := false }) ∧
      h'.sending = h.sending ∧ h'.waits = h.waits ∧ h.hasDisconnectCallback = true := by
  obtain ⟨h₁, hcall, hd⟩ := bind_ok_iff.mp hd
  rw [disconnectCallback] at hcall
  split at hcall
  · next hcallback =>
    obtain rfl := Except.ok.inj hcall
    obtain rfl := Except.ok.inj hd
    refine ⟨?_, rfl, rfl, rfl, hcallback⟩
    rw [onDisconnect, endpoint_setConnected]
    rfl
  · cases hcall

lemma accepted_eq (h : Host) (source : Endpoint) :
    ((h.make source).1.receivedConnect (h.make source).2).connections =
        h.connections.insert source h.objects.length ∧
      ((h.make source).1.receivedConnect (h.make source).2).objects =
        h.objects ++ [⟨source, none, true, true⟩] ∧
      ((h.make source).1.receivedConnect (h.make source).2).waits =
        Wait.rearm (h.objects.length, .connSendTimer) .sendKeepAlive h.waits :=
  ⟨receivedConnect_make_connections h source, modify_length_append _ _ _, rfl⟩

lemma receive_edits {source : Endpoint} {message : Bytes}
    (hr : h.handleReceive source message = .ok h') : Edits h (.receive source message) h' := by
  rw [handleReceive] at hr
  split at hr
  · next p hp =>
    split at hr
    · obtain rfl := Except.ok.inj hr
      exact .kept hp rfl rfl
    · split at hr
      · obtain ⟨hc, ho, hs, _⟩ := close_ok hr
        exact .closed (.inl ⟨source, hp⟩) hs hc ho
      · obtain rfl := Except.ok.inj hr
        exact .nothing rfl rfl
  · next hfree =>
    split at hr
    · obtain rfl := Except.ok.inj hr
      obtain ⟨hc, ho, _⟩ := accepted_eq h source
      exact .opened hfree hc ho
    · obtain rfl := Except.ok.inj hr
      exact .nothing rfl rfl

lemma inactivity_edits {k : ℕ} (ha : h.accept (.inactivity k) = .ok h') :
    ∃ w, h.waits[k]? = some w ∧ h.RunsOut w ∧
      h'.connections = h.connections.erase (h.endpoint w.timer.1) ∧
      h'.objects = h.objects.modify w.timer.1 (fun c => { c with mConnected := false }) ∧
      h'.sending = h.sending := by
  simp only [accept] at ha
  split at ha
  · cases ha
  · next w waits htake =>
    split at ha
    · next hexpired =>
      rw [inactivityHandler] at ha
      split at ha
      · cases ha
      · next c hc =>
        split at ha
        · next halive =>
          obtain ⟨hconn, ho, hs, -, hcallback⟩ := close_ok ha
          exact ⟨w, (Wait.take_eq_some_iff.mp htake).1,
            ⟨hexpired.1, hexpired.2, ⟨c, hc, halive⟩, hcallback⟩, hconn, ho, hs⟩
        · cases ha
    · cases ha

lemma RunsOut.accept {k : ℕ} {w : Wait (ConnectionPtr × Timer) TimerHandler} (hout : h.RunsOut w)
    (hw : h.waits[k]? = some w) : ∃ h', h.accept (.inactivity k) = .ok h' := by
  have htake : Wait.take k h.waits = some (w, h.waits.eraseIdx k) :=
    Wait.take_eq_some_iff.mpr ⟨hw, by simp [hout.expired], rfl⟩
  obtain ⟨c, hc, halive⟩ := hout.alive
  simp only [Host.accept, htake, hout.handler, hout.expired, true_and, if_true, inactivityHandler,
    hc, halive, disconnectCallback, hout.callback, ok_bind]
  exact ⟨_, rfl⟩

theorem accept_edits {e : AcceptEvent} (hs : Silent h) (ha : h.accept e = .ok h') :
    Edits h e h' := by
  cases e with
  | receive source message => exact receive_edits ha
  | expire k =>
    simp only [accept, handle] at ha
    split at ha
    · obtain rfl := Except.ok.inj ha
      exact .nothing rfl rfl
    · cases ha
  | handler k =>
    simp only [accept, handle] at ha
    split at ha
    · next w waits _ =>
      have hsilent : Silent { h with waits := waits } := hs
      rcases runHandler_ok hsilent ha with rfl | rfl
      · exact .nothing rfl rfl
      · exact .nothing rfl rfl
    · cases ha
  | handleSend k =>
    simp only [accept, handle] at ha
    split at ha
    · obtain rfl := Except.ok.inj ha
      exact .nothing rfl rfl
    · cases ha
  | inactivity k =>
    obtain ⟨w, hw, hout, hconn, ho, hsending⟩ := inactivity_edits ha
    exact .closed (.inr ⟨k, w, rfl, hw, hout, rfl⟩) hsending hconn ho

lemma Edits.silent {e : AcceptEvent} (hedits : Edits h e h') (hs : Silent h) : Silent h' := by
  have hmodify : ∀ p value, Silent (h.setConnected p value) := fun p value =>
    (frame_setConnected h p value).silent hs
  cases hedits with
  | nothing _ ho => rwa [Silent, ho]
  | opened _ _ ho =>
    rw [Silent, ho]
    intro c hc
    rcases List.mem_append.mp hc with hc | hc
    · exact hs c hc
    · rw [List.mem_singleton.mp hc]
  | kept _ _ ho =>
    rw [Silent, ho]
    exact hmodify _ true
  | closed _ _ _ ho =>
    rw [Silent, ho]
    exact hmodify _ false

lemma releaseKept_silent (hs : Silent h) (kept : List ConnectionPtr) :
    Silent (h.releaseKept kept) :=
  (frame_release { h with sending := kept ++ h.sending }).silent hs

/-- What `Registered` asks for before the connections without an owner are destroyed. -/
structure NearlyRegistered (h : Host) (kept : List ConnectionPtr) : Prop where
  entry : ∀ ep p, h.connections.find ep = some p → ∃ c, h.objects[p]? = some c ∧
    c.endpoint = ep ∧ c.mConnected = true ∧ c.alive = true
  object : ∀ p c, h.objects[p]? = some c → c.alive = true → c.mConnected = true →
    h.Owned kept p c → h.connections.find c.endpoint = some p

lemma NearlyRegistered.release {kept : List ConnectionPtr} (hn : NearlyRegistered h kept) :
    Registered (h.releaseKept kept) := by
  refine ⟨fun ep p hfind => ?_, fun p c' hc' halive hconnected => ?_⟩
  · obtain ⟨c, hc, hep, hconnected, halive⟩ := hn.entry ep p hfind
    obtain ⟨c', hc', hep', hconnected', halive'⟩ := survives_releaseKept kept hc
    refine ⟨c', hc', hep'.trans hep, hconnected'.trans hconnected, halive'.mpr ⟨halive, .inl ?_⟩⟩
    rw [hep]
    exact hfind
  · obtain ⟨c, hc, hep, hconnected', halive'⟩ := of_releaseKept hc'
    obtain ⟨halive, howned⟩ := halive'.mp halive
    rw [hep]
    exact hn.object p c hc halive (hconnected'.symm.trans hconnected) howned

lemma getElem_setConnected (h : Host) (p q : ConnectionPtr) (value : Bool) :
    (h.objects.modify p (fun c => { c with mConnected := value }))[q]? =
      h.objects[q]?.map fun c => if q = p then { c with mConnected := value } else c := by
  rw [List.getElem?_modify]
  simp only [eq_comm]
  rfl

lemma Registered.nearly (hr : Registered h) (kept : List ConnectionPtr) :
    NearlyRegistered h kept :=
  ⟨hr.entry, fun p c hp halive hconnected _ => hr.object p c hp halive hconnected⟩

lemma Registered.opened {source : Endpoint} (hr : Registered h)
    (hfree : h.connections.find source = none)
    (hc : h'.connections = h.connections.insert source h.objects.length)
    (ho : h'.objects = h.objects ++ [⟨source, none, true, true⟩]) : Registered h' := by
  have hlast : h'.objects[h.objects.length]? = some ⟨source, none, true, true⟩ := by
    rw [ho]
    exact List.getElem?_concat_length
  refine ⟨fun ep p hfind => ?_, fun p c hp halive hconnected => ?_⟩
  · rw [hc, StdMap.find_insert, hfree] at hfind
    split at hfind
    · next hep =>
      obtain rfl := Option.some.inj hfind
      exact ⟨_, hlast, hep.symm, rfl, rfl⟩
    · obtain ⟨c, hp, hrest⟩ := hr.entry ep p hfind
      exact ⟨c, ho ▸ getElem?_concat_of_some hp, hrest⟩
  · rw [ho] at hp
    rcases of_getElem?_concat hp with hp | ⟨rfl, rfl⟩
    · have hfind := hr.object p c hp halive hconnected
      have hne : c.endpoint ≠ source := by
        rintro rfl
        rw [hfree] at hfind
        cases hfind
      rw [hc, StdMap.find_insert_of_ne _ _ hne, hfind]
    · rw [hc, StdMap.find_insert_self, hfree]
      rfl

lemma Registered.kept {source : Endpoint} (hr : Registered h)
    (hfind : h.connections.find source = some p) (hc : h'.connections = h.connections)
    (ho : h'.objects = h.objects.modify p (fun c => { c with mConnected := true })) :
    Registered h' := by
  obtain ⟨c₀, hp₀, hep₀, -, -⟩ := hr.entry source p hfind
  refine ⟨fun ep q hq => ?_, fun q c hq halive hconnected => ?_⟩
  · rw [hc] at hq
    obtain ⟨c, hcq, hep, hconnected, halive⟩ := hr.entry ep q hq
    rw [ho, getElem_setConnected, hcq]
    refine ⟨_, rfl, ?_⟩
    split
    · exact ⟨hep, rfl, halive⟩
    · exact ⟨hep, hconnected, halive⟩
  · rw [ho, getElem_setConnected] at hq
    obtain ⟨c₁, hc₁, rfl⟩ := Option.map_eq_some_iff.mp hq
    rw [hc]
    by_cases hqp : q = p
    · subst hqp
      obtain rfl := Option.some.inj (hp₀.symm.trans hc₁)
      simpa [hep₀] using hfind
    · simp only [hqp, if_false] at halive hconnected ⊢
      exact hr.object q c₁ hc₁ halive hconnected

/-- With the entry of `p` that of another connection to the same endpoint is erased, which is
then to have no owner. -/
lemma Registered.closed {kept : List ConnectionPtr} (hr : Registered h)
    (hspares : ∀ q, h.connections.find (h.endpoint p) = some q → q ≠ p →
      q ∉ kept ∧ q ∉ h.sending)
    (hs : h'.sending = h.sending) (hc : h'.connections = h.connections.erase (h.endpoint p))
    (ho : h'.objects = h.objects.modify p (fun c => { c with mConnected := false })) :
    NearlyRegistered h' kept := by
  refine ⟨fun ep q hq => ?_, fun q c hq halive hconnected howned => ?_⟩
  · rw [hc, StdMap.find_erase] at hq
    split at hq
    · cases hq
    · next hne =>
      obtain ⟨c, hcq, hep, hrest⟩ := hr.entry ep q hq
      have hqp : q ≠ p := by
        rintro rfl
        exact hne (hep.symm.trans (endpoint_eq hcq).symm)
      refine ⟨c, ?_, hep, hrest⟩
      rw [ho, getElem_setConnected, hcq]
      simp [hqp]
  · rw [ho, getElem_setConnected] at hq
    obtain ⟨c₁, hc₁, rfl⟩ := Option.map_eq_some_iff.mp hq
    by_cases hqp : q = p
    · simp [hqp] at hconnected
    · simp only [hqp, if_false] at halive hconnected howned ⊢
      have hfind := hr.object q c₁ hc₁ halive hconnected
      by_cases hep : c₁.endpoint = h.endpoint p
      · obtain ⟨hkept, hsending⟩ := hspares q (hep ▸ hfind) hqp
        rcases howned with hreg | hreg | hreg
        · simp [hc, hep] at hreg
        · exact absurd hreg hkept
        · exact absurd (hs ▸ hreg) hsending
      · rw [hc, StdMap.find_erase_of_ne _ hep, hfind]

lemma Edits.nearlyRegistered {e : AcceptEvent} {kept : List ConnectionPtr} (hedits : Edits h e h')
    (hr : Registered h)
    (hspares : ∀ k w q, e = .inactivity k → h.waits[k]? = some w → h.RunsOut w →
      h.connections.find (h.endpoint w.timer.1) = some q → q ≠ w.timer.1 →
      q ∉ kept ∧ q ∉ h.sending) : NearlyRegistered h' kept := by
  cases hedits with
  | nothing hc ho =>
    have hr' : Registered h' := ⟨by rw [hc, ho]; exact hr.entry, by rw [hc, ho]; exact hr.object⟩
    exact hr'.nearly kept
  | opened hfree hc ho => exact (hr.opened hfree hc ho).nearly kept
  | kept hfind hc ho => exact (hr.kept hfind hc ho).nearly kept
  | @closed p hcause hs hc ho =>
    refine hr.closed (fun q hq hqp => ?_) hs hc ho
    rcases hcause with ⟨source, hsource⟩ | ⟨k, w, he, hw, hout, rfl⟩
    · obtain ⟨c, hcp, hep, -⟩ := hr.entry source p hsource
      rw [endpoint_eq hcp, hep, hsource] at hq
      exact absurd (Option.some.inj hq).symm hqp
    · exact hspares k w q he hw hout hq hqp

lemma acceptStep_registered (hr : Registered h) (hs : Silent h) (hspares : SparesOthers h e)
    (hstep : h.acceptStep e = .ok h') : Registered h' ∧ Silent h' := by
  obtain ⟨h₁, ha, hend⟩ := bind_ok_iff.mp hstep
  obtain rfl := Except.ok.inj hend
  have hedits := accept_edits hs ha
  exact ⟨(hedits.nearlyRegistered hr hspares).release,
    releaseKept_silent (hedits.silent hs) e.kept⟩

lemma sparesOthers_of_law (hr : Registered h)
    (hnext : ∀ h', h.acceptStep e = .ok h' → RegisteredIffConnected h') : SparesOthers h e := by
  intro k w q he hw hout hfind hqp
  obtain ⟨h₁, ha⟩ := hout.accept hw
  have hstep : h.acceptStep e = .ok (h₁.releaseKept e.kept) := by
    rw [acceptStep, he, ha, ok_bind]
  obtain ⟨w', hw', -, hc, ho, hs⟩ := inactivity_edits ha
  obtain rfl := Option.some.inj (hw.symm.trans hw')
  obtain ⟨cq, hq, hep, hconnected, halive⟩ := hr.entry _ q hfind
  have hq₁ : h₁.objects[q]? = some cq := by
    rw [ho, getElem_setConnected, hq]
    simp [hqp]
  -- if `q` had another owner, it would be connected and not registered
  by_contra howner
  have howned : h₁.Owned e.kept q cq := by
    rw [not_and_or, not_not, not_not] at howner
    exact .inr (howner.imp id (fun hmem => hs ▸ hmem))
  obtain ⟨c', hc', hep', hconnected', halive'⟩ := survives_releaseKept e.kept hq₁
  have hlaw := (hnext _ hstep q c' hc' (halive'.mpr ⟨halive, howned⟩)).mpr
    (hconnected'.trans hconnected)
  rw [hep', hep] at hlaw
  change h₁.connections.find _ = _ at hlaw
  simp [hc] at hlaw

theorem registered_iff_connected (outgoingOnly hasDisconnectCallback : Bool)
    (events : List Accepting) :
    Always acceptStep RegisteredIffConnected (new outgoingOnly hasDisconnectCallback) events ↔
      Guarded acceptStep SparesOthers (new outgoingOnly hasDisconnectCallback) events := by
  have hnew : Registered (new outgoingOnly hasDisconnectCallback) ∧
      Silent (new outgoingOnly hasDisconnectCallback) := by
    refine ⟨⟨fun ep p hfind => ?_, fun p c hc => ?_⟩, fun c hc => ?_⟩
    · simp [new] at hfind
    · cases hc
    · cases hc
  refine always_iff_guarded (I := fun h => Registered h ∧ Silent h) (fun _ h => h.1.law) ?_ ?_ hnew
  · exact fun h e h' hi hspares hstep => acceptStep_registered hi.1 hi.2 hspares hstep
  · exact fun h e hi hnext => sparesOthers_of_law hi.1 hnext

theorem stale_handler_unregisters_other :
    ∃ h, run acceptStep (new false true)
      [⟨.receive [1] connectMsg, []⟩, ⟨.receive [1] keepAliveMsg, []⟩, ⟨.expire 1, []⟩,
        ⟨.receive [1] disconnectMsg, []⟩, ⟨.receive [1] connectMsg, []⟩,
        ⟨.inactivity 1, []⟩] = .ok h ∧
      h.connections.find [1] = none ∧ h.objects[1]? = some ⟨[1], none, true, true⟩ ∧
      ¬RegisteredIffConnected h := by
  refine ⟨_, rfl, rfl, rfl, fun hlaw => ?_⟩
  cases (hlaw 1 ⟨[1], none, true, true⟩ rfl rfl).mpr rfl

end Host

end P2PNet.Transport
