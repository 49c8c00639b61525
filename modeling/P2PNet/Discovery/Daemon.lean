import P2PNet.Discovery.Announcements
import P2PNet.Discovery.BootstrapDiscovery
import P2PNet.Transport.Provenance

/-! `Daemon::run`, which puts the transport and the discovery services together. Nobody gives
the transport a receive callback, so its interface receives nothing. -/

namespace P2PNet.Discovery

open Lib Lib.Runs Transport UDPDiscoveryMessage

/-- What `run` finds: whether the UDP interface and the two local discoveries are enabled and can
be set up, these with what their buffers hold, and the content of the bootstrap file. -/
structure Settings where
  udpEnabled : Bool
  outgoingOnly : Bool
  bootstrapFile : Option Bytes
  udpv4 : Option Buffer
  udpv6 : Option Buffer

structure Daemon where
  udpInterface : Option Host
  discoveryUdpv4 : Option UDPLPD
  discoveryUdpv6 : Option UDPLPD

inductive Family where
  | v4
  | v6
  deriving DecidableEq, Repr

inductive DaemonEvent where
  | discovery (family : Family) (event : Event)
  | transport (event : HostEvent)

namespace Daemon

def discovery (d : Daemon) : Family → Option UDPLPD
  | .v4 => d.discoveryUdpv4
  | .v6 => d.discoveryUdpv6

def setDiscovery (d : Daemon) (lpd : UDPLPD) : Family → Daemon
  | .v4 => { d with discoveryUdpv4 := some lpd }
  | .v6 => { d with discoveryUdpv6 := some lpd }

/-- `DiscoveryService::handshake`; the callback is told by the number of calls before it. -/
def handshake (d : Daemon) (endpoint : Endpoint) : Except Escape Daemon :=
  match d.udpInterface with
  -- `interfaces[endpoint.getPrefix()]` is a new empty pointer
  | none => .error .dangling
  | some h =>
    match h.connections.find endpoint with
    | some _ => .ok d
    | none => do
      let h ← h.step (.connect endpoint h.objects.length)
      .ok { d with udpInterface := some h }

def transportSocket (settings : Settings) : Transport.Socket :=
  if settings.udpEnabled then Transport.Socket.new.registerInterface .udp else .new

section Run

variable {A : Addresses} (address : ℕ → A.Address)

def endpoint (peer : ℕ × UInt16) : Endpoint :=
  (UDPInterfaceEndpoint (address peer.1) peer.2).toString

def bootstrapped (A : Addresses) (settings : Settings) : Bootstrapped A :=
  bootstrap A (transportSocket settings) (settings.bootstrapFile.getD [])

/-- `run` up to the main loop. -/
def start (A : Addresses) (settings : Settings) : Except Escape Daemon := do
  let host := Host.new settings.outgoingOnly false
  let d : Daemon := ⟨if settings.udpEnabled then some host else none, none, none⟩
  let peers := bootstrapped A settings
  let d ← peers.handshakes.foldlM (fun d peer => d.handshake peer.toString) d
  -- an exception that `BootstrapDiscovery::run` lets through is caught nowhere
  if peers.escaped.isSome then .error .terminate
  else .ok { d with
    discoveryUdpv4 := settings.udpv4.map UDPLPD.startReceiveLoop
    discoveryUdpv6 := settings.udpv6.map UDPLPD.startReceiveLoop }

/-- Calls of `connect` come from `handshake` only. -/
def happens : HostEvent → Bool
  | .connect _ _ | .receive _ _ => false
  | .expire _ | .handler _ | .handleSend _ => true

def step (d : Daemon) : DaemonEvent → Except Escape Daemon
  | .discovery family event =>
    match d.discovery family with
    | none => .error .disabled
    | some lpd => do
      let lpd' ← lpd.step parseFromString event
      let found := lpd'.handshakes.drop lpd.handshakes.length
      found.foldlM (fun d peer => d.handshake (endpoint address peer)) (d.setDiscovery lpd' family)
  | .transport event =>
    match d.udpInterface with
    | none => .error .disabled
    | some h =>
      if happens event then do
        let h ← h.step event
        .ok { d with udpInterface := some h }
      else .error .disabled

end Run

end Daemon

section Quiet

open Transport.Host

variable {h h' : Host}

/-- Nothing is registered, nothing was received or reported, and the timers that run are those
of connections under way. -/
structure Quiet (h : Host) : Prop where
  connections : ∀ e, h.connections.find e = none
  received : h.received = []
  connectCalls : h.connectCalls = []
  disconnectCalls : h.disconnectCalls = []
  silent : h.Silent
  waits : ∀ w ∈ h.waits, w.handler = .connecting

lemma quiet_new (outgoingOnly : Bool) : Quiet (Host.new outgoingOnly false) :=
  ⟨fun _ => rfl, rfl, rfl, rfl, List.forall_mem_nil _, List.forall_mem_nil _⟩

lemma Quiet.release (hq : Quiet h) : Quiet h.release where
  connections := hq.connections
  received := hq.received
  connectCalls := hq.connectCalls
  disconnectCalls := hq.disconnectCalls
  silent := (frame_release h).silent hq.silent
  waits := by
    intro w hw
    obtain ⟨w₀, hw₀, rfl⟩ := List.mem_map.mp hw
    split
    · rw [Wait.handler_abort]
      exact hq.waits w₀ hw₀
    · exact hq.waits w₀ hw₀

lemma Quiet.connect (hq : Quiet h) (e : Endpoint) (callback : CallbackId) :
    Quiet (h.connect e callback) where
  connections := hq.connections
  received := hq.received
  connectCalls := hq.connectCalls
  disconnectCalls := hq.disconnectCalls
  silent := (frame_connect h e callback).silent hq.silent
  waits := by
    intro w hw
    rcases List.mem_append.mp hw with hw | hw
    · obtain ⟨w₀, hw₀, rfl⟩ := List.mem_map.mp hw
      split
      · rw [Wait.handler_abort]
        exact hq.waits w₀ hw₀
      · exact hq.waits w₀ hw₀
    · obtain rfl := List.mem_singleton.mp hw
      rfl

lemma sent_connect (h : Host) (e : Endpoint) (callback : CallbackId) :
    (h.connect e callback).sent = h.sent ++ [(e, connectMsg)] := by
  simp [Host.connect, make, connectionConnect, Host.send, rearm, Host.endpoint, UDPConnection.new]

lemma Quiet.step_connect (hq : Quiet h) {e : Endpoint} {callback : CallbackId}
    (hs : h.step (.connect e callback) = .ok h') :
    Quiet h' ∧ h'.sent = h.sent ++ [(e, connectMsg)] := by
  obtain ⟨h₁, hh, rfl⟩ := step_ok hs
  obtain rfl := Except.ok.inj hh
  exact ⟨(hq.connect e callback).release, sent_connect h e callback⟩

/-- A handler of a timer finds its connection destroyed or without a callback. -/
lemma Quiet.handler (hq : Quiet h) (k : ℕ) : h.step (.handler k) ≠ .ok h' := by
  intro hs
  obtain ⟨h₁, hh, -⟩ := step_ok hs
  rw [handle] at hh
  split at hh
  · next w waits htake =>
    obtain ⟨hw, -, -⟩ := Wait.take_eq_some_iff.mp htake
    rw [hq.waits w (List.mem_of_getElem? hw)] at hh
    have hsilent : Silent { h with waits := waits } := hq.silent
    exact runHandler_connecting hsilent _ _ hh
  · cases hh

lemma Quiet.step_other (hq : Quiet h) {event : HostEvent} (hs : h.step event = .ok h')
    (hhappens : Daemon.happens event) : Quiet h' ∧ h'.sent = h.sent := by
  obtain ⟨h₁, hh, rfl⟩ := step_ok hs
  suffices Quiet h₁ ∧ h₁.sent = h.sent from ⟨this.1.release, this.2⟩
  cases event with
  | connect e callback => cases hhappens
  | receive e message => cases hhappens
  | expire k =>
    rw [handle] at hh
    split at hh
    · next waits hexpire =>
      obtain rfl := Except.ok.inj hh
      obtain ⟨w, hw, -, rfl⟩ := Wait.expire_eq_some_iff.mp hexpire
      refine ⟨⟨hq.connections, hq.received, hq.connectCalls, hq.disconnectCalls, hq.silent, ?_⟩,
        rfl⟩
      intro w' hw'
      rcases List.mem_or_eq_of_mem_set hw' with hw' | rfl
      · exact hq.waits w' hw'
      · exact hq.waits w (List.mem_of_getElem? hw)
    · cases hh
  | handler k => exact absurd hs (hq.handler k)
  | handleSend k =>
    rw [handle] at hh
    split at hh
    · obtain rfl := Except.ok.inj hh
      exact ⟨⟨hq.connections, hq.received, hq.connectCalls, hq.disconnectCalls, hq.silent,
        hq.waits⟩, rfl⟩
    · cases hh

end Quiet

namespace Daemon

variable {A : Addresses} {address : ℕ → A.Address} {d d' : Daemon}

def sent (d : Daemon) : List (Endpoint × Bytes) := (d.udpInterface.map Host.sent).getD []

def handshakes (d : Daemon) (family : Family) : List (ℕ × UInt16) :=
  ((d.discovery family).map UDPLPD.handshakes).getD []

/-- The endpoints that a handshake was tried with, in some order. -/
def tried (address : ℕ → A.Address) (settings : Settings) (d : Daemon) : List Endpoint :=
  (bootstrapped A settings).handshakes.map IPInterfaceEndpoint.toString ++
    (d.handshakes .v4 ++ d.handshakes .v6).map (endpoint address)

lemma handshake_ok (hq : ∀ h ∈ d.udpInterface, Quiet h) {e : Endpoint}
    (hs : d.handshake e = .ok d') :
    (∀ h ∈ d'.udpInterface, Quiet h) ∧ d'.sent = d.sent ++ [(e, connectMsg)] ∧
      d'.discovery = d.discovery := by
  rw [handshake] at hs
  split at hs
  · cases hs
  · next h hh =>
    rw [(hq h hh).connections] at hs
    obtain ⟨h', hstep, hd⟩ := bind_ok_iff.mp hs
    obtain rfl := Except.ok.inj hd
    obtain ⟨hquiet, hsent⟩ := (hq h hh).step_connect hstep
    refine ⟨fun _ hmem => Option.some.inj hmem ▸ hquiet, ?_, ?_⟩
    · rw [sent, sent, hh]
      exact hsent
    · funext family
      cases family <;> rfl

lemma handshakes_ok {peers : List Endpoint} (hq : ∀ h ∈ d.udpInterface, Quiet h)
    (hs : peers.foldlM handshake d = .ok d') :
    (∀ h ∈ d'.udpInterface, Quiet h) ∧ d'.sent = d.sent ++ peers.map (·, connectMsg) ∧
      d'.discovery = d.discovery := by
  induction peers generalizing d with
  | nil =>
    obtain rfl := Except.ok.inj hs
    exact ⟨hq, (List.append_nil _).symm, rfl⟩
  | cons e peers ih =>
    rw [List.foldlM_cons] at hs
    obtain ⟨u, hu, hrest⟩ := bind_ok_iff.mp hs
    obtain ⟨hquiet, hsent, hsame⟩ := handshake_ok hq hu
    obtain ⟨hquiet', hsent', hsame'⟩ := ih hquiet hrest
    refine ⟨hquiet', ?_, hsame'.trans hsame⟩
    rw [hsent', hsent, List.append_assoc]
    rfl

lemma handshakes_step {lpd lpd' : UDPLPD} {event : Event}
    (hs : lpd.step parseFromString event = .ok lpd') : lpd.handshakes <+: lpd'.handshakes := by
  cases event with
  | arrive datagram =>
    obtain rfl := Except.ok.inj hs
    exact List.prefix_rfl
  | transfer =>
    rw [UDPLPD.step] at hs
    split at hs
    · obtain rfl := Except.ok.inj hs
      exact List.prefix_rfl
    · cases hs
  | handle =>
    rw [UDPLPD.step] at hs
    split at hs
    · obtain rfl := Except.ok.inj hs
      rw [UDPLPD.processReceived_eq]
      exact List.prefix_append _ _
    · cases hs

variable (address) in
lemma tried_setDiscovery (settings : Settings) {family : Family} {lpd lpd' : UDPLPD}
    (hlpd : d.discovery family = some lpd) {found : List (ℕ × UInt16)}
    (hfound : lpd'.handshakes = lpd.handshakes ++ found) :
    (tried address settings (d.setDiscovery lpd' family)).Perm
      (tried address settings d ++ found.map (endpoint address)) := by
  have hown : d.handshakes family = lpd.handshakes := by
    rw [handshakes, hlpd]
    rfl
  rw [tried, tried, List.append_assoc, ← List.map_append]
  apply List.Perm.append_left
  apply List.Perm.map
  cases family with
  | v4 =>
    have hafter : (d.setDiscovery lpd' .v4).handshakes .v4 = d.handshakes .v4 ++ found :=
      hfound.trans (hown ▸ rfl)
    have hother : (d.setDiscovery lpd' .v4).handshakes .v6 = d.handshakes .v6 := rfl
    rw [hafter, hother, List.append_assoc, List.append_assoc]
    exact List.perm_append_comm.append_left _
  | v6 =>
    have hafter : (d.setDiscovery lpd' .v6).handshakes .v6 = d.handshakes .v6 ++ found :=
      hfound.trans (hown ▸ rfl)
    have hother : (d.setDiscovery lpd' .v6).handshakes .v4 = d.handshakes .v4 := rfl
    rw [hafter, hother, List.append_assoc]

structure OnlyConnects (address : ℕ → A.Address) (settings : Settings) (d : Daemon) : Prop where
  quiet : ∀ h ∈ d.udpInterface, Quiet h
  sent : d.sent.Perm ((tried address settings d).map (·, connectMsg))

lemma tried_congr {settings : Settings} (h : d'.discovery = d.discovery) :
    tried address settings d' = tried address settings d := by
  rw [tried, tried, handshakes, handshakes, handshakes, handshakes, h]

lemma transport_ok {event : HostEvent} (hs : d.step address (.transport event) = .ok d') :
    ∃ host host', d.udpInterface = some host ∧ happens event = true ∧ host.step event = .ok host' ∧
      d' = { d with udpInterface := some host' } := by
  rw [step] at hs
  split at hs
  · cases hs
  · next host hhost =>
    split at hs
    · next hhappens =>
      obtain ⟨host', hstep, hd⟩ := bind_ok_iff.mp hs
      exact ⟨host, host', hhost, hhappens, hstep, (Except.ok.inj hd).symm⟩
    · cases hs

lemma step_onlyConnects {settings : Settings} (d : Daemon) (event : DaemonEvent) (d' : Daemon)
    (h : OnlyConnects address settings d) (hs : d.step address event = .ok d') :
    OnlyConnects address settings d' := by
  cases event with
  | discovery family event =>
    rw [step] at hs
    split at hs
    · cases hs
    · next lpd hlpd =>
      obtain ⟨lpd', hlpd', hfold⟩ := bind_ok_iff.mp hs
      have hfound := (List.prefix_iff_eq_append.mp (handshakes_step hlpd')).symm
      generalize lpd'.handshakes.drop lpd.handshakes.length = found at hfold hfound
      have hquiet : ∀ h ∈ (d.setDiscovery lpd' family).udpInterface, Quiet h := by
        cases family <;> exact h.quiet
      have hsent : (d.setDiscovery lpd' family).sent = d.sent := by
        cases family <;> rfl
      rw [← List.foldlM_map] at hfold
      obtain ⟨hquiet', hsent', hsame⟩ := handshakes_ok hquiet hfold
      refine ⟨hquiet', ?_⟩
      rw [hsent', hsent, tried_congr hsame]
      have htried := (tried_setDiscovery address settings hlpd hfound).map
        (·, connectMsg)
      rw [List.map_append] at htried
      exact (h.sent.append_right _).trans htried.symm
  | transport event =>
    obtain ⟨host, host', hhost, hhappens, hstep, rfl⟩ := transport_ok hs
    obtain ⟨hquiet, hsent⟩ := (h.quiet host hhost).step_other hstep hhappens
    refine ⟨fun _ hmem => Option.some.inj hmem ▸ hquiet, ?_⟩
    have hsame : sent { d with udpInterface := some host' } = d.sent := by
      rw [sent, sent, hhost]
      exact hsent
    rw [hsame]
    exact h.sent

lemma start_onlyConnects {settings : Settings} (hs : start A settings = .ok d) :
    OnlyConnects address settings d := by
  obtain ⟨u, hu, hd⟩ := bind_ok_iff.mp hs
  split at hd
  · cases hd
  · obtain rfl := Except.ok.inj hd
    have hfirst : ∀ h ∈ (if settings.udpEnabled then some (Host.new settings.outgoingOnly false)
        else none), Quiet h ∧ h.sent = [] := by
      intro h hh
      split at hh
      · obtain rfl := Option.some.inj hh
        exact ⟨quiet_new settings.outgoingOnly, rfl⟩
      · cases hh
    rw [← List.foldlM_map] at hu
    obtain ⟨hquiet, hsent, -⟩ := handshakes_ok (fun h hh => (hfirst h hh).1) hu
    refine ⟨hquiet, ?_⟩
    have hlpd : ∀ o : Option Buffer,
        ((o.map UDPLPD.startReceiveLoop).map UDPLPD.handshakes).getD [] = [] := by
      intro o
      cases o <;> rfl
    have hnone : sent ⟨if settings.udpEnabled then some (Host.new settings.outgoingOnly false)
        else none, none, none⟩ = [] := by
      rw [sent]
      split <;> rfl
    have htried : tried address settings { u with
        discoveryUdpv4 := settings.udpv4.map UDPLPD.startReceiveLoop
        discoveryUdpv6 := settings.udpv6.map UDPLPD.startReceiveLoop } =
        (bootstrapped A settings).handshakes.map IPInterfaceEndpoint.toString := by
      rw [tried, handshakes, handshakes, discovery, discovery, hlpd, hlpd]
      exact List.append_nil _
    rw [htried]
    rw [hnone, List.nil_append] at hsent
    exact List.Perm.of_eq hsent

/-- The daemon sends a `UDP_CONNECT` for every peer that it finds, as often as it finds it, and
nothing else; it has no connection, and no handler of a timer returns. -/
theorem only_connects (address : ℕ → A.Address) (settings : Settings) (d : Daemon)
    (hstart : start A settings = .ok d) (events : List DaemonEvent) (d' : Daemon)
    (h : run (step address) d events = .ok d') :
    d'.sent.Perm ((tried address settings d').map (·, connectMsg)) ∧
      (∀ host, d'.udpInterface = some host → (∀ e, host.connections.find e = none) ∧
        host.received = [] ∧ host.connectCalls = [] ∧ host.disconnectCalls = []) ∧
      ∀ k d'', d'.step address (.transport (.handler k)) ≠ .ok d'' := by
  obtain ⟨hquiet, hsent⟩ := invariant step_onlyConnects (start_onlyConnects hstart) h
  refine ⟨hsent, fun host hhost => ?_, fun k d'' hs => ?_⟩
  · have hq := hquiet host hhost
    exact ⟨hq.connections, hq.received, hq.connectCalls, hq.disconnectCalls⟩
  · obtain ⟨host, host', hhost, -, hstep, -⟩ := transport_ok hs
    exact (hquiet host hhost).handler k hstep

def sampleSettings : Settings :=
  ⟨true, false, none, some ⟨List.replicate maxUdpPacketSize 0, List.length_replicate⟩, none⟩

def samplePeer (n : ℕ) : IPAddress := .v4 10 0 0 (UInt8.ofNat n)

-- two announcements, the second of which is handled with the port of the first
def sampleFinds : List DaemonEvent :=
  [.discovery .v4 (.arrive ⟨1, [8, 144, 78], by decide⟩), .discovery .v4 .transfer,
    .discovery .v4 .handle, .discovery .v4 (.arrive ⟨2, [8, 145, 78], by decide⟩),
    .discovery .v4 .transfer, .discovery .v4 .handle, .transport (.handleSend 0)]

theorem only_connects_announced :
    ∃ d d', start sampleAddresses sampleSettings = .ok d ∧
      run (step (A := sampleAddresses) samplePeer) d sampleFinds = .ok d' ∧
      d'.sent.Perm [(endpoint (A := sampleAddresses) samplePeer (2, 10000), connectMsg)] ∧
      ∀ k d'', d'.step (A := sampleAddresses) samplePeer (.transport (.handler k)) ≠ .ok d'' := by
  have hnone : bootstrapped sampleAddresses sampleSettings = ⟨[], none⟩ := by
    rw [bootstrapped, bootstrap_eq]
    rfl
  have hstart : start sampleAddresses sampleSettings =
      .ok ⟨some (Host.new false false), some (.startReceiveLoop
        ⟨List.replicate maxUdpPacketSize 0, List.length_replicate⟩), none⟩ := by
    rw [start, hnone]
    rfl
  refine ⟨_, _, hstart, rfl, ?_⟩
  obtain ⟨hsent, -, hhandler⟩ := only_connects (A := sampleAddresses) samplePeer sampleSettings _
    hstart sampleFinds _ rfl
  refine ⟨?_, hhandler⟩
  simp only [tried, hnone] at hsent
  exact hsent

end Daemon

end P2PNet.Discovery
