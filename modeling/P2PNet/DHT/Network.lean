import P2PNet.DHT.Service
import P2PNet.Lib.Runs
import Mathlib.Algebra.BigOperators.Ring.List
import Mathlib.Algebra.Order.BigOperators.Group.List

/-! Any number of DHT services that query each other. Messages are delivered in any order,
lost or duplicated, and the routing tables change in between. -/

namespace P2PNet.DHT

open Lib.Runs

variable {ν : Type}

structure Packet where
  source : Hash
  dest : Hash
  part : DHTPart
  deriving DecidableEq, Repr

structure Finding where
  finder : Hash
  source : Hash
  serializedContact : Bytes
  deriving DecidableEq, Repr

structure Network (ν : Type) where
  services : Hash → DHTService ν
  inFlight : List Packet
  found : List Finding

open DHTService in
inductive NetworkEvent (ν : Type) where
  | find (requester : Hash) (query : Query) (findHash responder : Hash)
  | deliver (position : ℕ)
  | lose (position : ℕ)
  | duplicate (position : ℕ)
  | change (node : Hash) (service : DHTService ν)

namespace Network

def new (services : Hash → DHTService ν) : Network ν := ⟨services, [], []⟩

def packetOf (node : Hash) : Action → Option Packet
  | .send dest part => some ⟨node, dest, part⟩
  | .foundNode _ => none

def findingOf (node peer : Hash) : Action → Option Finding
  | .send _ _ => none
  | .foundNode contact => some ⟨node, peer, contact⟩

/-- What a call at `node`, about a message of `peer`, does to the network. -/
def perform (n : Network ν) (node peer : Hash) (actions : List Action) : Network ν :=
  { n with
    inFlight := n.inFlight ++ actions.filterMap (packetOf node)
    found := n.found ++ actions.filterMap (findingOf node peer) }

def step (n : Network ν) : NetworkEvent ν → Except Unit (Network ν)
  | .find requester query findHash responder =>
    .ok (n.perform requester responder
      ((n.services requester).find query findHash responder))
  | .deliver position =>
    match n.inFlight[position]? with
    | none => .error ()
    | some packet =>
      let n := { n with inFlight := n.inFlight.eraseIdx position }
      .ok (n.perform packet.dest packet.source
        ((n.services packet.dest).process packet.source packet.part))
  | .lose position => .ok { n with inFlight := n.inFlight.eraseIdx position }
  | .duplicate position =>
    match n.inFlight[position]? with
    | none => .error ()
    | some packet => .ok { n with inFlight := n.inFlight ++ [packet] }
  | .change node service => .ok { n with services := Function.update n.services node service }

lemma deliver_ok {n n' : Network ν} {k : ℕ} (h : n.step (.deliver k) = .ok n') :
    ∃ p, n.inFlight[k]? = some p ∧
      n' = perform { n with inFlight := n.inFlight.eraseIdx k } p.dest p.source
        ((n.services p.dest).process p.source p.part) := by
  rw [step] at h
  split at h
  · cases h
  · next p hp => exact ⟨p, hp, (Except.ok.inj h).symm⟩

lemma duplicate_ok {n n' : Network ν} {k : ℕ} (h : n.step (.duplicate k) = .ok n') :
    ∃ p, n.inFlight[k]? = some p ∧ n' = { n with inFlight := n.inFlight ++ [p] } := by
  rw [step] at h
  split at h
  · cases h
  · next p hp => exact ⟨p, hp, (Except.ok.inj h).symm⟩

lemma process_eq (s : DHTService ν) (source : Hash) (part : DHTPart) :
    s.process source part =
      match part.getMessageType with
      | .findNode => [.send source (s.answer .node part.getHash)]
      | .findValue => [.send source (s.answer .value part.getHash)]
      | .findNodeReply => part.serializedContactList.map .foundNode
      | .store | .delete | .findValueReply => [] := by
  cases h : part.getMessageType <;> simp [DHTService.process, DHTService.answer, h] <;> rfl

section Traffic

/-- What a message can still cause: a request its delivery and that of the answer, anything
else its delivery. -/
def weight (p : Packet) : ℕ :=
  match p.part.getMessageType with
  | .findNode | .findValue => 2
  | _ => 1

def load (packets : List Packet) : ℕ := (packets.map weight).sum

def isDelivery : NetworkEvent ν → ℕ
  | .deliver _ => 1
  | _ => 0

/-- The calls of `findNode` and `findValue`, and the duplicates that the network makes. -/
def isIssue : NetworkEvent ν → ℕ
  | .find _ _ _ _ | .duplicate _ => 1
  | _ => 0

lemma load_append (xs ys : List Packet) : load (xs ++ ys) = load xs + load ys := by
  rw [load, List.map_append, List.sum_append]
  rfl

lemma weight_le (p : Packet) : weight p ≤ 2 := by
  rw [weight]
  split <;> omega

lemma load_eraseIdx {packets : List Packet} {k : ℕ} {p : Packet} (h : packets[k]? = some p) :
    weight p + load (packets.eraseIdx k) = load packets := by
  obtain ⟨hk, rfl⟩ := List.getElem?_eq_some_iff.mp h
  exact ((List.getElem_cons_eraseIdx_perm hk).map weight).sum_eq

lemma load_eraseIdx_le (packets : List Packet) (k : ℕ) :
    load (packets.eraseIdx k) ≤ load packets :=
  ((List.eraseIdx_sublist packets k).map weight).sum_le_sum fun _ _ => Nat.zero_le _

/-- Delivering a message causes less than its own weight. -/
lemma load_process (s : DHTService ν) (p : Packet) :
    load ((s.process p.source p.part).filterMap (packetOf p.dest)) + 1 ≤ weight p := by
  have hfound (contacts : List Bytes) :
      (contacts.map Action.foundNode).filterMap (packetOf p.dest) = [] := by
    simp [List.filterMap_map, packetOf, Function.comp_def]
  rw [process_eq, weight]
  cases h : p.part.getMessageType with
  | findNode | findValue => exact Nat.le_refl _
  | findNodeReply =>
    simp only [hfound]
    exact Nat.le_refl _
  | store | delete | findValueReply => exact Nat.le_refl _

lemma step_load (n : Network ν) (e : NetworkEvent ν) (n' : Network ν) (h : n.step e = .ok n') :
    isDelivery e + load n'.inFlight ≤ load n.inFlight + 2 * isIssue e := by
  cases e with
  | find requester query findHash responder =>
    obtain rfl := Except.ok.inj h
    simp only [perform, isDelivery, isIssue, load_append, DHTService.find_eq]
    have hweight := weight_le ⟨requester, responder, query.request findHash⟩
    change _ ≤ _ at hweight
    simp only [List.filterMap_cons, List.filterMap_nil, packetOf, load, List.map_cons, List.map_nil,
      List.sum_cons, List.sum_nil]
    omega
  | deliver k =>
    obtain ⟨p, hp, rfl⟩ := deliver_ok h
    have herase := load_eraseIdx hp
    have hcaused := load_process (n.services p.dest) p
    simp only [perform, isDelivery, isIssue, load_append]
    omega
  | lose k =>
    obtain rfl := Except.ok.inj h
    have herase := load_eraseIdx_le n.inFlight k
    simp only [isDelivery, isIssue]
    omega
  | duplicate k =>
    obtain ⟨p, -, rfl⟩ := duplicate_ok h
    have hweight := weight_le p
    simp only [isDelivery, isIssue, load_append]
    simp only [load, List.map_cons, List.map_nil, List.sum_cons, List.sum_nil]
    omega
  | change node service =>
    obtain rfl := Except.ok.inj h
    simp only [isDelivery, isIssue]
    omega

/-- However messages are delayed, lost, duplicated and reordered, a query causes two
deliveries at most, so the services never keep each other busy. -/
theorem traffic_bounded (services : Hash → DHTService ν) (events : List (NetworkEvent ν))
    (n : Network ν) (h : run step (new services) events = .ok n) :
    (events.map isDelivery).sum + load n.inFlight ≤ 2 * (events.map isIssue).sum := by
  have hrun := run_potential (fun n e n' => step_load n e n') h
  have hincome : (events.map fun e => 2 * isIssue e).sum = 2 * (events.map isIssue).sum :=
    List.sum_map_mul_left events isIssue 2
  rw [hincome] at hrun
  exact hrun.trans_eq (Nat.zero_add _)

def sampleServices : Hash → DHTService ℕ := fun _ => .sampleService [5, 6]

-- the request is duplicated, and the second answer comes after the table has changed
def sampleEvents : List (NetworkEvent ℕ) :=
  [.find [1] .node [9] [2], .duplicate 0, .deliver 0, .change [2] (.sampleService [7]), .deliver 0,
    .deliver 1]

theorem traffic_bounded_duplicate :
    ∃ n, run step (new sampleServices) sampleEvents = .ok n ∧
      (sampleEvents.map isDelivery).sum + load n.inFlight ≤ 2 * (sampleEvents.map isIssue).sum :=
  ⟨_, rfl, traffic_bounded sampleServices sampleEvents _ rfl⟩

end Traffic

section Provenance

/-- After `before` the packet was delivered, in the network `m`. -/
def Delivered (services : Hash → DHTService ν) (past : List (NetworkEvent ν)) (p : Packet)
    (before : List (NetworkEvent ν)) (m : Network ν) : Prop :=
  ∃ position after, past = before ++ .deliver position :: after ∧
    run step (new services) before = .ok m ∧ m.inFlight[position]? = some p

/-- The requester asked first, and when its request came the responder was `service`. -/
def AnsweredBy (services : Hash → DHTService ν) (past : List (NetworkEvent ν))
    (requester : Hash) (query : DHTService.Query) (findHash responder : Hash)
    (service : DHTService ν) : Prop :=
  ∃ before m, Delivered services past ⟨requester, responder, query.request findHash⟩ before m ∧
    .find requester query findHash responder ∈ before ∧ m.services responder = service

/-- A message on its way is a request that was made, or the answer of the service that the
request came to. -/
inductive Caused (services : Hash → DHTService ν) (past : List (NetworkEvent ν)) : Packet → Prop
  | request {requester responder findHash : Hash} {query : DHTService.Query} :
      .find requester query findHash responder ∈ past →
      Caused services past ⟨requester, responder, query.request findHash⟩
  | answer {requester responder findHash : Hash} {query : DHTService.Query}
      {service : DHTService ν} :
      AnsweredBy services past requester query findHash responder service →
      Caused services past ⟨responder, requester, service.answer query findHash⟩

/-- The finder asked the source for the nodes near a hash, the request came to the source while
the contact was among those closest to the hash there, and then its answer came to the finder. -/
def Solicited (services : Hash → DHTService ν) (past : List (NetworkEvent ν))
    (f : Finding) : Prop :=
  ∃ findHash service before m,
    Delivered services past ⟨f.source, f.finder, service.answer .node findHash⟩ before m ∧
    AnsweredBy services before f.finder .node findHash f.source service ∧
    f.serializedContact ∈ service.closestContacts findHash

structure Provenance (services : Hash → DHTService ν) (past : List (NetworkEvent ν))
    (n : Network ν) : Prop where
  caused : ∀ p ∈ n.inFlight, Caused services past p
  solicited : ∀ f ∈ n.found, Solicited services past f

variable {services : Hash → DHTService ν} {past : List (NetworkEvent ν)} {n : Network ν}

lemma Delivered.snoc {p : Packet} {before : List (NetworkEvent ν)} {m : Network ν}
    (e : NetworkEvent ν) (h : Delivered services past p before m) :
    Delivered services (past ++ [e]) p before m := by
  obtain ⟨position, after, rfl, hrun, hp⟩ := h
  exact ⟨position, after ++ [e], by rw [List.append_assoc, List.cons_append], hrun, hp⟩

lemma AnsweredBy.snoc {requester findHash responder : Hash} {query : DHTService.Query}
    {service : DHTService ν} (e : NetworkEvent ν)
    (h : AnsweredBy services past requester query findHash responder service) :
    AnsweredBy services (past ++ [e]) requester query findHash responder service := by
  obtain ⟨before, m, hdelivered, hfind, hservice⟩ := h
  exact ⟨before, m, hdelivered.snoc e, hfind, hservice⟩

lemma Caused.snoc {p : Packet} (e : NetworkEvent ν) (h : Caused services past p) :
    Caused services (past ++ [e]) p := by
  cases h with
  | request hfind => exact .request (List.mem_append_left _ hfind)
  | answer hanswered => exact .answer (hanswered.snoc e)

lemma Solicited.snoc {f : Finding} (e : NetworkEvent ν) (h : Solicited services past f) :
    Solicited services (past ++ [e]) f := by
  obtain ⟨findHash, service, before, m, hdelivered, hanswered, hcontact⟩ := h
  exact ⟨findHash, service, before, m, hdelivered.snoc e, hanswered, hcontact⟩

lemma Provenance.snoc (e : NetworkEvent ν) (h : Provenance services past n) :
    Provenance services (past ++ [e]) n where
  caused p hp := (h.caused p hp).snoc e
  solicited f hf := (h.solicited f hf).snoc e

lemma provenance_new (services : Hash → DHTService ν) : Provenance services [] (new services) where
  caused _ hp := nomatch hp
  solicited _ hf := nomatch hf

lemma Provenance.eraseIdx (h : Provenance services past n) (k : ℕ) :
    Provenance services past { n with inFlight := n.inFlight.eraseIdx k } :=
  ⟨fun p hp => h.caused p (List.mem_of_mem_eraseIdx hp), h.solicited⟩

lemma Provenance.perform (h : Provenance services past n) {node peer : Hash}
    {actions : List Action}
    (hsend : ∀ dest part, .send dest part ∈ actions → Caused services past ⟨node, dest, part⟩)
    (hfound : ∀ contact, .foundNode contact ∈ actions →
      Solicited services past ⟨node, peer, contact⟩) :
    Provenance services past (n.perform node peer actions) where
  caused p hp := by
    obtain hp | hp := List.mem_append.mp hp
    · exact h.caused p hp
    · obtain ⟨action, hmem, haction⟩ := List.mem_filterMap.mp hp
      cases action with
      | send dest part =>
        obtain rfl := Option.some.inj haction
        exact hsend dest part hmem
      | foundNode contact => cases haction
  solicited f hf := by
    obtain hf | hf := List.mem_append.mp hf
    · exact h.solicited f hf
    · obtain ⟨action, hmem, haction⟩ := List.mem_filterMap.mp hf
      cases action with
      | send dest part => cases haction
      | foundNode contact =>
        obtain rfl := Option.some.inj haction
        exact hfound contact hmem

/-- A delivery answers a request, or takes the contacts from the answer to one. -/
lemma Provenance.deliver (h : Provenance services past n)
    (hrun : run step (new services) past = .ok n) {k : ℕ} {p : Packet}
    (hp : n.inFlight[k]? = some p) :
    Provenance services (past ++ [.deliver k])
      (Network.perform { n with inFlight := n.inFlight.eraseIdx k } p.dest p.source
        ((n.services p.dest).process p.source p.part)) := by
  have hdelivered : Delivered services (past ++ [.deliver k]) p past n := ⟨k, [], rfl, hrun, hp⟩
  have hkept := (h.snoc (.deliver k)).eraseIdx k
  cases h.caused p (List.mem_of_getElem? hp) with
  | @request requester responder findHash query hfind =>
    rw [DHTService.process_request]
    refine hkept.perform ?_ ?_
    · intro dest part hsend
      obtain ⟨rfl, rfl⟩ := Action.send.inj (List.mem_singleton.mp hsend)
      exact .answer ⟨past, n, hdelivered, hfind, rfl⟩
    · intro contact hfound
      cases List.mem_singleton.mp hfound
  | @answer requester responder findHash query service hanswered =>
    rw [DHTService.process_answer]
    cases query with
    | value => exact hkept.perform (fun _ _ hsend => nomatch hsend) (fun _ hfound => nomatch hfound)
    | node =>
      rw [if_pos rfl]
      refine hkept.perform ?_ ?_
      · intro dest part hsend
        obtain ⟨_, _, heq⟩ := List.mem_map.mp hsend
        cases heq
      · intro contact hfound
        obtain ⟨_, hcontact, heq⟩ := List.mem_map.mp hfound
        obtain rfl := Action.foundNode.inj heq
        exact ⟨findHash, service, past, n, hdelivered, hanswered, hcontact⟩

lemma step_provenance (past : List (NetworkEvent ν)) (n : Network ν) (e : NetworkEvent ν)
    (n' : Network ν)
    (h : run step (new services) past = .ok n ∧ Provenance services past n)
    (hstep : n.step e = .ok n') :
    run step (new services) (past ++ [e]) = .ok n' ∧ Provenance services (past ++ [e]) n' := by
  obtain ⟨hrun, h⟩ := h
  refine ⟨run_append hrun (run_cons.mpr ⟨n', hstep, rfl⟩), ?_⟩
  have hkept := h.snoc e
  cases e with
  | find requester query findHash responder =>
    obtain rfl := Except.ok.inj hstep
    rw [DHTService.find_eq]
    refine hkept.perform ?_ ?_
    · intro dest part hsend
      obtain ⟨rfl, rfl⟩ := Action.send.inj (List.mem_singleton.mp hsend)
      exact .request List.mem_concat_self
    · intro contact hfound
      cases List.mem_singleton.mp hfound
  | deliver k =>
    obtain ⟨p, hp, rfl⟩ := deliver_ok hstep
    exact h.deliver hrun hp
  | lose k =>
    obtain rfl := Except.ok.inj hstep
    exact hkept.eraseIdx k
  | duplicate k =>
    obtain ⟨p, hp, rfl⟩ := duplicate_ok hstep
    refine ⟨fun q hq => ?_, hkept.solicited⟩
    obtain hq | hq := List.mem_append.mp hq
    · exact hkept.caused q hq
    · obtain rfl := List.mem_singleton.mp hq
      exact hkept.caused q (List.mem_of_getElem? hp)
  | change node service =>
    obtain rfl := Except.ok.inj hstep
    exact ⟨hkept.caused, hkept.solicited⟩

/-- A node only ever learns contacts that it asked for before, from a node that had them when the
request came to it. -/
theorem contacts_solicited (services : Hash → DHTService ν) (events : List (NetworkEvent ν))
    (n : Network ν) (h : run step (new services) events = .ok n) (f : Finding) (hf : f ∈ n.found) :
    Solicited services events f :=
  (past_invariant step_provenance ⟨rfl, provenance_new services⟩ h).2.solicited f hf

theorem contacts_solicited_changed :
    ∃ n, run step (new sampleServices) sampleEvents = .ok n ∧ ⟨[1], [2], [7]⟩ ∈ n.found ∧
      Solicited sampleServices sampleEvents ⟨[1], [2], [7]⟩ := by
  refine ⟨_, rfl, List.mem_cons_self, ?_⟩
  exact contacts_solicited sampleServices sampleEvents _ rfl _ List.mem_cons_self

end Provenance

end Network

end P2PNet.DHT
