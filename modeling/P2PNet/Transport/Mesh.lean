import Mathlib.Logic.Function.Basic
import P2PNet.Transport.Provenance

/-! Any number of hosts that exchange datagrams, each of which may be lost, delivered more than
once or overtaken. Users call nothing but `connect` and nobody else sends datagrams, so whatever a
host receives was sent by another one, and what it has can be traced to calls of `connect`. -/

namespace P2PNet.Transport

open Lib Lib.Runs

structure Mesh where
  hosts : Endpoint → Host

inductive MeshEvent where
  | host (node : Endpoint) (event : HostEvent)
  | deliver (source : Endpoint) (datagram : ℕ)
  deriving DecidableEq, Repr

namespace Mesh

def new (outgoingOnly hasDisconnectCallback : Endpoint → Bool) : Mesh :=
  ⟨fun node => .new (outgoingOnly node) (hasDisconnectCallback node)⟩

/-- What happens at a host without a datagram. -/
def isLocal : HostEvent → Bool
  | .receive _ _ => false
  | _ => true

def stepHost (m : Mesh) (node : Endpoint) (event : HostEvent) : Except Escape Mesh := do
  let h ← (m.hosts node).step event
  .ok ⟨Function.update m.hosts node h⟩

def step (m : Mesh) : MeshEvent → Except Escape Mesh
  | .host node event => if isLocal event then m.stepHost node event else .error .disabled
  | .deliver source k =>
    match (m.hosts source).sent[k]? with
    | some (dest, message) => m.stepHost dest (.receive source message)
    | none => .error .disabled

variable {past : List MeshEvent} {m m' : Mesh} {node : Endpoint}

/-- The events `own` of a host account for it, and the events of the mesh and the datagrams of the
other hosts for them. -/
structure Explained (past : List MeshEvent) (m : Mesh) (node : Endpoint) (own : List HostEvent) :
    Prop where
  traced : Host.Traced own (m.hosts node)
  connectCalls : (m.hosts node).connectCalls = []
  called : ∀ e callback, .connect e callback ∈ own → .host node (.connect e callback) ∈ past
  backed : ∀ e message, .receive e message ∈ own → (node, message) ∈ (m.hosts e).sent

def AllExplained (past : List MeshEvent) (m : Mesh) : Prop :=
  ∀ node, ∃ own, Explained past m node own

lemma AllExplained.stepHost (h : AllExplained past m) (event : MeshEvent) {hostEvent : HostEvent}
    (hcalled : ∀ e callback, hostEvent = .connect e callback → event = .host node hostEvent)
    (hbacked : ∀ e message, hostEvent = .receive e message → (node, message) ∈ (m.hosts e).sent)
    (hs : m.stepHost node hostEvent = .ok m') : AllExplained (event :: past) m' := by
  obtain ⟨host, hstep, hm⟩ := bind_ok_iff.mp hs
  obtain rfl := Except.ok.inj hm
  obtain ⟨own, htraced, hcalls, hcalled', hbacked'⟩ := h node
  have hframe := Host.step_frame htraced.silent hstep
  -- what was sent stays sent
  have hsent : ∀ e, (m.hosts e).sent ⊆ (Function.update m.hosts node host e).sent := by
    intro e
    by_cases he : e = node
    · subst he
      rw [Function.update_self]
      exact hframe.sent
    · rw [Function.update_of_ne he]
      exact List.Subset.refl _
  intro other
  by_cases hother : other = node
  · subst hother
    refine ⟨hostEvent :: own, ?_, ?_, ?_, ?_⟩
    · simp only [Function.update_self]
      exact Host.step_traced own _ hostEvent host htraced hstep
    · simp only [Function.update_self]
      exact hframe.calls.trans hcalls
    · intro e callback hmem
      rcases List.mem_cons.mp hmem with heq | hmem
      · rw [hcalled e callback heq.symm, ← heq]
        exact List.mem_cons_self
      · exact List.mem_cons_of_mem _ (hcalled' e callback hmem)
    · intro e message hmem
      rcases List.mem_cons.mp hmem with heq | hmem
      · exact hsent e (hbacked e message heq.symm)
      · exact hsent e (hbacked' e message hmem)
  · obtain ⟨own', htraced', hcalls', hcalled'', hbacked''⟩ := h other
    refine ⟨own', ?_, ?_, ?_, ?_⟩
    · simp only [Function.update_of_ne hother]
      exact htraced'
    · simp only [Function.update_of_ne hother]
      exact hcalls'
    · exact fun e callback hmem => List.mem_cons_of_mem _ (hcalled'' e callback hmem)
    · exact fun e message hmem => hsent e (hbacked'' e message hmem)

open Network (sampleAddress)

-- the request is delivered twice, and the keep-alive that answers it once
def sampleEvents : List MeshEvent :=
  [.host (sampleAddress .a) (.connect (sampleAddress .b) 1), .deliver (sampleAddress .a) 0,
    .deliver (sampleAddress .a) 0, .deliver (sampleAddress .b) 0]

end Mesh

end P2PNet.Transport
