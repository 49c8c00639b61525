import P2PNet.Lib.Runs
import P2PNet.Lib.StdString
import P2PNet.Transport.Address
import P2PNet.Transport.UDP

/-! `SocketEndpoint` and the `IPInterfaceEndpoint` behind it as text. A string is
split twice: `SocketEndpoint` takes the name of the interface off the front to
create the endpoint, which then looks for the first and the last colon. -/

namespace P2PNet.Transport

open Lib Lib.Runs Lib.StdString Lib.Numerals

/-- The exceptions that come out of the two parsers. `int` is thrown by `resetEndpoint`, the
others by `substr`, `lexical_cast` and `address::from_string`. -/
inductive Thrown where
  | int (value : ℤ)
  | outOfRange
  | badLexicalCast
  | systemError
  deriving DecidableEq, Repr

def cut (s : Bytes) (pos count : ℤ) : Except Thrown Bytes :=
  match substr s pos count with
  | some text => .ok text
  | none => .error .outOfRange

/-- Whether the text starts with a minus, and what is left without a sign. -/
def takeSign : Bytes → Bool × Bytes
  | [] => (false, [])
  | c :: rest =>
    if c = 45 then (true, rest) else if c = 43 then (false, rest) else (false, c :: rest)

/-- `lexical_cast<uint16_t>`, which negates modulo 2¹⁶ after a minus. -/
def lexicalCast (s : Bytes) : Except Thrown UInt16 :=
  match readNumeral 10 (takeSign s).2 with
  | some n =>
    if n < 2 ^ 16 then .ok (if (takeSign s).1 then 0 - UInt16.ofNat n else UInt16.ofNat n)
    else .error .badLexicalCast
  | none => .error .badLexicalCast

structure IPInterfaceEndpoint (A : Addresses) where
  getPrefix : Bytes
  ip : A.Address
  port : UInt16

variable {A : Addresses}

namespace IPInterfaceEndpoint

def toString (e : IPInterfaceEndpoint A) : Bytes :=
  e.getPrefix ++ colon :: (A.toString e.ip ++ colon :: numeral 10 e.port.toNat)

def setIPString (ip : Bytes) (e : IPInterfaceEndpoint A) :
    Except Thrown (IPInterfaceEndpoint A) := do
  let text ← cut ip 0 (find percent ip)
  match A.fromString text with
  | some ip => .ok { e with ip := ip }
  | none => .error .systemError

def fromString (string : Bytes) (e : IPInterfaceEndpoint A) :
    Except Thrown (IPInterfaceEndpoint A) := do
  let prefixDelim := find colon string
  let portDelim := rfind colon string
  let portText ← cut string (portDelim + 1) (string.length - portDelim)
  let port ← lexicalCast portText
  let ip ← cut string (prefixDelim + 1) (portDelim - prefixDelim - 1)
  { e with port := port }.setIPString ip

end IPInterfaceEndpoint

def udpPrefix : Bytes := ascii "UDP"

def UDPInterfaceEndpoint (ip : A.Address) (port : UInt16) : IPInterfaceEndpoint A :=
  ⟨udpPrefix, ip, port⟩

inductive Interface where
  | udp
  deriving DecidableEq, Repr

namespace Interface

def getPrefix : Interface → Bytes
  | udp => udpPrefix

def createEndpoint (A : Addresses) : Interface → IPInterfaceEndpoint A
  | udp => UDPInterfaceEndpoint A.any 0

end Interface

/-- An interface is registered under its own name. -/
structure Socket where
  interfaces : StdMap Bytes Interface
  named : ∀ name interface, interfaces.find name = some interface → name = interface.getPrefix

namespace Socket

def new : Socket := ⟨.empty, by simp⟩

def registerInterface (socket : Socket) (interface : Interface) : Socket where
  interfaces := socket.interfaces.insert interface.getPrefix interface
  named name other h := by
    by_cases hname : name = interface.getPrefix
    · obtain rfl | hold := StdMap.eq_or_find_of_find_insert h
      · exact hname
      · exact socket.named name other hold
    · rw [StdMap.find_insert_of_ne _ _ hname] at h
      exact socket.named name other h

def getInterface (socket : Socket) (name : Bytes) : Option Interface := socket.interfaces.find name

end Socket

/-- `resetEndpoint`, with the endpoint that it creates. -/
def resetEndpoint (A : Addresses) (socket : Socket) (name : Bytes) :
    Except Thrown (IPInterfaceEndpoint A) :=
  match socket.getInterface name with
  | none => .error (.int P2PError.noSuchInterface.value)
  | some interface => .ok (interface.createEndpoint A)

def endpointFromString (A : Addresses) (socket : Socket) (string : Bytes) :
    Except Thrown (IPInterfaceEndpoint A) := do
  let name ← cut string 0 (find colon string)
  let endpoint ← resetEndpoint A socket name
  endpoint.fromString string

section Parsing

variable {socket : Socket}

lemma cut_eq {s text : Bytes} {pos count : ℤ} (h : substr s pos count = some text) :
    cut s pos count = .ok text := by
  rw [cut, h]

lemma lexicalCast_of_readNumeral {s : Bytes} {port : UInt16}
    (h : readNumeral 10 s = some port.toNat) : lexicalCast s = .ok port := by
  have hminus : 45 ∉ s := notMem_of_readNumeral (by decide) h
  have hplus : 43 ∉ s := notMem_of_readNumeral (by decide) h
  have hsign : takeSign s = (false, s) := by
    cases s with
    | nil => rfl
    | cons c rest =>
      rw [List.mem_cons, not_or] at hminus hplus
      rw [takeSign, if_neg (Ne.symm hminus.1), if_neg (Ne.symm hplus.1)]
  rw [lexicalCast, hsign]
  simp only [h, if_pos port.toNat_lt, Bool.false_eq_true, if_false, UInt16.ofNat_toNat]

lemma IPInterfaceEndpoint.setIPString_eq {text : Bytes} {ip : A.Address}
    (h : A.fromString (text.takeWhile (· ≠ percent)) = some ip) (e : IPInterfaceEndpoint A) :
    e.setIPString text = .ok { e with ip := ip } := by
  rw [setIPString, cut_eq (substr_find percent text), ok_bind]
  simp only [h]

lemma endpointFromString_eq (A : Addresses) (socket : Socket) (string : Bytes) :
    endpointFromString A socket string =
      resetEndpoint A socket (string.takeWhile (· ≠ colon)) >>= fun e => e.fromString string := by
  rw [endpointFromString, cut_eq (substr_find colon string), ok_bind]

lemma takeWhile_name {name rest : Bytes} (h : colon ∉ name) :
    (name ++ colon :: rest).takeWhile (· ≠ colon) = name := by
  rw [takeWhile_append h]
  simp

/-- What the two parsers make of `name:ip:port`. The text of the address may hold colons. -/
theorem endpointFromString_of_parts {name ipText portText : Bytes} {interface : Interface}
    {ip : A.Address} {port : UInt16} (hname : colon ∉ name)
    (hinterface : socket.getInterface name = some interface)
    (hip : A.fromString (ipText.takeWhile (· ≠ percent)) = some ip)
    (hport : readNumeral 10 portText = some port.toNat) :
    endpointFromString A socket (name ++ colon :: (ipText ++ colon :: portText)) =
      .ok ⟨interface.getPrefix, ip, port⟩ := by
  have hcolon : colon ∉ portText := notMem_of_readNumeral (by decide) hport
  have hportText : cut (name ++ colon :: (ipText ++ colon :: portText))
      (rfind colon (name ++ colon :: (ipText ++ colon :: portText)) + 1)
      ((name ++ colon :: (ipText ++ colon :: portText)).length -
        rfind colon (name ++ colon :: (ipText ++ colon :: portText))) = .ok portText := by
    rw [← List.cons_append, ← List.append_assoc]
    exact cut_eq (substr_after hcolon)
  have hipText : cut (name ++ colon :: (ipText ++ colon :: portText)) _ _ = .ok ipText :=
    cut_eq (substr_between hname hcolon)
  rw [endpointFromString_eq, takeWhile_name hname, resetEndpoint, hinterface, ok_bind,
    IPInterfaceEndpoint.fromString]
  simp only [hportText, lexicalCast_of_readNumeral hport, hipText, ok_bind,
    IPInterfaceEndpoint.setIPString_eq hip]
  cases interface
  rfl

end Parsing

abbrev EndpointPtr := ℕ
abbrev EndpointObjects (A : Addresses) := EndpointPtr → IPInterfaceEndpoint A

structure SocketEndpoint where
  interfaceEndpoint : Option EndpointPtr
  deriving DecidableEq, Repr

namespace SocketEndpoint

/-- `operator ==` -/
def eq (objects : EndpointObjects A) (s t : SocketEndpoint) : Bool :=
  match s.interfaceEndpoint, t.interfaceEndpoint with
  | some p, some q => if (objects p).toString = (objects q).toString then true else p = q
  | p, q => p = q

/-- The interface creates the endpoint as a new object, at `fresh`. -/
def fromString (socket : Socket) (objects : EndpointObjects A) (fresh : EndpointPtr)
    (string : Bytes) : Except Thrown (EndpointObjects A × SocketEndpoint) := do
  let endpoint ← endpointFromString A socket string
  .ok (Function.update objects fresh endpoint, ⟨some fresh⟩)

variable {socket : Socket}

lemma endpointFromString_toString (hudp : socket.getInterface udpPrefix = some .udp)
    (ip : A.Address) (port : UInt16) :
    endpointFromString A socket (UDPInterfaceEndpoint ip port).toString =
      .ok (UDPInterfaceEndpoint (A.unscoped ip) port) := by
  apply endpointFromString_of_parts (by decide) hudp
  · rw [A.takeWhile_toString]
    exact A.fromString_toString _ (A.unscoped_unscoped ip)
  · exact readNumeral_numeral (by decide) (by decide) _

lemma toString_injective (hudp : socket.getInterface udpPrefix = some .udp) {ip ip' : A.Address}
    {port port' : UInt16} (hip : A.unscoped ip = ip) (hip' : A.unscoped ip' = ip')
    (h : (UDPInterfaceEndpoint ip port).toString = (UDPInterfaceEndpoint ip' port').toString) :
    ip = ip' ∧ port = port' := by
  have hparsed := endpointFromString_toString hudp ip port
  rw [h, endpointFromString_toString hudp, hip, hip'] at hparsed
  have hsame := Except.ok.inj hparsed
  simp only [UDPInterfaceEndpoint, IPInterfaceEndpoint.mk.injEq, true_and] at hsame
  exact ⟨hsame.1.symm, hsame.2.symm⟩

theorem eq_iff (hudp : socket.getInterface udpPrefix = some .udp) {objects : EndpointObjects A}
    {p q : EndpointPtr} {ip ip' : A.Address} {port port' : UInt16}
    (hp : objects p = UDPInterfaceEndpoint ip port)
    (hq : objects q = UDPInterfaceEndpoint ip' port') (hip : A.unscoped ip = ip)
    (hip' : A.unscoped ip' = ip') :
    eq objects ⟨some p⟩ ⟨some q⟩ = true ↔ ip = ip' ∧ port = port' := by
  rw [eq]
  dsimp only
  constructor
  · intro h
    split at h
    · next htext =>
      rw [hp, hq] at htext
      exact toString_injective hudp hip hip' htext
    · -- the same object has one text
      obtain rfl := of_decide_eq_true h
      contradiction
  · rintro ⟨rfl, rfl⟩
    rw [if_pos (by rw [hp, hq])]

theorem round_trip (hudp : socket.getInterface udpPrefix = some .udp) :
    (∀ (objects : EndpointObjects A) (fresh : EndpointPtr) (ip : A.Address) (port : UInt16),
      ∃ objects', fromString socket objects fresh (UDPInterfaceEndpoint ip port).toString =
          .ok (objects', ⟨some fresh⟩) ∧
        objects' fresh = UDPInterfaceEndpoint (A.unscoped ip) port ∧
        (∀ p, p ≠ fresh → objects' p = objects p) ∧
        ∀ p, p ≠ fresh → objects p = UDPInterfaceEndpoint ip port → A.unscoped ip = ip →
          eq objects' ⟨some fresh⟩ ⟨some p⟩ = true) ∧
    ∀ (objects : EndpointObjects A) (p q : EndpointPtr) (ip ip' : A.Address)
      (port port' : UInt16), objects p = UDPInterfaceEndpoint ip port →
      objects q = UDPInterfaceEndpoint ip' port' → A.unscoped ip = ip → A.unscoped ip' = ip' →
      (eq objects ⟨some p⟩ ⟨some q⟩ = true ↔ ip = ip' ∧ port = port') := by
  constructor
  · intro objects fresh ip port
    have hkeep : ∀ p, p ≠ fresh → Function.update objects fresh
        (UDPInterfaceEndpoint (A.unscoped ip) port) p = objects p :=
      fun p hp => Function.update_of_ne hp _ _
    refine ⟨_, ?_, Function.update_self .., hkeep, ?_⟩
    · rw [fromString, endpointFromString_toString hudp, ok_bind]
    · intro p hp hobject hip
      refine (eq_iff hudp (Function.update_self ..) ((hkeep p hp).trans hobject)
        (A.unscoped_unscoped ip) hip).mpr ⟨hip, rfl⟩
  · intro objects p q ip ip' port port' hp hq hip hip'
    exact eq_iff hudp hp hq hip hip'

end SocketEndpoint

def Socket.sample : Socket := Socket.new.registerInterface .udp

lemma Socket.getInterface_sample : Socket.sample.getInterface udpPrefix = some .udp := by
  decide

def sampleEndpoint (ip : IPAddress) (port : UInt16) : IPInterfaceEndpoint sampleAddresses :=
  ⟨udpPrefix, ip, port⟩

theorem SocketEndpoint.round_trip_scoped :
    (sampleEndpoint (.v6 65216 1 2 3 4 5 6 7 3) 6341).toString =
        ascii "UDP:fec0:1:2:3:4:5:6:7%3:6341" ∧
      ∃ objects, fromString Socket.sample (fun _ => sampleEndpoint (.v4 10 0 0 1) 80) 5
          (ascii "UDP:fec0:1:2:3:4:5:6:7%3:6341") = .ok (objects, ⟨some 5⟩) ∧
        objects 5 = sampleEndpoint (.v6 65216 1 2 3 4 5 6 7 0) 6341 := by
  have htext : (sampleEndpoint (.v6 65216 1 2 3 4 5 6 7 3) 6341).toString =
      ascii "UDP:fec0:1:2:3:4:5:6:7%3:6341" := by decide
  refine ⟨htext, ?_⟩
  obtain ⟨objects, hparsed, hobject, -, -⟩ := (round_trip Socket.getInterface_sample).1
    (fun _ => sampleEndpoint (.v4 10 0 0 1) 80) 5 (IPAddress.v6 65216 1 2 3 4 5 6 7 3) 6341
  refine ⟨objects, ?_, hobject⟩
  rw [← htext]
  exact hparsed

end P2PNet.Transport
