import Mathlib.Tactic

/-! `P2PError`, its category, and the ways in which a call of the daemon does
not return. -/

namespace P2PNet

inductive P2PError where
  | success
  | daemonConnectionProblem
  | tooManyNodes
  | tooManySockets
  | nonexistentNode
  | nonexistentSocket
  | nodemanagerDbNonConsistent
  | timedOut
  | connectionReset
  | noSuchInterface
  | noTransport
  | notConnected
  | messageParseError
  deriving DecidableEq, Repr

namespace P2PError

def value : P2PError → ℤ
  | success => 0
  | daemonConnectionProblem => 256
  | tooManyNodes => 257
  | tooManySockets => 258
  | nonexistentNode => 259
  | nonexistentSocket => 260
  | nodemanagerDbNonConsistent => 261
  | timedOut => 110
  | connectionReset => 104
  | noSuchInterface => 180
  | noTransport => 181
  | notConnected => 107
  | messageParseError => 107

def categoryName : String := "p2pnet"

def message : P2PError → String
  | daemonConnectionProblem => "Daemon connection problem"
  | tooManyNodes => "Node limit exceeded"
  | tooManySockets => "Socket limit on specific Node exceeded"
  | nonexistentNode => "Node doesn't exist"
  | nonexistentSocket => "Socket doesn't exist on specific Node"
  | nodemanagerDbNonConsistent => "NodeManager DB is inconsistent"
  | _ => "Unknown error"

end P2PError

/-- How a call ends when it does not return: an exception of the program's own category, one
thrown by Botan, `throw;` without an exception to rethrow, the call of an empty `std::function`,
the use of a deleted object, of an end iterator, of a key that was never set, or of an empty
`boost::optional`. `disabled` marks an input that no run has, such as an allocation at the address
of a live object. -/
inductive Escape where
  | systemError (e : P2PError)
  | botan
  | terminate
  | badFunctionCall
  | dangling
  | endIterator
  | absentKey
  | emptyOptional
  | disabled
  deriving DecidableEq, Repr

abbrev Outcome (σ : Type) := Except (Escape × σ) σ

end P2PNet
