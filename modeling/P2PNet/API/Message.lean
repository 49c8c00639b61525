import P2PNet.Common.Crypto
import P2PNet.Common.Error

/-! `APIMessage` as protobuf generates it: every field is optional, a getter of
an unset field yields its default, which for an enumeration is the first value. -/

namespace P2PNet.API

inductive MessageType where
  | nodeRegister
  | nodeUnregister
  | nodeConnect
  | nodeAccept
  | nodeListen
  | nodeBind
  | socketUnregister
  deriving DecidableEq, Repr

namespace Message

structure Error where
  errorCode : Option ℤ := none
  errorWhat : Option String := none
  errorCategory : Option String := none
  deriving DecidableEq, Repr

structure NodeRegister where
  nodeId : Option UInt32 := none
  deriving DecidableEq, Repr

structure NodeUnRegister where
  nodeId : Option UInt32 := none
  deriving DecidableEq, Repr

structure NodeConnect where
  nodeId : Option UInt32 := none
  sh : Option Bytes := none
  socketId : Option UInt32 := none
  deriving DecidableEq, Repr

structure NodeAccept where
  nodeId : Option UInt32 := none
  sh : Option Bytes := none
  socketId : Option UInt32 := none
  deriving DecidableEq, Repr

structure NodeListen where
  nodeId : Option UInt32 := none
  maxConnections : Option UInt32 := none
  deriving DecidableEq, Repr

structure NodeBind where
  nodeId : Option UInt32 := none
  binaryPrivateKey : Option Bytes := none
  b58PrivateKey : Option Bytes := none
  deriving DecidableEq, Repr

structure SocketUnRegister where
  nodeId : Option UInt32 := none
  socketId : Option UInt32 := none
  deriving DecidableEq, Repr

end Message

open Message in
structure APIMessage where
  type : Option MessageType := none
  messageToken : Option UInt32 := none
  error : Option Error := none
  reply : Option Bool := none
  nodeRegister : Option NodeRegister := none
  nodeUnregister : Option NodeUnRegister := none
  nodeConnect : Option NodeConnect := none
  nodeAccept : Option NodeAccept := none
  nodeListen : Option NodeListen := none
  nodeBind : Option NodeBind := none
  socketUnregister : Option SocketUnRegister := none
  deriving DecidableEq, Repr

namespace APIMessage

def getType (m : APIMessage) : MessageType := m.type.getD .nodeRegister

def getMessageToken (m : APIMessage) : UInt32 := m.messageToken.getD 0

def unregisterId (m : APIMessage) : UInt32 := ((m.nodeUnregister.getD {}).nodeId).getD 0

def connectId (m : APIMessage) : UInt32 := ((m.nodeConnect.getD {}).nodeId).getD 0

def acceptId (m : APIMessage) : UInt32 := ((m.nodeAccept.getD {}).nodeId).getD 0

def socketNodeId (m : APIMessage) : UInt32 := ((m.socketUnregister.getD {}).nodeId).getD 0

def listenId (m : APIMessage) : UInt32 := ((m.nodeListen.getD {}).nodeId).getD 0

def maxConnections (m : APIMessage) : UInt32 := ((m.nodeListen.getD {}).maxConnections).getD 0

def bindId (m : APIMessage) : UInt32 := ((m.nodeBind.getD {}).nodeId).getD 0

def binaryPrivateKey (m : APIMessage) : Option Bytes := (m.nodeBind.getD {}).binaryPrivateKey

def b58PrivateKey (m : APIMessage) : Option Bytes := (m.nodeBind.getD {}).b58PrivateKey

end APIMessage

end P2PNet.API
