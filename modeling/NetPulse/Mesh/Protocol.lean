import NetPulse.Mesh.NeighborTable

/-
# NetPulse.Mesh.Protocol — the packets of the mesh (`networking/protocol.py`)

One frame on a channel carries one `MsgPack`. The field `data` is untyped in the source; here it is
a `Payload`, whose constructors are the shapes that the router itself builds or reads, with
`value` for whatever a service sends.
-/

namespace NetPulse.Mesh

inductive PackType where
  | request
  | response
  | forwarded
  | streamOpen
  | streamReady
  | streamChunk
  | streamAck
  | streamEof
  | error
  | ping
  | pong
  | hello
  | helloAck
  | helloReject
  | gossip
  | announce
  | certSync
  deriving DecidableEq, Repr

/-- The contents of the field `data`. -/
inductive Payload (Data : Type*) where
  | null
  | value (d : Data)
  /-- `'ready'`, the payload of a STREAM_READY. -/
  | ready
  /-- The window that a STREAM_ACK asks for. -/
  | buff (n : Int)
  | gossip (neighbors : List GossipEntry) (fromNode : Option String)
  | announce (services : List String) (fromNode : Option String)
  deriving DecidableEq

/-- `DEFAULT_TTL`, and the default of the field `ttl`. -/
def DEFAULT_TTL : Int := 16

structure MsgPack (Data : Type*) where
  type : PackType
  source : String
  dst : Option String := none
  service : Option String := none
  method : Option String := none
  data : Payload Data := .null
  label : String
  error : Option String := none
  path : List String := []
  ttl : Int := DEFAULT_TTL
  deriving DecidableEq

/-- What a session future is resolved with. -/
inductive Reply (Data : Type*) where
  | data (p : Payload Data)
  | exception (message : Option String)
  | ack
  | pong
  deriving DecidableEq

end NetPulse.Mesh
