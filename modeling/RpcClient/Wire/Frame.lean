/-
Frames: all that two sides of a connection say to each other. The first frame
each way announces who speaks; after that one side calls, and the other
replies or reports a failure under the call's number.
-/
import RpcClient.Bytes
import RpcClient.Text.Quoted
import RpcClient.Wire.Header

namespace RpcClient

/-- Who speaks, as the handshake announces it. -/
structure Identity where
  version : UInt16 := protocolVersion
  hostPort : String
  processName : String
deriving DecidableEq

/-- A call, numbered by the side that makes it. -/
structure Call where
  id : UInt32
  /-- How long the caller is going to wait, in milliseconds. -/
  ttlMs : UInt32
  service : String
  endpoint : String
  headers : Headers
  transportHeaders : Headers
  body : Bytes
deriving DecidableEq

/-- The answer to the call with the same number. -/
structure Reply where
  id : UInt32
  code : ReplyCode := .ok
  headers : Headers
  transportHeaders : Headers
  body : Bytes
deriving DecidableEq

/-- A failure of the call with the same number. -/
structure FailureReport where
  id : UInt32
  kind : ErrorKind
  message : String
deriving DecidableEq

/-- One message on a connection. -/
inductive Frame where
  | initRequest (identity : Identity)
  | initResponse (identity : Identity)
  | callRequest (call : Call)
  | callResponse (reply : Reply)
  | error (report : FailureReport)
deriving DecidableEq

namespace Frame

/-- The number of the call that a frame belongs to. -/
def id? : Frame → Option UInt32
  | initRequest _ | initResponse _ => none
  | callRequest c => some c.id
  | callResponse r => some r.id
  | error f => some f.id

end Frame

/-! ## Descriptions -/

/-- Headers, with their texts in quotes. -/
def Headers.description (h : Headers) : String :=
  Text.mapped (h.entries.map fun (k, v) => (Text.quoted k, Text.quoted v))

/-- A body, as the list of its bytes. -/
def Bytes.description (b : Bytes) : String :=
  Text.listed (b.map fun x => toString x.toNat)

def Identity.description (i : Identity) : String :=
  Text.record "InitParams"
    [("version", toString i.version.toNat), ("host_port", Text.quoted i.hostPort),
      ("process_name", Text.quoted i.processName)]

def Call.description (c : Call) : String :=
  Text.record "CallRequest"
    [("id", toString c.id.toNat), ("ttl_ms", toString c.ttlMs.toNat),
      ("service", Text.quoted c.service), ("endpoint", Text.quoted c.endpoint),
      ("headers", Headers.description c.headers),
      ("transport_headers", Headers.description c.transportHeaders),
      ("body", Bytes.description c.body)]

def Reply.description (r : Reply) : String :=
  Text.record "CallResponse"
    [("id", toString r.id.toNat), ("code", r.code.name),
      ("headers", Headers.description r.headers),
      ("transport_headers", Headers.description r.transportHeaders),
      ("body", Bytes.description r.body)]

def FailureReport.description (f : FailureReport) : String :=
  Text.record "ErrorFrame"
    [("id", toString f.id.toNat), ("kind", f.kind.name), ("message", Text.quoted f.message)]

/-- A frame written out, for an error that has to say what came. -/
def Frame.description : Frame → String
  | initRequest i => Text.applied "InitRequest" i.description
  | initResponse i => Text.applied "InitResponse" i.description
  | callRequest c => Text.applied "CallRequest" c.description
  | callResponse r => Text.applied "CallResponse" r.description
  | error f => Text.applied "Error" f.description

end RpcClient
