/-
The JSON documents of frames and of what is in them: records by the names of
their fields, and a frame as an object whose key is its kind.
-/
import RpcClient.Json.Format
import RpcClient.Wire.Frame

namespace RpcClient.Json.Format

def scheme : Format Scheme := oneOf Scheme.all Scheme.tag
def direction : Format Direction := oneOf Direction.all Direction.name
def errorKind : Format ErrorKind := oneOf ErrorKind.all ErrorKind.name
def replyCode : Format ReplyCode := oneOf ReplyCode.all ReplyCode.name

def headers : Format Headers := textDict text

def identity : Format Identity where
  write i := object
    [("version", u16.write i.version), ("host_port", text.write i.hostPort),
      ("process_name", text.write i.processName)]
  read depth doc := do
    match ← fields? ["version", "host_port", "process_name"] false depth doc with
    | (depth, [version, hostPort, processName]) =>
      pure
        { version := ← required u16 depth version
          hostPort := ← required text depth hostPort
          processName := ← required text depth processName }
    | _ => none

/-- The document of a call, with the documents of its headers. -/
def callObject (c : Call) (hs ths : Option Document) : Option Document :=
  object
    [("id", u32.write c.id), ("ttl_ms", u32.write c.ttlMs), ("service", text.write c.service),
      ("endpoint", text.write c.endpoint), ("headers", hs), ("transport_headers", ths),
      ("body", bytes.write c.body)]

def call : Format Call where
  write c := callObject c (headers.write c.headers) (headers.write c.transportHeaders)
  read depth doc := do
    match ← fields?
        ["id", "ttl_ms", "service", "endpoint", "headers", "transport_headers", "body"]
        false depth doc with
    | (depth, [id, ttlMs, service, endpoint, hs, ths, body]) =>
      pure
        { id := ← required u32 depth id
          ttlMs := ← required u32 depth ttlMs
          service := ← required text depth service
          endpoint := ← required text depth endpoint
          headers := ← required headers depth hs
          transportHeaders := ← required headers depth ths
          body := ← required bytes depth body }
    | _ => none

/-- The document of a reply, with the documents of its headers. -/
def replyObject (r : Reply) (hs ths : Option Document) : Option Document :=
  object
    [("id", u32.write r.id), ("code", replyCode.write r.code), ("headers", hs),
      ("transport_headers", ths), ("body", bytes.write r.body)]

def reply : Format Reply where
  write r := replyObject r (headers.write r.headers) (headers.write r.transportHeaders)
  read depth doc := do
    match ← fields? ["id", "code", "headers", "transport_headers", "body"] false depth doc with
    | (depth, [id, code, hs, ths, body]) =>
      pure
        { id := ← required u32 depth id
          code := ← required replyCode depth code
          headers := ← required headers depth hs
          transportHeaders := ← required headers depth ths
          body := ← required bytes depth body }
    | _ => none

def failureReport : Format FailureReport where
  write f := object
    [("id", u32.write f.id), ("kind", errorKind.write f.kind), ("message", text.write f.message)]
  read depth doc := do
    match ← fields? ["id", "kind", "message"] false depth doc with
    | (depth, [id, kind, message]) =>
      pure
        { id := ← required u32 depth id
          kind := ← required errorKind depth kind
          message := ← required text depth message }
    | _ => none

/-- The kinds of frames, as they are named in documents. -/
def frameKinds : List String :=
  ["InitRequest", "InitResponse", "CallRequest", "CallResponse", "Error"]

/-- Whether bytes begin with the name of a kind of frame where the frame itself
should stand. What is behind the name makes no difference. -/
def namesFrame (bytes : Bytes) : Bool :=
  match (State.value []).first? bytes with
  | some (.text spelling) => (unspell? spelling).any frameKinds.contains
  | _ => false

def frame : Format Frame where
  write
    | .initRequest i => choice "InitRequest" (identity.write i)
    | .initResponse i => choice "InitResponse" (identity.write i)
    | .callRequest c => choice "CallRequest" (call.write c)
    | .callResponse r => choice "CallResponse" (reply.write r)
    | .error f => choice "Error" (failureReport.write f)
  read depth doc := do
    let (depth, kind, content) ← chosen? depth doc
    match kind with
    | "InitRequest" => (identity.read depth content).map .initRequest
    | "InitResponse" => (identity.read depth content).map .initResponse
    | "CallRequest" => (call.read depth content).map .callRequest
    | "CallResponse" => (reply.read depth content).map .callResponse
    | "Error" => (failureReport.read depth content).map .error
    | _ => none

end RpcClient.Json.Format
