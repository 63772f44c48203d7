/-
The binary forms of frames and of what is in them: the fields in their order,
and for a frame the number of its kind first.
-/
import RpcClient.Binary.Format
import RpcClient.Wire.Frame

namespace RpcClient.Binary.Format

def scheme : Format Scheme := oneOf Scheme.all
def direction : Format Direction := oneOf Direction.all
def errorKind : Format ErrorKind := oneOf ErrorKind.all
def replyCode : Format ReplyCode := oneOf ReplyCode.all

def headers : Format Headers := dict text text

def identity : Format Identity :=
  (u16.pair (text.pair text)).via
    (fun i => (i.version, i.hostPort, i.processName))
    (fun (version, hostPort, processName) => { version, hostPort, processName })

/-- The fields of a call, with its headers in some format. -/
def callFields {η : Type} (headers : Format η) :
    Format (UInt32 × UInt32 × String × String × η × η × Bytes) :=
  u32.pair (u32.pair (text.pair (text.pair (headers.pair (headers.pair bytes)))))

def call : Format Call :=
  (callFields headers).via
    (fun c => (c.id, c.ttlMs, c.service, c.endpoint, c.headers, c.transportHeaders, c.body))
    (fun (id, ttlMs, service, endpoint, headers, transportHeaders, body) =>
      { id, ttlMs, service, endpoint, headers, transportHeaders, body })

/-- The fields of a reply, with its headers in some format. -/
def replyFields {η : Type} (headers : Format η) : Format (UInt32 × ReplyCode × η × η × Bytes) :=
  u32.pair (replyCode.pair (headers.pair (headers.pair bytes)))

def reply : Format Reply :=
  (replyFields headers).via
    (fun r => (r.id, r.code, r.headers, r.transportHeaders, r.body))
    (fun (id, code, headers, transportHeaders, body) =>
      { id, code, headers, transportHeaders, body })

def failureReport : Format FailureReport :=
  (u32.pair (errorKind.pair text)).via
    (fun f => (f.id, f.kind, f.message))
    (fun (id, kind, message) => { id, kind, message })

/-- A frame: which of the five kinds, and its content. -/
def frame : Format Frame where
  write
    | .initRequest i => u32.write 0 ++ identity.write i
    | .initResponse i => u32.write 1 ++ identity.write i
    | .callRequest c => u32.write 2 ++ call.write c
    | .callResponse r => u32.write 3 ++ reply.write r
    | .error f => u32.write 4 ++ failureReport.write f
  read bytes := do
    let (kind, rest) ← u32.read bytes
    match kind with
    | 0 => identity.read rest |>.map fun (i, rest) => (.initRequest i, rest)
    | 1 => identity.read rest |>.map fun (i, rest) => (.initResponse i, rest)
    | 2 => call.read rest |>.map fun (c, rest) => (.callRequest c, rest)
    | 3 => reply.read rest |>.map fun (r, rest) => (.callResponse r, rest)
    | 4 => failureReport.read rest |>.map fun (f, rest) => (.error f, rest)
    | _ => .error (.badChoice kind 5)

end RpcClient.Binary.Format
