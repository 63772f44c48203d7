/-
Requests and responses, as callers make and get them. The type of the body is
free: it is a value before encoding and after decoding, and bytes in between.
-/
import RpcClient.Error

namespace RpcClient

/-- What a caller asks of an endpoint of a service. -/
structure Request (β : Type) where
  service : String
  endpoint : String
  headers : Headers := ∅
  transportHeaders : Headers := ∅
  /-- How long the caller waits, if not as long as usual. -/
  timeout : Option Duration := none
  body : β

namespace Request

variable {β γ : Type}

def withHeader (r : Request β) (key value : String) : Request β :=
  { r with headers := r.headers.insert key value }

/-- Sets a transport header, over one that is there. -/
def setTransport (r : Request β) (key value : String) : Request β :=
  { r with transportHeaders := r.transportHeaders.insert key value }

/-- Sets a transport header unless there is one. -/
def defaultTransport (r : Request β) (key value : String) : Request β :=
  { r with transportHeaders := r.transportHeaders.insertIfNew key value }

def withTimeout (r : Request β) (timeout : Duration) : Request β :=
  { r with timeout := some timeout }

/-- The same request with another body. -/
def withBody (r : Request β) (body : γ) : Request γ :=
  { service := r.service, endpoint := r.endpoint, headers := r.headers
    transportHeaders := r.transportHeaders, timeout := r.timeout, body }

/-- Makes bytes of the body and notes the scheme, over one that is noted
already. -/
def encode (r : Request Body) (codec : Codec) (scheme : Scheme) :
    Except CodecFault (Request Bytes) := do
  let bytes ← codec.encodeBody r.body
  .ok ((r.withBody bytes).setTransport Headers.schemeKey scheme.tag)

/-- How long the call may take: as long as it says, or else as usual. -/
def effectiveTimeout (r : Request β) (usual : Duration) : Duration := r.timeout.getD usual

/-- The call that carries a request. Its time to live is the timeout in whole
milliseconds, as far as 32 bits go. -/
def toCall (r : Request Bytes) (id : UInt32) (timeout : Duration) : Call where
  id := id
  ttlMs := UInt32.ofNat (timeout.millisUpTo (UInt32.size - 1))
  service := r.service
  endpoint := r.endpoint
  headers := r.headers
  transportHeaders := r.transportHeaders
  body := r.body

end Request

/-- What a caller gets back. -/
structure Response (β : Type) where
  code : ReplyCode := .ok
  headers : Headers := ∅
  transportHeaders : Headers := ∅
  body : β
deriving DecidableEq

namespace Response

variable {β γ : Type}

def withCode (r : Response β) (code : ReplyCode) : Response β := { r with code := code }

def withHeader (r : Response β) (key value : String) : Response β :=
  { r with headers := r.headers.insert key value }

/-- Whether the other side's handler calls its own answer an error. -/
def isError (r : Response β) : Bool := r.code = .error

/-- The response that a reply carries. -/
def ofReply (r : Reply) : Response Bytes where
  code := r.code
  headers := r.headers
  transportHeaders := r.transportHeaders
  body := r.body

/-- The same response with another body. -/
def withBody (r : Response β) (body : γ) : Response γ :=
  { code := r.code, headers := r.headers, transportHeaders := r.transportHeaders, body }

/-- Reads the body as a value of a known type. -/
def decode (r : Response Bytes) (codec : Codec) (kind : Body.Kind) :
    Except CodecFault (Response Body) :=
  (codec.decodeBody kind r.body).map r.withBody

end Response

/-- How a call ends for its caller. -/
abbrev Outcome (β : Type) := Except Error (Response β)

end RpcClient
