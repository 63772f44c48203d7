/-
A service as one client sees it: the peers that serve it, the codecs for its
calls, and the handlers registered for calls that come the other way.
`Service.prepare` makes of what a caller sends the request that goes out.
-/
import RpcClient.Peer

namespace RpcClient

/-- Answers a request. -/
abbrev Handler := Request Bytes → Outcome Bytes

/-- How the body of the answer is given to the caller. -/
inductive ReplyReader where
  | bytes
  | decoded (codec : Codec) (kind : Body.Kind)
deriving DecidableEq

/-- The outcome of a call for its caller: the answer's body is decoded if that
was agreed, and if it cannot be, that is the failure. -/
def ReplyReader.read (reader : ReplyReader) (outcome : Outcome Bytes) : Outcome Body :=
  match outcome with
  | .error error => .error error
  | .ok response =>
    match reader with
    | .bytes => .ok (response.withBody (Body.ofBytes response.body))
    | .decoded codec kind =>
      match response.decode codec kind with
      | .ok response => .ok response
      | .error fault => .error (.link (.codec fault))

/-- What a caller sends. -/
inductive Outgoing where
  /-- A request with its headers as they are. -/
  | plain (request : Request Bytes)
  /-- A request that names its caller. -/
  | raw (request : Request Bytes)
  /-- A request that names its caller, with a body to be encoded, and the type
  of the answer's body. -/
  | encoded (request : Request Body) (scheme : Scheme) (replyKind : Body.Kind)

/-- A service. -/
structure Service where
  name : String
  /-- Under which name calls are made. -/
  caller : String
  /-- In which direction its connections should be opened. -/
  wish : Direction
  /-- How long a request waits for a connection to be identified. -/
  initTimeout : Duration
  codecs : Codecs
  peers : List Peer := []
  handlers : List (String × Handler) := []
  /-- Nobody but its peers knows it any more. -/
  released : Bool := false

namespace Service

def description (s : Service) : String :=
  Text.record "ServiceChannel"
    [("service", Text.quoted s.name), ("caller", Text.quoted s.caller),
      ("peers", toString s.peers.length)]

/-- Adds peers behind those that there are. -/
def addPeers (s : Service) (addresses : List Address) : Service :=
  { s with peers := s.peers ++ addresses.map fun address => { address } }

/-- Registers a handler, over one for the same endpoint. -/
def register (s : Service) (endpoint : String) (handler : Handler) : Service :=
  { s with handlers := (endpoint, handler) :: s.handlers }

/-- A handler that answers with a body, and names the endpoint that it was asked
for in a header. -/
def answering (body : Bytes) : Handler := fun request =>
  .ok (({ body } : Response Bytes).withHeader "endpoint" request.endpoint)

/-- A handler that fails. -/
def failing (error : Error) : Handler := fun _ => .error error

/-- The handler for an endpoint. -/
def handler? (s : Service) (endpoint : String) : Option Handler := s.handlers.lookup endpoint

/-- What its peers may still ask of a connection. -/
def effectiveWish (s : Service) : Direction := if s.released then .none else s.wish

/-- The request that goes out, and how its answer is read. -/
def prepare (s : Service) (out : Outgoing) : Except Error (Request Bytes × ReplyReader) :=
  match out with
  | .plain request => .ok (request, .bytes)
  | .raw request => .ok (request.setTransport Headers.callerKey s.caller, .bytes)
  | .encoded request scheme replyKind =>
    match s.codecs.find? scheme with
    | none => .error (.unsupportedScheme scheme)
    | some codec =>
      match request.encode codec scheme with
      | .error fault => .error (.link (.codec fault))
      | .ok request =>
        .ok (request.setTransport Headers.callerKey s.caller, .decoded codec replyKind)

end Service

end RpcClient
