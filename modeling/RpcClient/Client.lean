/-
A client: its services, one connection for each address that they use, and
the requests on their way. All connections that it has ever opened are kept,
by their order, and the pool says which one is current for an address.

A request is dispatched in two steps. `dispatch` prepares it, picks a
connection and lets it wait there; `resume` looks how the handshake stands,
and registers the call, gives up, or goes on waiting.
-/
import RpcClient.Service
import RpcClient.Settings

namespace RpcClient

/-- Which of the services of a client, by their order. -/
abbrev ServiceId := Nat

/-- Which of the requests that a client has dispatched, by their order. -/
abbrev DispatchId := Nat

/-- A request that waits for its connection to be identified. -/
structure Waiting where
  connection : ConnectionId
  request : Request Bytes
  limit : Duration
  deadline : Nat

/-- How far a request has come. -/
inductive Progress where
  | waiting (w : Waiting)
  /-- It never became a call. -/
  | failed (error : Error)
  /-- It is a call on a connection. -/
  | sent (connection : ConnectionId) (handle : Handle)
  /-- Its caller has gone before it became a call. -/
  | abandoned

/-- A request on its way. -/
structure Dispatch where
  reader : ReplyReader
  progress : Progress

/-- When a request gives up waiting. -/
def Dispatch.deadline? (d : Dispatch) : Option Nat :=
  match d.progress with
  | .waiting w => some w.deadline
  | _ => none

/-- A client. -/
structure Client where
  settings : Settings
  codecs : Codecs := {}
  scorer : Scorer := Scorer.byHandshake
  now : Nat := 0
  connections : List Connection := []
  pool : List (Address × ConnectionId) := []
  services : List Service := []
  dispatches : List Dispatch := []
  /-- Which peers were scored, with the state of the connection that each
  remembered, the last one first. -/
  visits : List (Address × Option Handshake) := []

namespace Client

/-- What clients that do not listen announce as their own address. -/
def ephemeralHostPort : String := "0.0.0.0:0"

/-- What all its connections have in common. -/
def connectionSettings (c : Client) : ConnectionSettings where
  hostPort := ephemeralHostPort
  processName := c.settings.processName
  requestTimeout := c.settings.requestTimeout

/-! ## Services -/

/-- The service with a name. It is made when it is first asked for; the wish
counts only then. -/
def service (c : Client) (name : String) (wish : Direction) : Client × ServiceId :=
  match c.services.findIdx? (·.name == name) with
  | some i => (c, i)
  | none =>
    ({ c with
        services := c.services ++
          [{ name, caller := c.settings.serviceName, wish, initTimeout := c.settings.initTimeout
             codecs := c.codecs }] },
      c.services.length)

def modifyService (c : Client) (i : ServiceId) (f : Service → Service) : Client :=
  { c with services := c.services.modify i f }

def addPeers (c : Client) (i : ServiceId) (addresses : List Address) : Client :=
  c.modifyService i (·.addPeers addresses)

/-! ## Connections -/

def modifyConnection (c : Client) (i : ConnectionId) (f : Connection → Connection) : Client :=
  { c with connections := c.connections.modify i f }

/-- The current connection for an address, usable or not. -/
def current? (c : Client) (address : Address) : Option ConnectionId := c.pool.lookup address

/-- Opens a connection and makes it the current one for its address. -/
def openConnection (c : Client) (address : Address) : Client × ConnectionId :=
  let i := c.connections.length
  ({ c with
      connections := c.connections ++ [.dial address c.connectionSettings]
      pool := c.pool.filter (·.1 != address) ++ [(address, i)] },
    i)

/-- The usable connection for an address, opened if there is none. -/
def findOrOpen (c : Client) (address : Address) : Client × ConnectionId :=
  match (c.current? address).filter fun i => (c.connections[i]?).any (·.isUsable) with
  | some i => (c, i)
  | none => c.openConnection address

/-- Gives up a connection. -/
def clean (c : Client) (i : ConnectionId) : Client := c.modifyConnection i Connection.clean

/-- Gives up and forgets all current connections. -/
def shutdown (c : Client) : Client :=
  { c.pool.foldl (fun c e => c.clean e.2) c with pool := [] }

/-! ## Peers -/

/-- Lets a peer look after the connection that it remembers and score
itself, and notes that it did. -/
def rescore (c : Client) (s : Service) (p : Peer) : Peer × Score :=
  p.rescore c.connections s.effectiveWish c.scorer

/-- What is noted of a peer that has been scored. -/
def visitOf (c : Client) (p : Peer) : Address × Option Handshake :=
  (p.address, (p.preferred.bind (c.connections[·]?)).map (·.handshake))

/-- Replaces the peers of a service after those at some places were scored. -/
def rescored (c : Client) (i : ServiceId) (peers : List Peer) (visited : List Nat) : Client :=
  { c.modifyService i ({ · with peers }) with
      visits := (visited.filterMap fun place => (peers[place]?).map c.visitOf).reverse ++ c.visits }

/-- Scores the peer at one place. -/
def rescorePeer (c : Client) (i : ServiceId) (place : Nat) : Client × Option Score :=
  match c.services[i]?.bind fun s => (s.peers[place]?).map (s, ·) with
  | none => (c, none)
  | some (s, p) =>
    let (p, score) := c.rescore s p
    (c.rescored i (s.peers.set place p) [place], some score)

/-- The connection that the peer at a place remembers. One that must not be
used is forgotten. -/
def preferred (c : Client) (i : ServiceId) (place : Nat) : Client × Option ConnectionId :=
  match c.services[i]?.bind fun s => (s.peers[place]?).map (s, ·) with
  | none => (c, none)
  | some (s, p) =>
    let p := p.evict c.connections s.effectiveWish
    (c.modifyService i ({ · with peers := s.peers.set place p }), p.preferred)

/-- Gets a connection for the peer at a place, and lets the peer remember
it. -/
def connectPeer (c : Client) (i : ServiceId) (place : Nat) :
    Except Error (Client × ConnectionId) :=
  match c.services[i]?.bind fun s => (s.peers[place]?).map (s, ·) with
  | none => .error .noPeer
  | some (s, p) =>
    if s.released then .error .serviceGone
    else
      let (c, connection) := c.findOrOpen p.address
      .ok (c.modifyService i ({ · with
        peers := s.peers.set place { p with preferred := some connection } }), connection)

/-- Chooses a peer of a service. -/
def choose (c : Client) (i : ServiceId) (start : Nat) : Client × Option Nat :=
  match c.services[i]? with
  | none => (c, none)
  | some s =>
    let (peers, chosen, visited) := scan (fun _ => c.rescore s) start s.peers
    (c.rescored i peers visited, chosen)

/-- A connection for a chosen peer: the one that it remembers, or else the
current one for its address. -/
def connect (c : Client) (i : ServiceId) (start : Nat) : Except Error (Client × ConnectionId) :=
  match c.choose i start with
  | (_, none) => .error .noPeer
  | (c, some place) =>
    match c.preferred i place with
    | (c, some connection) => .ok (c, connection)
    | (c, none) => c.connectPeer i place

/-! ## Requests -/

def setProgress (c : Client) (d : DispatchId) (progress : Progress) : Client :=
  { c with dispatches := c.dispatches.modify d ({ · with progress }) }

/-- A request gives up its connection, and fails with what broke that, or
else with the time that it was to wait. -/
def giveUp (c : Client) (d : DispatchId) (w : Waiting) : Client :=
  let c := c.clean w.connection
  let error := match c.connections[w.connection]?.bind (·.lastError) with
    | some cause => .network cause
    | none => .connectionTimeout w.limit
  c.setProgress d (.failed error)

/-- Registers a call on a connection. -/
def expect (c : Client) (i : ConnectionId) (request : Request Bytes) : Client × Option Handle :=
  match c.connections[i]? with
  | none => (c, none)
  | some connection =>
    let (calls, handle) := connection.calls.expect c.now request
    ({ c with connections := c.connections.set i { connection with calls } }, some handle)

/-- The request becomes a call on its connection. -/
def register (c : Client) (d : DispatchId) (w : Waiting) : Client :=
  match c.expect w.connection (w.request.defaultTransport Headers.schemeKey Scheme.raw.tag) with
  | (c, some handle) => c.setProgress d (.sent w.connection handle)
  | (c, none) => c

/-- A waiting request looks at its connection. -/
def resume (c : Client) (d : DispatchId) : Client :=
  match c.dispatches[d]? with
  | some { progress := .waiting w, .. } =>
    match (c.connections[w.connection]?).map Connection.handshake with
    | some .identified => c.register d w
    | some .failed => c.giveUp d w
    | some .pending => if w.deadline ≤ c.now then c.giveUp d w else c
    | none => c
  | _ => c

/-- Where a request is to go: to the current connection for an address, or to
a peer of its service. -/
def route (c : Client) (i : ServiceId) (target : Option Address) (start : Nat) :
    Except Error (Client × ConnectionId) :=
  match target with
  | some address => .ok (c.findOrOpen address)
  | none => c.connect i start

/-- Sends a request to a service, or to an address as that service. What
cannot be sent at all changes nothing. -/
def dispatch (c : Client) (i : ServiceId) (out : Outgoing) (target : Option Address)
    (start : Nat) : Except Error (Client × DispatchId) :=
  match c.services[i]? with
  | none => .error .serviceGone
  | some s => do
    let (request, reader) ← s.prepare out
    let (c, connection) ← c.route i target start
    let d := c.dispatches.length
    let waiting : Waiting :=
      { connection, request, limit := s.initTimeout, deadline := s.initTimeout.after c.now }
    let entry : Dispatch := { reader, progress := .waiting waiting }
    let c := { c with dispatches := c.dispatches ++ [entry] }
    .ok (c.resume d, d)

/-- The caller of a request goes away before it became a call. -/
def abandon (c : Client) (d : DispatchId) : Client :=
  match c.dispatches[d]? with
  | some { progress := .waiting _, .. } => c.setProgress d .abandoned
  | _ => c

/-- How a request ended, if it has. -/
def outcome? (c : Client) (d : DispatchId) : Option (Outcome Body) :=
  c.dispatches[d]?.bind fun dispatch =>
    match dispatch.progress with
    | .waiting _ | .abandoned => none
    | .failed error => some (.error error)
    | .sent i handle =>
      (c.connections[i]?).bind fun connection =>
        (connection.calls.outcome? handle).map dispatch.reader.read

/-- Whether a request still waits for its connection. -/
def isWaiting (c : Client) (d : DispatchId) : Bool :=
  match c.dispatches[d]? with
  | some { progress := .waiting _, .. } => true
  | _ => false

/-! ## The clock -/

/-- When something is due next: the end of a wait, or the timer of a call. -/
def nextDue? (c : Client) : Option Nat :=
  (c.dispatches.filterMap Dispatch.deadline? ++
    c.connections.filterMap (·.calls.nextDue?)).min?

/-- Lets the timers of calls go off that are due. -/
def expireDue (c : Client) : Client :=
  { c with
      connections := c.connections.map fun connection =>
        { connection with calls := connection.calls.expireDue c.now } }

end Client

end RpcClient
