/-
Sending a request in single steps, each of which answers with the client as it leaves
it, even when it fails. `Client.dispatch` answers with a client only when all of them
succeed.
-/
import RpcClient.Client.Event

namespace RpcClient.Client

/-- A connection through a service: a peer is chosen, and gives the connection that it
remembers, or else gets the current one for its address. Peers that were looked at have
a new score, even if none is connected in the end. -/
def seek (c : Client) (i : ServiceId) (start : Nat) : Client × Except Error ConnectionId :=
  match c.choose i start with
  | (c, none) => (c, .error .noPeer)
  | (c, some place) =>
    match c.preferred i place with
    | (c, some connection) => (c, .ok connection)
    | (c, none) =>
      match c.connectPeer i place with
      | .ok (c, connection) => (c, .ok connection)
      | .error error => (c, .error error)

/-- Where a request goes. A service that has no peers is not asked for one. -/
def aim (c : Client) (i : ServiceId) (s : Service) (target : Option Address) (start : Nat) :
    Client × Except Error ConnectionId :=
  match target with
  | some address =>
    let (c, connection) := c.findOrOpen address
    (c, .ok connection)
  | none => if s.peers.isEmpty then (c, .error .noPeer) else c.seek i start

/-- A request comes in that is to go on a connection, and looks there. -/
def enter (c : Client) (s : Service) (request : Request Bytes) (reader : ReplyReader)
    (connection : ConnectionId) : Client × DispatchId :=
  let d := c.dispatches.length
  let waiting : Waiting :=
    { connection, request, limit := s.initTimeout, deadline := s.initTimeout.after c.now }
  let entry : Dispatch := { reader, progress := .waiting waiting }
  let c := { c with dispatches := c.dispatches ++ [entry] }
  (c.resume d, d)

/-- Sends a request: it is prepared, gets its connection, and comes in. -/
def send (c : Client) (i : ServiceId) (out : Outgoing) (target : Option Address) (start : Nat) :
    Client × Except Error DispatchId :=
  match c.services[i]? with
  | none => (c, .error .serviceGone)
  | some s =>
    match s.prepare out with
    | .error error => (c, .error error)
    | .ok (request, reader) =>
      match c.aim i s target start with
      | (c, .error error) => (c, .error error)
      | (c, .ok connection) =>
        let (c, d) := c.enter s request reader connection
        (c, .ok d)

end RpcClient.Client
