/-
What goes over the connections of a client in a run: the bytes that it puts on
each stream (`transcript`) and those that it reads there (`hearing`), and the
calls that are registered on each connection, in their order (`log`). They are
read off the events and the states between them; the client keeps none of them.
-/
import RpcClient.Client.Event
import RpcClient.Connection.Greeting

namespace RpcClient.Client

/-! ## One event -/

/-- What an event moves on the stream of a connection. -/
def moved (f : Connection → Connection.Event → Bytes) (c : Client) (k : ConnectionId) :
    Event → Bytes
  | .stream i event => if i = k then ((c.connections[k]?).map (f · event)).getD [] else []
  | _ => []

/-- The bytes that an event puts on the stream of a connection. -/
def written (c : Client) (k : ConnectionId) (e : Event) : Bytes := c.moved Connection.written k e

/-- The bytes that a connection reads with an event. -/
def heard (c : Client) (k : ConnectionId) (e : Event) : Bytes := c.moved Connection.heard k e

/-- What an event is for the stream of a connection. -/
def streamed (c : Client) (k : ConnectionId) : Event → List Connection.Event
  | .stream i event =>
    if i = k ∧ ofStream event = true ∧ c.connections[k]?.isSome = true then [event] else []
  | _ => []

/-- The frames that a connection has still to send. -/
def queueOf (c : Client) (k : ConnectionId) : List Frame :=
  ((c.connections[k]?).bind (·.calls.queue)).getD []

/-- The request that may become a call with an event. -/
def Event.request? (c : Client) : Event → Option DispatchId
  | .dispatch .. => some c.dispatches.length
  | .resume d => some d
  | _ => none

/-- A call that was registered on a connection, and when. -/
structure Registration where
  /-- The request that has become this call. A call that is made by hand has
  none. -/
  request : Option DispatchId
  frame : Frame
  time : Nat

/-- The calls that an event registers on a connection: their frames come in at
the end of its queue. -/
def registered (c : Client) (k : ConnectionId) (e : Event) : List Registration :=
  match e with
  | .stream _ _ => []
  | e => (((c.handle e).queueOf k).drop (c.queueOf k).length).map fun frame =>
      { request := e.request? c, frame, time := c.now }

/-! ## A run -/

/-- What the events of a run bring, one after another. -/
def collect {α : Type} (f : Client → Event → List α) (c : Client) : List Event → List α
  | [] => []
  | e :: events => f c e ++ (c.handle e).collect f events

/-- All bytes that a run puts on the stream of a connection. -/
def transcript (c : Client) (k : ConnectionId) (events : List Event) : Bytes :=
  c.collect (fun c e => c.written k e) events

/-- All bytes that a connection reads in a run. -/
def hearing (c : Client) (k : ConnectionId) (events : List Event) : Bytes :=
  c.collect (fun c e => c.heard k e) events

/-- All that happens at the stream of a connection in a run. -/
def course (c : Client) (k : ConnectionId) (events : List Event) : List Connection.Event :=
  c.collect (fun c e => c.streamed k e) events

/-- All calls that a run registers on a connection. -/
def log (c : Client) (k : ConnectionId) (events : List Event) : List Registration :=
  c.collect (fun c e => c.registered k e) events

end RpcClient.Client
