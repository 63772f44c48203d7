/-
What happens to a client, one event after another: what its user asks of it,
what happens to its connections, and the passing of time. Events may come in
any order. Only time has to wait: it passes when nothing is left to be done
at an instant, and no further than to the next thing that is due.
-/
import RpcClient.Client
import RpcClient.Connection.Event

namespace RpcClient.Client

/-! ## Time -/

/-- Whether a request would go on waiting if it looked at its connection. -/
def keepsWaiting (c : Client) (d : Dispatch) : Bool :=
  match d.progress with
  | .waiting w =>
    c.now < w.deadline &&
      (c.connections[w.connection]?).any fun connection => connection.handshake = .pending
  | _ => true

/-- Whether nothing is left to be done at this instant. -/
def isQuiet (c : Client) : Bool :=
  c.dispatches.all c.keepsWaiting && c.nextDue?.all (c.now < ·)

/-- Time passes until an instant, if it may. -/
def advance (c : Client) (time : Nat) : Client :=
  if c.isQuiet && c.now ≤ time && c.nextDue?.all (time ≤ ·) then { c with now := time } else c

/-! ## Events -/

/-- Something that happens to a client. -/
inductive Event where
  | service (name : String) (wish : Direction)
  | addPeers (service : ServiceId) (addresses : List Address)
  /-- Peers are scored in another way from now on. -/
  | scoreBy (scorer : Scorer)
  | choose (service : ServiceId) (start : Nat)
  | connect (service : ServiceId) (start : Nat)
  | rescore (service : ServiceId) (place : Nat)
  | preferred (service : ServiceId) (place : Nat)
  | connectPeer (service : ServiceId) (place : Nat)
  | findOrOpen (address : Address)
  | clean (connection : ConnectionId)
  | shutdown
  | dispatch (service : ServiceId) (out : Outgoing) (target : Option Address) (start : Nat)
  /-- A request looks at its connection. -/
  | resume (dispatch : DispatchId)
  | abandon (dispatch : DispatchId)
  /-- A call is made on a connection by hand. -/
  | expect (connection : ConnectionId) (request : Request Bytes)
  /-- Something happens to a connection at its stream. -/
  | stream (connection : ConnectionId) (event : Connection.Event)
  /-- The timers of calls go off that are due. -/
  | expire
  | advance (time : Nat)

/-- The client after something that can fail; a failure changes nothing. -/
def orSame {α : Type} (c : Client) (result : Except Error (Client × α)) : Client :=
  match result with
  | .ok (c, _) => c
  | .error _ => c

/-- Whether an event of a connection is one of its stream, and not of its
owner or of the clock. -/
def ofStream : Connection.Event → Bool
  | .expect _ _ | .expire _ | .clean => false
  | _ => true

/-- One event more. -/
def handle (c : Client) (e : Event) : Client :=
  match e with
  | .service name wish => (c.service name wish).1
  | .addPeers i addresses => c.addPeers i addresses
  | .scoreBy scorer => { c with scorer }
  | .choose i start => (c.choose i start).1
  | .connect i start => c.orSame (c.connect i start)
  | .rescore i place => (c.rescorePeer i place).1
  | .preferred i place => (c.preferred i place).1
  | .connectPeer i place => c.orSame (c.connectPeer i place)
  | .findOrOpen address => (c.findOrOpen address).1
  | .clean i => c.clean i
  | .shutdown => c.shutdown
  | .dispatch i out target start => c.orSame (c.dispatch i out target start)
  | .resume d => c.resume d
  | .abandon d => c.abandon d
  | .expect i request => (c.expect i request).1
  | .stream i event => if ofStream event then c.modifyConnection i (·.handle event) else c
  | .expire => c.expireDue
  | .advance time => c.advance time

/-- All events of a run in their order. -/
def run (c : Client) (events : List Event) : Client := events.foldl handle c

/-- A client for which nothing has happened. -/
def start (settings : Settings) (codecs : Codecs) : Client := { settings, codecs }

/-- The states that a client can come to. -/
inductive Reachable (settings : Settings) (codecs : Codecs) : Client → Prop where
  | start : Reachable settings codecs (start settings codecs)
  | handle {c : Client} (e : Event) :
    Reachable settings codecs c → Reachable settings codecs (c.handle e)

theorem Reachable.run {settings : Settings} {codecs : Codecs} {c : Client}
    (h : Reachable settings codecs c) (events : List Event) :
    Reachable settings codecs (c.run events) := by
  induction events generalizing c with
  | nil => exact h
  | cons e events ih => exact ih (h.handle e)

end RpcClient.Client
