/-
What happens to a connection, one event after another: how dialling ended,
what its stream took, brought and reported, the calls that are made on it, and
its owner giving it up. The events may come in any order; one that does not
belong where the connection stands changes nothing.

`written` and `queued` say what each event puts on the stream and into the
queue, so that the two can be compared over a whole run.
-/
import RpcClient.Connection

namespace RpcClient.Connection

/-- Something that happens to a connection. -/
inductive Event where
  | dialled
  | dialFailed (error : LinkError)
  /-- It takes the next call from its queue, if it is not writing one. -/
  | load
  /-- Its stream has taken so many bytes of what it offers. -/
  | wrote (count : Nat)
  | writeFailed (error : LinkError)
  /-- Bytes have come in. -/
  | arrived (bytes : Bytes)
  /-- Its stream has ended, or cannot be read. -/
  | readFailed (error : LinkError)
  /-- A call is made on it. -/
  | expect (now : Nat) (request : Request Bytes)
  /-- The timers of its calls go off that are due. -/
  | expire (now : Nat)
  | clean
  | noticeStop

/-- One event more. -/
def handle (c : Connection) (e : Event) : Connection :=
  match e with
  | .dialled => c.dialled
  | .dialFailed error => c.dialFailed error
  | .load => c.load
  | .wrote count => c.wrote count
  | .writeFailed error => if c.offer.isEmpty then c else c.broken error
  | .arrived bytes => (c.arrived bytes).1
  | .readFailed error => if c.isReading then c.broken error else c
  | .expect now request => { c with calls := (c.calls.expect now request).1 }
  | .expire now => { c with calls := c.calls.expireDue now }
  | .clean => c.clean
  | .noticeStop => c.noticeStop

/-- All events of a run in their order. -/
def run (c : Connection) (events : List Event) : Connection := events.foldl handle c

/-- The states that a connection can come to. -/
inductive Reachable (remote : Address) (settings : ConnectionSettings) : Connection → Prop where
  | dial : Reachable remote settings (.dial remote settings)
  | handle {c : Connection} (e : Event) :
    Reachable remote settings c → Reachable remote settings (c.handle e)

theorem Reachable.run {remote : Address} {settings : ConnectionSettings} {c : Connection}
    (h : Reachable remote settings c) (events : List Event) :
    Reachable remote settings (c.run events) := by
  induction events generalizing c with
  | nil => exact h
  | cons e events ih => exact ih (h.handle e)

/-! ## What goes out -/

/-- The bytes that an event puts on the stream. -/
def written (c : Connection) (e : Event) : Bytes :=
  match e with
  | .wrote count => c.offer.take count
  | _ => []

/-- The frames that an event puts into the queue. -/
def queued (c : Connection) (e : Event) : List Frame :=
  match e with
  | .expect now request =>
    ((c.calls.expect now request).1.queue.getD []).drop (c.calls.queue.getD []).length
  | _ => []

/-- All bytes that a run puts on the stream. -/
def transcript (c : Connection) : List Event → Bytes
  | [] => []
  | e :: events => c.written e ++ (c.handle e).transcript events

/-- The bytes that come in during a run. -/
def Event.incoming : Event → Bytes
  | .arrived bytes => bytes
  | _ => []

end RpcClient.Connection
