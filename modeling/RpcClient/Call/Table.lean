/-
The table of the calls that wait for an answer on one connection. A call gets
a number, its frame is queued, and a timer is set for its deadline. It leaves
the table once: by a reply, by a failure report, by its timer, or when the
connection is given up. Whatever takes it out decides what its caller gets,
and stops its timer.

The caller holds a `Handle`; the table remembers for each handle how its call
ended (`CallTable.outcome?`).
-/
import RpcClient.Request

namespace RpcClient

/-- Which of the handles a table has given out, by their order. -/
abbrev Ticket := Nat

/-- What the caller of a request keeps. -/
inductive Handle where
  /-- The call failed before it was registered. -/
  | failed (error : Error)
  | waiting (ticket : Ticket)
  /-- Every number is taken, and the search for a free one goes on. -/
  | searching
deriving DecidableEq

/-- A call that waits. -/
structure PendingCall where
  id : UInt32
  ticket : Ticket
  timeout : Duration
deriving DecidableEq

/-- Goes off at an instant, for the call with a number. -/
structure Timer where
  id : UInt32
  due : Nat
deriving DecidableEq

/-- The calls of one connection. -/
structure CallTable where
  /-- For requests that do not say how long they wait. -/
  usualTimeout : Duration
  nextId : UInt32 := 1
  /-- The calls that wait, in the order of their registration. -/
  pending : List PendingCall := []
  timers : List Timer := []
  /-- Why no call is taken any more. -/
  closed : Option Error := none
  /-- The frames that have still to be sent, or none when nobody sends them. -/
  queue : Option (List Frame) := some []
  /-- How many handles have been given out. -/
  issued : Nat := 0
  /-- How calls ended, the last one first. -/
  settled : List (Ticket × Outcome Bytes) := []

namespace CallTable

/-! ## What a table shows -/

def pendingCount (t : CallTable) : Nat := t.pending.length

def isClosed (t : CallTable) : Bool := t.closed.isSome

/-- Whether a call with the number waits. -/
def isPending (t : CallTable) (id : UInt32) : Bool := t.pending.any (·.id == id)

/-- How the call of a handle ended, if it has. -/
def outcome? (t : CallTable) : Handle → Option (Outcome Bytes)
  | .failed error => some (.error error)
  | .waiting ticket => t.settled.lookup ticket
  | .searching => none

/-! ## Calls come in -/

/-- The first number from `id` on that no waiting call has, if it is among the
next `tries`. Numbers start again from 0 behind the last. -/
def freeFrom? (t : CallTable) : (tries : Nat) → UInt32 → Option UInt32
  | 0, _ => none
  | tries + 1, id => if t.isPending id then freeFrom? t tries (id + 1) else some id

/-- The number of the next call, if there is one that is not taken. -/
def freeId? (t : CallTable) : Option UInt32 := t.freeFrom? (t.pending.length + 1) t.nextId

/-- Enters a call that is made at `now`, queues its frame and sets its timer.
A closed table takes no call and uses up no number. Where nobody sends the
queue any more, a number is used up and the call has failed. Where every
number is taken, the call is never made. -/
def expect (t : CallTable) (now : Nat) (request : Request Bytes) : CallTable × Handle :=
  match t.closed, t.freeId?, t.queue with
  | some cause, _, _ => (t, .failed (.network cause))
  | none, none, _ => (t, .searching)
  | none, some id, none =>
    let ticket := t.issued
    ({ t with
        nextId := id + 1
        issued := ticket + 1
        settled := (ticket, .error (.network .linkClosed)) :: t.settled },
      .waiting ticket)
  | none, some id, some frames =>
    let timeout := request.effectiveTimeout t.usualTimeout
    let ticket := t.issued
    ({ t with
        nextId := id + 1
        issued := ticket + 1
        pending := t.pending ++ [{ id, ticket, timeout }]
        timers := t.timers ++ [{ id, due := timeout.after now }]
        queue := some (frames ++ [.callRequest (request.toCall id timeout)]) },
      .waiting ticket)

/-! ## Calls end -/

/-- Takes the call with a number out of the table, stops its timer and says
how it ended. The answer is whether there was such a call. -/
def complete (t : CallTable) (id : UInt32) (outcome : PendingCall → Outcome Bytes) :
    CallTable × Bool :=
  match t.pending.find? (·.id == id) with
  | none => (t, false)
  | some call =>
    ({ t with
        pending := t.pending.filter (·.id != id)
        timers := t.timers.filter (·.id != id)
        settled := (call.ticket, outcome call) :: t.settled },
      true)

/-- A reply came. The answer is whether a call was waiting for it. -/
def handleReply (t : CallTable) (reply : Reply) : CallTable × Bool :=
  t.complete reply.id fun _ => .ok (.ofReply reply)

/-- A failure report came. The answer is whether a call was waiting for it. -/
def handleFailure (t : CallTable) (report : FailureReport) : CallTable × Bool :=
  t.complete report.id fun _ => .error (.remote report.kind report.message)

/-- The timer of a call went off. The answer is whether the call was still
waiting. -/
def expire (t : CallTable) (id : UInt32) : CallTable × Bool :=
  t.complete id fun call => .error (.requestTimeout id call.timeout)

/-- Ends all waiting calls with one outcome. -/
def endAll (t : CallTable) (outcome : Outcome Bytes) : CallTable :=
  { t with
      pending := []
      timers := t.timers.filter fun timer => !t.isPending timer.id
      settled := (t.pending.map fun call => (call.ticket, outcome)).reverse ++ t.settled }

/-- Fails all waiting calls, and closes the table. The first cause given is
the one that later calls fail with. The answer is how many calls failed. -/
def failAll (t : CallTable) (cause : Error) : CallTable × Nat :=
  ({ t.endAll (.error (.network cause)) with closed := some (t.closed.getD cause) },
    t.pendingCount)

/-- The table itself goes away, and its callers are told that the link is
closed. -/
def discard (t : CallTable) : CallTable := t.endAll (.error (.network .linkClosed))

/-! ## The queue -/

/-- Takes all frames out of the queue. -/
def takeFrames (t : CallTable) : CallTable × List Frame :=
  match t.queue with
  | none => (t, [])
  | some frames => ({ t with queue := some [] }, frames)

/-- Takes the first frame out of the queue. -/
def nextFrame? (t : CallTable) : Option (Frame × CallTable) :=
  match t.queue with
  | some (frame :: frames) => some (frame, { t with queue := some frames })
  | _ => none

/-- Nobody is going to send what is in the queue. -/
def dropQueue (t : CallTable) : CallTable := { t with queue := none }

/-! ## The clock -/

/-- When the next timer goes off. -/
def nextDue? (t : CallTable) : Option Nat := (t.timers.map (·.due)).min?

/-- Lets the timers go off that are due. -/
def expireDue (t : CallTable) (now : Nat) : CallTable :=
  (t.timers.filter (·.due ≤ now)).foldl (fun t timer => (t.expire timer.id).1) t

end CallTable

end RpcClient
