/-
What could be written down of a table while it is in use: the calls that were
registered, in their order (`log`), how many calls the operations say they
have ended (`books`), the numbers that were used up (`spent`) and the frames
that were put into the queue (`allQueued`). The table itself keeps none of them.
-/
import RpcClient.Call.Event

namespace RpcClient.CallTable

/-- A call that was registered, and when. -/
structure Entry where
  call : PendingCall
  time : Nat
deriving DecidableEq

/-- The timer that belongs to a call: it goes off when the call has waited for
its own time. -/
def Entry.timer (e : Entry) : Timer := { id := e.call.id, due := e.call.timeout.after e.time }

/-- The calls of a log whose outcome is not decided. -/
def undecided (t : CallTable) (log : List Entry) : List Entry :=
  log.filter fun e => (t.outcome? (.waiting e.call.ticket)).isNone

/-- How many calls end when the timers in a list go off one after another. -/
def expirations : CallTable → List Timer → Nat
  | _, [] => 0
  | t, timer :: timers => (t.expire timer.id).2.toNat + (t.expire timer.id).1.expirations timers

/-- How many calls have ended in each way. -/
structure Books where
  replies : Nat := 0
  failures : Nat := 0
  expired : Nat := 0
  failed : Nat := 0
  /-- Those that waited when the table went away. -/
  lost : Nat := 0
deriving DecidableEq

namespace Clocked

/-- The entry for a call that is made, if it is registered. -/
def entryOf? (s : Clocked) (request : Request Bytes) : Option Entry :=
  if s.registers (.expect request) then
    s.table.freeId?.map fun id =>
      { call := {
          id
          ticket := s.table.issued
          timeout := request.effectiveTimeout s.table.usualTimeout }
        time := s.now }
  else none

def entered (s : Clocked) : Event → List Entry
  | .expect request => (s.entryOf? request).toList
  | _ => []

/-- All calls that a run registers. -/
def log (s : Clocked) : List Event → List Entry
  | [] => []
  | e :: events => s.entered e ++ (s.handle e).log events

/-- The books after an event, by what its caller is told. -/
def book (s : Clocked) (b : Books) (e : Event) : Books :=
  if s.discarded then b
  else
    match e with
    | .reply reply => { b with replies := b.replies + (s.table.handleReply reply).2.toNat }
    | .failure report => { b with failures := b.failures + (s.table.handleFailure report).2.toNat }
    | .pass ms =>
      let due := s.table.timers.filter (·.due ≤ s.now + ms)
      { b with expired := b.expired + s.table.expirations due }
    | .failAll cause => { b with failed := b.failed + (s.table.failAll cause).2 }
    | .discard => { b with lost := b.lost + s.table.pendingCount }
    | _ => b

/-- The books after all events of a run. -/
def books (s : Clocked) (b : Books) : List Event → Books
  | [] => b
  | e :: events => (s.handle e).books (s.book b e) events

/-- The number that an event uses up: one for each call that is made, whether it
is registered or fails for want of a queue, unless the table is closed. -/
def spends? (s : Clocked) : Event → Option UInt32
  | .expect _ => if s.discarded || s.table.isClosed then none else s.table.freeId?
  | _ => none

/-- All numbers that a run uses up, in their order. -/
def spent (s : Clocked) : List Event → List UInt32
  | [] => []
  | e :: events => (s.spends? e).toList ++ (s.handle e).spent events

/-- The frames that an event puts at the end of the queue. -/
def queued (s : Clocked) (e : Event) : List Frame :=
  ((s.handle e).table.queue.getD []).drop (s.table.queue.getD []).length

/-- All frames that a run puts into the queue. -/
def allQueued (s : Clocked) : List Event → List Frame
  | [] => []
  | e :: events => s.queued e ++ (s.handle e).allQueued events

end Clocked

end RpcClient.CallTable
