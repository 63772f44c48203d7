/-
What happens to a table of calls, one event after another on a clock. A run
of events says all that a table goes through; `verdict?` reads off the events
alone how a call ends: the first one decides that is about the call or about
all calls. `firstCause?` reads off them why no call is taken any more.
-/
import RpcClient.Call.Table

namespace RpcClient.CallTable

/-- Something that happens to a table. -/
inductive Event where
  | expect (request : Request Bytes)
  | reply (reply : Reply)
  | failure (report : FailureReport)
  /-- Time passes, and the timers go off that are due by then. -/
  | pass (ms : Nat)
  | failAll (cause : Error)
  | takeFrames
  | dropQueue
  /-- A caller lets go of what it keeps of a call. -/
  | dropHandle (handle : Handle)
  /-- The table goes away. -/
  | discard

/-- A table on its clock. -/
structure Clocked where
  table : CallTable
  now : Nat := 0
  /-- The table has gone away. -/
  discarded : Bool := false

/-- A table for which nothing has happened. -/
def Clocked.start (usualTimeout : Duration) : Clocked where
  table := { usualTimeout }

namespace Clocked

/-- One event more. Nothing happens to a table that has gone away, and a table
does not know which of its callers are still there. -/
def handle (s : Clocked) (e : Event) : Clocked :=
  if s.discarded then s
  else
    match e with
    | .expect request => { s with table := (s.table.expect s.now request).1 }
    | .reply reply => { s with table := (s.table.handleReply reply).1 }
    | .failure report => { s with table := (s.table.handleFailure report).1 }
    | .pass ms => { s with now := s.now + ms, table := s.table.expireDue (s.now + ms) }
    | .failAll cause => { s with table := (s.table.failAll cause).1 }
    | .takeFrames => { s with table := s.table.takeFrames.1 }
    | .dropQueue => { s with table := s.table.dropQueue }
    | .dropHandle _ => s
    | .discard => { s with table := s.table.discard, discarded := true }

/-- Whether an event registers a call. -/
def registers (s : Clocked) (e : Event) : Bool :=
  match e with
  | .expect _ =>
    !s.discarded && !s.table.isClosed && s.table.freeId?.isSome && s.table.queue.isSome
  | _ => false

/-- All events of a run in their order. -/
def run (s : Clocked) (events : List Event) : Clocked := events.foldl handle s

/-- The states that a table can come to. -/
inductive Reachable (usualTimeout : Duration) : Clocked → Prop where
  | start : Reachable usualTimeout (.start usualTimeout)
  | handle {s : Clocked} (e : Event) :
    Reachable usualTimeout s → Reachable usualTimeout (s.handle e)

theorem Reachable.run {usualTimeout : Duration} {s : Clocked} (h : Reachable usualTimeout s)
    (events : List Event) : Reachable usualTimeout (s.run events) := by
  induction events generalizing s with
  | nil => exact h
  | cons e events ih => exact ih (h.handle e)

end Clocked

/-! ## How a call ends, by the events alone -/

/-- What an event at `now` means for a call that waits: nothing, or its end. -/
def Event.verdict? (id : UInt32) (timeout : Duration) (due now : Nat) :
    Event → Option (Outcome Bytes)
  | .reply r => if r.id = id then some (.ok (.ofReply r)) else none
  | .failure f => if f.id = id then some (.error (.remote f.kind f.message)) else none
  | .pass ms => if due ≤ now + ms then some (.error (.requestTimeout id timeout)) else none
  | .failAll cause => some (.error (.network cause))
  | .discard => some (.error (.network .linkClosed))
  | _ => none

/-- The instant after an event. -/
def Event.after (now : Nat) : Event → Nat
  | .pass ms => now + ms
  | _ => now

/-- How a call ends in a run, if it does: the first event decides that means
its end. -/
def verdict? (id : UInt32) (timeout : Duration) (due : Nat) :
    (now : Nat) → List Event → Option (Outcome Bytes)
  | _, [] => none
  | now, e :: events =>
    (e.verdict? id timeout due now).or (verdict? id timeout due (e.after now) events)

/-! ## Why a table is closed, by the events alone -/

/-- The first cause for which all calls are failed in a run. -/
def firstCause? : List Event → Option Error
  | .failAll cause :: _ => some cause
  | .discard :: _ => none
  | _ :: events => firstCause? events
  | [] => none

end RpcClient.CallTable
