/-
Scenarios for a table of calls: requests come in, replies, failures and
deadlines take them out, and what becomes of each is looked up under the name
of a slot.
-/
import RpcClient.Scenario.Answer

namespace RpcClient.Scenario.Calls

/-- One step. -/
inductive Step where
  /-- Enters a request once for each slot. -/
  | expect (slots : List String) (request : Request Bytes) (reader : ReplyReader)
  | reply (reply : Reply)
  | failure (report : FailureReport)
  | failAll (cause : Error)
  /-- Takes the frames that have been queued. -/
  | frames
  /-- Nobody takes frames any more. -/
  | dropQueue
  /-- The table goes away. -/
  | discard
  | sleep (ms : Nat)
  /-- Looks at a slot. -/
  | poll (slot : String)
  /-- Waits for a slot. -/
  | await (slot : String)
  | drop (slot : String)

/-- A table, the clock, and the handles under their names. -/
structure World where
  table : CallTable
  discarded : Bool := false
  now : Nat := 0
  slots : List (String × Handle × ReplyReader) := []

/-- The answer to a step, with what the table then shows. -/
structure Shown where
  answer : Answer
  time : Nat
  /-- The calls that wait, and whether the table is closed, while there is a
  table. -/
  table : Option (Nat × Bool)

/-- What has become of a slot. -/
def World.outcome? (w : World) (slot : String) : Option (Outcome Body) :=
  (w.slots.lookup slot).bind fun (handle, reader) => (w.table.outcome? handle).map reader.read

/-- How a table changes as time passes. -/
def clockwork : Clockwork World where
  next? w := w.table.nextDue?
  settle now w := { w with now, table := w.table.expireDue now }

/-- Changes the table, if it is still there. -/
def onTable (w : World) (f : CallTable → CallTable × Answer) : World × Answer :=
  if w.discarded then (w, .word "no router")
  else
    let (table, answer) := f w.table
    ({ w with table }, answer)

/-- Enters a request into a slot. -/
def enter (request : Request Bytes) (reader : ReplyReader) (w : World) (slot : String) : World :=
  let (table, handle) := w.table.expect w.now request
  { w with table, slots := put w.slots slot (handle, reader) }

/-- Carries out a step. -/
def step (w : World) : Step → World × Answer
  | .expect slots request reader =>
    if w.discarded then (w, .word "no router")
    else (slots.foldl (enter request reader) w, .word "sent")
  | .reply reply => onTable w fun t => let (t, found) := t.handleReply reply; (t, .flag found)
  | .failure report =>
    onTable w fun t => let (t, found) := t.handleFailure report; (t, .flag found)
  | .failAll cause => onTable w fun t => let (t, count) := t.failAll cause; (t, .number count)
  | .frames =>
    let (table, frames) := w.table.takeFrames
    ({ w with table }, .frames frames)
  | .dropQueue => ({ w with table := w.table.dropQueue }, .nothing)
  | .discard =>
    if w.discarded then (w, .word "no router")
    else ({ w with table := w.table.discard, discarded := true }, .nothing)
  | .sleep ms =>
    ((clockwork.sleep (w.now + ms) w.now w).2, .nothing)
  | .poll slot =>
    if (w.slots.lookup slot).isNone then (w, .noSlot)
    else
      match w.outcome? slot with
      | none => (w, .word "pending")
      | some outcome => ({ w with slots := remove w.slots slot }, .outcome outcome)
  | .await slot =>
    if (w.slots.lookup slot).isNone then (w, .noSlot)
    else
      let (outcome, _, w) := clockwork.await (·.outcome? slot) (w.now + patience) w.now w
      ({ w with slots := remove w.slots slot }, outcome.elim .blocked .outcome)
  | .drop slot =>
    if (w.slots.lookup slot).isNone then (w, .noSlot)
    else ({ w with slots := remove w.slots slot }, .word "dropped")

/-- Carries out a step, and lets happen what happens at once. -/
def stepShown (w : World) (s : Step) : World × Shown :=
  let (w, answer) := step w s
  let w := clockwork.settle w.now w
  (w,
    { answer
      time := w.now
      table := if w.discarded then none else some (w.table.pendingCount, w.table.isClosed) })

/-- The answers to all steps. -/
def run (usualTimeout : Duration) (steps : List Step) : List Shown :=
  runSteps stepShown steps { table := { usualTimeout } }

end RpcClient.Scenario.Calls
