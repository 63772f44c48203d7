/-
Scenarios for framed reading and writing: one stage, read and written with
fixed time limits, with a feeder in the background and somebody at the far end
who looks at what was written, or goes away.
-/
import RpcClient.Scenario.Answer
import RpcClient.Stream.Stage

namespace RpcClient.Scenario.Framing

/-- One step. -/
inductive Step where
  | feed (plan : List Feed)
  | read
  | write (payload : Bytes)
  /-- Ends the stream that is written. -/
  | close
  /-- Looks at what was written. -/
  | collect
  /-- The far end goes away. -/
  | leave
  | sleep (ms : Nat)

/-- A stage, the clock, and the limits. -/
structure World where
  stage : Stage
  now : Nat := 0
  sendLimit : Option Duration
  receiveLimit : Option Duration
  /-- The far end has gone. -/
  alone : Bool := false

/-- A world in which nothing has been done. -/
def World.start (capacity : Nat) (sendLimit receiveLimit : Option Duration) : World where
  stage := { inbound := { capacity }, outbound := { capacity } }
  sendLimit := sendLimit
  receiveLimit := receiveLimit

/-- The world behind an operation, with what it came to. An operation that
waited too long is dropped. -/
def World.finish {α : Type} (w : World) (result : Option α × Nat × Stage) (answer : α → Answer) :
    World × Answer :=
  ({ w with stage := { result.2.2 with operation := .idle }, now := result.2.1 },
    result.1.elim .blocked answer)

/-- Carries out a step. -/
def step (w : World) : Step → World × Answer
  | .feed plan =>
    let stage := { w.stage with plan := w.stage.plan ++ plan }
    ({ w with stage := stage.settle w.now }, .nothing)
  | .read =>
    w.finish (w.stage.read w.now w.receiveLimit (w.now + patience)) (.ofResult .payload)
  | .write payload =>
    w.finish (w.stage.write w.now w.sendLimit payload (w.now + patience))
      (.ofResult fun _ => .word "ok")
  | .close =>
    ({ w with stage := { w.stage with outbound := w.stage.outbound.close } }, .word "ok")
  | .collect =>
    if w.alone then (w, .bytes [])
    else
      let stage := (w.stage.beginCollect w.now).settle w.now
      w.finish (Stage.clockwork.await Stage.collected? (w.now + patience) w.now stage) .bytes
  | .leave =>
    ({ w with
        alone := true
        stage := { w.stage with outbound := w.stage.outbound.close } }, .nothing)
  | .sleep ms =>
    let (now, stage) := Stage.clockwork.sleep (w.now + ms) w.now w.stage
    ({ w with now, stage }, .nothing)

/-- The answers to all steps. -/
def run (w : World) (steps : List Step) : List Timed :=
  runSteps (fun w s => let (w, answer) := step w s; (w, { answer, time := w.now })) steps w

end RpcClient.Scenario.Framing
