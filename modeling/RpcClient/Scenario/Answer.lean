/-
Scenarios: lists of steps that are carried out one after the other on a clock
that jumps, each with an answer. A step that has to wait gives up after ten
minutes. The answers of all kinds of scenario are listed here.
-/
import RpcClient.Client
import RpcClient.Clock

namespace RpcClient.Scenario

/-- How long a step waits at most, in milliseconds. -/
def patience : Nat := 600000

/-- What is shown of a connection. -/
structure ConnectionView where
  /-- Its place in the order in which connections were first shown. -/
  number : Nat
  connection : Connection

/-- What a scripted server has seen. -/
inductive LogEntry where
  | frame (frame : Frame)
  | closed

/-- The answer to a step. -/
inductive Answer where
  | nothing
  | word (text : String)
  | flag (value : Bool)
  | number (value : Nat)
  | bytes (bytes : Bytes)
  /-- A payload that was received. -/
  | payload (bytes : Bytes)
  /-- A value that was received. -/
  | value (body : Body)
  | error (error : Error)
  | frames (frames : List Frame)
  | outcome (outcome : Outcome Body)
  | notSent (error : Error)
  | service (same : Bool) (wish : Direction) (caller : String)
  /-- The peers of a service that has just got some. -/
  | configured (peers : List Peer) (description : String)
  | peers (peers : List Peer)
  | chosen (place : Nat) (peer : Peer)
  | score (settles : Bool) (value : Int)
  /-- A connection by its number, perhaps with its address. -/
  | connected (number : Nat) (remote : Option Address)
  | connection (view : ConnectionView)
  | pool (size : Nat)
  | log (dials : Nat) (entries : List LogEntry)
  | visits (visits : List (Address × Option Handshake))

/-- There is no such slot, or it has been used up. -/
def Answer.noSlot : Answer := .word "no slot"

/-- The step has given up waiting. -/
def Answer.blocked : Answer := .word "blocked"

/-- The result of an operation, as an answer. -/
def Answer.ofResult {α : Type} (ok : α → Answer) : Except LinkError α → Answer
  | .ok a => ok a
  | .error e => .error (.link e)

/-- An answer and the instant at which it was given. -/
structure Timed where
  answer : Answer
  time : Nat

/-- Puts something under a key, over what is there. -/
def put {κ α : Type} [BEq κ] (slots : List (κ × α)) (name : κ) (a : α) : List (κ × α) :=
  (name, a) :: slots.filter (·.1 != name)

/-- Takes away what is under a key. -/
def remove {κ α : Type} [BEq κ] (slots : List (κ × α)) (name : κ) : List (κ × α) :=
  slots.filter (·.1 != name)

/-- Carries out steps one after the other. -/
def runSteps {σ ι α : Type} (step : σ → ι → σ × α) : List ι → σ → List α
  | steps, s => (steps.foldl (fun (s, done) i => let (s, a) := step s i; (s, a :: done)) (s, [])).2.reverse

end RpcClient.Scenario
