/-
Framed reading and writing, one operation after another, with time limits and with any
pauses of the two far ends. Every step takes the next bytes of what comes in, and puts
the next bytes on what goes out (`Books`): a read that succeeds takes one frame, a write
that succeeds puts one, and what a failed one has moved is a part of a frame, and lost.
What was put there leaves in the same order, to be collected or to be taken by a plan
(`Entry.gone`). Without such a plan the far end has collected just what was put and does
not wait there any more (`Books.collected`).

So both streams stay in sync just as long as the failed operations have moved nothing
(`Entry.Whole`): a limit that passes within a frame leaves the next operation within it.
-/
import Mathlib.Data.List.Permutation
import RpcClient.Proofs.Stream.Limit
import RpcClient.Proofs.Stream.Settled
import RpcClient.Scenario.Framing

namespace RpcClient

open Framing (framed first?)

/-! ## A stream of frames -/

/-- Whatever stands in front of some bytes as whole frames are the first of the frames that
they are made of. -/
theorem Framing.prefix_of_frames {received payloads : List Bytes} {rest tail : Bytes}
    (hreceived : ∀ p ∈ received, p.length ≤ maxLength)
    (hpayloads : ∀ p ∈ payloads, p.length ≤ maxLength) (unfinished : first? tail = none)
    (h : received.flatMap framed ++ rest = payloads.flatMap framed ++ tail) :
    received <+: payloads := by
  induction received generalizing payloads with
  | nil => exact List.nil_prefix
  | cons r received ih =>
    have hread := FrameReader.start_read_fits (hreceived r List.mem_cons_self)
      (received.flatMap framed ++ rest)
    rw [List.flatMap_cons, List.append_assoc] at h
    cases payloads with
    | nil =>
      have htail : first? tail = some (.ok r) := by
        rw [← FrameReader.first?_eq, ← List.nil_append tail, ← List.flatMap_nil, ← h, hread]
      cases unfinished.symm.trans htail
    | cons p payloads =>
      rw [List.flatMap_cons, List.append_assoc] at h
      have hread' := FrameReader.start_read_fits (hpayloads p List.mem_cons_self)
        (payloads.flatMap framed ++ tail)
      rw [h, hread'] at hread
      simp only [Prod.mk.injEq, Option.some.injEq, Except.ok.injEq, true_and] at hread
      obtain ⟨rfl, hmore⟩ := hread
      rw [List.cons_prefix_cons]
      exact ⟨rfl, ih (fun q hq => hreceived q (List.mem_cons_of_mem _ hq))
        (fun q hq => hpayloads q (List.mem_cons_of_mem _ hq)) hmore.symm⟩

namespace Stage

/-- Whether a plan ends the stream. -/
def finishes : List Feed → Bool
  | [] => false
  | .finish :: _ => true
  | _ :: plan => finishes plan

theorem arriving_append (plan more : List Feed) :
    arriving (plan ++ more) = arriving plan ++ if finishes plan then [] else arriving more := by
  induction plan with
  | nil => rfl
  | cons first plan ih =>
    cases first with
    | bytes bytes =>
      change bytes ++ arriving (plan ++ more) =
        (bytes ++ arriving plan) ++ if finishes plan then [] else arriving more
      rw [ih, List.append_assoc]
    | finish => rfl
    | wait span => exact ih
    | resume time => exact ih

end Stage

namespace Scenario

/-- One step more: its answer comes before those that there are. -/
def stepOn {σ ι α : Type} (step : σ → ι → σ × α) (s : σ × List α) (i : ι) : σ × List α :=
  ((step s.1 i).1, (step s.1 i).2 :: s.2)

theorem runSteps_eq {σ ι α : Type} (step : σ → ι → σ × α) (steps : List ι) (s : σ) :
    runSteps step steps s = (steps.foldl (stepOn step) (s, [])).2.reverse := rfl

theorem foldl_stepOn {σ ι α : Type} (step : σ → ι → σ × α) (steps : List ι) (s : σ)
    (done : List α) :
    (steps.foldl (stepOn step) (s, done)).2 = (steps.foldl (stepOn step) (s, [])).2 ++ done := by
  induction steps generalizing s done with
  | nil => rfl
  | cons i steps ih =>
    rw [List.foldl_cons, List.foldl_cons, stepOn, stepOn, ih, ih _ [_], List.append_assoc,
      List.singleton_append]

theorem runSteps_cons {σ ι α : Type} (step : σ → ι → σ × α) (i : ι) (steps : List ι) (s : σ) :
    runSteps step (i :: steps) s = (step s i).2 :: runSteps step steps (step s i).1 := by
  rw [runSteps_eq, runSteps_eq, List.foldl_cons, stepOn, foldl_stepOn, List.reverse_append]
  rfl

namespace Framing

/-! ## The books -/

/-- A step with its answer, and what it has moved on the two streams. -/
structure Entry where
  step : Step
  answer : Answer
  taken : Bytes
  put : Bytes
  /-- What has left the outgoing stream meanwhile, in its order. -/
  gone : Bytes

/-- Whether a step is to move bytes. -/
def Step.isTransfer : Step → Bool
  | .read | .write _ | .collect => true
  | _ => false

/-- What was moved fits the answer: a read takes, a write puts, what is collected has gone,
and no other step moves anything for itself. -/
inductive Entry.Sound : Entry → Prop
  | read {result : Option (Except LinkError Bytes)} {taken gone : Bytes}
      (h : Stage.Took result taken) :
    Sound ⟨.read, result.elim .blocked (.ofResult .payload), taken, [], gone⟩
  | write {payload : Bytes} {result : Option (Except LinkError Unit)} {put gone : Bytes}
      (h : Stage.Put payload result put) :
    Sound ⟨.write payload, result.elim .blocked (.ofResult fun _ => .word "ok"), [], put, gone⟩
  | collect {got gone : Bytes} (h : got.Sublist gone) :
    Sound ⟨.collect, .bytes got, [], [], gone⟩
  | other {s : Step} {answer : Answer} {gone : Bytes} (still : s.isTransfer = false) :
    Sound ⟨s, answer, [], [], gone⟩

/-- The payload that was received with a step. -/
def Entry.received? (e : Entry) : Option Bytes :=
  match e.step, e.answer with
  | .read, .payload payload => some payload
  | _, _ => none

/-- The payload that was sent with a step. -/
def Entry.sent? (e : Entry) : Option Bytes :=
  match e.step, e.answer with
  | .write payload, .word "ok" => some payload
  | _, _ => none

/-- What the far end has got with a step that looks there. -/
def Entry.got (e : Entry) : Bytes :=
  match e.step, e.answer with
  | .collect, .bytes got => got
  | _, _ => []

/-- A step that did not succeed has moved nothing. -/
def Entry.Whole (e : Entry) : Prop :=
  (e.received? = none → e.taken = []) ∧ (e.sent? = none → e.put = [])

/-- All that is still to come in. -/
def World.coming (w : World) : Bytes := w.stage.ahead

/-- What a step adds to that: the feeder is told to bring more, behind what it was told. -/
def World.brought (w : World) : Step → Bytes
  | .feed plan =>
    if w.stage.inbound.closed || Stage.finishes w.stage.plan then [] else Stage.arriving plan
  | _ => []

/-- What all steps of a run add. -/
def World.bringing (w : World) : List Step → Bytes
  | [] => []
  | s :: steps => w.brought s ++ (step w s).1.bringing steps

/-- The world behind a run. -/
def World.after (w : World) (steps : List Step) : World :=
  steps.foldl (fun w s => (step w s).1) w

/-- The entries for the steps of a run. -/
structure Books (w : World) (steps : List Step) (entries : List Entry) : Prop where
  order : entries.map (·.step) = steps
  answers : entries.map (·.answer) = (run w steps).map (·.answer)
  sound : ∀ e ∈ entries, e.Sound
  /-- What came in was taken by one step after another, or is still to be taken. -/
  inbound : w.coming ++ w.bringing steps = entries.flatMap (·.taken) ++ (w.after steps).coming
  /-- What goes out was put there by one step after another; it has gone during one step
  after another, or is still there. -/
  outbound : w.stage.outbound.buffer ++ entries.flatMap (·.put) =
    entries.flatMap (·.gone) ++ (w.after steps).stage.outbound.buffer
  /-- What has gone was collected, or the taker has got it, who had so much more to take. -/
  taker : Stage.demand w.stage.takes + (entries.flatMap Entry.got).length =
    (entries.flatMap (·.gone)).length + Stage.demand (w.after steps).stage.takes

/-! ## One step -/

/-- What a step has moved, and it leaves nothing undone. -/
structure Stepped (w w' : World) (s : Step) (answer : Answer) (taken put gone : Bytes) : Prop where
  sound : Entry.Sound ⟨s, answer, taken, put, gone⟩
  inbound : w.coming ++ w.brought s = taken ++ w'.coming
  outbound : w.stage.outbound.buffer ++ put = gone ++ w'.stage.outbound.buffer
  taker : Stage.demand w.stage.takes + (Entry.got ⟨s, answer, taken, put, gone⟩).length =
    gone.length + Stage.demand w'.stage.takes
  idle : w'.stage.operation = .idle

/-- A step that waits for an operation has moved what that has. -/
theorem Stepped.finish {α : Type} {w : World} {s : Step} {taken put gone : Bytes}
    {result : Option α × Nat × Stage} {answer : α → Answer}
    (hsound : Entry.Sound ⟨s, result.1.elim .blocked answer, taken, put, gone⟩)
    (hmoves : Stage.Moves w.stage result.2.2 taken put gone
      (Entry.got ⟨s, result.1.elim .blocked answer, taken, put, gone⟩))
    (nothing : w.brought s = []) :
    Stepped w (w.finish result answer).1 s (w.finish result answer).2 taken put gone := by
  refine ⟨hsound, ?_, hmoves.outbound, hmoves.taker, rfl⟩
  rw [nothing, List.append_nil]
  exact hmoves.inbound

/-- A step that has nothing done at the stage moves nothing. -/
theorem Stepped.nothing {w w' : World} {s : Step} {answer : Answer}
    (sound : Entry.Sound ⟨s, answer, [], [], []⟩) (got : Entry.got ⟨s, answer, [], [], []⟩ = [])
    (brought : w.brought s = []) (coming : w'.coming = w.coming)
    (outbound : w'.stage.outbound.buffer = w.stage.outbound.buffer)
    (takes : w'.stage.takes = w.stage.takes) (idle : w'.stage.operation = .idle) :
    Stepped w w' s answer [] [] [] where
  sound := sound
  inbound := by rw [brought, coming, List.append_nil, List.nil_append]
  outbound := by rw [outbound, List.append_nil, List.nil_append]
  taker := by rw [got, takes, Nat.add_comm]
  idle := idle

theorem stepped (w : World) (idle : w.stage.operation = .idle) (s : Step) :
    ∃ taken put gone, Stepped w (step w s).1 s (step w s).2 taken put gone := by
  cases s with
  | feed plan =>
    have hbegun : Stage.Doing .idle { w.stage with plan := w.stage.plan ++ plan }
        { w.stage with plan := w.stage.plan ++ plan } :=
      ⟨[], [], [], [], .same _, by simpa only [idle] using .idle⟩
    obtain ⟨taken, put, gone, got, hmoves, haccount⟩ := hbegun.settle w.now
    have hplan : w.coming ++ w.brought (.feed plan) =
        Stage.ahead { w.stage with plan := w.stage.plan ++ plan } := by
      cases hclosed : w.stage.inbound.closed <;>
        simp [World.coming, World.brought, Stage.ahead, Stage.incoming, hclosed,
          Stage.arriving_append]
    simp only [step]
    generalize Stage.settle w.now { w.stage with plan := w.stage.plan ++ plan } = stage at *
    generalize hoperation : stage.operation = operation at haccount
    cases haccount
    exact ⟨[], [], gone, .other rfl, hplan.trans hmoves.inbound, hmoves.outbound, hmoves.taker,
      hoperation⟩
  | read =>
    obtain ⟨taken, gone, hmoves, htook⟩ :=
      w.stage.read_took w.now w.receiveLimit (w.now + patience)
    exact ⟨taken, [], gone, .finish (.read htook) hmoves rfl⟩
  | write payload =>
    obtain ⟨put, gone, hmoves, hput⟩ :=
      w.stage.write_put w.now w.sendLimit payload (w.now + patience)
    exact ⟨[], put, gone, .finish (.write hput) hmoves rfl⟩
  | close => exact ⟨[], [], [], .nothing (.other rfl) rfl rfl rfl rfl rfl idle⟩
  | leave => exact ⟨[], [], [], .nothing (.other rfl) rfl rfl rfl rfl rfl idle⟩
  | collect =>
    simp only [step]
    split
    · exact ⟨[], [], [], .nothing (.collect .slnil) rfl rfl rfl rfl rfl idle⟩
    · have henough : w.now < w.now + patience := Nat.lt_add_of_pos_right (by decide)
      obtain ⟨got, gone, hgot, hmoves⟩ := Stage.collect_got henough w.stage
      refine ⟨[], [], gone, .finish ?_ ?_ rfl⟩
      · rw [hgot]
        exact .collect hmoves.collected
      · rw [hgot]
        exact hmoves
  | sleep ms =>
    have hbegun : Stage.Doing .idle w.stage w.stage :=
      ⟨[], [], [], [], .same _, idle ▸ .idle⟩
    obtain ⟨taken, put, gone, got, hmoves, haccount⟩ :=
      hbegun.await (fun _ => (none : Option Unit)) (w.now + ms) w.now
    simp only [step, Clockwork.sleep]
    generalize Stage.clockwork.await (fun _ => (none : Option Unit)) (w.now + ms) w.now
      w.stage = result at *
    generalize hoperation : result.2.2.operation = operation at haccount
    cases haccount
    exact ⟨[], [], gone, .other rfl, (List.append_nil _).trans hmoves.inbound, hmoves.outbound,
      hmoves.taker, hoperation⟩

/-! ## A run -/

theorem run_cons (w : World) (s : Step) (steps : List Step) :
    (run w (s :: steps)).map (·.answer) =
      (step w s).2 :: (run (step w s).1 steps).map (·.answer) := by
  rw [run, runSteps_cons, List.map_cons]
  rfl

theorem books (w : World) (idle : w.stage.operation = .idle) (steps : List Step) :
    ∃ entries, Books w steps entries := by
  induction steps generalizing w with
  | nil =>
    exact ⟨[], rfl, rfl, fun e he => absurd he List.not_mem_nil, List.append_nil _,
      List.append_nil _, Nat.add_comm _ _⟩
  | cons s steps ih =>
    obtain ⟨taken, put, gone, h⟩ := stepped w idle s
    obtain ⟨entries, hbooks⟩ := ih (step w s).1 h.idle
    refine ⟨⟨s, (step w s).2, taken, put, gone⟩ :: entries, ?_, ?_, ?_, ?_, ?_, ?_⟩
    · rw [List.map_cons, hbooks.order]
    · rw [List.map_cons, hbooks.answers, run_cons]
    · intro e he
      rcases List.mem_cons.1 he with rfl | he
      · exact h.sound
      · exact hbooks.sound e he
    · rw [World.bringing, ← List.append_assoc, h.inbound, List.append_assoc, hbooks.inbound,
        List.flatMap_cons, List.append_assoc]
      rfl
    · rw [List.flatMap_cons, ← List.append_assoc, h.outbound, List.append_assoc, hbooks.outbound,
        List.flatMap_cons, List.append_assoc]
      rfl
    · have hfirst := h.taker
      have hrest := hbooks.taker
      have hafter : w.after (s :: steps) = (step w s).1.after steps := rfl
      simp only [List.flatMap_cons, List.length_append, hafter]
      omega

/-! ## What the far end has got -/

variable {e : Entry} {entries : List Entry} {w : World} {steps : List Step}

theorem Entry.Sound.got (h : e.Sound) : e.got.Sublist e.gone := by
  cases h with
  | collect h => exact h
  | read | write => exact List.nil_sublist _
  | @other s answer gone still =>
    cases s <;> first | exact List.nil_sublist _ | cases still

theorem sublist_gone (sound : ∀ e ∈ entries, e.Sound) :
    (entries.flatMap Entry.got).Sublist (entries.flatMap (·.gone)) := by
  induction entries with
  | nil => exact .slnil
  | cons e entries ih =>
    exact (sound e List.mem_cons_self).got.append
      (ih fun e he => sound e (List.mem_cons_of_mem _ he))

/-- Where nobody takes by a plan, what has gone was collected. -/
theorem Books.gone_eq (h : Books w steps entries) (alone : w.stage.takes = []) :
    entries.flatMap (·.gone) = entries.flatMap Entry.got := by
  have hsub := sublist_gone h.sound
  have hlength := hsub.length_le
  have htaker := h.taker
  rw [alone, Stage.demand] at htaker
  exact (hsub.eq_of_length (by omega)).symm

/-- Where nobody takes by a plan, the far end has got what was put on the stream and is not
there any more. -/
theorem Books.collected (h : Books w steps entries) (alone : w.stage.takes = []) :
    w.stage.outbound.buffer ++ entries.flatMap (·.put) =
      entries.flatMap Entry.got ++ (w.after steps).stage.outbound.buffer := by
  rw [← h.gone_eq alone]
  exact h.outbound

/-! ## As long as nothing is lost -/

theorem Entry.Sound.received (h : e.Sound) {payload : Bytes}
    (received : e.received? = some payload) :
    e.taken = framed payload ∧ payload.length ≤ Framing.maxLength := by
  cases h with
  | read h =>
    cases h with
    | frame fits =>
      obtain rfl := Option.some.inj received
      exact ⟨rfl, fits⟩
    | fault | ended | late | dropped => cases received
  | write | collect => cases received
  | @other s =>
    cases s <;> first | cases received | contradiction

theorem Entry.Sound.sent (h : e.Sound) {payload : Bytes} (sent : e.sent? = some payload) :
    e.put = framed payload := by
  cases h with
  | write h =>
    cases h with
    | frame =>
      obtain rfl := Option.some.inj sent
      rfl
    | broken | late | dropped => cases sent
  | read | collect => cases sent
  | @other s =>
    cases s <;> first | cases sent | contradiction

/-- A step that has moved no part of a frame has moved the frame of its payload, if any. -/
theorem Entry.Sound.whole (h : e.Sound) (whole : e.Whole) :
    e.taken = e.received?.toList.flatMap framed ∧ e.put = e.sent?.toList.flatMap framed ∧
      ∀ payload, e.received? = some payload → payload.length ≤ Framing.maxLength := by
  refine ⟨?_, ?_, fun payload hpayload => (h.received hpayload).2⟩
  · cases hreceived : e.received? with
    | none => exact whole.1 hreceived
    | some payload => simpa using (h.received hreceived).1
  · cases hsent : e.sent? with
    | none => exact whole.2 hsent
    | some payload => simpa using h.sent hsent

theorem whole_frames (sound : ∀ e ∈ entries, e.Sound) (whole : ∀ e ∈ entries, e.Whole) :
    entries.flatMap (·.taken) = (entries.filterMap Entry.received?).flatMap framed ∧
    entries.flatMap (·.put) = (entries.filterMap Entry.sent?).flatMap framed ∧
    ∀ payload ∈ entries.filterMap Entry.received?, payload.length ≤ Framing.maxLength := by
  induction entries with
  | nil => exact ⟨rfl, rfl, fun payload h => absurd h List.not_mem_nil⟩
  | cons e entries ih =>
    obtain ⟨htaken, hput, hfits⟩ := ih (fun e he => sound e (List.mem_cons_of_mem _ he))
      fun e he => whole e (List.mem_cons_of_mem _ he)
    obtain ⟨hfirst, hfirst', hfit⟩ :=
      (sound e List.mem_cons_self).whole (whole e List.mem_cons_self)
    refine ⟨?_, ?_, fun payload hpayload => ?_⟩
    · rw [List.flatMap_cons, hfirst, htaken, ← List.flatMap_append, List.filterMap_cons]
      cases e.received? <;> rfl
    · rw [List.flatMap_cons, hfirst', hput, ← List.flatMap_append, List.filterMap_cons]
      cases e.sent? <;> rfl
    · obtain ⟨e', he', hsome⟩ := List.mem_filterMap.1 hpayload
      rcases List.mem_cons.1 he' with rfl | hrest
      · exact hfit payload hsome
      · exact hfits payload (List.mem_filterMap.2 ⟨e', hrest, hsome⟩)

/-- Only what is to be written is sent. -/
theorem sent_of_steps (h : Books w steps entries) {payload : Bytes}
    (sent : payload ∈ entries.filterMap Entry.sent?) : .write payload ∈ steps := by
  obtain ⟨e, he, hsome⟩ := List.mem_filterMap.1 sent
  rw [← h.order, List.mem_map]
  refine ⟨e, he, ?_⟩
  rw [Entry.sent?] at hsome
  split at hsome
  · next p hstep _ =>
    rw [hstep, Option.some.inj hsome]
  · cases hsome

/-- **Framed reading and writing keep books, and are in sync while nothing is lost.** For any
limits, any pauses of what comes in and goes out, and any steps: what each step has moved
follows on what the one before it has moved, and fits its answer. A read that succeeds takes
just one frame, and one that fails, in time or not, takes a part of one, which nobody gets; a
write that succeeds puts just its frame, and one that fails a part of it short of the end. What
was put leaves the stream in that order, and where nobody takes by a plan, the far end gets just
that, with what a failed write has put, or it waits there.

So as long as no operation that failed has moved a byte, what was received is the first of the
frames that come in, in their order, and a reader at the far end gets just what was sent with
success, of what was collected there and what still waits. -/
theorem timed_frames (w : World) (idle : w.stage.operation = .idle) (steps : List Step) :
    ∃ entries, Books w steps entries ∧
      (w.stage.takes = [] → w.stage.outbound.buffer ++ entries.flatMap (·.put) =
        entries.flatMap Entry.got ++ (w.after steps).stage.outbound.buffer) ∧
      ((∀ e ∈ entries, e.Whole) →
        (∀ (payloads : List Bytes) (tail : Bytes),
          (∀ p ∈ payloads, p.length ≤ Framing.maxLength) → first? tail = none →
          w.coming ++ w.bringing steps = payloads.flatMap framed ++ tail →
          entries.filterMap Entry.received? <+: payloads) ∧
        ((∀ payload, .write payload ∈ steps → payload.length ≤ Framing.maxLength) →
          FrameReader.start.answers (entries.flatMap (·.put)) =
            (.start, (entries.filterMap Entry.sent?).map .ok) ∧
          (w.stage.outbound.buffer = [] → w.stage.takes = [] →
            FrameReader.start.answers
                (entries.flatMap Entry.got ++ (w.after steps).stage.outbound.buffer) =
              (.start, (entries.filterMap Entry.sent?).map .ok)))) := by
  obtain ⟨entries, hbooks⟩ := books w idle steps
  refine ⟨entries, hbooks, hbooks.collected, fun whole => ?_⟩
  obtain ⟨htaken, hput, hfits⟩ := whole_frames hbooks.sound whole
  constructor
  · intro payloads tail hpayloads unfinished hstream
    have hframes : (entries.filterMap Entry.received?).flatMap framed ++ (w.after steps).coming =
        payloads.flatMap framed ++ tail := by
      rw [← hstream, hbooks.inbound, htaken]
    exact Framing.prefix_of_frames hfits hpayloads unfinished hframes
  · intro fits
    have hsent : ∀ p ∈ entries.filterMap Entry.sent?, p.length ≤ Framing.maxLength :=
      fun p hp => fits p (sent_of_steps hbooks hp)
    have hanswers : FrameReader.start.answers (entries.flatMap (·.put)) =
        (.start, (entries.filterMap Entry.sent?).map .ok) := by
      have hread := FrameReader.answers_fits hsent []
      rw [List.append_nil] at hread
      rw [hput, hread]
      exact Prod.ext rfl (List.append_nil _)
    refine ⟨hanswers, fun empty alone => ?_⟩
    rw [← hbooks.collected alone, empty]
    exact hanswers

/-- A frame that comes in two parts, which are too far from each other for the first read. -/
def slowFrame : List Step :=
  [.feed [.bytes [0, 0, 0, 5], .wait (.ofMillis 15), .bytes [0, 0, 0, 1, 7]], .read, .read]

/-- A read that is over before anything has come in, and then a frame each way. -/
def earlyRead : List Step :=
  [.read, .feed [.bytes [0, 0, 0, 1, 7]], .read, .write [9], .collect]

/-- As many bytes as were received and sent are all that were moved, so nothing was lost. -/
theorem early_whole (h : Books (.start 65536 none (some (.ofMillis 10))) earlyRead entries)
    (answers : entries.map (·.answer) = [.error (.link (.timeout .receive (.ofMillis 10))),
      .nothing, .payload [7], .word "ok", .bytes [0, 0, 0, 1, 9]]) :
    ∀ e ∈ entries, e.Whole := by
  have hcoming : entries.flatMap (·.taken) = [0, 0, 0, 1, 7] := by
    have hinbound := h.inbound
    have hleft : (World.after (.start 65536 none (some (.ofMillis 10))) earlyRead).coming = [] := by
      cbv
    rw [hleft, List.append_nil] at hinbound
    rw [← hinbound]
    cbv
  have hgoing : (entries.flatMap (·.put)).length = (entries.flatMap Entry.got).length := by
    have hcollected := congrArg List.length (h.collected rfl)
    have hleft : (World.after (.start 65536 none (some (.ofMillis 10)))
        earlyRead).stage.outbound.buffer = [] := by cbv
    rw [hleft, List.append_nil] at hcollected
    exact hcollected
  have horder := h.order
  have hsound := h.sound
  obtain ⟨e₁, rest, rfl, h₁, hrest⟩ := List.map_eq_cons_iff.1 horder
  obtain ⟨e₂, rest, rfl, h₂, hrest⟩ := List.map_eq_cons_iff.1 hrest
  obtain ⟨e₃, rest, rfl, h₃, hrest⟩ := List.map_eq_cons_iff.1 hrest
  obtain ⟨e₄, rest, rfl, h₄, hrest⟩ := List.map_eq_cons_iff.1 hrest
  obtain ⟨e₅, rest, rfl, h₅, hrest⟩ := List.map_eq_cons_iff.1 hrest
  obtain rfl := List.map_eq_nil_iff.1 hrest
  simp only [List.map_cons, List.map_nil, List.cons.injEq, and_true] at answers
  obtain ⟨ha₁, ha₂, ha₃, ha₄, ha₅⟩ := answers
  have hread : e₃.taken = framed [7] :=
    ((hsound e₃ (by simp)).received (by simp [Entry.received?, h₃, ha₃])).1
  have hwritten : e₄.put = framed [9] :=
    (hsound e₄ (by simp)).sent (by simp [Entry.sent?, h₄, ha₄])
  have htaken : e₁.taken = [] ∧ e₂.taken = [] ∧ e₄.taken = [] ∧ e₅.taken = [] := by
    have hlength := congrArg List.length hcoming
    simp only [List.flatMap_cons, List.length_append, hread, FrameReader.length_framed,
      List.length_cons] at hlength
    simp only [← List.length_eq_zero_iff]
    omega
  have hput : e₁.put = [] ∧ e₂.put = [] ∧ e₃.put = [] ∧ e₅.put = [] := by
    simp only [List.flatMap_cons, List.flatMap_nil, List.length_append, hwritten,
      FrameReader.length_framed, Entry.got, h₁, h₂, h₃, h₄, h₅, ha₅, List.length_cons,
      List.length_nil] at hgoing
    simp only [← List.length_eq_zero_iff]
    omega
  have hreceived : e₃.received? ≠ none := by simp [Entry.received?, h₃, ha₃]
  have hsent : e₄.sent? ≠ none := by simp [Entry.sent?, h₄, ha₄]
  simp only [List.forall_mem_cons, List.not_mem_nil, false_imp_iff, implies_true, and_true,
    Entry.Whole, htaken, hput, hreceived, hsent]

theorem timed_frames_of_slow :
    (World.start 65536 none (some (.ofMillis 10))).stage.operation = .idle ∧
    (∃ entries, Books (World.start 65536 none (some (.ofMillis 10))) slowFrame entries) ∧
    ∃ entries, Books (World.start 65536 none (some (.ofMillis 10))) earlyRead entries ∧
      entries.map (·.answer) = [.error (.link (.timeout .receive (.ofMillis 10))), .nothing,
        .payload [7], .word "ok", .bytes [0, 0, 0, 1, 9]] ∧
      (∀ e ∈ entries, e.Whole) ∧
      entries.filterMap Entry.received? <+: [[7]] ∧
      FrameReader.start.answers (entries.flatMap Entry.got) =
        (.start, (entries.filterMap Entry.sent?).map .ok) := by
  obtain ⟨slow, hslow, -⟩ :=
    timed_frames (World.start 65536 none (some (.ofMillis 10))) rfl slowFrame
  obtain ⟨entries, hbooks, hcollected, hwhole⟩ :=
    timed_frames (World.start 65536 none (some (.ofMillis 10))) rfl earlyRead
  have hanswers : entries.map (·.answer) = [.error (.link (.timeout .receive (.ofMillis 10))),
      .nothing, .payload [7], .word "ok", .bytes [0, 0, 0, 1, 9]] :=
    hbooks.answers.trans (by cbv)
  have hall := early_whole hbooks hanswers
  obtain ⟨hinbound, hfar⟩ := hwhole hall
  have hleft : (World.after (.start 65536 none (some (.ofMillis 10)))
      earlyRead).stage.outbound.buffer = [] := by cbv
  have hfits : ∀ payload, .write payload ∈ earlyRead → payload.length ≤ Framing.maxLength := by
    simp [earlyRead, Framing.maxLength]
  refine ⟨rfl, ⟨slow, hslow⟩, entries, hbooks, hanswers, hall, ?_, ?_⟩
  · exact hinbound [[7]] [] (by simp [Framing.maxLength]) rfl (by cbv)
  · have hread := (hfar hfits).2 rfl rfl
    rwa [hleft, List.append_nil] at hread

/-- The only frame that comes in is lost with the read that was too early, and the next one
takes a part of its payload for a frame. -/
theorem slow_frame_is_lost :
    (World.start 65536 none (some (.ofMillis 10))).coming ++
        (World.start 65536 none (some (.ofMillis 10))).bringing slowFrame =
      framed [0, 0, 0, 1, 7] ∧
    (run (World.start 65536 none (some (.ofMillis 10))) slowFrame).map (·.answer) =
      [.nothing, .error (.link (.timeout .receive (.ofMillis 10))), .payload [7]] :=
  ⟨by cbv, by cbv⟩

/-- A frame that is cut off within its payload, and the next one, which is written whole: the
far end will take bytes of both for one. -/
example :
    (run (World.start 5 (some (.ofMillis 10)) none)
      [.write [1, 2, 3], .collect, .write [9], .collect]).map (·.answer) =
      [.error (.link (.timeout .send (.ofMillis 10))), .bytes [0, 0, 0, 3, 1], .word "ok",
        .bytes [0, 0, 0, 1, 9]] ∧
    FrameReader.start.answers ([0, 0, 0, 3, 1] ++ [0, 0, 0, 1, 9]) =
      (.length [9, 1, 0], [.ok [1, 0, 0]]) := by
  constructor <;> cbv

end Framing

end Scenario

end RpcClient
