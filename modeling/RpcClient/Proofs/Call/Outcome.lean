/-
How a call ends. `verdict?` reads that off the events that come after the call
was registered, by the first of them that names its number, lets its deadline
pass or ends all calls; `outcome_eq_verdict` says that its handle yields
exactly that, whatever else happens to the table.

A call that `Waits` stands in the table with its timer. An event that means
its end puts the outcome by its ticket; any other leaves it waiting
(`Waits.handle`).
-/
import RpcClient.Proofs.Call.Coherent

namespace RpcClient.CallTable

theorem Step.usualTimeout {t t' : CallTable} (s : Step t t') :
    t'.usualTimeout = t.usualTimeout := by
  cases s with
  | expect now request =>
    rcases t.expect_cases now request with ⟨_, _, he⟩ | ⟨_, _, he⟩ | ⟨_, _, _, _, he⟩ |
      ⟨_, _, _, _, _, he⟩ <;> rw [he] <;> rfl
  | complete id outcome =>
    unfold CallTable.complete
    split <;> rfl
  | failAll cause => rfl
  | discard => rfl
  | queue queue => rfl

theorem Steps.usualTimeout {t t' : CallTable} (s : Steps t t') : t'.usualTimeout = t.usualTimeout :=
  s.keeps (P := (·.usualTimeout = t.usualTimeout)) (fun h last => last.usualTimeout.trans h) rfl

/-! ## A call that waits -/

/-- A call stands in the table, and so does its timer. -/
structure Waits (t : CallTable) (call : PendingCall) (due : Nat) : Prop where
  pending : call ∈ t.pending
  timer : ⟨call.id, due⟩ ∈ t.timers

variable {t : CallTable} {call : PendingCall} {due : Nat}

/-- A call has no other timer. -/
theorem Waits.due_eq (w : Waits t call due) (h : Coherent t) {timer : Timer}
    (htimer : timer ∈ t.timers) (hid : timer.id = call.id) : timer.due = due := by
  have ids : (t.timers.map (·.id)).Nodup := h.timers ▸ h.ids
  rw [List.inj_on_of_nodup_map ids htimer w.timer hid]

theorem Waits.enter (w : Waits t call due) (now : Nat) (request : Request Bytes) (id : UInt32)
    (frames : List Frame) : Waits (t.enter now request id frames) call due :=
  ⟨List.mem_append_left _ w.pending, List.mem_append_left _ w.timer⟩

/-- The end of another call. -/
theorem Waits.leave (w : Waits t call due) {other : PendingCall} (hne : call.id ≠ other.id)
    (outcome : Outcome Bytes) : Waits (t.leave other outcome) call due :=
  ⟨List.mem_filter.2 ⟨w.pending, by simpa using hne⟩,
    List.mem_filter.2 ⟨w.timer, by simpa using hne⟩⟩

theorem Waits.expect (w : Waits t call due) (now : Nat) (request : Request Bytes) :
    Waits (t.expect now request).1 call due := by
  rcases t.expect_cases now request with ⟨_, _, he⟩ | ⟨_, _, he⟩ | ⟨_, _, _, _, he⟩ |
    ⟨_, _, _, _, _, he⟩ <;> rw [he]
  · exact w
  · exact w
  · exact ⟨w.pending, w.timer⟩
  · exact w.enter now request _ _

/-- Under its number the call itself ends, and under any other it goes on
waiting. -/
theorem Waits.complete (w : Waits t call due) (h : Coherent t) (id : UInt32)
    (outcome : PendingCall → Outcome Bytes) :
    if id = call.id then (call.ticket, outcome call) ∈ (t.complete id outcome).1.settled
    else Waits (t.complete id outcome).1 call due := by
  split
  · next hid =>
    rw [hid, complete_of_mem h.ids w.pending]
    exact List.mem_cons_self
  · next hid =>
    rcases complete_cases id outcome h.ids with ⟨_, he⟩ | ⟨other, _, rfl, he⟩ <;> rw [he]
    · exact w
    · exact w.leave (fun heq => hid heq.symm) _

theorem Waits.endAll (w : Waits t call due) (outcome : Outcome Bytes) :
    (call.ticket, outcome) ∈ (t.endAll outcome).settled := by
  simp only [CallTable.endAll, List.mem_append, List.mem_reverse, List.mem_map]
  exact .inl ⟨call, w.pending, rfl⟩

/-! ## Timers -/

/-- Lets the timers in a list go off, whenever they are due. -/
def expireEach (t : CallTable) (timers : List Timer) : CallTable :=
  timers.foldl (fun t timer => (t.expire timer.id).1) t

theorem expireDue_eq (t : CallTable) (now : Nat) :
    t.expireDue now = t.expireEach (t.timers.filter (·.due ≤ now)) := rfl

theorem Steps.expireEach (t : CallTable) (timers : List Timer) : Steps t (t.expireEach timers) := by
  induction timers generalizing t with
  | nil => exact .refl
  | cons timer timers ih => exact .head (.complete timer.id _) (ih _)

theorem Waits.expireEach (w : Waits t call due) (h : Coherent t) (timers : List Timer) :
    if ∃ timer ∈ timers, timer.id = call.id then
      (call.ticket, .error (.requestTimeout call.id call.timeout)) ∈ (t.expireEach timers).settled
    else Waits (t.expireEach timers) call due := by
  induction timers generalizing t with
  | nil => simpa [CallTable.expireEach] using w
  | cons timer timers ih =>
    have hstep : Step t (t.expire timer.id).1 := .complete timer.id _
    have hfirst := w.complete h timer.id fun call => .error (.requestTimeout timer.id call.timeout)
    simp only [List.exists_mem_cons_iff]
    by_cases hid : timer.id = call.id
    · rw [if_pos hid] at hfirst
      rw [if_pos (.inl hid), ← hid]
      exact (Steps.expireEach _ timers).settled_suffix.subset hfirst
    · rw [if_neg hid] at hfirst
      simp only [hid, false_or]
      exact ih hfirst (h.step hstep)

theorem Waits.expireDue (w : Waits t call due) (h : Coherent t) (now : Nat) :
    if due ≤ now then
      (call.ticket, .error (.requestTimeout call.id call.timeout)) ∈ (t.expireDue now).settled
    else Waits (t.expireDue now) call due := by
  have hiff : (∃ timer ∈ t.timers.filter (·.due ≤ now), timer.id = call.id) ↔ due ≤ now := by
    constructor
    · rintro ⟨timer, htimer, hid⟩
      obtain ⟨hmem, hdue⟩ := List.mem_filter.1 htimer
      rw [← w.due_eq h hmem hid]
      simpa using hdue
    · intro hdue
      exact ⟨_, List.mem_filter.2 ⟨w.timer, by simpa using hdue⟩, rfl⟩
  have hall := w.expireEach h (t.timers.filter (·.due ≤ now))
  rw [expireDue_eq]
  simpa only [hiff] using hall

/-! ## Events -/

theorem Clocked.handle_now {s : Clocked} (alive : s.discarded = false) (e : Event) :
    (s.handle e).now = e.after s.now := by
  cases e <;> simp [handle, alive, Event.after]

/-- An event that means the end of a call ends it so, and any other leaves it
waiting. -/
theorem Waits.handle {s : Clocked} (w : Waits s.table call due) (h : Coherent s.table)
    (alive : s.discarded = false) (e : Event) :
    match e.verdict? call.id call.timeout due s.now with
    | some outcome => (call.ticket, outcome) ∈ (s.handle e).table.settled
    | none => Waits (s.handle e).table call due ∧ (s.handle e).discarded = false := by
  cases e with
  | expect request => simpa [Clocked.handle, alive, Event.verdict?] using w.expect s.now request
  | reply reply =>
    have hcomplete := w.complete h reply.id fun _ => .ok (.ofReply reply)
    simp only [Event.verdict?, Clocked.handle, alive, handleReply]
    split at hcomplete <;> simp_all
  | failure report =>
    have hcomplete := w.complete h report.id fun _ => .error (.remote report.kind report.message)
    simp only [Event.verdict?, Clocked.handle, alive, handleFailure]
    split at hcomplete <;> simp_all
  | pass ms =>
    have hexpire := w.expireDue h (s.now + ms)
    by_cases hdue : due ≤ s.now + ms
    · simpa [Event.verdict?, Clocked.handle, alive, hdue] using hexpire
    · simpa [Event.verdict?, Clocked.handle, alive, hdue] using hexpire
  | failAll cause =>
    simpa [Clocked.handle, alive, Event.verdict?, failAll] using w.endAll (.error (.network cause))
  | takeFrames =>
    have hkeep : Waits s.table.takeFrames.1 call due := by
      unfold takeFrames
      split
      · exact w
      · exact ⟨w.pending, w.timer⟩
    simpa [Clocked.handle, alive, Event.verdict?] using hkeep
  | dropQueue =>
    have hkeep : Waits s.table.dropQueue call due := ⟨w.pending, w.timer⟩
    simpa [Clocked.handle, alive, Event.verdict?] using hkeep
  | dropHandle _ => simpa [Clocked.handle, alive, Event.verdict?] using w
  | discard =>
    simpa [Clocked.handle, alive, Event.verdict?, discard] using
      w.endAll (.error (.network .linkClosed))

/-- From a state in which a call waits, a run ends it as `verdict?` says. -/
theorem Waits.outcome?_run {s : Clocked} (w : Waits s.table call due) (h : Coherent s.table)
    (alive : s.discarded = false) (events : List Event) :
    (s.run events).table.outcome? (.waiting call.ticket) =
      verdict? call.id call.timeout due s.now events := by
  -- On the events, while the call waits; once it has ended, nothing after that counts.
  induction events generalizing s with
  | nil => exact h.outcome?_pending w.pending
  | cons e events ih =>
    have hcoherent : Coherent (s.handle e).table := h.steps (s.handle_steps e)
    have hstep := w.handle h alive e
    simp only [verdict?]
    cases hverdict : e.verdict? call.id call.timeout due s.now with
    | some outcome =>
      rw [hverdict] at hstep
      exact ((s.handle e).run_steps events).outcome?_eq hcoherent
        (hcoherent.outcome?_waiting.2 hstep)
    | none =>
      rw [hverdict] at hstep
      rw [Option.none_or, ← Clocked.handle_now alive e]
      exact ih hstep.1 hcoherent hstep.2

/-- **How a call ends.** After any run, a request is registered under a number
that no waiting call has, and its frame is queued under that number. Whatever
then happens, its handle yields what the first of the later events decides
that names the number, lets the deadline pass or ends all calls. No handle is
given two outcomes. -/
theorem outcome_eq_verdict (usualTimeout : Duration) (before : List Event)
    (request : Request Bytes)
    (registered : ((Clocked.start usualTimeout).run before).registers (.expect request) = true) :
    let s := (Clocked.start usualTimeout).run before
    let timeout := request.effectiveTimeout usualTimeout
    ∃ id, s.table.freeId? = some id ∧ s.table.isPending id = false ∧
      (s.handle (.expect request)).table.queue =
        s.table.queue.map (· ++ [.callRequest (request.toCall id timeout)]) ∧
      ∀ after : List Event,
        ((s.handle (.expect request)).run after).table.outcome?
            (s.table.expect s.now request).2 =
          verdict? id timeout (timeout.after s.now) s.now after ∧
        (((s.handle (.expect request)).run after).table.settled.map (·.1)).Nodup := by
  intro s timeout
  have reach : Clocked.Reachable usualTimeout s := Clocked.Reachable.start.run before
  have husual : s.table.usualTimeout = usualTimeout :=
    ((Clocked.start usualTimeout).run_steps before).usualTimeout
  have hregisters : s.registers (.expect request) = true := registered
  simp only [Clocked.registers, Bool.and_eq_true, Bool.not_eq_true', isClosed,
    Option.isSome_eq_false_iff, Option.isNone_iff_eq_none, Option.isSome_iff_exists] at hregisters
  obtain ⟨⟨⟨alive, hopen⟩, id, hfree⟩, frames, hqueue⟩ := hregisters
  have hexpect : s.table.expect s.now request =
      (s.table.enter s.now request id frames, .waiting s.table.issued) := by
    simp [expect, hopen, hfree, hqueue, enter]
  have htable : (s.handle (.expect request)).table = s.table.enter s.now request id frames := by
    simp [Clocked.handle, alive, hexpect]
  have hreach := reach.handle (.expect request)
  have hnow : (s.handle (.expect request)).now = s.now := Clocked.handle_now alive _
  have halive : (s.handle (.expect request)).discarded = false := by
    simp [Clocked.handle, alive]
  have hwaits : Waits (s.handle (.expect request)).table ⟨id, s.table.issued, timeout⟩
      (timeout.after s.now) := by
    rw [htable]
    constructor <;> simp [enter, husual, timeout]
  refine ⟨id, hfree, freeId?_free hfree, ?_, fun after => ⟨?_, ?_⟩⟩
  · rw [htable, hqueue]
    simp [enter, husual, timeout]
  · have hrun := hwaits.outcome?_run hreach.coherent halive after
    rw [hnow] at hrun
    rw [hexpect]
    exact hrun
  · exact (List.nodup_append.1 (hreach.run after).coherent.tickets).2.1

/-- The second of two calls runs out of time before its reply comes; the reply
to the first one makes no difference. -/
theorem outcome_of_late_reply :
    let request : Request Bytes := { service := "ledger", endpoint := "balance", body := [] }
    let reply (id : UInt32) : Reply := { id, headers := ∅, transportHeaders := ∅, body := [7] }
    let s := (Clocked.start (.ofMillis 20)).run [.expect request]
    s.registers (.expect request) = true ∧
    ((s.handle (.expect request)).run [.reply (reply 1), .pass 20, .reply (reply 2)]).table.outcome?
      (s.table.expect s.now request).2 = some (.error (.requestTimeout 2 (.ofMillis 20))) := by
  intro request reply s
  have hregisters : s.registers (.expect request) = true := by decide
  refine ⟨hregisters, ?_⟩
  obtain ⟨id, hfree, -, -, hends⟩ :=
    outcome_eq_verdict (.ofMillis 20) [.expect request] request hregisters
  have hid : s.table.freeId? = some 2 := by decide
  obtain rfl : id = 2 := Option.some.inj (hfree.symm.trans hid)
  rw [(hends [.reply (reply 1), .pass 20, .reply (reply 2)]).1]
  decide

end RpcClient.CallTable
