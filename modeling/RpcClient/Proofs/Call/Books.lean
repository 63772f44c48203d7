/-
The table, the timers and the books of a run agree. Of the calls that were
registered, just those wait whose outcome is not decided, in the order of their
registration, each with its own timer (`Recorded`); and each call that was
registered either waits or was counted once, by the operation that ended it
(`Clocked.Agrees`). Every operation keeps both, so they hold after every run
(`books_balance`).
-/
import RpcClient.Call.Books
import RpcClient.Proofs.Call.Outcome

namespace RpcClient.CallTable

variable {t : CallTable} {log : List Entry}

/-! ## What the log says of the table -/

/-- How a log of registered calls stands to the table. -/
structure Recorded (t : CallTable) (log : List Entry) : Prop where
  issued : ∀ e ∈ log, e.call.ticket < t.issued
  pending : t.pending = (t.undecided log).map (·.call)
  timers : t.timers = (t.undecided log).map Entry.timer

theorem Recorded.start (usualTimeout : Duration) : Recorded { usualTimeout } [] := by
  constructor <;> simp [undecided]

theorem Recorded.queue (h : Recorded t log) (queue : Option (List Frame)) :
    Recorded { t with queue } log := ⟨h.issued, h.pending, h.timers⟩

theorem mem_undecided {e : Entry} :
    e ∈ t.undecided log ↔ e ∈ log ∧ t.outcome? (.waiting e.call.ticket) = none := by
  rw [undecided, List.mem_filter, Option.isNone_iff_eq_none]

/-- Outcomes of other tickets decide no call of the log. -/
theorem undecided_congr {t' : CallTable}
    (same : ∀ e ∈ log, t'.outcome? (.waiting e.call.ticket) = t.outcome? (.waiting e.call.ticket)) :
    t'.undecided log = t.undecided log := by
  refine List.filter_congr fun e he => ?_
  rw [same e he]

theorem outcome?_cons (t : CallTable) (n m : Ticket) (outcome : Outcome Bytes) :
    ({ t with settled := (n, outcome) :: t.settled } : CallTable).outcome? (.waiting m) =
      if m = n then some outcome else t.outcome? (.waiting m) := by
  by_cases h : m = n
  · subst h
    simp [outcome?]
  · have hne : (m == n) = false := by simpa using h
    simp only [outcome?, List.lookup_cons, hne, if_neg h]

/-- The call that is registered is undecided, and nothing else changes. -/
theorem Recorded.enter (h : Recorded t log) (coherent : Coherent t) (now : Nat)
    (request : Request Bytes) (id : UInt32) (frames : List Frame) :
    Recorded (t.enter now request id frames)
      (log ++ [⟨⟨id, t.issued, request.effectiveTimeout t.usualTimeout⟩, now⟩]) := by
  have hsame : (t.enter now request id frames).undecided log = t.undecided log :=
    undecided_congr fun e he => rfl
  have hfresh : t.outcome? (.waiting t.issued) = none := by
    cases ho : t.outcome? (.waiting t.issued) with
    | none => rfl
    | some outcome =>
      have hmem := List.mem_map_of_mem (f := (·.1)) (coherent.outcome?_waiting.1 ho)
      exact absurd (coherent.issued t.issued (List.mem_append_right _ hmem)) (Nat.lt_irrefl _)
  have hnew : (t.enter now request id frames).undecided
      (log ++ [⟨⟨id, t.issued, request.effectiveTimeout t.usualTimeout⟩, now⟩]) =
      t.undecided log ++ [⟨⟨id, t.issued, request.effectiveTimeout t.usualTimeout⟩, now⟩] := by
    have hone : (t.enter now request id frames).outcome? (.waiting t.issued) = none := hfresh
    rw [undecided, List.filter_append, ← undecided, hsame]
    simp [hone]
  constructor
  · intro e he
    simp only [CallTable.enter]
    rcases List.mem_append.1 he with hold | hlast
    · exact Nat.lt_succ_of_lt (h.issued e hold)
    · rw [List.mem_singleton.1 hlast]
      exact Nat.lt_succ_self _
  · rw [hnew, List.map_append, ← h.pending]
    rfl
  · rw [hnew, List.map_append, ← h.timers]
    rfl

/-- A call that fails for want of a queue is not in the log. -/
theorem Recorded.refuse (h : Recorded t log) (id : UInt32) : Recorded (t.refuse id) log := by
  have hsame : (t.refuse id).undecided log = t.undecided log := by
    refine undecided_congr fun e he => ?_
    have hne : e.call.ticket ≠ t.issued := Nat.ne_of_lt (h.issued e he)
    exact (t.outcome?_cons _ _ _).trans (if_neg hne)
  refine ⟨fun e he => Nat.lt_succ_of_lt (h.issued e he), ?_, ?_⟩
  · rw [hsame]
    exact h.pending
  · rw [hsame]
    exact h.timers

/-- The call that ends is decided, and no other. -/
theorem Recorded.leave (h : Recorded t log) (coherent : Coherent t) {call : PendingCall}
    (hcall : call ∈ t.pending) (outcome : Outcome Bytes) :
    Recorded (t.leave call outcome) log := by
  -- Of the undecided calls, the one with the ticket is the one with the number.
  have hsame : ∀ e ∈ t.undecided log, (e.call.id != call.id) = (e.call.ticket != call.ticket) := by
    intro e he
    have hmem : e.call ∈ t.pending := by
      rw [h.pending]
      exact List.mem_map_of_mem he
    have htickets := (List.nodup_append.1 coherent.tickets).1
    by_cases heq : e.call = call
    · simp [heq]
    · have hid : e.call.id ≠ call.id := fun hid =>
        heq (List.inj_on_of_nodup_map coherent.ids hmem hcall hid)
      have hticket : e.call.ticket ≠ call.ticket := fun hticket =>
        heq (List.inj_on_of_nodup_map htickets hmem hcall hticket)
      rw [bne_iff_ne.2 hid, bne_iff_ne.2 hticket]
  have hleft : (t.leave call outcome).undecided log =
      (t.undecided log).filter (·.call.id != call.id) := by
    rw [List.filter_congr hsame, undecided, undecided, List.filter_filter]
    refine List.filter_congr fun e _ => ?_
    have ho : (t.leave call outcome).outcome? (.waiting e.call.ticket) =
        if e.call.ticket = call.ticket then some outcome
        else t.outcome? (.waiting e.call.ticket) := t.outcome?_cons _ _ _
    rw [ho]
    by_cases hticket : e.call.ticket = call.ticket <;> simp [hticket]
  constructor
  · exact h.issued
  · rw [hleft]
    simp only [CallTable.leave]
    rw [h.pending, List.filter_map]
    rfl
  · rw [hleft]
    simp only [CallTable.leave]
    rw [h.timers, List.filter_map]
    rfl

/-- All calls that wait are decided at once. -/
theorem Recorded.endAll (h : Recorded t log) (coherent : Coherent t) (outcome : Outcome Bytes)
    (closed : Option Error) : Recorded { t.endAll outcome with closed } log := by
  have hcoherent : Coherent { t.endAll outcome with closed } := coherent.endAll outcome closed
  have hnone : ({ t.endAll outcome with closed } : CallTable).undecided log = [] := by
    rw [List.eq_nil_iff_forall_not_mem]
    intro e he
    obtain ⟨hlog, hafter⟩ := mem_undecided.1 he
    cases hbefore : t.outcome? (.waiting e.call.ticket) with
    | none =>
      have hcall : e.call ∈ t.pending := by
        rw [h.pending]
        exact List.mem_map_of_mem (mem_undecided.2 ⟨hlog, hbefore⟩)
      have hsettled : (e.call.ticket, outcome) ∈ (t.endAll outcome).settled := by
        simp only [CallTable.endAll, List.mem_append, List.mem_reverse, List.mem_map]
        exact .inl ⟨e.call, hcall, rfl⟩
      cases hafter.symm.trans (hcoherent.outcome?_waiting.2 hsettled)
    | some first =>
      have hsettled : (e.call.ticket, first) ∈ (t.endAll outcome).settled :=
        List.mem_append_right _ (coherent.outcome?_waiting.1 hbefore)
      cases hafter.symm.trans (hcoherent.outcome?_waiting.2 hsettled)
  constructor
  · exact h.issued
  · rw [hnone]
    rfl
  · rw [hnone]
    exact coherent.endAll_timers outcome

theorem Recorded.complete (h : Recorded t log) (coherent : Coherent t) (id : UInt32)
    (outcome : PendingCall → Outcome Bytes) : Recorded (t.complete id outcome).1 log := by
  rcases complete_cases id outcome coherent.ids with ⟨_, he⟩ | ⟨call, hcall, _, he⟩ <;> rw [he]
  · exact h
  · exact h.leave coherent hcall _

theorem Recorded.expireEach (h : Recorded t log) (coherent : Coherent t) (timers : List Timer) :
    Recorded (t.expireEach timers) log := by
  induction timers generalizing t with
  | nil => exact h
  | cons timer timers ih =>
    have hstep : Step t (t.expire timer.id).1 := .complete timer.id _
    exact ih (h.complete coherent timer.id _) (coherent.step hstep)

/-! ## What is counted -/

/-- A call ends for each time that an operation says so. -/
theorem complete_count (ids : (t.pending.map (·.id)).Nodup) (id : UInt32)
    (outcome : PendingCall → Outcome Bytes) :
    (t.complete id outcome).1.pending.length + (t.complete id outcome).2.toNat =
      t.pending.length := by
  rcases complete_cases id outcome ids with ⟨_, he⟩ | ⟨call, hcall, _, he⟩ <;> rw [he]
  · rfl
  · rw [(perm_cons_filter ids hcall).length_eq]
    rfl

theorem expireEach_count (coherent : Coherent t) (timers : List Timer) :
    (t.expireEach timers).pending.length + t.expirations timers = t.pending.length := by
  induction timers generalizing t with
  | nil => rfl
  | cons timer timers ih =>
    have hstep : Step t (t.expire timer.id).1 := .complete timer.id _
    have hfirst := complete_count coherent.ids timer.id
      fun call => .error (.requestTimeout timer.id call.timeout)
    have hrest := ih (coherent.step hstep)
    simp only [CallTable.expireEach, List.foldl_cons, expirations] at hrest ⊢
    rw [← CallTable.expire] at hfirst
    omega

/-! ## A call that is made -/

namespace Clocked

/-- What making a call does to the table, by whether it is registered. -/
theorem expect_of_entryOf? {s : Clocked} (alive : s.discarded = false) (request : Request Bytes) :
    match s.entryOf? request with
    | some e => ∃ frames, s.table.queue = some frames ∧
        e = ⟨⟨e.call.id, s.table.issued, request.effectiveTimeout s.table.usualTimeout⟩, s.now⟩ ∧
        s.table.isPending e.call.id = false ∧
        s.table.expect s.now request =
          (s.table.enter s.now request e.call.id frames, .waiting s.table.issued)
    | none =>
        (∃ cause, s.table.closed = some cause ∧
          s.table.expect s.now request = (s.table, .failed (.network cause))) ∨
        (UInt32.size ≤ s.table.pendingCount ∧
          s.table.expect s.now request = (s.table, .searching)) ∨
        ∃ id, s.table.closed = none ∧ s.table.queue = none ∧
          s.table.expect s.now request = (s.table.refuse id, .waiting s.table.issued) := by
  rcases s.table.expect_cases s.now request with ⟨cause, hclosed, he⟩ | ⟨hopen, hfree, he⟩ |
    ⟨id, hopen, hfree, hqueue, he⟩ | ⟨id, frames, hopen, hfree, hqueue, he⟩
  · have hentry : s.entryOf? request = none := by simp [entryOf?, registers, isClosed, hclosed]
    rw [hentry]
    exact .inl ⟨cause, hclosed, he⟩
  · have hentry : s.entryOf? request = none := by simp [entryOf?, registers, hfree]
    rw [hentry]
    exact .inr (.inl ⟨freeId?_eq_none hfree, he⟩)
  · have hentry : s.entryOf? request = none := by simp [entryOf?, registers, hqueue]
    rw [hentry]
    exact .inr (.inr ⟨id, hopen, hqueue, he⟩)
  · have hentry : s.entryOf? request =
        some ⟨⟨id, s.table.issued, request.effectiveTimeout s.table.usualTimeout⟩, s.now⟩ := by
      simp [entryOf?, registers, isClosed, alive, hopen, hfree, hqueue]
    rw [hentry]
    exact ⟨frames, hqueue, rfl, freeId?_free hfree, he⟩

/-- A call that is not registered changes nothing that concerns other calls. -/
theorem expect_of_not_entered {s : Clocked} (alive : s.discarded = false)
    {request : Request Bytes} (h : s.entryOf? request = none) :
    let t := (s.table.expect s.now request).1
    t.pending = s.table.pending ∧ t.timers = s.table.timers ∧ t.closed = s.table.closed ∧
      t.queue = s.table.queue := by
  have hmade := expect_of_entryOf? alive request
  rw [h] at hmade
  rcases hmade with ⟨cause, -, he⟩ | ⟨-, he⟩ | ⟨id, -, -, he⟩ <;> rw [he]
  · exact ⟨rfl, rfl, rfl, rfl⟩
  · exact ⟨rfl, rfl, rfl, rfl⟩
  · exact ⟨rfl, rfl, rfl, rfl⟩

/-! ## A run -/

/-- How the log and the books of a run stand to the table. -/
structure Agrees (s : Clocked) (log : List Entry) (b : Books) : Prop where
  coherent : Coherent s.table
  recorded : s.table.Recorded log
  balance : log.length =
    s.table.pending.length + b.replies + b.failures + b.expired + b.failed + b.lost
  lost : s.discarded = false → b.lost = 0

variable {s : Clocked} {log : List Entry} {b : Books}

theorem Agrees.expect (h : Agrees s log b) (alive : s.discarded = false)
    (request : Request Bytes) :
    Agrees (s.handle (.expect request)) (log ++ s.entered (.expect request)) b := by
  have hcoherent := h.coherent.steps (s.handle_steps (.expect request))
  have htable : (s.handle (.expect request)).table = (s.table.expect s.now request).1 := by
    simp [handle, alive]
  have halive : (s.handle (.expect request)).discarded = false := by simp [handle, alive]
  have hmade := expect_of_entryOf? alive request
  have hrecorded := h.recorded
  have hbalance := h.balance
  simp only [entered]
  cases hentry : s.entryOf? request with
  | none =>
    rw [hentry] at hmade
    rw [Option.toList_none, List.append_nil]
    refine ⟨hcoherent, ?_, ?_, fun _ => h.lost alive⟩
    · rw [htable]
      rcases hmade with ⟨cause, -, he⟩ | ⟨-, he⟩ | ⟨id, -, -, he⟩ <;> rw [he]
      · exact hrecorded
      · exact hrecorded
      · exact hrecorded.refuse id
    · rw [htable, (expect_of_not_entered alive hentry).1]
      exact hbalance
  | some e =>
    rw [hentry] at hmade
    obtain ⟨frames, -, he, -, hexpect⟩ := hmade
    rw [Option.toList_some]
    refine ⟨hcoherent, ?_, ?_, fun _ => h.lost alive⟩
    · rw [htable, hexpect, he]
      exact hrecorded.enter h.coherent s.now request e.call.id frames
    · rw [htable, hexpect]
      simp only [enter, List.length_append, List.length_singleton]
      omega

/-- Every event keeps the table, the log and the books in agreement. -/
theorem Agrees.handle (h : Agrees s log b) (e : Event) :
    Agrees (s.handle e) (log ++ s.entered e) (s.book b e) := by
  have hcoherent := h.coherent.steps (s.handle_steps e)
  have hrecorded := h.recorded
  have hbalance := h.balance
  by_cases hgone : s.discarded = true
  · have hentered : s.entered e = [] := by
      cases e <;> simp [entered, entryOf?, registers, hgone]
    have hsame : s.handle e = s := by simp [Clocked.handle, hgone]
    simp only [hsame, hentered, List.append_nil, book, hgone, if_true]
    exact h
  have alive : s.discarded = false := by simpa using hgone
  have hlost := h.lost alive
  cases e with
  | expect request =>
    simp only [book, alive, Bool.false_eq_true, if_false]
    exact h.expect alive request
  | reply reply =>
    have hcount := complete_count h.coherent.ids reply.id fun _ => .ok (.ofReply reply)
    rw [← handleReply] at hcount
    simp only [entered, List.append_nil, book, Clocked.handle, alive, Bool.false_eq_true, if_false]
      at hcoherent ⊢
    refine ⟨hcoherent, hrecorded.complete h.coherent reply.id _, ?_, fun _ => hlost⟩
    dsimp only
    omega
  | failure report =>
    have hcount := complete_count h.coherent.ids report.id
      fun _ => .error (.remote report.kind report.message)
    rw [← handleFailure] at hcount
    simp only [entered, List.append_nil, book, Clocked.handle, alive, Bool.false_eq_true, if_false]
      at hcoherent ⊢
    refine ⟨hcoherent, hrecorded.complete h.coherent report.id _, ?_, fun _ => hlost⟩
    dsimp only
    omega
  | pass ms =>
    have hcount := expireEach_count h.coherent (s.table.timers.filter (·.due ≤ s.now + ms))
    rw [← expireDue_eq] at hcount
    simp only [entered, List.append_nil, book, Clocked.handle, alive, Bool.false_eq_true, if_false]
      at hcoherent ⊢
    refine ⟨hcoherent, hrecorded.expireEach h.coherent _, ?_, fun _ => hlost⟩
    dsimp only
    omega
  | failAll cause =>
    simp only [entered, List.append_nil, book, Clocked.handle, alive, Bool.false_eq_true, if_false]
      at hcoherent ⊢
    refine ⟨hcoherent, hrecorded.endAll h.coherent _ _, ?_, fun _ => hlost⟩
    simp only [failAll, endAll, pendingCount, List.length_nil]
    omega
  | takeFrames =>
    have hqueue : ∃ queue, s.table.takeFrames.1 = { s.table with queue } := by
      unfold CallTable.takeFrames
      split
      · exact ⟨_, rfl⟩
      · exact ⟨_, rfl⟩
    obtain ⟨queue, hqueue⟩ := hqueue
    simp only [entered, List.append_nil, book, Clocked.handle, alive, Bool.false_eq_true, if_false]
      at hcoherent ⊢
    rw [hqueue] at hcoherent ⊢
    exact ⟨hcoherent, hrecorded.queue queue, hbalance, fun _ => hlost⟩
  | dropQueue =>
    simp only [entered, List.append_nil, book, Clocked.handle, alive, Bool.false_eq_true, if_false]
      at hcoherent ⊢
    exact ⟨hcoherent, hrecorded.queue none, hbalance, fun _ => hlost⟩
  | dropHandle _ =>
    simp only [entered, List.append_nil, book, Clocked.handle, alive, Bool.false_eq_true, if_false]
    exact h
  | discard =>
    simp only [entered, List.append_nil, book, Clocked.handle, alive, Bool.false_eq_true, if_false]
      at hcoherent ⊢
    refine ⟨hcoherent, hrecorded.endAll h.coherent _ s.table.closed, ?_,
      fun hgone => by cases hgone⟩
    simp only [CallTable.discard, endAll, pendingCount, List.length_nil]
    omega

theorem Agrees.run (h : Agrees s log b) (events : List Event) :
    Agrees (s.run events) (log ++ s.log events) (s.books b events) := by
  induction events generalizing s log b with
  | nil => simpa [Clocked.run, Clocked.log, books] using h
  | cons e events ih =>
    have hrest := ih (h.handle e)
    rw [List.append_assoc] at hrest
    exact hrest

theorem Agrees.start (usualTimeout : Duration) : Agrees (.start usualTimeout) [] {} where
  coherent := .start usualTimeout
  recorded := .start usualTimeout
  balance := rfl
  lost _ := rfl

/-- The answer to a frame is whether its number is in the table. -/
theorem complete_answer (t : CallTable) (id : UInt32) (outcome : PendingCall → Outcome Bytes) :
    (t.complete id outcome).2 = t.isPending id ∧
      (t.isPending id = false → t.complete id outcome = (t, false)) := by
  refine ⟨?_, complete_of_not_pending⟩
  cases h : t.isPending id with
  | false => rw [complete_of_not_pending h]
  | true =>
    obtain ⟨call, hcall, hid⟩ := isPending_iff.1 h
    cases hfind : t.pending.find? (·.id == id) with
    | some found => simp [complete, hfind]
    | none =>
      rw [List.find?_eq_none] at hfind
      exact absurd (by simpa using hid) (hfind call hcall)

/-- **The books balance.** After any run, the calls in the table are just those
that were registered and have no outcome, in the order of their registration
and under numbers of their own. Each has one timer, set for when it will have
waited for its own time, and there are no other timers. Every call that was
registered waits or was counted once, where it ended. A call that is made next
is registered with its frame in the queue, or it fails, or every number is
taken; then table, timers and queue are as before. A frame whose number is not
in the table changes nothing, and its answer says so. -/
theorem books_balance (usualTimeout : Duration) (events : List Event) :
    let s := (start usualTimeout).run events
    let log := (start usualTimeout).log events
    let books := (start usualTimeout).books {} events
    s.table.pending = (s.table.undecided log).map (·.call) ∧
    (s.table.pending.map (·.id)).Nodup ∧
    s.table.timers = (s.table.undecided log).map Entry.timer ∧
    log.length = s.table.pendingCount + books.replies + books.failures + books.expired +
      books.failed + books.lost ∧
    (s.discarded = false → books.lost = 0) ∧
    (s.discarded = false → ∀ request,
      let made := s.table.expect s.now request
      match s.entryOf? request with
      | some e =>
        made.2 = .waiting e.call.ticket ∧ s.table.isPending e.call.id = false ∧
        e.call.timeout = request.effectiveTimeout usualTimeout ∧ e.time = s.now ∧
        made.1.queue =
          s.table.queue.map (· ++ [.callRequest (request.toCall e.call.id e.call.timeout)])
      | none =>
        made.1.pending = s.table.pending ∧ made.1.timers = s.table.timers ∧
        made.1.closed = s.table.closed ∧ made.1.queue = s.table.queue ∧
        (made.1.outcome? made.2 = some (.error (.network (s.table.closed.getD .linkClosed))) ∨
          made.2 = .searching ∧ UInt32.size ≤ s.table.pendingCount)) ∧
    (∀ reply, (s.table.handleReply reply).2 = s.table.isPending reply.id ∧
      (s.table.isPending reply.id = false → s.table.handleReply reply = (s.table, false))) ∧
    (∀ report, (s.table.handleFailure report).2 = s.table.isPending report.id ∧
      (s.table.isPending report.id = false →
        s.table.handleFailure report = (s.table, false))) := by
  intro s log books
  have agrees : Agrees s log books := (Agrees.start usualTimeout).run events
  have husual : s.table.usualTimeout = usualTimeout :=
    ((start usualTimeout).run_steps events).usualTimeout
  refine ⟨agrees.recorded.pending, agrees.coherent.ids, agrees.recorded.timers, agrees.balance,
    agrees.lost, fun alive request => ?_, fun reply => complete_answer _ _ _,
    fun report => complete_answer _ _ _⟩
  have hmade := expect_of_entryOf? alive request
  cases hentry : s.entryOf? request with
  | some e =>
    rw [hentry] at hmade
    obtain ⟨frames, hqueue, he, hfree, hexpect⟩ := hmade
    have hticket : e.call.ticket = s.table.issued := by rw [he]
    have htimeout : e.call.timeout = request.effectiveTimeout usualTimeout := by rw [he, husual]
    have htime : e.time = s.now := by rw [he]
    refine ⟨?_, hfree, htimeout, htime, ?_⟩
    · rw [hexpect, hticket]
    · rw [hexpect, hqueue, htimeout]
      simp [enter, husual]
  | none =>
    rw [hentry] at hmade
    obtain ⟨hpending, htimers, hclosed, hqueue⟩ := expect_of_not_entered alive hentry
    refine ⟨hpending, htimers, hclosed, hqueue, ?_⟩
    rcases hmade with ⟨cause, hcause, he⟩ | ⟨hmany, he⟩ | ⟨id, hopen, -, he⟩
    · left
      rw [he, hcause]
      rfl
    · right
      rw [he]
      exact ⟨rfl, hmany⟩
    · left
      rw [he, hopen]
      simp [refuse, outcome?]

end Clocked

end RpcClient.CallTable
