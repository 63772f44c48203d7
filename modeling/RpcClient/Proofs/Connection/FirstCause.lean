/-
Of all the causes for which the calls of a table are failed, the first one counts.
A table is closed for the cause that the events name first (`Clocked.run_closed`),
and as a closed table is empty, there is nobody left whom a later cause could reach
(`ClosedFor.failAll`).

On a connection the driver of the stream and the owner fail all calls in any order.
`Blamed` ties what they tell the callers to the one cause that closed the table,
and that is a plain one: never an error that is itself about the network.
-/
import RpcClient.Proofs.Connection.LifeCycle

namespace RpcClient

/-- Whether a caller is told of a broken connection. -/
def Error.IsNetwork (error : Error) : Prop := ∃ cause, error = .network cause

theorem Error.not_isNetwork_link (error : LinkError) : ¬ (Error.link error).IsNetwork := by
  rintro ⟨cause, h⟩
  cases h

theorem Error.not_isNetwork_handshake (fault : HandshakeFault) :
    ¬ (Error.handshake fault).IsNetwork := by
  rintro ⟨cause, h⟩
  cases h

theorem Error.not_isNetwork_remote (kind : ErrorKind) (message : String) :
    ¬ (Error.remote kind message).IsNetwork := by
  rintro ⟨cause, h⟩
  cases h

/-- Of a cause that may have come before and a later one, neither about the
network, the one that is kept is not either. -/
theorem Error.plain_getD {earlier : Option Error} {later : Error}
    (h : ∀ cause, earlier = some cause → ¬ cause.IsNetwork) (plain : ¬ later.IsNetwork) :
    ¬ (earlier.getD later).IsNetwork := by
  cases earlier with
  | none => exact plain
  | some cause => exact h cause rfl

namespace CallTable

variable {t t' : CallTable} {cause : Error}

/-! ## A closed table -/

/-- A table that was closed for a cause. -/
structure ClosedFor (t : CallTable) (cause : Error) : Prop where
  closed : t.closed = some cause
  pending : t.pending = []
  timers : t.timers = []

theorem Coherent.closedFor (h : Coherent t) (hc : t.closed = some cause) : ClosedFor t cause := by
  have hpending : t.pending = [] := h.closed (by simp [isClosed, hc])
  have htimers : t.timers.map (·.id) = [] := by simp [h.timers, hpending]
  exact ⟨hc, hpending, List.map_eq_nil_iff.1 htimers⟩

/-- Nobody is left to be told of another cause. -/
theorem ClosedFor.failAll (h : ClosedFor t cause) (later : Error) : t.failAll later = (t, 0) := by
  have hsame : (t.failAll later).1 = t := by
    cases t
    obtain ⟨hclosed, hpending, htimers⟩ := h
    simp only at hclosed hpending htimers
    simp [CallTable.failAll, endAll, hclosed, hpending, htimers]
  have hcount : (t.failAll later).2 = 0 := by
    show t.pending.length = 0
    rw [h.pending, List.length_nil]
  exact Prod.ext hsame hcount

theorem ClosedFor.expect (h : ClosedFor t cause) (now : Nat) (request : Request Bytes) :
    t.expect now request = (t, .failed (.network cause)) := by
  rcases t.expect_cases now request with ⟨first, hc, he⟩ | ⟨hc, -, -⟩ | ⟨_, hc, -, -, -⟩ |
    ⟨_, _, hc, -, -, -⟩
  · obtain rfl := Option.some.inj (h.closed.symm.trans hc)
    exact he
  all_goals cases h.closed.symm.trans hc

/-- All who wait when the calls are failed are told the cause. -/
theorem outcome?_failAll (h : Coherent t) {call : PendingCall} (hcall : call ∈ t.pending) :
    (t.failAll cause).1.outcome? (.waiting call.ticket) = some (.error (.network cause)) := by
  refine (h.step (.failAll cause)).outcome?_waiting.2 ?_
  simp only [failAll, endAll, List.mem_append, List.mem_reverse, List.mem_map]
  exact .inl ⟨call, hcall, rfl⟩

/-- A call that waits goes on waiting, or it has ended. -/
theorem Coherent.kept (h : Coherent t) {call : PendingCall} (hcall : call ∈ t.pending)
    (s : Step t t') : call ∈ t'.pending ∨ ∃ outcome, (call.ticket, outcome) ∈ t'.settled := by
  have hall : ∀ outcome, (call.ticket, outcome) ∈ (t.endAll outcome).settled := by
    intro outcome
    simp only [CallTable.endAll, List.mem_append, List.mem_reverse, List.mem_map]
    exact .inl ⟨call, hcall, rfl⟩
  cases s with
  | expect now request =>
    left
    rcases t.expect_cases now request with ⟨_, _, he⟩ | ⟨_, _, he⟩ | ⟨_, _, _, _, he⟩ |
      ⟨_, _, _, _, _, he⟩ <;> rw [he]
    · exact hcall
    · exact hcall
    · exact hcall
    · exact List.mem_append_left _ hcall
  | complete id outcome =>
    rcases complete_cases id outcome h.ids with ⟨_, he⟩ | ⟨other, hother, -, he⟩ <;> rw [he]
    · exact .inl hcall
    · by_cases hid : call.id = other.id
      · obtain rfl := List.inj_on_of_nodup_map h.ids hcall hother hid
        exact .inr ⟨_, List.mem_cons_self⟩
      · exact .inl (List.mem_filter.2 ⟨hcall, by simpa using hid⟩)
  | failAll cause => exact .inr ⟨_, hall _⟩
  | discard => exact .inr ⟨_, hall _⟩
  | queue queue => exact .inl hcall

theorem Coherent.kept_steps (h : Coherent t) {call : PendingCall} (hcall : call ∈ t.pending)
    (s : Steps t t') : call ∈ t'.pending ∨ ∃ outcome, (call.ticket, outcome) ∈ t'.settled := by
  induction s with
  | refl => exact .inl hcall
  | tail before last ih =>
    rcases ih with hwaits | ⟨outcome, hsettled⟩
    · exact (h.steps before).kept hwaits last
    · exact .inr ⟨outcome, last.settled_suffix.subset hsettled⟩

/-! ## Runs of a table -/

namespace Clocked

/-- Only the first cause closes a table. -/
theorem handle_closed (s : Clocked) (e : Event) (alive : s.discarded = false) :
    (s.handle e).table.closed =
      match e with
      | .failAll cause => some (s.table.closed.getD cause)
      | _ => s.table.closed := by
  cases e with
  | expect request => simp [handle, alive, expect_closed]
  | reply reply => simp [handle, alive, handleReply, complete_closed]
  | failure report => simp [handle, alive, handleFailure, complete_closed]
  | pass ms => simp [handle, alive, expireDue_closed]
  | failAll cause => simp [handle, alive, failAll_closed]
  | takeFrames =>
    cases hqueue : s.table.queue <;> simp [handle, alive, CallTable.takeFrames, hqueue]
  | dropQueue => simp [handle, alive, CallTable.dropQueue]
  | dropHandle _ => simp [handle, alive]
  | discard => simp [handle, alive, CallTable.discard, endAll]

theorem handle_discarded (s : Clocked) (e : Event) (alive : s.discarded = false)
    (h : e ≠ .discard) : (s.handle e).discarded = false := by
  cases e with
  | discard => exact absurd rfl h
  | _ => simp [handle, alive]

theorem run_discarded (s : Clocked) (gone : s.discarded = true) (events : List Event) :
    s.run events = s := by
  induction events with
  | nil => rfl
  | cons e events ih =>
    have hsame : s.handle e = s := by simp [handle, gone]
    rw [run, List.foldl_cons, hsame, ← run, ih]

/-- A table is closed for the cause that came first. -/
theorem run_closed (s : Clocked) (alive : s.discarded = false) (events : List Event) :
    (s.run events).table.closed = s.table.closed.or (firstCause? events) := by
  induction events generalizing s with
  | nil => simp [run, firstCause?]
  | cons e events ih =>
    have hfirst := s.handle_closed e alive
    have hrun : s.run (e :: events) = (s.handle e).run events := rfl
    by_cases hdiscard : e = .discard
    · -- Nothing happens to a table that has gone away.
      subst hdiscard
      have hgone : (s.handle .discard).discarded = true := by simp [handle, alive]
      rw [hrun, run_discarded _ hgone, hfirst]
      simp [firstCause?]
    · rw [hrun, ih _ (s.handle_discarded e alive hdiscard), hfirst]
      cases e with
      | failAll cause => cases s.table.closed <;> rfl
      | discard => exact absurd rfl hdiscard
      | _ => rfl

theorem start_closed (usualTimeout : Duration) (events : List Event) :
    ((start usualTimeout).run events).table.closed = firstCause? events := by
  rw [run_closed _ rfl events]
  rfl

theorem start_coherent (usualTimeout : Duration) (events : List Event) :
    ((start usualTimeout).run events).table.Coherent :=
  (Reachable.start.run events).coherent

/-- In a table that has gone away no call waits. -/
theorem Reachable.pending_of_discarded {usualTimeout : Duration} {s : Clocked}
    (h : Reachable usualTimeout s) (gone : s.discarded = true) : s.table.pending = [] := by
  induction h with
  | start => cases gone
  | @handle s e _ ih =>
    cases hs : s.discarded with
    | true =>
      have hsame : s.handle e = s := by simp [Clocked.handle, hs]
      rw [hsame]
      exact ih hs
    | false =>
      by_cases he : e = .discard
      · subst he
        simp [Clocked.handle, hs, CallTable.discard, endAll]
      · rw [s.handle_discarded e hs he] at gone
        cases gone

/-- Whoever waits when all calls are failed is told the first cause of the run. -/
theorem outcome?_failed (usualTimeout : Duration) (before : List Event) (cause : Error)
    (after : List Event) {call : PendingCall}
    (hcall : call ∈ ((start usualTimeout).run before).table.pending) :
    firstCause? (before ++ .failAll cause :: after) = some cause ∧
      ((start usualTimeout).run (before ++ .failAll cause :: after)).table.outcome?
        (.waiting call.ticket) = some (.error (.network cause)) := by
  have hreach : Reachable usualTimeout ((start usualTimeout).run before) :=
    Reachable.start.run before
  have hrun : (start usualTimeout).run (before ++ .failAll cause :: after) =
      (((start usualTimeout).run before).handle (.failAll cause)).run after := run_append _ _ _
  have hclosed := start_closed usualTimeout (before ++ .failAll cause :: after)
  rw [hrun] at hclosed ⊢
  generalize (start usualTimeout).run before = s at hcall hreach hclosed ⊢
  have alive : s.discarded = false := by
    cases hs : s.discarded with
    | false => rfl
    | true => simp [hreach.pending_of_discarded hs] at hcall
  have hopen : s.table.closed = none := by
    cases hs : s.table.closed with
    | none => rfl
    | some first => simp [(hreach.coherent.closedFor hs).pending] at hcall
  have htable : (s.handle (.failAll cause)).table = (s.table.failAll cause).1 := by
    simp [handle, alive]
  have hcoherent := (hreach.handle (.failAll cause)).coherent
  constructor
  · have halive := s.handle_discarded (.failAll cause) alive (by simp)
    rw [run_closed _ halive, s.handle_closed _ alive, hopen] at hclosed
    exact hclosed.symm
  · refine (run_steps _ after).outcome?_eq hcoherent ?_
    rw [htable]
    exact outcome?_failAll hreach.coherent hcall

end Clocked

/-! ## Who is told of a broken connection -/

/-- Whoever is told of a broken connection is told why the table was closed. -/
def Blames (t : CallTable) : Prop :=
  ∀ ticket cause, (ticket, .error (.network cause)) ∈ t.settled → t.closed = some cause

theorem Blames.complete (h : t.Blames) (id : UInt32) {outcome : PendingCall → Outcome Bytes}
    (other : ∀ call cause, outcome call ≠ .error (.network cause)) :
    (t.complete id outcome).1.Blames := by
  unfold CallTable.complete
  split
  · exact h
  · next call _ =>
    intro ticket cause hmem
    rcases List.mem_cons.1 hmem with heq | hold
    · simp only [Prod.mk.injEq] at heq
      exact absurd heq.2.symm (other call cause)
    · exact h ticket cause hold

theorem Blames.expireDue (h : t.Blames) (now : Nat) : (t.expireDue now).Blames := by
  rw [expireDue_eq]
  generalize t.timers.filter (·.due ≤ now) = due
  induction due generalizing t with
  | nil => exact h
  | cons timer due ih => exact ih (h.complete timer.id nofun)

/-- The calls that wait are told the cause, and if there are any, it is the first. -/
theorem Blames.failAll (h : t.Blames) (coherent : Coherent t) (cause : Error) :
    (t.failAll cause).1.Blames := by
  cases hc : t.closed with
  | some first =>
    rw [(coherent.closedFor hc).failAll cause]
    exact h
  | none =>
    intro ticket other hmem
    simp only [CallTable.failAll, endAll, List.mem_append, List.mem_reverse, List.mem_map,
      Prod.mk.injEq, Except.error.injEq, Error.network.injEq] at hmem
    rcases hmem with ⟨call, -, -, rfl⟩ | hold
    · simp [CallTable.failAll, hc]
    · cases hc.symm.trans (h ticket other hold)

/-- A call that is made fails later than now, or with the cause of a closed table. -/
theorem Blames.expect (h : t.Blames) (queue : t.queue = none → t.isClosed = true) (now : Nat)
    (request : Request Bytes) : (t.expect now request).1.Blames := by
  rcases t.expect_cases now request with ⟨_, _, he⟩ | ⟨_, _, he⟩ | ⟨id, hopen, _, hqueue, he⟩ |
    ⟨id, frames, _, _, _, he⟩ <;> rw [he]
  · exact h
  · exact h
  · have hclosed := queue hqueue
    simp [isClosed, hopen] at hclosed
  · exact h

end CallTable

namespace Connection

variable {c : Connection}

/-! ## One cause for a connection -/

/-- How what is told about a connection stands to why it failed. -/
structure Blamed (c : Connection) : Prop where
  sound : Sound c
  /-- Nobody sends the queue of a closed table only. -/
  queue : c.calls.queue = none → c.calls.isClosed = true
  blames : c.calls.Blames
  plainCause : ∀ cause, c.calls.closed = some cause → ¬ cause.IsNetwork
  plainError : ∀ error, c.lastError = some error → ¬ error.IsNetwork

theorem Blamed.dial (remote : Address) (settings : ConnectionSettings) :
    Blamed (.dial remote settings) where
  sound := .dial remote settings
  queue := by simp [Connection.dial]
  blames := by simp [CallTable.Blames, Connection.dial]
  plainCause := by simp [Connection.dial]
  plainError := by simp [Connection.dial]

theorem Blamed.stop (h : Blamed c) {cause : Error} (plain : ¬ cause.IsNetwork) :
    Blamed (c.stop cause) where
  sound := h.sound.stop cause
  queue _ := rfl
  blames := CallTable.Blames.failAll (t := c.calls.dropQueue) h.blames (h.sound.calls.queue none)
    cause
  plainCause first hfirst := by
    obtain rfl : c.calls.closed.getD cause = first := Option.some.inj hfirst
    exact Error.plain_getD h.plainCause plain
  plainError := h.plainError

theorem Blamed.fail (h : Blamed c) {error : Error} (plain : ¬ error.IsNetwork) :
    Blamed (c.fail error) where
  sound := h.sound.fail error
  queue := (h.stop plain).queue
  blames := (h.stop plain).blames
  plainCause := (h.stop plain).plainCause
  plainError first hfirst := by
    obtain rfl : c.lastError.getD error = first := Option.some.inj hfirst
    exact Error.plain_getD h.plainError plain

theorem Blamed.broken (h : Blamed c) (error : LinkError) : Blamed (c.broken error) := by
  unfold Connection.broken
  split
  · exact h
  · exact h
  · exact h.fail (Error.not_isNetwork_link error)

/-- Its owner gives it up for the error that broke it, or for none. -/
theorem Blamed.clean (h : Blamed c) : Blamed c.clean := by
  have hsound := h.sound.clean
  unfold Connection.clean at hsound ⊢
  split at hsound
  · next hcleaned =>
    rw [if_pos hcleaned]
    exact h
  · next hcleaned =>
    rw [if_neg hcleaned]
    have plain : ¬ (c.lastError.getD .linkClosed).IsNetwork :=
      Error.plain_getD h.plainError (Error.not_isNetwork_link .closed)
    refine ⟨hsound, fun _ => rfl, h.blames.failAll h.sound.calls _, fun first hfirst => ?_,
      h.plainError⟩
    obtain rfl : c.calls.closed.getD (c.lastError.getD .linkClosed) = first :=
      Option.some.inj hfirst
    exact Error.plain_getD h.plainCause plain

/-- Where neither the calls nor the errors change, nobody is told anything. -/
theorem Blamed.same {c' : Connection} (h : Blamed c) (sound : Sound c')
    (calls : c'.calls = c.calls) (lastError : c'.lastError = c.lastError) : Blamed c' where
  sound := sound
  queue := by rw [calls]; exact h.queue
  blames := by rw [calls]; exact h.blames
  plainCause := by rw [calls]; exact h.plainCause
  plainError := by rw [lastError]; exact h.plainError

theorem Blamed.withReader (h : Blamed c) (inp : FrameReader) : Blamed (c.withReader inp) := by
  have hsound := h.sound.moves (c.withReader_moves inp)
  unfold Connection.withReader at hsound ⊢
  split at hsound
  all_goals exact h.same hsound rfl rfl

theorem Blamed.identify (h : Blamed c) (frame : Frame) : Blamed (c.identify frame) := by
  have hsound := h.sound.moves (c.identify_moves frame)
  unfold Connection.identify at hsound ⊢
  split
  · next identity =>
    dsimp only at hsound
    split
    · next version =>
      rw [if_pos version] at hsound
      exact h.same hsound rfl rfl
    · exact h.fail (Error.not_isNetwork_handshake _)
  · exact h.fail (Error.not_isNetwork_handshake _)
  · exact h.fail (Error.not_isNetwork_handshake _)

/-- Calls that end in another way than with their connection. -/
theorem Blamed.complete (h : Blamed c) (id : UInt32) {outcome : PendingCall → Outcome Bytes}
    (other : ∀ call cause, outcome call ≠ .error (.network cause)) :
    Blamed { c with calls := (c.calls.complete id outcome).1 } where
  sound := h.sound.move (.calls (.single (.complete id outcome)) (c.calls.complete_closed id _))
  queue hqueue := by
    have hsame := c.calls.complete_same id outcome
    exact hsame.closed (h.queue (hsame.queue.symm.trans hqueue))
  blames := h.blames.complete id other
  plainCause := by
    rw [show (c.calls.complete id outcome).1.closed = c.calls.closed from
      c.calls.complete_closed id outcome]
    exact h.plainCause
  plainError := h.plainError

theorem Blamed.route (h : Blamed c) (frame : Frame) : Blamed (c.route frame) := by
  unfold Connection.route
  split
  · next reply => exact h.complete reply.id nofun
  · next report =>
    split
    · exact h.fail (Error.not_isNetwork_remote _ _)
    · refine h.complete report.id fun _ _ heq => ?_
      cases heq
  · exact h

theorem Blamed.receive (h : Blamed c) (payload : Bytes) : Blamed (c.receive payload) := by
  unfold Connection.receive
  split
  · exact h.broken _
  · next frame _ =>
    split
    · exact h.identify frame
    · exact h.route frame
    · exact h

theorem Blamed.arrived (h : Blamed c) (bytes : Bytes) : Blamed (c.arrived bytes).1 := by
  induction c, bytes using Connection.arrived.induct with
  | case1 c bytes hreader =>
    rw [arrived_deaf hreader]
    exact h
  | case2 c bytes inp hreader inp' rest hread =>
    rw [arrived_part hreader hread]
    exact h.withReader inp'
  | case3 c bytes inp hreader inp' payload rest hread _ ih =>
    rw [arrived_payload hreader hread]
    exact ih ((h.withReader inp').receive payload)
  | case4 c bytes inp hreader inp' fault rest hread =>
    rw [arrived_fault hreader hread]
    exact h.broken _

theorem Blamed.load (h : Blamed c) : Blamed c.load := by
  have hsound := h.sound.moves c.load_moves
  unfold Connection.load at hsound ⊢
  split
  · next inp out hactivity =>
    simp only [hactivity] at hsound
    split
    · next hdone =>
      rw [if_pos hdone] at hsound
      split
      · next frame calls hnext =>
        simp only [hnext] at hsound
        obtain ⟨frames, -, rfl⟩ := CallTable.nextFrame?_eq_some hnext
        exact ⟨hsound, nofun, h.blames, h.plainCause, h.plainError⟩
      · exact h
    · exact h
  · exact h

/-- Every event keeps to the one cause. -/
theorem Blamed.handle (h : Blamed c) (e : Event) : Blamed (c.handle e) := by
  have hsound := h.sound.handle e
  cases e with
  | dialled =>
    simp only [Connection.handle, Connection.dialled] at hsound ⊢
    split at hsound
    all_goals exact h.same hsound rfl rfl
  | dialFailed error =>
    simp only [Connection.handle, Connection.dialFailed]
    split
    · exact h.fail (Error.not_isNetwork_link error)
    · exact h
  | load => exact h.load
  | wrote count =>
    simp only [Connection.handle, Connection.wrote] at hsound ⊢
    split at hsound
    all_goals exact h.same hsound rfl rfl
  | writeFailed error =>
    simp only [Connection.handle]
    split
    · exact h
    · exact h.broken error
  | arrived bytes => exact h.arrived bytes
  | readFailed error =>
    simp only [Connection.handle]
    split
    · exact h.broken error
    · exact h
  | expect now request =>
    refine ⟨hsound, fun hqueue => ?_, h.blames.expect h.queue now request, ?_, h.plainError⟩
    · rcases c.calls.expect_cases now request with ⟨_, _, he⟩ | ⟨_, _, he⟩ | ⟨_, _, _, _, he⟩ |
        ⟨_, _, _, _, _, he⟩ <;> simp only [Connection.handle, he] at hqueue ⊢
      · exact h.queue hqueue
      · exact h.queue hqueue
      · exact h.queue hqueue
      · cases hqueue
    · rw [show (c.handle (.expect now request)).calls.closed = c.calls.closed from
        c.calls.expect_closed now request]
      exact h.plainCause
  | expire now =>
    have hsame := c.calls.expireDue_same now
    refine ⟨hsound, fun hqueue => hsame.closed (h.queue (hsame.queue.symm.trans hqueue)),
      h.blames.expireDue now, ?_, h.plainError⟩
    rw [show (c.handle (.expire now)).calls.closed = c.calls.closed from
      c.calls.expireDue_closed now]
    exact h.plainCause
  | clean => exact h.clean
  | noticeStop =>
    simp only [Connection.handle, Connection.noticeStop]
    split
    · exact h.stop (Error.not_isNetwork_link .closed)
    · exact h

theorem Reachable.blamed {remote : Address} {settings : ConnectionSettings}
    (h : Reachable remote settings c) : Blamed c := by
  induction h with
  | dial => exact .dial remote settings
  | handle e _ ih => exact ih.handle e

/-- What a connection does to its table is a number of operations. -/
theorem Moves.calls_steps {c' : Connection} (m : Moves c c') :
    CallTable.Steps c.calls c'.calls := by
  induction m with
  | refl => exact .refl
  | tail _ last ih =>
    refine ih.trans ?_
    cases last with
    | busy activity => exact .refl
    | calls steps _ => exact steps
    | identify identity version activity => exact .refl
    | fail error => exact .tail (.single (.queue none)) (.failAll error)
    | stop told => exact .tail (.single (.queue none)) (.failAll .linkClosed)
    | clean =>
      unfold Connection.clean
      split
      · exact .refl
      · exact .single (.failAll _)

/-- **The first cause counts.** A table is closed for the first cause for which
all its calls are failed in a run, and then it is empty. Of all such failures only
the first can reach a call; it reaches all that wait, and says how many they are.
Any other changes nothing and says that it reached none, and whoever makes a call
afterwards is told of the first cause, too.

So it is on a connection, in whatever order the driver of its stream and its owner
fail the calls: once its table is closed it stays so for that cause, all who waited
have their outcome, whoever is told that the connection broke is told that cause,
and this is never itself an error about the network. -/
theorem first_cause_wins :
    (∀ (usualTimeout : Duration) (events : List CallTable.Event),
      let s := (CallTable.Clocked.start usualTimeout).run events
      s.table.closed = CallTable.firstCause? events ∧
      (s.table.isClosed = true → s.table.pending = [] ∧ s.table.timers = []) ∧
      (∀ first, CallTable.firstCause? events = some first →
        (∀ later, s.table.failAll later = (s.table, 0)) ∧
        ∀ now request, s.table.expect now request = (s.table, .failed (.network first))) ∧
      ∀ before cause after, events = before ++ .failAll cause :: after →
        let b := (CallTable.Clocked.start usualTimeout).run before
        (b.table.failAll cause).2 =
          (if CallTable.firstCause? before = none then b.table.pendingCount else 0) ∧
        ∀ call ∈ b.table.pending, CallTable.firstCause? events = some cause ∧
          s.table.outcome? (.waiting call.ticket) = some (.error (.network cause))) ∧
    (∀ (remote : Address) (settings : ConnectionSettings) (before after : List Event),
      let c := (dial remote settings).run before
      let d := c.run after
      (c.calls.isClosed = true → c.calls.pending = [] ∧ c.calls.timers = []) ∧
      (d.calls.isClosed = true → ∀ call ∈ c.calls.pending,
        ∃ outcome, d.calls.outcome? (.waiting call.ticket) = some outcome) ∧
      (∀ ticket cause, d.calls.outcome? (.waiting ticket) = some (.error (.network cause)) →
        d.calls.closed = some cause) ∧
      ∀ first, c.calls.closed = some first → ¬ first.IsNetwork ∧ d.calls.closed = some first ∧
        (∀ later, d.calls.failAll later = (d.calls, 0)) ∧
        ∀ now request, d.calls.expect now request = (d.calls, .failed (.network first))) := by
  constructor
  · intro usualTimeout events s
    have coherent : s.table.Coherent := CallTable.Clocked.start_coherent usualTimeout events
    have hclosed : s.table.closed = CallTable.firstCause? events :=
      CallTable.Clocked.start_closed usualTimeout events
    refine ⟨hclosed, fun h => ?_, fun first hfirst => ?_, ?_⟩
    · obtain ⟨cause, hcause⟩ := Option.isSome_iff_exists.1 h
      have hfor := coherent.closedFor hcause
      exact ⟨hfor.pending, hfor.timers⟩
    · have hfor := coherent.closedFor (hclosed.trans hfirst)
      exact ⟨hfor.failAll, hfor.expect⟩
    · rintro before cause after rfl b
      refine ⟨?_, fun call hcall =>
        CallTable.Clocked.outcome?_failed usualTimeout before cause after hcall⟩
      split
      · rfl
      · next hfirst =>
        obtain ⟨first, hfirst⟩ := Option.ne_none_iff_exists'.1 hfirst
        have hfor := (CallTable.Clocked.start_coherent usualTimeout before).closedFor
          ((CallTable.Clocked.start_closed usualTimeout before).trans hfirst)
        rw [hfor.failAll cause]
  · intro remote settings before after c d
    have blamedC : Blamed c := (Reachable.dial.run before : Reachable remote settings c).blamed
    have blamedD : Blamed d :=
      ((Reachable.dial.run before).run after : Reachable remote settings d).blamed
    refine ⟨fun h => ?_, fun h call hcall => ?_, fun ticket cause h => ?_, fun first hfirst => ?_⟩
    · obtain ⟨cause, hcause⟩ := Option.isSome_iff_exists.1 h
      have hfor := blamedC.sound.calls.closedFor hcause
      exact ⟨hfor.pending, hfor.timers⟩
    · obtain ⟨cause, hcause⟩ := Option.isSome_iff_exists.1 h
      have hfor := blamedD.sound.calls.closedFor hcause
      rcases blamedC.sound.calls.kept_steps hcall (c.run_moves after).calls_steps with
        hwaits | ⟨outcome, hsettled⟩
      · rw [hfor.pending] at hwaits
        cases hwaits
      · exact ⟨outcome, blamedD.sound.calls.outcome?_waiting.2 hsettled⟩
    · exact blamedD.blames ticket cause (blamedD.sound.calls.outcome?_waiting.1 h)
    · have hlater := (c.run_later after).closed first hfirst
      have hfor := blamedD.sound.calls.closedFor hlater
      exact ⟨blamedC.plainCause first hfirst, hlater, hfor.failAll, hfor.expect⟩

end Connection

end RpcClient
