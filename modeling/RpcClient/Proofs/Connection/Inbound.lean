/-
What an identified connection does with all that comes in. Each payload ends at most one
call, or the connection breaks (`Open.receive`), and what is read is what the bytes alone
say (`Open.arrived`). So a call that waits ends by the first answer that names it, or with
the first cause for which the connection breaks (`Routed`); afterwards nothing changes any
more (`Shut.handle`).
-/
import Mathlib.Data.List.TakeWhile
import RpcClient.Connection.Inbound
import RpcClient.Proofs.Connection.Deadline
import RpcClient.Proofs.Connection.FirstCause
import RpcClient.Proofs.Connection.Greeting

namespace RpcClient

/-! ## What comes in, in parts -/

namespace Inbound

variable {before after : List Inbound} {cause : Error} {id : UInt32}

theorem causeOf_append (before after : List Inbound) :
    causeOf (before ++ after) = (causeOf before).or (causeOf after) := List.findSome?_append

theorem cause?_of_causeOf (h : causeOf before = none) : ∀ i ∈ before, i.cause?.isNone = true := by
  intro i hi
  rw [Option.isNone_iff_eq_none]
  exact List.findSome?_eq_none_iff.1 h i hi

/-- As long as nothing breaks the connection, all answers count. -/
theorem answersOf_eq (h : causeOf before = none) : answersOf before = before.filterMap answer? := by
  rw [answersOf, List.takeWhile_eq_self_iff.2 (cause?_of_causeOf h)]

theorem fateOf_append (h : causeOf before = none) (after : List Inbound) (id : UInt32) :
    fateOf (before ++ after) id = (fateOf before id).or (fateOf after id) := by
  have hanswers : answersOf (before ++ after) = answersOf before ++ answersOf after := by
    rw [answersOf_eq h, answersOf, List.takeWhile_append_of_pos (cause?_of_causeOf h),
      List.filterMap_append, ← answersOf]
  rw [fateOf, fateOf, fateOf, hanswers, causeOf_append, h, List.lookup_append]
  simp [Option.or_assoc]

/-- What comes in behind the first cause makes no difference. -/
theorem fateOf_append_of_cause (h : causeOf before = some cause) (after : List Inbound)
    (id : UInt32) : fateOf (before ++ after) id = fateOf before id := by
  obtain ⟨front, i, back, rfl, hi, hfront⟩ := List.findSome?_eq_some_iff.1 h
  have hanswers : answersOf (front ++ i :: back ++ after) = answersOf (front ++ i :: back) := by
    have hpos : ∀ i ∈ front, i.cause?.isNone = true := fun i hmem => by
      rw [Option.isNone_iff_eq_none]
      exact hfront i hmem
    have hstop : i.cause?.isNone = false := by rw [hi]; rfl
    simp only [answersOf, List.append_assoc, List.cons_append,
      List.takeWhile_append_of_pos hpos, List.takeWhile_cons, hstop, Bool.false_eq_true, if_false]
  rw [fateOf, fateOf, hanswers, causeOf_append, h]
  rfl

end Inbound

namespace FrameReader

variable {inp inp' : FrameReader} {bytes rest : Bytes}

/-- All frames are the first one, and those in what it leaves over. -/
theorem readAll_eq (inp : FrameReader) (bytes : Bytes) :
    inp.readAll bytes =
      match inp.read bytes with
      | (inp', none, _) => (inp', [])
      | (inp', some (.ok whole), rest) =>
        ((inp'.readAll rest).1, .payload whole :: (inp'.readAll rest).2)
      | (inp', some (.error fault), _) => (inp', [.failed (.invalidFrame fault)]) := by
  induction bytes generalizing inp with
  | nil => rfl
  | cons b bytes ih =>
    rw [readAll, read]
    cases hpush : inp.push b with
    | mk inp' result =>
      cases result with
      | none => exact ih inp'
      | some result => cases result <;> rfl

/-- Of some payloads one after another, those are read whose bytes have come in. -/
theorem Midway.readAll {payloads : List Bytes} {seen : Nat} {later : Bytes}
    (h : Midway inp payloads seen (bytes ++ later)) :
    ∃ read left seen', payloads = read ++ left ∧
      (inp.readAll bytes).2 = read.map .payload ∧
      Midway (inp.readAll bytes).1 left seen' later := by
  induction bytes generalizing inp payloads seen with
  | nil => exact ⟨[], payloads, seen, rfl, rfl, h⟩
  | cons b bytes ih =>
    obtain ⟨whole, more, rfl, hpush⟩ := Midway.push h
    rw [FrameReader.readAll]
    split at hpush
    · obtain ⟨hpush, hmore⟩ := hpush
      obtain ⟨read, left, seen', rfl, hread, hleft⟩ := ih hmore
      rw [hpush]
      exact ⟨whole :: read, left, seen', rfl, by simp [hread], hleft⟩
    · obtain ⟨r, hpush, hsame⟩ := hpush
      obtain ⟨read, left, seen', hpayloads, hread, hleft⟩ := ih hsame
      rw [hpush]
      exact ⟨read, left, seen', hpayloads, hread, hleft⟩

end FrameReader

namespace Connection

open Inbound

variable {c c' : Connection} {inp inp' : FrameReader} {cause : Error} {i : Inbound}
  {items : List Inbound}

/-! ## Open and shut -/

/-- A connection that is identified, and has read some part of a frame. -/
structure Open (c : Connection) (inp : FrameReader) : Prop where
  sound : Sound c
  handshake : c.handshake = .identified
  activity : ∃ out, c.activity = .serving inp out
  untold : c.stopping = false

/-- A connection that broke for a cause. -/
structure Shut (c : Connection) (cause : Error) : Prop where
  handshake : c.handshake = .failed
  activity : c.activity = .stopped
  untold : c.stopping = false
  lastError : c.lastError = some cause
  calls : c.calls.ClosedFor cause

theorem Open.closed (h : Open c inp) : c.calls.closed = none := by
  cases hc : c.calls.closed with
  | none => rfl
  | some cause =>
    have hfailed := h.sound.closed.1 (by simp [CallTable.isClosed, hc])
    cases h.handshake.symm.trans hfailed

theorem Open.lastError (h : Open c inp) : c.lastError = none := by
  cases hc : c.lastError with
  | none => rfl
  | some error => cases h.handshake.symm.trans (h.sound.lastError error hc)

theorem Open.reader? (h : Open c inp) : c.reader? = some inp := by
  obtain ⟨out, hactivity⟩ := h.activity
  simp [Connection.reader?, hactivity]

theorem Open.fail (h : Open c inp) (error : Error) : Shut (c.fail error) error where
  handshake := rfl
  activity := rfl
  untold := rfl
  lastError := by simp [Connection.fail, h.lastError]
  calls := by
    refine (h.sound.fail error).calls.closedFor ?_
    simp [Connection.fail, stop, CallTable.failAll_closed, CallTable.dropQueue, h.closed]

/-- Nothing happens any more to a connection that broke, unless it is given up. -/
theorem Shut.handle (h : Shut c cause) {e : Event} (kept : e ≠ .clean) : c.handle e = c := by
  cases e with
  | dialled => simp [Connection.handle, dialled, h.activity]
  | dialFailed error => simp [Connection.handle, dialFailed, h.activity]
  | load => simp [Connection.handle, load, h.activity]
  | wrote count => simp [Connection.handle, wrote, h.activity]
  | writeFailed error => simp [Connection.handle, offer, h.activity]
  | arrived bytes => simp [Connection.handle, arrived_deaf, Connection.reader?, h.activity]
  | readFailed error => simp [Connection.handle, isReading, h.activity]
  | expect now request => simp [Connection.handle, h.calls.expect now request]
  | expire now => simp [Connection.handle, CallTable.expireDue, h.calls.timers]
  | clean => exact absurd rfl kept
  | noticeStop => simp [Connection.handle, noticeStop, h.untold]

theorem Shut.run (h : Shut c cause) {events : List Event} (kept : ∀ e ∈ events, e ≠ .clean) :
    c.run events = c := by
  induction events with
  | nil => rfl
  | cons e events ih =>
    have hfirst : c.handle e = c := h.handle (kept e List.mem_cons_self)
    rw [Connection.run, List.foldl_cons, hfirst, ← Connection.run]
    exact ih fun e he => kept e (List.mem_cons_of_mem _ he)

theorem Reachable.exists_run {remote : Address} {settings : ConnectionSettings}
    (h : Reachable remote settings c) :
    ∃ events, (Connection.dial remote settings).run events = c := by
  induction h with
  | dial => exact ⟨[], rfl⟩
  | handle e _ ih =>
    obtain ⟨events, rfl⟩ := ih
    exact ⟨events ++ [e], run_append _ _ _⟩

/-- Who has stopped has failed, for nobody sends the queue any more. -/
theorem Reachable.failed_of_stopped {remote : Address} {settings : ConnectionSettings}
    (h : Reachable remote settings c) (stopped : c.activity = .stopped) :
    c.handshake = .failed := by
  have haccounted : ∃ frames sent heard, c.Accounted frames sent heard := by
    clear stopped
    induction h with
    | dial => exact ⟨_, _, _, .dial remote settings⟩
    | handle e _ ih =>
      obtain ⟨frames, sent, heard, ih⟩ := ih
      exact ⟨_, _, _, ih.handle e⟩
  obtain ⟨frames, sent, heard, haccounted⟩ := haccounted
  have hqueue := haccounted.account
  rw [stopped] at hqueue
  exact h.sound.closed.1 (haccounted.closed hqueue.1)

/-- Who is identified reads and writes. -/
theorem Reachable.open {remote : Address} {settings : ConnectionSettings}
    (h : Reachable remote settings c) (identified : c.handshake = .identified) :
    ∃ inp, Open c inp := by
  have hkept : c.cleaned = false := by
    by_contra hcleaned
    cases identified.symm.trans (h.sound.cleaned (by simpa using hcleaned))
  have huntold : c.stopping = false := by
    by_contra htold
    simp [h.told (by simpa using htold)] at hkept
  obtain ⟨events, rfl⟩ := h.exists_run
  have hat := at_of_uncleaned remote settings events hkept
  obtain ⟨identity, hsettled⟩ := hat.identified identified
  rcases (hat.known hsettled).activity with ⟨inp, out, hserving⟩ | hstopped
  · exact ⟨inp, h.sound, identified, ⟨out, hserving⟩, huntold⟩
  · cases identified.symm.trans (h.failed_of_stopped hstopped)

/-! ## One thing that comes in -/

/-- What has become of a connection, and of the calls that waited on it, when something
has come in. -/
structure Routed (c c' : Connection) (inp : FrameReader) (items : List Inbound) : Prop where
  steps : CallTable.Steps c.calls c'.calls
  fate : ∀ call ∈ c.calls.pending,
    match fateOf items call.id with
    | some outcome => (call.ticket, outcome) ∈ c'.calls.settled
    | none => call ∈ c'.calls.pending
  old : ∀ call ∈ c'.calls.pending, call ∈ c.calls.pending ∨ c.calls.issued ≤ call.ticket
  state : match causeOf items with
    | none => c'.Open inp
    | some cause => c'.Shut cause

/-- Where nothing comes in, calls that wait go on waiting. -/
theorem Open.quiet (h : Open c' inp) (steps : CallTable.Steps c.calls c'.calls)
    (pending : c'.calls.pending = c.calls.pending) : Routed c c' inp [] where
  steps := steps
  fate call hcall := by
    show call ∈ c'.calls.pending
    rwa [pending]
  old call hcall := .inl (pending ▸ hcall)
  state := h

/-- What comes in later is for those who wait then. -/
theorem Routed.append {c₁ c₂ : Connection} {before after : List Inbound}
    (h : Routed c c₁ inp before) (k : causeOf before = none → Routed c₁ c₂ inp' after)
    (stays : ∀ cause, causeOf before = some cause → c₂ = c₁) :
    Routed c c₂ inp' (before ++ after) := by
  cases hcause : causeOf before with
  | none =>
    have later := k hcause
    refine ⟨h.steps.trans later.steps, fun call hcall => ?_, fun call hcall => ?_, ?_⟩
    · have hfirst := h.fate call hcall
      rw [fateOf_append hcause]
      cases hfate : fateOf before call.id with
      | some outcome =>
        rw [hfate] at hfirst
        exact later.steps.settled_suffix.subset hfirst
      | none =>
        rw [hfate] at hfirst
        exact later.fate call hfirst
    · rcases later.old call hcall with hold | hnew
      · exact h.old call hold
      · exact .inr (Nat.le_trans h.steps.issued_le hnew)
    · rw [causeOf_append, hcause]
      exact later.state
  | some cause =>
    have hstate := h.state
    obtain rfl := stays cause hcause
    rw [hcause] at hstate
    refine ⟨h.steps, fun call hcall => ?_, h.old, ?_⟩
    · rw [fateOf_append_of_cause hcause]
      exact h.fate call hcall
    · rw [causeOf_append, hcause]
      exact hstate

/-- What a payload does to a connection that is identified. -/
theorem Open.receive_eq (h : Open c inp) (payload : Bytes) :
    c.receive payload =
      match (Inbound.payload payload).cause?, (Inbound.payload payload).answer? with
      | some cause, _ => c.fail cause
      | none, some (id, outcome) => { c with calls := (c.calls.complete id fun _ => outcome).1 }
      | none, none => c := by
  obtain ⟨out, hactivity⟩ := h.activity
  simp only [Connection.receive, cause?, answer?, hactivity]
  cases Codec.binary.decode .frame payload with
  | error fault => simp [broken, hactivity]
  | ok frame =>
    cases frame with
    | error report =>
      by_cases hfatal : report.kind = .fatalProtocolError
      · simp [route, hfatal]
      · simp [route, hfatal, CallTable.handleFailure, hactivity]
    | callResponse reply => simp [route, CallTable.handleReply, hactivity]
    | _ => simp [route]

/-- What breaks the connection ends all calls. -/
theorem Open.broke (h : Open c inp) (hi : i.cause? = some cause) :
    Routed c (c.fail cause) inp [i] where
  steps := Moves.calls_steps (.single (.fail cause))
  fate call hcall := by
    have hfate : fateOf [i] call.id = some (.error (.network cause)) := by
      simp [fateOf, answersOf, causeOf, hi]
    rw [hfate]
    show _ ∈ (c.calls.dropQueue.failAll cause).1.settled
    simp only [CallTable.failAll, CallTable.endAll, CallTable.dropQueue, List.mem_append,
      List.mem_reverse, List.mem_map]
    exact .inl ⟨call, hcall, rfl⟩
  old call hcall := by cases hcall
  state := by
    simp only [causeOf, List.findSome?_cons, hi]
    exact h.fail cause

theorem fateOf_singleton (hi : i.cause? = none) (id : UInt32) :
    fateOf [i] id = i.answer?.bind fun a => if a.1 = id then some a.2 else none := by
  cases ha : i.answer? with
  | none => simp [fateOf, answersOf, causeOf, hi, ha]
  | some a =>
    obtain ⟨named, outcome⟩ := a
    by_cases hid : named = id
    · simp [fateOf, answersOf, causeOf, hi, ha, hid]
    · have hother : (id == named) = false := by simpa using Ne.symm hid
      simp [fateOf, answersOf, causeOf, hi, ha, hid, List.lookup_cons, hother]

/-- An answer ends the call that it names, and no other. -/
theorem Open.answered (h : Open c inp) (hi : i.cause? = none) {id : UInt32}
    {outcome : Outcome Bytes} (ha : i.answer? = some (id, outcome)) :
    Routed c { c with calls := (c.calls.complete id fun _ => outcome).1 } inp [i] := by
  have hsteps : CallTable.Step c.calls (c.calls.complete id fun _ => outcome).1 := .complete id _
  have hopen : Open { c with calls := (c.calls.complete id fun _ => outcome).1 } inp :=
    ⟨h.sound.move (.calls (.single hsteps) (c.calls.complete_closed id _)), h.handshake, h.activity,
      h.untold⟩
  have hstate : causeOf [i] = none := by simp [causeOf, hi]
  refine ⟨.single hsteps, fun call hcall => ?_, fun call hcall => .inl ?_, by rwa [hstate]⟩
  · rw [fateOf_singleton hi, ha, Option.bind_some]
    rcases CallTable.complete_cases id (fun _ => outcome) h.sound.calls.ids with
      ⟨hnobody, he⟩ | ⟨other, hother, rfl, he⟩ <;> simp only [he]
    · have hne : id ≠ call.id := by
        rintro rfl
        exact CallTable.isPending_eq_false.1 hnobody (List.mem_map_of_mem hcall)
      rwa [if_neg hne]
    · by_cases hid : other.id = call.id
      · obtain rfl := List.inj_on_of_nodup_map h.sound.calls.ids hother hcall hid
        rw [if_pos rfl]
        exact List.mem_cons_self
      · rw [if_neg hid]
        exact List.mem_filter.2 ⟨hcall, by simpa using Ne.symm hid⟩
  · rcases CallTable.complete_cases id (fun _ => outcome) h.sound.calls.ids with
      ⟨-, he⟩ | ⟨other, -, -, he⟩ <;> simp only [he] at hcall
    · exact hcall
    · exact (List.mem_filter.1 hcall).1

theorem Open.passedOver (h : Open c inp) (hi : i.cause? = none) (ha : i.answer? = none) :
    Routed c c inp [i] where
  steps := .refl
  fate call hcall := by
    rw [fateOf_singleton hi, ha]
    exact hcall
  old call hcall := .inl hcall
  state := by
    simp only [causeOf, List.findSome?_cons, hi]
    exact h

theorem Open.receive (h : Open c inp) (payload : Bytes) :
    Routed c (c.receive payload) inp [.payload payload] := by
  rw [h.receive_eq]
  cases hcause : (Inbound.payload payload).cause? with
  | some cause => exact h.broke hcause
  | none =>
    cases hanswer : (Inbound.payload payload).answer? with
    | some a => exact h.answered hcause hanswer
    | none => exact h.passedOver hcause hanswer

/-- What breaks nothing, and is about no call that waits, changes nothing. -/
theorem Open.receive_idle (h : Open c inp) {payload : Bytes}
    (harmless : (Inbound.payload payload).cause? = none)
    (nobody : ∀ id outcome, (Inbound.payload payload).answer? = some (id, outcome) →
      c.calls.isPending id = false) : c.receive payload = c := by
  rw [h.receive_eq, harmless]
  cases hanswer : (Inbound.payload payload).answer? with
  | some a =>
    obtain ⟨id, outcome⟩ := a
    simp only [CallTable.complete_of_not_pending (nobody id outcome hanswer)]
  | none => rfl

/-! ## All that comes in -/

theorem Open.withReader (h : Open c inp) (inp' : FrameReader) : Open (c.withReader inp') inp' := by
  obtain ⟨out, hactivity⟩ := h.activity
  refine ⟨h.sound.moves (c.withReader_moves inp'), ?_, ⟨out, ?_⟩, ?_⟩
  · simp [Connection.withReader, hactivity, h.handshake]
  · simp [Connection.withReader, hactivity]
  · simp [Connection.withReader, hactivity, h.untold]

/-- To read on ends no call. -/
theorem Open.readOn (h : Open c inp) (inp' : FrameReader) : Routed c (c.withReader inp') inp' [] :=
  (h.withReader inp').quiet (c.withReader_calls inp' ▸ .refl) (congrArg _ (c.withReader_calls inp'))

theorem Open.broken (h : Open c inp) (error : LinkError) :
    Routed c (c.broken error) inp [.failed error] := by
  obtain ⟨out, hactivity⟩ := h.activity
  have hbroken : c.broken error = c.fail (.link error) := by simp [Connection.broken, hactivity]
  rw [hbroken]
  exact h.broke rfl

/-- Bytes are read as far as the connection does not break. -/
theorem Open.arrived (h : Open c inp) (bytes : Bytes) :
    Routed c (c.arrived bytes).1 (inp.readAll bytes).1 (inp.readAll bytes).2 := by
  induction c, bytes using Connection.arrived.induct generalizing inp with
  | case1 c bytes hreader => cases hreader.symm.trans h.reader?
  | case2 c bytes inp₁ hreader inp' rest hread =>
    obtain rfl : inp₁ = inp := Option.some.inj (hreader.symm.trans h.reader?)
    rw [arrived_part hreader hread, FrameReader.readAll_eq, hread]
    exact h.readOn inp'
  | case3 c bytes inp₁ hreader inp' payload rest hread _ ih =>
    obtain rfl : inp₁ = inp := Option.some.inj (hreader.symm.trans h.reader?)
    rw [arrived_payload hreader hread, FrameReader.readAll_eq, hread]
    have hreceive : Routed c ((c.withReader inp').receive payload) inp' [.payload payload] :=
      (h.readOn inp').append (fun _ => (h.withReader inp').receive payload) fun _ hcause => by
        cases hcause
    refine hreceive.append (fun hgoing => ?_) fun cause hcause => ?_
    · have hopen := hreceive.state
      rw [hgoing] at hopen
      exact ih hopen
    · have hshut := hreceive.state
      rw [hcause] at hshut
      exact hshut.handle (e := .arrived rest) fun hclean => by cases hclean
  | case4 c bytes inp₁ hreader inp' fault rest hread =>
    obtain rfl : inp₁ = inp := Option.some.inj (hreader.symm.trans h.reader?)
    rw [arrived_fault hreader hread, FrameReader.readAll_eq, hread]
    have hbroken := (h.readOn inp').append
      (fun _ => (h.withReader inp').broken (.invalidFrame fault)) fun _ hcause => by cases hcause
    rwa [broken_withReader] at hbroken

/-- Calls may be made while things come in. -/
theorem Open.expect (h : Open c inp) (now : Nat) (request : Request Bytes) :
    Routed c (c.handle (.expect now request)) inp [] := by
  have hopen : Open (c.handle (.expect now request)) inp :=
    ⟨h.sound.handle _, h.handshake, h.activity, h.untold⟩
  rcases c.calls.expect_cases now request with ⟨cause, hclosed, -⟩ | ⟨-, -, he⟩ |
    ⟨_, -, -, -, he⟩ | ⟨id, frames, -, -, -, he⟩
  · cases h.closed.symm.trans hclosed
  · exact hopen.quiet (.single (.expect now request)) (by simp [Connection.handle, he])
  · exact hopen.quiet (.single (.expect now request)) (by
      simp [Connection.handle, he, CallTable.refuse])
  · refine ⟨.single (.expect now request), fun call hcall => ?_, fun call hcall => ?_, hopen⟩
    · show call ∈ (c.calls.expect now request).1.pending
      rw [he]
      exact List.mem_append_left _ hcall
    · simp only [Connection.handle, he, CallTable.enter, List.mem_append, List.mem_singleton]
        at hcall
      rcases hcall with hold | rfl
      · exact .inl hold
      · exact .inr (Nat.le_refl _)

theorem Open.load (h : Open c inp) : Routed c c.load inp [] := by
  obtain ⟨out, hactivity⟩ := h.activity
  have hsound := h.sound.moves c.load_moves
  have hsteps := c.load_moves.calls_steps
  simp only [Connection.load, hactivity] at hsound hsteps ⊢
  split at hsound
  · next hdone =>
    rw [if_pos hdone] at hsteps ⊢
    cases hnext : c.calls.nextFrame? with
    | none => exact h.quiet .refl rfl
    | some next =>
      obtain ⟨frame, calls⟩ := next
      simp only [hnext] at hsound hsteps ⊢
      obtain ⟨frames, -, rfl⟩ := CallTable.nextFrame?_eq_some hnext
      exact Open.quiet ⟨hsound, h.handshake, ⟨_, rfl⟩, h.untold⟩ hsteps rfl
  · next hdone =>
    rw [if_neg hdone]
    exact h.quiet .refl rfl

/-- One event, in whatever part of a frame it comes. -/
theorem Open.handle (h : Open c inp) {e : Event} (calm : e.isCalm = true) :
    Routed c (c.handle e) (inboundOf inp e).1 (inboundOf inp e).2 := by
  obtain ⟨out, hactivity⟩ := h.activity
  have hsame : ∀ {c'}, c' = c → Routed c c' inp [] := by
    rintro c' rfl
    exact h.quiet .refl rfl
  cases e with
  | dialled => exact hsame (by simp [Connection.handle, dialled, hactivity])
  | dialFailed error => exact hsame (by simp [Connection.handle, dialFailed, hactivity])
  | load => exact h.load
  | wrote count =>
    have hwrote : c.handle (.wrote count) =
        { c with activity := .serving inp ⟨out.rest.drop count⟩ } := by
      simp [Connection.handle, wrote, hactivity]
    rw [hwrote]
    exact Open.quiet ⟨h.sound.move (.busy _), h.handshake, ⟨_, rfl⟩, h.untold⟩ .refl rfl
  | arrived bytes => exact h.arrived bytes
  | readFailed error =>
    have hreading : c.isReading = true := by simp [isReading, hactivity]
    simp only [Connection.handle, hreading, if_true]
    exact h.broken error
  | expect now request => exact h.expect now request
  | noticeStop => exact hsame (by simp [Connection.handle, noticeStop, h.untold])
  | writeFailed _ | expire _ | clean => cases calm

theorem Open.run (h : Open c inp) {events : List Event} (calm : ∀ e ∈ events, e.isCalm = true) :
    ∃ inp', Routed c (c.run events) inp' (inbound inp events) := by
  induction events generalizing c inp with
  | nil => exact ⟨inp, h.quiet .refl rfl⟩
  | cons e events ih =>
    have hfirst := h.handle (calm e List.mem_cons_self)
    have hlater : ∀ e ∈ events, e.isCalm = true := fun e he => calm e (List.mem_cons_of_mem _ he)
    have hstate := hfirst.state
    cases hcause : causeOf (inboundOf inp e).2 with
    | none =>
      rw [hcause] at hstate
      obtain ⟨inp', hrest⟩ := ih hstate hlater
      exact ⟨inp', hfirst.append (fun _ => hrest) (by simp [hcause])⟩
    | some cause =>
      rw [hcause] at hstate
      refine ⟨inp, hfirst.append (by simp [hcause]) fun _ _ => ?_⟩
      exact hstate.run fun e he => by
        rintro rfl
        cases hlater _ he

/-- However the bytes of some payloads come in, these payloads come in. -/
theorem inbound_midway {events : List Event} {payloads : List Bytes} {seen : Nat}
    (h : FrameReader.Midway inp payloads seen (events.flatMap Event.incoming))
    (unbroken : ∀ e ∈ events, ∀ error, e ≠ .readFailed error) :
    inbound inp events = payloads.map .payload := by
  induction events generalizing inp payloads seen with
  | nil =>
    cases payloads with
    | nil => rfl
    | cons p payloads =>
      have hrest := congrArg List.length h.rest
      have hseen := h.reader.2
      simp only [List.flatMap_cons, List.length_drop, List.length_append, List.flatMap_nil,
        List.length_nil] at hrest
      omega
  | cons e events ih =>
    have hlater : ∀ e ∈ events, ∀ error, e ≠ .readFailed error := fun e he =>
      unbroken e (List.mem_cons_of_mem _ he)
    rw [List.flatMap_cons] at h
    cases e with
    | arrived bytes =>
      obtain ⟨read, left, seen', rfl, hread, hleft⟩ := h.readAll
      rw [List.map_append, ← hread, ← ih hleft hlater]
      rfl
    | readFailed error => exact absurd rfl (unbroken _ List.mem_cons_self error)
    | _ => exact ih h hlater

/-- Where a call stands that waited when things began to come in. -/
theorem Routed.call (h : Routed c c' inp items) (sound : Sound c') {call : PendingCall}
    (hcall : call ∈ c.calls.pending) :
    c'.calls.outcome? (.waiting call.ticket) = fateOf items call.id ∧
      (call ∈ c'.calls.pending ↔ fateOf items call.id = none) := by
  have hfate := h.fate call hcall
  cases ho : fateOf items call.id with
  | some outcome =>
    rw [ho] at hfate
    have houtcome := sound.calls.outcome?_waiting.2 hfate
    refine ⟨houtcome, fun hwaits => ?_, nofun⟩
    cases houtcome.symm.trans (sound.calls.outcome?_pending hwaits)
  | none =>
    rw [ho] at hfate
    exact ⟨sound.calls.outcome?_pending hfate, fun _ => rfl, fun _ => hfate⟩

/-- **What comes in for the calls that wait.** On a connection that is identified let
anything come in, while no write fails, no deadline passes and nobody gives it up; calls
may be made meanwhile, and other bytes may go out. What comes in is what the bytes say:
payloads, and perhaps an end of the stream.

Each call that waits ends with the first answer that names it before something breaks the
connection, a payload that is no frame, a report that is fatal to the protocol or the
stream itself; or else it ends with that cause, and if there is none it goes on waiting,
and nobody else of those who waited. A connection that broke has failed for that cause,
and whatever comes in then changes nothing; otherwise it is still identified. A payload
that breaks nothing and answers no call that waits changes nothing at all. -/
theorem inbound_routed {remote : Address} {settings : ConnectionSettings}
    (h : Reachable remote settings c) (identified : c.handshake = .identified) :
    ∃ inp, c.reader? = some inp ∧
      (∀ events : List Event, (∀ e ∈ events, e.isCalm = true) →
        let items := inbound inp events
        let c' := c.run events
        (∀ call ∈ c.calls.pending,
          c'.calls.outcome? (.waiting call.ticket) = fateOf items call.id ∧
          (call ∈ c'.calls.pending ↔ fateOf items call.id = none)) ∧
        (∀ call ∈ c'.calls.pending, call.ticket < c.calls.issued → call ∈ c.calls.pending) ∧
        match causeOf items with
        | none => c'.handshake = .identified ∧ c'.lastError = none ∧ c'.calls.closed = none
        | some cause =>
          c'.handshake = .failed ∧ c'.lastError = some cause ∧ c'.calls.pending = [] ∧
            ∀ more : List Event, (∀ e ∈ more, e ≠ .clean) → c'.run more = c') ∧
      (∀ payload, (Inbound.payload payload).cause? = none →
        (∀ id outcome, (Inbound.payload payload).answer? = some (id, outcome) →
          c.calls.isPending id = false) →
        c.receive payload = c) ∧
      ∀ (events : List Event) (payloads : List Bytes), inp = .start →
        (∀ p ∈ payloads, p.length ≤ Framing.maxLength) →
        events.flatMap Event.incoming = payloads.flatMap Framing.framed →
        (∀ e ∈ events, ∀ error, e ≠ .readFailed error) →
        inbound inp events = payloads.map .payload := by
  obtain ⟨inp, hopen⟩ := h.open identified
  refine ⟨inp, hopen.reader?, fun events calm => ?_,
    fun payload harmless nobody => hopen.receive_idle harmless nobody, ?_⟩
  · intro items c'
    obtain ⟨inp', hrouted⟩ := hopen.run calm
    have hsound : Sound c' := (h.run events).sound
    refine ⟨fun call hcall => hrouted.call hsound hcall, fun call hcall hissued => ?_, ?_⟩
    · rcases hrouted.old call hcall with hold | hnew
      · exact hold
      · exact absurd hissued (Nat.not_lt.2 hnew)
    · have hstate := hrouted.state
      cases hcause : causeOf items with
      | none =>
        rw [hcause] at hstate
        exact ⟨hstate.handshake, hstate.lastError, hstate.closed⟩
      | some cause =>
        rw [hcause] at hstate
        exact ⟨hstate.handshake, hstate.lastError, hstate.calls.pending, fun more => hstate.run⟩
  · rintro events payloads rfl fits hbytes unbroken
    have hbetween := FrameReader.Midway.between fits
    rw [← hbytes] at hbetween
    exact inbound_midway hbetween unbroken

/-- Of two calls the first one is answered twice, with another frame between; then comes a
report that is fatal and names the second. -/
theorem answered_then_fatal :
    let identity : Identity := { hostPort := "127.0.0.1:4040", processName := "bank" }
    let request : Request Bytes := { service := "ledger", endpoint := "balance", body := [7] }
    let reply (body : Bytes) : Reply := { id := 1, headers := {}, transportHeaders := {}, body }
    let c := (Connection.dial (.v4 127 0 0 1 4040)
      { hostPort := "0.0.0.0:0", processName := "ledger", requestTimeout := .ofMillis 1000 }).run
        [.dialled, .wrote 1000, .arrived (frameBytes (.initResponse identity)),
          .expect 0 request, .expect 0 request]
    let later := c.run [.arrived
      (frameBytes (.callResponse (reply [1])) ++ frameBytes (.initResponse identity) ++
        frameBytes (.callResponse (reply [2])) ++
        frameBytes (.error { id := 2, kind := .fatalProtocolError, message := "lost" }))]
    c.handshake = .identified ∧
      later.calls.outcome? (.waiting 0) = some (.ok (.ofReply (reply [1]))) ∧
      later.calls.outcome? (.waiting 1) =
        some (.error (.network (.remote .fatalProtocolError "lost"))) := by
  intro identity request reply c later
  have identified : c.handshake = .identified := by decide +kernel
  obtain ⟨inp, hinp, hrun, -⟩ := inbound_routed (Reachable.dial.run _ : Reachable _ _ c) identified
  obtain rfl : FrameReader.start = inp :=
    Option.some.inj ((by decide +kernel : _ = c.reader?).trans hinp)
  obtain ⟨hcalls, -⟩ := hrun [.arrived _] (by simp [Event.isCalm])
  have hfirst := hcalls ⟨1, 0, .ofMillis 1000⟩ (by decide +kernel)
  have hsecond := hcalls ⟨2, 1, .ofMillis 1000⟩ (by decide +kernel)
  refine ⟨identified, hfirst.1.trans ?_, hsecond.1.trans ?_⟩
  · decide +kernel
  · decide +kernel

end Connection

end RpcClient
