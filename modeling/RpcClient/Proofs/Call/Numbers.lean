/-
The numbers of calls, until they come round. Each call that is made uses up the next
number, whether it is registered or fails for want of a queue, and nothing else uses up
one (`Numbered.handle`). So the n-th call has the number n, no call has the next one,
and the search for a free number ends where it begins. Numbers go up only, so what comes
under the number of a call that has ended finds nothing, now or later
(`numbers_never_return`).
-/
import RpcClient.Proofs.Call.Books

namespace RpcClient.CallTable

variable {t t' : CallTable} {ids : List UInt32} {id : UInt32}

/-! ## Tables that take no call -/

/-- Calls may have ended and frames may have left the queue, and no call has been made. -/
structure Dwindles (t t' : CallTable) : Prop where
  pending : t'.pending ⊆ t.pending
  queue : (t'.queue.getD []).length ≤ (t.queue.getD []).length
  nextId : t'.nextId = t.nextId
  issued : t'.issued = t.issued

theorem Dwindles.refl (t : CallTable) : Dwindles t t := ⟨fun _ h => h, Nat.le_refl _, rfl, rfl⟩

theorem Dwindles.trans {t'' : CallTable} (h : Dwindles t t') (h' : Dwindles t' t'') :
    Dwindles t t'' :=
  ⟨List.Subset.trans h'.pending h.pending, Nat.le_trans h'.queue h.queue, h'.nextId.trans h.nextId,
    h'.issued.trans h.issued⟩

theorem complete_dwindles (t : CallTable) (id : UInt32) (outcome : PendingCall → Outcome Bytes) :
    Dwindles t (t.complete id outcome).1 := by
  refine ⟨(t.complete_subset id outcome).1, ?_, ?_, ?_⟩ <;>
  · unfold complete
    split <;> simp

theorem expireEach_dwindles (t : CallTable) (timers : List Timer) :
    Dwindles t (t.expireEach timers) := by
  induction timers generalizing t with
  | nil => exact .refl t
  | cons timer timers ih => exact (t.complete_dwindles timer.id _).trans (ih _)

theorem endAll_dwindles (t : CallTable) (outcome : Outcome Bytes) (closed : Option Error) :
    Dwindles t { t.endAll outcome with closed } :=
  ⟨List.nil_subset _, Nat.le_refl _, rfl, rfl⟩

theorem takeFrames_dwindles (t : CallTable) : Dwindles t t.takeFrames.1 := by
  unfold takeFrames
  split
  · exact .refl t
  · exact ⟨fun _ h => h, Nat.zero_le _, rfl, rfl⟩

/-- Whatever happens but a call. -/
theorem Clocked.handle_dwindles (s : Clocked) {e : Event} (h : ∀ request, e ≠ .expect request) :
    Dwindles s.table (s.handle e).table := by
  unfold handle
  split
  · exact .refl _
  cases e with
  | expect request => exact absurd rfl (h request)
  | reply reply => exact s.table.complete_dwindles reply.id _
  | failure report => exact s.table.complete_dwindles report.id _
  | pass ms => exact s.table.expireEach_dwindles _
  | failAll cause => exact s.table.endAll_dwindles _ _
  | takeFrames => exact s.table.takeFrames_dwindles
  | dropQueue => exact ⟨fun _ h => h, Nat.zero_le _, rfl, rfl⟩
  | dropHandle _ => exact .refl _
  | discard => exact s.table.endAll_dwindles _ s.table.closed

/-! ## The next number -/

/-- The numbers that have been used up are those from 1 on, in their order, and each call that
waits has the one of its ticket. -/
structure Numbered (t : CallTable) (ids : List UInt32) : Prop where
  order : ids.map UInt32.toNat = List.range' 1 ids.length
  nextId : t.nextId.toNat = ids.length + 1
  issued : t.issued = ids.length
  calls : ∀ call ∈ t.pending, ids[call.ticket]? = some call.id

theorem Numbered.start (usualTimeout : Duration) : Numbered { usualTimeout } [] where
  order := rfl
  nextId := rfl
  issued := rfl
  calls := by simp

/-- The number of the n-th call, counted from zero. -/
theorem Numbered.toNat_eq (h : Numbered t ids) {n : Nat} (hn : ids[n]? = some id) :
    id.toNat = n + 1 := by
  have hlt : n < ids.length := (List.getElem?_eq_some_iff.1 hn).1
  have hmap : (ids.map UInt32.toNat)[n]? = some id.toNat := by simp [hn]
  rw [h.order, List.getElem?_range' hlt, Option.some.injEq] at hmap
  omega

theorem Numbered.lt_nextId (h : Numbered t ids) (hid : id ∈ ids) : id < t.nextId := by
  obtain ⟨n, hn⟩ := List.getElem?_of_mem hid
  have hlt : n < ids.length := (List.getElem?_eq_some_iff.1 hn).1
  rw [UInt32.lt_iff_toNat_lt, h.toNat_eq hn, h.nextId]
  omega

theorem Numbered.increasing (h : Numbered t ids) : ids.Pairwise (· < ·) := by
  have hsorted : (ids.map UInt32.toNat).Pairwise (· < ·) := h.order ▸ List.pairwise_lt_range'
  exact (List.pairwise_map.1 hsorted).imp fun hlt => UInt32.lt_iff_toNat_lt.2 hlt

/-- No call has the next number, -/
theorem Numbered.nextId_free (h : Numbered t ids) : t.isPending t.nextId = false := by
  rw [isPending_eq_false]
  intro hmem
  obtain ⟨call, hcall, hid⟩ := List.mem_map.1 hmem
  have hlt := h.lt_nextId (List.mem_of_getElem? (h.calls call hcall))
  rw [hid] at hlt
  exact UInt32.lt_irrefl _ hlt

/-- and so the search for a free one ends with its first try. -/
theorem Numbered.freeFrom? (h : Numbered t ids) (tries : Nat) :
    t.freeFrom? (tries + 1) t.nextId = some t.nextId := by
  simp [CallTable.freeFrom?, h.nextId_free]

theorem Numbered.freeId? (h : Numbered t ids) : t.freeId? = some t.nextId := h.freeFrom? _

/-- A number that was used up and that no call has any more is never given to another. -/
theorem Numbered.stays_free {more : List UInt32} (h : Numbered t ids)
    (h' : Numbered t' (ids ++ more)) (s : Steps t t') (used : id ∈ ids)
    (free : t.isPending id = false) : t'.isPending id = false := by
  rw [isPending_eq_false] at free ⊢
  intro hmem
  obtain ⟨call, hcall, rfl⟩ := List.mem_map.1 hmem
  -- Its ticket was given out before, so the call waited then.
  obtain ⟨n, hn⟩ := List.getElem?_of_mem used
  have hlt : n < ids.length := (List.getElem?_eq_some_iff.1 hn).1
  have hticket := h'.toNat_eq (h'.calls call hcall)
  have hnumber := h.toNat_eq hn
  rcases s.newcomer hcall with hold | hnew
  · exact free (List.mem_map_of_mem hold)
  · rw [h.issued] at hnew
    omega

/-- A table that is open gives a call the next number, whether anybody sends its frame or not. -/
theorem Numbered.expect_open (h : Numbered t ids) (hopen : t.closed = none) (now : Nat)
    (request : Request Bytes) :
    (t.queue = none ∧ t.expect now request = (t.refuse t.nextId, .waiting t.issued)) ∨
    (∃ frames, t.queue = some frames ∧
      t.expect now request = (t.enter now request t.nextId frames, .waiting t.issued)) := by
  cases hqueue : t.queue with
  | none => exact .inl ⟨rfl, by simp [expect, hopen, h.freeId?, hqueue, refuse]⟩
  | some frames => exact .inr ⟨frames, rfl, by simp [expect, hopen, h.freeId?, hqueue, enter]⟩

/-- What a call that is made does to the next number, and what its caller is told. -/
theorem Numbered.made (h : Numbered t ids) (now : Nat) (request : Request Bytes) :
    (t.isClosed = true → (t.expect now request).1 = t) ∧
    (t.isClosed = false →
      (t.expect now request).1.nextId = t.nextId + 1 ∧
      (t.expect now request).2 = .waiting ids.length ∧
      (t.queue = none → (t.expect now request).1.pending = t.pending ∧
        (t.expect now request).1.outcome? (.waiting ids.length) =
          some (.error (.network .linkClosed)))) := by
  rw [← h.issued]
  constructor
  · intro hclosed
    obtain ⟨cause, hcause⟩ := Option.isSome_iff_exists.1 hclosed
    simp [expect, hcause]
  · intro hclosed
    have hopen : t.closed = none := by simpa [isClosed] using hclosed
    rcases h.expect_open hopen now request with ⟨-, he⟩ | ⟨frames, hqueue, he⟩ <;> rw [he]
    · exact ⟨rfl, rfl, fun _ => ⟨rfl, by simp [refuse, outcome?]⟩⟩
    · refine ⟨rfl, rfl, fun hnone => ?_⟩
      cases hqueue.symm.trans hnone

/-! ## One event -/

theorem Numbered.dwindles (h : Numbered t ids) (d : Dwindles t t') : Numbered t' ids where
  order := h.order
  nextId := d.nextId ▸ h.nextId
  issued := d.issued.trans h.issued
  calls call hcall := h.calls call (d.pending hcall)

/-- A call more, which may wait or have failed. -/
theorem Numbered.next (h : Numbered t ids) (few : ids.length + 1 < UInt32.size - 1)
    (nextId : t'.nextId = t.nextId + 1) (issued : t'.issued = t.issued + 1)
    (pending : ∀ call ∈ t'.pending,
      call ∈ t.pending ∨ call.id = t.nextId ∧ call.ticket = t.issued) :
    Numbered t' (ids ++ [t.nextId]) := by
  have hlength : (ids ++ [t.nextId]).length = ids.length + 1 := List.length_append
  constructor
  · rw [List.map_append, h.order, hlength, List.range'_1_concat, List.map_singleton, h.nextId,
      Nat.add_comm 1]
  · have hsize : ids.length + 1 + 1 < UInt32.size := by omega
    rw [nextId, UInt32.toNat_add, h.nextId, hlength]
    exact Nat.mod_eq_of_lt hsize
  · rw [issued, h.issued, hlength]
  · intro call hcall
    rcases pending call hcall with hold | ⟨hid, hticket⟩
    · have hcalls := h.calls call hold
      rw [List.getElem?_append_left (List.getElem?_eq_some_iff.1 hcalls).1, hcalls]
    · rw [hticket, h.issued, List.getElem?_concat_length, hid]

/-- A call that is made uses up the next number, unless the table is closed. -/
theorem Numbered.spends? {s : Clocked} (h : Numbered s.table ids) (request : Request Bytes) :
    s.spends? (.expect request) =
      if s.discarded || s.table.isClosed then none else some s.table.nextId := by
  rw [Clocked.spends?, h.freeId?]

theorem Numbered.expect {s : Clocked} (h : Numbered s.table ids) (request : Request Bytes)
    (few : (ids ++ (s.spends? (.expect request)).toList).length < UInt32.size - 1) :
    Numbered (s.handle (.expect request)).table (ids ++ (s.spends? (.expect request)).toList) := by
  rw [h.spends? request] at few ⊢
  by_cases hgone : s.discarded = true
  · simpa [Clocked.handle, hgone] using h
  have alive : s.discarded = false := by simpa using hgone
  have htable : (s.handle (.expect request)).table = (s.table.expect s.now request).1 := by
    simp [Clocked.handle, alive]
  rw [htable]
  cases hclosed : s.table.closed with
  | some cause =>
    have hshut : s.table.isClosed = true := by simp [isClosed, hclosed]
    rw [(h.made s.now request).1 hshut]
    simpa [hshut] using h
  | none =>
    simp only [alive, isClosed, hclosed, Option.isSome_none, Bool.or_self, Bool.false_eq_true,
      if_false, Option.toList_some, List.length_append, List.length_singleton] at few ⊢
    rcases h.expect_open hclosed s.now request with ⟨-, he⟩ | ⟨frames, -, he⟩ <;> rw [he]
    · exact h.next few rfl rfl fun call hcall => .inl hcall
    · refine h.next few rfl rfl fun call hcall => ?_
      rcases List.mem_append.1 hcall with hold | hnew
      · exact .inl hold
      · rw [List.mem_singleton.1 hnew]
        exact .inr ⟨rfl, rfl⟩

theorem Numbered.handle {s : Clocked} (h : Numbered s.table ids) (e : Event)
    (few : (ids ++ (s.spends? e).toList).length < UInt32.size - 1) :
    Numbered (s.handle e).table (ids ++ (s.spends? e).toList) := by
  cases e with
  | expect request => exact h.expect request few
  | _ =>
    simp only [Clocked.spends?, Option.toList_none, List.append_nil]
    exact h.dwindles (s.handle_dwindles (by simp))

theorem Numbered.run {s : Clocked} (h : Numbered s.table ids) (events : List Event)
    (few : (ids ++ s.spent events).length < UInt32.size - 1) :
    Numbered (s.run events).table (ids ++ s.spent events) := by
  induction events generalizing s ids with
  | nil => simpa [Clocked.run, Clocked.spent] using h
  | cons e events ih =>
    rw [Clocked.spent, ← List.append_assoc] at few ⊢
    have hfirst : (ids ++ (s.spends? e).toList).length < UInt32.size - 1 := by
      rw [List.length_append] at few
      omega
    exact ih (h.handle e hfirst) few

namespace Clocked

theorem numbered_run (usualTimeout : Duration) (events : List Event)
    (few : ((start usualTimeout).spent events).length < UInt32.size - 1) :
    Numbered ((start usualTimeout).run events).table ((start usualTimeout).spent events) := by
  have hstart : Numbered (start usualTimeout).table [] := .start usualTimeout
  simpa using hstart.run events few

theorem spent_append (s : Clocked) (before after : List Event) :
    s.spent (before ++ after) = s.spent before ++ (s.run before).spent after := by
  induction before generalizing s with
  | nil => rfl
  | cons e before ih =>
    rw [List.cons_append, spent, ih, spent, List.append_assoc]
    rfl

/-! ## Calls and frames -/

/-- A call that is registered has the number that is used up for it. -/
theorem entered_spends (s : Clocked) (e : Event) :
    ((s.entered e).map (·.call.id)).Sublist (s.spends? e).toList := by
  cases e with
  | expect request =>
    cases hregisters : s.registers (.expect request) with
    | false => simp [entered, entryOf?, hregisters]
    | true =>
      have hopen : (s.discarded || s.table.isClosed) = false := by
        simp only [registers, Bool.and_eq_true, Bool.not_eq_true'] at hregisters
        simp [hregisters.1.1.1, hregisters.1.1.2]
      simp only [entered, entryOf?, hregisters, if_true, spends?, hopen, Bool.false_eq_true,
        if_false]
      cases s.table.freeId? <;> simp
  | _ => simp [entered]

theorem log_spent (s : Clocked) (events : List Event) :
    ((s.log events).map (·.call.id)).Sublist (s.spent events) := by
  induction events generalizing s with
  | nil => exact List.nil_sublist _
  | cons e events ih =>
    rw [log, spent, List.map_append]
    exact (s.entered_spends e).append (ih _)

/-- Each call that is registered, and nothing else, puts one frame into the queue, under its
number. -/
theorem queued_entered (s : Clocked) (e : Event) :
    (s.queued e).map Frame.id? = (s.entered e).map fun entry => some entry.call.id := by
  by_cases hgone : s.discarded = true
  · have hentered : s.entered e = [] := by
      cases e <;> simp [entered, entryOf?, registers, hgone]
    simp [queued, handle, hgone, hentered]
  have alive : s.discarded = false := by simpa using hgone
  cases e with
  | expect request =>
    have htable : (s.handle (.expect request)).table = (s.table.expect s.now request).1 := by
      simp [handle, alive]
    have hmade := expect_of_entryOf? alive request
    rw [queued, htable]
    cases hentry : s.entryOf? request with
    | none =>
      have hsame := (expect_of_not_entered alive hentry).2.2.2
      simp [hsame, entered, hentry]
    | some entry =>
      rw [hentry] at hmade
      obtain ⟨frames, hqueue, -, -, hexpect⟩ := hmade
      simp [hexpect, enter, hqueue, entered, hentry, Frame.id?, Request.toCall]
  | _ =>
    rw [queued]
    exact congrArg (List.map Frame.id?)
      (List.drop_of_length_le (s.handle_dwindles (by simp)).queue)

theorem allQueued_log (s : Clocked) (events : List Event) :
    (s.allQueued events).map Frame.id? = (s.log events).map fun entry => some entry.call.id := by
  induction events generalizing s with
  | nil => rfl
  | cons e events ih =>
    rw [allQueued, log, List.map_append, List.map_append, s.queued_entered, ih]

/-- **No number comes twice.** In a run that uses up fewer numbers than there are, but for one, the
n-th call that is made has the number n. The next number is above all that were used up, and so
above those of all calls that wait; the search for a free number ends with its first try, and no
two calls of the run have one number. Their frames come into the queue in the order of their
numbers. A call that is made next uses up none if the table is closed, and one if it is not, even
where nobody sends the queue. What comes under a number that was used up by a call which waits no
more, be it a reply, a failure report or a timer, changes nothing, however much later it comes. -/
theorem numbers_never_return (usualTimeout : Duration) (events : List Event)
    (few : ((start usualTimeout).spent events).length < UInt32.size - 1) :
    let s := (start usualTimeout).run events
    let ids := (start usualTimeout).spent events
    let registered := ((start usualTimeout).log events).map (·.call.id)
    ids.map UInt32.toNat = List.range' 1 ids.length ∧
    s.table.nextId.toNat = ids.length + 1 ∧
    (∀ id ∈ ids, id < s.table.nextId) ∧
    (∀ call ∈ s.table.pending, call.id < s.table.nextId) ∧
    s.table.freeFrom? 1 s.table.nextId = some s.table.nextId ∧
    s.table.freeId? = some s.table.nextId ∧
    registered.Sublist ids ∧ registered.Pairwise (· < ·) ∧
    ((start usualTimeout).allQueued events).map Frame.id? = registered.map some ∧
    (∀ request,
      let made := s.table.expect s.now request
      (s.table.isClosed = true → made.1 = s.table) ∧
      (s.table.isClosed = false →
        made.1.nextId = s.table.nextId + 1 ∧ made.2 = .waiting ids.length ∧
        (s.table.queue = none → made.1.pending = s.table.pending ∧
          made.1.outcome? (.waiting ids.length) = some (.error (.network .linkClosed))))) ∧
    (∀ early late, events = early ++ late → ∀ id ∈ (start usualTimeout).spent early,
      ((start usualTimeout).run early).table.isPending id = false →
      (∀ reply, reply.id = id → s.table.handleReply reply = (s.table, false)) ∧
      (∀ report, report.id = id → s.table.handleFailure report = (s.table, false)) ∧
      s.table.expire id = (s.table, false)) := by
  intro s ids registered
  have numbered : Numbered s.table ids := numbered_run usualTimeout events few
  have hsub : registered.Sublist ids := (start usualTimeout).log_spent events
  refine ⟨numbered.order, numbered.nextId, fun id hid => numbered.lt_nextId hid,
    fun call hcall => ?_, numbered.freeFrom? 0, numbered.freeId?, hsub,
    numbered.increasing.sublist hsub, ?_, fun request => numbered.made s.now request,
    fun early late hsplit id hid hfree => ?_⟩
  · exact numbered.lt_nextId (List.mem_of_getElem? (numbered.calls call hcall))
  · rw [allQueued_log, List.map_map]
    rfl
  · have hids : ids = (start usualTimeout).spent early ++
        ((start usualTimeout).run early).spent late := by
      rw [← spent_append, ← hsplit]
    have hrun : s = ((start usualTimeout).run early).run late := by
      rw [← run_append, ← hsplit]
    have hfew : ((start usualTimeout).spent early).length < UInt32.size - 1 := by
      have hall : ids.length < UInt32.size - 1 := few
      rw [hids, List.length_append] at hall
      omega
    have hsteps : Steps ((start usualTimeout).run early).table s.table := by
      rw [hrun]
      exact run_steps _ late
    have hgone : s.table.isPending id = false :=
      (numbered_run usualTimeout early hfew).stays_free (hids ▸ numbered) hsteps hid hfree
    refine ⟨fun reply hreply => ?_, fun report hreport => ?_, complete_of_not_pending hgone⟩
    · exact complete_of_not_pending (hreply ▸ hgone)
    · exact complete_of_not_pending (hreport ▸ hgone)

/-- A reply comes twice; when it comes again, another call waits, and goes on waiting. The third
call has failed for want of a queue, and its number is used up, too. -/
theorem duplicate_reply_finds_nothing :
    let request : Request Bytes := { service := "ledger", endpoint := "balance", body := [] }
    let reply : Reply := { id := 1, headers := ∅, transportHeaders := ∅, body := [7] }
    let events : List Event :=
      [.expect request, .reply reply, .expect request, .dropQueue, .expect request]
    let s := (start (.ofMillis 20)).run events
    ((start (.ofMillis 20)).spent events).length < UInt32.size - 1 ∧
      s.table.nextId = 4 ∧ s.table.isPending 2 = true ∧
      s.table.handleReply reply = (s.table, false) ∧ s.table.expire 3 = (s.table, false) := by
  intro request reply events s
  have hfew : ((start (.ofMillis 20)).spent events).length < UInt32.size - 1 := by decide
  obtain ⟨-, hnext, -, -, -, -, -, -, -, -, hlate⟩ :=
    numbers_never_return (.ofMillis 20) events hfew
  have hspent : ((start (.ofMillis 20)).spent events).length = 3 := by decide
  rw [hspent] at hnext
  obtain ⟨hreply, -, -⟩ := hlate [.expect request, .reply reply]
    [.expect request, .dropQueue, .expect request] rfl 1 (by decide) (by decide)
  obtain ⟨-, -, hexpire⟩ := hlate events [] (List.append_nil events).symm 3 (by decide) (by decide)
  exact ⟨hfew, UInt32.toNat_inj.1 hnext, by decide, hreply reply rfl, hexpire⟩

end Clocked

end RpcClient.CallTable
