/-
The timers of a connection. What happens to its table of calls at an instant is a
number of deeds (`Deed`), unless its timers go off; a call that waits goes on doing
so, or it ends, and it runs out of time only when its timer goes off
(`Deeds.ends`). Timers that go off touch nothing but the calls that are due
(`Expired`).
-/
import RpcClient.Proofs.Connection.Traffic

namespace RpcClient

/-- Whether a call has run out of time. -/
def Error.IsTimeout (error : Error) : Prop := ∃ id timeout, error = .requestTimeout id timeout

namespace CallTable

variable {t t' : CallTable} {now : Nat} {call : PendingCall} {due : Nat} {timely : Prop}

/-! ## What happens at an instant -/

/-- What may happen to a table at an instant, but for its timers. -/
inductive Deed (now : Nat) (t : CallTable) : CallTable → Prop
  | expect (request : Request Bytes) : Deed now t (t.expect now request).1
  | reply (reply : Reply) : Deed now t (t.handleReply reply).1
  | failure (report : FailureReport) : Deed now t (t.handleFailure report).1
  | failAll (cause : Error) : Deed now t (t.failAll cause).1
  | queue (queue : Option (List Frame)) : Deed now t { t with queue }

abbrev Deeds (now : Nat) : CallTable → CallTable → Prop := Relation.ReflTransGen (Deed now)

theorem Deed.step (d : Deed now t t') : Step t t' := by
  cases d with
  | expect request => exact .expect now request
  | reply reply => exact .complete reply.id _
  | failure report => exact .complete report.id _
  | failAll cause => exact .failAll cause
  | queue queue => exact .queue queue

theorem Deeds.steps (d : Deeds now t t') : Steps t t' := by
  induction d with
  | refl => exact .refl
  | tail _ last ih => exact ih.tail last.step

/-- A timer is set for no earlier than now. -/
def OnTime (t : CallTable) (now : Nat) : Prop := ∀ timer ∈ t.timers, now ≤ timer.due

theorem Deed.onTime (d : Deed now t t') (h : t.OnTime now) : t'.OnTime now := by
  cases d with
  | expect request =>
    rcases t.expect_cases now request with ⟨_, _, he⟩ | ⟨_, _, he⟩ | ⟨_, _, _, _, he⟩ |
      ⟨id, frames, _, _, _, he⟩ <;> rw [he]
    · exact h
    · exact h
    · exact h
    · intro timer htimer
      rcases List.mem_append.1 htimer with hold | hnew
      · exact h timer hold
      · rw [List.mem_singleton.1 hnew]
        exact Nat.le_add_right now _
  | reply reply => exact fun timer htimer => h timer ((t.complete_subset _ _).2 htimer)
  | failure report => exact fun timer htimer => h timer ((t.complete_subset _ _).2 htimer)
  | failAll cause => exact fun timer htimer => h timer (List.mem_filter.1 htimer).1
  | queue queue => exact h

theorem Deeds.onTime (d : Deeds now t t') (h : t.OnTime now) : t'.OnTime now := by
  induction d with
  | refl => exact h
  | tail _ last ih => exact last.onTime ih

/-! ## A call that waits, or has ended -/

/-- A call waits, or it has an outcome, and then `timely` if it has run out of time. -/
def Ends (t : CallTable) (call : PendingCall) (due : Nat) (timely : Prop) : Prop :=
  Waits t call due ∨
    ∃ outcome, (call.ticket, outcome) ∈ t.settled ∧
      ∀ error, outcome = .error error → error.IsTimeout →
        timely ∧ error = .requestTimeout call.id call.timeout

theorem Ends.mono {timely' : Prop} (h : t.Ends call due timely) (more : timely → timely') :
    t.Ends call due timely' := by
  rcases h with hwaits | ⟨outcome, hsettled, htimeout⟩
  · exact .inl hwaits
  · exact .inr ⟨outcome, hsettled, fun error he ht =>
      ⟨more (htimeout error he ht).1, (htimeout error he ht).2⟩⟩

/-- An outcome that is not a timeout. -/
theorem Ends.otherwise {outcome : Outcome Bytes}
    (h : (call.ticket, outcome) ∈ t.settled)
    (not : ∀ error, outcome = .error error → ¬ error.IsTimeout) : t.Ends call due timely :=
  .inr ⟨outcome, h, fun error he ht => absurd ht (not error he)⟩

/-- Under its own number a call ends, and under another it goes on waiting. -/
theorem Waits.ends_complete (w : Waits t call due) (h : Coherent t) (id : UInt32)
    {outcome : PendingCall → Outcome Bytes}
    (not : ∀ call error, outcome call = .error error → ¬ error.IsTimeout) :
    (t.complete id outcome).1.Ends call due timely := by
  have hcomplete := w.complete h id outcome
  by_cases hid : id = call.id
  · rw [if_pos hid] at hcomplete
    exact .otherwise hcomplete (not call)
  · rw [if_neg hid] at hcomplete
    exact .inl hcomplete

theorem Deed.ends (d : Deed now t t') (h : Coherent t) (w : Waits t call due) :
    t'.Ends call due False := by
  cases d with
  | expect request => exact .inl (w.expect now request)
  | reply reply => exact w.ends_complete h reply.id nofun
  | failure report =>
    refine w.ends_complete h report.id ?_
    rintro _ _ houtcome ⟨id, timeout, rfl⟩
    cases houtcome
  | failAll cause =>
    refine .otherwise (w.endAll (.error (.network cause))) ?_
    rintro _ houtcome ⟨id, timeout, rfl⟩
    cases houtcome
  | queue queue => exact .inl ⟨w.pending, w.timer⟩

/-- What happens at an instant lets a call wait or ends it, but not by its time. -/
theorem Deeds.ends (d : Deeds now t t') (h : Coherent t)
    (ends : t.Ends call due timely) : t'.Ends call due timely := by
  induction d with
  | refl => exact ends
  | tail before last ih =>
    rcases ih with hwaits | ⟨outcome, hsettled, htimeout⟩
    · exact (last.ends (h.steps (Deeds.steps before)) hwaits).mono False.elim
    · exact .inr ⟨outcome, last.step.settled_suffix.subset hsettled, htimeout⟩

/-! ## Timers that go off -/

/-- A call that waits when timers go off runs out of time if it is due. -/
theorem Ends.expireDue (ends : t.Ends call due timely) (h : Coherent t) (now : Nat)
    (out : Waits t call due → due ≤ now → timely) : (t.expireDue now).Ends call due timely := by
  rcases ends with hwaits | ⟨outcome, hsettled, htimeout⟩
  · have hexpire := hwaits.expireDue h now
    by_cases hdue : due ≤ now
    · rw [if_pos hdue] at hexpire
      exact .inr ⟨_, hexpire, fun error he _ => ⟨out hwaits hdue, (Except.error.inj he).symm⟩⟩
    · rw [if_neg hdue] at hexpire
      exact .inl hexpire
  · exact .inr ⟨outcome, (Steps.expireDue t now).settled_suffix.subset hsettled, htimeout⟩

theorem Coherent.timer_of_pending (h : Coherent t) (hcall : call ∈ t.pending) :
    ∃ due, Waits t call due := by
  have hid : call.id ∈ t.timers.map (·.id) := h.timers ▸ List.mem_map_of_mem hcall
  obtain ⟨timer, htimer, hid⟩ := List.mem_map.1 hid
  exact ⟨timer.due, hcall, hid ▸ htimer⟩

theorem expireEach_subset (t : CallTable) (timers : List Timer) :
    (t.expireEach timers).pending ⊆ t.pending ∧ (t.expireEach timers).timers ⊆ t.timers := by
  induction timers generalizing t with
  | nil => exact ⟨List.Subset.refl _, List.Subset.refl _⟩
  | cons timer timers ih =>
    have hfirst := t.complete_subset timer.id
      fun call => .error (.requestTimeout timer.id call.timeout)
    have hrest := ih (t.expire timer.id).1
    exact ⟨List.Subset.trans hrest.1 hfirst.1, List.Subset.trans hrest.2 hfirst.2⟩

/-- A table at an instant, before its timers go off and after that. -/
structure Expired (now : Nat) (t t' : CallTable) : Prop where
  /-- The calls that are due run out of time, and all others wait on. -/
  calls : ∀ call ∈ t.pending, ∃ due, ⟨call.id, due⟩ ∈ t.timers ∧
    if due ≤ now then
      t'.outcome? (.waiting call.ticket) = some (.error (.requestTimeout call.id call.timeout)) ∧
        ∀ other ∈ t'.pending, other.ticket ≠ call.ticket
    else call ∈ t'.pending ∧ ⟨call.id, due⟩ ∈ t'.timers
  pending : t'.pending ⊆ t.pending
  ended : ∀ handle outcome, t.outcome? handle = some outcome → t'.outcome? handle = some outcome
  queue : t'.queue = t.queue
  closed : t'.closed = t.closed

theorem Coherent.expireDue (h : Coherent t) (now : Nat) : Expired now t (t.expireDue now) := by
  have hsteps := Steps.expireDue t now
  have hcoherent := h.steps hsteps
  refine ⟨fun call hcall => ?_, (t.expireEach_subset _).1, fun handle outcome =>
    hsteps.outcome?_eq h, (t.expireDue_same now).queue, t.expireDue_closed now⟩
  obtain ⟨due, hwaits⟩ := h.timer_of_pending hcall
  have hexpire := hwaits.expireDue h now
  refine ⟨due, hwaits.timer, ?_⟩
  by_cases hdue : due ≤ now
  · rw [if_pos hdue] at hexpire ⊢
    have houtcome := hcoherent.outcome?_waiting.2 hexpire
    refine ⟨houtcome, fun other hother heq => ?_⟩
    have hnone := hcoherent.outcome?_pending hother
    rw [heq, houtcome] at hnone
    cases hnone
  · rw [if_neg hdue] at hexpire ⊢
    exact ⟨hexpire.pending, hexpire.timer⟩

/-- No timer is left that was due. -/
theorem Coherent.expireDue_timers (h : Coherent t) (now : Nat) {timer : Timer}
    (htimer : timer ∈ (t.expireDue now).timers) : now < timer.due := by
  refine Nat.lt_of_not_le fun hdue => ?_
  have hcoherent := h.steps (Steps.expireDue t now)
  -- A timer that is left has a call that waits, and this one would have ended.
  have hid : timer.id ∈ (t.expireDue now).pending.map (·.id) :=
    hcoherent.timers ▸ List.mem_map_of_mem htimer
  obtain ⟨call, hcall, hid⟩ := List.mem_map.1 hid
  have hwaits : Waits t call timer.due := ⟨(t.expireEach_subset _).1 hcall,
    by rw [hid]; exact (t.expireEach_subset _).2 htimer⟩
  have hexpire := hwaits.expireDue h now
  rw [if_pos hdue] at hexpire
  have hnone := hcoherent.outcome?_pending hcall
  rw [hcoherent.outcome?_waiting.2 hexpire] at hnone
  cases hnone

end CallTable

/-! ## Events of a connection -/

namespace Connection

variable {now : Nat}

theorem stop_deeds (c : Connection) (cause : Error) :
    CallTable.Deeds now c.calls (c.stop cause).calls :=
  .tail (.single (.queue none)) (.failAll cause)

theorem broken_deeds (c : Connection) (error : LinkError) :
    CallTable.Deeds now c.calls (c.broken error).calls := by
  unfold broken
  split
  · exact .refl
  · exact .refl
  · exact c.stop_deeds _

theorem withReader_calls (c : Connection) (inp : FrameReader) :
    (c.withReader inp).calls = c.calls := by
  unfold withReader
  split <;> rfl

theorem identify_deeds (c : Connection) (frame : Frame) :
    CallTable.Deeds now c.calls (c.identify frame).calls := by
  unfold identify
  split
  · split
    · exact .refl
    · exact c.stop_deeds _
  · exact c.stop_deeds _
  · exact c.stop_deeds _

theorem route_deeds (c : Connection) (frame : Frame) :
    CallTable.Deeds now c.calls (c.route frame).calls := by
  unfold route
  split
  · next reply => exact .single (.reply reply)
  · next report =>
    split
    · exact c.stop_deeds _
    · exact .single (.failure report)
  · exact .refl

theorem receive_deeds (c : Connection) (payload : Bytes) :
    CallTable.Deeds now c.calls (c.receive payload).calls := by
  unfold receive
  split
  · exact c.broken_deeds _
  · next frame _ =>
    split
    · exact c.identify_deeds frame
    · exact c.route_deeds frame
    · exact .refl

theorem arrived_deeds (c : Connection) (bytes : Bytes) :
    CallTable.Deeds now c.calls (c.arrived bytes).1.calls := by
  induction c, bytes using arrived.induct with
  | case1 c bytes hreader =>
    rw [arrived_deaf hreader]
  | case2 c bytes inp hreader inp' rest hread =>
    rw [arrived_part hreader hread, withReader_calls]
  | case3 c bytes inp hreader inp' payload rest hread _ ih =>
    rw [arrived_payload hreader hread]
    have hreceive : CallTable.Deeds now c.calls ((c.withReader inp').receive payload).calls := by
      rw [← c.withReader_calls inp']
      exact (c.withReader inp').receive_deeds payload
    exact hreceive.trans ih
  | case4 c bytes inp hreader inp' fault rest hread =>
    rw [arrived_fault hreader hread]
    exact c.broken_deeds _

theorem load_deeds (c : Connection) : CallTable.Deeds now c.calls c.load.calls := by
  unfold load
  split
  · split
    · split
      · next frame calls hnext =>
        obtain ⟨frames, -, rfl⟩ := CallTable.nextFrame?_eq_some hnext
        exact .single (.queue _)
      · exact .refl
    · exact .refl
  · exact .refl

theorem clean_deeds (c : Connection) : CallTable.Deeds now c.calls c.clean.calls := by
  unfold clean
  split
  · exact .refl
  · exact .single (.failAll _)

/-- An event at an instant is a number of deeds, unless timers go off. -/
theorem handle_deeds (c : Connection) {e : Event}
    (instant : ∀ n request, e = .expect n request → n = now) (calm : ∀ n, e ≠ .expire n) :
    CallTable.Deeds now c.calls (c.handle e).calls := by
  cases e with
  | dialled =>
    simp only [handle, dialled]
    split <;> exact .refl
  | dialFailed error =>
    simp only [handle, dialFailed]
    split
    · exact c.stop_deeds _
    · exact .refl
  | load => exact c.load_deeds
  | wrote count =>
    simp only [handle, wrote]
    split <;> exact .refl
  | writeFailed error =>
    simp only [handle]
    split
    · exact .refl
    · exact c.broken_deeds error
  | arrived bytes => exact c.arrived_deeds bytes
  | readFailed error =>
    simp only [handle]
    split
    · exact c.broken_deeds error
    · exact .refl
  | expect n request =>
    obtain rfl := instant n request rfl
    exact .single (.expect request)
  | expire n => exact absurd rfl (calm n)
  | clean => exact c.clean_deeds
  | noticeStop =>
    simp only [handle, noticeStop]
    split
    · exact c.stop_deeds _
    · exact .refl

end Connection

end RpcClient
