/-
No call outlives its deadline. How a request stands after a run is said by `Goes`:
it waits up to its limit, has failed, or has become a call whose timer goes off when
its time is over (`Made`). Every event keeps that, and as nothing is ever overdue,
no request waits, and no call stands in a table, once its time is over and the
client has come to rest (`no_call_outlives_deadline`).
-/
import Mathlib.Data.List.Induction
import RpcClient.Proofs.Client.Clock

namespace RpcClient

/-- How long a caller lets a request take, if it says so. -/
def Outgoing.timeout : Outgoing → Option Duration
  | .plain request | .raw request => request.timeout
  | .encoded request _ _ => request.timeout

theorem Service.prepare_timeout {s : Service} {out : Outgoing} {request : Request Bytes}
    {reader : ReplyReader} (h : s.prepare out = .ok (request, reader)) :
    request.timeout = out.timeout := by
  cases out with
  | plain request' =>
    obtain ⟨rfl, -⟩ := Prod.mk.inj (Except.ok.inj h)
    rfl
  | raw request' =>
    obtain ⟨rfl, -⟩ := Prod.mk.inj (Except.ok.inj h)
    rfl
  | encoded request' scheme replyKind =>
    simp only [prepare] at h
    split at h
    · cases h
    · next codec _ =>
      split at h
      · cases h
      · next encoded hencode =>
        obtain ⟨rfl, -⟩ := Prod.mk.inj (Except.ok.inj h)
        simp only [Request.encode] at hencode
        cases hbody : codec.encodeBody request'.body with
        | error fault =>
          rw [hbody] at hencode
          cases hencode
        | ok bytes =>
          rw [hbody] at hencode
          obtain rfl := Except.ok.inj hencode
          rfl

/-- Reading an answer fails by itself only when that cannot be decoded. -/
theorem ReplyReader.read_error {reader : ReplyReader} {outcome : Outcome Bytes} {error : Error}
    (h : reader.read outcome = .error error) (decoded : ∀ fault, error ≠ .link (.codec fault)) :
    outcome = .error error := by
  cases outcome with
  | error cause => exact congrArg Except.error (Except.error.inj h)
  | ok response =>
    cases reader with
    | bytes => cases h
    | decoded codec kind =>
      simp only [read] at h
      split at h
      · cases h
      · next fault _ => exact absurd (Except.error.inj h).symm (decoded fault)

namespace Client

variable {c₀ c : Client} {e : Event} {events : List Event} {k : ConnectionId} {d : DispatchId}
  {settings : Settings} {codecs : Codecs}

/-! ## A call on its way -/

/-- A call has run out of time in a run: its timer went off at the very instant at which
it was due, and until then the call waited. -/
def RanOut (c₀ : Client) (events : List Event) (k : ConnectionId) (call : PendingCall)
    (due : Nat) : Prop :=
  ∃ early late near, events = early ++ .expire :: late ∧ (c₀.run early).now = due ∧
    (c₀.run early).connections[k]? = some near ∧ call ∈ near.calls.pending

theorem RanOut.more {call : PendingCall} {due : Nat} (h : RanOut c₀ events k call due)
    (more : List Event) : RanOut c₀ (events ++ more) k call due := by
  obtain ⟨early, late, near, rfl, hrest⟩ := h
  exact ⟨early, late ++ more, near, by simp, hrest⟩

/-- A call that was made waits, or it has ended, and in time. -/
def Made (c₀ : Client) (events : List Event) (k : ConnectionId) (call : PendingCall)
    (due : Nat) : Prop :=
  ∃ near, (c₀.run events).connections[k]? = some near ∧
    near.calls.Ends call due (RanOut c₀ events k call due)

theorem Made.handle {call : PendingCall} {due : Nat} (h : Made c₀ events k call due)
    (reach : Reachable settings codecs (c₀.run events)) (e : Event) :
    Made c₀ (events ++ [e]) k call due := by
  obtain ⟨near, hnear, hends⟩ := h
  have hrun : c₀.run (events ++ [e]) = (c₀.run events).handle e := run_append _ _ _
  obtain ⟨own, hown, hdoes⟩ := handle_near hnear e
  obtain ⟨_, hreach⟩ := reach.connection hnear
  have hcoherent := hreach.sound.calls
  have hmore := hends.mono (·.more [e])
  refine ⟨near.run own, by rw [hrun, hown], ?_⟩
  rcases hdoes.deeds near with hdeeds | ⟨rfl, htable⟩
  · exact hdeeds.ends hcoherent hmore
  · rw [htable]
    -- It goes off now and not later than it is due, for nothing is overdue.
    refine hmore.expireDue hcoherent (c₀.run events).now fun hwaits hdue => ?_
    have hnow := reach.timely.spares.timers near (List.mem_of_getElem? hnear) _ hwaits.timer
    exact ⟨events, [], near, rfl, Nat.le_antisymm hnow hdue, hnear, hwaits.pending⟩

/-! ## A request on its way -/

/-- How a request stands after a run that came in at an instant and may wait up to a
limit. -/
inductive Goes (c₀ : Client) (events : List Event) (request : Request Bytes) (since limit : Nat) :
    Progress → Prop
  | waiting {w : Waiting} (same : w.request = request) (deadline : w.deadline = limit) :
    Goes c₀ events request since limit (.waiting w)
  | failed {error : Error} (other : ¬ error.IsTimeout) :
    Goes c₀ events request since limit (.failed error)
  | refused {k : ConnectionId} {error : Error} (other : ¬ error.IsTimeout) :
    Goes c₀ events request since limit (.sent k (.failed error))
  | searching {k : ConnectionId} (full : ∃ early late near, events = early ++ late ∧
      (c₀.run early).connections[k]? = some near ∧ UInt32.size ≤ near.pendingCount) :
    Goes c₀ events request since limit (.sent k .searching)
  | made {k : ConnectionId} {n : Ticket} {r : Registration} {id : UInt32}
      (entry : (c₀.log k events)[n]? = some r) (later : since ≤ r.time) (soon : r.time ≤ limit)
      (frame : r.frame = .callRequest (request.called c₀.settings.requestTimeout id))
      (made : Made c₀ events k ⟨id, n, request.effectiveTimeout c₀.settings.requestTimeout⟩
        ((request.effectiveTimeout c₀.settings.requestTimeout).after r.time)) :
    Goes c₀ events request since limit (.sent k (.waiting n))
  | abandoned : Goes c₀ events request since limit .abandoned

variable {request : Request Bytes} {since limit : Nat}

/-- What holds of a request that does not wait holds after the next event. -/
theorem Goes.handle {progress : Progress} (h : Goes c₀ events request since limit progress)
    (reach : Reachable settings codecs (c₀.run events)) (e : Event) :
    Goes c₀ (events ++ [e]) request since limit progress := by
  cases h with
  | waiting same deadline => exact .waiting same deadline
  | failed other => exact .failed other
  | refused other => exact .refused other
  | searching full =>
    obtain ⟨early, late, near, rfl, hnear, hmany⟩ := full
    exact .searching ⟨early, late ++ [e], near, by simp, hnear, hmany⟩
  | made entry later soon frame made =>
    refine .made ?_ later soon frame (made.handle reach e)
    rw [log_append, List.getElem?_append_left (List.getElem?_eq_some_iff.1 entry).1, entry]
  | abandoned => exact .abandoned

theorem not_timeout_report (w : Waiting) (near : Connection) :
    ¬ (Waiting.report w near).IsTimeout := by
  unfold Waiting.report
  rintro ⟨id, timeout, h⟩
  split at h <;> cases h

/-- A connection has all numbers taken only if it is open. -/
theorem Links.full {near : Connection} (h : c.Links k near)
    (full : UInt32.size ≤ near.pendingCount) : c.connections[k]? = some near := by
  rcases h with hk | ⟨-, address, rfl⟩
  · exact hk
  · exact absurd full (Nat.not_le.2 (by decide : 0 < UInt32.size))

/-- How a request stands that has looked at its connection. -/
theorem Poised.goes {settings : Settings} {codecs : Codecs} {c₁ : Client}
    {reader : ReplyReader} {w : Waiting} {events : List Event} :
    let c₀ := Client.start settings codecs
    let c := c₀.run events
    Poised c e d c₁ → c.handle e = c₁.resume d →
      c₁.dispatches[d]? = some ⟨reader, .waiting w⟩ → w.request = request → w.deadline = limit →
      since ≤ c.now → c.now ≤ limit →
      ∃ reader progress, (c.handle e).dispatches[d]? = some ⟨reader, progress⟩ ∧
        Goes c₀ (events ++ [e]) request since limit progress := by
  intro c₀ c poised he hd hrequest hlimit hlater hsoon
  rcases poised.turn he with he | ⟨reader', w', near, hw, hnear, he⟩ |
    ⟨reader', w', near, hw, htries⟩
  · exact ⟨reader, .waiting w, by rw [he, hd], .waiting hrequest hlimit⟩
  · exact ⟨reader', _, by rw [he, giveUp_self hw hnear], .failed (not_timeout_report w' near)⟩
  · obtain ⟨-, hprogress⟩ := Dispatch.mk.inj (Option.some.inj (hd.symm.trans hw))
    obtain rfl := Progress.waiting.inj hprogress
    have htraced : Traced c _ _ _ := traced_run settings codecs events
    obtain ⟨haccount, -, -⟩ := htraced.account w.connection near htries.before
    refine ⟨reader', _, htries.sent, ?_⟩
    rcases near.calls.expect_cases c.now w.call with ⟨cause, -, hmade⟩ | ⟨-, hfree, hmade⟩ |
      ⟨id, hopen, -, hqueue, -⟩ | ⟨id, frames, -, -, hqueue, hmade⟩
    · rw [hmade]
      refine .refused ?_
      rintro ⟨id, timeout, h⟩
      cases h
    · rw [hmade]
      have hfull := CallTable.freeId?_eq_none hfree
      exact .searching ⟨events, [e], near, rfl, htries.before.full hfull, hfull⟩
    -- Without a queue the table is closed, and then the first case applies.
    · have hclosed := haccount.closed hqueue
      simp [CallTable.isClosed, hopen] at hclosed
    · obtain ⟨-, hentry, -⟩ := htries.entry htraced poised.request hqueue hmade
      have hsettings : c.settings = c₀.settings := c₀.run_settings events
      have husual := (htraced.account w.connection near htries.before).2.1
      have hlog : c.after (c₀.log · events) e w.connection =
          c₀.log w.connection (events ++ [e]) := by
        rw [log_append, Client.after]
        simp [log, collect, c]
      rw [hlog, hsettings, hrequest] at hentry
      rw [hmade]
      refine .made hentry hlater hsoon rfl ?_
      have hrun : c₀.run (events ++ [e]) = c.handle e := run_append _ _ _
      refine ⟨_, by rw [hrun, htries.after], .inl ?_⟩
      have htime : w.call.effectiveTimeout near.calls.usualTimeout =
          request.effectiveTimeout c₀.settings.requestTimeout := by
        rw [husual, hsettings, ← hrequest]
        rfl
      rw [Connection.handle, hmade, ← htime]
      constructor <;> simp [CallTable.enter]

theorem le_handle_now (c : Client) (e : Event) : c.now ≤ (c.handle e).now := by
  by_cases hadvance : ∃ time, e = .advance time
  · obtain ⟨time, rfl⟩ := hadvance
    simp only [Client.handle, advance]
    split
    · next may =>
      simp only [Bool.and_eq_true, decide_eq_true_iff] at may
      exact may.1.2
    · exact Nat.le_refl _
  · exact Nat.le_of_eq (handle_now fun time he => hadvance ⟨time, he⟩).symm

/-- A request goes on as it should after a run. -/
def Underway (c₀ : Client) (events : List Event) (d : DispatchId) (request : Request Bytes)
    (since limit : Nat) : Prop :=
  since ≤ (c₀.run events).now ∧
    ∃ reader progress, (c₀.run events).dispatches[d]? = some ⟨reader, progress⟩ ∧
      Goes c₀ events request since limit progress

theorem Underway.handle (h : Underway (.start settings codecs) events d request since limit)
    (e : Event) : Underway (.start settings codecs) (events ++ [e]) d request since limit := by
  obtain ⟨hlater, reader, progress, hd, hgoes⟩ := h
  have hreach : Reachable settings codecs _ := Reachable.start.run events
  have hmore := hgoes.handle hreach e
  rw [Underway, run_append]
  refine ⟨Nat.le_trans hlater (le_handle_now _ e), ?_⟩
  cases hgoes with
  | waiting same deadline =>
    by_cases hask : e.request? ((Client.start settings codecs).run events) = some d
    · rcases handle_poised hask with he | ⟨c₁, hpoised, he⟩
      · exact ⟨reader, _, (congrArg (·.dispatches[d]?) he).trans hd, hmore⟩
      · rcases hpoised.self with hself | ⟨hnone, -⟩
        · have hsoon := hreach.timely.spares.waiting d reader _ hd
          rw [deadline] at hsoon
          exact hpoised.goes he (hself.trans hd) same deadline hlater hsoon
        · cases hd.symm.trans hnone
    · rcases handle_unasked hask with hsame | ⟨reader', w', -, habandoned⟩
      · exact ⟨reader, _, hsame.trans hd, hmore⟩
      · exact ⟨reader', _, habandoned, .abandoned⟩
  | _ => exact ⟨reader, _, handle_settled hd nofun, hmore⟩

/-- A request that is dispatched goes on as it should. -/
theorem underway_dispatch {i : ServiceId} {out : Outgoing} {target : Option Address} {start : Nat}
    {c₁ : Client} :
    let c₀ := Client.start settings codecs
    let c := c₀.run events
    c.dispatch i out target start = .ok (c₁, d) →
      ∃ request : Request Bytes, request.timeout = out.timeout ∧
        Underway c₀ (events ++ [.dispatch i out target start]) d request c.now
          (settings.initTimeout.after c.now) := by
  intro c₀ c hok
  have hreach : Reachable settings codecs c := Reachable.start.run events
  have he : c.handle (.dispatch i out target start) = c₁ := handle_dispatch hok
  obtain ⟨-, c₂, hpoised, hresume⟩ := dispatch_poised hok
  have hwaits : ∃ request reader w, request.timeout = out.timeout ∧
      c₂.dispatches[d]? = some ⟨reader, .waiting w⟩ ∧ w.request = request ∧
        w.deadline = settings.initTimeout.after c.now := by
    cases hpoised with
    | @dispatch _ _ _ _ s request reader _ j hs prepared routed =>
      refine ⟨request, reader, _, s.prepare_timeout prepared, List.getElem?_concat_length, rfl, ?_⟩
      rw [(route_opens routed).now, hreach.timely.limits s (List.mem_of_getElem? hs),
        c₀.run_settings events]
      rfl
  obtain ⟨request, reader, w, htimeout, hd, hrequest, hlimit⟩ := hwaits
  refine ⟨request, htimeout, ?_, ?_⟩
  · rw [run_append]
    exact c.le_handle_now (.dispatch i out target start)
  · rw [run_append]
    exact hpoised.goes (he.trans hresume.symm) hd hrequest hlimit (Nat.le_refl _)
      (Nat.le_add_right _ _)

theorem underway_run {i : ServiceId} {out : Outgoing} {target : Option Address} {start : Nat}
    {c₁ : Client} (before after : List Event) :
    let c₀ := Client.start settings codecs
    let c := c₀.run before
    c.dispatch i out target start = .ok (c₁, d) →
      ∃ request : Request Bytes, request.timeout = out.timeout ∧
        Underway c₀ (before ++ .dispatch i out target start :: after) d request c.now
          (settings.initTimeout.after c.now) := by
  intro c₀ c hok
  obtain ⟨request, htimeout, hstart⟩ := underway_dispatch hok
  refine ⟨request, htimeout, ?_⟩
  -- On the events after it, from the last one: what has been noted so far is kept.
  induction after using List.reverseRecOn with
  | nil => exact hstart
  | append_singleton after e ih =>
    have hnext := ih.handle e
    rwa [List.append_assoc, List.cons_append] at hnext

/-! ## Deadlines -/

/-- An instant is over when a later one has come, or nothing is left to be done at it. -/
def IsOver (c : Client) (time : Nat) : Prop := time < c.now ∨ time ≤ c.now ∧ c.isQuiet = true

theorem IsOver.not_spares {time : Nat} (passed : c.IsOver time) (timely : Timely c) :
    ∃ due, time < due ∧ c.Spares due := by
  rcases passed with hpast | ⟨hnow, hquiet⟩
  · exact ⟨c.now, hpast, timely.spares⟩
  · exact ⟨c.now + 1, Nat.lt_succ_of_le hnow, (isQuiet_iff.1 hquiet).2⟩

/-- Only a request that has become a call runs out of time as one. -/
theorem Goes.sent_of_timeout {reader : ReplyReader} {progress : Progress} {error : Error}
    (h : Goes c₀ events request since limit progress)
    (hd : c.dispatches[d]? = some ⟨reader, progress⟩)
    (houtcome : c.outcome? d = some (.error error)) (timeout : error.IsTimeout) :
    ∃ k n, progress = .sent k (.waiting n) := by
  cases h with
  | failed other =>
    rw [outcome?_failed hd] at houtcome
    exact absurd timeout (Except.error.inj (Option.some.inj houtcome) ▸ other)
  | @refused k cause other =>
    cases hk : c.connections[k]? with
    | none => simp [outcome?, hd, hk] at houtcome
    | some near =>
      rw [outcome?_sent hd hk, CallTable.outcome?, Option.map_some] at houtcome
      exact absurd timeout (Except.error.inj (Option.some.inj houtcome) ▸ other)
  | made entry later soon frame made => exact ⟨_, _, rfl⟩
  | searching full => simp [outcome?, hd, CallTable.outcome?] at houtcome
  | _ => simp [outcome?, hd] at houtcome

theorem not_waiting {reader : ReplyReader} {progress : Progress}
    (hd : c.dispatches[d]? = some ⟨reader, progress⟩) (settled : ∀ w, progress ≠ .waiting w) :
    c.isWaiting d = false := by
  unfold isWaiting
  split
  · next w hw => exact absurd (Dispatch.mk.inj (Option.some.inj (hd.symm.trans hw))).2 (settled w)
  · rfl

/-- A request does not wait once its limit is over. -/
theorem Goes.returned {reader : ReplyReader} {progress : Progress}
    (h : Goes c₀ events request since limit progress)
    (hd : c.dispatches[d]? = some ⟨reader, progress⟩) (timely : Timely c)
    (passed : c.IsOver limit) : c.isWaiting d = false := by
  cases h with
  | waiting same deadline =>
    obtain ⟨later, hlt, hspares⟩ := passed.not_spares timely
    have hle := hspares.waiting d reader _ hd
    rw [deadline] at hle
    exact absurd hle (Nat.not_le.2 hlt)
  | _ => exact not_waiting hd nofun

/-- A call whose time is over has an outcome and stands in the table no more. -/
theorem Made.passed {call : PendingCall} {due : Nat} {reader : ReplyReader}
    (h : Made c₀ events k call due) (reach : Reachable settings codecs (c₀.run events))
    (hd : (c₀.run events).dispatches[d]? = some ⟨reader, .sent k (.waiting call.ticket)⟩)
    (passed : (c₀.run events).IsOver due) :
    ((c₀.run events).outcome? d).isSome = true ∧
      ∀ near, (c₀.run events).connections[k]? = some near →
        ∀ other ∈ near.calls.pending, other.ticket ≠ call.ticket := by
  obtain ⟨near, hnear, hends⟩ := h
  obtain ⟨later, hlt, hspares⟩ := passed.not_spares reach.timely
  obtain ⟨_, hreach⟩ := reach.connection hnear
  have hcoherent := hreach.sound.calls
  rcases hends with hwaits | ⟨outcome, hsettled, -⟩
  · have hle := hspares.timers near (List.mem_of_getElem? hnear) _ hwaits.timer
    exact absurd hle (Nat.not_le.2 hlt)
  · have houtcome := hcoherent.outcome?_waiting.2 hsettled
    refine ⟨by simp [outcome?_sent hd hnear, houtcome], fun near' hnear' other hother heq => ?_⟩
    obtain rfl := Option.some.inj (hnear.symm.trans hnear')
    have hnone := hcoherent.outcome?_pending hother
    rw [heq, houtcome] at hnone
    cases hnone

/-- A call that has run out of time has done so at the right instant. -/
theorem Made.timeout {call : PendingCall} {due : Nat} {reader : ReplyReader} {error : Error}
    (h : Made c₀ events k call due) (reach : Reachable settings codecs (c₀.run events))
    (hd : (c₀.run events).dispatches[d]? = some ⟨reader, .sent k (.waiting call.ticket)⟩)
    (houtcome : (c₀.run events).outcome? d = some (.error error)) (timeout : error.IsTimeout) :
    RanOut c₀ events k call due ∧ error = .requestTimeout call.id call.timeout := by
  obtain ⟨near, hnear, hends⟩ := h
  obtain ⟨_, hreach⟩ := reach.connection hnear
  have hcoherent := hreach.sound.calls
  rw [outcome?_sent hd hnear] at houtcome
  obtain ⟨outcome, hanswer, hread⟩ := Option.map_eq_some_iff.1 houtcome
  have hdecoded : ∀ fault, error ≠ .link (.codec fault) := by
    rintro fault rfl
    obtain ⟨id, time, htimeout⟩ := timeout
    cases htimeout
  rw [ReplyReader.read_error hread hdecoded] at hanswer
  rcases hends with hwaits | ⟨outcome, hsettled, htimeout⟩
  · cases hanswer.symm.trans (hcoherent.outcome?_pending hwaits.pending)
  · have hsame := hanswer.symm.trans (hcoherent.outcome?_waiting.2 hsettled)
    exact htimeout error (Option.some.inj hsame).symm timeout

/-- **No call outlives its deadline.** After any run, a request that was dispatched
does not wait for its connection any more, once the instant is over at which its
initial timeout ends; and the search for a number of its own ends unless all numbers
are taken. If it has become a call, then once the time is over that its caller or else
the settings give it, it has an outcome and no entry in the table. It runs out of time
only with its own number and time, when its timer goes off, at the very instant at
which it is due, and only if it still stands in the table then. Timers that go off
leave everything else as it is, connections included. And any instant is reached, at
rest, whatever the other sides do or do not do. -/
theorem no_call_outlives_deadline (settings : Settings) (codecs : Codecs) :
    let c₀ := Client.start settings codecs
    (∀ before i out target start after c₁ d,
      let asked := c₀.run before
      let events := before ++ .dispatch i out target start :: after
      let c := c₀.run events
      let limit := settings.initTimeout.after asked.now
      let timeout := out.timeout.getD settings.requestTimeout
      asked.dispatch i out target start = .ok (c₁, d) →
        (c.IsOver limit → c.isWaiting d = false) ∧
        (∀ reader k, c.dispatches[d]? = some ⟨reader, .sent k .searching⟩ →
          ∃ early late near, events = early ++ late ∧
            (c₀.run early).connections[k]? = some near ∧ UInt32.size ≤ near.pendingCount) ∧
        (∀ (k : ConnectionId) (n : Ticket) (r : Registration),
          (c₀.log k events)[n]? = some r → r.request = some d →
          asked.now ≤ r.time ∧ r.time ≤ limit ∧ ∃ call, r.frame = .callRequest call ∧
            let due := timeout.after r.time
            (c.IsOver due → (c.outcome? d).isSome = true ∧
              ∀ near, c.connections[k]? = some near → ∀ other ∈ near.calls.pending,
                other.ticket ≠ n) ∧
            (∀ id time, c.outcome? d = some (.error (.requestTimeout id time)) →
              id = call.id ∧ time = timeout ∧ RanOut c₀ events k ⟨id, n, time⟩ due)) ∧
        (∀ id time, c.outcome? d = some (.error (.requestTimeout id time)) →
          ∃ (k : ConnectionId) (n : Ticket) (r : Registration),
            (c₀.log k events)[n]? = some r ∧ r.request = some d)) ∧
    (∀ events (k : ConnectionId) near,
      let c := c₀.run events
      c.connections[k]? = some near →
        ∃ calls, c.expireDue.connections[k]? = some { near with calls } ∧
          CallTable.Expired c.now near.calls calls) ∧
    (∀ events time, (c₀.run events).now ≤ time → ∃ more : List Event, (∀ e ∈ more, e.IsOwn) ∧
      (c₀.run (events ++ more)).now = time ∧ (c₀.run (events ++ more)).isQuiet = true) := by
  intro c₀
  refine ⟨?_, ?_, fun events time htime => ?_⟩
  · intro before i out target start after c₁ d asked events c limit timeout hok
    have hreach : Reachable settings codecs c := Reachable.start.run events
    have htraced : Traced c _ _ _ := traced_run settings codecs events
    obtain ⟨request, htimeout, -, reader, progress, hd, hgoes⟩ := underway_run before after hok
    have htime : request.effectiveTimeout c₀.settings.requestTimeout = timeout := by
      rw [Request.effectiveTimeout, htimeout]
      rfl
    refine ⟨hgoes.returned hd hreach.timely, fun reader' k hsearching => ?_,
      fun k n r hr hrequest => ?_, fun id time houtcome => ?_⟩
    · obtain ⟨-, rfl⟩ := Dispatch.mk.inj (Option.some.inj (hd.symm.trans hsearching))
      cases hgoes with
      | searching full => exact full
    · obtain ⟨reader', hsent⟩ := htraced.owner k n r d hr hrequest
      obtain ⟨-, rfl⟩ := Dispatch.mk.inj (Option.some.inj (hd.symm.trans hsent))
      cases hgoes with
      | made entry later soon frame made =>
        obtain rfl := Option.some.inj (hr.symm.trans entry)
        rw [htime] at made
        refine ⟨later, soon, _, frame, made.passed hreach hd, fun id time houtcome => ?_⟩
        obtain ⟨hranOut, hsame⟩ := made.timeout hreach hd houtcome ⟨id, time, rfl⟩
        obtain ⟨rfl, rfl⟩ := Error.requestTimeout.inj hsame
        exact ⟨rfl, rfl, hranOut⟩
    · obtain ⟨k, n, rfl⟩ := hgoes.sent_of_timeout hd houtcome ⟨id, time, rfl⟩
      obtain ⟨r, hr⟩ := htraced.entry d reader k n hd
      exact ⟨k, n, r, hr⟩
  · intro events k near c hk
    obtain ⟨own, hreach⟩ := (Reachable.start.run events).connection hk
    exact ⟨_, by simp [expireDue, hk], hreach.sound.calls.expireDue c.now⟩
  · obtain ⟨more, hown, hnow, hquiet⟩ := exists_passed (Reachable.start.run events) htime
    exact ⟨more, hown, by rw [run_append, hnow], by rw [run_append, hquiet]⟩

/-- The other side introduces itself and is silent then: the call is out of time after
its 20 ms, and the connection is still of use. -/
example :
    let identity : Identity := { hostPort := "127.0.0.1:4040", processName := "bank" }
    let request : Request Bytes :=
      { service := "ledger", endpoint := "balance", timeout := some (.ofMillis 20), body := [7] }
    let c := (Client.start {} {}).run
      [.service "ledger" .outbound, .dispatch 0 (.plain request) (some (.v4 127 0 0 1 4040)) 0,
        .stream 0 .dialled, .stream 0 (.wrote 1000),
        .stream 0 (.arrived (Connection.frameBytes (.initResponse identity))), .resume 0,
        .advance 30, .advance 20, .expire, .advance 30]
    (c.now, (c.outcome? 0).isSome,
        c.connections.map fun near => (near.isUsable, near.pendingCount)) =
      (30, true, [(true, 0)]) := by
  decide +kernel

end Client

end RpcClient
