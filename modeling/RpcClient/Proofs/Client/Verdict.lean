/-
Who is told that a connection was not identified in time. Only a request is that has
become no call (`Reachable.connected`), and it has looked at a connection that had noted
no error: because that had been pending all the time and the time was over, or because
somebody else had given it up (`Connection.Reachable.explained`). In the second case no
time need have passed (`timeout_or_given_up`).
-/
import RpcClient.Proofs.Client.Send

namespace RpcClient

/-! ## Connections that have failed -/

namespace Connection

/-- What has failed has noted why, or it was given up, as long as only what was given up is told
to stop. -/
theorem Move.explained {c c' : Connection} (m : Move c c')
    (told : c.stopping = true → c.cleaned = true)
    (h : c.handshake = .failed → c.lastError = none → c.cleaned = true) :
    c'.handshake = .failed → c'.lastError = none → c'.cleaned = true := by
  cases m with
  | busy activity => exact h
  | calls steps closed => exact h
  | identify identity version activity =>
    have hfailed : (if c.handshake = .pending then Handshake.identified else c.handshake) = .failed →
        c.handshake = .failed := by
      cases c.handshake <;> simp
    exact fun h' => h (hfailed h')
  | fail error => exact fun _ hnone => by cases hnone
  | stop stopping => exact fun _ _ => told stopping
  | clean =>
    unfold Connection.clean
    split
    · exact h
    · exact fun _ _ => rfl

/-- A connection that has failed has noted why, or it was given up. -/
theorem Reachable.explained {remote : Address} {settings : ConnectionSettings} {c : Connection}
    (h : Reachable remote settings c) :
    c.handshake = .failed → c.lastError = none → c.cleaned = true := by
  induction h with
  | dial => exact nofun
  | @handle c e reach ih =>
    have hmoves := c.handle_moves e
    generalize c.handle e = c' at hmoves
    have hboth : (c'.stopping = true → c'.cleaned = true) ∧
        (c'.handshake = .failed → c'.lastError = none → c'.cleaned = true) := by
      induction hmoves with
      | refl => exact ⟨reach.told, ih⟩
      | tail _ last kept => exact ⟨last.told kept.1, last.explained kept.1 kept.2⟩
    exact hboth.2

end Connection

/-! ## Calls that were made -/

namespace CallTable

variable {t t' : CallTable} {now : Nat}

/-- No call has ended as if it had waited for its connection. -/
def Connected (t : CallTable) : Prop :=
  ∀ ticket limit, (ticket, .error (.connectionTimeout limit)) ∉ t.settled

theorem Connected.empty (usualTimeout : Duration) : Connected { usualTimeout } :=
  fun _ _ => List.not_mem_nil

theorem Connected.complete (h : t.Connected) (id : UInt32) {outcome : PendingCall → Outcome Bytes}
    (other : ∀ call limit, outcome call ≠ .error (.connectionTimeout limit)) :
    (t.complete id outcome).1.Connected := by
  unfold CallTable.complete
  split
  · exact h
  · next call _ =>
    intro ticket limit hentry
    rcases List.mem_cons.1 hentry with heq | hold
    · exact other call limit (Prod.mk.inj heq).2.symm
    · exact h ticket limit hold

theorem Connected.deed (h : t.Connected) (d : Deed now t t') : t'.Connected := by
  cases d with
  | expect request =>
    rcases t.expect_cases now request with ⟨_, _, he⟩ | ⟨_, _, he⟩ | ⟨_, _, _, _, he⟩ |
      ⟨_, _, _, _, _, he⟩ <;> rw [he]
    · exact h
    · exact h
    · intro ticket limit hentry
      rcases List.mem_cons.1 hentry with heq | hold
      · cases heq
      · exact h ticket limit hold
    · exact h
  | reply reply => exact h.complete reply.id nofun
  | failure report => exact h.complete report.id nofun
  | failAll cause =>
    intro ticket limit hentry
    rcases List.mem_append.1 hentry with hnew | hold
    · obtain ⟨call, -, heq⟩ := List.mem_map.1 (List.mem_reverse.1 hnew)
      cases heq
    · exact h ticket limit hold
  | queue queue => exact h

theorem Connected.deeds (h : t.Connected) (d : Deeds now t t') : t'.Connected := by
  induction d with
  | refl => exact h
  | tail _ last ih => exact ih.deed last

theorem Connected.expireDue (h : t.Connected) (now : Nat) : (t.expireDue now).Connected := by
  rw [expireDue_eq]
  generalize t.timers.filter (·.due ≤ now) = due
  induction due generalizing t with
  | nil => exact h
  | cons timer due ih => exact ih (h.complete timer.id nofun)

end CallTable

namespace Client

variable {c : Client} {e : Event} {k : ConnectionId} {d : DispatchId} {reader : ReplyReader}
  {w : Waiting} {near : Connection} {settings : Settings} {codecs : Codecs}

/-- A connection that has failed without an error was given up. -/
theorem Reachable.givenUp_of_failed (h : Reachable settings codecs c) (hfound : c.Links k near)
    (failed : near.handshake = .failed) (noted : near.lastError = none) : near.cleaned = true := by
  rcases hfound with hk | ⟨-, address, rfl⟩
  · obtain ⟨own, hreach⟩ := h.connection hk
    exact hreach.explained failed noted
  · cases failed

/-- No call of a client has ended as if it had waited for its connection. -/
theorem Reachable.connected (h : Reachable settings codecs c) (hfound : c.Links k near) :
    near.calls.Connected := by
  induction h generalizing near with
  | start =>
    rcases hfound with hk | ⟨-, address, rfl⟩
    · simp [Client.start] at hk
    · exact .empty _
  | @handle c e _ ih =>
    obtain ⟨near, events, hlinks, rfl, hdoes⟩ := handle_does hfound
    rcases hdoes.deeds near with hdeeds | ⟨-, htable⟩
    · exact (ih hlinks).deeds hdeeds
    · rw [htable]
      exact (ih hlinks).expireDue c.now

/-- Who is told so has become no call. -/
theorem Reachable.outcome?_wait (h : Reachable settings codecs c) {n : Ticket} {limit : Duration}
    (hd : c.dispatches[d]? = some ⟨reader, .sent k (.waiting n)⟩) :
    c.outcome? d ≠ some (.error (.connectionTimeout limit)) := by
  intro houtcome
  cases hk : c.connections[k]? with
  | none => simp [outcome?, hd, hk] at houtcome
  | some near =>
    rw [outcome?_sent hd hk] at houtcome
    obtain ⟨outcome, hanswer, hread⟩ := Option.map_eq_some_iff.1 houtcome
    rw [ReplyReader.read_error hread fun fault h => by cases h] at hanswer
    have hentry := mem_of_lookup_eq_some hanswer
    exact h.connected (.inl hk) n limit hentry

theorem report_wait {limit : Duration} :
    Waiting.report w near = .connectionTimeout limit ↔ near.lastError = none ∧ limit = w.limit := by
  unfold Waiting.report
  cases near.lastError with
  | none => simp [eq_comm]
  | some cause => simp

variable {c₀ c₁ : Client} {before events : List Event} {i : ServiceId} {out : Outgoing}
  {target : Option Address} {start : Nat}

theorem le_run_now (c : Client) (events : List Event) : c.now ≤ (c.run events).now := by
  induction events generalizing c with
  | nil => exact Nat.le_refl _
  | cons e events ih => exact Nat.le_trans (c.le_handle_now e) (ih (c.handle e))

/-- A request has waited in full for a connection: its time was over when it looked there, and
the connection had been pending in all states since the request came in. -/
structure WaitedOut (c₀ : Client) (before : List Event) (e : Event) (k : ConnectionId)
    (limit : Duration) (early : List Event) : Prop where
  elapsed : (c₀.run early).now = limit.after (c₀.run before).now
  pending : ∀ part, before ++ [e] <+: part → part <+: early →
    ∃ near, (c₀.run part).connections[k]? = some near ∧ near.handshake = .pending

/-- Who is told of a timeout has looked at a connection without an error. -/
theorem Fares.wait {progress : Progress} {limit : Duration} :
    let c₀ := Client.start settings codecs
    let c := c₀.run events
    Fares c₀ before events d w progress → c.dispatches[d]? = some ⟨reader, progress⟩ →
      c.outcome? d = some (.error (.connectionTimeout limit)) →
      limit = w.limit ∧ ∃ early near, Looked c₀ before events d w early near ∧
        near.lastError = none ∧ (near.handshake = .failed ∨
          near.handshake = .pending ∧ (c₀.run early).now = w.deadline) := by
  intro c₀ c h hd houtcome
  cases h with
  | @failed early near looked unidentified unusable =>
    rw [outcome?_failed hd] at houtcome
    have hreport := Except.error.inj (Option.some.inj houtcome)
    obtain ⟨hnone, hlimit⟩ := report_wait.1 hreport
    exact ⟨hlimit, early, near, looked, hnone, unidentified⟩
  | made looked identified soon entry =>
    have hreach : Reachable settings codecs c := Reachable.start.run events
    exact absurd houtcome (hreach.outcome?_wait hd)
  | searching looked identified soon full => simp [outcome?, hd, CallTable.outcome?] at houtcome
  | _ => simp [outcome?, hd] at houtcome

/-- **Timed out, or given up by somebody else.** After any run, a request that fails because
its connection was not identified in time has been told its whole initial timeout. When it
looked, the connection had either been pending in all states since the request came in and
the time was over just then; or the connection had noted no error, and somebody else had
given it up. Then the time counts for nothing: whoever waits for a connection
that was given up without an error is told of a timeout at the next look. -/
theorem timeout_or_given_up (settings : Settings) (codecs : Codecs) (before after : List Event)
    {d : DispatchId}
    (dispatched : ((Client.start settings codecs).run before).dispatch i out target start =
      .ok (c₁, d)) :
    let c₀ := Client.start settings codecs
    let e := Event.dispatch i out target start
    let events := before ++ e :: after
    let c := c₀.run events
    (∀ limit, c.outcome? d = some (.error (.connectionTimeout limit)) →
      limit = settings.initTimeout ∧ ∃ w early near, Looked c₀ before events d w early near ∧
        (WaitedOut c₀ before e w.connection limit early ∨
          near.cleaned = true ∧ near.lastError = none)) ∧
    (∀ reader w near, c.dispatches[d]? = some ⟨reader, .waiting w⟩ →
      c.connections[w.connection]? = some near → near.handshake = .failed →
      (∀ cause, near.lastError = some cause →
        (c.resume d).outcome? d = some (.error (.network cause))) ∧
      (near.lastError = none → near.cleaned = true ∧
        (c.resume d).outcome? d = some (.error (.connectionTimeout settings.initTimeout)))) := by
  intro c₀ e events c
  obtain ⟨reader, w, henters, ⟨near₁, hopened⟩, hfares⟩ := fares_run dispatched
  obtain ⟨progress, hd, hprogress⟩ := hfares after
  have hlimit : w.limit = settings.initTimeout := by
    rw [henters.limit, c₀.run_settings before]
    rfl
  refine ⟨fun limit houtcome => ?_, fun reader' w' near hwaiting hnear hfailed => ?_⟩
  · obtain ⟨rfl, early, near, hlooked, hnone, hunidentified⟩ := hprogress.wait hd houtcome
    refine ⟨hlimit, w, early, near, hlooked, ?_⟩
    have hreach : Reachable settings codecs (c₀.run early) := Reachable.start.run early
    rcases hunidentified with hfailed | ⟨hpending, hover⟩
    · exact .inr ⟨hreach.givenUp_of_failed hlooked.found hfailed hnone, hnone⟩
    · exact .inl ⟨hover.trans henters.deadline, fun part hafter hupTo =>
        hlooked.pending e hopened hpending hafter hupTo⟩
  · have hreach : Reachable settings codecs c := Reachable.start.run events
    obtain ⟨rfl, rfl⟩ := Dispatch.mk.inj (Option.some.inj (hd.symm.trans hwaiting))
    -- A request that waits still does so as it came in.
    cases hprogress with
    | waiting =>
      have hgivenUp := outcome?_failed (giveUp_self hwaiting hnear)
      rw [← resume_failed hwaiting hnear hfailed, Waiting.report] at hgivenUp
      refine ⟨fun cause hcause => ?_, fun hnone => ?_⟩
      · rw [hgivenUp, hcause]
      · rw [hgivenUp, hnone, hlimit]
        exact ⟨hreach.givenUp_of_failed (.inl hnear) hfailed hnone, rfl⟩

/-- A request for a balance, to an address where nobody answers. -/
def unanswered : Event := .dispatch 0 (.raw balanceRequest) (some (.v4 10 0 0 1 4040)) 0

/-- What happens before the second of two requests for one connection comes in, 60 ms after
the first. -/
def untilSecond : List Event := [.service "ledger" .outbound, unanswered, .advance 60]

/-- What happens then until both have failed. -/
def untilFirstTimeout : List Event := [.advance 100, .resume 0, .resume 1]

/-- The time of the first request is over after 100 ms; it gives the connection up, and the second
one, which came in 60 ms later, is told at the same instant that 100 ms are over. -/
theorem second_timeout_early :
    let c₀ := Client.start { initTimeoutMs := 100 } {}
    let c := c₀.run (untilSecond ++ unanswered :: untilFirstTimeout)
    (c₀.run untilSecond).dispatches.length = 1 ∧
      c.outcome? 1 = some (.error (.connectionTimeout (.ofMillis 100))) ∧
      c.now < (Duration.ofMillis 100).after (c₀.run untilSecond).now := by
  intro c₀ c
  exact ⟨by decide +kernel, failure?_eq_some.1 (by decide +kernel), by decide +kernel⟩

/-- It had not waited in full: the first one had given their connection up. -/
theorem second_timeout_given_up :
    let c₀ := Client.start { initTimeoutMs := 100 } {}
    let events := untilSecond ++ unanswered :: untilFirstTimeout
    ∃ c₁, (c₀.run untilSecond).dispatch 0 (.raw balanceRequest) (some (.v4 10 0 0 1 4040)) 0 =
        .ok (c₁, 1) ∧
      (c₀.run events).outcome? 1 = some (.error (.connectionTimeout (.ofMillis 100))) ∧
      ∃ w early near, Looked c₀ untilSecond events 1 w early near ∧ near.cleaned = true := by
  intro c₀ events
  have hnumber : ((c₀.run untilSecond).dispatch 0 (.raw balanceRequest)
      (some (.v4 10 0 0 1 4040)) 0).toOption.map (·.2) = some 1 := by decide +kernel
  have hok : ∃ c₁, (c₀.run untilSecond).dispatch 0 (.raw balanceRequest)
      (some (.v4 10 0 0 1 4040)) 0 = .ok (c₁, 1) := by
    revert hnumber
    cases (c₀.run untilSecond).dispatch 0 (.raw balanceRequest) (some (.v4 10 0 0 1 4040)) 0 with
    | error error => exact nofun
    | ok result =>
      obtain ⟨c₁, d⟩ := result
      intro hnumber
      obtain rfl : d = 1 := Option.some.inj hnumber
      exact ⟨c₁, rfl⟩
  obtain ⟨c₁, hdispatch⟩ := hok
  have houtcome : (c₀.run events).outcome? 1 =
      some (.error (.connectionTimeout (.ofMillis 100))) :=
    failure?_eq_some.1 (by decide +kernel)
  refine ⟨c₁, hdispatch, houtcome, ?_⟩
  obtain ⟨htold, -⟩ :=
    timeout_or_given_up { initTimeoutMs := 100 } {} untilSecond untilFirstTimeout hdispatch
  obtain ⟨-, w, early, near, hlooked, hwaited | ⟨hcleaned, -⟩⟩ := htold _ houtcome
  · obtain ⟨e, late, hevents, -⟩ := hlooked.turn
    have hlast : (c₀.run events).now = 100 := by decide +kernel
    have hover : (c₀.run early).now = 160 := hwaited.elapsed.trans (by decide +kernel)
    have hle : (c₀.run early).now ≤ (c₀.run events).now := by
      have hsplit : events = early ++ e :: late := hevents
      rw [hsplit, run_append]
      exact le_run_now _ _
    omega
  · exact ⟨w, early, near, hlooked, hcleaned⟩

/-- A shutdown in the middle of a wait is reported as a timeout, too. -/
example :
    let c := (Client.start { initTimeoutMs := 100 } {}).run (untilSecond ++ [.shutdown, .resume 0])
    (c.now, c.failure? 0) = (60, some (.connectionTimeout (.ofMillis 100))) := by
  decide +kernel

end Client

end RpcClient
