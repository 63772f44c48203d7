/-
What is queued for a request is what its caller asked for. A request becomes a call in just
one event (`exists_turn`), and its connection takes it then (`CallTable.Takes`): under a
number that no waiting call has, behind all frames that are queued, with a timer for the
whole of its timeout. The call that is queued there says what was sent
(`Service.prepare_becomes`), whatever has happened since (`Traced.takes`).
-/
import RpcClient.Proofs.Client.Prepared
import RpcClient.Proofs.Client.Send

namespace RpcClient

/-! ## Taking a call -/

namespace CallTable

/-- A table takes a call that is made at an instant, and comes to be another. -/
structure Takes (t : CallTable) (now : Nat) (call : Call) (timeout : Duration) (t' : CallTable) :
    Prop where
  fresh : t.isPending call.id = false
  queued : ∃ frames, t.queue = some frames ∧ t'.queue = some (frames ++ [.callRequest call])
  waits : t'.pending = t.pending ++ [⟨call.id, t.issued, timeout⟩]
  timed : t'.timers = t.timers ++ [⟨call.id, timeout.after now⟩]

theorem enter_takes {t : CallTable} {id : UInt32} {frames : List Frame} (now : Nat)
    (request : Request Bytes) (fresh : t.isPending id = false) (queue : t.queue = some frames) :
    let timeout := request.effectiveTimeout t.usualTimeout
    t.Takes now (request.toCall id timeout) timeout (t.enter now request id frames) :=
  ⟨fresh, ⟨frames, queue, rfl⟩, rfl, rfl⟩

end CallTable

namespace Client

variable {c c₁ : Client} {e : Event} {k : ConnectionId} {d : DispatchId} {n : Ticket}
  {reader : ReplyReader} {request : Request Bytes} {log log' : Logs}
  {sent heard : ConnectionId → Bytes}

/-! ## The event in which it happens -/

/-- What comes to hold in a run comes to hold in one event. -/
theorem exists_turn {P : Client → Prop} (events : List Event) (not : ¬ P c)
    (h : P (c.run events)) :
    ∃ early turn late, events = early ++ turn :: late ∧ ¬ P (c.run early) ∧
      P ((c.run early).handle turn) := by
  induction events generalizing c with
  | nil => exact absurd h not
  | cons e events ih =>
    by_cases now : P (c.handle e)
    · exact ⟨[], e, events, rfl, not, now⟩
    · obtain ⟨early, turn, late, rfl, hnot, hturn⟩ := ih now h
      exact ⟨e :: early, turn, late, rfl, hnot, hturn⟩

/-- A request that becomes a call looks at its connection. -/
theorem poised_of_sent (before : c.dispatches[d]? ≠ some ⟨reader, .sent k (.waiting n)⟩)
    (after : (c.handle e).dispatches[d]? = some ⟨reader, .sent k (.waiting n)⟩) :
    ∃ c₁, Poised c e d c₁ ∧ c.handle e = c₁.resume d := by
  by_cases hask : e.request? c = some d
  · rcases handle_poised hask with he | hpoised
    · exact absurd (he ▸ after) before
    · exact hpoised
  · rcases handle_unasked hask with hsame | ⟨_, _, -, habandoned⟩
    · exact absurd (hsame ▸ after) before
    · cases habandoned.symm.trans after

/-- A request that becomes a call is the one that was prepared, and is taken as such. -/
theorem Traced.takes (h : Traced c log sent heard) (poised : Poised c e d c₁)
    (he : c.handle e = c₁.resume d) (carries : c₁.Carries log' d request)
    (before : c.dispatches[d]? ≠ some ⟨reader, .sent k (.waiting n)⟩)
    (after : (c.handle e).dispatches[d]? = some ⟨reader, .sent k (.waiting n)⟩) :
    let usual := c.settings.requestTimeout
    ∃ near near' id, c.Links k near ∧ (c.handle e).connections[k]? = some near' ∧
      near.calls.issued = n ∧
      near.calls.Takes c.now (request.called usual id) (request.effectiveTimeout usual)
        near'.calls ∧
      (c.after log e k)[n]? = some ⟨some d, .callRequest (request.called usual id), c.now⟩ := by
  intro usual
  rcases poised.turn he with hsame | ⟨reader', w, near, hw, hnear, hgave⟩ |
    ⟨reader', w, near, hw, htries⟩
  · rw [hsame] at after
    rcases poised.self with hself | ⟨-, _, _, hself⟩
    · exact absurd (hself ▸ after) before
    · cases hself.symm.trans after
  · have hfailed := giveUp_self hw hnear
    rw [← hgave] at hfailed
    cases hfailed.symm.trans after
  · have hrequest : w.request = request := by
      obtain ⟨_, progress, hprogress, hwaiting, -⟩ := carries
      exact hwaiting w (Dispatch.mk.inj (Option.some.inj (hprogress.symm.trans hw))).2
    have hsent := htries.sent.symm.trans after
    simp only [Option.some.injEq, Dispatch.mk.injEq, Progress.sent.injEq] at hsent
    obtain ⟨-, rfl, hhandle⟩ := hsent
    rcases h.expect_cases htries.before c.now w.call with ⟨-, hnot⟩ |
      ⟨id, frames, hqueue, hfresh, hmade⟩
    · exact absurd hhandle (hnot n)
    · rw [hmade, Handle.waiting.injEq] at hhandle
      have hentry := (htries.entry h poised.request hqueue hmade).2.1
      have husual : near.calls.usualTimeout = usual := (h.account _ near htries.before).2.1
      have htakes := CallTable.enter_takes c.now w.call hfresh hqueue
      rw [husual] at htakes
      rw [hhandle, hrequest] at hentry
      refine ⟨near, _, id, htries.before, htries.after, hhandle, ?_, hentry⟩
      rw [← hrequest, Connection.handle, hmade]
      exact htakes

/-! ## A request that was dispatched -/

variable {settings : Settings} {codecs : Codecs} {before : List Event} {i : ServiceId}
  {out : Outgoing} {target : Option Address} {start : Nat} {s : Service}

/-- Whenever a request looks at its connection, it is the one that was prepared. -/
theorem carries_poised {part after late : List Event} {turn : Event} {c₂ : Client}
    (hs : ((Client.start settings codecs).run before).services[i]? = some s)
    (prepared : s.prepare out = .ok (request, reader))
    (dispatched :
      ((Client.start settings codecs).run before).dispatch i out target start = .ok (c₁, d))
    (split : .dispatch i out target start :: after = part ++ turn :: late)
    (poised : Poised ((Client.start settings codecs).run (before ++ part)) turn d c₂) :
    ∃ log, c₂.Carries log d request := by
  cases part with
  | nil =>
    obtain ⟨rfl, -⟩ := List.cons.inj split
    rw [List.append_nil] at poised
    exact ⟨fun _ => [], poised.carries hs prepared⟩
  | cons first part =>
    obtain ⟨rfl, -⟩ := List.cons.inj split
    exact ⟨_, (carries_run settings codecs before part hs prepared dispatched).poised poised⟩

/-- **What goes out is what was asked for.** A request that was sent through a service, and
has become a call after any run, did so in one event in which it looked at its connection.
There its call was queued behind all others, under a number that no waiting call had, and
its timer was set for its own timeout, or else for the usual one. The call says the service,
the endpoint and the headers of the request, and its body in bytes: those that were given,
or those that the codec makes of it that was registered last for the scheme. Of its
transport headers, the request has all as they are, but a service sets its name as the
caller's in all that is not sent plainly, a scheme that a body is encoded by is set over any
other, and one that is not named is raw. The time to live is the timeout in whole
milliseconds, as far as 32 bits go; so it is not longer than the timeout, and not over
after the timer goes off. A request that was built in steps asks what the last step for each
key says. -/
theorem queued_as_asked (settings : Settings) (registrations : List (Scheme × Codec))
    (before after : List Event)
    (dispatched : ((Client.start settings (.registered registrations)).run before).dispatch
      i out target start = .ok (c₁, d))
    (called : ((Client.start settings (.registered registrations)).run
        (before ++ .dispatch i out target start :: after)).dispatches[d]? =
      some ⟨reader, .sent k (.waiting n)⟩) :
    let c₀ := Client.start settings (.registered registrations)
    let events := before ++ .dispatch i out target start :: after
    let timeout := out.form.timeout.getD settings.requestTimeout
    ∃ s early turn late near near' call,
      (c₀.run before).services[i]? = some s ∧ s.caller = settings.serviceName ∧
      events = early ++ turn :: late ∧ before <+: early ∧
      turn.request? (c₀.run early) = some d ∧
      (c₀.run early).Links k near ∧
      ((c₀.run early).handle turn).connections[k]? = some near' ∧
      near.calls.issued = n ∧ near.calls.Takes (c₀.run early).now call timeout near'.calls ∧
      (c₀.log k events)[n]? = some ⟨some d, .callRequest call, (c₀.run early).now⟩ ∧
      out.Becomes registrations s.caller timeout call ∧
      (Duration.ofMillis call.ttlMs.toNat).nanos ≤ timeout.nanos ∧
      (c₀.run early).now + call.ttlMs.toNat ≤ timeout.after (c₀.run early).now ∧
      ∀ service endpoint steps, out.form = .build service endpoint steps () →
        out.form.Built service endpoint steps := by
  intro c₀ events timeout
  obtain ⟨s, request, reader', c₂, j, hs, hprepared, hrouted, -, -⟩ := dispatch_ok dispatched
  obtain ⟨hd, -⟩ := dispatch_poised dispatched
  have hterms := (Reachable.start.run before :
    Reachable settings (.registered registrations) (c₀.run before)).terms s
      (List.mem_of_getElem? hs)
  -- The request is new, so it became a call with the event in which it came in, or later.
  have hnew : (c₀.run before).dispatches[d]? ≠ some ⟨reader, .sent k (.waiting n)⟩ := by
    rw [hd, List.getElem?_eq_none (Nat.le_refl _)]
    exact (Option.some_ne_none _).symm
  have hrun : c₀.run events = (c₀.run before).run (.dispatch i out target start :: after) :=
    run_append _ _ _
  obtain ⟨part, turn, late, hsplit, hnot, hturn⟩ :=
    exists_turn (P := fun c => c.dispatches[d]? = some ⟨reader, .sent k (.waiting n)⟩)
      _ hnew (hrun ▸ called)
  rw [← run_append] at hnot hturn
  obtain ⟨c₃, hpoised, he⟩ := poised_of_sent hnot hturn
  obtain ⟨_, hcarries⟩ := carries_poised hs hprepared dispatched hsplit hpoised
  have htraced := traced_run settings (.registered registrations) (before ++ part)
  obtain ⟨near, near', id, hnear, hnear', hn, htakes, hentry⟩ :=
    htraced.takes hpoised he hcarries hnot hturn
  have hsettings : (c₀.run (before ++ part)).settings = settings := c₀.run_settings _
  rw [hsettings] at htakes hentry
  obtain ⟨htimeout, hbecomes⟩ := Service.prepare_becomes hprepared
    (congrArg (·.codecs) hterms) settings.requestTimeout id
  rw [htimeout] at htakes
  have hevents : events = (before ++ part) ++ turn :: late := by
    rw [List.append_assoc, ← hsplit]
  have hlog : (c₀.log k events)[n]? =
      some ⟨some d, .callRequest (request.called settings.requestTimeout id),
        (c₀.run (before ++ part)).now⟩ := by
    rw [hevents, log_turn, List.getElem?_append_left (List.getElem?_eq_some_iff.1 hentry).1]
    exact hentry
  have httl : (request.called settings.requestTimeout id).ttlMs.toNat ≤ timeout.millis := by
    rw [hbecomes.ttl]
    exact Nat.min_le_left _ _
  refine ⟨s, before ++ part, turn, late, near, near', _, hs, congrArg (·.caller) hterms, hevents,
    List.prefix_append _ _, hpoised.request, hnear, hnear', hn, htakes, hlog, hbecomes, ?_, ?_, ?_⟩
  · exact Nat.le_trans (Nat.mul_le_mul_right _ httl) (Nat.div_mul_le_self _ _)
  · exact Nat.add_le_add_left (Nat.le_trans httl timeout.millis_le_ceilMillis) _
  · rintro service endpoint steps hform
    rw [hform]
    exact Request.build_built service endpoint steps ()

/-- A transfer that is to be encoded. Its caller notes another scheme and another caller. -/
def transfer : Outgoing :=
  .encoded (.build "ledger" "transfer"
    [.header "note" "rent", .transport "as" "raw", .timeout ⟨5999999⟩, .transport "cn" "bank",
      .header "note" "deposit", .transport "sk" "7"] ⟨.bool, true⟩) .thrift .unit

/-- A transfer goes out in the codec that was registered last, under the name of its service,
and with the whole milliseconds of its timeout. -/
theorem transfer_queued :
    let c₀ := Client.start { serviceName := "teller" }
      (.registered [(.thrift, .binary), (.json, .binary), (.thrift, .json)])
    let events := [.service "ledger" .outbound] ++
      .dispatch 0 transfer (some (.v4 127 0 0 1 4040)) 0 :: introduction
    ∃ call time, (c₀.log 0 events)[0]? = some ⟨some 0, .callRequest call, time⟩ ∧
      call.service = "ledger" ∧ call.headers.find? "note" = some "deposit" ∧
      call.transportHeaders.find? "as" = some "thrift" ∧
      call.transportHeaders.find? "cn" = some "teller" ∧
      call.transportHeaders.find? "sk" = some "7" ∧
      Codec.json.encodeBody ⟨.bool, true⟩ = .ok call.body ∧ call.ttlMs.toNat = 5 := by
  intro c₀ events
  let c := c₀.run [.service "ledger" .outbound]
  let target : Address := .v4 127 0 0 1 4040
  have hrefusal : (c.services[0]?).map (·.refusal? transfer target) = some none := by
    decide +kernel
  obtain ⟨s, hs, hrefusal⟩ := Option.map_eq_some_iff.1 hrefusal
  have hfirst : c.dispatches.length = 0 := by decide +kernel
  obtain ⟨c₁, hdispatch, -⟩ := (Reachable.start.run _).send_accepted hs hrefusal 0
  rw [hfirst] at hdispatch
  have hplace : (c₀.run events).place? 0 0 = some 0 := by decide +kernel
  obtain ⟨⟨reader, progress⟩, hentry, hplace⟩ := Option.bind_eq_some_iff.1 hplace
  obtain rfl : progress = .sent 0 (.waiting 0) := Progress.place?_eq_some.1 hplace
  obtain ⟨own, early, turn, late, near, near', call, -, hcaller, -, -, -, -, -, -, -, hlog, hcall,
    -⟩ := queued_as_asked _ _ _ _ hdispatch hentry
  rw [hcaller] at hcall
  obtain ⟨codec, hcodec, hbody⟩ := hcall.body
  obtain rfl : Codec.json = codec := Option.some.inj (hcodec.symm.trans (by decide)).symm
  refine ⟨call, _, hlog, hcall.service, ?_, ?_, ?_, ?_, hbody, ?_⟩
  · rw [hcall.headers]
    decide
  · rw [hcall.transport]
    decide
  · rw [hcall.transport]
    decide
  · rw [hcall.transport]
    decide
  · rw [hcall.ttl]
    decide

end Client

end RpcClient
