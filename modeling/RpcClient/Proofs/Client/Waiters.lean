/-
Those who wait for a connection while it breaks. Each connection of a client goes
through what happens at its stream (`course_run`), so it ends its greeting as that
decides; and if this ends with an error, all requests that wait for the connection
fail with just this error, whoever looks first (`Doomed.handle`).
-/
import RpcClient.Proofs.Client.Traffic
import RpcClient.Proofs.Connection.Greeting

namespace RpcClient

namespace Connection

/-- Of what happens to a connection, only what is at its stream counts for its
greeting. -/
theorem Opening.run_filter (greeting : Bytes) (o : Opening) (events : List Event) :
    o.run greeting (events.filter Client.ofStream) = o.run greeting events := by
  induction events generalizing o with
  | nil => rfl
  | cons e events ih =>
    cases hown : Client.ofStream e with
    | true =>
      rw [List.filter_cons_of_pos hown]
      exact ih _
    | false =>
      rw [List.filter_cons_of_neg (by simp [hown]), ih]
      have hsame : o.after greeting e = o := by
        cases e <;> first | (cases o <;> rfl) | cases hown
      exact congrArg (fun o => Opening.run greeting o events) hsame.symm

end Connection

namespace Client

variable {c c' : Client} {e : Event} {k : ConnectionId} {d : DispatchId}

/-! ## The course of a connection -/

/-- A connection goes through the events at its stream, and through others that are
not of its stream. -/
theorem Does.streamed {events : List Connection.Event} (h : Does c e k events) :
    events.filter ofStream = c.streamed k e := by
  have hother : ∀ event, e.isStream = false → ofStream event = false →
      [event].filter ofStream = c.streamed k e := by
    intro event still hevent
    rw [List.filter_cons_of_neg (by simp [hevent])]
    cases e with
    | stream i event => cases still
    | _ => rfl
  cases h with
  | nothing still =>
    cases e with
    | stream i event =>
      by_cases hi : i = k
      · subst hi
        rcases still event rfl with hown | hnone
        · simp [Client.streamed, hown]
        · simp [Client.streamed, hnone]
      · simp [Client.streamed, hi]
    | _ => rfl
  | stream event he own opened =>
    subst he
    simp [Client.streamed, own, opened]
  | expire he => exact hother _ (by rw [he]; rfl) rfl
  | clean still => exact hother _ still rfl
  | expect still request => exact hother _ still rfl

theorem course_run (settings : Settings) (codecs : Codecs) (events : List Event) :
    let c₀ := Client.start settings codecs
    ∀ k near, (c₀.run events).Links k near → ∃ remote own,
      near = (Connection.dial remote c₀.connectionSettings).run own ∧
        own.filter ofStream = c₀.course k events := by
  intro c₀
  -- Along the run, with any course so far: the induction starts anew after each event.
  suffices hgeneral : ∀ (c : Client) (course : ConnectionId → List Connection.Event),
      c.settings = settings →
      (∀ k near, c.Links k near → ∃ remote own,
        near = (Connection.dial remote c₀.connectionSettings).run own ∧
          own.filter ofStream = course k) →
      ∀ k near, (c.run events).Links k near → ∃ remote own,
        near = (Connection.dial remote c₀.connectionSettings).run own ∧
          own.filter ofStream = course k ++ c.course k events by
    refine fun k near hlinks =>
      hgeneral c₀ (fun _ => []) rfl (fun k near hlinks => ?_) k near hlinks
    rcases hlinks with hk | ⟨-, address, rfl⟩
    · simp [c₀, Client.start] at hk
    · exact ⟨address, [], rfl, rfl⟩
  induction events with
  | nil =>
    intro c course _ h k near hlinks
    simpa [Client.course, collect] using h k near hlinks
  | cons e events ih =>
    intro c course hsettings h k near hlinks
    have hrest := ih (c.handle e) (fun k => course k ++ c.streamed k e)
      ((c.handle_moves e).settings.trans hsettings) (fun k near' hlinks' => ?_) k near hlinks
    · simpa [Client.course, collect] using hrest
    · obtain ⟨near, more, hnear, rfl, hdoes⟩ := handle_does hlinks'
      obtain ⟨remote, own, rfl, hcourse⟩ := h k near hnear
      refine ⟨remote, own ++ more, (Connection.run_append _ _ _).symm, ?_⟩
      rw [List.filter_append, hcourse, hdoes.streamed]

/-! ## Those who wait -/

/-- A request that has waited for a connection which has broken goes on waiting for
no longer than until it looks at that. -/
structure Doomed (c : Client) (d : DispatchId) (reader : ReplyReader) (w : Waiting)
    (error : Error) : Prop where
  failed : ∃ near, c.connections[w.connection]? = some near ∧ near.handshake = .failed ∧
    near.lastError = some error
  stands : c.dispatches[d]? = some ⟨reader, .waiting w⟩ ∨
    c.dispatches[d]? = some ⟨reader, .abandoned⟩ ∨
    c.dispatches[d]? = some ⟨reader, .failed (.network error)⟩

variable {reader : ReplyReader} {w : Waiting} {error : Error}

theorem resume_failed {near : Connection} (hd : c.dispatches[d]? = some ⟨reader, .waiting w⟩)
    (hnear : c.connections[w.connection]? = some near) (failed : near.handshake = .failed) :
    c.resume d = c.giveUp d w := by
  simp [resume, hd, hnear, failed]

/-- One that looks at it fails with the error that broke the connection. -/
theorem Doomed.resume (h : Doomed c d reader w error)
    (hd : c.dispatches[d]? = some ⟨reader, .waiting w⟩) :
    (c.resume d).dispatches[d]? = some ⟨reader, .failed (.network error)⟩ := by
  obtain ⟨near, hnear, hfailed, hlast⟩ := h.failed
  rw [resume_failed hd hnear hfailed, giveUp_self hd hnear, Waiting.report, hlast]

theorem Doomed.handle (h : Doomed c d reader w error) (e : Event) :
    Doomed (c.handle e) d reader w error := by
  constructor
  · obtain ⟨near, hnear, hfailed, hlast⟩ := h.failed
    obtain ⟨events, hrun, -⟩ := (c.handle_moves e).connection_run hnear
    have hlater := near.run_later events
    exact ⟨_, hrun, hlater.failed hfailed, hlater.lastError error hlast⟩
  · rcases h.stands with hd | hd | hd
    · by_cases hask : e.request? c = some d
      · rcases handle_poised hask with he | ⟨c₁, hpoised, he⟩
        · exact .inl (by rw [he, hd])
        · cases hpoised with
          | resume d => exact .inr (.inr (by rw [he, h.resume hd]))
          -- What is dispatched now is new, and not the request that waits.
          | dispatch hs prepared routed =>
            rw [(route_opens routed).dispatches] at hd
            simp at hd
      · rcases handle_unasked hask with hsame | ⟨reader', w', hwaiting, habandoned⟩
        · exact .inl (hsame.trans hd)
        · obtain ⟨rfl, -⟩ := Dispatch.mk.inj (Option.some.inj (hd.symm.trans hwaiting))
          exact .inr (.inl habandoned)
    · exact .inr (.inl (handle_settled hd nofun))
    · exact .inr (.inr (handle_settled hd nofun))

theorem Doomed.run (h : Doomed c d reader w error) (events : List Event) :
    Doomed (c.run events) d reader w error := by
  induction events generalizing c with
  | nil => exact h
  | cons e events ih => exact ih (h.handle e)

/-- While it waits, something is left to be done. -/
theorem Doomed.not_quiet (h : Doomed c d reader w error)
    (hd : c.dispatches[d]? = some ⟨reader, .waiting w⟩) : c.isQuiet = false := by
  obtain ⟨near, hnear, hfailed, -⟩ := h.failed
  have hlooks : c.keepsWaiting ⟨reader, .waiting w⟩ = false := by
    simp [keepsWaiting, hnear, hfailed]
  have hall : c.dispatches.all c.keepsWaiting = false := by
    rw [List.all_eq_false]
    exact ⟨_, List.mem_of_getElem? hd, by simp [hlooks]⟩
  rw [isQuiet, hall, Bool.false_and]

/-- A connection that has not been given up stands where the course of its stream has
brought it. -/
theorem at_course (settings : Settings) (codecs : Codecs) (events : List Event)
    {near : Connection} :
    let c₀ := Client.start settings codecs
    (c₀.run events).connections[k]? = some near → near.cleaned = false →
      (Connection.Opening.dialling.run
        (Connection.frameBytes (.initRequest c₀.connectionSettings.identity))
        (c₀.course k events)).At near := by
  intro c₀ hk kept
  obtain ⟨remote, own, rfl, hcourse⟩ := course_run settings codecs events k near (.inl hk)
  rw [← hcourse, Connection.Opening.run_filter]
  exact Connection.at_of_uncleaned remote c₀.connectionSettings own kept

/-- What becomes of a request that waits for a connection which has broken. -/
theorem doomed_run (settings : Settings) (codecs : Codecs) (events : List Event)
    {near : Connection} :
    let c₀ := Client.start settings codecs
    (c₀.run events).connections[w.connection]? = some near → near.lastError = some error →
      (c₀.run events).dispatches[d]? = some ⟨reader, .waiting w⟩ →
      ∀ more, Doomed (c₀.run (events ++ more)) d reader w error := by
  intro c₀ hk hlast hd more
  obtain ⟨own, hreach⟩ := (Reachable.start.run events).connection hk
  rw [run_append]
  exact Doomed.run ⟨⟨near, hk, hreach.sound.lastError error hlast, hlast⟩, .inl hd⟩ more

/-- **What the greeting decides, and that all who wait agree on it.** A connection
that has not been given up knows the other side just when the dial succeeded, its
greeting was written and the first payload that came in is an announcement in the same
version; then it was identified as soon as that was in. If its stream decides otherwise,
it has failed with just that error, and keeps it. Before, nothing is noted.
The connections of a client go through what happens at their streams. All requests
that wait for one that has broken fail with the error that it notes: each when it looks
next, whoever looked before, and nothing is over at an instant before it has. None of
them becomes a call. -/
theorem handshake_agreement :
    (∀ remote settings events,
      let dialled := Connection.dial remote settings
      let near := dialled.run events
      let decision := Connection.Opening.dialling.run dialled.greeting events
      near.cleaned = false →
        (∀ identity, near.identity = some identity ↔ decision = .settled (.ok identity)) ∧
        (near.handshake = .identified → ∃ identity, decision = .settled (.ok identity)) ∧
        (∀ identity, decision = .settled (.ok identity) →
          (∀ more, (near.run more).identity = some identity) ∧
          ∃ before first rest after, events = before ++ .arrived (first ++ rest) :: after ∧
            let introduced := dialled.run (before ++ [.arrived first])
            introduced.handshake = .identified ∧ introduced.identity = some identity ∧
              near = introduced.run (.arrived rest :: after)) ∧
        (∀ error, decision = .settled (.error error) →
          ∀ more, (near.run more).handshake = .failed ∧ (near.run more).lastError = some error) ∧
        ((∀ result, decision ≠ .settled result) →
          near.handshake = .pending ∧ near.lastError = none)) ∧
    (∀ (near : Connection) (p : Pipe), (near.drain p).1 =
      near.run (.arrived p.buffer :: if p.closed then [.readFailed .closed] else [])) ∧
    (∀ settings codecs events k near,
      let c₀ := Client.start settings codecs
      let c := c₀.run events
      let greeting := Connection.frameBytes (.initRequest c₀.connectionSettings.identity)
      c.connections[k]? = some near →
        (∃ remote own, near = (Connection.dial remote c₀.connectionSettings).run own ∧
          own.filter ofStream = c₀.course k events) ∧
        (∀ error, near.cleaned = false →
          Connection.Opening.dialling.run greeting (c₀.course k events) =
            .settled (.error error) → near.lastError = some error) ∧
        (∀ error, near.lastError = some error → ∀ d reader w,
          c.dispatches[d]? = some ⟨reader, .waiting w⟩ → w.connection = k → ∀ more,
            let c' := c₀.run (events ++ more)
            (∀ k' r, r ∈ c₀.log k' (events ++ more) → r.request ≠ some d) ∧
            (c'.outcome? d = some (.error (.network error)) ∨
              c'.dispatches[d]? = some ⟨reader, .abandoned⟩ ∨
              c'.dispatches[d]? = some ⟨reader, .waiting w⟩ ∧ c'.isQuiet = false ∧
                (c'.resume d).outcome? d = some (.error (.network error))))) := by
  refine ⟨?_, Connection.drain_eq, ?_⟩
  · intro remote settings events dialled near decision kept
    have hat : decision.At near := Connection.at_of_uncleaned remote settings events kept
    refine ⟨fun identity => ⟨hat.noted, fun known => (hat.known known).identity⟩, hat.identified,
      fun identity known => ⟨fun more => ((hat.known known).run more).identity, ?_⟩,
      fun error failed more => ?_, fun pending => ?_⟩
    · exact Connection.identified_of_settled remote settings events kept known
    · have hrefused := hat.refused failed
      have hlater := near.run_later more
      exact ⟨hlater.failed hrefused.handshake, hlater.lastError error hrefused.lastError⟩
    · have hundecided := hat.undecided pending
      exact ⟨hundecided.handshake, hundecided.lastError⟩
  · intro settings codecs events k near c₀ c greeting hk
    refine ⟨course_run settings codecs events k near (.inl hk), fun error kept hdecision => ?_, ?_⟩
    · exact ((at_course settings codecs events hk kept).refused hdecision).lastError
    · rintro error hlast d reader w hd rfl more
      have hdoomed := doomed_run settings codecs events hk hlast hd more
      have htraced := traced_run settings codecs (events ++ more)
      refine ⟨fun k' r hr => ?_, ?_⟩
      · rcases hdoomed.stands with hwaiting | habandoned | hfailed
        · exact htraced.unsent hwaiting nofun hr
        · exact htraced.unsent habandoned nofun hr
        · exact htraced.unsent hfailed nofun hr
      · rcases hdoomed.stands with hwaiting | habandoned | hfailed
        · exact .inr (.inr ⟨hwaiting, hdoomed.not_quiet hwaiting,
            outcome?_failed (hdoomed.resume hwaiting)⟩)
        · exact .inr (.inl habandoned)
        · exact .inl (outcome?_failed hfailed)

/-- Two services send a request each to one address, and dialling it fails. -/
def refusedDial : List Event :=
  [.service "ledger" .outbound, .service "audit" .outbound,
    .dispatch 0 (.raw balanceRequest) (some (.v4 10 0 0 1 4040)) 0,
    .dispatch 1 (.raw balanceRequest) (some (.v4 10 0 0 1 4040)) 0,
    .stream 0 (.dialFailed (.io (.custom "connection refused")))]

/-- The second of the two looks first; both are told why, and neither has become a call. -/
theorem waiters_of_refused_dial :
    let c₀ := Client.start {} {}
    let c := c₀.run refusedDial
    let looks : List Event := [.resume 1, .resume 0]
    let error : Error := .link (.io (.custom "connection refused"))
    ∀ d ∈ [0, 1], c.awaits? d = some 0 ∧
      (∀ k r, r ∈ c₀.log k (refusedDial ++ looks) → r.request ≠ some d) ∧
      (c₀.run (refusedDial ++ looks)).outcome? d = some (.error (.network error)) := by
  intro c₀ c looks error d hd
  obtain ⟨-, -, hclient⟩ := handshake_agreement
  have hfound : (c.connections[0]?).map (·.cleaned) = some false := by decide +kernel
  obtain ⟨near, hk, hkept⟩ := Option.map_eq_some_iff.1 hfound
  obtain ⟨-, hnoted, hwaiters⟩ := hclient {} {} refusedDial 0 near hk
  have hlast : near.lastError = some error := hnoted error hkept rfl
  have hwaits : ∀ d ∈ [0, 1], c.awaits? d = some 0 := by decide +kernel
  obtain ⟨reader, w, hwaiting, hown⟩ := awaits?_eq_some.1 (hwaits d hd)
  obtain ⟨hunsent, htold⟩ := hwaiters error hlast d reader w hwaiting hown looks
  refine ⟨hwaits d hd, hunsent, ?_⟩
  -- Both have looked, so that neither waits any more.
  have hends : ∀ d ∈ [0, 1], ((c₀.run (refusedDial ++ looks)).failure? d).isSome := by
    decide +kernel
  obtain ⟨cause, hcause⟩ := Option.isSome_iff_exists.1 (hends d hd)
  have hended := failure?_eq_some.1 hcause
  rcases htold with houtcome | habandoned | ⟨hstill, -⟩
  · exact houtcome
  · cases (outcome?_abandoned habandoned).symm.trans hended
  · cases (outcome?_waiting hstill).symm.trans hended

end Client

end RpcClient
