/-
How a request ends its wait: by what it sees of its connection when it looks there.
One that is identified takes its call, one that has failed is given up, and so is one
that is pending when the time is over (`resume_looks`). `Fares` keeps for a request what
it saw; every event keeps that (`Fares.handle`), so it holds after every run
(`fares_run`), and a connection that was pending then was so all along
(`Looked.pending`).
-/
import RpcClient.Proofs.Client.Deadline
import RpcClient.Proofs.Client.Shutdown
import RpcClient.Proofs.Client.Waiters

namespace RpcClient

namespace Connection

/-- A handshake that is pending has been so at all times before. -/
theorem Later.pending {c c' : Connection} (h : Later c c') (hc : c'.handshake = .pending) :
    c.handshake = .pending := by
  rcases h.handshake with heq | hmoves
  · exact heq.symm.trans hc
  · rw [hc] at hmoves
    generalize c.handshake = first at hmoves
    cases hmoves

end Connection

namespace Client

variable {c₀ c : Client} {e : Event} {before events : List Event} {k : ConnectionId}
  {d : DispatchId} {reader : ReplyReader} {w : Waiting} {near : Connection}
  {settings : Settings} {codecs : Codecs}

/-! ## One look -/

/-- What a request does that looks at its connection: it waits on, gives it up, or becomes
a call there. -/
theorem resume_looks (hd : c.dispatches[d]? = some ⟨reader, .waiting w⟩)
    (hnear : c.connections[w.connection]? = some near) :
    c.resume d = c ∨
    (near.handshake = .failed ∨ near.handshake = .pending ∧ w.deadline ≤ c.now) ∧
      c.resume d = c.giveUp d w ∨
    near.handshake = .identified ∧
      c.resume d = (c.modifyConnection w.connection (·.handle (.expect c.now w.call))).setProgress
        d (.sent w.connection (near.calls.expect c.now w.call).2) := by
  cases hstate : near.handshake with
  | pending =>
    rw [resume_pending hd hnear hstate]
    by_cases hdue : w.deadline ≤ c.now
    · exact .inr (.inl ⟨.inr ⟨rfl, hdue⟩, if_pos hdue⟩)
    · exact .inl (if_neg hdue)
  | failed => exact .inr (.inl ⟨.inl rfl, resume_failed hd hnear hstate⟩)
  | identified =>
    refine .inr (.inr ⟨rfl, ?_⟩)
    have hregister : c.resume d = c.register d w := by simp [resume, hd, hnear, hstate]
    rw [hregister, register, expect_of_some hnear]
    rfl

theorem giveUp_connection (hnear : c.connections[w.connection]? = some near) :
    (c.giveUp d w).connections[w.connection]? = some near.clean := by
  show (c.clean w.connection).connections[w.connection]? = _
  rw [clean, getElem?_modifyConnection, if_pos rfl, hnear]
  rfl

/-- A request that looks at its connection waits for one that there is. -/
theorem Poised.opened {c₁ : Client} (poised : Poised c e d c₁) (reach : Reachable settings codecs c)
    (hd : c₁.dispatches[d]? = some ⟨reader, .waiting w⟩) :
    ∃ near, c₁.connections[w.connection]? = some near := by
  rcases poised.self with hself | ⟨hnone, -⟩
  · cases poised with
    | resume d => exact reach.timely.opened d reader w hd
    | dispatch hs prepared routed =>
      rw [List.getElem?_concat_length, (route_opens routed).dispatches] at hself
      simp at hself
  · obtain ⟨-, -, -, hnear⟩ := poised.waits reach.shared hnone hd
    exact hnear

theorem Reachable.links_sound (reach : Reachable settings codecs c) (h : c.Links k near) :
    near.Sound := by
  rcases h with hk | ⟨-, address, rfl⟩
  · exact reach.sound hk
  · exact .dial address c.connectionSettings

/-! ## What a request has seen -/

/-- In the course of a run a request has looked at its connection: after `early`, which
was not before the request came in, it found that as `near`. -/
structure Looked (c₀ : Client) (before events : List Event) (d : DispatchId) (w : Waiting)
    (early : List Event) (near : Connection) : Prop where
  since : before <+: early
  turn : ∃ e late, events = early ++ e :: late ∧ e.request? (c₀.run early) = some d
  found : (c₀.run early).Links w.connection near

theorem Looked.more {early : List Event} (h : Looked c₀ before events d w early near)
    (more : List Event) : Looked c₀ before (events ++ more) d w early near := by
  obtain ⟨hsince, ⟨e, late, rfl, hturn⟩, hfound⟩ := h
  exact ⟨hsince, ⟨e, late ++ more, by simp, hturn⟩, hfound⟩

/-- How a request stands after a run that was to wait as `w` says. -/
inductive Fares (c₀ : Client) (before events : List Event) (d : DispatchId) (w : Waiting) :
    Progress → Prop
  | waiting : Fares c₀ before events d w (.waiting w)
  /-- Its connection had failed, or was still pending when the time was over. -/
  | failed {early : List Event} {near : Connection}
      (looked : Looked c₀ before events d w early near)
      (unidentified : near.handshake = .failed ∨
        near.handshake = .pending ∧ (c₀.run early).now = w.deadline)
      (unusable : ∃ near', (c₀.run events).connections[w.connection]? = some near' ∧
        near'.isUsable = false) : Fares c₀ before events d w (.failed (Waiting.report w near))
  /-- Its connection was identified in time, and has taken its call. -/
  | made {early : List Event} {near : Connection} {n : Ticket} {id : UInt32}
      (looked : Looked c₀ before events d w early near) (identified : near.handshake = .identified)
      (soon : (c₀.run early).now ≤ w.deadline)
      (entry : (c₀.log w.connection events)[n]? = some
        ⟨some d, .callRequest (w.request.called c₀.settings.requestTimeout id),
          (c₀.run early).now⟩) : Fares c₀ before events d w (.sent w.connection (.waiting n))
  /-- Its connection was identified in time, but has no number for its call. -/
  | searching {early : List Event} {near : Connection}
      (looked : Looked c₀ before events d w early near) (identified : near.handshake = .identified)
      (soon : (c₀.run early).now ≤ w.deadline) (full : UInt32.size ≤ near.pendingCount) :
    Fares c₀ before events d w (.sent w.connection .searching)
  | abandoned : Fares c₀ before events d w .abandoned

/-- An entry of a log stays where it is. -/
theorem log_kept {n : Ticket} {r : Registration} (h : (c₀.log k events)[n]? = some r)
    (more : List Event) : (c₀.log k (events ++ more))[n]? = some r := by
  rw [log_append, List.getElem?_append_left (List.getElem?_eq_some_iff.1 h).1, h]

/-- What a request has seen stays so. -/
theorem Fares.more {progress : Progress} (h : Fares c₀ before events d w progress) (e : Event) :
    Fares c₀ before (events ++ [e]) d w progress := by
  cases h with
  | waiting => exact .waiting
  | failed looked unidentified unusable =>
    refine .failed (looked.more [e]) unidentified ?_
    obtain ⟨near', hnear', hunusable⟩ := unusable
    obtain ⟨own, hrun, -⟩ := ((c₀.run events).handle_moves e).connection_run hnear'
    refine ⟨near'.run own, by rw [run_append]; exact hrun, ?_⟩
    cases hu : (near'.run own).isUsable with
    | false => rfl
    | true =>
      rw [(near'.run_later own).usable hu] at hunusable
      cases hunusable
  | made looked identified soon entry =>
    exact .made (looked.more [e]) identified soon (log_kept entry [e])
  | searching looked identified soon full =>
    exact .searching (looked.more [e]) identified soon full
  | abandoned => exact .abandoned

/-- A request that tries to become a call on an identified connection becomes one, as long
as there is a number for it. -/
theorem Tries.fares {c₁ : Client} {events : List Event} :
    let c₀ := Client.start settings codecs
    let c := c₀.run events
    Tries c e d reader w near → Poised c e d c₁ → near.handshake = .identified →
      before <+: events → c.now ≤ w.deadline →
      ∃ progress, (c.handle e).dispatches[d]? = some ⟨reader, progress⟩ ∧
        Fares c₀ before (events ++ [e]) d w progress := by
  intro c₀ c htries hpoised hidentified hsince hsoon
  have hreach : Reachable settings codecs c := Reachable.start.run events
  have htraced : Traced c _ _ _ := traced_run settings codecs events
  have hsound : near.Sound := hreach.links_sound htries.before
  have hlooked : Looked c₀ before (events ++ [e]) d w events near :=
    ⟨hsince, ⟨e, [], rfl, hpoised.request⟩, htries.before⟩
  obtain ⟨haccount, -, -⟩ := htraced.account w.connection near htries.before
  refine ⟨_, htries.sent, ?_⟩
  rcases near.calls.expect_cases c.now w.call with ⟨cause, hclosed, -⟩ | ⟨-, hfree, hmade⟩ |
    ⟨id, hopen, -, hqueue, -⟩ | ⟨id, frames, -, -, hqueue, hmade⟩
  -- Only the table of a connection that has failed is closed.
  · have hfailed : near.handshake = .failed :=
      hsound.closed.1 (by simp [CallTable.isClosed, hclosed])
    cases hidentified.symm.trans hfailed
  · rw [hmade]
    exact .searching hlooked hidentified hsoon (CallTable.freeId?_eq_none hfree)
  -- Without a queue the table is closed.
  · have hclosed := haccount.closed hqueue
    simp [CallTable.isClosed, hopen] at hclosed
  · obtain ⟨-, hentry, -⟩ := htries.entry htraced hpoised.request hqueue hmade
    have hlog : c.after (c₀.log · events) e w.connection =
        c₀.log w.connection (events ++ [e]) := by
      rw [log_append, Client.after]
      simp [log, collect, c]
    rw [hlog, c₀.run_settings events] at hentry
    rw [hmade]
    exact .made hlooked hidentified hsoon hentry

/-- How a request stands that has just looked at its connection. -/
theorem Poised.fares {c₁ : Client} {events : List Event} :
    let c₀ := Client.start settings codecs
    let c := c₀.run events
    Poised c e d c₁ → c.handle e = c₁.resume d →
      c₁.dispatches[d]? = some ⟨reader, .waiting w⟩ → before <+: events → c.now ≤ w.deadline →
      ∃ progress, (c.handle e).dispatches[d]? = some ⟨reader, progress⟩ ∧
        Fares c₀ before (events ++ [e]) d w progress := by
  intro c₀ c hpoised he hd hsince hsoon
  obtain ⟨near, hnear⟩ := hpoised.opened (Reachable.start.run events) hd
  have hfound : c.Links w.connection near := hpoised.links (.inl hnear)
  rcases resume_looks hd hnear with hr | ⟨hunidentified, hr⟩ | ⟨hidentified, hr⟩
  · exact ⟨_, by rw [he, hr, hd], .waiting⟩
  · refine ⟨_, by rw [he, hr, giveUp_self hd hnear],
      .failed ⟨hsince, ⟨e, [], rfl, hpoised.request⟩, hfound⟩ ?_ ⟨near.clean, ?_, near.clean_unusable⟩⟩
    -- Nothing is overdue, so a time that is over is over just now.
    · rw [hpoised.now] at hunidentified
      exact hunidentified.imp_right fun hdue => ⟨hdue.1, Nat.le_antisymm hsoon hdue.2⟩
    · have hrun : c₀.run (events ++ [e]) = c.handle e := run_append _ _ _
      rw [hrun, he, hr, giveUp_connection hnear]
  · have htries := hpoised.tries (request_still hpoised.request) hd hnear (he.trans hr)
    exact htries.fares hpoised hidentified hsince hsoon

/-- A request fares after a run as it does after the next event. -/
theorem Fares.handle {progress : Progress} :
    let c₀ := Client.start settings codecs
    let c := c₀.run events
    Fares c₀ before events d w progress → c.dispatches[d]? = some ⟨reader, progress⟩ →
      before <+: events → ∀ e,
      ∃ progress', (c.handle e).dispatches[d]? = some ⟨reader, progress'⟩ ∧
        Fares c₀ before (events ++ [e]) d w progress' := by
  intro c₀ c h hd hsince e
  have hmore := h.more e
  cases h with
  | waiting =>
    have hsoon : c.now ≤ w.deadline :=
      (Reachable.start.run events : Reachable settings codecs c).timely.spares.waiting d reader w hd
    by_cases hask : e.request? c = some d
    · rcases handle_poised hask with he | ⟨c₁, hpoised, he⟩
      · exact ⟨_, by rw [he, hd], hmore⟩
      · rcases hpoised.self with hself | ⟨hnone, -⟩
        · exact hpoised.fares he (hself.trans hd) hsince hsoon
        · cases hd.symm.trans hnone
    · rcases handle_unasked hask with hsame | ⟨reader', w', hwaiting, habandoned⟩
      · exact ⟨_, hsame.trans hd, hmore⟩
      · obtain ⟨rfl, -⟩ := Dispatch.mk.inj (Option.some.inj (hd.symm.trans hwaiting))
        exact ⟨_, habandoned, .abandoned⟩
  | _ => exact ⟨_, handle_settled hd nofun, hmore⟩

/-! ## A request that was dispatched -/

variable {i : ServiceId} {out : Outgoing} {target : Option Address} {start : Nat} {c₁ : Client}

/-- What a request waits for that comes in, and how long. -/
structure Enters (c : Client) (i : ServiceId) (out : Outgoing) (target : Option Address)
    (start : Nat) (reader : ReplyReader) (w : Waiting) : Prop where
  prepared : ∃ s, c.services[i]? = some s ∧ s.prepare out = .ok (w.request, reader)
  routed : ∃ c₁, c.route i target start = .ok (c₁, w.connection)
  limit : w.limit = c.settings.initTimeout
  deadline : w.deadline = w.limit.after c.now

/-- A request that comes in stands from then on as what it sees of its connection
decides. -/
theorem fares_dispatch :
    let c₀ := Client.start settings codecs
    let c := c₀.run before
    let e := Event.dispatch i out target start
    c.dispatch i out target start = .ok (c₁, d) →
      ∃ reader w, c.Enters i out target start reader w ∧
        (∃ near, (c.handle e).connections[w.connection]? = some near) ∧
        ∃ progress, (c.handle e).dispatches[d]? = some ⟨reader, progress⟩ ∧
          Fares c₀ before (before ++ [e]) d w progress := by
  intro c₀ c e hok
  have hreach : Reachable settings codecs c := Reachable.start.run before
  have he : c.handle e = c₁ := handle_dispatch hok
  obtain ⟨-, c₂, hpoised, hresume⟩ := dispatch_poised hok
  have hresume : c.handle e = c₂.resume d := he.trans hresume.symm
  have henters : ∃ reader w, c.Enters i out target start reader w ∧
      c₂.dispatches[d]? = some ⟨reader, .waiting w⟩ := by
    cases hpoised with
    | @dispatch _ _ _ _ s request reader c₃ j hs prepared routed =>
      refine ⟨reader, _, ⟨⟨s, hs, prepared⟩, ⟨c₃, routed⟩,
        hreach.timely.limits s (List.mem_of_getElem? hs), ?_⟩, List.getElem?_concat_length⟩
      rw [(route_opens routed).now]
  obtain ⟨reader, w, henters, hd⟩ := henters
  obtain ⟨near, hnear⟩ := hpoised.opened hreach hd
  have hrequest : e.IsRequest := trivial
  have hmoves : Moves e c₂ (c₂.resume d) := resume_moves hrequest c₂ d
  obtain ⟨own, hrun, -⟩ := hmoves.connection_run hnear
  have hsoon : c.now ≤ w.deadline := by
    rw [henters.deadline]
    exact Nat.le_add_right _ _
  exact ⟨reader, w, henters, ⟨near.run own, by rw [hresume, hrun]⟩,
    hpoised.fares hresume hd (List.prefix_refl before) hsoon⟩

theorem Fares.run {progress : Progress} (after : List Event) :
    let c₀ := Client.start settings codecs
    Fares c₀ before events d w progress →
      (c₀.run events).dispatches[d]? = some ⟨reader, progress⟩ → before <+: events →
      ∃ progress', (c₀.run (events ++ after)).dispatches[d]? = some ⟨reader, progress'⟩ ∧
        Fares c₀ before (events ++ after) d w progress' := by
  intro c₀ h hd hsince
  -- On the events after it, from the last one: what was seen so far is kept.
  induction after using List.reverseRecOn with
  | nil =>
    rw [List.append_nil]
    exact ⟨progress, hd, h⟩
  | append_singleton after e ih =>
    obtain ⟨progress', hd', h'⟩ := ih
    rw [← List.append_assoc, run_append]
    exact h'.handle hd' (hsince.trans (List.prefix_append events after)) e

/-- After any run, a request that was dispatched stands as what it saw of its connection
has decided. -/
theorem fares_run :
    let c₀ := Client.start settings codecs
    let c := c₀.run before
    let e := Event.dispatch i out target start
    c.dispatch i out target start = .ok (c₁, d) →
      ∃ reader w, c.Enters i out target start reader w ∧
        (∃ near, (c.handle e).connections[w.connection]? = some near) ∧
        ∀ after, ∃ progress,
          (c₀.run (before ++ e :: after)).dispatches[d]? = some ⟨reader, progress⟩ ∧
            Fares c₀ before (before ++ e :: after) d w progress := by
  intro c₀ c e hok
  obtain ⟨reader, w, henters, hopened, progress, hd, hfares⟩ := fares_dispatch hok
  refine ⟨reader, w, henters, hopened, fun after => ?_⟩
  have hrun : c₀.run (before ++ [e]) = c.handle e := run_append _ _ _
  rw [List.append_cons]
  exact hfares.run after (hrun ▸ hd) (List.prefix_append before [e])

/-- A connection that is still pending when a request looks there has been so in every
state since the request came in. -/
theorem Looked.pending {early : List Event} {near₁ : Connection} (e : Event)
    (h : Looked c₀ before events d w early near)
    (opened : ((c₀.run before).handle e).connections[w.connection]? = some near₁)
    (pending : near.handshake = .pending) {part : List Event} (after : before ++ [e] <+: part)
    (upTo : part <+: early) :
    ∃ near', (c₀.run part).connections[w.connection]? = some near' ∧
      near'.handshake = .pending := by
  obtain ⟨first, rfl⟩ := after
  obtain ⟨rest, rfl⟩ := upTo
  have hbefore : (c₀.run (before ++ [e])).connections[w.connection]? = some near₁ := by
    rw [run_append]
    exact opened
  obtain ⟨own, hpart⟩ := (c₀.run (before ++ [e])).run_connection hbefore first
  rw [← run_append] at hpart
  obtain ⟨more, hearly⟩ := (c₀.run (before ++ [e] ++ first)).run_connection hpart rest
  rw [← run_append] at hearly
  refine ⟨_, hpart, ?_⟩
  rw [links_of_some hearly h.found] at pending
  exact (Connection.run_later _ more).pending pending

end Client

end RpcClient
