/-
The clock of a client. Nothing is ever overdue (`Timely`): what is to happen at an
instant holds the clock until it has happened. And it can happen: a client left to
itself, whatever the other sides do, comes to rest at each instant
(`exists_quiet`), so that any instant is reached (`exists_passed`).
-/
import RpcClient.Proofs.Client.Traffic
import RpcClient.Proofs.Connection.Deadline

namespace RpcClient.Client

variable {c c' : Client} {e : Event} {k : ConnectionId} {d : DispatchId}

/-! ## What is due -/

/-- Nothing is due before an instant: no request gives up waiting, and no timer goes
off. -/
structure Spares (c : Client) (time : Nat) : Prop where
  waiting : ∀ (d : DispatchId) reader w, c.dispatches[d]? = some ⟨reader, .waiting w⟩ →
    time ≤ w.deadline
  timers : ∀ near ∈ c.connections, near.calls.OnTime time

theorem min?_all_le (times : List Nat) (time : Nat) :
    times.min?.all (time ≤ ·) = true ↔ ∀ due ∈ times, time ≤ due := by
  cases hmin : times.min? with
  | none =>
    rw [List.min?_eq_none_iff] at hmin
    simp [hmin]
  | some first =>
    rw [Option.all_some, decide_eq_true_iff]
    exact List.le_min?_iff hmin

theorem nextDue?_all (c : Client) (time : Nat) :
    c.nextDue?.all (time ≤ ·) = true ↔ c.Spares time := by
  have htable : ∀ t : CallTable, (∀ due, t.nextDue? = some due → time ≤ due) ↔ t.OnTime time := by
    intro t
    have hall := min?_all_le (t.timers.map (·.due)) time
    simpa [CallTable.nextDue?, CallTable.OnTime, Option.all_eq_true] using hall
  rw [nextDue?, min?_all_le]
  constructor
  · intro h
    refine ⟨fun d reader w hd => h w.deadline (List.mem_append_left _ ?_), fun near hnear => ?_⟩
    · exact List.mem_filterMap.2 ⟨_, List.mem_of_getElem? hd, rfl⟩
    · rw [← htable]
      intro due hdue
      exact h due (List.mem_append_right _ (List.mem_filterMap.2 ⟨near, hnear, hdue⟩))
  · intro h due hdue
    rcases List.mem_append.1 hdue with hdue | hdue
    · obtain ⟨⟨reader, progress⟩, hentry, hdeadline⟩ := List.mem_filterMap.1 hdue
      obtain ⟨d, hd⟩ := List.getElem?_of_mem hentry
      cases progress with
      | waiting w =>
        obtain rfl := Option.some.inj hdeadline
        exact h.waiting d reader w hd
      | _ => cases hdeadline
    · obtain ⟨near, hnear, hdue⟩ := List.mem_filterMap.1 hdue
      exact (htable near.calls).2 (h.timers near hnear) due hdue

/-! ## What an event leaves alone -/

theorem cleanEach_now (c : Client) (entries : List (Address × ConnectionId)) :
    (c.cleanEach entries).now = c.now ∧ (c.cleanEach entries).services = c.services := by
  induction entries generalizing c with
  | nil => exact ⟨rfl, rfl⟩
  | cons entry entries ih => exact ih (c.clean entry.2)

theorem resume_now (c : Client) (d : DispatchId) :
    (c.resume d).now = c.now ∧ (c.resume d).services = c.services := by
  rcases c.resume_cases d with he | ⟨_, w, near, -, -, he⟩ | ⟨_, w, near, -, -, he⟩ <;>
    rw [he] <;> exact ⟨rfl, rfl⟩

/-- No time passes, and services change only as connections are opened. -/
def Lingers (c c' : Client) : Prop :=
  ∃ c₁, Opens c c₁ ∧ c'.now = c₁.now ∧ c'.services = c₁.services

theorem handle_lingers (h : ∀ time, e ≠ .advance time) : Lingers c (c.handle e) := by
  by_cases hopening : e.isOpening = true
  · exact ⟨_, handle_opening hopening, rfl, rfl⟩
  have hsame : (c.handle e).now = c.now ∧ (c.handle e).services = c.services →
      Lingers c (c.handle e) := fun same => ⟨c, .refl c, same⟩
  have hrequest : ∀ d, e.request? c = some d → Lingers c (c.handle e) := by
    intro d hd
    rcases handle_poised hd with he | ⟨c₁, hpoised, he⟩
    · exact hsame (by rw [he]; exact ⟨rfl, rfl⟩)
    · have hresume := c₁.resume_now d
      rw [← he] at hresume
      cases hpoised with
      | resume d => exact hsame hresume
      | dispatch hs prepared routed => exact ⟨_, route_opens routed, hresume⟩
  cases e with
  | clean i => exact hsame ⟨rfl, rfl⟩
  | shutdown => exact hsame (c.cleanEach_now c.pool)
  | dispatch i out target start => exact hrequest _ rfl
  | resume d => exact hrequest d rfl
  | abandon d =>
    refine hsame ?_
    simp only [handle]
    rcases c.abandon_cases d with he | ⟨_, _, -, he⟩ <;> rw [he] <;> exact ⟨rfl, rfl⟩
  | expect i request =>
    refine hsame ?_
    simp only [handle]
    cases hi : c.connections[i]? with
    | none =>
      rw [expect_of_none hi]
      exact ⟨rfl, rfl⟩
    | some near =>
      rw [expect_of_some hi]
      exact ⟨rfl, rfl⟩
  | stream i event =>
    refine hsame ?_
    simp only [handle]
    split <;> exact ⟨rfl, rfl⟩
  | expire => exact hsame ⟨rfl, rfl⟩
  | advance time => exact absurd rfl (h time)
  | _ => exact absurd rfl hopening

theorem Move.terms (m : Move e c c') : c'.terms = c.terms := by
  cases m <;> rfl

theorem Moves.terms (m : Moves e c c') : c'.terms = c.terms := by
  induction m with
  | refl => rfl
  | tail _ last ih => exact last.terms.trans ih

/-- All services of a client are on its own terms. -/
theorem Reachable.terms {settings : Settings} {codecs : Codecs} (h : Reachable settings codecs c) :
    ∀ s ∈ c.services, s.terms = ⟨settings.serviceName, codecs, settings.initTimeout, false⟩ := by
  have hterms : c.terms = (Client.start settings codecs).terms ∧
      ∀ s ∈ c.services, s.terms = c.terms := by
    induction h with
    | start => exact ⟨rfl, by simp [Client.start]⟩
    | @handle c₁ e _ ih =>
      refine ⟨(c₁.handle_moves e).terms.trans ih.1, fun s' hs' => ?_⟩
      rw [(c₁.handle_moves e).terms]
      by_cases hadvance : ∃ time, e = .advance time
      · obtain ⟨time, rfl⟩ := hadvance
        simp only [Client.handle, Client.advance] at hs'
        split at hs' <;> exact ih.2 s' hs'
      · obtain ⟨c₂, hopens, -, hservices⟩ :=
          handle_lingers (c := c₁) fun time he => hadvance ⟨time, he⟩
        rw [hservices] at hs'
        rcases hopens.services s' hs' with ⟨s, hs, hsame⟩ | hnew
        · exact hsame.trans (ih.2 s hs)
        · exact hnew
  exact fun s hs => (hterms.2 s hs).trans hterms.1

theorem handle_now (h : ∀ time, e ≠ .advance time) : (c.handle e).now = c.now := by
  obtain ⟨c₁, hopens, hnow, -⟩ := handle_lingers (c := c) h
  exact hnow.trans hopens.now

/-- A request that waits after an event has waited in the same way before, or it has
just come in. -/
theorem handle_waiting {reader : ReplyReader} {w : Waiting}
    (h : (c.handle e).dispatches[d]? = some ⟨reader, .waiting w⟩) :
    c.dispatches[d]? = some ⟨reader, .waiting w⟩ ∨
      c.dispatches[d]? = none ∧ ∃ c₁, Poised c e d c₁ ∧ c.handle e = c₁ := by
  by_cases hask : e.request? c = some d
  · rcases handle_poised hask with he | ⟨c₁, hpoised, he⟩
    · rw [he] at h
      exact .inl h
    · rcases c₁.resume_cases d with hr | ⟨reader', w', near, hw, hnear, hr⟩ |
        ⟨reader', w', near, hw, hnear, hr⟩
      · rcases hpoised.self with hself | ⟨hnone, -⟩
        · rw [he, hr, hself] at h
          exact .inl h
        · exact .inr ⟨hnone, c₁, hpoised, he.trans hr⟩
      · rw [he, hr, giveUp_self hw hnear] at h
        cases h
      · rw [he, hr, getElem?_setProgress, if_pos rfl] at h
        obtain ⟨entry, -, hsent⟩ := Option.map_eq_some_iff.1 h
        cases hsent
  · rcases handle_unasked hask with hsame | ⟨reader', w', -, habandoned⟩
    · exact .inl (hsame.symm.trans h)
    · cases habandoned.symm.trans h

/-- What an event is for a connection that is open. -/
theorem handle_near {near : Connection} (hk : c.connections[k]? = some near) (e : Event) :
    ∃ events, (c.handle e).connections[k]? = some (near.run events) ∧ Does c e k events := by
  obtain ⟨events, hrun, -⟩ := (c.handle_moves e).connection_run hk
  obtain ⟨near', own, hlinks, hown, hdoes⟩ := handle_does (.inl hrun)
  obtain rfl := links_of_some hk hlinks
  exact ⟨own, hown ▸ hrun, hdoes⟩

/-- What an event does to a table is done at its instant: a number of deeds, or the
timers go off. -/
theorem Does.deeds {events : List Connection.Event} (does : Does c e k events)
    (near : Connection) :
    CallTable.Deeds c.now near.calls (near.run events).calls ∨
      e = .expire ∧ (near.run events).calls = near.calls.expireDue c.now := by
  cases does with
  | nothing still => exact .inl .refl
  | stream event he own opened =>
    refine .inl (near.handle_deeds ?_ ?_)
    · rintro n request rfl
      cases own
    · rintro n rfl
      cases own
  | expire he => exact .inr ⟨he, rfl⟩
  | clean still => exact .inl near.clean_deeds
  | expect still request => exact .inl (.single (.expect request))

/-! ## Nothing is overdue -/

/-- What holds of a client at any time. -/
structure Timely (c : Client) : Prop where
  spares : c.Spares c.now
  /-- A request waits for a connection that there is. -/
  opened : ∀ (d : DispatchId) reader w, c.dispatches[d]? = some ⟨reader, .waiting w⟩ →
    ∃ near, c.connections[w.connection]? = some near
  limits : ∀ s ∈ c.services, s.initTimeout = c.settings.initTimeout

theorem Timely.start (settings : Settings) (codecs : Codecs) :
    Timely (Client.start settings codecs) := by
  constructor
  · constructor <;> simp [Client.start]
  · simp [Client.start]
  · simp [Client.start]

theorem Timely.advance (h : Timely c) (time : Nat) : Timely (c.advance time) := by
  unfold Client.advance
  split
  · next may =>
    have hspares := (c.nextDue?_all time).1 (Bool.and_eq_true_iff.1 may).2
    exact ⟨⟨hspares.waiting, hspares.timers⟩, h.opened, h.limits⟩
  · exact h

/-- A request that comes in waits for a connection that there is, from now on. -/
theorem Poised.waits {c₁ : Client} (poised : Poised c e d c₁) (shared : Shared c)
    (new : c.dispatches[d]? = none) {reader : ReplyReader} {w : Waiting}
    (hd : c₁.dispatches[d]? = some ⟨reader, .waiting w⟩) :
    ∃ s ∈ c.services, w.deadline = s.initTimeout.after c.now ∧
      ∃ near, c₁.connections[w.connection]? = some near := by
  cases poised with
  | resume d => cases new.symm.trans hd
  | dispatch hs prepared routed =>
    rw [List.getElem?_concat_length] at hd
    obtain ⟨-, hw⟩ := Dispatch.mk.inj (Option.some.inj hd)
    obtain rfl := Progress.waiting.inj hw
    obtain ⟨address, hout, -⟩ := shared.route routed
    obtain ⟨near, hnear, -⟩ := hout.usable
    exact ⟨_, List.mem_of_getElem? hs, by rw [(route_opens routed).now], near, hnear⟩

theorem Timely.handle {settings : Settings} {codecs : Codecs} (h : Timely c)
    (reach : Reachable settings codecs c) (e : Event) : Timely (c.handle e) := by
  by_cases hadvance : ∃ time, e = .advance time
  · obtain ⟨time, rfl⟩ := hadvance
    exact h.advance time
  have hnot : ∀ time, e ≠ .advance time := fun time he => hadvance ⟨time, he⟩
  have hnow : (c.handle e).now = c.now := handle_now hnot
  refine ⟨⟨fun d reader w hd => ?_, fun near' hnear' timer htimer => ?_⟩, fun d reader w hd => ?_,
    fun s' hs' => ?_⟩
  · rw [hnow]
    rcases handle_waiting hd with hold | ⟨hnone, c₁, hpoised, he⟩
    · exact h.spares.waiting d reader w hold
    · rw [he] at hd
      obtain ⟨s, -, hdeadline, -⟩ := hpoised.waits reach.shared hnone hd
      rw [hdeadline]
      exact Nat.le_add_right _ _
  · rw [hnow]
    obtain ⟨k, hk'⟩ := List.getElem?_of_mem hnear'
    obtain ⟨near, events, hlinks, rfl, hdoes⟩ := handle_does (.inl hk')
    have hbefore : near.calls.OnTime c.now := by
      rcases hlinks with hk | ⟨-, address, rfl⟩
      · exact h.spares.timers near (List.mem_of_getElem? hk)
      · exact fun timer htimer => by cases htimer
    rcases hdoes.deeds near with hdeeds | ⟨-, htable⟩
    · exact hdeeds.onTime hbefore timer htimer
    · rw [htable] at htimer
      exact hbefore timer ((near.calls.expireEach_subset _).2 htimer)
  · rcases handle_waiting hd with hold | ⟨hnone, c₁, hpoised, he⟩
    · obtain ⟨near, hnear⟩ := h.opened d reader w hold
      obtain ⟨events, hrun, -⟩ := handle_near hnear e
      exact ⟨_, hrun⟩
    · rw [he] at hd ⊢
      obtain ⟨s, -, -, hnear⟩ := hpoised.waits reach.shared hnone hd
      exact hnear
  · obtain ⟨c₁, hopens, -, hservices⟩ := handle_lingers (c := c) hnot
    rw [hservices] at hs'
    rw [(c.handle_moves e).settings]
    rcases hopens.services s' hs' with ⟨s, hs, hsame⟩ | hnew
    · exact (congrArg (·.initTimeout) hsame).trans (h.limits s hs)
    · exact congrArg (·.initTimeout) hnew

theorem Reachable.timely {settings : Settings} {codecs : Codecs}
    (h : Reachable settings codecs c) : Timely c := by
  induction h with
  | start => exact .start settings codecs
  | handle e reach ih => exact ih.handle reach e

/-! ## Coming to rest -/

variable {settings : Settings} {codecs : Codecs}

/-- What a client does when nobody asks anything of it and no other side answers. -/
def Event.IsOwn : Event → Prop
  | .resume _ | .expire | .advance _ => True
  | _ => False

/-- A request that would not go on waiting stops to when it looks. -/
theorem resume_stops (reach : Reachable settings codecs c) {reader : ReplyReader} {w : Waiting}
    (hd : c.dispatches[d]? = some ⟨reader, .waiting w⟩)
    (ready : c.keepsWaiting ⟨reader, .waiting w⟩ = false) : (c.resume d).isWaiting d = false := by
  obtain ⟨near, hnear⟩ := reach.timely.opened d reader w hd
  have hgiveUp : c.resume d = c.giveUp d w → (c.resume d).isWaiting d = false := by
    intro he
    rw [he, isWaiting, giveUp_self hd hnear]
  cases hstate : near.handshake with
  | pending =>
    have hdue : w.deadline ≤ c.now := by
      simpa [keepsWaiting, hnear, hstate] using ready
    exact hgiveUp (by simp [resume, hd, hnear, hstate, hdue])
  | identified =>
    have he : c.resume d = c.register d w := by simp [resume, hd, hnear, hstate]
    rw [he, register, expect_of_some hnear, isWaiting, getElem?_setProgress, if_pos rfl]
    simp [modifyConnection, hd]
  | failed => exact hgiveUp (by simp [resume, hd, hnear, hstate])

/-- How many requests wait. -/
def waitingCount (c : Client) : Nat :=
  ((List.range c.dispatches.length).filter (c.isWaiting ·)).length

theorem resume_length (c : Client) (d : DispatchId) :
    (c.resume d).dispatches.length = c.dispatches.length := by
  rcases c.resume_cases d with he | ⟨_, w, near, -, -, he⟩ | ⟨_, w, near, -, -, he⟩ <;> rw [he]
  · simp [giveUp, setProgress, clean, modifyConnection]
  · simp [setProgress, modifyConnection]

theorem waitingCount_resume (hd : c.isWaiting d = true) (stops : (c.resume d).isWaiting d = false) :
    (c.resume d).waitingCount < c.waitingCount := by
  have hlt : d < c.dispatches.length := by
    by_contra hge
    rw [isWaiting, List.getElem?_eq_none (Nat.le_of_not_lt hge)] at hd
    cases hd
  have hsub : (List.range c.dispatches.length).filter ((c.resume d).isWaiting ·) =
      ((List.range c.dispatches.length).filter (c.isWaiting ·)).filter (· ≠ d) := by
    rw [List.filter_filter]
    refine List.filter_congr fun d' _ => ?_
    by_cases heq : d' = d
    · simp [heq, stops]
    · simp [heq, isWaiting, resume_other c heq]
  rw [waitingCount, waitingCount, resume_length, hsub]
  refine List.length_filter_lt_length_iff_exists.2 ⟨d, ?_, by simp⟩
  exact List.mem_filter.2 ⟨List.mem_range.2 hlt, hd⟩

/-- All requests that are done waiting can look at their connections, one after
another. -/
theorem exists_resumed (reach : Reachable settings codecs c) :
    ∃ events : List Event, (∀ e ∈ events, e.IsOwn) ∧ (c.run events).now = c.now ∧
      (c.run events).dispatches.all (c.run events).keepsWaiting = true := by
  -- On the number of requests that wait, of which each that looks is one less.
  induction hcount : c.waitingCount using Nat.strongRecOn generalizing c with
  | ind count ih =>
    by_cases hall : c.dispatches.all c.keepsWaiting = true
    · exact ⟨[], List.forall_mem_nil _, rfl, hall⟩
    · rw [List.all_eq_true] at hall
      push Not at hall
      obtain ⟨⟨reader, progress⟩, hentry, hready⟩ := hall
      obtain ⟨d, hd⟩ := List.getElem?_of_mem hentry
      cases progress with
      | waiting w =>
        have hstops := resume_stops reach hd (by simpa using hready)
        have hless := waitingCount_resume (by simp [isWaiting, hd]) hstops
        obtain ⟨events, hown, hnow, hkeep⟩ := ih _ (hcount ▸ hless) (reach.handle (.resume d)) rfl
        exact ⟨.resume d :: events, List.forall_mem_cons.2 ⟨trivial, hown⟩,
          hnow.trans (c.resume_now d).1, hkeep⟩
      | _ => exact absurd rfl hready

theorem isQuiet_iff :
    c.isQuiet = true ↔ c.dispatches.all c.keepsWaiting = true ∧ c.Spares (c.now + 1) := by
  rw [← nextDue?_all, isQuiet, Bool.and_eq_true]
  rfl

/-- Where all others wait, it takes the timers to come to rest. -/
theorem quiet_expire (reach : Reachable settings codecs c)
    (keep : c.dispatches.all c.keepsWaiting = true) : (c.handle .expire).isQuiet = true := by
  rw [List.all_eq_true] at keep
  have hconnections : ∀ k : ConnectionId, (c.handle .expire).connections[k]? =
      (c.connections[k]?).map (·.handle (.expire c.now)) := by
    intro k
    simp [handle, expireDue, Connection.handle]
  rw [isQuiet_iff, List.all_eq_true]
  -- No handshake changes when timers go off, so all who wait go on waiting.
  refine ⟨fun entry hentry => ?_, fun d reader w hd => ?_, fun near' hnear' timer htimer => ?_⟩
  · have hkeep := keep entry hentry
    unfold keepsWaiting at hkeep ⊢
    split
    · next w hw =>
      rw [hconnections]
      cases hk : c.connections[w.connection]? <;> simp_all [handle, expireDue, Connection.handle]
    · rfl
  · have hkeep := keep _ (List.mem_of_getElem? hd)
    simp only [keepsWaiting, Bool.and_eq_true, decide_eq_true_iff] at hkeep
    exact hkeep.1
  · obtain ⟨k, hk'⟩ := List.getElem?_of_mem hnear'
    rw [hconnections] at hk'
    obtain ⟨near, hk, rfl⟩ := Option.map_eq_some_iff.1 hk'
    obtain ⟨own, hnear⟩ := reach.connection hk
    exact hnear.sound.calls.expireDue_timers c.now htimer

/-- A client comes to rest at any instant, whatever the other sides do. -/
theorem exists_quiet (reach : Reachable settings codecs c) :
    ∃ events : List Event, (∀ e ∈ events, e.IsOwn) ∧ (c.run events).now = c.now ∧
      (c.run events).isQuiet = true := by
  obtain ⟨events, hown, hnow, hkeep⟩ := exists_resumed reach
  have hrun : c.run (events ++ [.expire]) = (c.run events).handle .expire := run_append _ _ _
  refine ⟨events ++ [.expire], List.forall_mem_append.2 ⟨hown, ?_⟩, ?_, ?_⟩
  · exact List.forall_mem_singleton.2 trivial
  · rw [hrun]
    exact hnow
  · rw [hrun]
    exact quiet_expire (reach.run events) hkeep

/-- Time passes, to any instant. -/
theorem exists_passed (reach : Reachable settings codecs c) {time : Nat} (le : c.now ≤ time) :
    ∃ events : List Event, (∀ e ∈ events, e.IsOwn) ∧ (c.run events).now = time ∧
      (c.run events).isQuiet = true := by
  -- One instant at a time: at rest nothing is due before the next one.
  induction le with
  | refl => exact exists_quiet reach
  | @step time le ih =>
    obtain ⟨events, hown, hnow, hquiet⟩ := ih
    have hspares := (isQuiet_iff.1 hquiet).2
    rw [hnow, ← nextDue?_all] at hspares
    have hmay : ((c.run events).isQuiet && (c.run events).now ≤ time + 1 &&
        (c.run events).nextDue?.all (time + 1 ≤ ·)) = true := by
      rw [hquiet, hspares, hnow, decide_eq_true (Nat.le_succ time)]
      rfl
    have hadvance : ((c.run events).advance (time + 1)).now = time + 1 := by
      rw [advance, if_pos hmay]
    obtain ⟨more, hmore, hnow', hquiet'⟩ :=
      exists_quiet ((reach.run events).handle (.advance (time + 1)))
    have hrun : c.run (events ++ .advance (time + 1) :: more) =
        ((c.run events).handle (.advance (time + 1))).run more := run_append _ _ _
    refine ⟨events ++ .advance (time + 1) :: more,
      List.forall_mem_append.2 ⟨hown, List.forall_mem_cons.2 ⟨trivial, hmore⟩⟩, ?_, ?_⟩
    · rw [hrun, hnow']
      exact hadvance
    · rw [hrun]
      exact hquiet'

end RpcClient.Client
