/-
What a client puts on its streams, against the calls that were registered
(`Traced`): each connection has sent its greeting and then the frames of its log,
in their order; an entry of a log that was a request is that of just one, and
says how this one stands. Every event keeps that (`Traced.handle`), so it holds
after every run, and no request is sent twice (`sent_in_order`).
-/
import RpcClient.Proofs.Client.Course
import RpcClient.Proofs.Connection.Traffic

namespace RpcClient

/-- The request as it goes onto the connection. -/
def Waiting.call (w : Waiting) : Request Bytes :=
  w.request.defaultTransport Headers.schemeKey Scheme.raw.tag

namespace Client

variable {c c' : Client} {e : Event} {k : ConnectionId} {d : DispatchId}

/-! ## What an event registers -/

/-- There is always what a connection is, or will be. -/
theorem exists_links (c : Client) (k : ConnectionId) : ∃ near, c.Links k near := by
  cases hk : c.connections[k]? with
  | some near => exact ⟨near, .inl hk⟩
  | none => exact ⟨_, .inr ⟨hk, .v4 0 0 0 0 0, rfl⟩⟩

theorem Links.queueOf {near : Connection} (h : c.Links k near) :
    c.queueOf k = near.calls.queue.getD [] := by
  rcases h with hk | ⟨hk, address, rfl⟩
  · simp [Client.queueOf, hk]
  · simp [Client.queueOf, hk, Connection.dial]

/-- What an event registers, by what it does to the queue. -/
theorem registered_eq (still : e.isStream = false) {near near' : Connection}
    (h : c.Links k near) (h' : (c.handle e).Links k near') :
    c.registered k e =
      ((near'.calls.queue.getD []).drop (near.calls.queue.getD []).length).map fun frame =>
        { request := e.request? c, frame, time := c.now } := by
  rw [← h.queueOf, ← h'.queueOf]
  cases e with
  | stream i event => cases still
  | _ => rfl

theorem registered_request {r : Registration} (h : r ∈ c.registered k e) :
    r.request = e.request? c ∧ r.time = c.now := by
  cases e with
  | stream i event => cases h
  | _ =>
    obtain ⟨frame, -, rfl⟩ := List.mem_map.1 h
    exact ⟨rfl, rfl⟩

theorem moved_still (f : Connection → Connection.Event → Bytes)
    (still : e.isStream = false) : c.moved f k e = [] := by
  cases e with
  | stream i event => cases still
  | _ => rfl

theorem moved_nothing {f : Connection → Connection.Event → Bytes}
    (own : ∀ near event, ofStream event = false → f near event = [])
    (still : ∀ event, e = .stream k event → ofStream event = false ∨ c.connections[k]? = none) :
    c.moved f k e = [] := by
  cases e with
  | stream i event =>
    simp only [moved]
    split
    · next hi =>
      subst hi
      rcases still event rfl with hown | hk
      · cases c.connections[i]? with
        | none => rfl
        | some near => exact own near event hown
      · rw [hk]
        rfl
    · rfl
  | _ => rfl

theorem moved_stream {f : Connection → Connection.Event → Bytes} {near : Connection}
    {event : Connection.Event} (hk : c.connections[k]? = some near) :
    c.moved f k (.stream k event) = f near event := by
  simp [moved, hk]

/-- An event moves and registers what it means for the connection. -/
theorem Does.account {events : List Connection.Event} (does : Does c e k events)
    {near : Connection} (h : c.Links k near) (h' : (c.handle e).Links k (near.run events))
    {frames : List Frame} {sent heard : Bytes} (account : near.Accounted frames sent heard) :
    (near.run events).Accounted (frames ++ (c.registered k e).map (·.frame))
      (sent ++ c.written k e) (heard ++ c.heard k e) := by
  -- What is not of the stream moves no bytes there, and all that it queues is registered.
  have hplain : ∀ event, e.isStream = false → events = [event] →
      near.written event = [] → near.heard event = [] →
      ((near.handle event).calls.queue.getD []).drop (near.calls.queue.getD []).length =
        near.queued event →
      (near.run events).Accounted (frames ++ (c.registered k e).map (·.frame))
        (sent ++ c.written k e) (heard ++ c.heard k e) := by
    intro event still hevents hwritten hheard hqueued
    subst hevents
    have hrun : near.run [event] = near.handle event := rfl
    rw [hrun] at h' ⊢
    have hregistered : (c.registered k e).map (·.frame) = near.queued event := by
      rw [registered_eq still h h', List.map_map, hqueued]
      exact List.map_id _
    have haccount := account.handle event
    rw [hwritten, hheard] at haccount
    rw [hregistered, written, Client.heard, moved_still _ still, moved_still _ still]
    exact haccount
  cases does with
  | nothing still =>
    have hwritten : c.written k e = [] := by
      refine moved_nothing (fun near event hown => ?_) still
      cases event <;> first | rfl | cases hown
    have hheard : c.heard k e = [] := by
      refine moved_nothing (fun near event hown => ?_) still
      cases event <;> first | rfl | cases hown
    have hregistered : c.registered k e = [] := by
      cases hstream : e.isStream with
      | true =>
        cases e with
        | stream i event => rfl
        | _ => cases hstream
      | false =>
        rw [registered_eq hstream h h']
        simp [Connection.run]
    rw [hwritten, hheard, hregistered, List.map_nil, List.append_nil, List.append_nil,
      List.append_nil]
    exact account
  | stream event he own opened =>
    subst he
    obtain ⟨near₁, hk⟩ := Option.isSome_iff_exists.1 opened
    obtain rfl := links_of_some hk h
    have hqueued : near.queued event = [] := by
      cases event <;> first | rfl | cases own
    have haccount := account.handle event
    rw [hqueued] at haccount
    rw [written, Client.heard, moved_stream hk, moved_stream hk]
    exact haccount
  | expire he =>
    subst he
    have hsame := near.calls.expireDue_same c.now
    refine hplain _ rfl rfl rfl rfl ?_
    rw [Connection.handle, hsame.queue, List.drop_length]
    rfl
  | clean still =>
    refine hplain _ still rfl rfl rfl ?_
    have hqueue : near.clean.calls.queue = near.calls.queue := by
      unfold Connection.clean
      split <;> rfl
    rw [Connection.handle, hqueue, List.drop_length]
    rfl
  | expect still request => exact hplain _ still rfl rfl rfl rfl

/-! ## Logs and requests -/

/-- A log for each connection. -/
abbrev Logs := ConnectionId → List Registration

/-- How the logs of a run, and the bytes that were sent and read, stand to the
client. -/
structure Traced (c : Client) (log : Logs) (sent heard : ConnectionId → Bytes) : Prop where
  account : ∀ k near, c.Links k near →
    near.Accounted ((log k).map (·.frame)) (sent k) (heard k) ∧
      near.calls.usualTimeout = c.settings.requestTimeout ∧
      near.announcement = c.connectionSettings.identity
  /-- The entry of a request is what the request says that it has become. -/
  owner : ∀ (k : ConnectionId) (n : Ticket) (r : Registration) d,
    (log k)[n]? = some r → r.request = some d →
    ∃ reader, c.dispatches[d]? = some ⟨reader, .sent k (.waiting n)⟩
  entry : ∀ d reader k n, c.dispatches[d]? = some ⟨reader, .sent k (.waiting n)⟩ →
    ∃ r : Registration, (log k)[n]? = some r ∧ r.request = some d

/-- A request is about to become the call that was asked for, or has become it. -/
def Carries (c : Client) (log : Logs) (d : DispatchId) (request : Request Bytes) : Prop :=
  ∃ reader progress, c.dispatches[d]? = some ⟨reader, progress⟩ ∧
    (∀ w, progress = .waiting w → w.request = request) ∧
    ∀ k n, progress = .sent k (.waiting n) → ∃ (r : Registration) (id : UInt32),
      (log k)[n]? = some r ∧ r.frame = .callRequest (request.called c.settings.requestTimeout id)

variable {log : Logs} {sent heard : ConnectionId → Bytes}

theorem Traced.start (settings : Settings) (codecs : Codecs) :
    Traced (start settings codecs) (fun _ => []) (fun _ => []) fun _ => [] := by
  refine ⟨fun k near hlinks => ?_, fun k n r d hr => ?_, fun d reader k n hd => ?_⟩
  · rcases hlinks with hk | ⟨-, address, rfl⟩
    · simp [Client.start] at hk
    · exact ⟨.dial _ _, rfl, rfl⟩
  · simp at hr
  · simp [Client.start] at hd

/-- No two entries are of one request. -/
theorem Traced.once (h : Traced c log sent heard) {k k' : ConnectionId} {n n' : Nat}
    {r r' : Registration} (hr : (log k)[n]? = some r) (hr' : (log k')[n']? = some r')
    (hd : r.request = some d) (hd' : r'.request = some d) : k = k' ∧ n = n' := by
  obtain ⟨reader, hprogress⟩ := h.owner k n r d hr hd
  obtain ⟨reader', hprogress'⟩ := h.owner k' n' r' d hr' hd'
  have hsame := hprogress.symm.trans hprogress'
  simp only [Option.some.injEq, Dispatch.mk.injEq, Progress.sent.injEq,
    Handle.waiting.injEq] at hsame
  exact hsame.2

/-- A request that no longer waits and is no call has no entry. -/
theorem Traced.unsent (h : Traced c log sent heard) {entry : Dispatch}
    (hd : c.dispatches[d]? = some entry) (unsent : ∀ k n, entry.progress ≠ .sent k (.waiting n))
    {r : Registration} (hr : r ∈ log k) : r.request ≠ some d := by
  intro hrequest
  obtain ⟨n, hn⟩ := List.getElem?_of_mem hr
  obtain ⟨reader, hsent⟩ := h.owner k n r d hn hrequest
  rw [hd] at hsent
  exact unsent k n (by rw [Option.some.inj hsent])

/-- The logs after an event. -/
def after (c : Client) (log : Logs) (e : Event) : Logs := fun k => log k ++ c.registered k e

theorem after_old {n : Nat} {r : Registration} (h : (log k)[n]? = some r) :
    (c.after log e k)[n]? = some r := by
  obtain ⟨hlt, -⟩ := List.getElem?_eq_some_iff.1 h
  rw [after, List.getElem?_append_left hlt, h]

/-- An entry is an old one, or the event has registered it. -/
theorem after_cases {n : Nat} {r : Registration} (h : (c.after log e k)[n]? = some r) :
    (log k)[n]? = some r ∨
      (c.registered k e)[n - (log k).length]? = some r ∧ (log k).length ≤ n := by
  by_cases hlt : n < (log k).length
  · rw [after, List.getElem?_append_left hlt] at h
    exact .inl h
  · rw [after, List.getElem?_append_right (Nat.le_of_not_lt hlt)] at h
    exact .inr ⟨h, Nat.le_of_not_lt hlt⟩

/-- Every event keeps the account of each connection. -/
theorem Traced.account_handle (h : Traced c log sent heard) (e : Event) {near' : Connection}
    (h' : (c.handle e).Links k near') :
    near'.Accounted ((c.after log e k).map (·.frame)) (sent k ++ c.written k e)
        (heard k ++ c.heard k e) ∧
      near'.calls.usualTimeout = (c.handle e).settings.requestTimeout ∧
      near'.announcement = (c.handle e).connectionSettings.identity := by
  obtain ⟨near, events, hlinks, rfl, hdoes⟩ := handle_does h'
  obtain ⟨haccount, husual, hannouncement⟩ := h.account k near hlinks
  have hsettings : (c.handle e).settings = c.settings := (c.handle_moves e).settings
  refine ⟨?_, ?_, ?_⟩
  · rw [after, List.map_append]
    exact hdoes.account hlinks h' haccount
  · rw [hsettings, ← husual]
    exact (near.run_moves events).usualTimeout
  · rw [connectionSettings, hsettings, ← connectionSettings, ← hannouncement]
    exact (near.run_moves events).announcement

/-! ## A request becomes a call -/

/-- Nothing is registered, and the request becomes no call. -/
structure Idle (c : Client) (e : Event) (d : DispatchId) : Prop where
  registered : ∀ k, c.registered k e = []
  sent : ∀ reader k n, (c.handle e).dispatches[d]? = some ⟨reader, .sent k (.waiting n)⟩ →
    c.dispatches[d]? = some ⟨reader, .sent k (.waiting n)⟩

/-- A request tries to become a call on the connection that it has waited for. -/
structure Tries (c : Client) (e : Event) (d : DispatchId) (reader : ReplyReader) (w : Waiting)
    (near : Connection) : Prop where
  still : e.isStream = false
  before : c.Links w.connection near
  after : (c.handle e).connections[w.connection]? = some (near.handle (.expect c.now w.call))
  sent : (c.handle e).dispatches[d]? =
    some ⟨reader, .sent w.connection (near.calls.expect c.now w.call).2⟩
  others : ∀ k, k ≠ w.connection → ∀ other, (c.handle e).Links k other → c.Links k other

theorem registered_nil (still : e.isStream = false)
    (same : ∀ near', (c.handle e).Links k near' →
      ∃ near, c.Links k near ∧ near'.calls.queue = near.calls.queue) : c.registered k e = [] := by
  obtain ⟨near', h'⟩ := (c.handle e).exists_links k
  obtain ⟨near, h, hqueue⟩ := same near' h'
  rw [registered_eq still h h', hqueue, List.drop_length, List.map_nil]

theorem Poised.tries {c₁ : Client} (poised : Poised c e d c₁)
    (still : e.isStream = false) {reader : ReplyReader} {w : Waiting}
    {near : Connection} (hw : c₁.dispatches[d]? = some ⟨reader, .waiting w⟩)
    (hnear : c₁.connections[w.connection]? = some near)
    (he : c.handle e = (c₁.modifyConnection w.connection (·.handle (.expect c₁.now w.call))).setProgress
      d (.sent w.connection (near.calls.expect c₁.now w.call).2)) :
    Tries c e d reader w near := by
  rw [poised.now] at he
  refine ⟨still, poised.links (.inl hnear), ?_, ?_, fun k hk other hother => ?_⟩
  · rw [he]
    simp [setProgress, modifyConnection, hnear]
  · rw [he, getElem?_setProgress, if_pos rfl]
    simp [modifyConnection, hw]
  · rw [he] at hother
    rcases modifyConnection_links (c := c₁) (f := (·.handle (.expect c.now w.call))) hother with
      ⟨hkept, -⟩ | ⟨heq, -⟩
    · exact poised.links hkept
    · exact absurd heq.symm hk

theorem Poised.idle_of_giveUp {c₁ : Client} (poised : Poised c e d c₁)
    (still : e.isStream = false) {w : Waiting} (he : c.handle e = c₁.giveUp d w) :
    Idle c e d := by
  constructor
  · intro k
    refine registered_nil still fun near' h' => ?_
    rw [he] at h'
    rcases modifyConnection_links (c := c₁) (f := Connection.clean) h' with ⟨hkept, -⟩ |
      ⟨-, near, hnear, rfl⟩
    · exact ⟨near', poised.links hkept, rfl⟩
    · refine ⟨near, poised.links (.inl hnear), ?_⟩
      unfold Connection.clean
      split <;> rfl
  · intro reader k n hsent
    rw [he, giveUp, getElem?_setProgress, if_pos rfl] at hsent
    obtain ⟨entry, -, hfailed⟩ := Option.map_eq_some_iff.1 hsent
    cases hfailed

/-- When it looks at its connection, a request goes on as it was, gives that up,
or tries to become a call. -/
theorem Poised.turn {c₁ : Client} (poised : Poised c e d c₁) (he : c.handle e = c₁.resume d) :
    c.handle e = c₁ ∨
    (∃ reader w near, c₁.dispatches[d]? = some ⟨reader, .waiting w⟩ ∧
      c₁.connections[w.connection]? = some near ∧ c.handle e = c₁.giveUp d w) ∨
    ∃ reader w near, c₁.dispatches[d]? = some ⟨reader, .waiting w⟩ ∧
      Tries c e d reader w near := by
  have still : e.isStream = false := request_still poised.request
  rcases c₁.resume_cases d with hr | ⟨reader, w, near, hw, hnear, hr⟩ |
    ⟨reader, w, near, hw, hnear, hr⟩
  · exact .inl (he.trans hr)
  · exact .inr (.inl ⟨reader, w, near, hw, hnear, he.trans hr⟩)
  · exact .inr (.inr ⟨reader, w, near, hw, poised.tries still hw hnear (he.trans hr)⟩)

theorem request_tries (hd : e.request? c = some d) :
    Idle c e d ∨ ∃ reader w near, Tries c e d reader w near := by
  have still : e.isStream = false := request_still hd
  rcases handle_poised hd with he | ⟨c₁, hpoised, he⟩
  · left
    constructor
    · exact fun k => registered_nil still fun near' h' => ⟨near', he ▸ h', rfl⟩
    · intro reader k n hsent
      rwa [he] at hsent
  rcases hpoised.turn he with he | ⟨reader, w, near, -, -, he⟩ | ⟨reader, w, near, -, htries⟩
  · left
    constructor
    · exact fun k => registered_nil still fun near' h' => ⟨near', hpoised.links (he ▸ h'), rfl⟩
    · intro reader k n hsent
      rw [he] at hsent
      rcases hpoised.self with hself | ⟨-, _, _, hself⟩
      · exact hself.symm.trans hsent
      · cases hself.symm.trans hsent
  · exact .inl (hpoised.idle_of_giveUp still he)
  · exact .inr ⟨reader, w, near, htries⟩

/-- Where the table does not change, the request has become no call. -/
theorem Tries.idle {reader : ReplyReader} {w : Waiting} {near : Connection}
    (h : Tries c e d reader w near) (same : (near.calls.expect c.now w.call).1 = near.calls)
    (not : ∀ n, (near.calls.expect c.now w.call).2 ≠ .waiting n) : Idle c e d := by
  constructor
  · intro k
    refine registered_nil h.still fun near' h' => ?_
    by_cases hk : k = w.connection
    · subst hk
      obtain rfl := links_of_some h.after h'
      exact ⟨near, h.before, by rw [Connection.handle, same]⟩
    · exact ⟨near', h.others k hk near' h', rfl⟩
  · intro reader' k n hsent
    rw [h.sent] at hsent
    simp only [Option.some.injEq, Dispatch.mk.injEq, Progress.sent.injEq] at hsent
    exact absurd hsent.2.2 (not n)

/-- What a request registers that becomes a call: its own frame, as the last one
of its connection. -/
theorem Tries.registered {reader : ReplyReader} {w : Waiting} {near : Connection}
    (h : Tries c e d reader w near) (hd : e.request? c = some d) {id : UInt32}
    {frames : List Frame} (queue : near.calls.queue = some frames)
    (made : (near.calls.expect c.now w.call).1 = near.calls.enter c.now w.call id frames) :
    c.registered k e =
      if k = w.connection then
        [⟨some d, .callRequest (w.request.called near.calls.usualTimeout id), c.now⟩]
      else [] := by
  by_cases hk : k = w.connection
  · subst hk
    rw [if_pos rfl, registered_eq h.still h.before (.inl h.after), Connection.handle, made, queue,
      hd]
    simp [CallTable.enter, Request.called, Waiting.call]
    rfl
  · rw [if_neg hk]
    exact registered_nil h.still fun near' h' => ⟨near', h.others k hk near' h', rfl⟩

/-- A call that is made comes in as the last one of its connection, or nothing
happens there. -/
theorem Traced.expect_cases (h : Traced c log sent heard) {near : Connection}
    (hlinks : c.Links k near) (now : Nat) (request : Request Bytes) :
    ((near.calls.expect now request).1 = near.calls ∧
      ∀ n, (near.calls.expect now request).2 ≠ .waiting n) ∨
    ∃ id frames, near.calls.queue = some frames ∧ near.calls.isPending id = false ∧
      near.calls.expect now request =
        (near.calls.enter now request id frames, .waiting near.calls.issued) := by
  obtain ⟨haccount, -, -⟩ := h.account k near hlinks
  rcases near.calls.expect_cases now request with ⟨cause, -, hmade⟩ | ⟨-, -, hmade⟩ |
    ⟨id, hopen, -, hqueue, -⟩ | ⟨id, frames, -, hfree, hqueue, hmade⟩
  · exact .inl ⟨by rw [hmade], by simp [hmade]⟩
  · exact .inl ⟨by rw [hmade], by simp [hmade]⟩
  · have hclosed := haccount.closed hqueue
    simp [CallTable.isClosed, hopen] at hclosed
  · exact .inr ⟨id, frames, hqueue, CallTable.freeId?_free hfree, hmade⟩

/-- A request that tries to become a call registers it, or registers nothing. -/
theorem Traced.request_cases (h : Traced c log sent heard) (hd : e.request? c = some d) :
    Idle c e d ∨
    ∃ reader w near id frames, Tries c e d reader w near ∧ near.calls.queue = some frames ∧
      near.calls.expect c.now w.call =
        (near.calls.enter c.now w.call id frames, .waiting near.calls.issued) := by
  rcases request_tries hd with hidle | ⟨reader, w, near, htries⟩
  · exact .inl hidle
  · rcases h.expect_cases htries.before c.now w.call with ⟨hsame, hnot⟩ |
      ⟨id, frames, hqueue, -, hmade⟩
    · exact .inl (htries.idle hsame hnot)
    · exact .inr ⟨reader, w, near, id, frames, htries, hqueue, hmade⟩

/-- The new entry of a request stands where its call is. -/
theorem Tries.entry {reader : ReplyReader} {w : Waiting} {near : Connection}
    (h : Tries c e d reader w near) (traced : Traced c log sent heard)
    (hd : e.request? c = some d) {id : UInt32} {frames : List Frame}
    (queue : near.calls.queue = some frames)
    (made : near.calls.expect c.now w.call =
      (near.calls.enter c.now w.call id frames, .waiting near.calls.issued)) :
    (log w.connection).length = near.calls.issued ∧
    (c.after log e w.connection)[near.calls.issued]? =
      some ⟨some d, .callRequest (w.request.called c.settings.requestTimeout id), c.now⟩ ∧
    ∀ k n r, (c.after log e k)[n]? = some r → (log k)[n]? = some r ∨
      k = w.connection ∧ n = near.calls.issued ∧ r.request = some d := by
  obtain ⟨haccount, husual, -⟩ := traced.account w.connection near h.before
  have hregistered := fun k => h.registered (k := k) hd queue (by rw [made])
  have hlength : (log w.connection).length = near.calls.issued := by
    rw [haccount.issued, List.length_map]
  refine ⟨hlength, ?_, fun k n r hr => ?_⟩
  · rw [Client.after, hregistered, if_pos rfl, ← hlength, husual]
    simp
  · rcases after_cases hr with hold | ⟨hnew, hle⟩
    · exact .inl hold
    · rw [hregistered] at hnew
      by_cases hk : k = w.connection
      · subst hk
        rw [if_pos rfl, List.getElem?_singleton] at hnew
        split at hnew
        · next hzero =>
          refine .inr ⟨rfl, by omega, ?_⟩
          rw [← Option.some.inj hnew]
        · cases hnew
      · rw [if_neg hk] at hnew
        cases hnew

/-- Every event keeps the entries of each request and how it stands together. -/
theorem Traced.handle (h : Traced c log sent heard) (e : Event) :
    Traced (c.handle e) (c.after log e) (fun k => sent k ++ c.written k e)
      (fun k => heard k ++ c.heard k e) := by
  refine ⟨fun k near' h' => h.account_handle e h', fun k n r d hr hrequest => ?_,
    fun d reader k n hsent => ?_⟩
  · have hkept : (log k)[n]? = some r →
        ∃ reader, (c.handle e).dispatches[d]? = some ⟨reader, .sent k (.waiting n)⟩ := by
      intro hold
      obtain ⟨reader, hsent⟩ := h.owner k n r d hold hrequest
      exact ⟨reader, handle_settled hsent nofun⟩
    rcases after_cases hr with hold | ⟨hnew, -⟩
    · exact hkept hold
    · have hd : e.request? c = some d := by
        rw [← (registered_request (List.mem_of_getElem? hnew)).1]
        exact hrequest
      -- The entry is new, so it is of the request in whose course the event is.
      rcases h.request_cases hd with hidle | ⟨reader, w, near, id, frames, htries, hqueue, hmade⟩
      · rw [hidle.registered] at hnew
        cases hnew
      · rcases (htries.entry h hd hqueue hmade).2.2 k n r hr with hold | ⟨rfl, rfl, -⟩
        · exact hkept hold
        · refine ⟨reader, ?_⟩
          rw [htries.sent, hmade]
  · have hkept : c.dispatches[d]? = some ⟨reader, .sent k (.waiting n)⟩ →
        ∃ r : Registration, (c.after log e k)[n]? = some r ∧ r.request = some d := by
      intro hold
      obtain ⟨r, hr, hrequest⟩ := h.entry d reader k n hold
      exact ⟨r, after_old hr, hrequest⟩
    by_cases hd : e.request? c = some d
    · rcases h.request_cases hd with hidle | ⟨reader', w, near, id, frames, htries, hqueue, hmade⟩
      · exact hkept (hidle.sent reader k n hsent)
      · rw [htries.sent, hmade] at hsent
        simp only [Option.some.injEq, Dispatch.mk.injEq, Progress.sent.injEq,
          Handle.waiting.injEq] at hsent
        obtain ⟨-, rfl, rfl⟩ := hsent
        exact ⟨_, (htries.entry h hd hqueue hmade).2.1, rfl⟩
    · rcases handle_unasked hd with hsame | ⟨reader', w, -, habandoned⟩
      · exact hkept (hsame.symm.trans hsent)
      · cases habandoned.symm.trans hsent

theorem Carries.keep {request : Request Bytes} (carries : c.Carries log d request)
    (h : (c.handle e).dispatches[d]? = c.dispatches[d]?) :
    (c.handle e).Carries (c.after log e) d request := by
  obtain ⟨reader, progress, hd, hwaiting, hcall⟩ := carries
  refine ⟨reader, progress, h.trans hd, hwaiting, fun k n hprogress => ?_⟩
  obtain ⟨r, id, hr, hframe⟩ := hcall k n hprogress
  exact ⟨r, id, after_old hr, by rw [hframe, (c.handle_moves e).settings]⟩

theorem Carries.poised {request : Request Bytes} {c₁ : Client} (carries : c.Carries log d request)
    (poised : Poised c e d c₁) : c₁.Carries log d request := by
  obtain ⟨reader, progress, hd, hrest⟩ := carries
  rcases poised.self with hsame | ⟨hnone, -⟩
  · rw [Carries, poised.settings]
    exact ⟨reader, progress, hsame.trans hd, hrest⟩
  · cases hd.symm.trans hnone

/-- A request that comes in is to become the call that was prepared. -/
theorem Poised.carries {i : ServiceId} {out : Outgoing} {target : Option Address} {start : Nat}
    {s : Service} {request : Request Bytes} {reader : ReplyReader} {c₁ : Client}
    (poised : Poised c (.dispatch i out target start) d c₁) (hs : c.services[i]? = some s)
    (prepared : s.prepare out = .ok (request, reader)) : c₁.Carries log d request := by
  cases poised with
  | dispatch hs' prepared' routed =>
    obtain rfl := Option.some.inj (hs.symm.trans hs')
    obtain ⟨rfl, rfl⟩ := Prod.mk.inj (Except.ok.inj (prepared.symm.trans prepared'))
    refine ⟨reader, _, List.getElem?_concat_length, fun w hw => ?_, fun _ _ h => by cases h⟩
    rw [← Progress.waiting.inj hw]

/-- A request that looks at its connection becomes the call that was asked for, if
it becomes one. -/
theorem Carries.turn {request : Request Bytes} {c₁ : Client} (carries : c₁.Carries log d request)
    (h : Traced c log sent heard) (poised : Poised c e d c₁) (he : c.handle e = c₁.resume d) :
    (c.handle e).Carries (c.after log e) d request := by
  obtain ⟨reader, progress, hd, hwaiting, hcall⟩ := carries
  have hsettings : (c.handle e).settings = c.settings := (c.handle_moves e).settings
  rcases poised.turn he with he | ⟨reader', w, near, hw, hnear, he⟩ |
    ⟨reader', w, near, hw, htries⟩
  · refine ⟨reader, progress, by rw [he, hd], hwaiting, fun k n hprogress => ?_⟩
    obtain ⟨r, id, hr, hframe⟩ := hcall k n hprogress
    exact ⟨r, id, after_old hr, by rw [hframe, hsettings, poised.settings]⟩
  · have hfailed := giveUp_self hw hnear
    rw [← he] at hfailed
    exact ⟨reader', _, hfailed, nofun, nofun⟩
  · have hrequest : w.request = request := by
      have hsame := hd.symm.trans hw
      simp only [Option.some.injEq, Dispatch.mk.injEq] at hsame
      exact hwaiting w hsame.2
    refine ⟨reader', _, htries.sent, nofun, fun k n hprogress => ?_⟩
    simp only [Progress.sent.injEq] at hprogress
    obtain ⟨rfl, hhandle⟩ := hprogress
    rcases h.expect_cases htries.before c.now w.call with ⟨-, hnot⟩ |
      ⟨id, frames, hqueue, -, hmade⟩
    · exact absurd hhandle (hnot n)
    · rw [hmade, Handle.waiting.injEq] at hhandle
      subst hhandle
      exact ⟨_, id, (htries.entry h poised.request hqueue hmade).2.1, by rw [hrequest, hsettings]⟩

/-- What a request is to become does not change. -/
theorem Carries.handle {request : Request Bytes} (carries : c.Carries log d request)
    (h : Traced c log sent heard) (e : Event) : (c.handle e).Carries (c.after log e) d request := by
  by_cases hask : e.request? c = some d
  · rcases handle_poised hask with he | ⟨c₁, hpoised, he⟩
    · exact carries.keep (by rw [he])
    · exact (carries.poised hpoised).turn h hpoised he
  · rcases handle_unasked hask with hsame | ⟨reader', w, hw, habandoned⟩
    · exact carries.keep hsame
    · exact ⟨reader', .abandoned, habandoned, nofun, nofun⟩

/-- A request that is dispatched is to become the call that was prepared. -/
theorem Traced.dispatch (h : Traced c log sent heard) {i : ServiceId} {out : Outgoing}
    {target : Option Address} {start : Nat} {s : Service} {request : Request Bytes}
    {reader : ReplyReader} (hs : c.services[i]? = some s)
    (prepared : s.prepare out = .ok (request, reader))
    (hok : c.dispatch i out target start = .ok (c', d)) :
    c.handle (.dispatch i out target start) = c' ∧
      c'.Carries (c.after log (.dispatch i out target start)) d request := by
  have he : c.handle (.dispatch i out target start) = c' := handle_dispatch hok
  obtain ⟨-, c₁, hpoised, hresume⟩ := dispatch_poised hok
  refine ⟨he, ?_⟩
  rw [← he] at hresume ⊢
  exact (hpoised.carries hs prepared).turn h hpoised hresume.symm

/-! ## Runs -/

theorem run_append (c : Client) (events more : List Event) :
    c.run (events ++ more) = (c.run events).run more := List.foldl_append

theorem run_settings (c : Client) (events : List Event) : (c.run events).settings = c.settings := by
  induction events generalizing c with
  | nil => rfl
  | cons e events ih => exact (ih (c.handle e)).trans (c.handle_moves e).settings

theorem log_append (c : Client) (k : ConnectionId) (events more : List Event) :
    c.log k (events ++ more) = c.log k events ++ (c.run events).log k more := by
  induction events generalizing c with
  | nil => rfl
  | cons e events ih =>
    have hrest := ih (c.handle e)
    simp only [log, collect, List.cons_append, List.append_assoc] at hrest ⊢
    rw [hrest]
    rfl

theorem log_turn (c : Client) (k : ConnectionId) (early : List Event) (turn : Event)
    (late : List Event) :
    c.log k (early ++ turn :: late) =
      (c.run early).after (c.log · early) turn k ++ ((c.run early).handle turn).log k late := by
  rw [log_append, Client.after, List.append_assoc]
  rfl

theorem Traced.run (h : Traced c log sent heard) (events : List Event) :
    Traced (c.run events) (fun k => log k ++ c.log k events)
      (fun k => sent k ++ c.transcript k events) (fun k => heard k ++ c.hearing k events) := by
  induction events generalizing c log sent heard with
  | nil => simpa [Client.run, Client.log, transcript, hearing, collect] using h
  | cons e events ih =>
    have hrest := ih (h.handle e)
    simpa [Client.run, Client.log, transcript, hearing, collect, Client.after] using hrest

theorem Carries.run {request : Request Bytes} (carries : c.Carries log d request)
    (h : Traced c log sent heard) (events : List Event) :
    (c.run events).Carries (fun k => log k ++ c.log k events) d request := by
  induction events generalizing c log sent heard with
  | nil => simpa [Client.run, Client.log, collect] using carries
  | cons e events ih =>
    have hrest := ih (carries.handle h e) (h.handle e)
    simpa [Client.run, Client.log, collect, Client.after] using hrest

/-- How the logs of a run from the start stand to the client. -/
theorem traced_run (settings : Settings) (codecs : Codecs) (events : List Event) :
    let c := Client.start settings codecs
    Traced (c.run events) (c.log · events) (c.transcript · events) (c.hearing · events) := by
  intro c
  simpa using (Traced.start settings codecs).run events

/-- A request that was dispatched in a run becomes the call that was prepared. -/
theorem carries_run (settings : Settings) (codecs : Codecs) (before after : List Event)
    {i : ServiceId} {out : Outgoing} {target : Option Address} {start : Nat} {s : Service}
    {request : Request Bytes} {reader : ReplyReader}
    (hs : ((Client.start settings codecs).run before).services[i]? = some s)
    (prepared : s.prepare out = .ok (request, reader))
    (hok : ((Client.start settings codecs).run before).dispatch i out target start = .ok (c', d)) :
    let c₀ := Client.start settings codecs
    let events := before ++ .dispatch i out target start :: after
    (c₀.run events).Carries (c₀.log · events) d request := by
  intro c₀ events
  have htraced : Traced (c₀.run before) _ _ _ := traced_run settings codecs before
  obtain ⟨he, hcarries⟩ := htraced.dispatch hs prepared hok
  have hrun := hcarries.run (he ▸ htraced.handle (.dispatch i out target start)) after
  have hlog : (fun k => c₀.log k events) = fun k =>
      (c₀.run before).after (c₀.log · before) (.dispatch i out target start) k ++ c'.log k after := by
    funext k
    rw [log_turn, ← he]
  have hclient : c₀.run events = c'.run after := by
    rw [run_append, ← he]
    rfl
  rw [hlog, hclient]
  exact hrun

/-- **Sent in order, and at most once.** After any run, a connection has put on its
stream a first part of its greeting, followed by the frames of the calls that were
registered there, in their order; and of these nothing before the other side has
introduced itself with the first frame that came in. A request stands in at most
one log and there once, as the call that was prepared for it, just when it says
that it is that call. A request that no longer waits, and has not become a call,
stands in no log, whatever comes after. -/
theorem sent_in_order (settings : Settings) (codecs : Codecs) (events : List Event) :
    let c₀ := Client.start settings codecs
    let c := c₀.run events
    let greeting := Connection.frameBytes (.initRequest c₀.connectionSettings.identity)
    (∀ k, c₀.transcript k events <+:
      greeting ++ (c₀.log k events).flatMap fun r => Connection.frameBytes r.frame) ∧
    (∀ k, c₀.transcript k events <+: greeting ∨ Connection.Introduced (c₀.hearing k events)) ∧
    (∀ k near, c.connections[k]? = some near → near.calls.issued = (c₀.log k events).length) ∧
    (∀ k, ∀ r ∈ c₀.log k events, ∃ call, r.frame = .callRequest call) ∧
    (∀ k k' (n n' : Ticket) (r r' : Registration) d,
      (c₀.log k events)[n]? = some r → (c₀.log k' events)[n']? = some r' →
      r.request = some d → r'.request = some d → k = k' ∧ n = n') ∧
    (∀ d k n, (∃ reader, c.dispatches[d]? = some ⟨reader, .sent k (.waiting n)⟩) ↔
      ∃ r : Registration, (c₀.log k events)[n]? = some r ∧ r.request = some d) ∧
    (∀ before i out target start after s request reader c₁ d,
      events = before ++ .dispatch i out target start :: after →
      (c₀.run before).services[i]? = some s → s.prepare out = .ok (request, reader) →
      (c₀.run before).dispatch i out target start = .ok (c₁, d) →
      ∀ k, ∀ r ∈ c₀.log k events, r.request = some d →
        ∃ id, r.frame = .callRequest (request.called settings.requestTimeout id)) ∧
    (∀ d entry, c.dispatches[d]? = some entry → (∀ w, entry.progress ≠ .waiting w) →
      (∀ k n, entry.progress ≠ .sent k (.waiting n)) →
      ∀ more k, ∀ r ∈ c₀.log k (events ++ more), r.request ≠ some d) := by
  intro c₀ c greeting
  have traced := traced_run settings codecs events
  have hsettings : c.settings = settings := c₀.run_settings events
  have hgreeting : ∀ near k, c.Links k near → near.greeting = greeting := by
    intro near k hlinks
    rw [Connection.greeting, (traced.account k near hlinks).2.2, connectionSettings, hsettings]
    rfl
  have horder : ∀ k, Connection.InOrder greeting ((c₀.log k events).map (·.frame))
      (c₀.transcript k events) (c₀.hearing k events) := by
    intro k
    obtain ⟨near, hlinks⟩ := c.exists_links k
    rw [← hgreeting near k hlinks]
    exact (traced.account k near hlinks).1.inOrder
  refine ⟨fun k => ?_, fun k => (horder k).introduced, fun k near hk => ?_, fun k r hr => ?_,
    fun k k' n n' r r' d hr hr' hd hd' => traced.once hr hr' hd hd', fun d k n => ⟨?_, ?_⟩,
    fun before i out target start after s request reader c₁ d hevents hs hprepared hok k r hr hd =>
      ?_, fun d entry hentry hwaiting hsent more k r hr => ?_⟩
  · have hprefix := (horder k).order
    rwa [List.flatMap_map] at hprefix
  · rw [(traced.account k near (.inl hk)).1.issued, List.length_map]
  · obtain ⟨near, hlinks⟩ := c.exists_links k
    exact (traced.account k near hlinks).1.calls r.frame (List.mem_map_of_mem hr)
  · rintro ⟨reader, hsent⟩
    exact traced.entry d reader k n hsent
  · rintro ⟨r, hr, hd⟩
    exact traced.owner k n r d hr hd
  · subst hevents
    obtain ⟨n, hn⟩ := List.getElem?_of_mem hr
    obtain ⟨reader', hsent⟩ := traced.owner k n r d hn hd
    obtain ⟨_, progress, hprogress, -, hcall⟩ :=
      carries_run settings codecs before after hs hprepared hok
    obtain ⟨-, rfl⟩ := Dispatch.mk.inj (Option.some.inj (hprogress.symm.trans hsent))
    obtain ⟨r', id, hr', hframe⟩ := hcall k n rfl
    obtain rfl := Option.some.inj (hn.symm.trans hr')
    exact ⟨id, by rw [hframe, hsettings]⟩
  · have hkept : (c₀.run (events ++ more)).dispatches[d]? = some entry := by
      rw [run_append]
      exact run_settled hentry hwaiting more
    exact (traced_run settings codecs (events ++ more)).unsent hkept hsent hr

/-- A request that was dispatched before anything was sent goes out behind the
greeting. -/
example :
    let identity : Identity := { hostPort := "127.0.0.1:4040", processName := "bank" }
    let request : Request Bytes := { service := "ledger", endpoint := "balance", body := [7] }
    let c₀ := Client.start {} {}
    let events : List Event :=
      [.service "ledger" .outbound, .dispatch 0 (.plain request) (some (.v4 127 0 0 1 4040)) 0,
        .stream 0 .dialled, .stream 0 (.wrote 1000),
        .stream 0 (.arrived (Connection.frameBytes (.initResponse identity))), .resume 0,
        .stream 0 .load, .stream 0 (.wrote 1000)]
    c₀.transcript 0 events =
      Connection.frameBytes (.initRequest c₀.connectionSettings.identity) ++
        Connection.frameBytes (.callRequest (request.called c₀.settings.requestTimeout 1)) := by
  decide +kernel

end Client

end RpcClient
