/-
After a client was shut down nothing of it is in flight. Nobody waits on a
connection that must not be used (`Sound.idle`), and as the pool has all that may,
giving up those in the pool leaves no other. From then on nothing comes to an end
on them (`Sound.retired`), and while none is opened there is nothing to shut down
(`run_pool`). Whoever asks for one gets a new one (`dispatch_opens`).
-/
import RpcClient.Proofs.Client.Clock
import RpcClient.Proofs.Connection.FirstCause
import RpcClient.Proofs.Peer.Scan

namespace RpcClient

/-! ## Closed tables -/

namespace CallTable

variable {t t' : CallTable} {cause : Error}

/-- Nobody is left whose call could end. -/
theorem ClosedFor.complete (h : ClosedFor t cause) (id : UInt32)
    (outcome : PendingCall → Outcome Bytes) : t.complete id outcome = (t, false) := by
  apply complete_of_not_pending
  simp [isPending, h.pending]

/-- In a closed table nothing comes to an end any more. -/
theorem ClosedFor.step (h : ClosedFor t cause) (s : Step t t') :
    ClosedFor t' cause ∧ t'.settled = t.settled := by
  cases s with
  | expect now request =>
    rw [h.expect now request]
    exact ⟨h, rfl⟩
  | complete id outcome =>
    rw [h.complete id outcome]
    exact ⟨h, rfl⟩
  | failAll later =>
    rw [h.failAll later]
    exact ⟨h, rfl⟩
  | discard =>
    have htimers : t.discard.timers = [] := by simp [CallTable.discard, endAll, h.timers]
    have hsettled : t.discard.settled = t.settled := by
      simp [CallTable.discard, endAll, h.pending]
    exact ⟨⟨h.closed, rfl, htimers⟩, hsettled⟩
  | queue queue => exact ⟨⟨h.closed, h.pending, h.timers⟩, rfl⟩

theorem ClosedFor.steps (h : ClosedFor t cause) (s : Steps t t') :
    ClosedFor t' cause ∧ t'.settled = t.settled := by
  refine s.keeps (P := fun t' => ClosedFor t' cause ∧ t'.settled = t.settled) ?_ ⟨h, rfl⟩
  rintro t₁ t₂ ⟨hclosed, hsame⟩ last
  obtain ⟨hnext, hsettled⟩ := hclosed.step last
  exact ⟨hnext, hsettled.trans hsame⟩

end CallTable

/-! ## Connections that are given up -/

namespace Connection

variable {c : Connection}

/-- Nothing is in flight on a connection, and nobody may use it. -/
structure Idle (c : Connection) : Prop where
  unusable : c.isUsable = false
  pending : c.calls.pending = []
  timers : c.calls.timers = []

/-- What has become of a connection on which nothing was in flight. -/
structure Retired (c c' : Connection) : Prop where
  idle : Idle c'
  settled : c'.calls.settled = c.calls.settled
  reply : ∀ reply, c'.calls.handleReply reply = (c'.calls, false)
  report : ∀ report, c'.calls.handleFailure report = (c'.calls, false)

theorem Sound.closedFor (h : Sound c) (hu : c.isUsable = false) :
    ∃ cause, c.calls.ClosedFor cause := by
  have hfailed : c.handshake = .failed := by
    by_contra hnot
    rw [h.isUsable_iff.2 hnot] at hu
    cases hu
  obtain ⟨cause, hcause⟩ := Option.isSome_iff_exists.1 (h.closed.2 hfailed)
  exact ⟨cause, h.calls.closedFor hcause⟩

theorem Sound.idle (h : Sound c) (hu : c.isUsable = false) : Idle c := by
  obtain ⟨cause, hclosed⟩ := h.closedFor hu
  exact ⟨hu, hclosed.pending, hclosed.timers⟩

/-- Whatever happens to a connection that must not be used, no call ends on it. -/
theorem Sound.retired (h : Sound c) (hu : c.isUsable = false) (events : List Event) :
    Retired c (c.run events) := by
  obtain ⟨cause, hclosed⟩ := h.closedFor hu
  obtain ⟨hlater, hsettled⟩ := hclosed.steps (c.run_moves events).calls_steps
  have hunusable : (c.run events).isUsable = false := by
    cases hr : (c.run events).isUsable with
    | false => rfl
    | true =>
      rw [(c.run_later events).usable hr] at hu
      cases hu
  exact ⟨⟨hunusable, hlater.pending, hlater.timers⟩, hsettled, fun reply => hlater.complete _ _,
    fun report => hlater.complete _ _⟩

/-- Whoever waits when a connection is given up is told that the link is closed: a
connection that broke for another reason has nobody who waits. -/
theorem Sound.outcome?_clean (h : Sound c) {call : PendingCall} (hcall : call ∈ c.calls.pending) :
    c.clean.calls.outcome? (.waiting call.ticket) = some (.error (.network .linkClosed)) := by
  have halive : c.handshake ≠ .failed := by
    intro hfailed
    rw [h.calls.closed (h.closed.2 hfailed)] at hcall
    cases hcall
  have hkept : c.cleaned = false := by
    by_contra hcleaned
    exact halive (h.cleaned (by simpa using hcleaned))
  have herror : c.lastError = none := by
    by_contra hsome
    obtain ⟨error, he⟩ := Option.ne_none_iff_exists'.1 hsome
    exact halive (h.lastError error he)
  have hclean : c.clean.calls = (c.calls.failAll .linkClosed).1 := by
    simp [Connection.clean, hkept, herror]
  rw [hclean]
  exact CallTable.outcome?_failAll h.calls hcall

end Connection

namespace Client

variable {c c' : Client} {e : Event} {i : ConnectionId} {k : Connection}
  {settings : Settings} {codecs : Codecs}

/-! ## Giving up all connections -/

theorem Reachable.sound (h : Reachable settings codecs c) (hk : c.connections[i]? = some k) :
    k.Sound := by
  obtain ⟨own, hreach⟩ := h.connection hk
  exact hreach.sound

/-- Where the pool is empty, no connection may be used. -/
theorem Shared.unusable (h : Shared c) (pool : c.pool = []) (hk : c.connections[i]? = some k) :
    k.isUsable = false := by
  cases hu : k.isUsable with
  | false => rfl
  | true =>
    have hcurrent : c.current? k.remote = some i := h.usable i k hk hu
    rw [Client.current?, pool] at hcurrent
    cases hcurrent

/-- Every connection is given up that may still be used. -/
theorem Shared.shutdown_connection (h : Shared c) (hk : c.connections[i]? = some k) :
    c.shutdown.connections[i]? = some k.clean ∨
      c.shutdown.connections[i]? = some k ∧ k.isUsable = false := by
  have hshutdown : c.shutdown.connections[i]? =
      if i ∈ c.pool.map (·.2) then (c.connections[i]?).map Connection.clean
      else c.connections[i]? := c.getElem?_cleanEach c.pool i
  by_cases hi : i ∈ c.pool.map (·.2)
  · left
    rw [hshutdown, if_pos hi, hk, Option.map_some]
  · right
    rw [hshutdown, if_neg hi]
    refine ⟨hk, ?_⟩
    cases hu : k.isUsable with
    | false => rfl
    | true =>
      have hentry : (k.remote, i) ∈ c.pool := mem_of_lookup_eq_some (h.usable i k hk hu)
      exact absurd (List.mem_map.2 ⟨_, hentry, rfl⟩) hi

/-- What a shutdown makes of a connection. -/
structure GivenUp (k k' : Connection) : Prop where
  idle : k'.Idle
  pending : ∀ call ∈ k.calls.pending,
    k'.calls.outcome? (.waiting call.ticket) = some (.error (.network .linkClosed))
  settled : ∀ handle outcome, k.calls.outcome? handle = some outcome →
    k'.calls.outcome? handle = some outcome

theorem Reachable.shutdown (h : Reachable settings codecs c) :
    Reachable settings codecs c.shutdown := h.handle .shutdown

theorem Reachable.givenUp (h : Reachable settings codecs c) (hk : c.connections[i]? = some k) :
    ∃ k', c.shutdown.connections[i]? = some k' ∧ GivenUp k k' := by
  have sound : k.Sound := h.sound hk
  rcases h.shared.shutdown_connection hk with hclean | ⟨hsame, hunusable⟩
  · have hsteps : CallTable.Steps k.calls k.clean.calls :=
      Connection.Moves.calls_steps (.single .clean)
    have hidle : k.clean.Idle := sound.clean.idle k.clean_unusable
    exact ⟨k.clean, hclean, hidle, fun call hcall => sound.outcome?_clean hcall,
      fun handle outcome ho => hsteps.outcome?_eq sound.calls ho⟩
  · have hidle : k.Idle := sound.idle hunusable
    refine ⟨k, hsame, hidle, fun call hcall => ?_, fun handle outcome ho => ho⟩
    rw [hidle.pending] at hcall
    cases hcall

/-! ## What happens later -/

/-- What a run does to one connection is a run of its own. -/
theorem run_connection (c : Client) (hk : c.connections[i]? = some k) (events : List Event) :
    ∃ own, (c.run events).connections[i]? = some (k.run own) := by
  induction events generalizing c k with
  | nil => exact ⟨[], hk⟩
  | cons e events ih =>
    obtain ⟨first, hfirst, -⟩ := (c.handle_moves e).connection_run hk
    obtain ⟨rest, hrest⟩ := ih (c.handle e) hfirst
    refine ⟨first ++ rest, ?_⟩
    rw [Connection.run_append]
    exact hrest

/-- A handle of a connection that has an outcome keeps it. -/
theorem Reachable.run_outcome (h : Reachable settings codecs c) (hk : c.connections[i]? = some k)
    {handle : Handle} {outcome : Outcome Bytes} (ho : k.calls.outcome? handle = some outcome)
    (events : List Event) :
    ∃ k', (c.run events).connections[i]? = some k' ∧ k'.calls.outcome? handle = some outcome := by
  obtain ⟨own, hrun⟩ := c.run_connection hk events
  exact ⟨_, hrun, (k.run_moves own).calls_steps.outcome?_eq (h.sound hk).calls ho⟩

/-- A request that has ended stays so. -/
theorem Reachable.run_outcome? (h : Reachable settings codecs c) {d : DispatchId}
    {outcome : Outcome Body} (ho : c.outcome? d = some outcome) (events : List Event) :
    (c.run events).outcome? d = some outcome := by
  cases hd : c.dispatches[d]? with
  | none => simp [outcome?, hd] at ho
  | some entry =>
    have settled : ∀ w, entry.progress ≠ .waiting w := by
      intro w hw
      simp [outcome?, hd, hw] at ho
    have hlater := run_settled hd settled events
    obtain ⟨reader, progress⟩ := entry
    cases progress with
    | waiting w => exact absurd rfl (settled w)
    | abandoned => simp [outcome?, hd] at ho
    | failed error =>
      rw [outcome?_failed hd] at ho
      rw [outcome?_failed hlater, ho]
    | sent i handle =>
      cases hk : c.connections[i]? with
      | none => simp [outcome?, hd, hk] at ho
      | some k =>
        rw [outcome?_sent hd hk, Option.map_eq_some_iff] at ho
        obtain ⟨raw, hraw, rfl⟩ := ho
        obtain ⟨k', hk', hkept⟩ := h.run_outcome hk hraw events
        rw [outcome?_sent hlater hk', hkept, Option.map_some]

/-! ## Nothing to shut down -/

theorem Move.length_le (m : Move e c c') : c.connections.length ≤ c'.connections.length := by
  cases m with
  | connection j event _ => simp [modifyConnection]
  | expire _ => simp [expireDue]
  | «open» address _ => simp [openConnection]
  | _ => exact Nat.le_refl _

theorem Moves.length_le (m : Moves e c c') : c.connections.length ≤ c'.connections.length := by
  induction m with
  | refl => exact Nat.le_refl _
  | tail _ last ih => exact Nat.le_trans ih last.length_le

/-- Only a connection that is opened comes into the pool. -/
theorem Move.pool (m : Move e c c') (pool : c.pool = [])
    (same : c'.connections.length = c.connections.length) : c'.pool = [] := by
  cases m with
  | «open» address _ => simp [openConnection] at same
  | forget _ => rfl
  | _ => exact pool

theorem Moves.pool (m : Moves e c c') (pool : c.pool = [])
    (same : c'.connections.length = c.connections.length) : c'.pool = [] := by
  induction m with
  | refl => exact pool
  | @tail c₁ c₂ before last ih =>
    have hbefore : c.connections.length ≤ c₁.connections.length := Moves.length_le before
    have hlast : c₁.connections.length ≤ c₂.connections.length := last.length_le
    have hmiddle : c₁.pool = [] := ih (by omega)
    exact last.pool hmiddle (by omega)

theorem run_length_le (c : Client) (events : List Event) :
    c.connections.length ≤ (c.run events).connections.length := by
  induction events generalizing c with
  | nil => exact Nat.le_refl _
  | cons e events ih => exact Nat.le_trans (c.handle_moves e).length_le (ih (c.handle e))

theorem run_pool (c : Client) (pool : c.pool = []) (events : List Event)
    (same : (c.run events).connections.length = c.connections.length) :
    (c.run events).pool = [] := by
  induction events generalizing c with
  | nil => exact pool
  | cons e events ih =>
    have hfirst : c.connections.length ≤ (c.handle e).connections.length :=
      (c.handle_moves e).length_le
    have hrest := (c.handle e).run_length_le events
    have hrun : c.run (e :: events) = (c.handle e).run events := rfl
    rw [hrun] at same ⊢
    exact ih (c.handle e) ((c.handle_moves e).pool pool (by omega)) (by omega)

theorem shutdown_of_pool (c : Client) (pool : c.pool = []) : c.shutdown = c := by
  cases c
  simp only at pool
  subst pool
  rfl

/-- Whether an event asks for a connection. -/
def Event.asks : Event → Bool
  | .dispatch .. | .connect _ _ | .connectPeer _ _ | .findOrOpen _ => true
  | _ => false

/-- Nobody else opens one. -/
theorem handle_length (h : e.asks = false) :
    (c.handle e).connections.length = c.connections.length := by
  cases e with
  | service name wish =>
    simp only [handle, service]
    split <;> rfl
  | choose i start => rw [handle, (c.choose_same i start).1.connections]
  | rescore i place =>
    simp only [handle, rescorePeer]
    split <;> rfl
  | preferred i place => rw [handle, (c.preferred_same i place).1.connections]
  | clean i => simp [handle, clean, modifyConnection]
  | shutdown =>
    have hlen : ∀ entries, (c.cleanEach entries).connections.length = c.connections.length := by
      intro entries
      induction entries generalizing c with
      | nil => rfl
      | cons entry entries ih =>
        exact (ih (c := c.clean entry.2)).trans (by simp [clean, modifyConnection])
    exact hlen c.pool
  | resume d =>
    simp only [handle]
    rcases c.resume_cases d with he | ⟨_, w, _, -, -, he⟩ | ⟨_, w, _, -, -, he⟩
    · rw [he]
    · simp [he, giveUp, setProgress, clean, modifyConnection]
    · simp [he, setProgress, modifyConnection]
  | abandon d =>
    simp only [handle]
    rcases c.abandon_cases d with he | ⟨_, _, -, he⟩
    · rw [he]
    · rw [he, setProgress]
  | expect i request =>
    simp only [handle]
    cases hk : c.connections[i]? with
    | none => rw [expect_of_none hk]
    | some k => simp [expect_of_some hk, modifyConnection]
  | stream i event =>
    simp only [handle]
    split <;> simp [modifyConnection]
  | expire => simp [handle, expireDue]
  | advance time =>
    simp only [handle, advance]
    split <;> rfl
  | dispatch _ _ _ _ | connect _ _ | connectPeer _ _ | findOrOpen _ => cases h
  | _ => rfl

theorem run_length (c : Client) {events : List Event} (h : ∀ e ∈ events, e.asks = false) :
    (c.run events).connections.length = c.connections.length := by
  induction events generalizing c with
  | nil => rfl
  | cons e events ih =>
    have hfirst : (c.handle e).connections.length = c.connections.length :=
      handle_length (h e List.mem_cons_self)
    exact (ih (c.handle e) fun e' he' => h e' (List.mem_cons_of_mem _ he')).trans hfirst

/-! ## A request that comes in -/

/-- A peer of a service that somebody knows. -/
def Offers (c : Client) (i : ServiceId) (place : Nat) : Prop :=
  ∃ s p, c.peer? i place = some (s, p) ∧ s.released = false

theorem offers_setPeers {i : ServiceId} {s : Service} {peers : List Peer} {place : Nat}
    (hs : c.services[i]? = some s) (held : s.released = false) (hlt : place < peers.length) :
    (c.modifyService i ({ · with peers })).Offers i place := by
  refine ⟨{ s with peers }, peers[place], peer?_eq_some.2 ⟨?_, List.getElem?_eq_getElem hlt⟩, held⟩
  simp [modifyService, hs]

/-- A service that has peers chooses one. -/
theorem choose_offers {i : ServiceId} {s : Service} (hs : c.services[i]? = some s)
    (held : s.released = false) (peers : s.peers ≠ []) (start : Nat) :
    ∃ c₁ place, c.choose i start = (c₁, some place) ∧ c₁.Offers i place := by
  obtain ⟨place, hplace, hlt⟩ := scan_some (fun _ => c.rescore s) peers start
  have hlen := scan_length (fun _ => c.rescore s) s.peers start
  have hchosen : (c.choose i start).2 = some place := by simp only [choose, hs, hplace]
  have hoffers : (c.choose i start).1.Offers i place := by
    have hstill := offers_setPeers hs held (hlen.symm ▸ hlt)
    simp only [choose, hs]
    exact hstill
  exact ⟨_, place, Prod.ext rfl hchosen, hoffers⟩

theorem preferred_offers {i : ServiceId} {place : Nat} (h : c.Offers i place) :
    (c.preferred i place).1.Offers i place := by
  obtain ⟨s, p, hpeer, held⟩ := h
  obtain ⟨hs, hp⟩ := peer?_eq_some.1 hpeer
  have hlt : place < (s.peers.set place (p.evict c.connections s.effectiveWish)).length := by
    rw [List.length_set]
    exact (List.getElem?_eq_some_iff.1 hp).1
  have hstill := offers_setPeers hs held hlt
  unfold peer? at hpeer
  simp only [preferred, hpeer]
  exact hstill

theorem connectPeer_of_offers {i : ServiceId} {place : Nat} (h : c.Offers i place) :
    ∃ c' j, c.connectPeer i place = .ok (c', j) := by
  obtain ⟨s, p, hpeer, held⟩ := h
  unfold peer? at hpeer
  simp only [connectPeer, hpeer, held]
  exact ⟨_, _, rfl⟩

/-- A chosen peer gets a connection. -/
theorem connect_of_peers {i : ServiceId} {s : Service} (hs : c.services[i]? = some s)
    (held : s.released = false) (peers : s.peers ≠ []) (start : Nat) :
    ∃ c' j, c.connect i start = .ok (c', j) := by
  obtain ⟨c₁, place, hchoose, hoffers⟩ := choose_offers hs held peers start
  have hstill : (c₁.preferred i place).1.Offers i place := preferred_offers hoffers
  cases hnext : c₁.preferred i place with
  | mk c₂ remembered =>
    cases remembered with
    | some j => exact ⟨c₂, j, by simp only [connect, hchoose, hnext]⟩
    | none =>
      rw [hnext] at hstill
      obtain ⟨c', j, hconnect⟩ := connectPeer_of_offers hstill
      exact ⟨c', j, by simp only [connect, hchoose, hnext, hconnect]⟩

/-- Where a request can go, it can be sent. -/
theorem dispatch_of_route {i : ServiceId} {s : Service} {out : Outgoing}
    {request : Request Bytes} {reader : ReplyReader} {target : Option Address} {start : Nat}
    {c₁ : Client} {j : ConnectionId} (hs : c.services[i]? = some s)
    (prepared : s.prepare out = .ok (request, reader))
    (routed : c.route i target start = .ok (c₁, j)) :
    c.dispatch i out target start = .ok (Client.resume { c₁ with
      dispatches := c₁.dispatches ++
        [⟨reader, .waiting ⟨j, request, s.initTimeout, s.initTimeout.after c₁.now⟩⟩] }
      c₁.dispatches.length, c₁.dispatches.length) := by
  simp [dispatch, hs, prepared, routed, bind, Except.bind]

/-- Somebody knows each service. -/
theorem Reachable.unreleased (h : Reachable settings codecs c) :
    ∀ s ∈ c.services, s.released = false :=
  fun s hs => congrArg Service.Terms.released (h.terms s hs)

theorem resume_pending {d : DispatchId} {reader : ReplyReader} {w : Waiting} {near : Connection}
    (hd : c.dispatches[d]? = some ⟨reader, .waiting w⟩)
    (hk : c.connections[w.connection]? = some near) (pending : near.handshake = .pending) :
    c.resume d = if w.deadline ≤ c.now then c.giveUp d w else c := by
  simp [resume, hd, hk, pending]

/-- A request goes to a connection that was opened for it, and waits there, unless it
is not to wait at all. -/
structure Opened (c c' : Client) (address : Address) (entry : Dispatch) (limit : Duration) :
    Prop where
  connection : ∃ k, c'.connections = c.connections ++ [k] ∧ k.remote = address ∧
    (c.now < limit.after c.now → k = .dial address c.connectionSettings)
  current : c'.current? address = some c.connections.length
  waits : c.now < limit.after c.now → c'.dispatches = c.dispatches ++ [entry]

theorem Opened.entry {address : Address} {entry : Dispatch} {limit : Duration}
    (h : Opened c c' address entry limit) (waits : c.now < limit.after c.now) :
    c'.dispatches[c.dispatches.length]? = some entry := by
  rw [h.waits waits]
  exact List.getElem?_concat_length

theorem Opened.of_resume {c₂ : Client} {address : Address} {reader : ReplyReader} {w : Waiting}
    (connections : c₂.connections = c.connections ++ [.dial address c.connectionSettings])
    (current : c₂.current? address = some c.connections.length)
    (dispatches : c₂.dispatches = c.dispatches ++ [⟨reader, .waiting w⟩]) (now : c₂.now = c.now)
    (own : w.connection = c.connections.length) (deadline : w.deadline = w.limit.after c.now) :
    Opened c (c₂.resume c.dispatches.length) address ⟨reader, .waiting w⟩ w.limit := by
  have hd : c₂.dispatches[c.dispatches.length]? = some ⟨reader, .waiting w⟩ := by
    rw [dispatches]
    exact List.getElem?_concat_length
  have hk : c₂.connections[w.connection]? = some (.dial address c.connectionSettings) := by
    rw [connections, own]
    exact List.getElem?_concat_length
  rw [resume_pending hd hk rfl, deadline, now]
  split
  · next due =>
    have hpast : ¬ c.now < w.limit.after c.now := Nat.not_lt.2 due
    have hclean : (c₂.giveUp c.dispatches.length w).connections =
        c.connections ++ [(Connection.dial address c.connectionSettings).clean] := by
      show c₂.connections.modify w.connection Connection.clean = _
      rw [connections, own]
      simp [List.modify_eq_take_drop]
    exact ⟨⟨_, hclean, rfl, fun hlt => absurd hlt hpast⟩, current, fun hlt => absurd hlt hpast⟩
  · exact ⟨⟨_, connections, rfl, fun _ => rfl⟩, current, fun _ => dispatches⟩

/-- Where the pool is empty, a request gets a new connection. -/
theorem Reachable.dispatch_opens (h : Reachable settings codecs c) (pool : c.pool = [])
    {i : ServiceId} {s : Service} {out : Outgoing} {request : Request Bytes}
    {reader : ReplyReader} {target : Option Address} (start : Nat)
    (hs : c.services[i]? = some s) (prepared : s.prepare out = .ok (request, reader))
    (somewhere : target = none → s.peers ≠ []) :
    ∃ c' address, c.dispatch i out target start = .ok (c', c.dispatches.length) ∧
      (∀ wanted, target = some wanted → address = wanted) ∧
      Opened c c' address ⟨reader, .waiting ⟨c.connections.length, request, s.initTimeout,
        s.initTimeout.after c.now⟩⟩ s.initTimeout := by
  have hrouted : ∃ c₁ j, c.route i target start = .ok (c₁, j) := by
    cases target with
    | some address => exact ⟨_, _, rfl⟩
    | none =>
      have held : s.released = false := h.unreleased s (List.mem_of_getElem? hs)
      exact connect_of_peers hs held (somewhere rfl) start
  obtain ⟨c₁, j, hroute⟩ := hrouted
  obtain ⟨address, hout, hwanted⟩ := h.shared.route hroute
  have hopens : Opens c c₁ := route_opens hroute
  have hnew : j = c.connections.length ∧
      c₁.connections = c.connections ++ [.dial address c.connectionSettings] := by
    rcases hout.opened with ⟨-, hcurrent⟩ | ⟨hj, hconnections, -⟩
    · rw [Client.current?, pool] at hcurrent
      cases hcurrent
    · exact ⟨hj, hconnections⟩
  obtain ⟨rfl, hconnections⟩ := hnew
  have hdispatch := dispatch_of_route hs prepared hroute
  rw [hopens.dispatches, hopens.now] at hdispatch
  exact ⟨_, address, hdispatch, hwanted, .of_resume hconnections hout.current rfl rfl rfl rfl⟩

/-- Nobody gets a connection that was there when the client was shut down. -/
theorem Reachable.route_new (h : Reachable settings codecs c) (events : List Event)
    {service : ServiceId} {target : Option Address} {start : Nat} {j : ConnectionId}
    (routed : (c.shutdown.run events).route service target start = .ok (c', j)) :
    c.shutdown.connections.length ≤ j := by
  have hlater : Reachable settings codecs (c.shutdown.run events) := h.shutdown.run events
  obtain ⟨address, hout, -⟩ := hlater.shared.route routed
  by_contra hold
  have hlt : j < c.shutdown.connections.length := Nat.lt_of_not_le hold
  have hk : c.shutdown.connections[j]? = some c.shutdown.connections[j] :=
    List.getElem?_eq_getElem hlt
  rcases hout.opened with ⟨hsame, -⟩ | ⟨hj, -, -⟩
  · obtain ⟨own, hrun⟩ := c.shutdown.run_connection hk events
    obtain ⟨k', hk', -, husable⟩ := hout.usable
    rw [hsame, hrun] at hk'
    obtain rfl := Option.some.inj hk'
    have hretired := (h.shutdown.sound hk).retired (h.shutdown.shared.unusable rfl hk) own
    rw [hretired.idle.unusable] at husable
    cases husable
  · have hle := c.shutdown.run_length_le events
    exact hold (hj ▸ hle)

/-- **A shutdown leaves nothing in flight.** Whatever has happened to a client, when it
is shut down its pool is empty, and of all connections that it ever opened none may be
used, none has a call that waits, and none has a timer; who waited is told that the
link is closed, and who had an outcome has it still.

Whatever happens then, no reply and no failure report ends a call on one of these
connections, and every request that has ended stays as it is. While nobody asks for a
connection, to shut down again changes nothing. Whoever does ask gets none of the old
ones: the first request opens one for itself. -/
theorem shutdown_leaves_nothing (settings : Settings) (codecs : Codecs)
    (before after : List Event) :
    let c := (start settings codecs).run before
    let s := c.shutdown
    let d := s.run after
    s.pool = [] ∧ s.connections.length = c.connections.length ∧
    (∀ (i : ConnectionId) k, c.connections[i]? = some k →
      ∃ k', s.connections[i]? = some k' ∧ GivenUp k k') ∧
    (∀ (i : ConnectionId) k, s.connections[i]? = some k →
      ∃ k', d.connections[i]? = some k' ∧ k.Retired k') ∧
    (∀ request outcome, c.outcome? request = some outcome → d.outcome? request = some outcome) ∧
    (∀ service target start d' j, d.route service target start = .ok (d', j) →
      s.connections.length ≤ j) ∧
    ((∀ e ∈ after, e.asks = false) → d.shutdown = d ∧
      ∀ service own out request reader target start, d.services[service]? = some own →
        own.prepare out = .ok (request, reader) → (target = none → own.peers ≠ []) →
        ∃ d' address, d.dispatch service out target start = .ok (d', d.dispatches.length) ∧
          (∀ wanted, target = some wanted → address = wanted) ∧
          Opened d d' address ⟨reader, .waiting ⟨d.connections.length, request, own.initTimeout,
            own.initTimeout.after d.now⟩⟩ own.initTimeout) := by
  intro c s d
  have reach : Reachable settings codecs c := Reachable.start.run before
  have reachS : Reachable settings codecs s := reach.shutdown
  have reachD : Reachable settings codecs d := reachS.run after
  refine ⟨rfl, handle_length (e := .shutdown) rfl, fun i k hk => reach.givenUp hk, fun i k hk => ?_,
    fun request outcome ho => reach.run_outcome? ho (.shutdown :: after),
    fun service target start d' j hroute => reach.route_new after hroute, fun unasked => ?_⟩
  · obtain ⟨own, hrun⟩ := s.run_connection hk after
    exact ⟨_, hrun, (reachS.sound hk).retired (reachS.shared.unusable rfl hk) own⟩
  · have hpool : d.pool = [] := s.run_pool rfl after (s.run_length unasked)
    exact ⟨d.shutdown_of_pool hpool, fun service own out request reader target start hs hprepared
      somewhere => reachD.dispatch_opens hpool start hs hprepared somewhere⟩

/-- A request that waits for its answer, and one that waits for its connection. -/
def twoWaiting : List Event :=
  [.service "ledger" .outbound,
    .dispatch 0 (.raw balanceRequest) (some (.v4 10 0 0 1 4040)) 0] ++ introduction ++
    [.dispatch 0 (.raw balanceRequest) (some (.v4 10 0 0 2 4040)) 0]

/-- The answer to the first of them. -/
def lateAnswer : List Event :=
  [.stream 0 (.arrived (Connection.frameBytes
    (.callResponse { id := 1, headers := .empty, transportHeaders := .empty, body := [5] })))]

/-- The answer comes after the shutdown and finds nobody: its call has failed. The next request
to its address opens a third connection. -/
theorem shutdown_of_two_waiting :
    let c := (start {} {}).run twoWaiting
    let d := c.shutdown.run lateAnswer
    let address : Address := .v4 10 0 0 1 4040
    (c.place? 0 0 = some 0 ∧ c.outcome? 0 = none ∧ c.awaits? 1 = some 1) ∧
      (∀ (i : ConnectionId) near, d.connections[i]? = some near → near.Idle) ∧
      d.outcome? 0 = some (.error (.network .linkClosed)) ∧
      d.shutdown = d ∧
      ∃ d', d.dispatch 0 (.raw balanceRequest) (some address) 0 = .ok (d', 2) ∧
        d'.current? address = some 2 ∧ d'.awaits? 2 = some 2 := by
  intro c d address
  obtain ⟨-, -, hgivenUp, hretired, -, -, hagain⟩ :=
    shutdown_leaves_nothing {} {} twoWaiting lateAnswer
  have hunasked : ∀ e ∈ lateAnswer, e.asks = false := by simp [lateAnswer, Event.asks]
  have hlength : d.connections.length = c.shutdown.connections.length :=
    c.shutdown.run_length hunasked
  obtain ⟨hsame, hopens⟩ := hagain hunasked
  refine ⟨⟨by decide +kernel, Option.isNone_iff_eq_none.1 (by decide +kernel), by decide +kernel⟩,
    ?_, ?_, hsame, ?_⟩
  · intro i near hnear
    have hlt : i < c.shutdown.connections.length :=
      hlength ▸ (List.getElem?_eq_some_iff.1 hnear).1
    obtain ⟨near', hnear', hidle⟩ := hretired i _ (List.getElem?_eq_getElem hlt)
    cases hnear.symm.trans hnear'
    exact hidle.idle
  · have hpending : (c.connections[0]?).map (·.calls.pending.map (·.ticket)) = some [0] := by
      decide +kernel
    obtain ⟨near, hnear, htickets⟩ := Option.map_eq_some_iff.1 hpending
    obtain ⟨call, hcall, hticket⟩ := List.mem_map.1 (htickets ▸ List.mem_singleton_self 0)
    obtain ⟨near', hnear', hgiven⟩ := hgivenUp 0 near hnear
    obtain ⟨near'', hnear'', hkept⟩ := hretired 0 near' hnear'
    have hended : near''.calls.outcome? (.waiting 0) = some (.error (.network .linkClosed)) := by
      have hfailed := hgiven.pending call hcall
      rw [hticket] at hfailed
      rw [CallTable.outcome?, hkept.settled]
      exact hfailed
    have hplace : d.place? 0 0 = some 0 := by decide +kernel
    obtain ⟨⟨reader, progress⟩, hentry, hsent⟩ := Option.bind_eq_some_iff.1 hplace
    obtain rfl : progress = .sent 0 (.waiting 0) := Progress.place?_eq_some.1 hsent
    rw [outcome?_sent hentry hnear'', hended]
    rfl
  · have hservice : (d.services[0]?).map (·.initTimeout) = some (.ofMillis 2000) := by
      decide +kernel
    obtain ⟨own, hown, htimeout⟩ := Option.map_eq_some_iff.1 hservice
    obtain ⟨d', address', hdispatch, hwanted, hopened⟩ :=
      hopens 0 own (.raw balanceRequest) _ _ (some address) 0 hown rfl nofun
    obtain rfl := hwanted address rfl
    have hcount : d.dispatches.length = 2 ∧ d.connections.length = 2 := by decide +kernel
    rw [hcount.1] at hdispatch
    have hwait : d.now < own.initTimeout.after d.now := by
      rw [htimeout]
      decide +kernel
    have hentry : d'.dispatches[d.dispatches.length]? = _ := hopened.entry hwait
    rw [hcount.1] at hentry
    exact ⟨d', hdispatch, hcount.2 ▸ hopened.current, awaits?_eq_some.2 ⟨_, _, hentry, hcount.2⟩⟩

end Client

end RpcClient
