/-
The course of a run for one connection and for one request. What an event does to
a connection is at most one event of the connection's own (`Does`, `handle_does`).
A request becomes a call only in the event in which it looks at its connection
(`Poised`, `handle_poised`), and how it stands once it no longer waits, nothing
changes (`handle_settled`).
-/
import RpcClient.Client.Traffic
import RpcClient.Proofs.Client.Request

namespace RpcClient

/-- On what terms a service sends requests, whatever peers it has. -/
structure Service.Terms where
  caller : String
  codecs : Codecs
  initTimeout : Duration
  released : Bool

def Service.terms (s : Service) : Service.Terms := ⟨s.caller, s.codecs, s.initTimeout, s.released⟩

namespace Client

variable {c c' c'' : Client} {e : Event} {k : ConnectionId} {d : DispatchId}

/-! ## Opening connections -/

/-- The terms of a service that is made now. -/
def terms (c : Client) : Service.Terms :=
  ⟨c.settings.serviceName, c.codecs, c.settings.initTimeout, false⟩

/-- Connections were opened, and services and peers may have changed. -/
structure Opens (c c' : Client) : Prop where
  connections : ∃ addresses : List Address,
    c'.connections = c.connections ++ addresses.map (.dial · c.connectionSettings)
  dispatches : c'.dispatches = c.dispatches
  now : c'.now = c.now
  settings : c'.settings = c.settings
  codecs : c'.codecs = c.codecs
  services : ∀ s' ∈ c'.services, (∃ s ∈ c.services, s'.terms = s.terms) ∨ s'.terms = c.terms

theorem Opens.terms (h : Opens c c') : c'.terms = c.terms := by
  rw [Client.terms, h.settings, h.codecs, ← Client.terms]

theorem Opens.refl (c : Client) : Opens c c :=
  ⟨⟨[], by simp⟩, rfl, rfl, rfl, rfl, fun s hs => .inl ⟨s, hs, rfl⟩⟩

theorem Opens.trans (h : Opens c c') (h' : Opens c' c'') : Opens c c'' := by
  obtain ⟨first, hfirst⟩ := h.connections
  obtain ⟨second, hsecond⟩ := h'.connections
  refine ⟨⟨first ++ second, ?_⟩, h'.dispatches.trans h.dispatches, h'.now.trans h.now,
    h'.settings.trans h.settings, h'.codecs.trans h.codecs, fun s'' hs'' => ?_⟩
  · simp only [hsecond, hfirst, connectionSettings, h.settings, List.map_append, List.append_assoc]
  · rcases h'.services s'' hs'' with ⟨s', hs', hsame⟩ | hnew
    · rw [hsame]
      exact h.services s' hs'
    · exact .inr (hnew.trans h.terms)

theorem modifyService_opens (c : Client) (i : ServiceId) {f : Service → Service}
    (same : ∀ s, (f s).terms = s.terms) : Opens c (c.modifyService i f) := by
  refine ⟨⟨[], by simp [modifyService]⟩, rfl, rfl, rfl, rfl, fun s' hs' => .inl ?_⟩
  obtain ⟨place, hplace⟩ := List.getElem?_of_mem hs'
  rw [modifyService, List.getElem?_modify] at hplace
  obtain ⟨s, hs, rfl⟩ := Option.map_eq_some_iff.1 hplace
  refine ⟨s, List.mem_of_getElem? hs, ?_⟩
  split
  · exact same s
  · rfl

theorem rescored_opens (c : Client) (i : ServiceId) (peers : List Peer) (visited : List Nat) :
    Opens c (c.rescored i peers visited) :=
  have h := c.modifyService_opens i (f := ({ · with peers })) fun _ => rfl
  ⟨h.connections, h.dispatches, h.now, h.settings, h.codecs, h.services⟩

theorem service_opens (c : Client) (name : String) (wish : Direction) :
    Opens c (c.service name wish).1 := by
  unfold service
  split
  · exact .refl c
  · refine ⟨⟨[], by simp⟩, rfl, rfl, rfl, rfl, fun s hs => ?_⟩
    rcases List.mem_append.1 hs with hold | hnew
    · exact .inl ⟨s, hold, rfl⟩
    · rw [List.mem_singleton.1 hnew]
      exact .inr rfl

theorem findOrOpen_opens (c : Client) (address : Address) : Opens c (c.findOrOpen address).1 := by
  unfold findOrOpen
  split
  · exact .refl c
  · exact ⟨⟨[address], rfl⟩, rfl, rfl, rfl, rfl, fun s hs => .inl ⟨s, hs, rfl⟩⟩

theorem rescorePeer_opens (c : Client) (i : ServiceId) (place : Nat) :
    Opens c (c.rescorePeer i place).1 := by
  unfold rescorePeer
  split
  · exact .refl c
  · exact c.rescored_opens i _ _

theorem preferred_opens (c : Client) (i : ServiceId) (place : Nat) :
    Opens c (c.preferred i place).1 := by
  unfold preferred
  split
  · exact .refl c
  · exact c.modifyService_opens i fun _ => rfl

theorem choose_opens (c : Client) (i : ServiceId) (start : Nat) :
    Opens c (c.choose i start).1 := by
  unfold choose
  split
  · exact .refl c
  · exact c.rescored_opens i _ _

theorem connectPeer_opens {i : ServiceId} {place : Nat} {j : ConnectionId}
    (h : c.connectPeer i place = .ok (c', j)) : Opens c c' := by
  obtain ⟨s, p, -, -, -, rfl⟩ := connectPeer_ok h
  exact (c.findOrOpen_opens p.address).trans (modifyService_opens _ i fun _ => rfl)

theorem connect_opens {i : ServiceId} {start : Nat} {j : ConnectionId}
    (h : c.connect i start = .ok (c', j)) : Opens c c' := by
  obtain ⟨c₁, place, hchoose, hrest⟩ := connect_ok h
  have hfirst := c.choose_opens i start
  have hsecond := c₁.preferred_opens i place
  rw [hchoose] at hfirst
  rcases hrest with hpreferred | ⟨c₂, hpreferred, hconnect⟩
  · rw [hpreferred] at hsecond
    exact hfirst.trans hsecond
  · rw [hpreferred] at hsecond
    exact hfirst.trans (hsecond.trans (connectPeer_opens hconnect))

theorem route_opens {i : ServiceId} {target : Option Address} {start : Nat} {j : ConnectionId}
    (h : c.route i target start = .ok (c', j)) : Opens c c' := by
  unfold route at h
  split at h
  · next address =>
    have hopens := c.findOrOpen_opens address
    rw [Except.ok.inj h] at hopens
    exact hopens
  · exact connect_opens h

theorem orSame_opens {α : Type} {result : Except Error (Client × α)}
    (h : ∀ c' a, result = .ok (c', a) → Opens c c') : Opens c (c.orSame result) := by
  unfold orSame
  split
  · next c' a => exact h c' a rfl
  · exact .refl c

/-- Whether an event is about services and peers only, and may open connections. -/
def Event.isOpening : Event → Bool
  | .service _ _ | .addPeers _ _ | .scoreBy _ | .choose _ _ | .connect _ _ | .rescore _ _
  | .preferred _ _ | .connectPeer _ _ | .findOrOpen _ => true
  | _ => false

theorem handle_opening (h : e.isOpening = true) : Opens c (c.handle e) := by
  cases e with
  | service name wish => exact c.service_opens name wish
  | addPeers i addresses => exact c.modifyService_opens i fun _ => rfl
  | scoreBy scorer =>
    exact ⟨⟨[], by simp [handle]⟩, rfl, rfl, rfl, rfl, fun s hs => .inl ⟨s, hs, rfl⟩⟩
  | choose i start => exact c.choose_opens i start
  | connect i start => exact orSame_opens fun _ _ => connect_opens
  | rescore i place => exact c.rescorePeer_opens i place
  | preferred i place => exact c.preferred_opens i place
  | connectPeer i place => exact orSame_opens fun _ _ => connectPeer_opens
  | findOrOpen address => exact c.findOrOpen_opens address
  | _ => cases h

theorem Opens.links (h : Opens c c') {near : Connection} (hlinks : c'.Links k near) :
    c.Links k near := by
  obtain ⟨addresses, hconnections⟩ := h.connections
  rw [Links, connectionSettings, h.settings, ← connectionSettings, hconnections] at hlinks
  by_cases hk : k < c.connections.length
  · rw [List.getElem?_append_left hk] at hlinks
    exact hlinks
  · have hnone : c.connections[k]? = none := List.getElem?_eq_none (Nat.le_of_not_lt hk)
    rw [List.getElem?_append_right (Nat.le_of_not_lt hk), List.getElem?_map] at hlinks
    refine .inr ⟨hnone, ?_⟩
    rcases hlinks with hsome | ⟨-, hdial⟩
    · obtain ⟨address, -, rfl⟩ := Option.map_eq_some_iff.1 hsome
      exact ⟨address, rfl⟩
    · exact hdial

/-! ## Requests on their way -/

/-- What a request reports that gives its connection up: what broke that, or else
the time that it was to wait. -/
def Waiting.report (w : Waiting) (near : Connection) : Error :=
  match near.lastError with
  | some cause => .network cause
  | none => .connectionTimeout w.limit

theorem clean_lastError (near : Connection) : near.clean.lastError = near.lastError := by
  unfold Connection.clean
  split <;> rfl

theorem giveUp_self {reader : ReplyReader} {progress : Progress} {w : Waiting} {near : Connection}
    (hd : c.dispatches[d]? = some ⟨reader, progress⟩)
    (hnear : c.connections[w.connection]? = some near) :
    (c.giveUp d w).dispatches[d]? = some ⟨reader, .failed (Waiting.report w near)⟩ := by
  have hclean : (c.clean w.connection).connections[w.connection]? = some near.clean := by
    rw [clean, getElem?_modifyConnection, if_pos rfl, hnear]
    rfl
  have hkept : (c.clean w.connection).dispatches[d]? = some ⟨reader, progress⟩ := hd
  rw [giveUp, getElem?_setProgress, if_pos rfl, hkept, hclean]
  cases hlast : near.lastError <;> simp [Waiting.report, clean_lastError, hlast]

theorem outcome?_failed {reader : ReplyReader} {error : Error}
    (hd : c.dispatches[d]? = some ⟨reader, .failed error⟩) :
    c.outcome? d = some (.error error) := by
  simp [outcome?, hd]

theorem outcome?_waiting {reader : ReplyReader} {w : Waiting}
    (hd : c.dispatches[d]? = some ⟨reader, .waiting w⟩) : c.outcome? d = none := by
  simp [outcome?, hd]

theorem outcome?_abandoned {reader : ReplyReader}
    (hd : c.dispatches[d]? = some ⟨reader, .abandoned⟩) : c.outcome? d = none := by
  simp [outcome?, hd]

theorem outcome?_sent {reader : ReplyReader} {handle : Handle} {near : Connection}
    (hd : c.dispatches[d]? = some ⟨reader, .sent k handle⟩)
    (hk : c.connections[k]? = some near) :
    c.outcome? d = (near.calls.outcome? handle).map reader.read := by
  simp [outcome?, hd, hk]

/-- The client in which a request looks at its connection in the course of an
event: the request has waited there, or it has just come in. -/
inductive Poised (c : Client) : Event → DispatchId → Client → Prop
  | resume (d : DispatchId) : Poised c (.resume d) d c
  | dispatch {i : ServiceId} {out : Outgoing} {target : Option Address} {start : Nat}
      {s : Service} {request : Request Bytes} {reader : ReplyReader} {c₁ : Client}
      {j : ConnectionId} (hs : c.services[i]? = some s)
      (prepared : s.prepare out = .ok (request, reader))
      (routed : c.route i target start = .ok (c₁, j)) :
    Poised c (.dispatch i out target start) c₁.dispatches.length { c₁ with
      dispatches := c₁.dispatches ++
        [⟨reader, .waiting ⟨j, request, s.initTimeout, s.initTimeout.after c₁.now⟩⟩] }

theorem handle_dispatch {i : ServiceId} {out : Outgoing} {target : Option Address} {start : Nat}
    (h : c.dispatch i out target start = .ok (c', d)) :
    c.handle (.dispatch i out target start) = c' := by
  simp only [Client.handle, h, orSame]

theorem dispatch_poised {i : ServiceId} {out : Outgoing} {target : Option Address} {start : Nat}
    (h : c.dispatch i out target start = .ok (c', d)) :
    d = c.dispatches.length ∧ ∃ c₁, Poised c (.dispatch i out target start) d c₁ ∧
      c₁.resume d = c' := by
  obtain ⟨s, request, reader, c₁, j, hs, hprepare, hroute, rfl, hc'⟩ := dispatch_ok h
  have hopens := route_opens hroute
  exact ⟨by rw [hopens.dispatches], _, .dispatch hs hprepare hroute, hc'⟩

/-- In the course of a request nothing happens but that it looks at its
connection. -/
theorem handle_poised (h : e.request? c = some d) :
    c.handle e = c ∨ ∃ c₁, Poised c e d c₁ ∧ c.handle e = c₁.resume d := by
  cases e with
  | resume d' =>
    obtain rfl := Option.some.inj h
    exact .inr ⟨c, .resume d', rfl⟩
  | dispatch i out target start =>
    obtain rfl := Option.some.inj h
    simp only [handle]
    cases hdispatch : c.dispatch i out target start with
    | error error => exact .inl rfl
    | ok result =>
      obtain ⟨c', d'⟩ := result
      obtain ⟨rfl, c₁, hpoised, hresume⟩ := dispatch_poised hdispatch
      exact .inr ⟨c₁, hpoised, hresume.symm⟩
  | _ => cases h

theorem Poised.links {c₁ : Client} (h : Poised c e d c₁) {near : Connection}
    (hlinks : c₁.Links k near) : c.Links k near := by
  cases h with
  | resume d => exact hlinks
  | dispatch hs prepared routed => exact (route_opens routed).links hlinks

theorem Poised.now {c₁ : Client} (h : Poised c e d c₁) : c₁.now = c.now := by
  cases h with
  | resume d => rfl
  | dispatch hs prepared routed => exact (route_opens routed).now

theorem Poised.settings {c₁ : Client} (h : Poised c e d c₁) : c₁.settings = c.settings := by
  cases h with
  | resume d => rfl
  | dispatch hs prepared routed => exact (route_opens routed).settings

theorem Poised.request {c₁ : Client} (h : Poised c e d c₁) : e.request? c = some d := by
  cases h with
  | resume d => rfl
  | dispatch hs prepared routed => rw [(route_opens routed).dispatches, Event.request?]

/-- No other request is touched. -/
theorem Poised.other {c₁ : Client} (h : Poised c e d c₁) {d' : DispatchId} (hne : d' ≠ d) :
    c₁.dispatches[d']? = c.dispatches[d']? := by
  cases h with
  | resume d => rfl
  | dispatch hs prepared routed =>
    have hsame := (route_opens routed).dispatches
    rw [hsame] at hne ⊢
    rcases Nat.lt_or_gt_of_ne hne with hlt | hgt
    · rw [List.getElem?_append_left hlt]
    · rw [List.getElem?_eq_none (Nat.le_of_lt hgt), List.getElem?_eq_none]
      rw [List.length_append]
      exact hgt

/-- A request is as it was, or it waits and is new. -/
theorem Poised.self {c₁ : Client} (h : Poised c e d c₁) :
    c₁.dispatches[d]? = c.dispatches[d]? ∨
      c.dispatches[d]? = none ∧ ∃ reader w, c₁.dispatches[d]? = some ⟨reader, .waiting w⟩ := by
  cases h with
  | resume d => exact .inl rfl
  | dispatch hs prepared routed =>
    refine .inr ⟨?_, _, _, List.getElem?_concat_length⟩
    rw [(route_opens routed).dispatches]
    exact List.getElem?_eq_none (Nat.le_refl _)

theorem not_isRequest_or (h : e.request? c = none) : ¬ e.IsRequest ∨ ∃ d, e = .abandon d := by
  cases e with
  | abandon d => exact .inr ⟨d, rfl⟩
  | dispatch i out target start => cases h
  | resume d => cases h
  | _ => exact .inl fun isRequest => isRequest

/-- An event in the course of other requests leaves a request as it is, or its
caller has gone. -/
theorem handle_unasked (h : e.request? c ≠ some d) :
    (c.handle e).dispatches[d]? = c.dispatches[d]? ∨
      ∃ reader w, c.dispatches[d]? = some ⟨reader, .waiting w⟩ ∧
        (c.handle e).dispatches[d]? = some ⟨reader, .abandoned⟩ := by
  cases hrequest : e.request? c with
  | some d' =>
    have hne : d ≠ d' := fun heq => h (heq ▸ hrequest)
    rcases handle_poised hrequest with he | ⟨c₁, hpoised, he⟩
    · exact .inl (by rw [he])
    · left
      rw [he, resume_other c₁ hne, hpoised.other hne]
  | none =>
    rcases not_isRequest_or hrequest with hnot | ⟨d', rfl⟩
    · exact .inl (by rw [(c.handle_moves e).dispatches hnot])
    · simp only [handle]
      rcases c.abandon_cases d' with he | ⟨reader, w, hd', he⟩
      · exact .inl (by rw [he])
      · rw [he, getElem?_setProgress]
        by_cases hd : d' = d
        · subst hd
          exact .inr ⟨reader, w, hd', by simp [hd']⟩
        · exact .inl (if_neg hd)

/-- A request that no longer waits stays as it is. -/
theorem handle_settled {entry : Dispatch} (hd : c.dispatches[d]? = some entry)
    (settled : ∀ w, entry.progress ≠ .waiting w) : (c.handle e).dispatches[d]? = some entry := by
  have hnot : ∀ reader w, c.dispatches[d]? ≠ some ⟨reader, .waiting w⟩ := by
    intro reader w hwaiting
    rw [hd] at hwaiting
    exact settled w (by rw [Option.some.inj hwaiting])
  by_cases hrequest : e.request? c = some d
  · rcases handle_poised hrequest with he | ⟨c₁, hpoised, he⟩
    · rw [he, hd]
    · rcases hpoised.self with hself | ⟨hnone, -⟩
      · rw [he]
        rcases c₁.resume_cases d with hr | ⟨reader, w, _, hw, -, -⟩ | ⟨reader, w, _, hw, -, -⟩
        · rw [hr, hself, hd]
        · exact absurd (hself.symm.trans hw) (hnot reader w)
        · exact absurd (hself.symm.trans hw) (hnot reader w)
      · cases hd.symm.trans hnone
  · rcases handle_unasked hrequest with hsame | ⟨reader, w, hw, -⟩
    · rw [hsame, hd]
    · exact absurd hw (hnot reader w)

theorem run_settled {entry : Dispatch} (hd : c.dispatches[d]? = some entry)
    (settled : ∀ w, entry.progress ≠ .waiting w) (events : List Event) :
    (c.run events).dispatches[d]? = some entry := by
  induction events generalizing c with
  | nil => exact hd
  | cons e events ih => exact ih (handle_settled hd settled)

/-! ## What an event is for one connection -/

/-- Whether an event is one at a stream. -/
def Event.isStream : Event → Bool
  | .stream _ _ => true
  | _ => false

theorem request_still (hd : e.request? c = some d) : e.isStream = false := by
  cases e with
  | stream i event => cases hd
  | _ => rfl

/-- Which events of its own a connection goes through in an event. -/
inductive Does (c : Client) (e : Event) (k : ConnectionId) : List Connection.Event → Prop
  | nothing (still : ∀ event, e = .stream k event →
      ofStream event = false ∨ c.connections[k]? = none) : Does c e k []
  | stream (event : Connection.Event) (he : e = .stream k event) (own : ofStream event = true)
      (opened : c.connections[k]?.isSome = true) : Does c e k [event]
  | expire (he : e = .expire) : Does c e k [.expire c.now]
  | clean (still : e.isStream = false) : Does c e k [.clean]
  | expect (still : e.isStream = false) (request : Request Bytes) :
    Does c e k [.expect c.now request]

theorem Does.still (h : e.isStream = false) : Does c e k [] := by
  refine .nothing fun event he => ?_
  subst he
  cases h

theorem modifyConnection_links {i : ConnectionId} {f : Connection → Connection}
    {near' : Connection} (h : (c.modifyConnection i f).Links k near') :
    (c.Links k near' ∧ (i = k → c.connections[k]? = none)) ∨
      i = k ∧ ∃ near, c.connections[k]? = some near ∧ near' = f near := by
  have hsettings : (c.modifyConnection i f).connectionSettings = c.connectionSettings := rfl
  rw [Links, getElem?_modifyConnection, hsettings] at h
  by_cases hi : i = k
  · rw [if_pos hi] at h
    cases hk : c.connections[k]? with
    | none =>
      rw [hk] at h
      exact .inl ⟨.inr ⟨hk, by simpa using h⟩, fun _ => rfl⟩
    | some near =>
      rw [hk] at h
      exact .inr ⟨hi, near, rfl, by simpa [eq_comm] using h⟩
  · rw [if_neg hi] at h
    exact .inl ⟨h, fun hik => absurd hik hi⟩

/-- What a request is for a connection when it looks at its own. -/
theorem resume_does {c₁ : Client} (now : c₁.now = c.now) (still : e.isStream = false)
    {near' : Connection} (h : (c₁.resume d).Links k near') :
    ∃ near events, c₁.Links k near ∧ near.run events = near' ∧ Does c e k events := by
  rcases c₁.resume_cases d with he | ⟨_, w, own, -, -, he⟩ | ⟨_, w, own, -, -, he⟩
  · rw [he] at h
    exact ⟨near', [], h, rfl, .still still⟩
  · rw [he] at h
    rcases modifyConnection_links (c := c₁) (f := Connection.clean) h with ⟨hkept, -⟩ |
      ⟨-, near, hnear, rfl⟩
    · exact ⟨near', [], hkept, rfl, .still still⟩
    · exact ⟨near, [.clean], .inl hnear, rfl, .clean still⟩
  · rw [he, now] at h
    rcases modifyConnection_links (c := c₁) (f := (·.handle (.expect c.now _))) h with ⟨hkept, -⟩ |
      ⟨-, near, hnear, rfl⟩
    · exact ⟨near', [], hkept, rfl, .still still⟩
    · exact ⟨near, [.expect c.now _], .inl hnear, rfl, .expect still _⟩

/-- An event is for a connection at most one event of the connection's own. -/
theorem handle_does {near' : Connection} (h : (c.handle e).Links k near') :
    ∃ near events, c.Links k near ∧ near.run events = near' ∧ Does c e k events := by
  by_cases hopening : e.isOpening = true
  · refine ⟨near', [], (handle_opening hopening).links h, rfl, .still ?_⟩
    cases e <;> first | rfl | cases hopening
  have hrequest : ∀ d, e.request? c = some d →
      ∃ near events, c.Links k near ∧ near.run events = near' ∧ Does c e k events := by
    intro d hd
    have still : e.isStream = false := request_still hd
    rcases handle_poised hd with he | ⟨c₁, hpoised, he⟩
    · rw [he] at h
      exact ⟨near', [], h, rfl, .still still⟩
    · rw [he] at h
      obtain ⟨near, events, hlinks, hrun, hdoes⟩ := resume_does hpoised.now still h
      exact ⟨near, events, hpoised.links hlinks, hrun, hdoes⟩
  cases e with
  | clean i =>
    rcases modifyConnection_links h with ⟨hkept, -⟩ | ⟨-, near, hnear, rfl⟩
    · exact ⟨near', [], hkept, rfl, .still rfl⟩
    · exact ⟨near, [.clean], .inl hnear, rfl, .clean rfl⟩
  | shutdown =>
    have hsettings : c.shutdown.settings = c.settings :=
      (c.shutdown_moves (e := .shutdown)).settings
    have hconnections : c.shutdown.connections[k]? =
        if k ∈ c.pool.map (·.2) then (c.connections[k]?).map Connection.clean
        else c.connections[k]? := c.getElem?_cleanEach c.pool k
    simp only [handle, Links, connectionSettings, hsettings, hconnections] at h
    by_cases hk : k ∈ c.pool.map (·.2)
    · rw [if_pos hk] at h
      cases hnear : c.connections[k]? with
      | none =>
        rw [hnear] at h
        exact ⟨near', [], .inr ⟨hnear, by simpa [connectionSettings] using h⟩, rfl, .still rfl⟩
      | some near =>
        rw [hnear] at h
        have heq : near.clean = near' := by simpa [eq_comm] using h
        exact ⟨near, [.clean], .inl hnear, heq, .clean rfl⟩
    · rw [if_neg hk] at h
      exact ⟨near', [], h, rfl, .still rfl⟩
  | dispatch i out target start => exact hrequest _ rfl
  | resume d => exact hrequest d rfl
  | abandon d =>
    simp only [handle] at h
    rcases c.abandon_cases d with he | ⟨_, _, -, he⟩
    · rw [he] at h
      exact ⟨near', [], h, rfl, .still rfl⟩
    · rw [he] at h
      exact ⟨near', [], h, rfl, .still rfl⟩
  | expect i request =>
    simp only [handle] at h
    cases hi : c.connections[i]? with
    | none =>
      rw [expect_of_none hi] at h
      exact ⟨near', [], h, rfl, .still rfl⟩
    | some own =>
      rw [expect_of_some hi] at h
      rcases modifyConnection_links h with ⟨hkept, -⟩ | ⟨-, near, hnear, rfl⟩
      · exact ⟨near', [], hkept, rfl, .still rfl⟩
      · exact ⟨near, [.expect c.now request], .inl hnear, rfl, .expect rfl request⟩
  | stream i event =>
    simp only [handle] at h
    cases hown : ofStream event with
    | false =>
      rw [hown] at h
      refine ⟨near', [], h, rfl, .nothing fun event' he => .inl ?_⟩
      cases he
      exact hown
    | true =>
      rw [hown] at h
      rcases modifyConnection_links h with ⟨hkept, hclosed⟩ | ⟨rfl, near, hnear, rfl⟩
      · refine ⟨near', [], hkept, rfl, .nothing fun event' he => .inr (hclosed ?_)⟩
        cases he
        rfl
      · exact ⟨near, [event], .inl hnear, rfl, .stream event rfl hown (by simp [hnear])⟩
  | expire =>
    have hconnections : c.expireDue.connections[k]? =
        (c.connections[k]?).map (·.handle (.expire c.now)) := by
      simp [expireDue, Connection.handle]
    simp only [handle] at h
    rcases h with hsome | ⟨hnone, hdial⟩
    · rw [hconnections] at hsome
      obtain ⟨near, hnear, rfl⟩ := Option.map_eq_some_iff.1 hsome
      exact ⟨near, [.expire c.now], .inl hnear, rfl, .expire rfl⟩
    · rw [hconnections, Option.map_eq_none_iff] at hnone
      exact ⟨near', [], .inr ⟨hnone, hdial⟩, rfl, .still rfl⟩
  | advance time =>
    simp only [handle, advance] at h
    split at h
    · exact ⟨near', [], h, rfl, .still rfl⟩
    · exact ⟨near', [], h, rfl, .still rfl⟩
  | _ => exact absurd rfl hopening

end Client

end RpcClient
