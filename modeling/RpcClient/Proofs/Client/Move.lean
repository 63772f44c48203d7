/-
What an event can do to a client, taken apart (`Move`): something happens to
connections, one is opened for an address that has no usable one, the current
ones are forgotten after they were given up, peers come to remember other
connections, or nothing of all this changes. `handle_moves` reads that off the
operations, once for all that holds of every client that is come to.
-/
import RpcClient.Client.Event
import RpcClient.Proofs.Connection.LifeCycle

namespace RpcClient

/-! ## Peers -/

/-- The same addresses at the same places, with peers that remember nothing
that they did not remember before. -/
def Recalls (before after : List Peer) : Prop :=
  ∀ (place : Nat) (p' : Peer), after[place]? = some p' →
    ∃ p, before[place]? = some p ∧ p'.address = p.address ∧
      ∀ i, p'.preferred = some i → p.preferred = some i

theorem Recalls.refl (peers : List Peer) : Recalls peers peers :=
  fun _ p h => ⟨p, h, rfl, fun _ hi => hi⟩

theorem Recalls.trans {a b d : List Peer} (h : Recalls a b) (k : Recalls b d) : Recalls a d := by
  intro place p'' hp''
  obtain ⟨p', hp', haddress', hkeep'⟩ := k place p'' hp''
  obtain ⟨p, hp, haddress, hkeep⟩ := h place p' hp'
  exact ⟨p, hp, haddress'.trans haddress, fun i hi => hkeep i (hkeep' i hi)⟩

theorem Recalls.set {peers : List Peer} {place : Nat} {p p' : Peer} (hp : peers[place]? = some p)
    (address : p'.address = p.address) (keep : ∀ i, p'.preferred = some i → p.preferred = some i) :
    Recalls peers (peers.set place p') := by
  intro other q hq
  rw [List.getElem?_set] at hq
  split at hq
  · next heq =>
    subst heq
    split at hq
    · obtain rfl := Option.some.inj hq
      exact ⟨p, hp, address, keep⟩
    · cases hq
  · exact ⟨q, hq, rfl, fun _ hi => hi⟩

theorem Recalls.of_mem {before after : List Peer} (h : Recalls before after) {p' : Peer}
    (hp' : p' ∈ after) :
    ∃ p ∈ before, p'.address = p.address ∧ ∀ i, p'.preferred = some i → p.preferred = some i := by
  obtain ⟨place, hplace⟩ := List.getElem?_of_mem hp'
  obtain ⟨p, hp, h⟩ := h place p' hplace
  exact ⟨p, List.mem_of_getElem? hp, h⟩

namespace Peer

theorem evict_preferred {connections : List Connection} {wish : Direction} {p : Peer}
    {i : ConnectionId} (h : (p.evict connections wish).preferred = some i) :
    p.preferred = some i ∧
      ∃ k, connections[i]? = some k ∧ k.isUsable = true ∧ wish.accepts k.direction = true := by
  simp only [evict, usable?, Option.filter_eq_some_iff] at h
  obtain ⟨hi, husable⟩ := h
  refine ⟨hi, ?_⟩
  split at husable
  · next k hk => exact ⟨k, hk, by simpa using husable⟩
  · cases husable

end Peer

theorem scanPlaces_recalls {rescore : Nat → Peer → Peer × Score}
    (address : ∀ place p, (rescore place p).1.address = p.address)
    (keep : ∀ place p i, (rescore place p).1.preferred = some i → p.preferred = some i)
    (places : List Nat) (peers : List Peer) (best : Best) :
    Recalls peers (scanPlaces rescore places peers best).1 := by
  induction places generalizing peers best with
  | nil => exact .refl peers
  | cons place places ih =>
    simp only [scanPlaces]
    split
    · exact ih peers best
    · next p hp =>
      have hset : Recalls peers (peers.set place (rescore place p).1) :=
        .set hp (address place p) (keep place p)
      split
      · exact hset
      · exact hset.trans (ih _ _)

namespace Client

theorem scan_recalls (c : Client) (s : Service) (start : Nat) :
    Recalls s.peers (scan (fun _ => c.rescore s) start s.peers).1 :=
  scanPlaces_recalls (fun _ _ => rfl) (fun _ _ _ h => (Peer.evict_preferred h).1) _ _ _

/-! ## One move -/

/-- Whether an event can be why something happens to a connection. -/
def Event.Causes (e : Event) (i : ConnectionId) : Connection.Event → Prop
  | .expect _ _ | .clean => True
  | .expire _ => e = .expire
  | event => e = .stream i event

/-- Whether an event is one in the course of a request. -/
def Event.IsRequest : Event → Prop
  | .dispatch .. | .resume _ | .abandon _ => True
  | _ => False

/-- Some peer for an address remembers a connection. -/
def Remembers (c : Client) (address : Address) (i : ConnectionId) : Prop :=
  ∃ s ∈ c.services, ∃ p ∈ s.peers, p.address = address ∧ p.preferred = some i

/-- The current connection for an address, if it is usable. -/
def usable? (c : Client) (address : Address) : Option ConnectionId :=
  (c.current? address).filter fun i => (c.connections[i]?).any (·.isUsable)

/-- What an event may do to a client. -/
inductive Move (e : Event) (c : Client) : Client → Prop
  | connection (i : ConnectionId) (event : Connection.Event) (causes : e.Causes i event) :
    Move e c (c.modifyConnection i (·.handle event))
  | expire (h : e = .expire) : Move e c c.expireDue
  | open (address : Address) (unusable : c.usable? address = none) :
    Move e c (c.openConnection address).1
  | forget (unusable : ∀ address i k, (address, i) ∈ c.pool → c.connections[i]? = some k →
      k.isUsable = false) : Move e c { c with pool := [] }
  /-- A peer remembers what one for its address did, or the current connection. -/
  | peers (services : List Service)
      (known : ∀ s ∈ services, ∀ p ∈ s.peers, ∀ i, p.preferred = some i →
        c.Remembers p.address i ∨ c.current? p.address = some i) : Move e c { c with services }
  | requests (dispatches : List Dispatch) (h : e.IsRequest) : Move e c { c with dispatches }
  | other (now : Nat) (visits : List (Address × Option Handshake)) (scorer : Scorer) :
    Move e c { c with now, visits, scorer }

/-- Any number of moves. -/
abbrev Moves (e : Event) : Client → Client → Prop := Relation.ReflTransGen (Move e)

variable {c c' : Client} {e : Event}

theorem moves_visits (c : Client) (visits : List (Address × Option Handshake)) :
    Moves e c { c with visits } := .single (.other c.now visits c.scorer)

/-! ## Connections -/

theorem getElem?_modifyConnection (c : Client) (i j : ConnectionId)
    (f : Connection → Connection) :
    (c.modifyConnection i f).connections[j]? =
      if i = j then (c.connections[j]?).map f else c.connections[j]? := by
  simp only [modifyConnection, List.getElem?_modify]
  split <;> simp

theorem findOrOpen_moves (c : Client) (address : Address) :
    Moves e c (c.findOrOpen address).1 := by
  unfold findOrOpen
  split
  · exact .refl
  · next hnone => exact .single (.open address hnone)

theorem clean_moves (c : Client) (i : ConnectionId) : Moves e c (c.clean i) :=
  .single (.connection i .clean trivial)

/-- Gives up all connections in a list of entries. -/
def cleanEach (c : Client) (entries : List (Address × ConnectionId)) : Client :=
  entries.foldl (fun c entry => c.clean entry.2) c

theorem cleanEach_moves (c : Client) (entries : List (Address × ConnectionId)) :
    Moves e c (c.cleanEach entries) := by
  induction entries generalizing c with
  | nil => exact .refl
  | cons entry entries ih => exact (c.clean_moves entry.2).trans (ih _)

theorem cleanEach_pool (c : Client) (entries : List (Address × ConnectionId)) :
    (c.cleanEach entries).pool = c.pool := by
  induction entries generalizing c with
  | nil => rfl
  | cons entry entries ih => exact ih (c.clean entry.2)

theorem getElem?_cleanEach (c : Client) (entries : List (Address × ConnectionId))
    (i : ConnectionId) :
    (c.cleanEach entries).connections[i]? =
      if i ∈ entries.map (·.2) then (c.connections[i]?).map Connection.clean
      else c.connections[i]? := by
  induction entries generalizing c with
  | nil => simp [cleanEach]
  | cons entry entries ih =>
    have hidem : Connection.clean ∘ Connection.clean = Connection.clean := by
      funext k
      exact k.clean_clean
    have hstep : (c.cleanEach (entry :: entries)) = (c.clean entry.2).cleanEach entries := rfl
    rw [hstep, ih, clean, getElem?_modifyConnection, List.map_cons]
    by_cases hi : entry.2 = i
    · simp [hi, hidem]
    · have hmem : i ∈ entry.2 :: entries.map (·.2) ↔ i ∈ entries.map (·.2) := by
        rw [List.mem_cons, or_iff_right (Ne.symm hi)]
      simp only [hi, if_false, hmem]

theorem shutdown_moves (c : Client) : Moves e c c.shutdown := by
  refine .tail (c.cleanEach_moves c.pool) (.forget fun address i k hentry hk => ?_)
  rw [cleanEach_pool] at hentry
  have hmem : i ∈ c.pool.map (·.2) := List.mem_map.2 ⟨_, hentry, rfl⟩
  rw [getElem?_cleanEach, if_pos hmem, Option.map_eq_some_iff] at hk
  obtain ⟨k, -, rfl⟩ := hk
  exact k.clean_unusable

/-! ## Services and their peers -/

theorem modifyService_moves {i : ServiceId} {f : Service → Service}
    (known : ∀ s, c.services[i]? = some s → ∀ p' ∈ (f s).peers, ∀ j, p'.preferred = some j →
      (∃ p ∈ s.peers, p.address = p'.address ∧ p.preferred = some j) ∨
        c.current? p'.address = some j) : Moves e c (c.modifyService i f) := by
  refine .single (.peers _ fun s' hs' p' hp' j hj => ?_)
  obtain ⟨place, hplace⟩ := List.getElem?_of_mem hs'
  rw [List.getElem?_modify] at hplace
  obtain ⟨s, hs, hmodified⟩ := Option.map_eq_some_iff.1 hplace
  split at hmodified
  · next heq =>
    subst heq hmodified
    rcases known s hs p' hp' j hj with ⟨p, hp, haddress, hpreferred⟩ | hcurrent
    · exact .inl ⟨s, List.mem_of_getElem? hs, p, hp, haddress, hpreferred⟩
    · exact .inr hcurrent
  · subst hmodified
    exact .inl ⟨s, List.mem_of_getElem? hs, p', hp', rfl, hj⟩

/-- Peers that remember nothing new. -/
theorem setPeers_moves {i : ServiceId} {s : Service} {peers : List Peer}
    (hs : c.services[i]? = some s) (h : Recalls s.peers peers) :
    Moves e c (c.modifyService i ({ · with peers })) := by
  refine modifyService_moves fun s' hs' p' hp' j hj => ?_
  obtain rfl := Option.some.inj (hs.symm.trans hs')
  obtain ⟨p, hp, haddress, hkeep⟩ := h.of_mem hp'
  exact .inl ⟨p, hp, haddress.symm, hkeep j hj⟩

theorem rescored_moves {i : ServiceId} {s : Service} {peers : List Peer}
    (hs : c.services[i]? = some s) (h : Recalls s.peers peers) (visited : List Nat) :
    Moves e c (c.rescored i peers visited) := (setPeers_moves hs h).trans (moves_visits _ _)

theorem service_moves (c : Client) (name : String) (wish : Direction) :
    Moves e c (c.service name wish).1 := by
  unfold service
  split
  · exact .refl
  · refine .single (.peers _ fun s hs p hp j hj => ?_)
    rcases List.mem_append.1 hs with hold | hnew
    · exact .inl ⟨s, hold, p, hp, rfl, hj⟩
    · obtain rfl := List.mem_singleton.1 hnew
      cases hp

theorem addPeers_moves (c : Client) (i : ServiceId) (addresses : List Address) :
    Moves e c (c.addPeers i addresses) := by
  refine modifyService_moves fun s _ p' hp' j hj => ?_
  rcases List.mem_append.1 hp' with hold | hnew
  · exact .inl ⟨p', hold, rfl, hj⟩
  · obtain ⟨address, -, rfl⟩ := List.mem_map.1 hnew
    cases hj

/-- The peer at a place, with its service. -/
def peer? (c : Client) (i : ServiceId) (place : Nat) : Option (Service × Peer) :=
  c.services[i]?.bind fun s => (s.peers[place]?).map (s, ·)

theorem peer?_eq_some {i : ServiceId} {place : Nat} {s : Service} {p : Peer} :
    c.peer? i place = some (s, p) ↔ c.services[i]? = some s ∧ s.peers[place]? = some p := by
  simp only [peer?, Option.bind_eq_some_iff, Option.map_eq_some_iff, Prod.mk.injEq]
  constructor
  · rintro ⟨s, hs, p, hp, rfl, rfl⟩
    exact ⟨hs, hp⟩
  · rintro ⟨hs, hp⟩
    exact ⟨s, hs, p, hp, rfl, rfl⟩

theorem rescorePeer_moves (c : Client) (i : ServiceId) (place : Nat) :
    Moves e c (c.rescorePeer i place).1 := by
  unfold rescorePeer
  split
  · exact .refl
  · next s p h =>
    obtain ⟨hs, hp⟩ := peer?_eq_some.1 h
    have hset : Recalls s.peers (s.peers.set place (c.rescore s p).1) :=
      .set hp rfl fun _ hi => (Peer.evict_preferred hi).1
    exact rescored_moves hs hset _

theorem preferred_moves (c : Client) (i : ServiceId) (place : Nat) :
    Moves e c (c.preferred i place).1 := by
  unfold preferred
  split
  · exact .refl
  · next s p h =>
    obtain ⟨hs, hp⟩ := peer?_eq_some.1 h
    have hset : Recalls s.peers (s.peers.set place (p.evict c.connections s.effectiveWish)) :=
      .set hp rfl fun _ hi => (Peer.evict_preferred hi).1
    exact setPeers_moves hs hset

theorem choose_moves (c : Client) (i : ServiceId) (start : Nat) :
    Moves e c (c.choose i start).1 := by
  unfold choose
  split
  · exact .refl
  · next s hs => exact rescored_moves hs (c.scan_recalls s start) _

/-! ## Connections for peers -/

theorem current?_open (c : Client) (address : Address) :
    (c.openConnection address).1.current? address = some c.connections.length := by
  have hgone : (c.pool.filter (·.1 != address)).lookup address = none := by
    rw [List.lookup_eq_none_iff]
    intro entry hentry
    simpa [bne_iff_ne, ne_comm] using (List.mem_filter.1 hentry).2
  simp [openConnection, current?, List.lookup_append, hgone]

theorem findOrOpen_current (c : Client) (address : Address) :
    (c.findOrOpen address).1.current? address = some (c.findOrOpen address).2 := by
  unfold findOrOpen
  split
  · next i hi => exact (Option.filter_eq_some_iff.1 hi).1
  · exact c.current?_open address

theorem findOrOpen_services (c : Client) (address : Address) :
    (c.findOrOpen address).1.services = c.services := by
  unfold findOrOpen
  split <;> rfl

/-- What it takes to connect a peer, and what it then remembers. -/
theorem connectPeer_ok {i : ServiceId} {place : Nat} {j : ConnectionId}
    (h : c.connectPeer i place = .ok (c', j)) :
    ∃ s p, c.peer? i place = some (s, p) ∧ s.released = false ∧
      (c.findOrOpen p.address).2 = j ∧
      (c.findOrOpen p.address).1.modifyService i ({ · with
        peers := s.peers.set place { p with preferred := some j } }) = c' := by
  unfold connectPeer at h
  split at h
  · cases h
  · next s p hp =>
    split at h
    · cases h
    · next hreleased =>
      simp only [Except.ok.injEq, Prod.mk.injEq] at h
      obtain ⟨hc', rfl⟩ := h
      exact ⟨s, p, hp, by simpa using hreleased, rfl, hc'⟩

theorem connectPeer_moves {i : ServiceId} {place : Nat} {j : ConnectionId}
    (h : c.connectPeer i place = .ok (c', j)) : Moves e c c' := by
  obtain ⟨s, p, hpeer, -, rfl, rfl⟩ := connectPeer_ok h
  obtain ⟨hs, hp⟩ := peer?_eq_some.1 hpeer
  refine (c.findOrOpen_moves p.address).trans (modifyService_moves fun s' hs' q' hq' k hk => ?_)
  rw [findOrOpen_services] at hs'
  obtain rfl := Option.some.inj (hs.symm.trans hs')
  rcases List.mem_or_eq_of_mem_set hq' with hold | rfl
  · exact .inl ⟨q', hold, rfl, hk⟩
  · obtain rfl := Option.some.inj hk
    exact .inr (c.findOrOpen_current p.address)

/-- A connection for a chosen peer is the one that it remembers, or else one
that it is connected to. -/
theorem connect_ok {i : ServiceId} {start : Nat} {j : ConnectionId}
    (h : c.connect i start = .ok (c', j)) :
    ∃ c₁ place, c.choose i start = (c₁, some place) ∧
      (c₁.preferred i place = (c', some j) ∨
        ∃ c₂, c₁.preferred i place = (c₂, none) ∧ c₂.connectPeer i place = .ok (c', j)) := by
  unfold connect at h
  split at h
  · cases h
  · next c₁ place hchoose =>
    refine ⟨c₁, place, hchoose, ?_⟩
    split at h
    · next c₂ k hpreferred =>
      simp only [Except.ok.injEq, Prod.mk.injEq] at h
      obtain ⟨rfl, rfl⟩ := h
      exact .inl hpreferred
    · next c₂ hpreferred => exact .inr ⟨c₂, hpreferred, h⟩

theorem connect_moves {i : ServiceId} {start : Nat} {j : ConnectionId}
    (h : c.connect i start = .ok (c', j)) : Moves e c c' := by
  obtain ⟨c₁, place, hchoose, hrest⟩ := connect_ok h
  have hfirst : Moves e c c₁ := by
    simpa only [hchoose] using c.choose_moves (e := e) i start
  rcases hrest with hpreferred | ⟨c₂, hpreferred, hconnect⟩
  · have hsecond := c₁.preferred_moves (e := e) i place
    rw [hpreferred] at hsecond
    exact hfirst.trans hsecond
  · have hsecond := c₁.preferred_moves (e := e) i place
    rw [hpreferred] at hsecond
    exact hfirst.trans (hsecond.trans (connectPeer_moves hconnect))

theorem route_moves {i : ServiceId} {target : Option Address} {start : Nat} {j : ConnectionId}
    (h : c.route i target start = .ok (c', j)) : Moves e c c' := by
  unfold route at h
  split at h
  · next address =>
    simp only [Except.ok.injEq] at h
    have hmoves := c.findOrOpen_moves (e := e) address
    rw [h] at hmoves
    exact hmoves
  · exact connect_moves h

/-! ## Requests -/

theorem expect_of_some {i : ConnectionId} {k : Connection} (h : c.connections[i]? = some k)
    (request : Request Bytes) :
    c.expect i request =
      (c.modifyConnection i (·.handle (.expect c.now request)),
        some (k.calls.expect c.now request).2) := by
  have hset : c.connections.set i { k with calls := (k.calls.expect c.now request).1 } =
      c.connections.modify i (·.handle (.expect c.now request)) := by
    refine List.ext_getElem? fun j => ?_
    rw [List.getElem?_set, List.getElem?_modify]
    split
    · next heq =>
      subst heq
      obtain ⟨hlt, -⟩ := List.getElem?_eq_some_iff.1 h
      rw [if_pos hlt, h]
      simp [Connection.handle]
    · simp
  simp only [expect, h, modifyConnection, hset]

theorem expect_of_none {i : ConnectionId} (h : c.connections[i]? = none)
    (request : Request Bytes) : c.expect i request = (c, none) := by
  simp only [expect, h]

theorem expect_moves (c : Client) (i : ConnectionId) (request : Request Bytes) :
    Moves e c (c.expect i request).1 := by
  cases h : c.connections[i]? with
  | none =>
    rw [expect_of_none h]
  | some k =>
    rw [expect_of_some h]
    exact .single (.connection i _ trivial)

theorem register_moves (h : e.IsRequest) (c : Client) (d : DispatchId) (w : Waiting) :
    Moves e c (c.register d w) := by
  have hexpect := c.expect_moves (e := e) w.connection
    (w.request.defaultTransport Headers.schemeKey Scheme.raw.tag)
  unfold register
  split
  · next c₁ handle hregistered =>
    rw [hregistered] at hexpect
    exact hexpect.tail (.requests _ h)
  · next c₁ hnone =>
    rw [hnone] at hexpect
    exact hexpect

theorem giveUp_moves (h : e.IsRequest) (c : Client) (d : DispatchId) (w : Waiting) :
    Moves e c (c.giveUp d w) := (c.clean_moves w.connection).tail (.requests _ h)

theorem resume_moves (h : e.IsRequest) (c : Client) (d : DispatchId) :
    Moves e c (c.resume d) := by
  unfold resume
  split
  · next w _ =>
    split
    · exact register_moves h c d w
    · exact giveUp_moves h c d w
    · split
      · exact giveUp_moves h c d w
      · exact .refl
    · exact .refl
  · exact .refl

/-- What it takes to dispatch a request. -/
theorem dispatch_ok {i : ServiceId} {out : Outgoing} {target : Option Address} {start : Nat}
    {d : DispatchId} (h : c.dispatch i out target start = .ok (c', d)) :
    ∃ s request reader c₁ j, c.services[i]? = some s ∧ s.prepare out = .ok (request, reader) ∧
      c.route i target start = .ok (c₁, j) ∧ c₁.dispatches.length = d ∧
      Client.resume { c₁ with
        dispatches := c₁.dispatches ++
          [⟨reader, .waiting ⟨j, request, s.initTimeout, s.initTimeout.after c₁.now⟩⟩] } d = c' := by
  unfold dispatch at h
  split at h
  · cases h
  · next s hs =>
    cases hprepare : s.prepare out with
    | error error => simp [hprepare, bind, Except.bind] at h
    | ok prepared =>
      obtain ⟨request, reader⟩ := prepared
      cases hroute : c.route i target start with
      | error error => simp [hprepare, hroute, bind, Except.bind] at h
      | ok routed =>
        obtain ⟨c₁, j⟩ := routed
        simp only [hprepare, hroute, bind, Except.bind, Except.ok.injEq, Prod.mk.injEq] at h
        obtain ⟨hc', hd⟩ := h
        exact ⟨s, request, reader, c₁, j, hs, hprepare, rfl, hd, hd ▸ hc'⟩

theorem dispatch_moves (isRequest : e.IsRequest) {i : ServiceId} {out : Outgoing}
    {target : Option Address} {start : Nat} {d : DispatchId}
    (h : c.dispatch i out target start = .ok (c', d)) : Moves e c c' := by
  obtain ⟨s, request, reader, c₁, j, -, -, hroute, -, rfl⟩ := dispatch_ok h
  exact ((route_moves hroute).tail (.requests _ isRequest)).trans (resume_moves isRequest _ d)

theorem orSame_moves {α : Type} {result : Except Error (Client × α)}
    (h : ∀ c' a, result = .ok (c', a) → Moves e c c') : Moves e c (c.orSame result) := by
  unfold orSame
  split
  · next c' a => exact h c' a rfl
  · exact .refl

/-- Every event is a number of moves. -/
theorem handle_moves (c : Client) (e : Event) : Moves e c (c.handle e) := by
  cases e with
  | service name wish => exact c.service_moves name wish
  | addPeers i addresses => exact c.addPeers_moves i addresses
  | scoreBy scorer => exact .single (.other c.now c.visits scorer)
  | choose i start => exact c.choose_moves i start
  | connect i start => exact orSame_moves fun _ _ => connect_moves
  | rescore i place => exact c.rescorePeer_moves i place
  | preferred i place => exact c.preferred_moves i place
  | connectPeer i place => exact orSame_moves fun _ _ => connectPeer_moves
  | findOrOpen address => exact c.findOrOpen_moves address
  | clean i => exact c.clean_moves i
  | shutdown => exact c.shutdown_moves
  | dispatch i out target start =>
    have isRequest : Event.IsRequest (.dispatch i out target start) := trivial
    exact orSame_moves fun _ _ => dispatch_moves isRequest
  | resume d =>
    have isRequest : Event.IsRequest (.resume d) := trivial
    exact resume_moves isRequest c d
  | abandon d =>
    simp only [handle, abandon]
    split
    · exact .single (.requests _ trivial)
    · exact .refl
  | expect i request => exact c.expect_moves i request
  | stream i event =>
    simp only [handle]
    split
    · next hstream =>
      refine .single (.connection i event ?_)
      cases event <;> first | rfl | cases hstream
    · exact .refl
  | expire => exact .single (.expire rfl)
  | advance time =>
    simp only [handle, advance]
    split
    · exact .single (.other time c.visits c.scorer)
    · exact .refl

end Client

end RpcClient
