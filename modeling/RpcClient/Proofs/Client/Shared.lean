/-
One usable connection for an address, shared by all who use it. `Shared` ties
the pool, the connections and what the peers of all services remember: a
usable connection is the current one for its address, and a peer remembers
only connections to its own. Every move keeps that (`Shared.move`), so
whatever hands out a connection (`HandedOut`) gives the one that all others get,
and opens one only where none is usable (`one_usable_connection`).
-/
import RpcClient.Proofs.Client.Move

namespace RpcClient.Client

variable {c c' : Client} {e : Event}

/-! ## One connection in a client -/

/-- What an event does to one connection is a run of events of its own. -/
theorem Move.connection_run (m : Move e c c') {i : ConnectionId} {k : Connection}
    (h : c.connections[i]? = some k) :
    ∃ events, c'.connections[i]? = some (k.run events) ∧ ∀ event ∈ events, e.Causes i event := by
  have hsame : ∃ events, c.connections[i]? = some (k.run events) ∧
      ∀ event ∈ events, e.Causes i event := ⟨[], h, by simp⟩
  cases m with
  | connection j event causes =>
    rw [getElem?_modifyConnection]
    split
    · next heq =>
      subst heq
      exact ⟨[event], by simp [h, Connection.run], by simpa using causes⟩
    · exact hsame
  | expire he =>
    exact ⟨[.expire c.now], by simp [expireDue, h, Connection.run, Connection.handle],
      by simpa [Event.Causes] using he⟩
  | «open» address _ =>
    obtain ⟨hlt, -⟩ := List.getElem?_eq_some_iff.1 h
    simpa [openConnection, List.getElem?_append_left hlt] using hsame
  | forget _ => exact hsame
  | peers services _ => exact hsame
  | requests dispatches _ => exact hsame
  | other now visits scorer => exact hsame

theorem Moves.connection_run (m : Moves e c c') {i : ConnectionId} {k : Connection}
    (h : c.connections[i]? = some k) :
    ∃ events, c'.connections[i]? = some (k.run events) ∧ ∀ event ∈ events, e.Causes i event := by
  induction m with
  | refl => exact ⟨[], h, by simp⟩
  | tail _ last ih =>
    obtain ⟨events, hrun, hcauses⟩ := ih
    obtain ⟨more, hmore, hcausesMore⟩ := last.connection_run hrun
    refine ⟨events ++ more, by rw [hmore, Connection.run, Connection.run, Connection.run,
      List.foldl_append], fun event hevent => ?_⟩
    rcases List.mem_append.1 hevent with hold | hnew
    · exact hcauses event hold
    · exact hcausesMore event hnew

theorem Move.connection_later (m : Move e c c') {i : ConnectionId} {k : Connection}
    (h : c.connections[i]? = some k) : ∃ k', c'.connections[i]? = some k' ∧ k.Later k' := by
  obtain ⟨events, hrun, -⟩ := m.connection_run h
  exact ⟨_, hrun, k.run_later events⟩

/-- A connection is one that was there, or one that was just opened. -/
theorem Move.connection_cases (m : Move e c c') {i : ConnectionId} {k' : Connection}
    (h : c'.connections[i]? = some k') :
    (∃ k events, c.connections[i]? = some k ∧ k.run events = k') ∨
    (∃ address, c.usable? address = none ∧ c' = (c.openConnection address).1 ∧
      i = c.connections.length ∧ k' = .dial address c.connectionSettings) := by
  cases hk : c.connections[i]? with
  | some k =>
    obtain ⟨events, hrun, -⟩ := m.connection_run hk
    exact .inl ⟨k, events, rfl, Option.some.inj (hrun.symm.trans h)⟩
  | none =>
    cases m with
    | connection j event _ => simp [getElem?_modifyConnection, hk] at h
    | expire _ => simp [expireDue, hk] at h
    | «open» address unusable =>
      have hlen : c.connections.length ≤ i := List.getElem?_eq_none_iff.1 hk
      simp only [openConnection, List.getElem?_append_right hlen,
        List.getElem?_singleton] at h
      split at h
      · next hzero =>
        obtain rfl := Option.some.inj h
        exact .inr ⟨address, unusable, rfl,
          Nat.le_antisymm (Nat.le_of_sub_eq_zero hzero) hlen, rfl⟩
      · cases h
    | forget _ => cases hk.symm.trans h
    | peers services _ => cases hk.symm.trans h
    | requests dispatches _ => cases hk.symm.trans h
    | other now visits scorer => cases hk.symm.trans h

/-- What every move keeps holds of every client that is come to. -/
theorem Reachable.keeps {settings : Settings} {codecs : Codecs} {P : Client → Prop}
    (base : P (Client.start settings codecs))
    (step : ∀ {e : Event} {c c' : Client}, P c → Move e c c' → P c')
    (h : Reachable settings codecs c) : P c := by
  induction h with
  | start => exact base
  | @handle c₁ e _ ih =>
    have hmoves := c₁.handle_moves e
    generalize c₁.handle e = c₂ at hmoves
    induction hmoves with
    | refl => exact ih
    | tail _ last ih => exact step ih last

/-- Every connection of a client that is come to is one that a connection by
itself can come to. -/
theorem Reachable.connection {settings : Settings} {codecs : Codecs}
    (h : Reachable settings codecs c) {i : ConnectionId} {k : Connection}
    (hk : c.connections[i]? = some k) : ∃ own, Connection.Reachable k.remote own k := by
  refine h.keeps (P := fun c => ∀ (i : ConnectionId) k, c.connections[i]? = some k →
    ∃ own, Connection.Reachable k.remote own k) ?_ (fun {e c c'} ih m i k' hk' => ?_) i k hk
  · simp [Client.start]
  · rcases m.connection_cases hk' with ⟨k, events, hk, rfl⟩ | ⟨address, -, -, -, rfl⟩
    · obtain ⟨own, hreach⟩ := ih i k hk
      rw [(k.run_later events).remote]
      exact ⟨own, hreach.run events⟩
    · exact ⟨_, .dial⟩

/-! ## The pool -/

theorem current?_open_other (c : Client) {address other : Address} (h : other ≠ address) :
    (c.openConnection address).1.current? other = c.current? other := by
  have hkept : (c.pool.filter (·.1 != address)).lookup other = c.pool.lookup other := by
    induction c.pool with
    | nil => rfl
    | cons entry pool ih =>
      obtain ⟨a, i⟩ := entry
      by_cases ha : a = address
      · subst ha
        have hne : (other == a) = false := by simpa using h
        simp only [List.filter_cons, bne_self_eq_false, Bool.false_eq_true, if_false, ih,
          List.lookup_cons, hne]
      · simp only [List.filter_cons, bne_iff_ne.2 ha, if_true, List.lookup_cons, ih]
  have hne : (other == address) = false := by simpa using h
  simp [openConnection, current?, List.lookup_append, hkept, List.lookup_cons, hne]

/-- What ties the pool, the connections and the peers together. -/
structure Shared (c : Client) : Prop where
  /-- The current connection for an address is one to it. -/
  current : ∀ address i, c.current? address = some i →
    ∃ k, c.connections[i]? = some k ∧ k.remote = address
  /-- A usable connection is the current one for its address. -/
  usable : ∀ i k, c.connections[i]? = some k → k.isUsable = true → c.current? k.remote = some i
  /-- A peer remembers a connection to its address. -/
  remembered : ∀ address i, c.Remembers address i →
    ∃ k, c.connections[i]? = some k ∧ k.remote = address

theorem Shared.start (settings : Settings) (codecs : Codecs) : Shared (start settings codecs) := by
  constructor
  · intro address i h
    cases h
  · intro i k h
    simp [Client.start] at h
  · rintro address i ⟨s, hs, -⟩
    cases hs

theorem usable?_eq_none {address : Address} (h : c.usable? address = none) {i : ConnectionId}
    {k : Connection} (hi : c.current? address = some i) (hk : c.connections[i]? = some k) :
    k.isUsable = false := by
  simpa [usable?, hi, hk, Option.filter_some] using h

theorem Shared.move (h : Shared c) (m : Move e c c') : Shared c' := by
  constructor
  · intro address i hi
    have hold : c.current? address = some i ∨
        ∃ k, c'.connections[i]? = some k ∧ k.remote = address := by
      cases m with
      | connection j event _ => exact .inl hi
      | expire _ => exact .inl hi
      | «open» opened _ =>
        by_cases heq : address = opened
        · subst heq
          rw [current?_open] at hi
          obtain rfl := Option.some.inj hi
          exact .inr ⟨.dial address c.connectionSettings, by simp [openConnection], rfl⟩
        · rw [current?_open_other c heq] at hi
          exact .inl hi
      | forget _ => cases hi
      | peers services _ => exact .inl hi
      | requests dispatches _ => exact .inl hi
      | other now visits scorer => exact .inl hi
    rcases hold with hold | hnew
    · obtain ⟨k, hk, hremote⟩ := h.current address i hold
      obtain ⟨k', hk', hlater⟩ := m.connection_later hk
      exact ⟨k', hk', hlater.remote.trans hremote⟩
    · exact hnew
  · intro i k' hk' husable
    rcases m.connection_cases hk' with ⟨k, events, hk, rfl⟩ | ⟨address, -, rfl, rfl, rfl⟩
    · have hlater : k.Later (k.run events) := k.run_later events
      have hold : k.isUsable = true := hlater.usable husable
      have hcurrent : c.current? k.remote = some i := h.usable i k hk hold
      rw [hlater.remote]
      cases m with
      | connection j event _ => exact hcurrent
      | expire _ => exact hcurrent
      | «open» opened unusable =>
        have hne : k.remote ≠ opened := by
          rintro rfl
          rw [usable?_eq_none unusable hcurrent hk] at hold
          cases hold
        rw [current?_open_other c hne]
        exact hcurrent
      | forget unusable =>
        have hentry : (k.remote, i) ∈ c.pool := mem_of_lookup_eq_some hcurrent
        rw [unusable _ _ k hentry hk] at hold
        cases hold
      | peers services _ => exact hcurrent
      | requests dispatches _ => exact hcurrent
      | other now visits scorer => exact hcurrent
    · exact c.current?_open address
  · intro address i hremembers
    have hold : c.Remembers address i ∨ c.current? address = some i := by
      cases m with
      | connection j event _ => exact .inl hremembers
      | expire _ => exact .inl hremembers
      | «open» opened _ => exact .inl hremembers
      | forget _ => exact .inl hremembers
      | peers services known =>
        obtain ⟨s, hs, p, hp, rfl, hpreferred⟩ := hremembers
        exact known s hs p hp i hpreferred
      | requests dispatches _ => exact .inl hremembers
      | other now visits scorer => exact .inl hremembers
    have hlinked : ∃ k, c.connections[i]? = some k ∧ k.remote = address := by
      rcases hold with hold | hold
      · exact h.remembered address i hold
      · exact h.current address i hold
    obtain ⟨k, hk, hremote⟩ := hlinked
    obtain ⟨k', hk', hlater⟩ := m.connection_later hk
    exact ⟨k', hk', hlater.remote.trans hremote⟩

theorem Shared.moves (h : Shared c) (m : Moves e c c') : Shared c' := by
  induction m with
  | refl => exact h
  | tail _ last ih => exact ih.move last

theorem Reachable.shared {settings : Settings} {codecs : Codecs} (h : Reachable settings codecs c) :
    Shared c := h.keeps (.start settings codecs) fun h m => h.move m

/-- No two usable connections lead to one address. -/
theorem Shared.usable_unique (h : Shared c) {i j : ConnectionId} {k l : Connection}
    (hk : c.connections[i]? = some k) (hl : c.connections[j]? = some l)
    (hku : k.isUsable = true) (hlu : l.isUsable = true) (remote : k.remote = l.remote) : i = j := by
  have hi := h.usable i k hk hku
  rw [remote, h.usable j l hl hlu] at hi
  exact (Option.some.inj hi).symm

/-! ## Handing out a connection -/

/-- A client has handed out a connection to an address: it is usable and the
current one; it was so before, or it is new and none was usable. -/
structure HandedOut (before after : Client) (address : Address) (i : ConnectionId) : Prop where
  current : after.current? address = some i
  usable : ∃ k, after.connections[i]? = some k ∧ k.remote = address ∧ k.isUsable = true
  opened : (after.connections = before.connections ∧ before.current? address = some i) ∨
    (i = before.connections.length ∧
      after.connections = before.connections ++ [.dial address before.connectionSettings] ∧
      ∀ k ∈ before.connections, k.remote = address → k.isUsable = false)

/-- The same connections, in the same places. -/
structure SameLinks (c c' : Client) : Prop where
  connections : c'.connections = c.connections
  pool : c'.pool = c.pool
  settings : c'.settings = c.settings

theorem SameLinks.refl (c : Client) : SameLinks c c := ⟨rfl, rfl, rfl⟩

theorem SameLinks.current? (h : SameLinks c c') (address : Address) :
    c'.current? address = c.current? address := by
  rw [Client.current?, h.pool, ← Client.current?]

theorem HandedOut.after_of {before : Client} {address : Address} {i : ConnectionId}
    (h : HandedOut before c address i) (same : SameLinks c c') : HandedOut before c' address i where
  current := (same.current? address).trans h.current
  usable := by
    rw [same.connections]
    exact h.usable
  opened := by
    rw [same.connections]
    exact h.opened

theorem HandedOut.before_of {after : Client} {address : Address} {i : ConnectionId}
    (h : HandedOut c' after address i) (same : SameLinks c c') : HandedOut c after address i where
  current := h.current
  usable := h.usable
  opened := by
    have hopened := h.opened
    simp only [same.current?, connectionSettings, same.connections, same.settings] at hopened
    exact hopened

theorem Shared.findOrOpen (h : Shared c) (address : Address) :
    HandedOut c (c.findOrOpen address).1 address (c.findOrOpen address).2 := by
  unfold Client.findOrOpen
  split
  · next i hi =>
    obtain ⟨hcurrent, husable⟩ := Option.filter_eq_some_iff.1 hi
    obtain ⟨k, hk, hremote⟩ := h.current address i hcurrent
    exact ⟨hcurrent, ⟨k, hk, hremote, by simpa [hk] using husable⟩, .inl ⟨rfl, hcurrent⟩⟩
  · next hnone =>
    refine ⟨c.current?_open address, ⟨.dial address c.connectionSettings, ?_, rfl, rfl⟩,
      .inr ⟨rfl, rfl, fun k hk hremote => ?_⟩⟩
    · simp [openConnection]
    · obtain ⟨i, hi⟩ := List.getElem?_of_mem hk
      by_contra hu
      have hcurrent := h.usable i k hi (by simpa using hu)
      rw [hremote] at hcurrent
      exact hu (usable?_eq_none hnone hcurrent hi)

theorem Shared.connectPeer (h : Shared c) {i : ServiceId} {place : Nat} {j : ConnectionId}
    (hconnect : c.connectPeer i place = .ok (c', j)) :
    ∃ s p, c.peer? i place = some (s, p) ∧ HandedOut c c' p.address j := by
  obtain ⟨s, p, hpeer, -, rfl, rfl⟩ := connectPeer_ok hconnect
  exact ⟨s, p, hpeer, (h.findOrOpen p.address).after_of ⟨rfl, rfl, rfl⟩⟩

/-! ## Choosing a connection -/

/-- Every peer stands where one for the same address stood. -/
def SamePeers (c c' : Client) : Prop :=
  ∀ (i : ServiceId) (place : Nat) (s' : Service) (p' : Peer), c'.peer? i place = some (s', p') →
    ∃ s p, c.peer? i place = some (s, p) ∧ p'.address = p.address

theorem samePeers_setPeers {i : ServiceId} {s : Service} {peers : List Peer}
    (hs : c.services[i]? = some s) (h : Recalls s.peers peers) :
    SamePeers c (c.modifyService i ({ · with peers })) := by
  intro j place s' p' hp'
  obtain ⟨hs', hplace⟩ := peer?_eq_some.1 hp'
  simp only [modifyService, List.getElem?_modify] at hs'
  obtain ⟨s₁, hs₁, hmodified⟩ := Option.map_eq_some_iff.1 hs'
  split at hmodified
  · next heq =>
    subst heq hmodified
    obtain rfl := Option.some.inj (hs.symm.trans hs₁)
    obtain ⟨p, hp, haddress, -⟩ := h place p' hplace
    exact ⟨s, p, peer?_eq_some.2 ⟨hs, hp⟩, haddress⟩
  · subst hmodified
    exact ⟨s₁, p', peer?_eq_some.2 ⟨hs₁, hplace⟩, rfl⟩

theorem choose_same (c : Client) (i : ServiceId) (start : Nat) :
    SameLinks c (c.choose i start).1 ∧ SamePeers c (c.choose i start).1 := by
  unfold choose
  split
  · exact ⟨.refl c, fun _ _ s p h => ⟨s, p, h, rfl⟩⟩
  · next s hs =>
    exact ⟨⟨rfl, rfl, rfl⟩, samePeers_setPeers hs (c.scan_recalls s start)⟩

theorem preferred_same (c : Client) (i : ServiceId) (place : Nat) :
    SameLinks c (c.preferred i place).1 ∧ SamePeers c (c.preferred i place).1 := by
  unfold preferred
  split
  · exact ⟨.refl c, fun _ _ s p h => ⟨s, p, h, rfl⟩⟩
  · next s p h =>
    obtain ⟨hs, hp⟩ := peer?_eq_some.1 h
    have hset : Recalls s.peers (s.peers.set place (p.evict c.connections s.effectiveWish)) :=
      .set hp rfl fun _ hi => (Peer.evict_preferred hi).1
    exact ⟨⟨rfl, rfl, rfl⟩, samePeers_setPeers hs hset⟩

/-- A connection that a peer remembers is usable, was opened in a direction
that its service accepts, and is the current one for its address. -/
theorem Shared.preferred (h : Shared c) {i : ServiceId} {place : Nat} {j : ConnectionId}
    (hpreferred : c.preferred i place = (c', some j)) :
    ∃ s p k, c.peer? i place = some (s, p) ∧ c.connections[j]? = some k ∧ k.isUsable = true ∧
      s.effectiveWish.accepts k.direction = true ∧ k.remote = p.address ∧
      c.current? p.address = some j := by
  unfold Client.preferred at hpreferred
  split at hpreferred
  · cases hpreferred
  · next s p hpeer =>
    simp only [Prod.mk.injEq] at hpreferred
    obtain ⟨hs, hp⟩ := peer?_eq_some.1 hpeer
    obtain ⟨hj, k, hk, husable, haccepts⟩ := Peer.evict_preferred hpreferred.2
    have hremembers : c.Remembers p.address j :=
      ⟨s, List.mem_of_getElem? hs, p, List.mem_of_getElem? hp, rfl, hj⟩
    obtain ⟨k₁, hk₁, hremote⟩ := h.remembered p.address j hremembers
    obtain rfl := Option.some.inj (hk.symm.trans hk₁)
    exact ⟨s, p, k, hpeer, hk, husable, haccepts, hremote, hremote ▸ h.usable j k hk husable⟩

theorem Shared.connect (h : Shared c) {i : ServiceId} {start : Nat} {j : ConnectionId}
    (hconnect : c.connect i start = .ok (c', j)) :
    ∃ place s p, c.peer? i place = some (s, p) ∧ HandedOut c c' p.address j := by
  obtain ⟨c₁, place, hchoose, hrest⟩ := connect_ok hconnect
  have hfirst := c.choose_same i start
  have hshared := h.moves (c.choose_moves (e := .choose i start) i start)
  rw [hchoose] at hfirst hshared
  have hsecond := c₁.preferred_same i place
  rcases hrest with hpreferred | ⟨c₂, hpreferred, hpeer⟩
  · obtain ⟨s₁, p₁, k, hp₁, hk, husable, -, hremote, hcurrent⟩ := hshared.preferred hpreferred
    obtain ⟨s, p, hp, haddress⟩ := hfirst.2 i place s₁ p₁ hp₁
    rw [hpreferred] at hsecond
    have hout : HandedOut c₁ c₁ p₁.address j :=
      ⟨hcurrent, ⟨k, hk, hremote, husable⟩, .inl ⟨rfl, hcurrent⟩⟩
    exact ⟨place, s, p, hp, haddress ▸ (hout.after_of hsecond.1).before_of hfirst.1⟩
  · have hshared₂ := hshared.moves (c₁.preferred_moves (e := .preferred i place) i place)
    rw [hpreferred] at hsecond hshared₂
    obtain ⟨s₂, p₂, hp₂, hout⟩ := hshared₂.connectPeer hpeer
    obtain ⟨s₁, p₁, hp₁, haddress₁⟩ := hsecond.2 i place s₂ p₂ hp₂
    obtain ⟨s, p, hp, haddress⟩ := hfirst.2 i place s₁ p₁ hp₁
    rw [haddress₁, haddress] at hout
    exact ⟨place, s, p, hp, (hout.before_of hsecond.1).before_of hfirst.1⟩

theorem Shared.route (h : Shared c) {i : ServiceId} {target : Option Address} {start : Nat}
    {j : ConnectionId} (hroute : c.route i target start = .ok (c', j)) :
    ∃ address, HandedOut c c' address j ∧ ∀ wanted, target = some wanted → address = wanted := by
  unfold Client.route at hroute
  split at hroute
  · next address =>
    simp only [Except.ok.injEq] at hroute
    have hout := h.findOrOpen address
    rw [hroute] at hout
    exact ⟨address, hout, fun wanted hw => Option.some.inj hw⟩
  · obtain ⟨_, _, p, -, hout⟩ := h.connect hroute
    exact ⟨p.address, hout, fun wanted hw => by cases hw⟩

/-- **One usable connection for an address, shared by all.** In every client
that is come to, of all connections ever opened at most one for each address is
usable, and it is the current one. What a peer remembers, if it may still be
used, is that one. Whoever asks for a connection gets it: by address, for a
peer, for a service or on the way of a request. A new one is opened only where
none is usable. -/
theorem one_usable_connection {settings : Settings} {codecs : Codecs}
    (h : Reachable settings codecs c) :
    (∀ (i j : ConnectionId) k l, c.connections[i]? = some k → c.connections[j]? = some l →
      k.isUsable = true → l.isUsable = true → k.remote = l.remote → i = j) ∧
    (∀ (i : ConnectionId) k, c.connections[i]? = some k → k.isUsable = true →
      c.current? k.remote = some i) ∧
    (∀ i place c' j, c.preferred i place = (c', some j) →
      ∃ s p k, c.peer? i place = some (s, p) ∧ c.connections[j]? = some k ∧ k.isUsable = true ∧
        s.effectiveWish.accepts k.direction = true ∧ c.current? p.address = some j ∧
        SameLinks c c') ∧
    (∀ address, HandedOut c (c.findOrOpen address).1 address (c.findOrOpen address).2) ∧
    (∀ i place c' j, c.connectPeer i place = .ok (c', j) →
      ∃ s p, c.peer? i place = some (s, p) ∧ HandedOut c c' p.address j) ∧
    (∀ i start c' j, c.connect i start = .ok (c', j) →
      ∃ place s p, c.peer? i place = some (s, p) ∧ HandedOut c c' p.address j) ∧
    (∀ i target start c' j, c.route i target start = .ok (c', j) →
      ∃ address, HandedOut c c' address j ∧ ∀ wanted, target = some wanted → address = wanted) := by
  have shared : Shared c := h.shared
  refine ⟨fun i j k l hk hl hku hlu => shared.usable_unique hk hl hku hlu, shared.usable,
    fun i place c' j hpreferred => ?_, shared.findOrOpen,
    fun i place c' j => shared.connectPeer, fun i start c' j => shared.connect,
    fun i target start c' j => shared.route⟩
  obtain ⟨s, p, k, hp, hk, husable, haccepts, -, hcurrent⟩ := shared.preferred hpreferred
  have hsame := (c.preferred_same i place).1
  rw [hpreferred] at hsame
  exact ⟨s, p, k, hp, hk, husable, haccepts, hcurrent, hsame⟩

/-- After the first connection to an address was given up, the next one who
asks gets a second one. -/
theorem second_connection_after_clean :
    let address : Address := .v4 127 0 0 1 4040
    let c := (start {} {}).run [.findOrOpen address, .clean 0]
    (c.findOrOpen address).2 = 1 ∧ HandedOut c (c.findOrOpen address).1 address 1 := by
  intro address c
  have hsecond : (c.findOrOpen address).2 = 1 := by decide +kernel
  obtain ⟨-, -, -, hout, -⟩ := one_usable_connection (Reachable.start.run _ : Reachable _ _ c)
  have hgot := hout address
  rw [hsecond] at hgot
  exact ⟨hsecond, hgot⟩

end RpcClient.Client
