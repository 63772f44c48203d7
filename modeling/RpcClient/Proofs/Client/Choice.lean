/-
How a service chooses among its peers by their handshakes. A peer counts by the
connection that it remembers, as long as that may be used (`link?`). The first one
with an identified connection settles a scan; otherwise a pending handshake scores
above none, so the scan comes to the first of those, or else to the first peer at all
(`scan_byHandshake`). Nothing is opened for that: who was looked at has a new
score and has forgotten a connection that must not be used (`choose_eq`).
-/
import Mathlib.Data.List.TakeWhile
import RpcClient.Proofs.Client.Shutdown

namespace RpcClient

namespace Client

variable {c : Client} {s : Service} {p : Peer} {place : Nat}

/-! ## What a peer has -/

/-- The connection that a peer of a service remembers, if it was neither given up nor
has failed, and was opened in a direction that the service accepts. -/
def link? (c : Client) (s : Service) (p : Peer) : Option Connection :=
  (p.preferred.bind (c.connections[·]?)).filter fun k =>
    !k.cleaned && k.handshake != .failed && s.wish.accepts k.direction

/-- How the handshake stands on that connection. -/
def standing? (c : Client) (s : Service) (p : Peer) : Option Handshake :=
  (c.link? s p).map (·.handshake)

/-- What a peer with such a connection scores. -/
def worth (link : Option Connection) : Int :=
  match link with
  | none => 0
  | some k => if k.handshake = .identified then UInt32.size - (k.pendingCount : Int) else 1

/-- A peer after it was looked at. -/
def looked (c : Client) (s : Service) (p : Peer) : Peer :=
  { p with
      score := worth (c.link? s p)
      preferred := if (c.link? s p).isSome then p.preferred else none }

theorem link?_eq_some {k : Connection} (h : c.link? s p = some k) :
    ∃ j, p.preferred = some j ∧ c.connections[j]? = some k ∧ k.isUsable = true ∧
      s.wish.accepts k.direction = true := by
  obtain ⟨hk, hok⟩ := Option.filter_eq_some_iff.1 h
  obtain ⟨j, hj, hk⟩ := Option.bind_eq_some_iff.1 hk
  simp only [Bool.and_eq_true] at hok
  exact ⟨j, hj, hk, by simp [Connection.isUsable, hok.1.1, hok.1.2], hok.2⟩

/-- A peer forgets just what it does not have. -/
theorem usable?_eq (held : s.released = false) :
    p.usable? c.connections s.effectiveWish =
      if (c.link? s p).isSome then p.preferred else none := by
  have hwish : s.effectiveWish = s.wish := by simp [Service.effectiveWish, held]
  simp only [Peer.usable?, hwish, link?]
  obtain hj | ⟨j, hj⟩ := Option.eq_none_or_eq_some p.preferred
  · simp [hj]
  obtain hk | ⟨k, hk⟩ := Option.eq_none_or_eq_some c.connections[j]?
  · simp [hj, hk, Option.filter_some]
  · simp [hj, hk, Option.filter_some, Connection.isUsable, apply_ite Option.isSome]

theorem evict_link? (held : s.released = false) :
    (p.evict c.connections s.effectiveWish).preferred.bind (c.connections[·]?) = c.link? s p := by
  rw [Peer.evict, usable?_eq held]
  cases h : c.link? s p with
  | none => rfl
  | some k =>
    obtain ⟨j, hj, hk, -⟩ := link?_eq_some h
    simp [hj, hk]

/-- No link is one that has failed. -/
theorem link?_ne_failed {k : Connection} (h : c.link? s p = some k) : k.handshake ≠ .failed := by
  intro hfailed
  have hok := (Option.filter_eq_some_iff.1 h).2
  simp [hfailed] at hok

/-- How a peer scores itself by its handshake. -/
theorem rescore_eq (held : s.released = false) (scorer : c.scorer = Scorer.byHandshake) :
    c.rescore s p =
      (c.looked s p, ⟨worth (c.link? s p), c.standing? s p = some .identified⟩) := by
  have hscore : c.scorer p.address (c.link? s p) =
      ⟨worth (c.link? s p), c.standing? s p = some .identified⟩ := by
    rw [scorer]
    unfold Scorer.byHandshake
    cases hlink : c.link? s p with
    | none => simp [worth, standing?, hlink]
    | some k =>
      cases hk : k.handshake with
      | identified => simp [worth, standing?, hlink, hk]
      | pending => simp [worth, standing?, hlink, hk]
      | failed => exact absurd hk (link?_ne_failed hlink)
  simp only [Client.rescore, Peer.rescore, evict_link? held]
  show ({ p.evict c.connections s.effectiveWish with
    score := (c.scorer p.address (c.link? s p)).value }, c.scorer p.address (c.link? s p)) = _
  rw [hscore, Peer.evict, usable?_eq held]
  rfl

/-! ## The way around -/

/-- Whether the peer at a place has a connection in some state. -/
def hasAt (c : Client) (s : Service) (state : Handshake) (place : Nat) : Bool :=
  (s.peers[place]?).any fun p => c.standing? s p = some state

/-- Who has an identified connection settles the choice. -/
theorem rating_settles (held : s.released = false) (scorer : c.scorer = Scorer.byHandshake)
    (place : Nat) :
    (rating (fun _ => c.rescore s) s.peers place).settles = c.hasAt s .identified place := by
  cases hp : s.peers[place]? with
  | none => simp [rating, hasAt, hp]
  | some p => simp [rating, hasAt, hp, rescore_eq held scorer]

/-- Of those who have none, who has a pending one scores more. -/
theorem rating_value (held : s.released = false) (scorer : c.scorer = Scorer.byHandshake)
    (h : c.hasAt s .identified place = false) :
    (rating (fun _ => c.rescore s) s.peers place).value =
      if c.hasAt s .pending place then 1 else 0 := by
  cases hp : s.peers[place]? with
  | none => simp [rating, hasAt, hp]
  | some p =>
    simp only [rating, hasAt, hp, Option.map_some, Option.getD_some, Option.any_some,
      decide_eq_false_iff_not, decide_eq_true_eq, rescore_eq held scorer] at h ⊢
    cases hlink : c.link? s p with
    | none => simp [worth, standing?, hlink]
    | some k =>
      cases hk : k.handshake with
      | identified => exact absurd (by simp [standing?, hlink, hk]) h
      | pending => simp [worth, standing?, hlink, hk]
      | failed => exact absurd hk (link?_ne_failed hlink)

end Client

/-- Where those who settle nothing score one or zero, a scan comes to the first who
settles the choice, else to the first with a one, and else to the first of all. -/
theorem Scanned.oneOrZero {rates : Nat → Score} {places visited : List Nat} {chosen : Option Nat}
    (h : Scanned rates places chosen visited) (high : Nat → Bool)
    (value : ∀ place ∈ places, (rates place).settles = false →
      (rates place).value = if high place then 1 else 0) :
    chosen = ((places.find? fun place => (rates place).settles).or
      (places.find? high)).or places.head? ∧
    visited = places.takeWhile (fun place => !(rates place).settles) ++
      (places.find? fun place => (rates place).settles).toList := by
  cases h with
  | settled before place after split going settles =>
    have hbefore : (before.find? fun place => (rates place).settles) = none := by
      simpa using going
    have hfind : (places.find? fun place => (rates place).settles) = some place := by
      rw [split, List.find?_append, hbefore, List.find?_cons, settles]
      rfl
    refine ⟨by rw [hfind]; rfl, ?_⟩
    rw [hfind, split, List.takeWhile_append_of_pos (by simpa using going)]
    simp [settles]
  | best before place after going leads =>
    obtain ⟨hsplit, habove, hnotBelow⟩ := leads
    have hnone : (places.find? fun place => (rates place).settles) = none := by
      simpa using going
    have hwhile : places.takeWhile (fun place => !(rates place).settles) = places := by
      simpa [List.takeWhile_eq_self_iff] using going
    have hvalue : ∀ other ∈ places, (rates other).value = if high other then 1 else 0 :=
      fun other hother => value other hother (going other hother)
    have hplace : place ∈ places := by simp [hsplit]
    have hbefore : ∀ other ∈ before, other ∈ places := fun other hother => by simp [hsplit, hother]
    have hafter : ∀ other ∈ after, other ∈ places := fun other hother => by simp [hsplit, hother]
    refine ⟨?_, by rw [hnone, hwhile]; simp⟩
    rw [hnone, Option.none_or]
    cases hhigh : high place with
    | true =>
      -- Before a one that leads all others are zeros.
      have hlow : before.find? high = none := by
        rw [List.find?_eq_none]
        intro other hother hother'
        have hlt := habove other hother
        simp only [hvalue other (hbefore other hother), hvalue place hplace, hhigh, hother',
          if_true, Int.lt_irrefl] at hlt
      rw [hsplit, List.find?_append, hlow, List.find?_cons, hhigh]
      rfl
    | false =>
      -- A zero leads only from the front, and only where no one comes behind it.
      have hfront : before = [] := by
        rw [List.eq_nil_iff_forall_not_mem]
        intro other hother
        have hlt := habove other hother
        simp only [hvalue other (hbefore other hother), hvalue place hplace, hhigh,
          Bool.false_eq_true, if_false] at hlt
        split at hlt
        · exact absurd hlt (by decide)
        · exact absurd hlt (by decide)
      have hlow : after.find? high = none := by
        rw [List.find?_eq_none]
        intro other hother hother'
        have hle := hnotBelow other hother
        simp only [hvalue other (hafter other hother), hvalue place hplace, hhigh, hother',
          Bool.false_eq_true, if_false, if_true] at hle
        exact absurd hle (by decide)
      rw [hsplit, hfront, List.nil_append, List.find?_cons, hhigh, hlow]
      rfl

namespace Client

variable {c c' : Client} {i : ServiceId} {s : Service} {p : Peer} {start place : Nat}

/-- A service chooses the first peer with an identified connection, else the first with
a pending one, and else the one that comes next. -/
theorem scan_byHandshake (held : s.released = false) (scorer : c.scorer = Scorer.byHandshake)
    (hstart : start < s.peers.length) :
    let order := circle s.peers.length start
    (scan (fun _ => c.rescore s) start s.peers).2 =
      (some (((order.find? (c.hasAt s .identified)).or
        (order.find? (c.hasAt s .pending))).getD ((start + 1) % s.peers.length)),
      order.takeWhile (fun place => !c.hasAt s .identified place) ++
        (order.find? (c.hasAt s .identified)).toList) := by
  intro order
  have hpeers : s.peers ≠ [] := by
    intro hnil
    rw [hnil] at hstart
    cases hstart
  have hhead : (circle s.peers.length start).head? = some ((start + 1) % s.peers.length) := by
    rw [← scanOrder_eq hstart]
    exact head?_scanOrder start (List.length_pos_iff.2 hpeers)
  have hscanned := scan_scanned (fun _ => c.rescore s) hpeers start
  rw [scanOrder_eq hstart] at hscanned
  obtain ⟨hchosen, hvisited⟩ := hscanned.oneOrZero (c.hasAt s .pending)
    fun place _ hgoing => rating_value held scorer (rating_settles held scorer place ▸ hgoing)
  simp only [rating_settles held scorer, hhead] at hchosen hvisited
  refine Prod.ext (hchosen.trans ?_) hvisited
  cases (order.find? (c.hasAt s .identified)).or (order.find? (c.hasAt s .pending)) <;> rfl

/-! ## A connection for the chosen peer -/

/-- To look at a peer once more changes nothing. -/
theorem evict_looked (held : s.released = false) (p : Peer) :
    (c.looked s p).evict c.connections s.effectiveWish = c.looked s p := by
  have hsame : c.link? s (c.looked s p) = c.link? s p := by
    cases h : c.link? s p with
    | none =>
      have hgone : (c.looked s p).preferred = none := by simp [looked, h]
      rw [link?, hgone]
      rfl
    | some k =>
      have hkept : (c.looked s p).preferred = p.preferred := by simp [looked, h]
      rw [← h, link?, hkept, link?]
  rw [Peer.evict, usable?_eq held, hsame]
  cases h : c.link? s p <;> simp [looked, h]

/-- A service whose peers were looked at. -/
theorem choose_eq (hs : c.services[i]? = some s) (start : Nat) :
    ∃ visits, c.choose i start =
      ({ c.modifyService i ({ · with peers := (scan (fun _ => c.rescore s) start s.peers).1 }) with
          visits },
        (scan (fun _ => c.rescore s) start s.peers).2.1) := by
  refine ⟨(c.choose i start).1.visits, ?_⟩
  simp only [choose, hs]
  rfl

theorem preferred_choose {peers : List Peer} (visits : List (Address × Option Handshake))
    (hs : c.services[i]? = some s) (held : s.released = false)
    (hp : peers[place]? = some (c.looked s p)) :
    let c₁ : Client := { c.modifyService i ({ · with peers }) with visits }
    c₁.preferred i place = (c₁, (c.looked s p).preferred) := by
  intro c₁
  have hs₁ : c₁.services[i]? = some { s with peers } := by
    simp [c₁, modifyService, hs]
  have hevict : (c.looked s p).evict c₁.connections ({ s with peers } : Service).effectiveWish =
      c.looked s p := evict_looked held p
  have hset : peers.set place (c.looked s p) = peers := by
    obtain ⟨hlt, hget⟩ := List.getElem?_eq_some_iff.1 hp
    rw [← hget, List.set_getElem_self]
  have hagain : c₁.modifyService i ({ · with peers }) = c₁ := by
    simp only [c₁, modifyService, List.modify_modify_eq]
    rfl
  simp only [preferred, hs₁, Option.bind_some, hp, Option.map_some, hevict, hset, hagain]

/-- The pool is asked in vain or not, whoever asks. -/
theorem SameLinks.findOrOpen (h : SameLinks c c') (address : Address) :
    (c'.findOrOpen address).2 = (c.findOrOpen address).2 := by
  simp only [Client.findOrOpen, h.current?, h.connections]
  split
  · rfl
  · exact congrArg List.length h.connections

/-- The connection that a peer has is the current one for its address. -/
theorem Shared.link (h : Shared c) {k : Connection} (hs : c.services[i]? = some s)
    (hp : s.peers[place]? = some p) (hlink : c.link? s p = some k) :
    ∃ j, p.preferred = some j ∧ HandedOut c c p.address j := by
  obtain ⟨j, hj, hk, husable, -⟩ := link?_eq_some hlink
  obtain ⟨k', hk', hremote⟩ := h.remembered p.address j
    ⟨s, List.mem_of_getElem? hs, p, List.mem_of_getElem? hp, rfl, hj⟩
  obtain rfl := Option.some.inj (hk.symm.trans hk')
  have hcurrent : c.current? p.address = some j := hremote ▸ h.usable j k hk husable
  exact ⟨j, hj, hcurrent, ⟨k, hk, hremote, husable⟩, .inl ⟨rfl, hcurrent⟩⟩

/-- What a peer has been given: the connection that it has, or else the one that the
pool has for its address. -/
structure Supplied (c c₁ c' : Client) (s : Service) (p : Peer) (j : ConnectionId) : Prop where
  handed : HandedOut c c' p.address j
  linked : ∀ k, c.link? s p = some k → p.preferred = some j ∧ c' = c₁
  pooled : c.link? s p = none → j = (c.findOrOpen p.address).2

/-- Whoever was looked at and chosen gets a connection. -/
theorem Reachable.connect_chosen {settings : Settings} {codecs : Codecs} {peers : List Peer}
    {visits : List (Address × Option Handshake)} (h : Reachable settings codecs c)
    (hs : c.services[i]? = some s) (hp : s.peers[place]? = some p)
    (chosen : c.choose i start =
      ({ c.modifyService i ({ · with peers }) with visits }, some place))
    (after : peers[place]? = some (c.looked s p)) :
    ∃ c' j, c.connect i start = .ok (c', j) ∧
      Supplied c { c.modifyService i ({ · with peers }) with visits } c' s p j := by
  have held : s.released = false := h.unreleased s (List.mem_of_getElem? hs)
  have hpreferred := preferred_choose visits hs held after
  have hsame := (c.choose_same i start).1
  have hshared := h.shared.moves (c.choose_moves (e := .choose i start) i start)
  rw [chosen] at hsame hshared
  simp only at hpreferred hsame hshared
  generalize hc₁ : ({ c.modifyService i ({ · with peers }) with visits } : Client) = c₁ at *
  cases hlink : c.link? s p with
  | some k =>
    obtain ⟨j, hj, hout⟩ := h.shared.link hs hp hlink
    have hkept : (c.looked s p).preferred = some j := by simp [looked, hlink, hj]
    rw [hkept] at hpreferred
    refine ⟨c₁, j, by simp only [connect, chosen, hpreferred], hout.after_of hsame,
      fun _ _ => ⟨hj, rfl⟩, fun hnone => ?_⟩
    cases hlink.symm.trans hnone
  | none =>
    have hgone : (c.looked s p).preferred = none := by simp [looked, hlink]
    rw [hgone] at hpreferred
    have hpeer : c₁.peer? i place = some ({ s with peers }, c.looked s p) :=
      peer?_eq_some.2 ⟨by simp [← hc₁, modifyService, hs], after⟩
    obtain ⟨c', j, hconnect⟩ := connectPeer_of_offers ⟨_, _, hpeer, held⟩
    obtain ⟨s', p', hpeer', hout⟩ := hshared.connectPeer hconnect
    obtain ⟨s'', p'', hpeer'', -, hj, -⟩ := connectPeer_ok hconnect
    obtain ⟨-, rfl⟩ := Prod.mk.inj (Option.some.inj (hpeer.symm.trans hpeer'))
    obtain ⟨-, rfl⟩ := Prod.mk.inj (Option.some.inj (hpeer.symm.trans hpeer''))
    refine ⟨c', j, by simp only [connect, chosen, hpreferred, hconnect], hout.before_of hsame,
      fun k hk => ?_, fun _ => ?_⟩
    · cases hlink.symm.trans hk
    · rw [← hj]
      exact hsame.findOrOpen p.address

/-- **The healthiest peer.** In every client that is come to, a service with peers chooses,
from behind `start` on around the circle, the first one with an identified connection,
or else the first one with a pending one, or else the one that comes next. A connection
counts that a peer remembers, as long as it may be used and was opened in a direction
that the service accepts. To choose opens no connection: those who were looked at, which
are all up to the first with an identified connection, have a new score, and forget what
does not count; nothing else has changed but the note of it. Who is connected through
the service gets the connection of the chosen peer, or else the one that the pool has
for its address. -/
theorem healthiest_chosen {settings : Settings} {codecs : Codecs} (h : Reachable settings codecs c)
    (scorer : c.scorer = Scorer.byHandshake) (hs : c.services[i]? = some s)
    (hstart : start < s.peers.length) :
    let order := List.range' (start + 1) (s.peers.length - (start + 1)) ++ List.range (start + 1)
    let identified := order.find? (c.hasAt s .identified)
    let pending := order.find? (c.hasAt s .pending)
    let chosen := (identified.or pending).getD ((start + 1) % s.peers.length)
    let visited := order.takeWhile (fun place => !c.hasAt s .identified place) ++ identified.toList
    ∃ p peers visits c' j, s.peers[chosen]? = some p ∧
      c.choose i start = ({ c.modifyService i ({ · with peers }) with visits }, some chosen) ∧
      peers.length = s.peers.length ∧
      (∀ place q, s.peers[place]? = some q →
        peers[place]? = some (if place ∈ visited then c.looked s q else q) ∧
        ∀ k, c.link? s q = some k → k.handshake = .identified →
          k.pendingCount < UInt32.size - 1 → 1 < (c.looked s q).score) ∧
      c.connect i start = .ok (c', j) ∧ Supplied c (c.choose i start).1 c' s p j := by
  intro order identified pending chosen visited
  have held : s.released = false := h.unreleased s (List.mem_of_getElem? hs)
  have hpeers : s.peers ≠ [] := by
    intro hnil
    rw [hnil] at hstart
    cases hstart
  have hscan : (scan (fun _ => c.rescore s) start s.peers).2 = (some chosen, visited) :=
    scan_byHandshake held scorer hstart
  have hscanned := scan_scanned (fun _ => c.rescore s) hpeers start
  obtain ⟨place, hchosen, hlt⟩ := scan_some (fun _ => c.rescore s) hpeers start
  rw [hscan] at hscanned hchosen
  obtain rfl : chosen = place := Option.some.inj hchosen
  have hafter : ∀ place q, s.peers[place]? = some q →
      (scan (fun _ => c.rescore s) start s.peers).1[place]? =
        some (if place ∈ visited then c.looked s q else q) := by
    intro place q hq
    rw [getElem?_scan, hscan, hq, Option.map_some, rescore_eq held scorer]
    split <;> rfl
  obtain ⟨visits, hchoose⟩ := choose_eq hs start
  rw [hscan] at hchoose
  have hp : s.peers[chosen]? = some s.peers[chosen] := List.getElem?_eq_getElem hlt
  have hlooked := hafter chosen _ hp
  rw [if_pos hscanned.chosen_visited] at hlooked
  obtain ⟨c', j, hconnect, hsupplied⟩ := h.connect_chosen hs hp hchoose hlooked
  refine ⟨s.peers[chosen], _, visits, c', j, hp, hchoose, scan_length _ _ _,
    fun place q hq => ⟨hafter place q hq, fun k hk hidentified hfew => ?_⟩, hconnect, ?_⟩
  · have hscore : (c.looked s q).score = UInt32.size - (k.pendingCount : Int) := by
      simp [looked, hk, worth, hidentified]
    rw [hscore]
    omega
  · rw [hchoose]
    exact hsupplied

/-- Three peers: one waits for a handshake, the next one has an identified connection,
and that of the last one was given up. From behind the second on the last one comes
first, and the second is chosen. -/
theorem identified_before_stale :
    let address (n : UInt8) : Address := .v4 10 0 0 n 4040
    let identity : Identity := { hostPort := "10.0.0.2:4040", processName := "bank" }
    let c := (Client.start {} {}).run
      [.service "ledger" .outbound, .addPeers 0 [address 1, address 2, address 3],
        .connectPeer 0 0, .connectPeer 0 1, .connectPeer 0 2, .stream 1 .dialled,
        .stream 1 (.wrote 1000),
        .stream 1 (.arrived (Connection.frameBytes (.initResponse identity))),
        .clean 2]
    (c.choose 0 1).2 = some 1 ∧ ∃ c', c.connect 0 1 = .ok (c', 1) := by
  intro address identity c
  have hsome : (c.services[0]?).isSome := by decide +kernel
  obtain ⟨s, hs⟩ := Option.isSome_iff_exists.1 hsome
  have hlength : (c.services[0]?).map (·.peers.length) = some 3 := by decide +kernel
  rw [hs, Option.map_some, Option.some.injEq] at hlength
  obtain ⟨p, peers, visits, c', j, -, -, -, -, hconnect, -⟩ :=
    healthiest_chosen (Reachable.start.run _ : Reachable {} {} c) rfl hs
      (hlength ▸ by decide : 1 < _)
  have hj : (c.connect 0 1).toOption.map (·.2) = some 1 := by decide +kernel
  rw [hconnect] at hj
  obtain rfl : j = 1 := Option.some.inj hj
  exact ⟨by decide +kernel, c', hconnect⟩

end Client

end RpcClient
