/-
How many calls the chosen peer has to answer. The score of an identified connection falls
with the calls that wait on it, but the first one that a scan comes to settles the choice,
so the scores of two of them are never compared. The choice falls on a peer with the
fewest calls just where the scan comes to one of those before it ends; and it does so from
wherever the scan starts only where all have equally many (`chosen_least_loaded_iff`).
-/
import RpcClient.Proofs.Client.Choice
import RpcClient.Proofs.Client.Send

namespace RpcClient.Client

variable {c : Client} {i : ServiceId} {s : Service} {place start load : Nat}

/-! ## Loads -/

/-- How many calls wait on the identified connection of the peer at a place, if it has
one. -/
def loadAt? (c : Client) (s : Service) (place : Nat) : Option Nat :=
  ((s.peers[place]?).bind (c.link? s)).bind fun k =>
    if k.isIdentified then some k.pendingCount else none

/-- The peer at a place has an identified connection, and on none of the others wait fewer
calls. -/
def LeastLoaded (c : Client) (s : Service) (place : Nat) : Prop :=
  ∃ load, c.loadAt? s place = some load ∧
    ∀ other otherLoad, c.loadAt? s other = some otherLoad → load ≤ otherLoad

/-- Equally many calls wait on all identified connections of the peers. -/
def EvenlyLoaded (c : Client) (s : Service) : Prop :=
  ∀ place other load otherLoad, c.loadAt? s place = some load →
    c.loadAt? s other = some otherLoad → load = otherLoad

theorem loadAt?_eq_some :
    c.loadAt? s place = some load ↔ ∃ p k, s.peers[place]? = some p ∧ c.link? s p = some k ∧
      k.handshake = .identified ∧ k.pendingCount = load := by
  simp only [loadAt?, Option.bind_eq_some_iff, Option.ite_none_right_eq_some, Option.some.injEq,
    Connection.isIdentified, decide_eq_true_eq]
  constructor
  · rintro ⟨k, ⟨p, hp, hk⟩, hidentified, hload⟩
    exact ⟨p, k, hp, hk, hidentified, hload⟩
  · rintro ⟨p, k, hp, hk, hidentified, hload⟩
    exact ⟨k, ⟨p, hp, hk⟩, hidentified, hload⟩

theorem hasAt_identified :
    c.hasAt s .identified place = true ↔ ∃ load, c.loadAt? s place = some load := by
  simp only [hasAt, standing?, Option.any_eq_true, decide_eq_true_eq, Option.map_eq_some_iff,
    loadAt?_eq_some]
  constructor
  · rintro ⟨p, hp, k, hk, hidentified⟩
    exact ⟨_, p, k, hp, hk, hidentified, rfl⟩
  · rintro ⟨_, p, k, hp, hk, hidentified, -⟩
    exact ⟨p, hp, k, hk, hidentified⟩

theorem lt_of_hasAt {state : Handshake} (h : c.hasAt s state place = true) :
    place < s.peers.length := by
  by_contra hout
  simp [hasAt, List.getElem?_eq_none (Nat.not_lt.1 hout)] at h

theorem LeastLoaded.hasAt (h : c.LeastLoaded s place) : c.hasAt s .identified place = true := by
  obtain ⟨load, hload, -⟩ := h
  exact hasAt_identified.2 ⟨load, hload⟩

/-- All have equally many calls just where nobody has more than another. -/
theorem evenlyLoaded_iff :
    c.EvenlyLoaded s ↔ ∀ place load, c.loadAt? s place = some load → c.LeastLoaded s place := by
  constructor
  · intro heven place load hload
    exact ⟨load, hload, fun other otherLoad hother =>
      Nat.le_of_eq (heven place other load otherLoad hload hother)⟩
  · intro hleast place other load otherLoad hload hother
    obtain ⟨_, hfound, hmin⟩ := hleast place load hload
    obtain ⟨_, hfound', hmin'⟩ := hleast other otherLoad hother
    obtain rfl := Option.some.inj (hload.symm.trans hfound)
    obtain rfl := Option.some.inj (hother.symm.trans hfound')
    exact Nat.le_antisymm (hmin other otherLoad hother) (hmin' place load hload)

/-- An identified connection settles the choice, and scores more the fewer calls wait on it. -/
theorem rating_identified (held : s.released = false) (scorer : c.scorer = Scorer.byHandshake)
    (hload : c.loadAt? s place = some load) :
    rating (fun _ => c.rescore s) s.peers place = ⟨UInt32.size - (load : Int), true⟩ := by
  obtain ⟨p, k, hp, hk, hidentified, rfl⟩ := loadAt?_eq_some.1 hload
  simp [rating, hp, rescore_eq held scorer, worth, standing?, hk, hidentified]

/-! ## One scan -/

/-- Where some peer has an identified connection, the scan ends at the first who does. -/
theorem scan_identified (held : s.released = false) (scorer : c.scorer = Scorer.byHandshake)
    (hstart : start < s.peers.length) (identified : c.hasAt s .identified place = true) :
    ∃ chosen, (circle s.peers.length start).find? (c.hasAt s .identified) = some chosen ∧
      (scan (fun _ => c.rescore s) start s.peers).2 =
        (some chosen, (circle s.peers.length start).takeWhile
          (fun other => !c.hasAt s .identified other) ++ [chosen]) := by
  have hmem : place ∈ circle s.peers.length start := by
    rw [← scanOrder_eq hstart]
    exact (mem_scanOrder start (Nat.zero_lt_of_lt hstart)).2 (lt_of_hasAt identified)
  obtain ⟨chosen, hchosen⟩ :=
    Option.isSome_iff_exists.1 (List.find?_isSome.2 ⟨place, hmem, identified⟩)
  refine ⟨chosen, hchosen, ?_⟩
  rw [scan_byHandshake held scorer hstart]
  simp [hchosen]

/-- Of those that a scan has come to, only the chosen one has an identified connection. -/
theorem eq_of_visited {order : List Nat} {chosen : Nat}
    (h : place ∈ order.takeWhile (fun other => !c.hasAt s .identified other) ++ [chosen])
    (identified : c.hasAt s .identified place = true) : place = chosen := by
  rcases List.mem_append.1 h with hbefore | hchosen
  · have hnot := List.mem_takeWhile_imp hbefore
    simp [identified] at hnot
  · exact List.mem_singleton.1 hchosen

/-- Whoever has an identified connection is chosen from some start: from the one before. -/
theorem exists_start (held : s.released = false) (scorer : c.scorer = Scorer.byHandshake)
    (identified : c.hasAt s .identified place = true) :
    ∃ start < s.peers.length, (scan (fun _ => c.rescore s) start s.peers).2.1 = some place := by
  have hplace : place < s.peers.length := lt_of_hasAt identified
  have hbefore : ∃ start < s.peers.length, (start + 1) % s.peers.length = place := by
    rcases Nat.eq_zero_or_pos place with rfl | hpos
    · exact ⟨s.peers.length - 1, by omega, by rw [Nat.sub_add_cancel hplace, Nat.mod_self]⟩
    · exact ⟨place - 1, by omega, by rw [Nat.sub_add_cancel hpos, Nat.mod_eq_of_lt hplace]⟩
  obtain ⟨start, hstart, hnext⟩ := hbefore
  refine ⟨start, hstart, ?_⟩
  obtain ⟨chosen, hchosen, hscan⟩ := scan_identified held scorer hstart identified
  have hhead := head?_scanOrder start (Nat.zero_lt_of_lt hplace)
  rw [hnext, scanOrder_eq hstart] at hhead
  obtain ⟨rest, hcircle⟩ := List.head?_eq_some_iff.1 hhead
  rw [hcircle, List.find?_cons, identified] at hchosen
  rw [hscan, ← hchosen]

/-! ## The choice -/

theorem choose_scan (hs : c.services[i]? = some s) (start : Nat) :
    (c.choose i start).2 = (scan (fun _ => c.rescore s) start s.peers).2.1 := by
  simp only [choose, hs]

/-- The choice falls on a peer with an identified connection, and on one with the fewest calls
just where the scan has come to such a one. -/
theorem choose_identified (held : s.released = false) (scorer : c.scorer = Scorer.byHandshake)
    (hs : c.services[i]? = some s) (hstart : start < s.peers.length)
    (identified : c.hasAt s .identified place = true) :
    ∃ chosen load, (c.choose i start).2 = some chosen ∧ c.loadAt? s chosen = some load ∧
      (c.LeastLoaded s chosen ↔
        ∃ place ∈ (scan (fun _ => c.rescore s) start s.peers).2.2, c.LeastLoaded s place) := by
  obtain ⟨chosen, hfind, hscan⟩ := scan_identified held scorer hstart identified
  obtain ⟨load, hload⟩ := hasAt_identified.1 (List.find?_some hfind)
  refine ⟨chosen, load, by rw [choose_scan hs, hscan], hload, fun hleast => ?_, ?_⟩
  · exact ⟨chosen, by simp [hscan], hleast⟩
  · rintro ⟨other, hvisited, hleast⟩
    rw [hscan] at hvisited
    rwa [← eq_of_visited hvisited hleast.hasAt]

/-- **Who is chosen, and who has the fewest calls.** In every client that is come to, a service
some of whose peers have an identified connection chooses one of those, and their scores fall
with the calls that wait there. Still the chosen peer has the fewest calls just where the scan has
come to one that has before it ended. That is so from wherever the scan starts just where
equally many calls wait on all these connections. -/
theorem chosen_least_loaded_iff {settings : Settings} {codecs : Codecs}
    (h : Reachable settings codecs c) (scorer : c.scorer = Scorer.byHandshake)
    (hs : c.services[i]? = some s) (identified : ∃ place load, c.loadAt? s place = some load) :
    (∀ place load, c.loadAt? s place = some load →
      rating (fun _ => c.rescore s) s.peers place = ⟨UInt32.size - (load : Int), true⟩) ∧
    (∀ start < s.peers.length, ∃ chosen load, (c.choose i start).2 = some chosen ∧
      c.loadAt? s chosen = some load ∧
      (c.LeastLoaded s chosen ↔
        ∃ place ∈ (scan (fun _ => c.rescore s) start s.peers).2.2, c.LeastLoaded s place)) ∧
    ((∀ start < s.peers.length, ∃ chosen, (c.choose i start).2 = some chosen ∧
      c.LeastLoaded s chosen) ↔ c.EvenlyLoaded s) := by
  have held : s.released = false := h.unreleased s (List.mem_of_getElem? hs)
  obtain ⟨place, _, hload⟩ := identified
  have hsome : c.hasAt s .identified place = true := hasAt_identified.2 ⟨_, hload⟩
  refine ⟨fun place load => rating_identified held scorer,
    fun start hstart => choose_identified held scorer hs hstart hsome, ?_⟩
  rw [evenlyLoaded_iff]
  constructor
  · intro hall place load hload
    obtain ⟨start, hstart, hscan⟩ := exists_start held scorer (hasAt_identified.2 ⟨load, hload⟩)
    obtain ⟨chosen, hchosen, hleast⟩ := hall start hstart
    rw [choose_scan hs, hscan, Option.some.injEq] at hchosen
    exact hchosen ▸ hleast
  · intro hleast start hstart
    obtain ⟨chosen, load, hchosen, hload, -⟩ :=
      choose_identified held scorer hs hstart hsome
    exact ⟨chosen, hchosen, hleast chosen load hload⟩

/-- Two peers are connected, and a call waits on the connection of the first. -/
def oneBusy : List Event :=
  let address (n : UInt8) : Address := .v4 10 0 0 n 4040
  let identity : Identity := { hostPort := "10.0.0.1:4040", processName := "bank" }
  let greeted (k : ConnectionId) : List Event :=
    [.stream k .dialled, .stream k (.wrote 1000),
      .stream k (.arrived (Connection.frameBytes (.initResponse identity)))]
  [.service "ledger" .none, .addPeers 0 [address 1, address 2], .connectPeer 0 0,
    .connectPeer 0 1] ++ greeted 0 ++ greeted 1 ++ [.expect 0 balanceRequest]

/-- From behind the second of them on the first one is chosen, on which more calls wait. -/
theorem busier_peer_chosen :
    let c := (Client.start {} {}).run oneBusy
    c.scorer = Scorer.byHandshake ∧ ∃ s, c.services[0]? = some s ∧ s.peers.length = 2 ∧
      (c.choose 0 1).2 = some 0 ∧ c.loadAt? s 0 = some 1 ∧ c.loadAt? s 1 = some 0 ∧
      ¬ c.LeastLoaded s 0 := by
  intro c
  have hsome : (c.services[0]?).isSome := by decide +kernel
  obtain ⟨s, hs⟩ := Option.isSome_iff_exists.1 hsome
  have hbusy : (c.services[0]?).bind (c.loadAt? · 0) = some 1 := by decide +kernel
  have hidle : (c.services[0]?).bind (c.loadAt? · 1) = some 0 := by decide +kernel
  have hlength : (c.services[0]?).map (·.peers.length) = some 2 := by decide +kernel
  rw [hs, Option.bind_some] at hbusy hidle
  rw [hs, Option.map_some, Option.some.injEq] at hlength
  refine ⟨rfl, s, hs, hlength, by decide +kernel, hbusy, hidle, ?_⟩
  rintro ⟨load, hload, hmin⟩
  obtain rfl := Option.some.inj (hbusy.symm.trans hload)
  exact absurd (hmin 1 0 hidle) (by decide)

/-- From behind the first of them on the scan comes to the second one, on which none waits. -/
theorem idle_peer_chosen :
    let c := (Client.start {} {}).run oneBusy
    ∃ s, c.services[0]? = some s ∧ (∃ place load, c.loadAt? s place = some load) ∧
      ∃ chosen, (c.choose 0 0).2 = some chosen ∧ c.LeastLoaded s chosen := by
  intro c
  have hsome : (c.services[0]?).isSome := by decide +kernel
  obtain ⟨s, hs⟩ := Option.isSome_iff_exists.1 hsome
  have hidle : (c.services[0]?).bind (c.loadAt? · 1) = some 0 := by decide +kernel
  have hlength : (c.services[0]?).map (·.peers.length) = some 2 := by decide +kernel
  have hvisited : (c.services[0]?).map (fun s =>
      (scan (fun _ => c.rescore s) 0 s.peers).2.2) = some [1] := by decide +kernel
  rw [hs, Option.bind_some] at hidle
  rw [hs, Option.map_some, Option.some.injEq] at hlength hvisited
  obtain ⟨-, hone, -⟩ :=
    chosen_least_loaded_iff (Reachable.start.run _ : Reachable {} {} c) rfl hs ⟨1, 0, hidle⟩
  obtain ⟨chosen, load, hchosen, -, hiff⟩ := hone 0 (by omega)
  refine ⟨s, hs, ⟨1, 0, hidle⟩, chosen, hchosen, hiff.2 ⟨1, ?_, 0, hidle, fun _ _ _ => ?_⟩⟩
  · rw [hvisited]
    exact List.mem_singleton_self 1
  · exact Nat.zero_le _

end RpcClient.Client
