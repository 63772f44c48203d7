/-
One look around the peers of a service. The places come in the order of a circle
(`scanOrder_eq`), each is looked at once, and what a peer says of itself does not
change while others are looked at. So a scan is known by what the peers say: the
first that settles the choice ends it, and where none does, the first of those with
the highest score is chosen (`Scanned`).
-/
import Mathlib.Data.List.Induction
import Mathlib.Data.List.Nodup
import RpcClient.Client

namespace RpcClient

/-! ## The circle -/

/-- The places of `n` peers around a circle: those behind `start`, then those up to
it. -/
def circle (n start : Nat) : List Nat :=
  List.range' (start + 1) (n - (start + 1)) ++ List.range (start + 1)

theorem scanOrder_eq {n start : Nat} (h : start < n) : scanOrder n start = circle n start := by
  refine List.ext_getElem (by simp [scanOrder, circle]; omega) fun i hi hi' => ?_
  simp only [scanOrder, List.length_map, List.length_range] at hi
  simp only [scanOrder, circle, List.getElem_map, List.getElem_range, List.getElem_append,
    List.length_range', List.getElem_range']
  split
  · next hbehind =>
    rw [Nat.mod_eq_of_lt (by omega)]
    omega
  · next hup =>
    rw [Nat.mod_eq_sub_mod (by omega), Nat.mod_eq_of_lt (by omega)]
    omega

theorem scanOrder_mod (n start : Nat) : scanOrder n (start % n) = scanOrder n start := by
  simp only [scanOrder, Nat.add_assoc, Nat.mod_add_mod]

theorem head?_scanOrder {n : Nat} (start : Nat) (h : 0 < n) :
    (scanOrder n start).head? = some ((start + 1) % n) := by
  obtain ⟨m, rfl⟩ := Nat.exists_eq_add_one.2 h
  simp [scanOrder, List.range_succ_eq_map]

/-- Every place comes, -/
theorem mem_scanOrder {n place : Nat} (start : Nat) (h : 0 < n) :
    place ∈ scanOrder n start ↔ place < n := by
  rw [← scanOrder_mod, scanOrder_eq (Nat.mod_lt start h)]
  have hlt : start % n < n := Nat.mod_lt start h
  simp only [circle, List.mem_append, List.mem_range'_1, List.mem_range]
  omega

/-- and it comes once. -/
theorem nodup_scanOrder (n start : Nat) : (scanOrder n start).Nodup := by
  rcases Nat.eq_zero_or_pos n with rfl | hpos
  · exact List.nodup_nil
  rw [← scanOrder_mod, scanOrder_eq (Nat.mod_lt start hpos)]
  refine List.nodup_append.2 ⟨List.nodup_range', List.nodup_range, ?_⟩
  intro a ha b hb
  rw [List.mem_range'_1] at ha
  rw [List.mem_range] at hb
  omega

/-! ## The best so far -/

/-- Of some places one is the first with the highest score. -/
structure Leads (value : Nat → Int) (places before : List Nat) (place : Nat) (after : List Nat) :
    Prop where
  split : places = before ++ place :: after
  above : ∀ other ∈ before, value other < value place
  notBelow : ∀ other ∈ after, value other ≤ value place

/-- The best of all places, looked at in their order. -/
def bestOf (value : Nat → Int) (places : List Nat) (best : Best) : Best :=
  places.foldl (fun best place => best.update place (value place)) best

/-- A higher score at the end takes the lead, and an equal one does not. -/
theorem bestOf_leads (value : Nat → Int) {places : List Nat} (h : places ≠ []) :
    ∃ before place after, bestOf value places none = some (place, value place) ∧
      Leads value places before place after := by
  induction places using List.reverseRecOn with
  | nil => exact absurd rfl h
  | append_singleton places last ih =>
    rw [bestOf, List.foldl_concat, ← bestOf]
    by_cases hnil : places = []
    · subst hnil
      exact ⟨[], last, [], rfl, rfl, by simp, by simp⟩
    · obtain ⟨before, place, after, hbest, hsplit, habove, hnotBelow⟩ := ih hnil
      rw [hbest, Best.update]
      by_cases hlt : value place < value last
      · rw [if_pos hlt]
        refine ⟨places, last, [], rfl, rfl, fun other hother => ?_, by simp⟩
        rw [hsplit, List.mem_append, List.mem_cons] at hother
        rcases hother with hbefore | rfl | hafter
        · exact Int.lt_trans (habove other hbefore) hlt
        · exact hlt
        · exact Int.lt_of_le_of_lt (hnotBelow other hafter) hlt
      · rw [if_neg hlt]
        refine ⟨before, place, after ++ [last], rfl, by simp [hsplit], habove,
          fun other hother => ?_⟩
        rcases List.mem_append.1 hother with hafter | hlast
        · exact hnotBelow other hafter
        · obtain rfl := List.mem_singleton.1 hlast
          exact Int.not_lt.1 hlt

/-! ## A scan -/

/-- What the peer at a place says of itself when it is looked at. -/
def rating (rescore : Nat → Peer → Peer × Score) (peers : List Peer) (place : Nat) : Score :=
  ((peers[place]?).map fun p => (rescore place p).2).getD ⟨0, false⟩

/-- What a scan over some places comes to, by what the peers there say: which place is
chosen, and which ones were looked at. -/
inductive Scanned (rates : Nat → Score) (places : List Nat) : Option Nat → List Nat → Prop
  /-- The first one that settles the choice ends the scan. -/
  | settled (before : List Nat) (place : Nat) (after : List Nat)
      (split : places = before ++ place :: after)
      (going : ∀ other ∈ before, (rates other).settles = false)
      (settles : (rates place).settles = true) :
    Scanned rates places (some place) (before ++ [place])
  /-- Where none does, all are looked at, and the first of the best is chosen. -/
  | best (before : List Nat) (place : Nat) (after : List Nat)
      (going : ∀ other ∈ places, (rates other).settles = false)
      (leads : Leads (fun other => (rates other).value) places before place after) :
    Scanned rates places (some place) places

section Places

variable {rescore : Nat → Peer → Peer × Score} {rates : Nat → Score} {places : List Nat}
  {peers : List Peer}

/-- At each of some places stands a peer, and says of itself what it is to say. -/
def Rated (rescore : Nat → Peer → Peer × Score) (rates : Nat → Score) (places : List Nat)
    (peers : List Peer) : Prop :=
  ∀ place ∈ places, ∃ p, peers[place]? = some p ∧ (rescore place p).2 = rates place

theorem Rated.head {place : Nat} (h : Rated rescore rates (place :: places) peers) :
    ∃ p, peers[place]? = some p ∧ (rescore place p).2 = rates place :=
  h place List.mem_cons_self

/-- What a peer has become makes no difference to the others. -/
theorem Rated.tail {place : Nat} (h : Rated rescore rates (place :: places) peers)
    (once : place ∉ places) (p : Peer) : Rated rescore rates places (peers.set place p) := by
  intro other hother
  have hne : place ≠ other := fun heq => once (heq ▸ hother)
  rw [List.getElem?_set_ne hne]
  exact h other (List.mem_cons_of_mem _ hother)

/-- The step of a scan at a place with a peer. -/
theorem scanPlaces_cons {place : Nat} {p : Peer} (hp : peers[place]? = some p) (best : Best) :
    scanPlaces rescore (place :: places) peers best =
      if (rescore place p).2.settles then (peers.set place (rescore place p).1, some place, [place])
      else
        let rest := scanPlaces rescore places (peers.set place (rescore place p).1)
          (best.update place (rescore place p).2.value)
        (rest.1, rest.2.1, place :: rest.2.2) := by
  simp only [scanPlaces, hp]

/-- A scan ends at the first place that settles the choice, or goes through all and
keeps the best. -/
theorem scanPlaces_cases (h : Rated rescore rates places peers) (once : places.Nodup)
    (best : Best) :
    (∃ before place after, places = before ++ place :: after ∧
      (∀ other ∈ before, (rates other).settles = false) ∧ (rates place).settles = true ∧
      (scanPlaces rescore places peers best).2 = (some place, before ++ [place])) ∨
    ((∀ other ∈ places, (rates other).settles = false) ∧
      (scanPlaces rescore places peers best).2 =
        ((bestOf (fun other => (rates other).value) places best).map (·.1), places)) := by
  induction places generalizing peers best with
  | nil => exact .inr ⟨by simp, rfl⟩
  | cons place places ih =>
    obtain ⟨hnew, honce⟩ := List.nodup_cons.1 once
    obtain ⟨p, hp, hrates⟩ := h.head
    rw [scanPlaces_cons hp, hrates]
    cases hsettles : (rates place).settles with
    | true => exact .inl ⟨[], place, places, rfl, by simp, hsettles, rfl⟩
    | false =>
      have hgoing : ∀ before : List Nat, (∀ other ∈ before, (rates other).settles = false) →
          ∀ other ∈ place :: before, (rates other).settles = false := by
        intro before hbefore other hother
        rcases List.mem_cons.1 hother with rfl | hother
        · exact hsettles
        · exact hbefore other hother
      rcases ih (h.tail hnew (rescore place p).1) honce (best.update place (rates place).value) with
        ⟨before, chosen, after, rfl, hbefore, hchosen, hscan⟩ | ⟨hall, hscan⟩
      · refine .inl ⟨place :: before, chosen, after, rfl, hgoing before hbefore, hchosen, ?_⟩
        simp [hscan]
      · refine .inr ⟨hgoing places hall, ?_⟩
        simp [hscan, bestOf]

theorem scanPlaces_scanned (h : Rated rescore rates places peers) (once : places.Nodup)
    (some : places ≠ []) :
    Scanned rates places (scanPlaces rescore places peers none).2.1
      (scanPlaces rescore places peers none).2.2 := by
  rcases scanPlaces_cases h once none with
    ⟨before, place, after, hsplit, hgoing, hsettles, hscan⟩ | ⟨hgoing, hscan⟩
  · rw [hscan]
    exact .settled before place after hsplit hgoing hsettles
  · obtain ⟨before, place, after, hbest, hleads⟩ :=
      bestOf_leads (fun other => (rates other).value) some
    rw [hscan, hbest]
    exact .best before place after hgoing hleads

theorem scanPlaces_visited (h : Rated rescore rates places peers) (once : places.Nodup)
    (best : Best) : (scanPlaces rescore places peers best).2.2 <+: places := by
  rcases scanPlaces_cases h once best with ⟨before, place, after, rfl, -, -, hscan⟩ | ⟨-, hscan⟩
  · rw [hscan]
    exact ⟨after, by simp⟩
  · exact ⟨[], by rw [hscan, List.append_nil]⟩

theorem Scanned.chosen_mem {chosen : Option Nat} {visited : List Nat}
    (h : Scanned rates places chosen visited) : ∃ place ∈ places, chosen = some place := by
  cases h with
  | settled before place after split going settles => exact ⟨place, by simp [split], rfl⟩
  | best before place after going leads => exact ⟨place, by simp [leads.split], rfl⟩

theorem Scanned.chosen_visited {place : Nat} {visited : List Nat}
    (h : Scanned rates places (some place) visited) : place ∈ visited := by
  cases h with
  | settled before place after split going settles => simp
  | best before place after going leads => simp [leads.split]

/-- A peer that was looked at has rescored itself once, and no other has changed. -/
theorem getElem?_scanPlaces (h : Rated rescore rates places peers) (once : places.Nodup)
    (best : Best) (place : Nat) :
    (scanPlaces rescore places peers best).1[place]? =
      if place ∈ (scanPlaces rescore places peers best).2.2 then
        (peers[place]?).map fun p => (rescore place p).1
      else peers[place]? := by
  induction places generalizing peers best with
  | nil => simp [scanPlaces]
  | cons first places ih =>
    obtain ⟨hnew, honce⟩ := List.nodup_cons.1 once
    obtain ⟨p, hp, -⟩ := h.head
    obtain ⟨hlt, -⟩ := List.getElem?_eq_some_iff.1 hp
    have hself : (peers.set first (rescore first p).1)[first]? = some (rescore first p).1 :=
      List.getElem?_set_self hlt
    have hother : first ≠ place →
        (peers.set first (rescore first p).1)[place]? = peers[place]? := fun hne =>
      List.getElem?_set_ne hne
    rw [scanPlaces_cons hp]
    by_cases hfirst : first = place
    · subst hfirst
      split
      · rw [hself, if_pos List.mem_cons_self, hp]
        rfl
      · -- The scan does not come back to it.
        have hnever := fun hmem =>
          hnew ((scanPlaces_visited (h.tail hnew (rescore first p).1) honce
            (best.update first (rescore first p).2.value)).subset hmem)
        rw [ih (h.tail hnew _) honce, if_neg hnever, hself, if_pos List.mem_cons_self, hp]
        rfl
    · split
      · rw [hother hfirst, if_neg (by simpa using Ne.symm hfirst)]
      · rw [ih (h.tail hnew _) honce, hother hfirst]
        simp only [List.mem_cons, Ne.symm hfirst, false_or]

end Places

/-! ## Around the circle -/

section Around

variable {rescore : Nat → Peer → Peer × Score} {peers : List Peer} {start : Nat}

/-- A scan looks at places where there are peers. -/
theorem rated_scanOrder (rescore : Nat → Peer → Peer × Score) (peers : List Peer) (start : Nat) :
    Rated rescore (rating rescore peers) (scanOrder peers.length start) peers := by
  intro place hplace
  have hpos : 0 < peers.length := by
    rw [List.length_pos_iff]
    rintro rfl
    cases hplace
  have hlt : place < peers.length := (mem_scanOrder start hpos).1 hplace
  exact ⟨peers[place], List.getElem?_eq_getElem hlt, by simp [rating, hlt]⟩

theorem scan_scanned (rescore : Nat → Peer → Peer × Score) (h : peers ≠ []) (start : Nat) :
    Scanned (rating rescore peers) (scanOrder peers.length start)
      (scan rescore start peers).2.1 (scan rescore start peers).2.2 := by
  refine scanPlaces_scanned (rated_scanOrder rescore peers start) (nodup_scanOrder _ _) ?_
  intro hnil
  have hlength := congrArg List.length hnil
  simp only [scanOrder, List.length_map, List.length_range, List.length_nil] at hlength
  exact h (List.eq_nil_of_length_eq_zero hlength)

theorem scan_length (rescore : Nat → Peer → Peer × Score) (peers : List Peer) (start : Nat) :
    (scan rescore start peers).1.length = peers.length := by
  rw [scan]
  generalize scanOrder peers.length start = places
  generalize (none : Best) = best
  induction places generalizing peers best with
  | nil => rfl
  | cons place places ih =>
    simp only [scanPlaces]
    split
    · exact ih peers best
    · split
      · exact List.length_set
      · exact (ih _ _).trans List.length_set

theorem getElem?_scan (start place : Nat) :
    (scan rescore start peers).1[place]? =
      if place ∈ (scan rescore start peers).2.2 then
        (peers[place]?).map fun p => (rescore place p).1
      else peers[place]? :=
  getElem?_scanPlaces (rated_scanOrder rescore peers start) (nodup_scanOrder _ _) none place

/-- Where there are peers, one of them is chosen. -/
theorem scan_some (rescore : Nat → Peer → Peer × Score) (h : peers ≠ []) (start : Nat) :
    ∃ place, (scan rescore start peers).2.1 = some place ∧ place < peers.length := by
  obtain ⟨place, hmem, hchosen⟩ := (scan_scanned rescore h start).chosen_mem
  exact ⟨place, hchosen, (mem_scanOrder start (List.length_pos_iff.2 h)).1 hmem⟩

theorem scan_eq_none (start : Nat) : (scan rescore start peers).2.1 = none ↔ peers = [] := by
  constructor
  · intro hnone
    by_contra h
    obtain ⟨place, hplace, -⟩ := scan_some rescore h start
    cases hnone.symm.trans hplace
  · rintro rfl
    rfl

end Around

/-- **One look around the peers.** From behind `start` on they are looked at once around
the circle, whatever a scorer says of each when its turn comes. If one settles the choice,
the first that does is chosen, and those behind it are not looked at; otherwise all are,
and the first of those with the highest score is chosen. Whoever was looked at has
rescored itself, and nobody else has changed. A service chooses no peer only if it has
none. -/
theorem scan_once_around {peers : List Peer} {start : Nat} (hstart : start < peers.length)
    (wish : Direction) (links : Nat → List Connection) (scorer : Nat → Scorer) :
    let rescore place (p : Peer) := p.rescore (links place) wish (scorer place)
    let order := List.range' (start + 1) (peers.length - (start + 1)) ++ List.range (start + 1)
    ∃ after chosen visited, scan rescore start peers = (after, some chosen, visited) ∧
      chosen < peers.length ∧
      (order.Nodup ∧ ∀ place, place ∈ order ↔ place < peers.length) ∧
      Scanned (rating rescore peers) order (some chosen) visited ∧
      (∀ place p, peers[place]? = some p →
        after[place]? = some (if place ∈ visited then (rescore place p).1 else p) ∧
        (place ∈ visited → (rescore place p).1.score = (rating rescore peers place).value)) ∧
      ∀ (c : Client) (i : ServiceId) (s : Service) (behind : Nat), c.services[i]? = some s →
        ((c.choose i behind).2 = none ↔ s.peers = []) ∧
        ∀ place, (c.choose i behind).2 = some place → ∃ p, s.peers[place]? = some p := by
  intro rescore order
  have hpeers : peers ≠ [] := by
    rintro rfl
    cases hstart
  have horder : scanOrder peers.length start = order := scanOrder_eq hstart
  obtain ⟨chosen, hchosen, hlt⟩ := scan_some rescore hpeers start
  have hscanned := scan_scanned rescore hpeers start
  rw [hchosen, horder] at hscanned
  refine ⟨(scan rescore start peers).1, chosen, (scan rescore start peers).2.2,
    by rw [← hchosen], hlt, ⟨horder ▸ nodup_scanOrder _ _, fun place => ?_⟩, hscanned,
    fun place p hp => ⟨?_, fun _ => ?_⟩, fun c i s behind hs => ?_⟩
  · rw [← horder]
    exact mem_scanOrder start (List.length_pos_iff.2 hpeers)
  · rw [getElem?_scan, hp]
    split <;> rfl
  · simp only [rating, hp, Option.map_some, Option.getD_some]
    rfl
  · have hchoose : (c.choose i behind).2 = (scan (fun _ => c.rescore s) behind s.peers).2.1 := by
      simp only [Client.choose, hs]
    rw [hchoose]
    refine ⟨scan_eq_none behind, fun place hplace => ?_⟩
    have hsome : s.peers ≠ [] := by
      intro hnil
      cases ((scan_eq_none behind).2 hnil).symm.trans hplace
    obtain ⟨other, hother, hbelow⟩ := scan_some (fun _ => c.rescore s) hsome behind
    obtain rfl := Option.some.inj (hplace.symm.trans hother)
    exact ⟨s.peers[place], List.getElem?_eq_getElem hbelow⟩

/-- Two of three peers have the same score, below zero. From behind the first on, the
second comes before the third, and the first comes last. -/
theorem first_of_equals_chosen :
    let address (n : UInt8) : Address := .v4 10 0 0 n 4040
    let peers : List Peer := [{ address := address 1 }, { address := address 2 },
      { address := address 3 }]
    let scorer := Scorer.ofTable
      [(address 1, ⟨-5, false⟩), (address 2, ⟨-2, false⟩), (address 3, ⟨-2, false⟩)]
    0 < peers.length ∧
    ∃ after, scan (fun _ => Peer.rescore [] .none scorer) 0 peers = (after, some 1, [1, 2, 0]) ∧
      after[0]?.map (·.score) = some (-5) := by
  intro address peers scorer
  have hstart : 0 < peers.length := by decide
  obtain ⟨after, chosen, visited, hscan, -, -, -, hafter, -⟩ :=
    scan_once_around hstart .none (fun _ => []) fun _ => scorer
  have hvalue : (scan (fun _ => Peer.rescore [] .none scorer) 0 peers).2 = (some 1, [1, 2, 0]) := by
    decide
  rw [hscan, Prod.mk.injEq, Option.some.injEq] at hvalue
  obtain ⟨rfl, rfl⟩ := hvalue
  refine ⟨hstart, after, hscan, ?_⟩
  obtain ⟨hfirst, hscore⟩ := hafter 0 _ rfl
  rw [hfirst, if_pos (by decide)]
  exact congrArg some (hscore (by decide))

end RpcClient
