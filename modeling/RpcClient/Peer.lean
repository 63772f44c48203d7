/-
Peers: the addresses that serve one service, and how one of them is chosen. A
peer remembers the connection that it used last; a `Scorer` says from that how
well the peer would do, and `scan` takes the best, unless one on the way says
that it is good enough to stop at.
-/
import RpcClient.Connection

namespace RpcClient

/-- Which of the connections that a client has opened, by their order. -/
abbrev ConnectionId := Nat

/-- How well a peer would do. -/
structure Score where
  value : Int
  /-- No other peer need be looked at. -/
  settles : Bool
deriving DecidableEq

/-- Scores a peer by its address and the connection that it remembers. -/
abbrev Scorer := Address → Option Connection → Score

namespace Scorer

/-- An identified connection settles the choice, and scores better the fewer
calls wait on it; one whose handshake is pending scores better than none. -/
def byHandshake : Scorer := fun _ connection =>
  match connection with
  | none => ⟨0, false⟩
  | some c =>
    match c.handshake with
    | .identified => ⟨UInt32.size - (c.pendingCount : Int), true⟩
    | .pending => ⟨1, false⟩
    | .failed => ⟨0, false⟩

/-- Scores that are given for addresses; all others score nothing. -/
def ofTable (scores : List (Address × Score)) : Scorer := fun address _ =>
  (scores.lookup address).getD ⟨0, false⟩

end Scorer

/-- An address that serves a service. -/
structure Peer where
  address : Address
  /-- What the last scoring said. -/
  score : Int := 0
  /-- The connection that it used last, while that may still be used. -/
  preferred : Option ConnectionId := none
deriving DecidableEq

namespace Peer

def description (p : Peer) : String :=
  Text.record "Peer" [("address", p.address.text), ("score", toString p.score)]

variable (connections : List Connection) (wish : Direction)

/-- The connection that a peer remembers, if it is usable and was opened in a
direction that is wished for. -/
def usable? (p : Peer) : Option ConnectionId :=
  p.preferred.filter fun i =>
    match connections[i]? with
    | some c => c.isUsable && wish.accepts c.direction
    | none => false

/-- Forgets a connection that must not be used. -/
def evict (p : Peer) : Peer := { p with preferred := p.usable? connections wish }

/-- Looks after its connection and scores itself. -/
def rescore (scorer : Scorer) (p : Peer) : Peer × Score :=
  let p := p.evict connections wish
  let score := scorer p.address (p.preferred.bind (connections[·]?))
  ({ p with score := score.value }, score)

end Peer

/-! ## Choosing -/

/-- What a scan has found so far: the place of the best peer and its score. -/
abbrev Best := Option (Nat × Int)

/-- The better of two; of equals the one found first. -/
def Best.update (best : Best) (place : Nat) (score : Int) : Best :=
  match best with
  | none => some (place, score)
  | some (_, s) => if s < score then some (place, score) else best

/-- Looks at the peers at some places in turn. Each rescores itself; one that
settles the choice ends the scan. What a peer says of itself may depend on when
it is asked, and so on its place. The answer has the peers, the place chosen,
and the places looked at. -/
def scanPlaces (rescore : Nat → Peer → Peer × Score) :
    (places : List Nat) → List Peer → Best → List Peer × Option Nat × List Nat
  | [], peers, best => (peers, best.map (·.1), [])
  | place :: places, peers, best =>
    match peers[place]? with
    | none => scanPlaces rescore places peers best
    | some peer =>
      let (peer, score) := rescore place peer
      let peers := peers.set place peer
      if score.settles then (peers, some place, [place])
      else
        let (peers, chosen, visited) := scanPlaces rescore places peers (best.update place score.value)
        (peers, chosen, place :: visited)

/-- The places of `n` peers in the order of a scan: the one behind `start`
first, `start` itself last. -/
def scanOrder (n start : Nat) : List Nat := (List.range n).map fun i => (start + 1 + i) % n

/-- Looks at all peers once around, beginning behind `start`. -/
def scan (rescore : Nat → Peer → Peer × Score) (start : Nat) (peers : List Peer) :
    List Peer × Option Nat × List Nat :=
  scanPlaces rescore (scanOrder peers.length start) peers none

end RpcClient
