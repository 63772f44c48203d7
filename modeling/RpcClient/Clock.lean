/-
Waiting on a clock that jumps. A world settles at an instant: everything that
can happen then does. Time passes only when nothing more happens, and then
the clock goes straight to the next instant at which something does.
-/
import RpcClient.Duration

namespace RpcClient

/-- How a world changes as time passes. -/
structure Clockwork (σ : Type) where
  /-- When something will happen by itself, if anything will. -/
  next? : σ → Option Nat
  /-- The world after all that happens at an instant. -/
  settle : Nat → σ → σ

namespace Clockwork

variable {σ α : Type}

/-- Waits until `look` finds something in the world, and no longer than to the
instant `limit`. The answer has what was found, and the instant and the world
where the wait ended. -/
def await (k : Clockwork σ) (look : σ → Option α) (limit now : Nat) (s : σ) :
    Option α × Nat × σ :=
  match look s with
  | some a => (some a, now, s)
  | none =>
    if now < limit then
      let t := max (now + 1) (min limit ((k.next? s).getD limit))
      k.await look limit t (k.settle t s)
    else (none, now, s)
termination_by limit - now
decreasing_by omega

/-- Lets time pass until an instant. -/
def sleep (k : Clockwork σ) (wake now : Nat) (s : σ) : Nat × σ :=
  (k.await (fun _ => (none : Option Unit)) wake now s).2

theorem await_found (k : Clockwork σ) {look : σ → Option α} {limit now : Nat} {s : σ} {a : α}
    (h : look s = some a) : k.await look limit now s = (some a, now, s) := by
  rw [await, h]

theorem await_answer (k : Clockwork σ) {look : σ → Option α} {limit now t : Nat} {s s' : σ}
    {found : Option α} (h : k.await look limit now s = (found, t, s')) : look s' = found := by
  induction now, s using await.induct k look limit with
  | case1 now s a ha => rw [await, ha] at h; cases h; exact ha
  | case2 now s hn hlt t' ih =>
    rw [await, hn] at h
    simp only [hlt, if_true] at h
    exact ih h
  | case3 now s hn hlt =>
    rw [await, hn] at h
    simp only [hlt, if_false] at h
    cases h
    exact hn

end Clockwork

end RpcClient
