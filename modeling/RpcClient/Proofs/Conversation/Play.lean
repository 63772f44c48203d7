/-
Conversations that are played. An `Act` says what happens next, and `perform?`
does it where it is sure that it may happen. Whatever is performed is a step
(`perform?_step`), so a script plays nothing but steps (`play_steps`).
-/
import Mathlib.Logic.Relation
import RpcClient.Conversation
import RpcClient.Proofs.Stream.Reading

namespace RpcClient

namespace Conversation

/-- Any number of steps. -/
abbrev Steps (g : Answerer) (k : ConnectionId) : Conversation → Conversation → Prop :=
  Relation.ReflTransGen (Step g k)

theorem Reachable.steps {g : Answerer} {k : ConnectionId} {settings : Settings} {codecs : Codecs}
    {s s' : Conversation} (h : Reachable g k settings codecs s) (m : Steps g k s s') :
    Reachable g k settings codecs s' := by
  induction m with
  | refl => exact h
  | tail _ last ih => exact ih.step last

/-- Something that happens next in a conversation. -/
inductive Act where
  /-- Something happens to the client, but no timers go off. -/
  | client (e : Client.Event)
  /-- The stream takes all that the connection offers. -/
  | write
  | hear
  | answer (place : Nat)
  | say (frame : Frame)
  /-- One byte is read, if there is any. -/
  | read

/-- Whether no frame that is to be sent is too long. -/
def framesFit (near : Connection) : Bool :=
  (.initRequest near.announcement :: near.calls.queue.getD []).all fun frame =>
    (Binary.Format.frame.write frame).length ≤ Framing.maxLength

theorem framesFit_iff {near : Connection} : framesFit near = true ↔ near.FramesFit := by
  simp only [framesFit, List.all_eq_true, decide_eq_true_eq, Connection.FramesFit]

/-- Whether an event may happen next to the client, as far as that can be told
from its kind. -/
def mayHappen (k : ConnectionId) : Client.Event → Bool
  | .expire => false
  | .stream i event => i != k || !event.movesBytes
  | _ => true

/-- Whether the next of the mail concerns no call that waits, if it answers
none. -/
def unrelated (x : FarSide) (calls : CallTable) : Bool :=
  match x.mail with
  | .other frame _ :: _ => frame.concerns?.all fun id => !calls.isPending id
  | _ => true

theorem unrelated_sound {x : FarSide} {calls : CallTable} (h : unrelated x calls = true) :
    x.Unrelated calls := by
  intro frame payload mail hmail _ id hid
  simpa [unrelated, hmail, hid] using h

/-- What comes of an act, if it is sure to be one that may happen. -/
def perform? (g : Answerer) (k : ConnectionId) (s : Conversation) : Act → Option Conversation
  | .client e =>
    if mayHappen k e && (s.client.connections[k]?).all framesFit then
      some { s with client := s.client.handle e }
    else none
  | .write =>
    (s.client.connections[k]?).map fun near =>
      let count := near.offer.length
      { client := s.client.handle (.stream k (.wrote count))
        far := { s.far with up := s.far.up ++ near.offer.take count } }
  | .hear => some { s with far := s.far.hear }
  | .answer place =>
    match s.far.heard[place]? with
    | none => none
    | some call =>
      let payload := Binary.Format.frame.write (.callResponse (call.reply (g call)))
      if place ∉ s.far.answered ∧ payload.length ≤ Framing.maxLength then
        some { s with far := { s.far with
          answered := s.far.answered ++ [place]
          mail := s.far.mail ++ [.answer place payload] } }
      else none
  | .say frame =>
    let payload := Binary.Format.frame.write frame
    if payload.length ≤ Framing.maxLength then
      some { s with far := { s.far with mail := s.far.mail ++ [.other frame payload] } }
    else none
  | .read =>
    match s.client.connections[k]? with
    | none => none
    | some near =>
      let count := min s.far.down.length 1
      if near.isReading && unrelated s.far near.calls then
        some {
          client := s.client.handle (.stream k (.arrived (s.far.down.take count)))
          far := s.far.passed count }
      else none

/-- What comes of a script. What may not happen is passed over. -/
def play (g : Answerer) (k : ConnectionId) (s : Conversation) (script : List Act) : Conversation :=
  script.foldl (fun s act => (s.perform? g k act).getD s) s

variable {g : Answerer} {k : ConnectionId} {s s' : Conversation}

/-- Whatever is performed is a step. -/
theorem perform?_step {act : Act} (h : s.perform? g k act = some s') : Step g k s s' := by
  cases act with
  | client e =>
    simp only [perform?] at h
    split at h
    · next hmay =>
      obtain rfl := Option.some.inj h
      obtain ⟨hmay, hfits⟩ := Bool.and_eq_true_iff.1 hmay
      refine .client e (fun event he => ?_) (fun he => ?_) fun near hk => ?_
      · subst he
        simpa [mayHappen] using hmay
      · subst he
        cases hmay
      · rw [hk] at hfits
        exact framesFit_iff.1 hfits
    · cases h
  | write =>
    simp only [perform?, Option.map_eq_some_iff] at h
    obtain ⟨near, hk, rfl⟩ := h
    exact .write near hk _
  | hear =>
    obtain rfl := Option.some.inj h
    exact .hear
  | answer place =>
    simp only [perform?] at h
    split at h
    · cases h
    · next call hheard =>
      split at h
      · next hmay =>
        obtain rfl := Option.some.inj h
        exact .answer place call _ hheard hmay.1 (Binary.Format.frameForm_write _) hmay.2
      · cases h
  | say frame =>
    simp only [perform?] at h
    split at h
    · next hfits =>
      obtain rfl := Option.some.inj h
      exact .say frame _ (Binary.Format.frameForm_write _) hfits
    · cases h
  | read =>
    simp only [perform?] at h
    split at h
    · cases h
    · next near hk =>
      split at h
      · next hmay =>
        obtain rfl := Option.some.inj h
        obtain ⟨hreading, hunrelated⟩ := Bool.and_eq_true_iff.1 hmay
        refine .read near hk hreading _ (Nat.min_le_left _ _) fun n hn => ?_
        obtain rfl : n = 0 := Nat.lt_one_iff.1 (Nat.lt_of_lt_of_le hn (Nat.min_le_right _ _))
        rw [List.take_zero, Connection.arrived_nil]
        exact unrelated_sound hunrelated
      · cases h

theorem play_steps (g : Answerer) (k : ConnectionId) (s : Conversation) (script : List Act) :
    Steps g k s (s.play g k script) := by
  induction script generalizing s with
  | nil => exact .refl
  | cons act script ih =>
    cases h : s.perform? g k act with
    | none =>
      simp only [play, List.foldl_cons, h, Option.getD_none]
      exact ih s
    | some s' =>
      simp only [play, List.foldl_cons, h, Option.getD_some]
      exact .head (perform?_step h) (ih s')

end Conversation

end RpcClient
