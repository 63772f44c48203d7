/-
A connection and the other side, in tune (`InTune`): of the calls that were
made on the connection, those whose answer has been read have ended with what
the other side makes of them, and all others wait under the numbers that they
were made with. Whatever happens to the connection short of its failure keeps
that, one lemma for each thing that can happen.
-/
import RpcClient.Proofs.Call.Outcome
import RpcClient.Proofs.Conversation.Streams

namespace RpcClient

/-! ## The calls that were made -/

namespace CallTable

/-- What a frame that comes in does to a table. -/
def told (t : CallTable) : Frame → CallTable
  | .callResponse reply => (t.handleReply reply).1
  | .error report => (t.handleFailure report).1
  | _ => t

/-- A frame that concerns no call that waits does nothing. -/
theorem told_unrelated {t : CallTable} {frame : Frame}
    (h : ∀ id, frame.concerns? = some id → t.isPending id = false) : t.told frame = t := by
  cases frame with
  | callResponse reply => simp [told, handleReply, complete_of_not_pending (h reply.id rfl)]
  | error report => simp [told, handleFailure, complete_of_not_pending (h report.id rfl)]
  | _ => rfl

theorem told_queue (t : CallTable) (frame : Frame) : (t.told frame).queue = t.queue := by
  cases frame with
  | callResponse reply => exact (t.complete_same reply.id _).queue
  | error report => exact (t.complete_same report.id _).queue
  | _ => rfl

/-- How a table stands to the calls that were made, by their order: an answer
that was delivered has ended its call, and every other call waits. -/
structure Ledger (g : Answerer) (delivered : Nat → Prop) (made : List Call) (t : CallTable) :
    Prop where
  issued : t.issued = made.length
  ended : ∀ n call, made[n]? = some call → delivered n → (n, .ok (g call)) ∈ t.settled
  waits : ∀ n call, made[n]? = some call → ¬ delivered n →
    ∃ entry ∈ t.pending, entry.ticket = n ∧ entry.id = call.id

variable {g : Answerer} {delivered delivered' : Nat → Prop} {made : List Call} {t : CallTable}

theorem Ledger.enter (h : Ledger g delivered made t) (fresh : ¬ delivered made.length) (now : Nat)
    (request : Request Bytes) (id : UInt32) (frames : List Frame) :
    Ledger g delivered
      (made ++ [request.toCall id (request.effectiveTimeout t.usualTimeout)])
      (t.enter now request id frames) := by
  have hcases : ∀ n call,
      (made ++ [request.toCall id (request.effectiveTimeout t.usualTimeout)])[n]? = some call →
      made[n]? = some call ∨
        n = made.length ∧ call = request.toCall id (request.effectiveTimeout t.usualTimeout) := by
    intro n call hcall
    by_cases hn : n < made.length
    · rw [List.getElem?_append_left hn] at hcall
      exact .inl hcall
    · rw [List.getElem?_append_right (Nat.le_of_not_lt hn), List.getElem?_singleton] at hcall
      split at hcall
      · exact .inr ⟨by omega, (Option.some.inj hcall).symm⟩
      · cases hcall
  refine ⟨by simp [CallTable.enter, h.issued], fun n call hcall hdelivered => ?_,
    fun n call hcall hnot => ?_⟩
  · rcases hcases n call hcall with hold | ⟨rfl, rfl⟩
    · exact h.ended n call hold hdelivered
    · exact absurd hdelivered fresh
  · rcases hcases n call hcall with hold | ⟨rfl, rfl⟩
    · obtain ⟨entry, hentry, hticket, hid⟩ := h.waits n call hold hnot
      exact ⟨entry, List.mem_append_left _ hentry, hticket, hid⟩
    · exact ⟨_, List.mem_append_right _ (List.mem_singleton_self _), h.issued, rfl⟩

/-- The answer to a call ends it, and no other. -/
theorem Ledger.reply (h : Ledger g delivered made t) (coherent : t.Coherent) {n : Nat} {call : Call}
    (hcall : made[n]? = some call) (hnot : ¬ delivered n)
    (hmore : ∀ m, delivered' m ↔ delivered m ∨ m = n) :
    Ledger g delivered' made (t.told (.callResponse (call.reply (g call)))) := by
  obtain ⟨entry, hentry, hticket, hid⟩ := h.waits n call hcall hnot
  have htold : t.told (.callResponse (call.reply (g call))) = t.leave entry (.ok (g call)) := by
    have hcomplete : t.complete entry.id (fun _ => .ok (.ofReply (call.reply (g call)))) =
        (t.leave entry (.ok (g call)), true) := complete_of_mem coherent.ids hentry
    rw [hid] at hcomplete
    exact congrArg (·.1) hcomplete
  rw [htold]
  refine ⟨h.issued, fun m call' hcall' hdelivered => ?_, fun m call' hcall' hnot' => ?_⟩
  · rcases (hmore m).1 hdelivered with hold | rfl
    · exact List.mem_cons_of_mem _ (h.ended m call' hcall' hold)
    · obtain rfl := Option.some.inj (hcall.symm.trans hcall')
      rw [← hticket]
      exact List.mem_cons_self
  · rw [hmore, not_or] at hnot'
    obtain ⟨entry', hentry', hticket', hid'⟩ := h.waits m call' hcall' hnot'.1
    have hne : entry'.id ≠ entry.id := by
      intro heq
      obtain rfl := List.inj_on_of_nodup_map coherent.ids hentry' hentry heq
      exact hnot'.2 (hticket'.symm.trans hticket)
    exact ⟨entry', List.mem_filter.2 ⟨hentry', by simpa using hne⟩, hticket', hid'⟩

theorem Ledger.congr (h : Ledger g delivered made t) (hiff : ∀ m, delivered' m ↔ delivered m) :
    Ledger g delivered' made t :=
  ⟨h.issued, fun n call hcall hd => h.ended n call hcall ((hiff n).1 hd),
    fun n call hcall hnot => h.waits n call hcall fun hd => hnot ((hiff n).2 hd)⟩

/-- The handle of a call has the answer to this call as soon as it was
delivered, and nothing before. -/
theorem Ledger.outcome?_eq (h : Ledger g delivered made t) (coherent : t.Coherent) {n : Nat}
    {call : Call} (hcall : made[n]? = some call) :
    (delivered n → t.outcome? (.waiting n) = some (.ok (g call))) ∧
      (¬ delivered n → t.outcome? (.waiting n) = none) := by
  constructor
  · intro hdelivered
    exact coherent.outcome?_waiting.2 (h.ended n call hcall hdelivered)
  · intro hnot
    obtain ⟨entry, hentry, rfl, -⟩ := h.waits n call hcall hnot
    exact coherent.outcome?_pending hentry

end CallTable

/-! ## What the other side does -/

theorem FarSide.Upward.heard_prefix {x : FarSide} {queue : Option (List Frame)} {offer : Bytes}
    {made : List Call} (h : x.Upward queue offer made) : x.heard <+: made := by
  obtain ⟨unheard, queued, seen, -, hmade, -⟩ := h.stages
  rw [hmade, List.append_assoc]
  exact List.prefix_append _ _

namespace Connection

/-- A connection and the other side in tune, after some calls were made. -/
structure InTune (g : Answerer) (usual : Duration) (near : Connection) (x : FarSide)
    (made : List Call) : Prop where
  sound : near.Sound
  usual : near.calls.usualTimeout = usual
  upward : x.Upward near.calls.queue near.offer made
  downward : x.Downward g (near.reader?.getD .start)
  ledger : near.calls.Ledger g x.Delivered made

variable {g : Answerer} {usual : Duration} {near : Connection} {x : FarSide} {made : List Call}

theorem InTune.dial (g : Answerer) (address : Address) (own : ConnectionSettings) :
    (Connection.dial address own).InTune g own.requestTimeout {} [] where
  sound := .dial address own
  usual := rfl
  upward := .start
  downward := .start g
  ledger := ⟨rfl, fun n call hcall => by simp at hcall, fun n call hcall => by simp at hcall⟩

theorem InTune.hear (h : near.InTune g usual x made) : near.InTune g usual x.hear made := by
  obtain ⟨-, hmail, -, hanswered⟩ := x.hear_keeps
  refine ⟨h.sound, h.usual, h.upward.hear, h.downward.hear, h.ledger.congr fun m => ?_⟩
  rw [FarSide.Delivered, FarSide.Delivered, hmail, hanswered]

theorem InTune.answer (h : near.InTune g usual x made) {place : Nat} {call : Call} {payload : Bytes}
    (heard : x.heard[place]? = some call) (fresh : place ∉ x.answered)
    (form : Binary.FrameForm .anyOrder (.callResponse (call.reply (g call))) payload)
    (fits : payload.length ≤ Framing.maxLength) :
    near.InTune g usual { x with
      answered := x.answered ++ [place]
      mail := x.mail ++ [.answer place payload] } made := by
  refine ⟨h.sound, h.usual, ⟨h.upward.stages⟩, h.downward.answer heard fresh form fits,
    h.ledger.congr fun m => ?_⟩
  simp only [FarSide.Delivered, Parcel.places_answer, List.mem_append, List.mem_singleton, not_or]
  constructor
  · rintro ⟨hanswered | rfl, hmail, hne⟩
    · exact ⟨hanswered, hmail⟩
    · exact absurd rfl hne
  · rintro ⟨hanswered, hmail⟩
    exact ⟨.inl hanswered, hmail, fun heq => fresh (heq ▸ hanswered)⟩

theorem InTune.say (h : near.InTune g usual x made) {frame : Frame} {payload : Bytes}
    (form : Binary.FrameForm .anyOrder frame payload)
    (fits : payload.length ≤ Framing.maxLength) :
    near.InTune g usual { x with mail := x.mail ++ [.other frame payload] } made := by
  refine ⟨h.sound, h.usual, ⟨h.upward.stages⟩, h.downward.say form fits, h.ledger.congr fun m => ?_⟩
  simp [FarSide.Delivered, Parcel.place?]

/-! ## What happens at the connection -/

theorem wrote_keeps (c : Connection) (count : Nat) :
    (c.wrote count).calls = c.calls ∧ (c.wrote count).offer = c.offer.drop count ∧
      (c.wrote count).reader?.getD .start = c.reader?.getD .start := by
  unfold wrote
  split
  · next out hout =>
    by_cases hempty : (out.rest.drop count).isEmpty = true
    · have hnil : out.rest.drop count = [] := List.isEmpty_iff.1 hempty
      simp [offer, reader?, hout, hnil]
    · simp [offer, reader?, hout, hempty]
  · next inp out hout => simp [offer, reader?, hout]
  · next hgreeting hserving =>
    refine ⟨rfl, ?_, rfl⟩
    unfold offer
    split
    · next out hout => exact absurd hout (hgreeting out)
    · next inp out hout => exact absurd hout (hserving inp out)
    · simp

theorem InTune.wrote (h : near.InTune g usual x made) (count : Nat) :
    (near.wrote count).InTune g usual { x with up := x.up ++ near.offer.take count } made := by
  have hmoves := near.handle_moves (.wrote count)
  obtain ⟨hcalls, hoffer, hreader⟩ := near.wrote_keeps count
  refine ⟨h.sound.moves hmoves, hmoves.usualTimeout.trans h.usual, ?_, ?_, ?_⟩
  · rw [hcalls, hoffer]
    exact h.upward.write count
  · rw [hreader]
    have hdown := h.downward
    exact ⟨hdown.midway, hdown.genuine, hdown.once, hdown.sent, hdown.answered⟩
  · rw [hcalls]
    exact h.ledger

theorem InTune.dialled (h : near.InTune g usual x made) (fits : near.FramesFit) :
    near.dialled.InTune g usual x made := by
  have hmoves := near.handle_moves .dialled
  unfold Connection.dialled
  split
  · next hdialling =>
    have hoffer : near.offer = [] := by simp [offer, hdialling]
    have hreader : near.reader? = none := by simp [reader?, hdialling]
    have hupward := h.upward
    have hdownward := h.downward
    rw [hoffer] at hupward
    rw [hreader] at hdownward
    exact ⟨h.sound.move (.busy _), h.usual, hupward.greet (fits _ List.mem_cons_self), hdownward,
      h.ledger⟩
  · exact h

theorem InTune.load (h : near.InTune g usual x made) (fits : near.FramesFit) :
    near.load.InTune g usual x made := by
  unfold Connection.load
  split
  · next inp out hserving =>
    split
    · next hdone =>
      split
      · next frame calls hnext =>
        obtain ⟨frames, hqueue, rfl⟩ := CallTable.nextFrame?_eq_some hnext
        have hoffer : near.offer = [] := by
          simpa [offer, hserving, FrameWriter.isDone] using hdone
        have hreader : near.reader? = some inp := by simp [reader?, hserving]
        have hupward := h.upward
        have hdownward := h.downward
        rw [hoffer, hqueue] at hupward
        rw [hreader] at hdownward
        have hframe : frame ∈ .initRequest near.announcement :: near.calls.queue.getD [] := by
          simp [hqueue]
        have hsteps : CallTable.Steps near.calls { near.calls with queue := some frames } :=
          .single (.queue _)
        have htaken : near.Move { near with calls := { near.calls with queue := some frames } } :=
          .calls hsteps rfl
        exact ⟨(h.sound.move htaken).move (.busy _), h.usual, hupward.load (fits frame hframe),
          hdownward, h.ledger.issued, h.ledger.ended, h.ledger.waits⟩
      · exact h
    · exact h
  · exact h

/-- A call that is made gets the next place among all, unless every number is
taken. -/
theorem InTune.expect (h : near.InTune g usual x made) (up : near.handshake ≠ .failed) (now : Nat)
    (request : Request Bytes) :
    (near.handle (.expect now request) = near ∧ (near.calls.expect now request).2 = .searching ∧
      UInt32.size ≤ made.length) ∨
    (∃ id, (near.calls.expect now request).2 = .waiting made.length ∧
      (near.handle (.expect now request)).InTune g usual x
        (made ++ [request.toCall id (request.effectiveTimeout usual)])) := by
  have hsound := h.sound.handle (.expect now request)
  simp only [Connection.handle] at hsound ⊢
  rcases near.calls.expect_cases now request with ⟨cause, hclosed, -⟩ | ⟨-, hfree, he⟩ |
    ⟨id, -, -, hqueue, -⟩ | ⟨id, frames, -, -, hqueue, he⟩
  · exact absurd (h.sound.closed.1 (by simp [CallTable.isClosed, hclosed])) up
  · rw [he]
    have hmany := Nat.le_trans (CallTable.freeId?_eq_none hfree) h.sound.calls.pending_le
    exact .inl ⟨rfl, rfl, h.ledger.issued ▸ hmany⟩
  · obtain ⟨_, _, _, hsome, -⟩ := h.upward.stages
    cases hqueue.symm.trans hsome
  · rw [he] at hsound ⊢
    refine .inr ⟨id, by rw [h.ledger.issued], hsound, h.usual, ?_, h.downward, ?_⟩
    · have hupward := h.upward
      rw [hqueue] at hupward
      have hentered := hupward.enter (request.toCall id (request.effectiveTimeout usual))
      rw [← h.usual] at hentered ⊢
      exact hentered
    · have hfresh : ¬ x.Delivered made.length := fun hdelivered =>
        Nat.lt_irrefl _ (Nat.lt_of_lt_of_le (h.downward.answered _ hdelivered.1)
          h.upward.heard_prefix.length_le)
      have hentered := h.ledger.enter hfresh now request id frames
      rw [h.usual] at hentered
      exact hentered

theorem broken_up {error : LinkError} (up : (near.broken error).handshake ≠ .failed) :
    near.broken error = near := by
  unfold broken at up ⊢
  split at up <;> first | rfl | exact absurd rfl up

/-- Whatever happens to a connection while no bytes move and no call runs out
of time leaves it in tune, or makes it fail. -/
theorem InTune.handle (h : near.InTune g usual x made) {e : Event} (still : e.movesBytes = false)
    (inTime : ∀ now, e = .expire now → ∀ timer ∈ near.calls.timers, now < timer.due)
    (fits : Client.ofStream e = true → near.FramesFit) (up : (near.handle e).handshake ≠ .failed) :
    ∃ made', made <+: made' ∧ (near.handle e).InTune g usual x made' := by
  have hkeep : (near.handle e).InTune g usual x made →
      ∃ made', made <+: made' ∧ (near.handle e).InTune g usual x made' :=
    fun htune => ⟨made, List.prefix_rfl, htune⟩
  have hsame : near.handle e = near → ∃ made', made <+: made' ∧
      (near.handle e).InTune g usual x made' := fun heq => hkeep (by rwa [heq])
  have hup : near.handshake ≠ .failed := fun hfailed => up ((near.handle_later e).failed hfailed)
  cases e with
  | dialled => exact hkeep (h.dialled (fits rfl))
  | dialFailed error =>
    refine hsame ?_
    simp only [Connection.handle, Connection.dialFailed] at up ⊢
    split at up
    · exact absurd rfl up
    · rfl
  | load => exact hkeep (h.load (fits rfl))
  | wrote count => cases still
  | writeFailed error =>
    refine hsame ?_
    simp only [Connection.handle] at up ⊢
    split at up
    · next hoffer => rw [if_pos hoffer]
    · next hoffer => rw [if_neg hoffer, broken_up up]
  | arrived bytes => cases still
  | readFailed error =>
    refine hsame ?_
    simp only [Connection.handle] at up ⊢
    split at up
    · next hreading => rw [if_pos hreading, broken_up up]
    · next hreading => rw [if_neg hreading]
  | expect now request =>
    rcases h.expect hup now request with ⟨heq, -, -⟩ | ⟨id, -, hmade⟩
    · exact hsame heq
    · exact ⟨_, List.prefix_append _ _, hmade⟩
  | expire now =>
    refine hsame ?_
    have hnone : near.calls.timers.filter (·.due ≤ now) = [] := by
      rw [List.filter_eq_nil_iff]
      intro timer htimer
      simpa using inTime now rfl timer htimer
    simp only [Connection.handle, CallTable.expireDue, hnone, List.foldl_nil]
  | clean =>
    refine absurd ?_ up
    simp only [Connection.handle, Connection.clean]
    split
    · next hcleaned => exact h.sound.cleaned hcleaned
    · rfl
  | noticeStop =>
    refine hsame ?_
    simp only [Connection.handle, Connection.noticeStop] at up ⊢
    split at up
    · exact absurd rfl up
    · next hstopping => rw [if_neg hstopping]

/-- Calls that are made on a connection, or its end, leave it in tune if it
does not fail. -/
theorem InTune.run (h : near.InTune g usual x made) (events : List Event)
    (plain : ∀ event ∈ events, (∃ now request, event = .expect now request) ∨ event = .clean)
    (up : (near.run events).handshake ≠ .failed) :
    ∃ made', made <+: made' ∧ (near.run events).InTune g usual x made' := by
  induction events generalizing near made with
  | nil => exact ⟨made, List.prefix_rfl, h⟩
  | cons event events ih =>
    have hrest : (near.handle event).Later ((near.handle event).run events) := run_later _ events
    have hup : (near.handle event).handshake ≠ .failed := fun hfailed => up (hrest.failed hfailed)
    have hnow : ∃ made', made <+: made' ∧ (near.handle event).InTune g usual x made' := by
      rcases plain event List.mem_cons_self with ⟨now, request, rfl⟩ | rfl
      · exact h.handle rfl (fun now heq => by cases heq) (fun hstream => by cases hstream) hup
      · exact h.handle rfl (fun now heq => by cases heq) (fun hstream => by cases hstream) hup
    obtain ⟨made₁, hmore, htune⟩ := hnow
    obtain ⟨made₂, hmore', hrun⟩ := ih htune
      (fun event hevent => plain event (List.mem_cons_of_mem _ hevent)) up
    exact ⟨made₂, hmore.trans hmore', hrun⟩

/-! ## Bytes that come in -/

theorem withReader_keeps (c : Connection) (inp : FrameReader) :
    (c.withReader inp).calls = c.calls ∧ (c.withReader inp).offer = c.offer := by
  unfold withReader
  split
  · next inp' hawaiting => simp [offer, hawaiting]
  · next inp' out hserving => simp [offer, hserving]
  · exact ⟨rfl, rfl⟩

/-- A frame that does not make a connection fail is told to its calls, and
nothing else changes about them. -/
theorem receive_told {payload : Bytes} {frame : Frame}
    (hdecode : Codec.binary.decode .frame payload = .ok frame)
    (reading : near.reader? = some .start) (up : (near.receive payload).handshake ≠ .failed) :
    (near.receive payload).calls = near.calls.told frame ∧
      (near.receive payload).offer = near.offer ∧
      (near.receive payload).reader? = some .start := by
  simp only [receive, hdecode] at up ⊢
  split at up
  · next inp hawaiting =>
    cases frame with
    | initResponse identity =>
      simp only [identify] at up ⊢
      split at up
      · next hversion => simp [hversion, CallTable.told, offer, reader?, hawaiting]
      · exact absurd rfl up
    | _ => exact absurd rfl up
  · next inp out hserving =>
    cases frame with
    | error report =>
      simp only [route] at up ⊢
      split at up
      · exact absurd rfl up
      · next hkind =>
        rw [if_neg hkind]
        exact ⟨rfl, rfl, reading⟩
    | _ => exact ⟨rfl, rfl, reading⟩
  · next hawaiting hserving =>
    unfold reader? at reading
    split at reading
    · next inp h => exact absurd h (hawaiting inp)
    · next inp out h => exact absurd h (hserving inp out)
    · cases reading

/-- What the next frame to be completed does to the calls. -/
theorem InTune.completed (h : near.InTune g usual x made) {p : Parcel} {mail : List Parcel}
    (hmail : x.mail = p :: mail) (last : x.seen + 1 = (Framing.framed p.payload).length)
    (unrelated : x.Unrelated near.calls) :
    ∃ frame, Codec.binary.decode .frame p.payload = .ok frame ∧
      (near.calls.told frame).Ledger g (FarSide.Delivered { x with mail, seen := 0 }) made := by
  have hp : p ∈ x.mail := hmail ▸ List.mem_cons_self
  have hfits : p.payload.length ≤ Framing.maxLength :=
    h.downward.midway.fits _ (List.mem_map_of_mem hp)
  have hgenuine := h.downward.genuine p hp
  cases p with
  | answer place payload =>
    obtain ⟨call, hcall, hform⟩ := hgenuine
    have hplaces : x.mail.filterMap Parcel.place? = place :: mail.filterMap Parcel.place? := by
      simp [hmail, Parcel.place?]
    have hplace : place ∈ x.mail.filterMap Parcel.place? := hplaces ▸ List.mem_cons_self
    have hgone : place ∉ mail.filterMap Parcel.place? :=
      (List.nodup_cons.1 (hplaces ▸ h.downward.once)).1
    have hmade : made[place]? = some call := by
      obtain ⟨rest, hrest⟩ := h.upward.heard_prefix
      rw [← hrest, List.getElem?_append_left (List.getElem?_eq_some_iff.1 hcall).1, hcall]
    refine ⟨_, Codec.decode_frame hform hfits,
      h.ledger.reply h.sound.calls hmade (fun hdelivered => hdelivered.2 hplace) fun m => ?_⟩
    simp only [FarSide.Delivered, hplaces, List.mem_cons, not_or]
    constructor
    · rintro ⟨hanswered, hmailed⟩
      by_cases hm : m = place
      · exact .inr hm
      · exact .inl ⟨hanswered, hm, hmailed⟩
    · rintro (⟨hanswered, -, hmailed⟩ | rfl)
      · exact ⟨hanswered, hmailed⟩
      · exact ⟨h.downward.sent _ hplace, hgone⟩
  | other frame payload =>
    refine ⟨frame, Codec.decode_frame hgenuine hfits, ?_⟩
    rw [CallTable.told_unrelated (unrelated frame payload mail hmail last)]
    exact h.ledger.congr fun m => by simp [FarSide.Delivered, hmail, Parcel.place?]

/-- One byte of the mail comes in. -/
theorem InTune.byte (h : near.InTune g usual x made) {b : UInt8} {bytes : Bytes}
    (hdown : x.down = b :: bytes) {inp : FrameReader} (reading : near.reader? = some inp)
    (unrelated : x.Unrelated near.calls) (up : (near.arrived [b]).1.handshake ≠ .failed) :
    (near.arrived [b]).1.InTune g usual x.pass made ∧
      ∃ inp', (near.arrived [b]).1.reader? = some inp' := by
  have hmoves := near.handle_moves (.arrived [b])
  have hsound := h.sound.moves hmoves
  have husual := hmoves.usualTimeout.trans h.usual
  have hdownward := h.downward
  rw [reading, Option.getD_some] at hdownward
  obtain ⟨-, p, mail, hmail, hpush⟩ := hdownward.pass hdown
  simp only [Connection.handle] at hsound husual
  split at hpush
  · next hlast =>
    obtain ⟨hpush, hpass, hnext⟩ := hpush
    have hread : inp.read [b] = (.start, some (.ok p.payload), []) := by
      simp only [FrameReader.read, hpush]
    have harrived : (near.arrived [b]).1 = (near.withReader .start).receive p.payload := by
      rw [arrived_payload reading hread, arrived_nil]
    obtain ⟨frame, hdecode, hledger⟩ := h.completed hmail hlast unrelated
    rw [harrived] at hsound husual up ⊢
    obtain ⟨hcalls, hoffer, hreader⟩ := receive_told hdecode (reader?_withReader reading) up
    obtain ⟨hkeepCalls, hkeepOffer⟩ := near.withReader_keeps .start
    rw [hpass] at hnext ⊢
    refine ⟨⟨hsound, husual, ?_, ?_, ?_⟩, .start, hreader⟩
    · rw [hcalls, hoffer, hkeepCalls, hkeepOffer, CallTable.told_queue]
      exact ⟨h.upward.stages⟩
    · rw [hreader]
      exact hnext
    · rw [hcalls, hkeepCalls]
      exact hledger
  · obtain ⟨inp', hpush, hpass, hnext⟩ := hpush
    have hread : inp.read [b] = (inp', none, []) := by simp only [FrameReader.read, hpush]
    have harrived : (near.arrived [b]).1 = near.withReader inp' := by
      rw [arrived_part reading hread]
    obtain ⟨hkeepCalls, hkeepOffer⟩ := near.withReader_keeps inp'
    have hreader : (near.withReader inp').reader? = some inp' := reader?_withReader reading
    rw [harrived] at hsound husual ⊢
    rw [hpass] at hnext ⊢
    refine ⟨⟨hsound, husual, ?_, ?_, ?_⟩, inp', hreader⟩
    · rw [hkeepCalls, hkeepOffer]
      exact ⟨h.upward.stages⟩
    · rw [hreader]
      exact hnext
    · rw [hkeepCalls]
      exact h.ledger

/-- Any number of bytes come in at once. -/
theorem InTune.arrived (h : near.InTune g usual x made) {inp : FrameReader}
    (reading : near.reader? = some inp) {count : Nat} (enough : count ≤ x.down.length)
    (unrelated : ∀ n < count, (x.passed n).Unrelated (near.arrived (x.down.take n)).1.calls)
    (up : (near.arrived (x.down.take count)).1.handshake ≠ .failed) :
    (near.arrived (x.down.take count)).1.InTune g usual (x.passed count) made ∧
      (∃ inp', (near.arrived (x.down.take count)).1.reader? = some inp') ∧
      (x.passed count).down = x.down.drop count := by
  -- On the number of bytes: the last byte comes in where those before it have led to.
  induction count with
  | zero =>
    rw [List.take_zero, arrived_nil]
    exact ⟨h, ⟨inp, reading⟩, rfl⟩
  | succ count ih =>
    have hlt : count < x.down.length := enough
    have hsplit : x.down.take (count + 1) = x.down.take count ++ [x.down[count]] :=
      (List.take_append_getElem hlt).symm
    have hlater := ((near.arrived (x.down.take count)).1.handle_moves
      (.arrived ((near.arrived (x.down.take count)).2 ++ [x.down[count]]))).later
    rw [hsplit, arrived_append] at up ⊢
    obtain ⟨htune, ⟨inp', hreading⟩, hrest⟩ := ih (Nat.le_of_lt hlt)
      (fun n hn => unrelated n (Nat.lt_succ_of_lt hn)) fun hfailed => up (hlater.failed hfailed)
    have hnothing := near.arrived_rest _ hreading
    rw [hnothing, List.nil_append] at up ⊢
    have hdown : (x.passed count).down = x.down[count] :: x.down.drop (count + 1) := by
      rw [hrest, List.drop_eq_getElem_cons hlt]
    obtain ⟨hbyte, hgoesOn⟩ := htune.byte hdown hreading (unrelated count (Nat.lt_succ_self _)) up
    exact ⟨hbyte, hgoesOn, (htune.downward.pass hdown).1⟩

end Connection

end RpcClient
