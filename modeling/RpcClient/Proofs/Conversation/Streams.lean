/-
The two streams of a conversation. On the way up (`Upward`), what the other
side has heard, what is on its way and what is still queued are together all
calls that were made, in their order. On the way down (`Downward`), each frame
is what it is said to be, and no call is answered twice.
-/
import RpcClient.Conversation
import RpcClient.Proofs.Stream.Reading

namespace RpcClient

open FrameReader (Midway)

theorem maxLength_lt : Framing.maxLength < UInt64.size := by decide

/-- A frame that is not too long is decoded from each of its written forms. -/
theorem Codec.decode_frame {frame : Frame} {payload : Bytes}
    (form : Binary.FrameForm .anyOrder frame payload)
    (fits : payload.length ≤ Framing.maxLength) :
    Codec.binary.decode .frame payload = .ok frame := by
  have hread : Binary.Format.frame.read payload = .ok (frame, []) := by
    have h := Binary.Format.frame_reads form (Nat.lt_of_le_of_lt fits maxLength_lt) []
    rwa [List.append_nil] at h
  have hkind : Body.Kind.frame.binary.read payload = .ok (frame, []) := hread
  simp only [Codec.decode, hkind]

/-- The call in a frame that makes one. -/
def Frame.call? : Frame → Option Call
  | callRequest call => some call
  | _ => none

namespace Parcel

/-- Whether a parcel is what it is said to be. -/
def Genuine (g : Answerer) (heard : List Call) : Parcel → Prop
  | answer place payload => ∃ call, heard[place]? = some call ∧
      Binary.FrameForm .anyOrder (.callResponse (call.reply (g call))) payload
  | other frame payload => Binary.FrameForm .anyOrder frame payload

theorem Genuine.mono {g : Answerer} {heard heard' : List Call} {p : Parcel}
    (h : p.Genuine g heard) (more : heard <+: heard') : p.Genuine g heard' := by
  cases p with
  | answer place payload =>
    obtain ⟨call, hcall, hform⟩ := h
    obtain ⟨tail, rfl⟩ := more
    have hlt := (List.getElem?_eq_some_iff.1 hcall).1
    exact ⟨call, by rw [List.getElem?_append_left hlt, hcall], hform⟩
  | other frame payload => exact h

theorem places_answer (mail : List Parcel) (place : Nat) (payload : Bytes) :
    (mail ++ [answer place payload]).filterMap place? = mail.filterMap place? ++ [place] := by
  simp [place?]

theorem places_other (mail : List Parcel) (frame : Frame) (payload : Bytes) :
    (mail ++ [other frame payload]).filterMap place? = mail.filterMap place? := by
  simp [place?]

end Parcel

namespace FarSide

/-! ## The way up -/

/-- What the calls that were made have come to: heard, on their way, or queued. -/
structure Upward (x : FarSide) (queue : Option (List Frame)) (offer : Bytes) (made : List Call) :
    Prop where
  stages : ∃ (unheard : List Frame) (queued : List Call) (seen : Nat),
    queue = some (queued.map Frame.callRequest) ∧
    made = x.heard ++ unheard.filterMap Frame.call? ++ queued ∧
    Midway x.reader (unheard.map Binary.Format.frame.write) seen (x.up ++ offer)

variable {x : FarSide} {queue : Option (List Frame)} {offer : Bytes} {made : List Call}

theorem Upward.start : Upward {} (some []) [] [] :=
  ⟨[], [], 0, rfl, rfl, .nil⟩

/-- A call is put into the queue. -/
theorem Upward.enter {frames : List Frame} (h : Upward x (some frames) offer made) (call : Call) :
    Upward x (some (frames ++ [.callRequest call])) offer (made ++ [call]) := by
  obtain ⟨unheard, queued, seen, hqueue, hmade, hmidway⟩ := h.stages
  obtain rfl := Option.some.inj hqueue
  exact ⟨unheard, queued ++ [call], seen, by simp, by simp [hmade], hmidway⟩

/-- A frame begins to be written. -/
theorem Upward.load {frame : Frame} {frames : List Frame}
    (h : Upward x (some (frame :: frames)) [] made)
    (fits : (Binary.Format.frame.write frame).length ≤ Framing.maxLength) :
    Upward x (some frames) (Connection.frameBytes frame) made := by
  obtain ⟨unheard, queued, seen, hqueue, hmade, hmidway⟩ := h.stages
  cases queued with
  | nil => cases hqueue
  | cons call queued =>
    simp only [List.map_cons, Option.some.injEq, List.cons.injEq] at hqueue
    obtain ⟨rfl, rfl⟩ := hqueue
    refine ⟨unheard ++ [.callRequest call], queued, seen, rfl, ?_, ?_⟩
    · simp [hmade, Frame.call?]
    · have hsent := hmidway.append fits
      rw [List.append_nil] at hsent
      simpa [Connection.frameBytes] using hsent

/-- The announcement begins to be written. -/
theorem Upward.greet (h : Upward x queue [] made) {announcement : Identity}
    (fits : (Binary.Format.frame.write (.initRequest announcement)).length ≤ Framing.maxLength) :
    Upward x queue (Connection.frameBytes (.initRequest announcement)) made := by
  obtain ⟨unheard, queued, seen, hqueue, hmade, hmidway⟩ := h.stages
  refine ⟨unheard ++ [.initRequest announcement], queued, seen, hqueue, ?_, ?_⟩
  · simp [hmade, Frame.call?]
  · have hsent := hmidway.append fits
    rw [List.append_nil] at hsent
    simpa [Connection.frameBytes] using hsent

theorem Upward.write (h : Upward x queue offer made) (count : Nat) :
    Upward { x with up := x.up ++ offer.take count } queue (offer.drop count) made := by
  obtain ⟨unheard, queued, seen, hqueue, hmade, hmidway⟩ := h.stages
  refine ⟨unheard, queued, seen, hqueue, hmade, ?_⟩
  rw [List.append_assoc, List.take_append_drop]
  exact hmidway

/-- The other side only goes on hearing. -/
theorem hear_keeps (x : FarSide) :
    x.heard <+: x.hear.heard ∧ x.hear.mail = x.mail ∧ x.hear.seen = x.seen ∧
      x.hear.answered = x.answered := by
  unfold FarSide.hear
  split
  · exact ⟨List.prefix_refl _, rfl, rfl, rfl⟩
  · split
    · split
      · exact ⟨List.prefix_append _ _, rfl, rfl, rfl⟩
      · exact ⟨List.prefix_refl _, rfl, rfl, rfl⟩
    · exact ⟨List.prefix_refl _, rfl, rfl, rfl⟩

/-- What the other side hears next was made next. -/
theorem Upward.hear (h : Upward x queue offer made) : Upward x.hear queue offer made := by
  obtain ⟨unheard, queued, seen, hqueue, hmade, hmidway⟩ := h.stages
  unfold FarSide.hear
  cases hup : x.up with
  | nil => exact h
  | cons b up =>
    rw [hup, List.cons_append] at hmidway
    obtain ⟨payload, more, hpayloads, hpush⟩ := hmidway.push
    split at hpush
    · obtain ⟨hpush, hrest⟩ := hpush
      cases unheard with
      | nil => cases hpayloads
      | cons frame unheard =>
        simp only [List.map_cons, List.cons.injEq] at hpayloads
        obtain ⟨rfl, rfl⟩ := hpayloads
        have hfits := hmidway.fits _ List.mem_cons_self
        have hdecode := Codec.decode_frame (Binary.Format.frameForm_write frame) hfits
        simp only [hpush, hdecode]
        refine ⟨unheard, queued, 0, hqueue, ?_, ?_⟩
        · cases frame <;> simp [hmade, Frame.call?, List.filterMap_cons]
        · cases frame <;> exact hrest
    · obtain ⟨r', hpush, hrest⟩ := hpush
      simp only [hpush]
      rw [← hpayloads] at hrest
      exact ⟨unheard, queued, seen + 1, hqueue, hmade, hrest⟩

/-- When nothing is on its way up and nothing is queued, all calls were heard. -/
theorem Upward.all_heard (h : Upward x (some []) [] made) (up : x.up = []) : made = x.heard := by
  obtain ⟨unheard, queued, seen, hqueue, hmade, hmidway⟩ := h.stages
  obtain rfl : queued = [] := by simpa using hqueue
  rw [up, List.append_nil] at hmidway
  cases unheard with
  | nil => simpa using hmade
  | cons frame unheard =>
    have hrest := hmidway.rest
    have hseen := hmidway.reader.2
    rw [List.map_cons, List.flatMap_cons, List.drop_eq_nil_iff, List.length_append] at hrest
    omega

/-! ## The way down -/

/-- What the client has still to read, and how far it has come. -/
structure Downward (g : Answerer) (x : FarSide) (reader : FrameReader) : Prop where
  midway : Midway reader (x.mail.map Parcel.payload) x.seen x.down
  genuine : ∀ p ∈ x.mail, p.Genuine g x.heard
  /-- No two answers are for one call. -/
  once : (x.mail.filterMap Parcel.place?).Nodup
  sent : ∀ place ∈ x.mail.filterMap Parcel.place?, place ∈ x.answered
  answered : ∀ place ∈ x.answered, place < x.heard.length

/-- The client has read the answer to a call. -/
def Delivered (x : FarSide) (place : Nat) : Prop :=
  place ∈ x.answered ∧ place ∉ x.mail.filterMap Parcel.place?

variable {g : Answerer} {reader : FrameReader}

theorem Downward.start (g : Answerer) : Downward g {} .start := by
  constructor <;> simp [Midway.nil, FarSide.down]

theorem Downward.hear (h : Downward g x reader) : Downward g x.hear reader := by
  obtain ⟨hheard, hmail, hseen, hanswered⟩ := x.hear_keeps
  have hdown : x.hear.down = x.down := by rw [FarSide.down, FarSide.down, hmail, hseen]
  constructor
  · rw [hdown, hmail, hseen]
    exact h.midway
  · rw [hmail]
    exact fun p hp => (h.genuine p hp).mono hheard
  · rw [hmail]
    exact h.once
  · rw [hmail, hanswered]
    exact h.sent
  · rw [hanswered]
    exact fun place hplace => Nat.lt_of_lt_of_le (h.answered place hplace) hheard.length_le

/-- More mail is sent behind what has been sent. -/
theorem Downward.midway_send (h : Downward g x reader) {p : Parcel}
    (fits : p.payload.length ≤ Framing.maxLength) (answered : List Nat) :
    Midway reader ((x.mail ++ [p]).map Parcel.payload) x.seen
      (FarSide.down { x with mail := x.mail ++ [p], answered }) := by
  have hmore := h.midway.append fits
  rw [List.map_append]
  refine ⟨hmore.fits, ?_, hmore.reader⟩
  simp only [FarSide.down, List.flatMap_append, List.flatMap_map, List.map_cons, List.map_nil,
    List.flatMap_cons, List.flatMap_nil, List.append_nil]

theorem Downward.answer (h : Downward g x reader) {place : Nat} {call : Call} {payload : Bytes}
    (heard : x.heard[place]? = some call) (fresh : place ∉ x.answered)
    (form : Binary.FrameForm .anyOrder (.callResponse (call.reply (g call))) payload)
    (fits : payload.length ≤ Framing.maxLength) :
    Downward g { x with
      answered := x.answered ++ [place]
      mail := x.mail ++ [.answer place payload] } reader := by
  constructor
  · exact h.midway_send (p := .answer place payload) fits _
  · intro p hp
    rcases List.mem_append.1 hp with hold | hnew
    · exact h.genuine p hold
    · obtain rfl := List.mem_singleton.1 hnew
      exact ⟨call, heard, form⟩
  · rw [Parcel.places_answer, List.nodup_append]
    refine ⟨h.once, List.nodup_singleton _, fun a ha b hb hab => ?_⟩
    rw [List.mem_singleton.1 hb] at hab
    exact fresh (h.sent place (hab ▸ ha))
  · rw [Parcel.places_answer]
    intro n hn
    rcases List.mem_append.1 hn with hold | hnew
    · exact List.mem_append_left _ (h.sent n hold)
    · exact List.mem_append_right _ hnew
  · intro n hn
    rcases List.mem_append.1 hn with hold | hnew
    · exact h.answered n hold
    · obtain rfl := List.mem_singleton.1 hnew
      exact (List.getElem?_eq_some_iff.1 heard).1

theorem Downward.say (h : Downward g x reader) {frame : Frame} {payload : Bytes}
    (form : Binary.FrameForm .anyOrder frame payload)
    (fits : payload.length ≤ Framing.maxLength) :
    Downward g { x with mail := x.mail ++ [.other frame payload] } reader := by
  constructor
  · exact h.midway_send (p := .other frame payload) fits _
  · intro p hp
    rcases List.mem_append.1 hp with hold | hnew
    · exact h.genuine p hold
    · obtain rfl := List.mem_singleton.1 hnew
      exact form
  · rw [Parcel.places_other]
    exact h.once
  · rw [Parcel.places_other]
    exact h.sent
  · exact h.answered

/-- A byte of the mail leaves the reader within a frame, or completes one. -/
theorem Downward.pass (h : Downward g x reader) {b : UInt8} {bytes : Bytes}
    (hdown : x.down = b :: bytes) :
    x.pass.down = bytes ∧ ∃ p mail, x.mail = p :: mail ∧
      if x.seen + 1 = (Framing.framed p.payload).length then
        reader.push b = (.start, some (.ok p.payload)) ∧ x.pass = { x with mail, seen := 0 } ∧
          Downward g x.pass .start
      else ∃ reader', reader.push b = (reader', none) ∧
        x.pass = { x with seen := x.seen + 1 } ∧ Downward g x.pass reader' := by
  have hmidway := h.midway
  rw [hdown] at hmidway
  obtain ⟨payload, more, hpayloads, hpush⟩ := hmidway.push
  obtain ⟨p, mail, hmail, rfl, rfl⟩ := List.map_eq_cons_iff.1 hpayloads
  have hgenuine : ∀ q ∈ mail, q.Genuine g x.heard := fun q hq =>
    h.genuine q (hmail ▸ List.mem_cons_of_mem _ hq)
  have hsub : (mail.filterMap Parcel.place?).Sublist (x.mail.filterMap Parcel.place?) := by
    rw [hmail]
    exact (List.sublist_cons_self p mail).filterMap _
  split at hpush
  · next hlast =>
    obtain ⟨hpush, hrest⟩ := hpush
    have hpass : x.pass = { x with mail, seen := 0 } := by
      simp only [FarSide.pass, hmail, if_pos hlast]
    have hbytes : (FarSide.down { x with mail, seen := 0 }) = bytes := by
      rw [← hrest.rest]
      simp only [FarSide.down, List.flatMap_map]
    rw [hpass]
    refine ⟨hbytes, p, mail, hmail, ?_⟩
    rw [if_pos hlast]
    refine ⟨hpush, rfl, ?_, hgenuine, hsub.nodup h.once, fun n hn => h.sent n (hsub.subset hn),
      h.answered⟩
    rw [hbytes]
    exact hrest
  · next hnotlast =>
    obtain ⟨reader', hpush, hrest⟩ := hpush
    have hpass : x.pass = { x with seen := x.seen + 1 } := by
      simp only [FarSide.pass, hmail, if_neg hnotlast]
    have hbytes : (FarSide.down { x with seen := x.seen + 1 }) = bytes := by
      rw [← hrest.rest, ← List.map_cons, ← hmail]
      simp only [FarSide.down, List.flatMap_map]
    rw [hpass]
    refine ⟨hbytes, p, mail, hmail, ?_⟩
    rw [if_neg hnotlast]
    refine ⟨reader', hpush, rfl, ?_, h.genuine, h.once, h.sent, h.answered⟩
    rw [hbytes, hmail]
    exact hrest

end FarSide

end RpcClient
