/-
What a connection has put on its stream, against the calls that came into its
queue and the bytes that it has read (`Accounted`): its greeting first, then the
frames of the calls in the order of the queue, and of these none before the other
side has introduced itself. Every event keeps that (`Accounted.handle`), however
the connection ends.
-/
import RpcClient.Connection.Greeting
import RpcClient.Proofs.Stream.FirstFrame
import RpcClient.Proofs.Stream.Reading

namespace RpcClient

namespace Connection

/-! ## Bytes that are read -/

theorem arrived_suffix (c : Connection) (bytes : Bytes) : (c.arrived bytes).2 <:+ bytes := by
  induction c, bytes using arrived.induct with
  | case1 c bytes hreader =>
    exact ⟨[], by rw [arrived_deaf hreader, List.nil_append]⟩
  | case2 c bytes inp hreader inp' rest hread =>
    rw [arrived_part hreader hread]
    exact FrameReader.read_suffix hread
  | case3 c bytes inp hreader inp' payload rest hread _ ih =>
    rw [arrived_payload hreader hread]
    exact ih.trans (FrameReader.read_suffix hread)
  | case4 c bytes inp hreader inp' fault rest hread =>
    rw [arrived_fault hreader hread]
    exact FrameReader.read_suffix hread

/-- What comes in is read, and then comes what is not. -/
theorem heard_append (c : Connection) (bytes : Bytes) :
    c.heard (.arrived bytes) ++ (c.arrived bytes).2 = bytes := by
  have hrest : bytes.drop (bytes.length - (c.arrived bytes).2.length) = (c.arrived bytes).2 :=
    (List.suffix_iff_eq_drop.1 (c.arrived_suffix bytes)).symm
  have hsplit := List.take_append_drop (bytes.length - (c.arrived bytes).2.length) bytes
  rwa [hrest] at hsplit

theorem Introduced.more {heard : Bytes} (h : Introduced heard) (more : Bytes) :
    Introduced (heard ++ more) := by
  obtain ⟨payload, identity, hpayload, hrest⟩ := h
  exact ⟨payload, identity, hpayload.trans (List.prefix_append _ _), hrest⟩

/-! ## The account of a connection -/

/-- What a connection may have sent, after some calls came into its queue and it
has read some bytes. -/
structure InOrder (greeting : Bytes) (frames : List Frame) (sent heard : Bytes) : Prop where
  order : sent <+: greeting ++ frames.flatMap frameBytes
  introduced : sent <+: greeting ∨ Introduced heard

/-- What a connection has sent and read, by what it is busy with. -/
def Account (greeting : Bytes) (queue : Option (List Frame)) (frames : List Frame)
    (sent heard : Bytes) : Activity → Prop
  | .dialling => queue = some frames ∧ sent = [] ∧ heard = []
  | .greeting out => queue = some frames ∧ sent ++ out.rest = greeting ∧ heard = []
  | .awaiting inp =>
    queue = some frames ∧ sent = greeting ∧ FrameReader.start.read heard = (inp, none, [])
  | .serving _ out =>
    Introduced heard ∧ ∃ loaded waiting, frames = loaded ++ waiting ∧ queue = some waiting ∧
      sent ++ out.rest = greeting ++ loaded.flatMap frameBytes
  | .stopped => queue = none ∧ InOrder greeting frames sent heard

/-- How a connection stands to the calls that came into its queue, and to the
bytes that it has sent and read. -/
structure Accounted (c : Connection) (frames : List Frame) (sent heard : Bytes) : Prop where
  issued : c.calls.issued = frames.length
  calls : ∀ frame ∈ frames, ∃ call, frame = .callRequest call
  account : Account c.greeting c.calls.queue frames sent heard c.activity
  closed : c.calls.queue = none → c.calls.isClosed = true

variable {c : Connection} {frames : List Frame} {sent heard greeting : Bytes}

/-- Wherever a connection stands, it has sent all in order. -/
theorem Account.inOrder {activity : Activity} {queue : Option (List Frame)}
    (h : Account greeting queue frames sent heard activity) :
    InOrder greeting frames sent heard := by
  cases activity with
  | dialling =>
    obtain ⟨-, rfl, -⟩ := h
    exact ⟨List.nil_prefix, .inl List.nil_prefix⟩
  | greeting out =>
    obtain ⟨-, rfl, -⟩ := h
    refine ⟨?_, .inl (List.prefix_append _ _)⟩
    rw [List.append_assoc]
    exact List.prefix_append _ _
  | awaiting inp =>
    obtain ⟨-, rfl, -⟩ := h
    exact ⟨List.prefix_append _ _, .inl List.prefix_rfl⟩
  | serving inp out =>
    obtain ⟨hintroduced, loaded, waiting, rfl, -, hsent⟩ := h
    refine ⟨?_, .inr hintroduced⟩
    have hmore : sent <+: greeting ++ loaded.flatMap frameBytes := hsent ▸ List.prefix_append _ _
    rw [List.flatMap_append, ← List.append_assoc]
    exact hmore.trans (List.prefix_append _ _)
  | stopped => exact h.2

theorem Accounted.inOrder (h : c.Accounted frames sent heard) :
    InOrder c.greeting frames sent heard := h.account.inOrder

theorem Accounted.dial (remote : Address) (settings : ConnectionSettings) :
    (Connection.dial remote settings).Accounted [] [] [] where
  issued := rfl
  calls := by simp
  account := ⟨rfl, rfl, rfl⟩
  closed := by simp [Connection.dial]

/-! ## Events -/

theorem Accounted.sameQueue (h : c.Accounted frames sent heard) {calls : CallTable}
    (same : c.calls.SameQueue calls) : { c with calls }.Accounted frames sent heard where
  issued := same.issued.trans h.issued
  calls := h.calls
  account := by
    rw [same.queue]
    exact h.account
  closed hqueue := same.closed (h.closed (same.queue.symm.trans hqueue))

theorem Accounted.stop (h : c.Accounted frames sent heard) (cause : Error) :
    (c.stop cause).Accounted frames sent heard where
  issued := h.issued
  calls := h.calls
  account := ⟨rfl, h.inOrder⟩
  closed _ := rfl

theorem Accounted.fail (h : c.Accounted frames sent heard) (error : Error) :
    (c.fail error).Accounted frames sent heard :=
  have hstop := h.stop error
  ⟨hstop.issued, hstop.calls, hstop.account, hstop.closed⟩

theorem Accounted.broken (h : c.Accounted frames sent heard) (error : LinkError) :
    (c.broken error).Accounted frames sent heard := by
  unfold Connection.broken
  split
  · exact h
  · exact h
  · exact h.fail _

theorem Accounted.clean (h : c.Accounted frames sent heard) :
    c.clean.Accounted frames sent heard := by
  unfold Connection.clean
  split
  · exact h
  · have hcalls := h.sameQueue (c.calls.failAll_same (c.lastError.getD .linkClosed))
    exact ⟨hcalls.issued, hcalls.calls, hcalls.account, hcalls.closed⟩

/-- A call that is made comes in at the end of the queue, or nothing happens. -/
theorem Accounted.expect (h : c.Accounted frames sent heard) (now : Nat)
    (request : Request Bytes) :
    (c.handle (.expect now request)).Accounted (frames ++ c.queued (.expect now request)) sent
      heard := by
  have hsame : (c.calls.expect now request).1 = c.calls →
      (c.handle (.expect now request)).Accounted (frames ++ c.queued (.expect now request)) sent
        heard := by
    intro he
    simp only [Connection.handle, queued, he, List.drop_length, List.append_nil]
    exact h
  rcases c.calls.expect_cases now request with ⟨cause, -, he⟩ | ⟨-, -, he⟩ |
    ⟨id, hopen, -, hqueue, he⟩ | ⟨id, waiting, -, -, hqueue, he⟩
  · exact hsame (by rw [he])
  · exact hsame (by rw [he])
  · have hclosed := h.closed hqueue
    simp [CallTable.isClosed, hopen] at hclosed
  · have hqueued : c.queued (.expect now request) =
        [.callRequest (request.toCall id (request.effectiveTimeout c.calls.usualTimeout))] := by
      simp [queued, he, hqueue, CallTable.enter]
    have haccount := h.account
    rw [hqueue] at haccount
    rw [hqueued]
    refine ⟨?_, fun frame hframe => ?_, ?_, fun hnone => ?_⟩
    · simp [Connection.handle, he, CallTable.enter, h.issued]
    · rcases List.mem_append.1 hframe with hold | hnew
      · exact h.calls frame hold
      · exact ⟨_, List.mem_singleton.1 hnew⟩
    · simp only [Connection.handle, he, CallTable.enter, Connection.greeting]
      cases hactivity : c.activity with
      | serving inp out =>
        rw [hactivity] at haccount
        obtain ⟨hintroduced, loaded, rest, rfl, hrest, hsent⟩ := haccount
        obtain rfl := Option.some.inj hrest
        exact ⟨hintroduced, loaded, _, List.append_assoc _ _ _, rfl, hsent⟩
      | stopped =>
        rw [hactivity] at haccount
        cases haccount.1
      | _ =>
        rw [hactivity] at haccount
        obtain ⟨hrest, hmore⟩ := haccount
        obtain rfl := Option.some.inj hrest
        exact ⟨rfl, hmore⟩
    · simp [Connection.handle, he, CallTable.enter] at hnone

theorem Accounted.load (h : c.Accounted frames sent heard) :
    c.load.Accounted frames sent heard := by
  unfold Connection.load
  split
  · next inp out hserving =>
    split
    · next hdone =>
      split
      · next frame calls hnext =>
        obtain ⟨waiting, hqueue, rfl⟩ := CallTable.nextFrame?_eq_some hnext
        have haccount := h.account
        rw [hserving, hqueue] at haccount
        obtain ⟨hintroduced, loaded, rest, rfl, hrest, hsent⟩ := haccount
        obtain rfl := Option.some.inj hrest
        have hempty : out.rest = [] := List.isEmpty_iff.1 hdone
        refine ⟨h.issued, h.calls, ⟨hintroduced, loaded ++ [frame], waiting, by simp, rfl, ?_⟩,
          fun hnone => by cases hnone⟩
        rw [hempty, List.append_nil] at hsent
        rw [hsent, List.flatMap_append, List.append_assoc]
        simp [Connection.greeting]
      · exact h
    · exact h
  · exact h

theorem Accounted.wrote (h : c.Accounted frames sent heard) (count : Nat) :
    (c.wrote count).Accounted frames (sent ++ c.offer.take count) heard := by
  have haccount := h.account
  unfold Connection.wrote
  split
  · next out hgreeting =>
    rw [hgreeting] at haccount
    obtain ⟨hqueue, hsent, rfl⟩ := haccount
    have hoffer : c.offer = out.rest := by simp [offer, hgreeting]
    have hall : (sent ++ c.offer.take count) ++ out.rest.drop count = c.greeting := by
      rw [hoffer, List.append_assoc, List.take_append_drop, hsent]
    refine ⟨h.issued, h.calls, ?_, h.closed⟩
    dsimp only
    split
    · next hempty =>
      rw [List.isEmpty_iff.1 hempty, List.append_nil] at hall
      exact ⟨hqueue, hall, rfl⟩
    · exact ⟨hqueue, hall, rfl⟩
  · next inp out hserving =>
    rw [hserving] at haccount
    obtain ⟨hintroduced, loaded, waiting, hframes, hqueue, hsent⟩ := haccount
    have hoffer : c.offer = out.rest := by simp [offer, hserving]
    refine ⟨h.issued, h.calls, ⟨hintroduced, loaded, waiting, hframes, hqueue, ?_⟩, h.closed⟩
    rw [hoffer, List.append_assoc, List.take_append_drop]
    exact hsent
  · next hnotgreeting hnotserving =>
    have hoffer : c.offer = [] := by
      unfold offer
      split
      · next out hgreeting => exact absurd hgreeting (hnotgreeting out)
      · next inp out hserving => exact absurd hserving (hnotserving inp out)
      · rfl
    rw [hoffer, List.take_nil, List.append_nil]
    exact h

theorem InOrder.more (h : InOrder greeting frames sent heard) (more : Bytes) :
    InOrder greeting frames sent (heard ++ more) :=
  ⟨h.order, h.introduced.imp_right fun hintroduced => hintroduced.more more⟩

/-- What is read after the other side has introduced itself, or when all is over,
makes no difference. -/
theorem Accounted.more (h : c.Accounted frames sent heard)
    (past : (∃ inp out, c.activity = .serving inp out) ∨ c.activity = .stopped) (more : Bytes) :
    c.Accounted frames sent (heard ++ more) := by
  have haccount := h.account
  refine ⟨h.issued, h.calls, ?_, h.closed⟩
  rcases past with ⟨inp, out, hserving⟩ | hstopped
  · rw [hserving] at haccount ⊢
    exact ⟨haccount.1.more more, haccount.2⟩
  · rw [hstopped] at haccount ⊢
    exact ⟨haccount.1, haccount.2.more more⟩

/-! ## Bytes that come in -/

/-- With the first payload the other side introduces itself, or the connection
breaks. -/
theorem Accounted.introduce {inp : FrameReader} (h : c.Accounted frames sent heard)
    (awaiting : c.activity = .awaiting inp) {payload more : Bytes}
    (first : heard ++ more = Framing.framed payload) (fits : payload.length ≤ Framing.maxLength)
    (inp' : FrameReader) :
    ((c.withReader inp').receive payload).Accounted frames sent (heard ++ more) := by
  have haccount := h.account
  rw [awaiting] at haccount
  obtain ⟨hqueue, rfl, -⟩ := haccount
  simp only [Connection.withReader, awaiting]
  have hfail : ∀ error, (c.fail error).Accounted frames c.greeting (heard ++ more) := fun error =>
    (h.fail error).more (.inr rfl) more
  unfold Connection.receive
  split
  · exact hfail _
  · next frame decoded =>
    dsimp only
    unfold Connection.identify
    split
    · next identity =>
      split
      · next version =>
        have hintroduced : Introduced (heard ++ more) :=
          ⟨payload, identity, first ▸ List.prefix_rfl, fits, decoded, version⟩
        refine ⟨h.issued, h.calls, ⟨hintroduced, [], frames, rfl, hqueue, ?_⟩, h.closed⟩
        rw [List.append_nil, List.flatMap_nil, List.append_nil]
        rfl
      · exact hfail _
    · exact hfail _
    · exact hfail _

theorem Accounted.route (h : c.Accounted frames sent heard) (frame : Frame) :
    (c.route frame).Accounted frames sent heard := by
  unfold Connection.route
  split
  · next reply => exact h.sameQueue (c.calls.complete_same reply.id _)
  · next report =>
    split
    · exact h.fail _
    · exact h.sameQueue (c.calls.complete_same report.id _)
  · exact h

theorem Accounted.withReader {inp : FrameReader} {out : FrameWriter}
    (h : c.Accounted frames sent heard) (serving : c.activity = .serving inp out)
    (inp' : FrameReader) : (c.withReader inp').Accounted frames sent heard := by
  have haccount := h.account
  rw [serving] at haccount
  simp only [Connection.withReader, serving]
  exact ⟨h.issued, h.calls, haccount, h.closed⟩

/-- What comes in as a whole payload, while the connection reads. -/
theorem Accounted.receive {inp inp' : FrameReader} (h : c.Accounted frames sent heard)
    (reading : c.reader? = some inp) {front rest payload : Bytes}
    (read : inp.read (front ++ rest) = (inp', some (.ok payload), rest)) :
    ((c.withReader inp').receive payload).Accounted frames sent (heard ++ front) := by
  unfold Connection.reader? at reading
  split at reading
  · next inp₁ hawaiting =>
    obtain rfl := Option.some.inj reading
    have haccount := h.account
    rw [hawaiting] at haccount
    obtain ⟨hqueue, hsent, hheard⟩ := haccount
    -- Read from the start, the payload is the first frame of all.
    have hstart : FrameReader.start.read (heard ++ (front ++ rest)) =
        (inp', some (.ok payload), rest) := by
      rw [(FrameReader.read_none hheard).2, read]
    obtain ⟨-, hbytes, hfits⟩ := FrameReader.start_read_ok hstart
    rw [← List.append_assoc] at hbytes
    exact h.introduce hawaiting (List.append_cancel_right hbytes) hfits inp'
  · next inp₁ out hserving =>
    have hwith := (h.more (.inl ⟨inp₁, out, hserving⟩) front).withReader hserving inp'
    unfold Connection.receive
    split
    · exact hwith.broken _
    · next frame hdecode =>
      simp only [Connection.withReader, hserving] at hwith ⊢
      exact hwith.route frame
  · cases reading

/-- The bytes end before a frame does. -/
theorem Accounted.part {inp inp' : FrameReader} (h : c.Accounted frames sent heard)
    (reading : c.reader? = some inp) {front : Bytes} (read : inp.read front = (inp', none, [])) :
    (c.withReader inp').Accounted frames sent (heard ++ front) := by
  unfold Connection.reader? at reading
  split at reading
  · next inp₁ hawaiting =>
    obtain rfl := Option.some.inj reading
    have haccount := h.account
    rw [hawaiting] at haccount
    obtain ⟨hqueue, hsent, hheard⟩ := haccount
    have hstart : FrameReader.start.read (heard ++ front) = (inp', none, []) := by
      rw [(FrameReader.read_none hheard).2, read]
    simp only [Connection.withReader, hawaiting]
    exact ⟨h.issued, h.calls, ⟨hqueue, hsent, hstart⟩, h.closed⟩
  · next inp₁ out hserving =>
    exact (h.more (.inl ⟨inp₁, out, hserving⟩) front).withReader hserving inp'
  · cases reading

theorem stopped_of_broken {inp : FrameReader} (reading : c.reader? = some inp)
    (error : LinkError) : (c.broken error).activity = .stopped := by
  unfold Connection.broken
  split
  · next hdialling => simp [Connection.reader?, hdialling] at reading
  · next hstopped => exact hstopped
  · rfl

theorem Accounted.arrived (h : c.Accounted frames sent heard) (bytes : Bytes) :
    (c.arrived bytes).1.Accounted frames sent (heard ++ c.heard (.arrived bytes)) := by
  have hheard := c.heard_append bytes
  generalize c.heard (.arrived bytes) = front at hheard
  -- Along the frames that end in the bytes; `front` is what is read of them.
  induction c, bytes using arrived.induct generalizing heard front with
  | case1 c bytes hreader =>
    rw [arrived_deaf hreader] at hheard ⊢
    rw [List.append_left_eq_self.1 hheard, List.append_nil]
    exact h
  | case2 c bytes inp hreader inp' rest hread =>
    obtain ⟨rfl, -⟩ := FrameReader.read_none hread
    rw [arrived_part hreader hread] at hheard ⊢
    rw [List.append_nil] at hheard
    subst hheard
    exact h.part hreader hread
  | case3 c bytes inp hreader inp' payload rest hread _ ih =>
    obtain ⟨first, rfl⟩ := FrameReader.read_suffix hread
    rw [arrived_payload hreader hread] at hheard ⊢
    have hrest := heard_append ((c.withReader inp').receive payload) rest
    have hfront := hheard.trans (congrArg (first ++ ·) hrest.symm)
    rw [← List.append_assoc] at hfront
    rw [List.append_cancel_right hfront, ← List.append_assoc]
    exact ih (h.receive hreader hread) _ hrest
  | case4 c bytes inp hreader inp' fault rest hread =>
    rw [arrived_fault hreader hread]
    exact (h.broken _).more (.inr (stopped_of_broken hreader _)) front

/-! ## Every event, and a run -/

/-- Every event keeps the account. -/
theorem Accounted.handle (h : c.Accounted frames sent heard) (e : Event) :
    (c.handle e).Accounted (frames ++ c.queued e) (sent ++ c.written e) (heard ++ c.heard e) := by
  cases e with
  | expect now request =>
    simp only [written, Connection.heard, List.append_nil]
    exact h.expect now request
  | wrote count =>
    simp only [queued, written, Connection.heard, List.append_nil]
    exact h.wrote count
  | arrived bytes =>
    simp only [queued, written, List.append_nil]
    exact h.arrived bytes
  | dialled =>
    simp only [queued, written, Connection.heard, List.append_nil, Connection.handle, dialled]
    split
    · next hdialling =>
      have haccount := h.account
      rw [hdialling] at haccount
      obtain ⟨hqueue, rfl, rfl⟩ := haccount
      exact ⟨h.issued, h.calls, ⟨hqueue, rfl, rfl⟩, h.closed⟩
    · exact h
  | dialFailed error =>
    simp only [queued, written, Connection.heard, List.append_nil, Connection.handle, dialFailed]
    split
    · exact h.fail _
    · exact h
  | load =>
    simp only [queued, written, Connection.heard, List.append_nil]
    exact h.load
  | writeFailed error =>
    simp only [queued, written, Connection.heard, List.append_nil, Connection.handle]
    split
    · exact h
    · exact h.broken error
  | readFailed error =>
    simp only [queued, written, Connection.heard, List.append_nil, Connection.handle]
    split
    · exact h.broken error
    · exact h
  | expire now =>
    simp only [queued, written, Connection.heard, List.append_nil]
    exact h.sameQueue (c.calls.expireDue_same now)
  | clean =>
    simp only [queued, written, Connection.heard, List.append_nil]
    exact h.clean
  | noticeStop =>
    simp only [queued, written, Connection.heard, List.append_nil, Connection.handle, noticeStop]
    split
    · exact h.stop _
    · exact h

end Connection

end RpcClient
