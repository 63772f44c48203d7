/-
Every request gets the answer to its own call. While the link is up, the
connection and the other side are in tune, and every request that became a call
did so by itself (`Tuned`). Each step of a conversation keeps that, and each
request stands as it should after it (`GoesOn`). So wherever the conversation
goes, a request has the answer to its call as soon as this was read, and none
before (`answered_by_own_call`).
-/
import RpcClient.Proofs.Client.Request
import RpcClient.Proofs.Conversation.InTune
import RpcClient.Proofs.Conversation.Play

namespace RpcClient

/-- What the caller is given for a response: the response itself, or with its
body decoded by the codec that encoded the request. -/
def Service.expected (s : Service) (out : Outgoing) (response : Response Bytes) : Outcome Body :=
  match out with
  | .plain _ | .raw _ => .ok (response.withBody (Body.ofBytes response.body))
  | .encoded _ scheme replyKind =>
    match s.codecs.find? scheme with
    | none => .error (.unsupportedScheme scheme)
    | some codec =>
      match codec.decodeBody replyKind response.body with
      | .ok body => .ok (response.withBody body)
      | .error fault => .error (.link (.codec fault))

theorem Service.read_eq_expected {s : Service} {out : Outgoing} {request : Request Bytes}
    {reader : ReplyReader} (h : s.prepare out = .ok (request, reader)) (response : Response Bytes) :
    reader.read (.ok response) = s.expected out response := by
  unfold Service.prepare at h
  split at h
  · obtain ⟨rfl, rfl⟩ := Prod.mk.inj (Except.ok.inj h)
    rfl
  · obtain ⟨rfl, rfl⟩ := Prod.mk.inj (Except.ok.inj h)
    rfl
  · next body scheme replyKind =>
    split at h
    · cases h
    · next codec hcodec =>
      split at h
      · cases h
      · obtain ⟨rfl, rfl⟩ := Prod.mk.inj (Except.ok.inj h)
        simp only [ReplyReader.read, Service.expected, hcodec, Response.decode]
        cases codec.decodeBody replyKind response.body <;> rfl

namespace Conversation

open Client (Event Moves)

variable {g : Answerer} {k : ConnectionId} {settings : Settings} {codecs : Codecs}
  {made made' made'' : List Call} {s s' s'' : Conversation} {c c' : Client} {x x' : FarSide}
  {e : Event}

/-- A link that is up was up before. -/
theorem LinkUp.before (m : Moves e c c') (up : LinkUp k ⟨c', x'⟩) : LinkUp k ⟨c, x⟩ := by
  intro near hnear
  obtain ⟨events, hrun, -⟩ := m.connection_run hnear
  exact fun hfailed => up _ hrun ((near.run_later events).failed hfailed)

/-- What holds of a conversation while its link is up, after some calls were
made on the connection. -/
structure Tuned (g : Answerer) (k : ConnectionId) (settings : Settings) (made : List Call)
    (s : Conversation) : Prop where
  configured : s.client.settings = settings
  link : ∀ near, s.client.Links k near → near.InTune g settings.requestTimeout s.far made
  owned : s.client.Owned k made.length

theorem Tuned.start : Tuned g k settings [] (start settings codecs) where
  configured := rfl
  link := by
    rintro near (hnear | ⟨-, address, rfl⟩)
    · simp [Conversation.start, Client.start] at hnear
    · exact .dial g address (Client.start settings codecs).connectionSettings
  owned := by
    constructor
    · intro d n hn
      simp [Client.place?, Conversation.start, Client.start] at hn
    · intro d d' n hn
      simp [Client.place?, Conversation.start, Client.start] at hn

/-- All has gone on as it should, while some more calls were made. -/
structure GoesOn (g : Answerer) (k : ConnectionId) (settings : Settings) (made : List Call)
    (s : Conversation) (made' : List Call) (s' : Conversation) : Prop where
  more : made <+: made'
  tuned : Tuned g k settings made' s'
  follows : ∀ request reader d,
    s.client.Follows k settings.requestTimeout request reader made d →
    s'.client.Follows k settings.requestTimeout request reader made' d

theorem GoesOn.refl (h : Tuned g k settings made s) : GoesOn g k settings made s made s :=
  ⟨List.prefix_rfl, h, fun _ _ _ hf => hf⟩

theorem GoesOn.trans (h : GoesOn g k settings made s made' s')
    (h' : GoesOn g k settings made' s' made'' s'') : GoesOn g k settings made s made'' s'' :=
  ⟨h.more.trans h'.more, h'.tuned, fun request reader d hf =>
    h'.follows request reader d (h.follows request reader d hf)⟩

/-! ## What happens at the connection and beyond -/

/-- No request goes on. -/
theorem Tuned.next (h : Tuned g k settings made s) (more : made <+: made')
    (same : s'.client.settings = s.client.settings)
    (dispatches : s'.client.dispatches = s.client.dispatches)
    (link : ∀ near, s'.client.Links k near → near.InTune g settings.requestTimeout s'.far made') :
    GoesOn g k settings made s made' s' :=
  ⟨more, ⟨same.trans h.configured, link, h.owned.keep more.length_le dispatches⟩,
    fun _ _ _ hf => hf.keep more (by rw [dispatches])⟩

/-- The connection itself goes on, if it is there. -/
theorem Tuned.linked (h : Tuned g k settings made ⟨c, x⟩) (more : made <+: made')
    {f : Connection → Connection} {near : Connection} (hk : c.connections[k]? = some near)
    (link : (f near).InTune g settings.requestTimeout x' made') :
    GoesOn g k settings made ⟨c, x⟩ made' ⟨c.modifyConnection k f, x'⟩ := by
  have hmodified : (c.modifyConnection k f).connections[k]? = some (f near) := by
    simp [Client.getElem?_modifyConnection, hk]
  exact h.next more rfl rfl (Client.forall_links hmodified link)

/-- Nothing happens to the connection but that it is opened, takes calls or is
given up. -/
theorem Tuned.moves (h : Tuned g k settings made ⟨c, x⟩) (m : Moves e c c')
    (isRequest : ¬ e.IsRequest) (stream : ∀ event, e ≠ .stream k event) (expire : e ≠ .expire)
    (up : LinkUp k ⟨c', x⟩) : ∃ made', GoesOn g k settings made ⟨c, x⟩ made' ⟨c', x⟩ := by
  have hsettings : c'.settings = c.settings := m.settings
  have hdispatches : c'.dispatches = c.dispatches := m.dispatches isRequest
  cases hk : c'.connections[k]? with
  | none =>
    refine ⟨made, h.next List.prefix_rfl hsettings hdispatches fun near hnear => ?_⟩
    refine h.link near (hnear.congr ?_ hsettings)
    rw [hk, m.not_opened hk]
  | some near' =>
    obtain ⟨near, events, hlinks, rfl, hcauses⟩ := m.links (.inl hk)
    obtain ⟨made', hmore, htune⟩ := (h.link near hlinks).run events
      (fun event hevent => (hcauses event hevent).plain stream expire) (up _ hk)
    exact ⟨made', h.next hmore hsettings hdispatches (Client.forall_links hk htune)⟩

/-- Something happens at the stream of the connection, but no bytes move. -/
theorem Tuned.stream (h : Tuned g k settings made ⟨c, x⟩) {event : Connection.Event}
    (still : event.movesBytes = false)
    (fits : ∀ near, c.connections[k]? = some near → near.FramesFit)
    (up : LinkUp k ⟨c.handle (.stream k event), x⟩) :
    ∃ made', GoesOn g k settings made ⟨c, x⟩ made' ⟨c.handle (.stream k event), x⟩ := by
  simp only [Client.handle] at up ⊢
  split at up
  · next hstream =>
    rw [if_pos hstream]
    cases hk : c.connections[k]? with
    | none =>
      have hsame : c.modifyConnection k (·.handle event) = c := by
        simp only [Client.modifyConnection, List.modify_eq_self (List.getElem?_eq_none_iff.1 hk)]
      rw [hsame]
      exact ⟨made, .refl h⟩
    | some near =>
      have hup : (near.handle event).handshake ≠ .failed :=
        up _ (by simp [Client.getElem?_modifyConnection, hk])
      obtain ⟨made', hmore, htune⟩ := (h.link near (.inl hk)).handle still
        (fun now hexpire => by subst hexpire; cases hstream) (fun _ => fits near hk) hup
      exact ⟨made', h.linked hmore hk htune⟩
  · next hstream =>
    rw [if_neg hstream]
    exact ⟨made, .refl h⟩

/-- Timers go off, but none of the connection. -/
theorem Tuned.expire (h : Tuned g k settings made ⟨c, x⟩)
    (inTime : ∀ near, c.connections[k]? = some near →
      ∀ timer ∈ near.calls.timers, c.now < timer.due)
    (up : LinkUp k ⟨c.expireDue, x⟩) :
    ∃ made', GoesOn g k settings made ⟨c, x⟩ made' ⟨c.expireDue, x⟩ := by
  have hconnections : c.expireDue.connections[k]? =
      (c.connections[k]?).map (·.handle (.expire c.now)) := by
    simp [Client.expireDue, Connection.handle]
  cases hk : c.connections[k]? with
  | none =>
    rw [hk, Option.map_none] at hconnections
    refine ⟨made, h.next List.prefix_rfl rfl rfl fun near hnear => ?_⟩
    exact h.link near (hnear.congr (hconnections.trans hk.symm) rfl)
  | some near =>
    rw [hk, Option.map_some] at hconnections
    obtain ⟨made', hmore, htune⟩ := (h.link near (.inl hk)).handle (e := .expire c.now) rfl
      (fun now hexpire => by cases hexpire; exact inTime near hk) (fun hstream => by cases hstream)
      (up _ hconnections)
    exact ⟨made', h.next hmore rfl rfl (Client.forall_links hconnections htune)⟩

/-! ## Requests go on -/

/-- One request goes on, and does not become a call on the connection. -/
theorem Tuned.aside (h : Tuned g k settings made ⟨c, x⟩) {d : DispatchId}
    (same : c'.connections[k]? = c.connections[k]?) (hsettings : c'.settings = c.settings)
    (others : ∀ d', d' ≠ d → c'.dispatches[d']? = c.dispatches[d']?)
    (own : ∀ n, c'.place? k d ≠ some n)
    (follows : ∀ request reader, c.Follows k settings.requestTimeout request reader made d →
      c'.Follows k settings.requestTimeout request reader made d) :
    GoesOn g k settings made ⟨c, x⟩ made ⟨c', x⟩ := by
  refine ⟨List.prefix_rfl, ⟨hsettings.trans h.configured, fun other hother => ?_, ?_⟩,
    fun request reader d' hf => ?_⟩
  · exact h.link other (hother.congr same hsettings)
  · exact h.owned.update (Nat.le_refl _) others fun n hn => absurd hn (own n)
  · by_cases hd : d' = d
    · exact hd ▸ follows request reader (hd ▸ hf)
    · exact hf.keep List.prefix_rfl (others d' hd)

/-- A request begins to wait. -/
theorem Tuned.ask (h : Tuned g k settings made ⟨c, x⟩) (reader : ReplyReader) (w : Waiting) :
    GoesOn g k settings made ⟨c, x⟩ made
      ⟨{ c with dispatches := c.dispatches ++ [⟨reader, .waiting w⟩] }, x⟩ := by
  refine h.aside (d := c.dispatches.length) rfl rfl (fun d hd => ?_) (fun n hn => ?_) ?_
  · rcases Nat.lt_or_gt_of_ne hd with hlt | hgt
    · exact List.getElem?_append_left hlt
    · rw [List.getElem?_eq_none (Nat.le_of_lt hgt),
        List.getElem?_eq_none (by simpa using Nat.succ_le_of_lt hgt)]
  · simp [Client.place?, Progress.place?] at hn
  · rintro request reader' ⟨progress, hd, -⟩
    simp at hd

/-- The caller of a request goes away. -/
theorem Tuned.abandon (h : Tuned g k settings made ⟨c, x⟩) (d : DispatchId) :
    GoesOn g k settings made ⟨c, x⟩ made ⟨c.abandon d, x⟩ := by
  rcases c.abandon_cases d with he | ⟨reader, w, hd, he⟩
  · rw [he]
    exact .refl h
  · rw [he]
    refine h.aside (d := d) rfl rfl (fun d' hne => ?_) (fun n hn => ?_) ?_
    · rw [Client.getElem?_setProgress, if_neg (Ne.symm hne)]
    · cases Client.place?_setProgress hn
    · intro request reader' hf
      obtain ⟨rfl, -⟩ := hf.of_waiting hd
      refine ⟨.abandoned, ?_, trivial⟩
      rw [Client.getElem?_setProgress, if_pos rfl, hd, Option.map_some]

/-- A request that waited has been sent, in whatever way the connection took it. -/
theorem Tuned.sent (h : Tuned g k settings made ⟨c, x⟩) {d : DispatchId} {reader : ReplyReader}
    {w : Waiting} {near : Connection} {f : Connection → Connection} {handle : Handle}
    (hd : c.dispatches[d]? = some ⟨reader, .waiting w⟩) (hk : c.connections[k]? = some near)
    (more : made <+: made') (link : (f near).InTune g settings.requestTimeout x made')
    (next : ∀ n, handle = .waiting n → n = made.length ∧ made.length < made'.length)
    (stands : (Progress.sent k handle).Stands k settings.requestTimeout w.request made') :
    GoesOn g k settings made ⟨c, x⟩ made'
      ⟨(c.modifyConnection k f).setProgress d (.sent k handle), x⟩ := by
  have hconnection : ((c.modifyConnection k f).setProgress d (.sent k handle)).connections[k]? =
      some (f near) := by
    simp [Client.setProgress, Client.getElem?_modifyConnection, hk]
  have hothers : ∀ d', d' ≠ d →
      ((c.modifyConnection k f).setProgress d (.sent k handle)).dispatches[d']? =
        c.dispatches[d']? := by
    intro d' hne
    rw [Client.getElem?_setProgress, if_neg (Ne.symm hne)]
    rfl
  refine ⟨more, ⟨h.configured, Client.forall_links hconnection link, ?_⟩,
    fun request reader' d' hf => ?_⟩
  · refine h.owned.update more.length_le hothers fun n hn => next n ?_
    exact (Progress.sent.inj (Client.place?_setProgress hn)).2
  · by_cases hne : d' = d
    · subst hne
      obtain ⟨rfl, -, rfl⟩ := hf.of_waiting hd
      refine ⟨.sent k handle, ?_, stands⟩
      rw [Client.getElem?_setProgress, if_pos rfl]
      simp [Client.modifyConnection, hd]
    · exact hf.keep more (hothers d' hne)

/-- A request becomes the next call on the connection, unless every number is
taken there. -/
theorem Tuned.register (h : Tuned g k settings made ⟨c, x⟩) {d : DispatchId} {reader : ReplyReader}
    {w : Waiting} {near : Connection} (hd : c.dispatches[d]? = some ⟨reader, .waiting w⟩)
    (hk : c.connections[k]? = some near) (up : near.handshake ≠ .failed) :
    let request := w.request.defaultTransport Headers.schemeKey Scheme.raw.tag
    let c' := (c.modifyConnection k (·.handle (.expect c.now request))).setProgress d
      (.sent k (near.calls.expect c.now request).2)
    ∃ made', GoesOn g k settings made ⟨c, x⟩ made' ⟨c', x⟩ := by
  intro request c'
  have htune := h.link near (.inl hk)
  rcases htune.expect up c.now request with ⟨hsame, hhandle, hmany⟩ | ⟨id, hhandle, hmade⟩
  · refine ⟨made, h.sent hd hk List.prefix_rfl (by rwa [hsame]) (fun n hn => ?_)
      ⟨rfl, .inl ⟨hhandle, hmany⟩⟩⟩
    cases hhandle.symm.trans hn
  · refine ⟨_, h.sent hd hk (List.prefix_append _ _) hmade (fun n hn => ?_)
      ⟨rfl, .inr ⟨made.length, id, hhandle, List.getElem?_concat_length⟩⟩⟩
    have hn : made.length = n := Handle.waiting.inj (hhandle.symm.trans hn)
    simp [hn]

/-- A request looks at its connection. -/
theorem Tuned.resume (h : Tuned g k settings made ⟨c, x⟩) (d : DispatchId)
    (up : LinkUp k ⟨c.resume d, x⟩) :
    ∃ made', GoesOn g k settings made ⟨c, x⟩ made' ⟨c.resume d, x⟩ := by
  have hothers : ∀ d', d' ≠ d → (c.resume d).dispatches[d']? = c.dispatches[d']? :=
    fun d' hne => c.resume_other hne
  rcases c.resume_cases d with he | ⟨reader, w, near, hd, hk, he⟩ | ⟨reader, w, near, hd, hk, he⟩
  · rw [he]
    exact ⟨made, .refl h⟩
  · have hne : w.connection ≠ k := by
      rintro rfl
      have hgiven : (c.resume d).connections[w.connection]? = some near.clean := by
        rw [he]
        simp [Client.giveUp, Client.setProgress, Client.clean, Client.getElem?_modifyConnection, hk]
      refine up near.clean hgiven ?_
      by_contra hup
      have husable := ((h.link near (.inl hk)).sound.handle .clean).isUsable_iff.2 hup
      simp [Connection.handle, near.clean_unusable] at husable
    have hsame : (c.giveUp d w).connections[k]? = c.connections[k]? := by
      simp [Client.giveUp, Client.setProgress, Client.clean, Client.getElem?_modifyConnection, hne]
    rw [he] at hothers ⊢
    exact ⟨made, h.aside hsame rfl hothers (fun n hn => by cases Client.place?_setProgress hn)
      fun request reader' hf => absurd (hf.of_waiting hd).2.1 hne⟩
  · by_cases hw : w.connection = k
    · rw [hw] at hk he
      have hbefore : LinkUp k ⟨c, x⟩ :=
        .before (Client.resume_moves (e := .resume d) trivial c d) up
      rw [he]
      exact h.register hd hk (hbefore near hk)
    · have hsame : (c.resume d).connections[k]? = c.connections[k]? := by
        rw [he]
        simp [Client.setProgress, Client.getElem?_modifyConnection, hw]
      rw [he] at hothers hsame ⊢
      exact ⟨made, h.aside hsame rfl hothers
        (fun n hn => hw (Progress.sent.inj (Client.place?_setProgress hn)).1)
        fun request reader' hf => absurd (hf.of_waiting hd).2.1 hw⟩

/-- A request is dispatched. If it is to go to the connection, it stands as it
should. -/
theorem Tuned.dispatch (h : Tuned g k settings made ⟨c, x⟩) {i : ServiceId} {out : Outgoing}
    {target : Option Address} {start : Nat} {d : DispatchId}
    (hd : c.dispatch i out target start = .ok (c', d)) (up : LinkUp k ⟨c', x⟩) :
    ∃ made', GoesOn g k settings made ⟨c, x⟩ made' ⟨c', x⟩ ∧
      ∀ c₁, c.route i target start = .ok (c₁, k) → ∃ service request reader,
        c.services[i]? = some service ∧ service.prepare out = .ok (request, reader) ∧
          c'.Follows k settings.requestTimeout request reader made' d := by
  obtain ⟨service, request, reader, c₁, j, hs, hprepare, hroute, hlength, rfl⟩ :=
    Client.dispatch_ok hd
  generalize hw :
    (⟨j, request, service.initTimeout, service.initTimeout.after c₁.now⟩ : Waiting) = w at up ⊢
  have hrouted : Moves (.connect i start) c c₁ := Client.route_moves hroute
  have hupAsked : LinkUp k ⟨{ c₁ with dispatches := c₁.dispatches ++ [⟨reader, .waiting w⟩] }, x⟩ :=
    .before (Client.resume_moves (e := .resume d) trivial _ d) up
  obtain ⟨made₁, hmoved⟩ := h.moves hrouted id (fun event heq => by cases heq)
    (fun heq => by cases heq) hupAsked
  have hasked := hmoved.tuned.ask reader w
  obtain ⟨made₂, hresumed⟩ := hasked.tuned.resume d up
  refine ⟨made₂, (hmoved.trans hasked).trans hresumed, fun c₂ hk => ?_⟩
  obtain ⟨-, rfl⟩ := Prod.mk.inj (Except.ok.inj (hroute.symm.trans hk))
  refine ⟨service, request, reader, hs, hprepare, hresumed.follows request reader d ?_⟩
  refine ⟨.waiting w, ?_, hw ▸ ⟨rfl, rfl⟩⟩
  rw [← hlength, List.getElem?_concat_length]

/-- Anything happens to the client, but no bytes move on the connection and none
of its calls runs out of time. -/
theorem Tuned.client (h : Tuned g k settings made ⟨c, x⟩) (e : Event)
    (still : ∀ event, e = .stream k event → event.movesBytes = false)
    (inTime : e = .expire → ∀ near, c.connections[k]? = some near →
      ∀ timer ∈ near.calls.timers, c.now < timer.due)
    (fits : ∀ near, c.connections[k]? = some near → near.FramesFit)
    (up : LinkUp k ⟨c.handle e, x⟩) :
    ∃ made', GoesOn g k settings made ⟨c, x⟩ made' ⟨c.handle e, x⟩ := by
  by_cases isRequest : e.IsRequest
  · cases e with
    | dispatch i out target start =>
      simp only [Client.handle, Client.orSame] at up ⊢
      split at up
      · next c' d hd =>
        obtain ⟨made', hgoes, -⟩ := h.dispatch hd up
        exact ⟨made', hgoes⟩
      · exact ⟨made, .refl h⟩
    | resume d => exact h.resume d up
    | abandon d => exact ⟨made, h.abandon d⟩
    | _ => exact absurd isRequest id
  · by_cases stream : ∃ event, e = .stream k event
    · obtain ⟨event, rfl⟩ := stream
      exact h.stream (still event rfl) fits up
    · by_cases expire : e = .expire
      · subst expire
        exact h.expire (inTime rfl) up
      · exact h.moves (c.handle_moves e) isRequest (fun event heq => stream ⟨event, heq⟩) expire up

/-! ## Steps -/

/-- A link that is up was up before a step. -/
theorem Step.before (m : Step g k s s') (up : LinkUp k s') : LinkUp k s := by
  cases m with
  | client e still inTime fits => exact .before (s.client.handle_moves e) up
  | write near hk count => exact .before (s.client.handle_moves (.stream k (.wrote count))) up
  | read near hk reading count enough unrelated =>
    exact .before (s.client.handle_moves (.stream k (.arrived (s.far.down.take count)))) up
  | hear => exact up
  | answer place call payload heard fresh form fits => exact up
  | say frame payload form fits => exact up

/-- While the link stays up, all goes on as it should. -/
theorem Tuned.step (h : Tuned g k settings made s) (m : Step g k s s') (up : LinkUp k s') :
    ∃ made', GoesOn g k settings made s made' s' := by
  cases m with
  | client e still inTime fits => exact h.client e still inTime fits up
  | write near hk count =>
    exact ⟨made, h.linked List.prefix_rfl hk ((h.link near (.inl hk)).wrote count)⟩
  | hear =>
    exact ⟨made, h.next List.prefix_rfl rfl rfl fun near hnear => (h.link near hnear).hear⟩
  | answer place call payload heard fresh form fits =>
    exact ⟨made, h.next List.prefix_rfl rfl rfl fun near hnear =>
      (h.link near hnear).answer heard fresh form fits⟩
  | say frame payload form fits =>
    exact ⟨made, h.next List.prefix_rfl rfl rfl fun near hnear => (h.link near hnear).say form fits⟩
  | read near hk reading count enough unrelated =>
    obtain ⟨inp, hinp⟩ := near.reader?_of_reading reading
    have hup : (near.arrived (s.far.down.take count)).1.handshake ≠ .failed :=
      up _ (by simp [Client.handle, Client.ofStream, Client.getElem?_modifyConnection, hk,
        Connection.handle])
    exact ⟨made, h.linked List.prefix_rfl hk
      ((h.link near (.inl hk)).arrived hinp enough unrelated hup).1⟩

theorem Tuned.steps (h : Tuned g k settings made s) (m : Steps g k s s') (up : LinkUp k s') :
    ∃ made', GoesOn g k settings made s made' s' := by
  induction m with
  | refl => exact ⟨made, .refl h⟩
  | tail _ last ih =>
    obtain ⟨made₁, hgoes⟩ := ih (last.before up)
    obtain ⟨made₂, hlast⟩ := hgoes.tuned.step last up
    exact ⟨made₂, hgoes.trans hlast⟩

theorem Steps.before (m : Steps g k s s') (up : LinkUp k s') : LinkUp k s := by
  induction m with
  | refl => exact up
  | tail _ last ih => exact ih (last.before up)

theorem Reachable.tuned (h : Reachable g k settings codecs s) (up : LinkUp k s) :
    ∃ made, Tuned g k settings made s := by
  induction h with
  | start => exact ⟨[], .start⟩
  | step _ m ih =>
    obtain ⟨made, htuned⟩ := ih (m.before up)
    obtain ⟨made', hgoes⟩ := htuned.step m up
    exact ⟨made', hgoes.tuned⟩

/-! ## Answers -/

/-- Nothing is left to be done: no request waits for the connection, nothing is
queued or on its way, and all that was heard is answered. -/
structure Finished (k : ConnectionId) (s : Conversation) : Prop where
  waiting : ∀ d, s.client.isWaiting d = false
  queue : ∀ near, s.client.connections[k]? = some near → near.calls.queue.getD [] = []
  offer : ∀ near, s.client.connections[k]? = some near → near.offer = []
  up : s.far.up = []
  answered : ∀ place < s.far.heard.length, place ∈ s.far.answered
  mail : s.far.mail = []

/-- A request has become a call of its own, whose answer is what it gets. -/
structure Called (g : Answerer) (k : ConnectionId) (s : Conversation) (d : DispatchId) (n : Ticket)
    (call : Call) (expected : Response Bytes → Outcome Body) : Prop where
  place : s.client.place? k d = some n
  /-- No other request has become this call. -/
  alone : ∀ d', s.client.place? k d' = some n → d' = d
  heard : ∀ other, s.far.heard[n]? = some other → other = call
  delivered : s.far.Delivered n → s.client.outcome? d = some (expected (g call))
  before : ¬ s.far.Delivered n → s.client.outcome? d = none
  finished : s.Finished k → s.far.Delivered n

/-- Calls are made only where there is a connection. -/
theorem Tuned.opened (h : Tuned g k settings made s) {n : Nat} (hn : n < made.length) :
    ∃ near, s.client.connections[k]? = some near := by
  cases hk : s.client.connections[k]? with
  | some near => exact ⟨near, rfl⟩
  | none =>
    have hissued := (h.link _ (.inr ⟨hk, .v4 0 0 0 0 0, rfl⟩)).ledger.issued
    simp only [Connection.dial] at hissued
    omega

theorem Tuned.called (h : Tuned g k settings made s) {d : DispatchId} {reader : ReplyReader}
    {n : Ticket} {call : Call} {expected : Response Bytes → Outcome Body}
    (hd : s.client.dispatches[d]? = some ⟨reader, .sent k (.waiting n)⟩)
    (hcall : made[n]? = some call)
    (reads : ∀ response, reader.read (.ok response) = expected response) :
    Called g k s d n call expected := by
  have hlt : n < made.length := (List.getElem?_eq_some_iff.1 hcall).1
  have hplace : s.client.place? k d = some n := by simp [Client.place?, hd, Progress.place?]
  obtain ⟨near, hk⟩ := h.opened hlt
  have htune := h.link near (.inl hk)
  have houtcome : s.client.outcome? d = (near.calls.outcome? (.waiting n)).map reader.read := by
    simp only [Client.outcome?, hd, hk, Option.bind_some]
  obtain ⟨hdelivered, hbefore⟩ := htune.ledger.outcome?_eq htune.sound.calls hcall
  refine ⟨hplace, fun d' hd' => h.owned.once d' d n hd' hplace, fun other hother => ?_, ?_, ?_, ?_⟩
  · obtain ⟨rest, rfl⟩ := htune.upward.heard_prefix
    rw [List.getElem?_append_left (List.getElem?_eq_some_iff.1 hother).1, hother] at hcall
    exact Option.some.inj hcall
  · intro hd
    rw [houtcome, hdelivered hd, Option.map_some, reads]
  · intro hd
    rw [houtcome, hbefore hd, Option.map_none]
  · intro hfinished
    have hupward := htune.upward
    obtain ⟨_, _, _, hqueue, -⟩ := hupward.stages
    have hempty : near.calls.queue = some [] := by simpa [hqueue] using hfinished.queue near hk
    rw [hempty, hfinished.offer near hk] at hupward
    have hall : made = s.far.heard := hupward.all_heard hfinished.up
    exact ⟨hfinished.answered n (hall ▸ hlt), by simp [hfinished.mail]⟩

/-- **Every request gets the answer to its own call.** A request is dispatched
on a connection, through whichever service and in whatever shape. Then both
sides go on in any order, with any other requests, while the link stays up.
Either the request has no outcome, since it waits for the connection, or its
caller has gone, or as many calls were made as there are numbers. Or it became a
call that no other request became, and which is the one that the other side
hears in its place. Its outcome is then what was to be expected of the answer to
just this call, from when this was read and not before; and this was read when
nothing is left to be done. No call is ended twice. -/
theorem answered_by_own_call (h : Reachable g k settings codecs s) {i : ServiceId} {out : Outgoing}
    {target : Option Address} {start : Nat} {c₁ : Client} {d : DispatchId}
    (route : s.client.route i target start = .ok (c₁, k))
    (dispatched : s.client.dispatch i out target start = .ok (c, d))
    (later : Steps g k ⟨c, s.far⟩ s') (up : LinkUp k s') :
    (∃ service request reader, s.client.services[i]? = some service ∧
      service.prepare out = .ok (request, reader) ∧
      ((s'.client.outcome? d = none ∧
        (s'.client.isWaiting d = true ∨
          s'.client.dispatches[d]? = some ⟨reader, .abandoned⟩ ∨
          s'.client.dispatches[d]? = some ⟨reader, .sent k .searching⟩ ∧
            ∃ near, s'.client.connections[k]? = some near ∧ UInt32.size ≤ near.calls.issued)) ∨
        ∃ n id, Called g k s' d n (request.called settings.requestTimeout id)
          (service.expected out))) ∧
    ∀ near, s'.client.connections[k]? = some near → (near.calls.settled.map (·.1)).Nodup := by
  have hup : LinkUp k ⟨c, s.far⟩ := later.before up
  have hupBefore : LinkUp k s :=
    .before (Client.dispatch_moves (e := .dispatch i out target start) trivial dispatched) hup
  obtain ⟨made₁, htuned⟩ := h.tuned hupBefore
  obtain ⟨made₂, hasked, hstands⟩ := htuned.dispatch dispatched hup
  obtain ⟨service, request, reader, hservice, hprepare, hfollows⟩ := hstands c₁ route
  obtain ⟨made, hgoes⟩ := hasked.tuned.steps later up
  obtain ⟨progress, hd, hprogress⟩ := hgoes.follows request reader d hfollows
  have hsettled : ∀ near, s'.client.connections[k]? = some near →
      (near.calls.settled.map (·.1)).Nodup := fun near hk =>
    (List.nodup_append.1 (hgoes.tuned.link near (.inl hk)).sound.calls.tickets).2.1
  refine ⟨⟨service, request, reader, hservice, hprepare, ?_⟩, hsettled⟩
  cases progress with
  | waiting w => exact .inl ⟨by simp [Client.outcome?, hd], .inl (by simp [Client.isWaiting, hd])⟩
  | failed error => exact absurd hprogress id
  | abandoned => exact .inl ⟨by simp [Client.outcome?, hd], .inr (.inl hd)⟩
  | sent j handle =>
    obtain ⟨rfl, ⟨rfl, hmany⟩ | ⟨n, id, rfl, hcall⟩⟩ := hprogress
    · have hsome : 0 < made.length := Nat.lt_of_lt_of_le (by decide) hmany
      obtain ⟨near, hk⟩ := hgoes.tuned.opened hsome
      have hissued := (hgoes.tuned.link near (.inl hk)).ledger.issued
      refine .inl ⟨?_, .inr (.inr ⟨hd, near, hk, hissued ▸ hmany⟩)⟩
      simp [Client.outcome?, hd, hk, CallTable.outcome?]
    · exact .inr ⟨n, id, hgoes.tuned.called hd hcall (Service.read_eq_expected hprepare)⟩

/-- Two requests share a connection, and the second one is answered first. The
first one, with a text for its body, gets the answer to its own call. -/
theorem answered_behind_another :
    let address : Address := .v4 127 0 0 1 4040
    let backwards : Answerer := fun call => { body := call.body.reverse }
    let text : Request Body := { service := "bank", endpoint := "name", body := ⟨.text, "abc"⟩ }
    let bytes : Request Bytes := { service := "bank", endpoint := "sum", body := [1, 2] }
    let out : Outgoing := .encoded text .json .text
    let s := (start {} {}).play backwards 0 [.client (.service "bank" .outbound)]
    let c := s.client.handle (.dispatch 0 out (some address) 0)
    let s' := play backwards 0 ⟨c, s.far⟩ (
      [.client (.dispatch 0 (.raw bytes) (some address) 0), .client (.stream 0 .dialled), .write] ++
      List.replicate 60 .hear ++ [.say (.initResponse { hostPort := "", processName := "" })] ++
      List.replicate 30 .read ++ [.client (.resume 0), .client (.resume 1)] ++
      [.client (.stream 0 .load), .write, .client (.stream 0 .load), .write] ++
      List.replicate 220 .hear ++ [.answer 1, .answer 0] ++ List.replicate 90 .read)
    s'.far.answered = [1, 0] ∧ ∃ service request reader, s.client.services[0]? = some service ∧
      service.prepare out = .ok (request, reader) ∧ ∃ n id,
        Called backwards 0 s' 0 n (request.called ({} : Settings).requestTimeout id)
          (service.expected out) := by
  intro address backwards text bytes out s c s'
  have hreach : Reachable backwards 0 {} {} s := .steps .start (play_steps _ _ _ _)
  have hplace : (s.client.findOrOpen address).2 = 0 ∧
      (s.client.dispatch 0 out (some address) 0).toOption.map (·.2) = some 0 := by
    decide +kernel
  have hroute : s.client.route 0 (some address) 0 = .ok ((s.client.findOrOpen address).1, 0) := by
    rw [← hplace.1]
    rfl
  have hdispatch : s.client.dispatch 0 out (some address) 0 = .ok (c, 0) := by
    cases h : s.client.dispatch 0 out (some address) 0 with
    | error error => simp [h, Except.toOption] at hplace
    | ok result =>
      have hd : result.2 = 0 := by simpa [h, Except.toOption] using hplace.2
      have hc : result.1 = c := by simp [c, Client.handle, h, Client.orSame]
      rw [← hc, ← hd]
  have hends : ((s'.client.connections[(0 : ConnectionId)]?).all (·.handshake != .failed) &&
      (s'.client.outcome? 0).isSome && s'.far.answered == [1, 0]) = true := by
    decide +kernel
  have hlater : Steps backwards 0 ⟨c, s.far⟩ s' := play_steps _ _ _ _
  clear_value s'
  simp only [Bool.and_eq_true, Option.all_eq_true, bne_iff_ne, beq_iff_eq] at hends
  obtain ⟨⟨hup, houtcome⟩, hanswered⟩ := hends
  obtain ⟨⟨service, request, reader, hservice, hprepare, hnone | hcalled⟩, -⟩ :=
    answered_by_own_call hreach hroute hdispatch hlater hup
  · simp [hnone.1] at houtcome
  · exact ⟨hanswered, service, request, reader, hservice, hprepare, hcalled⟩

end Conversation

end RpcClient
