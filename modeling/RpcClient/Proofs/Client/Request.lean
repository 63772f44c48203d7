/-
How a request goes on (`Follows`): it waits for its connection, and becomes the
next call there, unless its caller has gone before. Of the events only those in
the course of a request change how one stands (`Moves.dispatches`), each of
them one request only, and no two requests become the same call (`Owned`).
-/
import RpcClient.Proofs.Client.Shared

namespace RpcClient

/-- The call that a request becomes under a number, on a connection where calls
usually wait so long. -/
def Request.called (request : Request Bytes) (usual : Duration) (id : UInt32) : Call :=
  (request.defaultTransport Headers.schemeKey Scheme.raw.tag).toCall id
    (request.effectiveTimeout usual)

namespace Client

variable {c c' : Client} {e : Event} {k : ConnectionId}

/-! ## A connection, opened or not -/

/-- What a connection is, or will be at first once it is opened. -/
def Links (c : Client) (k : ConnectionId) (near : Connection) : Prop :=
  c.connections[k]? = some near ∨
    c.connections[k]? = none ∧ ∃ address, near = .dial address c.connectionSettings

theorem links_of_some {near near' : Connection} (hk : c.connections[k]? = some near)
    (h : c.Links k near') : near' = near := by
  rcases h with hsome | ⟨hnone, -⟩
  · exact Option.some.inj (hsome.symm.trans hk)
  · cases hnone.symm.trans hk

theorem forall_links {P : Connection → Prop} {near : Connection}
    (hk : c.connections[k]? = some near) (h : P near) : ∀ other, c.Links k other → P other := by
  intro other hother
  rwa [links_of_some hk hother]

theorem Links.congr {near : Connection} (h : c'.Links k near)
    (same : c'.connections[k]? = c.connections[k]?) (settings : c'.settings = c.settings) :
    c.Links k near := by
  rw [Links, same, connectionSettings, settings] at h
  exact h

theorem Move.settings (m : Move e c c') : c'.settings = c.settings := by
  cases m <;> rfl

theorem Moves.settings (m : Moves e c c') : c'.settings = c.settings := by
  induction m with
  | refl => rfl
  | tail _ last ih => exact last.settings.trans ih

theorem Move.links (m : Move e c c') {near' : Connection} (h : c'.Links k near') :
    ∃ near events, c.Links k near ∧ near.run events = near' ∧
      ∀ event ∈ events, e.Causes k event := by
  cases hk : c.connections[k]? with
  | some near =>
    obtain ⟨events, hrun, hcauses⟩ := m.connection_run hk
    exact ⟨near, events, .inl hk, (links_of_some hrun h).symm, hcauses⟩
  | none =>
    refine ⟨near', [], .inr ⟨hk, ?_⟩, rfl, by simp⟩
    rcases h with hsome | ⟨-, address, rfl⟩
    · rcases m.connection_cases hsome with ⟨_, _, hold, -⟩ | ⟨address, -, -, -, hdial⟩
      · cases hk.symm.trans hold
      · exact ⟨address, hdial⟩
    · exact ⟨address, by simp only [connectionSettings, m.settings]⟩

theorem Moves.links (m : Moves e c c') {near' : Connection} (h : c'.Links k near') :
    ∃ near events, c.Links k near ∧ near.run events = near' ∧
      ∀ event ∈ events, e.Causes k event := by
  induction m generalizing near' with
  | refl => exact ⟨near', [], h, rfl, by simp⟩
  | tail _ last ih =>
    obtain ⟨near₁, more, hlinks₁, rfl, hcausesMore⟩ := last.links h
    obtain ⟨near, events, hlinks, rfl, hcauses⟩ := ih hlinks₁
    refine ⟨near, events ++ more, hlinks, by simp [Connection.run], fun event hevent => ?_⟩
    rcases List.mem_append.1 hevent with hold | hnew
    · exact hcauses event hold
    · exact hcausesMore event hnew

/-- What is not opened later is not opened now. -/
theorem Moves.not_opened (m : Moves e c c') (h : c'.connections[k]? = none) :
    c.connections[k]? = none := by
  cases hk : c.connections[k]? with
  | none => rfl
  | some near =>
    obtain ⟨events, hrun, -⟩ := m.connection_run hk
    cases h.symm.trans hrun

/-- Most events cause a connection only to take a call or to be given up. -/
theorem Event.Causes.plain {event : Connection.Event} (h : e.Causes k event)
    (stream : ∀ event, e ≠ .stream k event) (expire : e ≠ .expire) :
    (∃ now request, event = .expect now request) ∨ event = .clean := by
  cases event with
  | expect now request => exact .inl ⟨now, request, rfl⟩
  | clean => exact .inr rfl
  | expire now => exact absurd h expire
  | _ => exact absurd h (stream _)

/-! ## How requests stand -/

theorem Moves.dispatches (m : Moves e c c') (h : ¬ e.IsRequest) :
    c'.dispatches = c.dispatches := by
  induction m with
  | refl => rfl
  | tail _ last ih =>
    refine Eq.trans ?_ ih
    cases last with
    | requests dispatches isRequest => exact absurd isRequest h
    | _ => rfl

theorem getElem?_setProgress (c : Client) (d d' : DispatchId) (progress : Progress) :
    (c.setProgress d progress).dispatches[d']? =
      if d = d' then (c.dispatches[d']?).map ({ · with progress }) else c.dispatches[d']? := by
  simp only [setProgress, List.getElem?_modify]
  split <;> simp

/-- A request that looks at its connection goes on as it was, gives the
connection up, or becomes a call there. -/
theorem resume_cases (c : Client) (d : DispatchId) :
    c.resume d = c ∨
    (∃ reader w near, c.dispatches[d]? = some ⟨reader, .waiting w⟩ ∧
      c.connections[w.connection]? = some near ∧ c.resume d = c.giveUp d w) ∨
    (∃ reader w near, c.dispatches[d]? = some ⟨reader, .waiting w⟩ ∧
      c.connections[w.connection]? = some near ∧
      let request := w.request.defaultTransport Headers.schemeKey Scheme.raw.tag
      c.resume d = (c.modifyConnection w.connection (·.handle (.expect c.now request))).setProgress
        d (.sent w.connection (near.calls.expect c.now request).2)) := by
  unfold resume
  split
  · next reader w hd =>
    cases hk : c.connections[w.connection]? with
    | none => exact .inl rfl
    | some near =>
      cases hstate : near.handshake with
      | pending =>
        simp only [Option.map_some, hstate]
        split
        · exact .inr (.inl ⟨reader, w, near, hd, hk, rfl⟩)
        · exact .inl rfl
      | identified =>
        refine .inr (.inr ⟨reader, w, near, hd, hk, ?_⟩)
        simp only [Option.map_some, hstate, register, expect_of_some hk]
      | failed =>
        simp only [Option.map_some, hstate]
        exact .inr (.inl ⟨reader, w, near, hd, hk, rfl⟩)
  · exact .inl rfl

/-- No other request is touched. -/
theorem resume_other (c : Client) {d d' : DispatchId} (h : d' ≠ d) :
    (c.resume d).dispatches[d']? = c.dispatches[d']? := by
  rcases c.resume_cases d with he | ⟨_, w, near, -, -, he⟩ | ⟨_, w, near, -, -, he⟩
  · rw [he]
  · rw [he, giveUp, getElem?_setProgress, if_neg (Ne.symm h)]
    rfl
  · rw [he, getElem?_setProgress, if_neg (Ne.symm h)]
    rfl

theorem abandon_cases (c : Client) (d : DispatchId) :
    c.abandon d = c ∨
    ∃ reader w, c.dispatches[d]? = some ⟨reader, .waiting w⟩ ∧
      c.abandon d = c.setProgress d .abandoned := by
  unfold abandon
  split
  · next reader w hd => exact .inr ⟨reader, w, hd, rfl⟩
  · exact .inl rfl

end Client

/-! ## Requests and their calls -/

/-- The place of the call that a request has become on a connection. -/
def Progress.place? (k : ConnectionId) : Progress → Option Ticket
  | .sent i (.waiting n) => if i = k then some n else none
  | _ => none

theorem Progress.place?_eq_some {k : ConnectionId} {progress : Progress} {n : Ticket} :
    progress.place? k = some n ↔ progress = .sent k (.waiting n) := by
  constructor
  · intro h
    unfold place? at h
    split at h
    · split at h
      · next hi =>
        obtain rfl := Option.some.inj h
        rw [hi]
      · cases h
    · cases h
  · rintro rfl
    simp [place?]

/-- The connection that a request waits for. -/
def Progress.awaits? : Progress → Option ConnectionId
  | .waiting w => some w.connection
  | _ => none

theorem Progress.awaits?_eq_some {k : ConnectionId} {progress : Progress} :
    progress.awaits? = some k ↔ ∃ w, progress = .waiting w ∧ w.connection = k := by
  cases progress <;> simp [awaits?]

/-- How a request stands that is to go to a connection, after some calls were
made there. -/
def Progress.Stands (k : ConnectionId) (usual : Duration) (request : Request Bytes)
    (made : List Call) : Progress → Prop
  | .waiting w => w.connection = k ∧ w.request = request
  | .failed _ => False
  | .sent i handle => i = k ∧
    (handle = .searching ∧ UInt32.size ≤ made.length ∨
      ∃ n id, handle = .waiting n ∧ made[n]? = some (request.called usual id))
  | .abandoned => True

namespace Client

/-- The place of the call that a request has become on a connection. -/
def place? (c : Client) (k : ConnectionId) (d : DispatchId) : Option Ticket :=
  c.dispatches[d]?.bind fun entry => entry.progress.place? k

/-- The connection that a request waits for. -/
def awaits? (c : Client) (d : DispatchId) : Option ConnectionId :=
  c.dispatches[d]?.bind fun entry => entry.progress.awaits?

theorem awaits?_eq_some {c : Client} {d : DispatchId} {k : ConnectionId} :
    c.awaits? d = some k ↔
      ∃ reader w, c.dispatches[d]? = some ⟨reader, .waiting w⟩ ∧ w.connection = k := by
  simp only [awaits?, Option.bind_eq_some_iff, Progress.awaits?_eq_some]
  constructor
  · rintro ⟨⟨reader, progress⟩, hd, w, rfl, hw⟩
    exact ⟨reader, w, hd, hw⟩
  · rintro ⟨reader, w, hd, hw⟩
    exact ⟨_, hd, w, rfl, hw⟩

/-- The error with which a request has ended. -/
def failure? (c : Client) (d : DispatchId) : Option Error :=
  match c.outcome? d with
  | some (.error error) => some error
  | _ => none

theorem failure?_eq_some {c : Client} {d : DispatchId} {error : Error} :
    c.failure? d = some error ↔ c.outcome? d = some (.error error) := by
  unfold failure?
  split
  · next cause houtcome => simp [houtcome]
  · next hother => simpa using hother error

/-- A request stands so that its answer will be read in the right way. -/
def Follows (c : Client) (k : ConnectionId) (usual : Duration) (request : Request Bytes)
    (reader : ReplyReader) (made : List Call) (d : DispatchId) : Prop :=
  ∃ progress, c.dispatches[d]? = some ⟨reader, progress⟩ ∧ progress.Stands k usual request made

/-- The requests that became calls did so each by itself. -/
structure Owned (c : Client) (k : ConnectionId) (count : Nat) : Prop where
  below : ∀ d n, c.place? k d = some n → n < count
  once : ∀ d d' n, c.place? k d = some n → c.place? k d' = some n → d = d'

theorem place?_setProgress {c : Client} {k : ConnectionId} {d : DispatchId} {progress : Progress}
    {n : Ticket} (h : (c.setProgress d progress).place? k d = some n) :
    progress = .sent k (.waiting n) := by
  rw [← Progress.place?_eq_some]
  simp only [place?, getElem?_setProgress, if_true] at h
  cases hd : c.dispatches[d]? with
  | none => simp [hd] at h
  | some entry => simpa [hd] using h

variable {c c' : Client} {k : ConnectionId} {usual : Duration} {request : Request Bytes}
  {reader : ReplyReader} {made made' : List Call} {d : DispatchId} {count count' : Nat}

theorem Follows.keep (h : c.Follows k usual request reader made d) (more : made <+: made')
    (same : c'.dispatches[d]? = c.dispatches[d]?) :
    c'.Follows k usual request reader made' d := by
  obtain ⟨progress, hd, hstands⟩ := h
  refine ⟨progress, same.trans hd, ?_⟩
  cases progress with
  | waiting w => exact hstands
  | failed error => exact hstands
  | abandoned => exact hstands
  | sent i handle =>
    obtain ⟨hi, hmany | ⟨n, id, hhandle, hcall⟩⟩ := hstands
    · exact ⟨hi, .inl ⟨hmany.1, Nat.le_trans hmany.2 more.length_le⟩⟩
    · obtain ⟨rest, rfl⟩ := more
      refine ⟨hi, .inr ⟨n, id, hhandle, ?_⟩⟩
      rw [List.getElem?_append_left (List.getElem?_eq_some_iff.1 hcall).1, hcall]

theorem Owned.keep (h : c.Owned k count) (more : count ≤ count')
    (same : c'.dispatches = c.dispatches) : c'.Owned k count' := by
  have hplace : ∀ d, c'.place? k d = c.place? k d := fun d => by simp only [place?, same]
  constructor
  · intro d n hn
    rw [hplace] at hn
    exact Nat.lt_of_lt_of_le (h.below d n hn) more
  · intro d d' n hn hn'
    rw [hplace] at hn hn'
    exact h.once d d' n hn hn'

/-- A request that still waits does so for the connection that it is to go to. -/
theorem Follows.of_waiting {reader' : ReplyReader} {w : Waiting}
    (h : c.Follows k usual request reader made d)
    (hd : c.dispatches[d]? = some ⟨reader', .waiting w⟩) :
    reader = reader' ∧ w.connection = k ∧ w.request = request := by
  obtain ⟨progress, hprogress, hstands⟩ := h
  obtain ⟨rfl, rfl⟩ := Dispatch.mk.inj (Option.some.inj (hprogress.symm.trans hd))
  exact ⟨rfl, hstands⟩

/-- One request goes on; if it becomes a call, this is the next one. -/
theorem Owned.update (h : c.Owned k count) (more : count ≤ count')
    (others : ∀ d', d' ≠ d → c'.dispatches[d']? = c.dispatches[d']?)
    (own : ∀ n, c'.place? k d = some n → n = count ∧ count < count') : c'.Owned k count' := by
  have hplace : ∀ d', d' ≠ d → c'.place? k d' = c.place? k d' := fun d' hne => by
    simp only [place?, others d' hne]
  have hbelow : ∀ d' n, d' ≠ d → c'.place? k d' = some n → n < count := by
    intro d' n hne hn
    rw [hplace d' hne] at hn
    exact h.below d' n hn
  constructor
  · intro d' n hn
    by_cases hd : d' = d
    · subst hd
      obtain ⟨rfl, hlt⟩ := own n hn
      exact hlt
    · exact Nat.lt_of_lt_of_le (hbelow d' n hd hn) more
  · intro d₁ d₂ n hn₁ hn₂
    by_cases hd₁ : d₁ = d <;> by_cases hd₂ : d₂ = d
    · exact hd₁.trans hd₂.symm
    · subst hd₁
      obtain ⟨rfl, -⟩ := own n hn₁
      exact absurd (hbelow d₂ n hd₂ hn₂) (Nat.lt_irrefl n)
    · subst hd₂
      obtain ⟨rfl, -⟩ := own n hn₂
      exact absurd (hbelow d₁ n hd₁ hn₁) (Nat.lt_irrefl n)
    · rw [hplace d₁ hd₁] at hn₁
      rw [hplace d₂ hd₂] at hn₂
      exact h.once d₁ d₂ n hn₁ hn₂

/-! ## A request, and its connection -/

/-- A balance that a caller asks for. -/
def balanceRequest : Request Bytes := { service := "ledger", endpoint := "balance", body := [7] }

/-- The other side introduces itself on the first connection, and the first request looks
there. -/
def introduction : List Event :=
  [.stream 0 .dialled, .stream 0 (.wrote 1000),
    .stream 0 (.arrived (Connection.frameBytes
      (.initResponse { hostPort := "127.0.0.1:4040", processName := "bank" }))),
    .resume 0]

end Client

end RpcClient
