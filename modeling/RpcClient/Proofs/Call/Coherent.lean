/-
What holds of a table of calls between any two operations (`Coherent`): no
two waiting calls share a number, each has one timer, every ticket that was
given out stands once, with a call that waits or with one that has ended, and
a closed table has no call.

`Step` says once what an operation does to a table; whatever every step keeps
holds of every table that is come to (`Reachable.coherent`). Of what has ended
nothing is ever taken back (`Step.settled_suffix`), so a handle that has an
outcome keeps it (`Steps.outcome?_eq`).
-/
import Mathlib.Data.List.Nodup
import Mathlib.Data.List.Perm.Basic
import Mathlib.Logic.Relation
import RpcClient.Call.Event
import RpcClient.Proofs.Dict

namespace RpcClient.CallTable

/-! ## Numbers -/

theorem isPending_eq_false {t : CallTable} {id : UInt32} :
    t.isPending id = false ↔ id ∉ t.pending.map (·.id) := by
  simp only [isPending, List.any_eq_false, beq_iff_eq, List.mem_map, not_exists, not_and]

theorem isPending_iff {t : CallTable} {id : UInt32} :
    t.isPending id = true ↔ ∃ call ∈ t.pending, call.id = id := by
  simp only [isPending, List.any_eq_true, beq_iff_eq]

theorem freeFrom?_free {t : CallTable} {tries : Nat} {id free : UInt32}
    (h : t.freeFrom? tries id = some free) : t.isPending free = false := by
  induction tries generalizing id with
  | zero => simp [freeFrom?] at h
  | succ tries ih =>
    simp only [freeFrom?] at h
    split at h
    · exact ih h
    · next hfree =>
      cases h
      simpa using hfree

/-- The number of the next call is not taken. -/
theorem freeId?_free {t : CallTable} {id : UInt32} (h : t.freeId? = some id) :
    t.isPending id = false := freeFrom?_free h

theorem freeFrom?_eq_none {t : CallTable} {tries : Nat} {id : UInt32}
    (h : t.freeFrom? tries id = none) {i : Nat} (hi : i < tries) :
    t.isPending (id + UInt32.ofNat i) = true := by
  induction tries generalizing id i with
  | zero => exact absurd hi (Nat.not_lt_zero i)
  | succ tries ih =>
    simp only [freeFrom?] at h
    split at h
    · next htaken =>
      cases i with
      | zero => simpa using htaken
      | succ i =>
        have hnext := ih h (Nat.lt_of_succ_lt_succ hi)
        rwa [UInt32.add_assoc, UInt32.add_comm 1, ← UInt32.ofNat_one, ← UInt32.ofNat_add] at hnext
    · cases h

/-- A number is free as long as there are fewer calls than numbers. -/
theorem freeId?_eq_none {t : CallTable} (h : t.freeId? = none) :
    UInt32.size ≤ t.pending.length := by
  by_contra hfew
  have hinj : ∀ i ∈ List.range (t.pending.length + 1), ∀ j ∈ List.range (t.pending.length + 1),
      t.nextId + UInt32.ofNat i = t.nextId + UInt32.ofNat j → i = j := by
    intro i hi j hj heq
    rw [List.mem_range] at hi hj
    have hnat := congrArg UInt32.toNat ((UInt32.add_right_inj _).1 heq)
    rwa [UInt32.toNat_ofNat_of_lt' (show i < UInt32.size by omega),
      UInt32.toNat_ofNat_of_lt' (show j < UInt32.size by omega)] at hnat
  have hnodup : ((List.range (t.pending.length + 1)).map fun i =>
      t.nextId + UInt32.ofNat i).Nodup := List.nodup_range.map_on hinj
  have hsub : (List.range (t.pending.length + 1)).map (fun i => t.nextId + UInt32.ofNat i) ⊆
      t.pending.map (·.id) := by
    intro id hid
    obtain ⟨i, hi, rfl⟩ := List.mem_map.1 hid
    obtain ⟨call, hcall, hcallid⟩ := isPending_iff.1 (freeFrom?_eq_none h (List.mem_range.1 hi))
    exact List.mem_map.2 ⟨call, hcall, hcallid⟩
  have hle := (List.subperm_of_subset hnodup hsub).length_le
  simp only [List.length_map, List.length_range] at hle
  omega

/-! ## One operation -/

/-- A table with one call more, which waits. -/
def enter (t : CallTable) (now : Nat) (request : Request Bytes) (id : UInt32)
    (frames : List Frame) : CallTable :=
  let timeout := request.effectiveTimeout t.usualTimeout
  { t with
      nextId := id + 1
      issued := t.issued + 1
      pending := t.pending ++ [{ id, ticket := t.issued, timeout }]
      timers := t.timers ++ [{ id, due := timeout.after now }]
      queue := some (frames ++ [.callRequest (request.toCall id timeout)]) }

/-- A table with one call more, which has failed for want of a queue. -/
def refuse (t : CallTable) (id : UInt32) : CallTable :=
  { t with
      nextId := id + 1
      issued := t.issued + 1
      settled := (t.issued, .error (.network .linkClosed)) :: t.settled }

/-- The four ways in which a call may come in. -/
theorem expect_cases (t : CallTable) (now : Nat) (request : Request Bytes) :
    (∃ cause, t.closed = some cause ∧ t.expect now request = (t, .failed (.network cause))) ∨
    (t.closed = none ∧ t.freeId? = none ∧ t.expect now request = (t, .searching)) ∨
    (∃ id, t.closed = none ∧ t.freeId? = some id ∧ t.queue = none ∧
      t.expect now request = (t.refuse id, .waiting t.issued)) ∨
    (∃ id frames, t.closed = none ∧ t.freeId? = some id ∧ t.queue = some frames ∧
      t.expect now request = (t.enter now request id frames, .waiting t.issued)) := by
  cases hclosed : t.closed with
  | some cause => exact .inl ⟨cause, rfl, by simp [expect, hclosed]⟩
  | none =>
    right
    cases hfree : t.freeId? with
    | none => exact .inl ⟨rfl, rfl, by simp [expect, hclosed, hfree]⟩
    | some id =>
      right
      cases hqueue : t.queue with
      | none => exact .inl ⟨id, rfl, rfl, rfl, by simp [expect, hclosed, hfree, hqueue, refuse]⟩
      | some frames =>
        exact .inr ⟨id, frames, rfl, rfl, rfl, by simp [expect, hclosed, hfree, hqueue, enter]⟩

/-- A table without the calls under a number, one of which has ended. -/
def leave (t : CallTable) (call : PendingCall) (outcome : Outcome Bytes) : CallTable :=
  { t with
      pending := t.pending.filter (·.id != call.id)
      timers := t.timers.filter (·.id != call.id)
      settled := (call.ticket, outcome) :: t.settled }

theorem complete_of_not_pending {t : CallTable} {id : UInt32}
    {outcome : PendingCall → Outcome Bytes} (h : t.isPending id = false) :
    t.complete id outcome = (t, false) := by
  have hnone : t.pending.find? (·.id == id) = none := by
    rw [List.find?_eq_none]
    intro call hcall hid
    rw [isPending_eq_false] at h
    exact h (List.mem_map.2 ⟨call, hcall, by simpa using hid⟩)
  simp [complete, hnone]

/-- Under a number that waits, exactly its call ends. -/
theorem complete_of_mem {t : CallTable} {call : PendingCall}
    {outcome : PendingCall → Outcome Bytes} (ids : (t.pending.map (·.id)).Nodup)
    (h : call ∈ t.pending) : t.complete call.id outcome = (t.leave call (outcome call), true) := by
  have hfind : t.pending.find? (·.id == call.id) = some call := by
    cases hf : t.pending.find? (·.id == call.id) with
    | none =>
      rw [List.find?_eq_none] at hf
      exact absurd (by simp) (hf call h)
    | some other =>
      have hother := List.mem_of_find?_eq_some hf
      have hid : other.id = call.id := by simpa using List.find?_some hf
      rw [List.inj_on_of_nodup_map ids hother h hid]
  simp [complete, hfind, leave]

theorem complete_cases {t : CallTable} (id : UInt32) (outcome : PendingCall → Outcome Bytes)
    (ids : (t.pending.map (·.id)).Nodup) :
    (t.isPending id = false ∧ t.complete id outcome = (t, false)) ∨
    (∃ call ∈ t.pending, call.id = id ∧
      t.complete id outcome = (t.leave call (outcome call), true)) := by
  cases h : t.isPending id with
  | false => exact .inl ⟨rfl, complete_of_not_pending h⟩
  | true =>
    obtain ⟨call, hcall, rfl⟩ := isPending_iff.1 h
    exact .inr ⟨call, hcall, rfl, complete_of_mem ids hcall⟩

theorem complete_subset (t : CallTable) (id : UInt32) (outcome : PendingCall → Outcome Bytes) :
    (t.complete id outcome).1.pending ⊆ t.pending ∧
      (t.complete id outcome).1.timers ⊆ t.timers := by
  unfold CallTable.complete
  split
  · exact ⟨List.Subset.refl _, List.Subset.refl _⟩
  · exact ⟨List.filter_sublist.subset, List.filter_sublist.subset⟩

/-- What an operation may do to a table. -/
inductive Step (t : CallTable) : CallTable → Prop
  | expect (now : Nat) (request : Request Bytes) : Step t (t.expect now request).1
  | complete (id : UInt32) (outcome : PendingCall → Outcome Bytes) :
    Step t (t.complete id outcome).1
  | failAll (cause : Error) : Step t (t.failAll cause).1
  | discard : Step t t.discard
  /-- Frames are taken out of the queue, or the queue is given up. -/
  | queue (queue : Option (List Frame)) : Step t { t with queue }

/-- Any number of operations. -/
abbrev Steps : CallTable → CallTable → Prop := Relation.ReflTransGen Step

theorem Steps.keeps {P : CallTable → Prop} (step : ∀ {t t'}, P t → Step t t' → P t')
    {t t' : CallTable} (h : P t) (s : Steps t t') : P t' := by
  induction s with
  | refl => exact h
  | tail _ last ih => exact step ih last

theorem Steps.takeFrames (t : CallTable) : Steps t t.takeFrames.1 := by
  unfold CallTable.takeFrames
  split
  · exact .refl
  · exact .single (.queue (some []))

theorem Steps.expireDue (t : CallTable) (now : Nat) : Steps t (t.expireDue now) := by
  unfold CallTable.expireDue
  generalize t.timers.filter (·.due ≤ now) = due
  induction due generalizing t with
  | nil => exact .refl
  | cons timer due ih => exact .head (.complete timer.id _) (ih _)

/-! ## Coherence -/

/-- What holds of a table between two operations. -/
structure Coherent (t : CallTable) : Prop where
  /-- No two waiting calls share a number. -/
  ids : (t.pending.map (·.id)).Nodup
  /-- The timers are those of the waiting calls. -/
  timers : t.timers.map (·.id) = t.pending.map (·.id)
  /-- A ticket stands once: with a call that waits or with one that has ended. -/
  tickets : (t.pending.map (·.ticket) ++ t.settled.map (·.1)).Nodup
  /-- No ticket stands anywhere before it is given out. -/
  issued : ∀ ticket ∈ t.pending.map (·.ticket) ++ t.settled.map (·.1), ticket < t.issued
  /-- A closed table has no call. -/
  closed : t.isClosed = true → t.pending = []

theorem Coherent.start (usualTimeout : Duration) : Coherent { usualTimeout } := by
  constructor <;> simp [isClosed]

theorem perm_cons_filter {t : CallTable} (ids : (t.pending.map (·.id)).Nodup) {call : PendingCall}
    (h : call ∈ t.pending) : t.pending.Perm (call :: t.pending.filter (·.id != call.id)) := by
  generalize t.pending = calls at ids h
  induction calls with
  | nil => simp at h
  | cons c calls ih =>
    simp only [List.map_cons, List.nodup_cons, List.mem_map, not_exists, not_and] at ids
    rcases List.mem_cons.1 h with rfl | h
    · have hrest : calls.filter (·.id != call.id) = calls := by
        rw [List.filter_eq_self]
        intro other hother
        simpa using ids.1 other hother
      simp [hrest]
    · have hne : c.id ≠ call.id := fun he => ids.1 call h he.symm
      simp only [List.filter_cons, bne_iff_ne.2 hne, if_true]
      exact ((ih ids.2 h).cons c).trans (List.Perm.swap call c _)

theorem Coherent.leave {t : CallTable} (h : Coherent t) {call : PendingCall}
    (hcall : call ∈ t.pending) (outcome : Outcome Bytes) : Coherent (t.leave call outcome) := by
  have hperm : (t.pending.map (·.ticket) ++ t.settled.map (·.1)).Perm
      ((t.leave call outcome).pending.map (·.ticket) ++
        (t.leave call outcome).settled.map (·.1)) := by
    refine (((perm_cons_filter h.ids hcall).map _).append_right _).trans ?_
    simp only [CallTable.leave, List.map_cons, List.cons_append]
    exact List.perm_middle.symm
  constructor
  · exact (List.filter_sublist.map _).nodup h.ids
  · simp only [CallTable.leave]
    have key := congrArg (List.filter (· != call.id)) h.timers
    rw [List.filter_map, List.filter_map] at key
    exact key
  · exact hperm.nodup_iff.1 h.tickets
  · intro ticket hticket
    exact h.issued ticket (hperm.mem_iff.2 hticket)
  · intro hclosed
    simp [CallTable.leave, h.closed hclosed]

theorem Coherent.enter {t : CallTable} (h : Coherent t) (now : Nat) (request : Request Bytes)
    {id : UInt32} (hfree : t.isPending id = false) (hopen : t.closed = none) (frames : List Frame) :
    Coherent (t.enter now request id frames) := by
  have hnew : t.issued ∉ t.pending.map (·.ticket) ++ t.settled.map (·.1) := fun hmem =>
    Nat.lt_irrefl _ (h.issued _ hmem)
  have hperm : ((t.pending.map (·.ticket) ++ [t.issued]) ++ t.settled.map (·.1)).Perm
      (t.issued :: (t.pending.map (·.ticket) ++ t.settled.map (·.1))) := by
    rw [List.append_assoc]
    exact List.perm_middle
  rw [isPending_eq_false] at hfree
  constructor
  · simp only [CallTable.enter, List.map_append, List.map_cons, List.map_nil]
    rw [List.nodup_append]
    refine ⟨h.ids, List.nodup_singleton _, ?_⟩
    rintro a ha b hb rfl
    exact hfree (by simpa [List.mem_singleton.1 hb] using ha)
  · simp [CallTable.enter, h.timers]
  · simp only [CallTable.enter, List.map_append, List.map_cons, List.map_nil]
    exact hperm.nodup_iff.2 (List.nodup_cons.2 ⟨hnew, h.tickets⟩)
  · intro ticket hticket
    simp only [CallTable.enter, List.map_append, List.map_cons, List.map_nil] at hticket ⊢
    rcases List.mem_cons.1 (hperm.mem_iff.1 hticket) with rfl | hold
    · exact Nat.lt_succ_self _
    · exact Nat.lt_succ_of_lt (h.issued ticket hold)
  · intro hclosed
    simp [CallTable.enter, isClosed, hopen] at hclosed

theorem Coherent.refuse {t : CallTable} (h : Coherent t) (hopen : t.closed = none) (id : UInt32) :
    Coherent (t.refuse id) := by
  have hnew : t.issued ∉ t.pending.map (·.ticket) ++ t.settled.map (·.1) := fun hmem =>
    Nat.lt_irrefl _ (h.issued _ hmem)
  have hperm : (t.pending.map (·.ticket) ++ t.issued :: t.settled.map (·.1)).Perm
      (t.issued :: (t.pending.map (·.ticket) ++ t.settled.map (·.1))) := List.perm_middle
  constructor
  · exact h.ids
  · exact h.timers
  · simp only [CallTable.refuse, List.map_cons]
    exact hperm.nodup_iff.2 (List.nodup_cons.2 ⟨hnew, h.tickets⟩)
  · intro ticket hticket
    simp only [CallTable.refuse, List.map_cons] at hticket ⊢
    rcases List.mem_cons.1 (hperm.mem_iff.1 hticket) with rfl | hold
    · exact Nat.lt_succ_self _
    · exact Nat.lt_succ_of_lt (h.issued ticket hold)
  · intro hclosed
    simp [CallTable.refuse, isClosed, hopen] at hclosed

/-- All timers are those of waiting calls, so none survives the end of all. -/
theorem Coherent.endAll_timers {t : CallTable} (h : Coherent t) (outcome : Outcome Bytes) :
    (t.endAll outcome).timers = [] := by
  simp only [endAll, List.filter_eq_nil_iff, Bool.not_eq_true', Bool.not_eq_false]
  intro timer htimer
  have hid : timer.id ∈ t.pending.map (·.id) := h.timers ▸ List.mem_map_of_mem htimer
  obtain ⟨call, hcall, he⟩ := List.mem_map.1 hid
  exact isPending_iff.2 ⟨call, hcall, he⟩

theorem Coherent.endAll {t : CallTable} (h : Coherent t) (outcome : Outcome Bytes)
    (closed : Option Error) : Coherent { t.endAll outcome with closed } := by
  have hperm : (t.pending.map (·.ticket) ++ t.settled.map (·.1)).Perm
      ((t.endAll outcome).settled.map (·.1)) := by
    simp only [CallTable.endAll, List.map_append, List.map_reverse, List.map_map]
    exact (List.reverse_perm _).symm.append_right _
  constructor
  · simp [CallTable.endAll]
  · rw [h.endAll_timers outcome]
    simp [CallTable.endAll]
  · simpa [CallTable.endAll] using hperm.nodup_iff.1 h.tickets
  · intro ticket hticket
    exact h.issued ticket (hperm.mem_iff.2 (by simpa [CallTable.endAll] using hticket))
  · simp [CallTable.endAll]

theorem Coherent.queue {t : CallTable} (h : Coherent t) (queue : Option (List Frame)) :
    Coherent { t with queue } := ⟨h.ids, h.timers, h.tickets, h.issued, h.closed⟩

theorem Coherent.step {t t' : CallTable} (h : Coherent t) (s : Step t t') : Coherent t' := by
  cases s with
  | expect now request =>
    rcases t.expect_cases now request with ⟨_, _, he⟩ | ⟨_, _, he⟩ | ⟨id, hopen, _, _, he⟩ |
      ⟨id, frames, hopen, hfree, _, he⟩ <;> rw [he]
    · exact h
    · exact h
    · exact h.refuse hopen id
    · exact h.enter now request (freeId?_free hfree) hopen frames
  | complete id outcome =>
    rcases complete_cases id outcome h.ids with ⟨_, he⟩ | ⟨call, hcall, _, he⟩ <;> rw [he]
    · exact h
    · exact h.leave hcall _
  | failAll cause => exact h.endAll _ _
  | discard => exact h.endAll _ _
  | queue queue => exact h.queue queue

theorem Coherent.steps {t t' : CallTable} (h : Coherent t) (s : Steps t t') : Coherent t' :=
  s.keeps Coherent.step h

/-! ## Calls come in one after another -/

theorem Step.issued_le {t t' : CallTable} (s : Step t t') : t.issued ≤ t'.issued := by
  cases s with
  | expect now request =>
    rcases t.expect_cases now request with ⟨_, _, he⟩ | ⟨_, _, he⟩ | ⟨_, _, _, _, he⟩ |
      ⟨_, _, _, _, _, he⟩ <;> simp [he, refuse, enter]
  | complete id outcome =>
    unfold CallTable.complete
    split <;> exact Nat.le_refl _
  | failAll cause => exact Nat.le_refl _
  | discard => exact Nat.le_refl _
  | queue queue => exact Nat.le_refl _

theorem Steps.issued_le {t t' : CallTable} (s : Steps t t') : t.issued ≤ t'.issued :=
  s.keeps (P := (t.issued ≤ ·.issued)) (fun h last => Nat.le_trans h last.issued_le) (Nat.le_refl _)

/-- A call that waits has done so before, or it has come in under a new ticket. -/
theorem Step.newcomer {t t' : CallTable} (s : Step t t') {call : PendingCall}
    (hcall : call ∈ t'.pending) : call ∈ t.pending ∨ t.issued ≤ call.ticket := by
  cases s with
  | expect now request =>
    rcases t.expect_cases now request with ⟨_, _, he⟩ | ⟨_, _, he⟩ | ⟨_, _, _, _, he⟩ |
      ⟨id, frames, _, _, _, he⟩ <;> rw [he] at hcall
    · exact .inl hcall
    · exact .inl hcall
    · exact .inl hcall
    · rcases List.mem_append.1 hcall with hold | hnew
      · exact .inl hold
      · rw [List.mem_singleton.1 hnew]
        exact .inr (Nat.le_refl _)
  | complete id outcome => exact .inl ((t.complete_subset id outcome).1 hcall)
  | failAll cause => cases hcall
  | discard => cases hcall
  | queue queue => exact .inl hcall

theorem Steps.newcomer {t t' : CallTable} (s : Steps t t') {call : PendingCall}
    (hcall : call ∈ t'.pending) : call ∈ t.pending ∨ t.issued ≤ call.ticket := by
  induction s with
  | refl => exact .inl hcall
  | tail before last ih =>
    rcases last.newcomer hcall with hold | hnew
    · exact ih hold
    · exact .inr (Nat.le_trans (Steps.issued_le before) hnew)

/-- A table holds no more calls than have been made. -/
theorem Coherent.pending_le {t : CallTable} (h : Coherent t) : t.pending.length ≤ t.issued := by
  have hsub : t.pending.map (·.ticket) ⊆ List.range t.issued := fun ticket hticket =>
    List.mem_range.2 (h.issued ticket (List.mem_append_left _ hticket))
  have hle := (List.subperm_of_subset (List.nodup_append.1 h.tickets).1 hsub).length_le
  simpa using hle

/-! ## What has ended -/

theorem Step.settled_suffix {t t' : CallTable} (s : Step t t') : t.settled <:+ t'.settled := by
  cases s with
  | expect now request =>
    rcases t.expect_cases now request with ⟨_, _, he⟩ | ⟨_, _, he⟩ | ⟨_, _, _, _, he⟩ |
      ⟨_, _, _, _, _, he⟩ <;> simp only [he]
    · exact List.suffix_rfl
    · exact List.suffix_rfl
    · exact List.suffix_cons _ _
    · exact List.suffix_rfl
  | complete id outcome =>
    unfold CallTable.complete
    split
    · exact List.suffix_rfl
    · exact List.suffix_cons _ _
  | failAll cause => exact List.suffix_append _ _
  | discard => exact List.suffix_append _ _
  | queue queue => exact List.suffix_rfl

theorem Steps.settled_suffix {t t' : CallTable} (s : Steps t t') : t.settled <:+ t'.settled :=
  s.keeps (P := (t.settled <:+ ·.settled)) (fun h last => h.trans last.settled_suffix)
    List.suffix_rfl

/-- A handle has the outcome that stands by its ticket. -/
theorem Coherent.outcome?_waiting {t : CallTable} (h : Coherent t) {ticket : Ticket}
    {outcome : Outcome Bytes} :
    t.outcome? (.waiting ticket) = some outcome ↔ (ticket, outcome) ∈ t.settled :=
  ⟨mem_of_lookup_eq_some, lookup_eq_some_of_mem (List.nodup_append.1 h.tickets).2.1⟩

/-- A handle that has an outcome keeps it. -/
theorem Steps.outcome?_eq {t t' : CallTable} (s : Steps t t') (h : Coherent t) {handle : Handle}
    {outcome : Outcome Bytes} (ho : t.outcome? handle = some outcome) :
    t'.outcome? handle = some outcome := by
  cases handle with
  | failed error => exact ho
  | waiting ticket =>
    rw [h.outcome?_waiting] at ho
    exact (h.steps s).outcome?_waiting.2 (s.settled_suffix.subset ho)
  | searching => cases ho

/-- The handle of a call that waits has no outcome. -/
theorem Coherent.outcome?_pending {t : CallTable} (h : Coherent t) {call : PendingCall}
    (hcall : call ∈ t.pending) : t.outcome? (.waiting call.ticket) = none := by
  cases ho : t.outcome? (.waiting call.ticket) with
  | none => rfl
  | some outcome =>
    have hmem : call.ticket ∈ t.settled.map (·.1) :=
      List.mem_map_of_mem (f := (·.1)) (h.outcome?_waiting.1 ho)
    exact absurd rfl ((List.nodup_append.1 h.tickets).2.2 _ (List.mem_map_of_mem hcall) _ hmem)

/-! ## Every table that is come to -/

namespace Clocked

theorem handle_steps (s : Clocked) (e : Event) : Steps s.table (s.handle e).table := by
  unfold handle
  split
  · exact .refl
  cases e with
  | expect request => exact .single (.expect s.now request)
  | reply reply => exact .single (.complete reply.id _)
  | failure report => exact .single (.complete report.id _)
  | pass ms => exact .expireDue s.table (s.now + ms)
  | failAll cause => exact .single (.failAll cause)
  | takeFrames => exact .takeFrames s.table
  | dropQueue => exact .single (.queue none)
  | dropHandle _ => exact .refl
  | discard => exact .single .discard

theorem run_steps (s : Clocked) (events : List Event) : Steps s.table (s.run events).table := by
  induction events generalizing s with
  | nil => exact .refl
  | cons e events ih => exact (s.handle_steps e).trans (ih (s.handle e))

theorem run_append (s : Clocked) (before after : List Event) :
    s.run (before ++ after) = (s.run before).run after := List.foldl_append

theorem Reachable.coherent {usualTimeout : Duration} {s : Clocked} (h : Reachable usualTimeout s) :
    Coherent s.table := by
  induction h with
  | start => exact .start usualTimeout
  | handle e _ ih => exact ih.steps (handle_steps _ e)

end Clocked

end RpcClient.CallTable
