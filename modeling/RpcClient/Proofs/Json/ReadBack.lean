/-
A document that stands for a value is read as this value if no more containers are nested in
it than may be, and not at all otherwise (`Stands`): first for the parts that formats are put
together from, then for frames, whose headers may be written in any order (`frame_stands`).
Every value has such a document (`Written`), the fields of a record and the entries of a map
all being texts with documents (`objectOf`).
-/
import Mathlib.Data.List.Forall2
import RpcClient.Body.Arrangement
import RpcClient.Proofs.Binary.ReadBack
import RpcClient.Proofs.Json.Spelling

namespace RpcClient.Json

variable {α β : Type}

/-- What holds of all that stand in a relation holds of those on the right. -/
theorem forall_right {R : α → β → Prop} {P : β → Prop} {as : List α} {bs : List β}
    (h : List.Forall₂ R as bs) (hP : ∀ a b, R a b → P b) : ∀ b ∈ bs, P b := by
  induction h with
  | nil => nofun
  | cons hfirst _ ih => exact List.forall_mem_cons.2 ⟨hP _ _ hfirst, ih⟩

/-! ## Nesting -/

theorem foldl_max_le {depths : List Nat} {least d : Nat} :
    depths.foldl max least ≤ d ↔ least ≤ d ∧ ∀ depth ∈ depths, depth ≤ d := by
  induction depths generalizing least with
  | nil => simp
  | cons depth depths ih =>
    rw [List.foldl_cons, ih, Nat.max_le, List.forall_mem_cons, and_assoc]

theorem depth_array {items : List Document} {d : Nat} :
    (Document.array items).depth ≤ d + 1 ↔ ∀ item ∈ items, item.depth ≤ d := by
  rw [Document.depth, Nat.add_le_add_iff_right, foldl_max_le]
  simp

theorem depth_array_pos (items : List Document) : ¬ (Document.array items).depth ≤ 0 := by
  rw [Document.depth]
  omega

/-- An object with texts for its keys. -/
def objectOf (fields : List (String × Document)) : Document :=
  .object (fields.map fun field => (spell field.1, field.2))

theorem depth_objectOf {fields : List (String × Document)} {d : Nat} :
    (objectOf fields).depth ≤ d + 1 ↔ ∀ field ∈ fields, field.2.depth ≤ d := by
  rw [objectOf, Document.depth, Nat.add_le_add_iff_right, foldl_max_le]
  simp only [Nat.zero_le, true_and, List.forall_mem_map]

theorem depth_objectOf_pos (fields : List (String × Document)) : ¬ (objectOf fields).depth ≤ 0 := by
  rw [objectOf, Document.depth]
  omega

namespace Format

/-- A document stands for a value. -/
structure Stands (f : Format α) (a : α) (doc : Document) : Prop where
  spelled : Spelled doc
  read : ∀ depth, f.read depth doc = if doc.depth ≤ depth then some a else none

/-- What is written of a value stands for it. -/
def Written (f : Format α) (a : α) : Prop := ∃ doc, f.write a = some doc ∧ Stands f a doc

variable {f : Format α} {g : Format β} {a : α} {b : β} {doc : Document}

/-! ## Numbers and words -/

/-- A document without containers is read at any depth. -/
theorem Stands.flat (spelled : Spelled doc) (flat : doc.depth = 0)
    (read : ∀ depth, f.read depth doc = some a) : Stands f a doc :=
  ⟨spelled, fun depth => by rw [read, flat, if_pos (Nat.zero_le depth)]⟩

theorem intBetween_written {low high n : Int} (hlow : low ≤ n) (hhigh : n < high) :
    (intBetween low high).Written n := by
  refine ⟨_, rfl, .flat (.number (int_spelling n)) (by simp [Document.depth]) fun depth => ?_⟩
  simp only [intBetween, int?_spellInt, Option.bind_some, hlow, hhigh, and_self, if_true]

theorem via_written (out : β → α) {back : α → β} {b : β} (h : f.Written (out b))
    (inverse : back (out b) = b) : (f.via out back).Written b := by
  obtain ⟨doc, hwrite, hspelled, hread⟩ := h
  refine ⟨doc, hwrite, hspelled, fun depth => ?_⟩
  simp only [Format.via, hread]
  split
  · rw [Option.map_some, inverse]
  · rfl

theorem natBelow_written {high : Nat} {out : β → Nat} {back : Nat → β} {b : β}
    (below : out b < high) (inverse : back (out b) = b) :
    ((intBetween 0 high).via (fun b => (out b : Int)) fun n => back n.toNat).Written b :=
  via_written _ (intBetween_written (Int.natCast_nonneg _) (Int.ofNat_lt.2 below)) inverse

theorem u8_written (x : UInt8) : u8.Written x := natBelow_written x.toNat_lt x.ofNat_toNat

theorem u16_written (x : UInt16) : u16.Written x := natBelow_written x.toNat_lt x.ofNat_toNat

theorem u32_written (x : UInt32) : u32.Written x := natBelow_written x.toNat_lt x.ofNat_toNat

theorem u64_written (x : UInt64) : u64.Written x := natBelow_written x.toNat_lt x.ofNat_toNat

theorem i64_written (x : Int64) : i64.Written x := by
  have hlow : Int64.minValue.toInt ≤ x.toInt := Int64.minValue_le_toInt x
  have hhigh : x.toInt ≤ Int64.maxValue.toInt := Int64.toInt_le x
  exact via_written Int64.toInt (intBetween_written hlow (by omega)) (Int64.ofInt_toInt x)

theorem unit_written (x : Unit) : unit.Written x :=
  ⟨.null, rfl, .flat .null (by simp [Document.depth]) fun _ => rfl⟩

theorem bool_written (b : Bool) : bool.Written b :=
  ⟨.bool b, rfl, .flat (.bool b) (by simp [Document.depth]) fun _ => rfl⟩

theorem text_stands (s : String) : text.Stands s (.text (spell s)) :=
  .flat (.text (text_spelling s)) (by simp [Document.depth]) fun _ => unspell?_spell s

theorem text_written (s : String) : text.Written s := ⟨_, rfl, text_stands s⟩

/-- One of a list is known by its name. -/
theorem oneOf_written {choices : List α} {name : α → String}
    (known : choices.find? (name · == name a) = some a) : (oneOf choices name).Written a := by
  refine ⟨_, rfl, .flat (.text (text_spelling _)) (by simp [Document.depth]) fun depth => ?_⟩
  simp only [oneOf, oneOf.named, unspell?_spell, Option.bind_some, known]

theorem option_written (h : f.Written a) (notNull : f.write a ≠ some .null) :
    f.option.Written (some a) := by
  obtain ⟨doc, hwrite, hspelled, hread⟩ := h
  refine ⟨doc, hwrite, hspelled, fun depth => ?_⟩
  have hsome : f.option.read depth doc = (f.read depth doc).map some := by
    cases doc with
    | null => exact absurd hwrite notNull
    | _ => rfl
  rw [hsome, hread]
  split <;> rfl

theorem none_written (f : Format α) : f.option.Written none :=
  ⟨.null, rfl, .flat .null (by simp [Document.depth]) fun _ => rfl⟩

/-! ## Lists -/

theorem bind_fits {p : Prop} [Decidable p] (a : α) (g : α → Option β) :
    (if p then some a else none).bind g = if p then g a else none := by
  split <;> rfl

/-- If each is read that fits, all are read if all of them fit. -/
theorem mapM_fits {γ : Type} {read : γ → Option α} {fits : γ → Prop} [DecidablePred fits]
    {as : List α} {xs : List γ}
    (h : List.Forall₂ (fun a x => read x = if fits x then some a else none) as xs) :
    xs.mapM read = if ∀ x ∈ xs, fits x then some as else none := by
  induction h with
  | nil => simp
  | cons hfirst _ ih =>
    simp only [List.mapM_cons, hfirst, ih, Option.bind_eq_bind, bind_fits, Option.pure_def,
      List.forall_mem_cons, ite_and]

theorem mapM_write {as : List α} (h : ∀ a ∈ as, f.Written a) :
    ∃ docs, as.mapM f.write = some docs ∧ List.Forall₂ f.Stands as docs := by
  induction as with
  | nil => exact ⟨[], rfl, .nil⟩
  | cons a as ih =>
    obtain ⟨doc, hwrite, hdoc⟩ := h a List.mem_cons_self
    obtain ⟨docs, hwrites, hdocs⟩ := ih fun b hb => h b (List.mem_cons_of_mem _ hb)
    exact ⟨doc :: docs, by simp [List.mapM_cons, hwrite, hwrites], .cons hdoc hdocs⟩

theorem list_stands {as : List α} {docs : List Document} (h : List.Forall₂ f.Stands as docs) :
    f.list.Stands as (.array docs) where
  spelled := .array (forall_right h fun _ _ hdoc => hdoc.spelled)
  read depth := by
    cases depth with
    | zero =>
      rw [if_neg (depth_array_pos docs)]
      rfl
    | succ depth =>
      simp only [depth_array]
      exact mapM_fits (h.imp fun _ _ hdoc => hdoc.read depth)

theorem list_written {as : List α} (h : ∀ a ∈ as, f.Written a) : f.list.Written as := by
  obtain ⟨docs, hwrite, hdocs⟩ := mapM_write h
  exact ⟨.array docs, by simp only [list, hwrite, Option.map_some], list_stands hdocs⟩

theorem bytes_written (b : Bytes) : bytes.Written b := list_written fun x _ => u8_written x

/-! ## Objects -/

theorem textKeys?_spell (fields : List (String × Document)) :
    textKeys? (fields.map fun field => (spell field.1, field.2)) = some fields := by
  rw [textKeys?]
  induction fields with
  | nil => rfl
  | cons field fields ih =>
    simp only [List.map_cons, List.mapM_cons, unspell?_spell, Option.map_some, ih,
      Option.bind_eq_bind, Option.bind_some, Option.pure_def]

theorem objectOf_spelled {fields : List (String × Document)}
    (h : ∀ field ∈ fields, Spelled field.2) : Spelled (objectOf fields) :=
  .object (List.forall_mem_map.2 fun field _ => text_spelling field.1) (List.forall_mem_map.2 h)

/-- A record or a map stands in an object. -/
theorem stands_objectOf {fields : List (String × Document)}
    (spelled : ∀ field ∈ fields, Spelled field.2) (shallow : f.read 0 (objectOf fields) = none)
    (read : ∀ depth, f.read (depth + 1) (objectOf fields) =
      if ∀ field ∈ fields, field.2.depth ≤ depth then some a else none) :
    f.Stands a (objectOf fields) where
  spelled := objectOf_spelled spelled
  read depth := by
    cases depth with
    | zero => rw [if_neg (depth_objectOf_pos fields), shallow]
    | succ depth => simp only [read, depth_objectOf]

theorem object_eq (fields : List (String × Option Document)) :
    object fields =
      (fields.mapM (m := Option) fun field => field.2.map (spell field.1, ·)).bind
        fun members => some (.object members) := rfl

/-- Fields that all have documents make an object. -/
theorem object_some (fields : List (String × Document)) :
    object (fields.map fun field => (field.1, some field.2)) = some (objectOf fields) := by
  have hmembers : (fields.map fun field => (field.1, some field.2)).mapM
      (fun field => field.2.map (spell field.1, ·)) =
        some (fields.map fun field => (spell field.1, field.2)) := by
    induction fields with
    | nil => rfl
    | cons field fields ih => simp [List.mapM_cons, ih]
  rw [object_eq, hmembers, Option.bind_some, objectOf]

/-- A field is found by its name. -/
theorem member?_of_mem {fields : List (String × Document)} (names : (fields.map (·.1)).Nodup)
    {field : String × Document} (h : field ∈ fields) :
    member? fields field.1 = some (some field.2) := by
  have hfilter : fields.filter (·.1 == field.1) = [field] := by
    induction fields with
    | nil => cases h
    | cons first fields ih =>
      rw [List.map_cons, List.nodup_cons] at names
      rcases List.mem_cons.1 h with rfl | hrest
      · have hnone : fields.filter (·.1 == field.1) = [] := by
          rw [List.filter_eq_nil_iff]
          intro other hother heq
          exact names.1 (List.mem_map.2 ⟨other, hother, by simpa using heq⟩)
        rw [List.filter_cons_of_pos (by simp), hnone]
      · have hne : ¬ (first.1 == field.1) = true := fun heq =>
          names.1 (List.mem_map.2 ⟨field, hrest, (by simpa using heq : first.1 = field.1).symm⟩)
        rw [List.filter_cons, if_neg hne, ih names.2 hrest]
  rw [member?, hfilter]

/-- The fields of a record are found, in their order. -/
theorem fields?_objectOf (fields : List (String × Document)) (names : (fields.map (·.1)).Nodup)
    (short : Bool) (depth : Nat) :
    fields? (fields.map (·.1)) short (depth + 1) (objectOf fields) =
      some (depth, fields.map fun field => some field.2) := by
  have hall : ∀ part : List (String × Document), part ⊆ fields →
      (part.map (·.1)).mapM (member? fields) = some (part.map fun field => some field.2) := by
    intro part hsub
    induction part with
    | nil => rfl
    | cons first part ih =>
      have hfirst := member?_of_mem names (hsub List.mem_cons_self)
      have hrest := ih fun x hx => hsub (List.mem_cons_of_mem _ hx)
      simp only [List.map_cons, List.mapM_cons, hfirst, hrest, Option.bind_eq_bind,
        Option.bind_some, Option.pure_def]
  simp only [fields?, objectOf, textKeys?_spell, hall fields (List.Subset.refl _),
    Option.bind_eq_bind, Option.bind_some, Option.pure_def]

/-- A record is read if its fields make it, where they are read that fit. -/
theorem record_stands (fields : List (String × Document)) (names : (fields.map (·.1)).Nodup)
    (spelled : ∀ field ∈ fields, Spelled field.2) {make : Nat × List (Option Document) → Option α}
    (reads : ∀ depth doc, f.read depth doc = (fields? (fields.map (·.1)) false depth doc).bind make)
    (made : ∀ depth, make (depth, fields.map fun field => some field.2) =
      if ∀ field ∈ fields, field.2.depth ≤ depth then some a else none) :
    f.Stands a (objectOf fields) := by
  refine stands_objectOf spelled (by rw [reads]; rfl) fun depth => ?_
  rw [reads, fields?_objectOf fields names, Option.bind_some, made]

/-! ## Maps -/

/-- An entry of a map, and how it stands in an object. -/
def Stands.Entry (f : Format α) (entry : String × α) (field : String × Document) : Prop :=
  field.1 = entry.1 ∧ f.Stands entry.2 field.2

theorem textEntries_some {entries : List (String × α)} (h : ∀ e ∈ entries, f.Written e.2) :
    ∃ fields, textEntries f entries = some (objectOf fields) ∧
      List.Forall₂ (Stands.Entry f) entries fields := by
  have hmembers : ∃ fields : List (String × Document),
      (entries.mapM fun (key, value) => (f.write value).map (spell key, ·)) =
        some (fields.map fun field => (spell field.1, field.2)) ∧
      List.Forall₂ (Stands.Entry f) entries fields := by
    induction entries with
    | nil => exact ⟨[], rfl, .nil⟩
    | cons e entries ih =>
      obtain ⟨doc, hwrite, hdoc⟩ := h e List.mem_cons_self
      obtain ⟨fields, hwrites, hfields⟩ := ih fun e' he' => h e' (List.mem_cons_of_mem _ he')
      exact ⟨(e.1, doc) :: fields, by simp [List.mapM_cons, hwrite, hwrites],
        .cons ⟨rfl, hdoc⟩ hfields⟩
  obtain ⟨fields, hwrites, hfields⟩ := hmembers
  exact ⟨fields, by simp only [textEntries, hwrites]; rfl, hfields⟩

theorem mapM_entries {entries : List (String × α)} {fields : List (String × Document)}
    (h : List.Forall₂ (Stands.Entry f) entries fields) (depth : Nat) :
    (fields.mapM fun (key, value) => (f.read depth value).map (key, ·)) =
      if ∀ field ∈ fields, field.2.depth ≤ depth then some entries else none := by
  refine mapM_fits (h.imp fun e field hentry => ?_)
  obtain ⟨hkey, hvalue⟩ := hentry
  dsimp only
  rw [hvalue.read, hkey]
  split <;> rfl

/-- The entries of a map may come in any order, or with others that they make void. -/
theorem textDict_stands {rule : Arrangement} {entries : List (String × α)} {d : Dict String α}
    (h : rule.Allows entries d) (written : ∀ a, f.Written a) :
    ∃ doc, textEntries f entries = some doc ∧ (textDict f).Stands d doc := by
  obtain ⟨fields, hwrite, hfields⟩ := textEntries_some fun e (_ : e ∈ entries) => written e.2
  have hspelled : ∀ field ∈ fields, Spelled field.2 :=
    forall_right hfields fun _ _ hentry => hentry.2.spelled
  refine ⟨_, hwrite, stands_objectOf hspelled rfl fun depth => ?_⟩
  simp only [textDict, objectOf, textKeys?_spell, mapM_entries hfields, Option.bind_eq_bind,
    Option.bind_some, bind_fits, Option.pure_def, h.ofList_eq]

theorem headers_stands {rule : Arrangement} {entries : List (String × String)} {h : Headers}
    (allowed : rule.Allows entries h) :
    ∃ doc, textEntries text entries = some doc ∧ headers.Stands h doc :=
  textDict_stands allowed text_written

/-! ## Records -/

/-- A field is read, and then those behind it, if it fits. -/
theorem required_bind (h : f.Stands a doc) (depth : Nat) (rest : α → Option β) :
    required f depth (some doc) >>= rest = if doc.depth ≤ depth then rest a else none := by
  rw [required, Option.bind_some, h.read, Option.bind_eq_bind, bind_fits]

theorem optional_bind {o : Option α} (h : f.option.Stands o doc) (depth : Nat)
    (rest : Option α → Option β) :
    optional f depth (some doc) >>= rest = if doc.depth ≤ depth then rest o else none := by
  simp only [optional, h.read, Option.bind_eq_bind, bind_fits]

theorem fits_nil (depth : Nat) (o : Option α) :
    (if ∀ field ∈ ([] : List (String × Document)), field.2.depth ≤ depth then o else none) = o := by
  simp

theorem fits_cons (first : String × Document) (rest : List (String × Document)) (depth : Nat)
    (o : Option α) :
    (if ∀ field ∈ first :: rest, field.2.depth ≤ depth then o else none) =
      if first.2.depth ≤ depth then
        if ∀ field ∈ rest, field.2.depth ≤ depth then o else none
      else none := by
  simp only [List.forall_mem_cons, ite_and]

theorem errorKind_written (kind : ErrorKind) : errorKind.Written kind :=
  oneOf_written (by cases kind <;> decide)

theorem replyCode_written (code : ReplyCode) : replyCode.Written code :=
  oneOf_written (by cases code <;> decide)

theorem identity_written (i : Identity) : identity.Written i := by
  obtain ⟨version, hversion, hv⟩ := u16_written i.version
  obtain ⟨hostPort, hhostPort, hh⟩ := text_written i.hostPort
  obtain ⟨processName, hprocessName, hp⟩ := text_written i.processName
  let fields := [("version", version), ("host_port", hostPort), ("process_name", processName)]
  refine ⟨objectOf fields, ?_, record_stands fields (by simp [fields]) ?_ (fun _ _ => rfl)
    fun depth => ?_⟩
  · simp only [identity, hversion, hhostPort, hprocessName]
    exact object_some fields
  · simp [fields, hv.spelled, hh.spelled, hp.spelled]
  · simp only [fields, List.map_cons, List.map_nil, required_bind hv, required_bind hh,
      required_bind hp, Option.pure_def, fits_cons, fits_nil]

theorem failureReport_written (r : FailureReport) : failureReport.Written r := by
  obtain ⟨id, hid, hi⟩ := u32_written r.id
  obtain ⟨kind, hkind, hk⟩ := errorKind_written r.kind
  obtain ⟨message, hmessage, hm⟩ := text_written r.message
  let fields := [("id", id), ("kind", kind), ("message", message)]
  refine ⟨objectOf fields, ?_, record_stands fields (by simp [fields]) ?_ (fun _ _ => rfl)
    fun depth => ?_⟩
  · simp only [failureReport, hid, hkind, hmessage]
    exact object_some fields
  · simp [fields, hi.spelled, hk.spelled, hm.spelled]
  · simp only [fields, List.map_cons, List.map_nil, required_bind hi, required_bind hk,
      required_bind hm, Option.pure_def, fits_cons, fits_nil]

theorem call_stands {c : Call} {hs ths : Document} (headers : headers.Stands c.headers hs)
    (transport : Format.headers.Stands c.transportHeaders ths) :
    ∃ doc, callObject c (some hs) (some ths) = some doc ∧ call.Stands c doc := by
  obtain ⟨id, hid, hi⟩ := u32_written c.id
  obtain ⟨ttlMs, httlMs, ht⟩ := u32_written c.ttlMs
  obtain ⟨service, hservice, hs'⟩ := text_written c.service
  obtain ⟨endpoint, hendpoint, he⟩ := text_written c.endpoint
  obtain ⟨body, hbody, hb⟩ := bytes_written c.body
  let fields := [("id", id), ("ttl_ms", ttlMs), ("service", service), ("endpoint", endpoint),
    ("headers", hs), ("transport_headers", ths), ("body", body)]
  refine ⟨objectOf fields, ?_, record_stands fields (by simp [fields]) ?_ (fun _ _ => rfl)
    fun depth => ?_⟩
  · simp only [callObject, hid, httlMs, hservice, hendpoint, hbody]
    exact object_some fields
  · simp [fields, hi.spelled, ht.spelled, hs'.spelled, he.spelled, headers.spelled,
      transport.spelled, hb.spelled]
  · simp only [fields, List.map_cons, List.map_nil, required_bind hi, required_bind ht,
      required_bind hs', required_bind he, required_bind headers, required_bind transport,
      required_bind hb, Option.pure_def, fits_cons, fits_nil]

theorem reply_stands {r : Reply} {hs ths : Document} (headers : headers.Stands r.headers hs)
    (transport : Format.headers.Stands r.transportHeaders ths) :
    ∃ doc, replyObject r (some hs) (some ths) = some doc ∧ reply.Stands r doc := by
  obtain ⟨id, hid, hi⟩ := u32_written r.id
  obtain ⟨code, hcode, hc⟩ := replyCode_written r.code
  obtain ⟨body, hbody, hb⟩ := bytes_written r.body
  let fields := [("id", id), ("code", code), ("headers", hs), ("transport_headers", ths),
    ("body", body)]
  refine ⟨objectOf fields, ?_, record_stands fields (by simp [fields]) ?_ (fun _ _ => rfl)
    fun depth => ?_⟩
  · simp only [replyObject, hid, hcode, hbody]
    exact object_some fields
  · simp [fields, hi.spelled, hc.spelled, headers.spelled, transport.spelled, hb.spelled]
  · simp only [fields, List.map_cons, List.map_nil, required_bind hi, required_bind hc,
      required_bind headers, required_bind transport, required_bind hb, Option.pure_def,
      fits_cons, fits_nil]

/-! ## Frames -/

/-- The frame that a choice is, by its name and content. -/
def frameOf : Nat × String × Document → Option Frame
  | (depth, kind, content) =>
    match kind with
    | "InitRequest" => (identity.read depth content).map .initRequest
    | "InitResponse" => (identity.read depth content).map .initResponse
    | "CallRequest" => (call.read depth content).map .callRequest
    | "CallResponse" => (reply.read depth content).map .callResponse
    | "Error" => (failureReport.read depth content).map .error
    | _ => none

theorem frame_read (depth : Nat) (doc : Document) :
    frame.read depth doc = (chosen? depth doc).bind frameOf := rfl

/-- The content of a choice is found under its name. -/
theorem chosen?_objectOf (name : String) (doc : Document) (depth : Nat) :
    chosen? (depth + 1) (objectOf [(name, doc)]) = some (depth, name, doc) := by
  simp only [chosen?, objectOf, List.map_cons, List.map_nil, unspell?_spell, Option.map_some]

theorem choice_some (name : String) (doc : Document) :
    choice name (some doc) = some (objectOf [(name, doc)]) := object_some [(name, doc)]

/-- A choice stands for a frame if its content does for what is in the frame. -/
theorem choice_stands {f : Frame} {name : String} {make : β → Frame} (h : g.Stands b doc)
    (reads : ∀ depth, frameOf (depth, name, doc) = (g.read depth doc).map make)
    (made : make b = f) :
    frame.Stands f (objectOf [(name, doc)]) := by
  refine stands_objectOf (by simp [h.spelled]) rfl fun depth => ?_
  rw [frame_read, chosen?_objectOf, Option.bind_some, reads, h.read]
  simp only [List.forall_mem_singleton]
  split
  · rw [Option.map_some, made]
  · rfl

/-- **What may be written for a frame is a document that stands for it.** -/
theorem frame_stands {rule : Arrangement} {f : Frame} {form : Option Document}
    (h : FrameForm rule f form) : ∃ doc, form = some doc ∧ frame.Stands f doc := by
  cases f with
  | initRequest i =>
    obtain ⟨doc, hwrite, hdoc⟩ := identity_written i
    obtain rfl : form = choice "InitRequest" (identity.write i) := h
    rw [hwrite, choice_some]
    exact ⟨_, rfl, choice_stands hdoc (fun _ => rfl) rfl⟩
  | initResponse i =>
    obtain ⟨doc, hwrite, hdoc⟩ := identity_written i
    obtain rfl : form = choice "InitResponse" (identity.write i) := h
    rw [hwrite, choice_some]
    exact ⟨_, rfl, choice_stands hdoc (fun _ => rfl) rfl⟩
  | callRequest c =>
    obtain ⟨hs, ths, hheaders, htransport, rfl⟩ := h
    obtain ⟨headers, hwrite, hdoc⟩ := headers_stands hheaders
    obtain ⟨transport, hwrite', hdoc'⟩ := headers_stands htransport
    obtain ⟨content, hcontent, hcall⟩ := call_stands hdoc hdoc'
    rw [hwrite, hwrite', hcontent, choice_some]
    exact ⟨_, rfl, choice_stands hcall (fun _ => rfl) rfl⟩
  | callResponse r =>
    obtain ⟨hs, ths, hheaders, htransport, rfl⟩ := h
    obtain ⟨headers, hwrite, hdoc⟩ := headers_stands hheaders
    obtain ⟨transport, hwrite', hdoc'⟩ := headers_stands htransport
    obtain ⟨content, hcontent, hreply⟩ := reply_stands hdoc hdoc'
    rw [hwrite, hwrite', hcontent, choice_some]
    exact ⟨_, rfl, choice_stands hreply (fun _ => rfl) rfl⟩
  | error r =>
    obtain ⟨doc, hwrite, hdoc⟩ := failureReport_written r
    obtain rfl : form = choice "Error" (failureReport.write r) := h
    rw [hwrite, choice_some]
    exact ⟨_, rfl, choice_stands hdoc (fun _ => rfl) rfl⟩

/-- What the codec writes for a frame is one of these. -/
theorem frameForm_write (f : Frame) : FrameForm .anyOrder f (frame.write f) := by
  cases f with
  | callRequest c => exact ⟨_, _, .refl _, .refl _, rfl⟩
  | callResponse r => exact ⟨_, _, .refl _, .refl _, rfl⟩
  | initRequest i => rfl
  | initResponse i => rfl
  | error r => rfl

end Format

end RpcClient.Json
