/-
Finite maps with their entries sorted by key. Each map has one
representation, so two maps are equal when they hold the same entries,
whatever the order in which these were put in. `SortedKeys.insertSorted`
says that putting an entry in its place keeps the order.
-/

namespace RpcClient

variable {κ : Type} {α : Type} [Ord κ]

/-- Each key comes before all keys after it. -/
def SortedKeys (entries : List (κ × α)) : Prop :=
  entries.Pairwise fun a b => compare a.1 b.1 = .lt

/-- Puts an entry in its place, over one with the same key. -/
def insertSorted (k : κ) (v : α) : List (κ × α) → List (κ × α)
  | [] => [(k, v)]
  | (k', v') :: rest =>
    match compare k k' with
    | .lt => (k, v) :: (k', v') :: rest
    | .eq => (k, v) :: rest
    | .gt => (k', v') :: insertSorted k v rest

theorem mem_insertSorted {k : κ} {v : α} {e : κ × α} {entries : List (κ × α)}
    (h : e ∈ insertSorted k v entries) : e = (k, v) ∨ e ∈ entries := by
  induction entries with
  | nil => simpa [insertSorted] using h
  | cons p rest ih =>
    obtain ⟨k', v'⟩ := p
    simp only [insertSorted] at h
    split at h
    · simpa using h
    · rcases List.mem_cons.1 h with h | h
      · exact .inl h
      · exact .inr (List.mem_cons_of_mem _ h)
    · rcases List.mem_cons.1 h with h | h
      · exact .inr (h ▸ List.mem_cons_self)
      · exact (ih h).imp_right (List.mem_cons_of_mem _)

theorem SortedKeys.insertSorted [Std.TransOrd κ] [Std.LawfulEqOrd κ] {entries : List (κ × α)}
    (h : SortedKeys entries) (k : κ) (v : α) : SortedKeys (insertSorted k v entries) := by
  induction entries with
  | nil => simp [RpcClient.insertSorted, SortedKeys]
  | cons p rest ih =>
    obtain ⟨k', v'⟩ := p
    have hp := List.pairwise_cons.1 h
    simp only [RpcClient.insertSorted]
    split
    · rename_i hlt
      refine List.pairwise_cons.2 ⟨fun e he => ?_, h⟩
      rcases List.mem_cons.1 he with rfl | he
      · exact hlt
      · exact Std.TransCmp.lt_trans hlt (hp.1 e he)
    · rename_i heq
      have : k = k' := Std.LawfulEqCmp.eq_of_compare heq
      subst this
      exact List.pairwise_cons.2 ⟨fun e he => hp.1 e he, hp.2⟩
    · rename_i hgt
      refine List.pairwise_cons.2 ⟨fun e he => ?_, ih hp.2⟩
      rcases mem_insertSorted he with rfl | he
      · exact Std.OrientedCmp.lt_of_gt hgt
      · exact hp.1 e he

/-- A finite map. -/
structure Dict (κ α : Type) [Ord κ] where
  entries : List (κ × α)
  sorted : SortedKeys entries

instance [DecidableEq κ] [DecidableEq α] : DecidableEq (Dict κ α) := fun a b =>
  decidable_of_iff (a.entries = b.entries) (by cases a; cases b; simp)

namespace Dict

/-- The map without entries. -/
def empty : Dict κ α := ⟨[], List.Pairwise.nil⟩

instance : EmptyCollection (Dict κ α) := ⟨empty⟩
instance : Inhabited (Dict κ α) := ⟨empty⟩

/-- What a map holds under a key. -/
def find? [DecidableEq κ] (d : Dict κ α) (k : κ) : Option α := d.entries.lookup k

/-- The number of entries. -/
def size (d : Dict κ α) : Nat := d.entries.length

variable [Std.TransOrd κ] [Std.LawfulEqOrd κ]

/-- The map with one entry more, or another value under a key that it has. -/
def insert (d : Dict κ α) (k : κ) (v : α) : Dict κ α :=
  ⟨insertSorted k v d.entries, d.sorted.insertSorted k v⟩

/-- Puts entries into a map in their order, so that a later one wins. -/
def insertMany (d : Dict κ α) (entries : List (κ × α)) : Dict κ α :=
  entries.foldl (fun d e => d.insert e.1 e.2) d

/-- The map of a list of entries; the last with a key counts. -/
def ofList (entries : List (κ × α)) : Dict κ α := empty.insertMany entries

/-- Puts an entry in unless the key has one. -/
def insertIfNew [DecidableEq κ] (d : Dict κ α) (k : κ) (v : α) : Dict κ α :=
  if (d.find? k).isSome then d else d.insert k v

end Dict

end RpcClient
