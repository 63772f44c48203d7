/-
What a finite map keeps of the entries that are put into it. A map is known by
its entries in any order (`Dict.ext_perm`), so entries with different keys
make one map however they are put in (`Dict.ofList_perm`). Of entries with the same
key, the one that is put in last is found (`Dict.find?_insertMany`); in a list of entries
whose keys stand once, each one is found (`lookup_eq_some_of_mem`).
-/
import Mathlib.Data.List.Nodup
import Mathlib.Data.List.Perm.Basic
import RpcClient.Dict

namespace RpcClient

variable {κ α : Type} [Ord κ]

/-- A key stands once. -/
theorem SortedKeys.nodup [Std.TransOrd κ] {entries : List (κ × α)} (h : SortedKeys entries) :
    (entries.map (·.1)).Nodup := by
  rw [List.Nodup, List.pairwise_map]
  refine h.imp fun {a b} hlt heq => ?_
  rw [heq, Std.ReflOrd.compare_self] at hlt
  cases hlt

/-- A new key is put in beside the others. -/
theorem insertSorted_perm [Std.LawfulEqOrd κ] {k : κ} {v : α} {entries : List (κ × α)}
    (h : k ∉ entries.map (·.1)) : (insertSorted k v entries).Perm ((k, v) :: entries) := by
  induction entries with
  | nil => exact .refl _
  | cons e rest ih =>
    obtain ⟨k', v'⟩ := e
    simp only [List.map_cons, List.mem_cons, not_or] at h
    simp only [insertSorted]
    split
    · exact .refl _
    · next heq => exact absurd (Std.LawfulEqCmp.eq_of_compare heq) h.1
    · exact ((ih h.2).cons _).trans (.swap _ _ _)

namespace Dict

theorem ext_perm [Std.TransOrd κ] {d d' : Dict κ α} (h : d.entries.Perm d'.entries) : d = d' := by
  have heq : d.entries = d'.entries := by
    refine List.Perm.eq_of_pairwise (fun a b ha hb hab hba => ?_) d.sorted d'.sorted h
    have hlt : compare a.1 a.1 = .lt := Std.TransCmp.lt_trans hab hba
    rw [Std.ReflOrd.compare_self] at hlt
    cases hlt
  cases d
  cases d'
  cases heq
  rfl

variable [Std.TransOrd κ] [Std.LawfulEqOrd κ]

theorem insertMany_perm {d : Dict κ α} {entries : List (κ × α)}
    (keys : ((d.entries ++ entries).map (·.1)).Nodup) :
    (d.insertMany entries).entries.Perm (d.entries ++ entries) := by
  -- On the entries, the map that they go into being whatever it has become.
  induction entries generalizing d with
  | nil => simp [insertMany]
  | cons e rest ih =>
    have hmiddle : (d.entries ++ e :: rest).Perm (e :: (d.entries ++ rest)) := List.perm_middle
    have hkeys : (e.1 :: (d.entries ++ rest).map (·.1)).Nodup :=
      (hmiddle.map _).nodup_iff.1 keys
    have hnew : e.1 ∉ d.entries.map (·.1) := fun hmem => by
      refine (List.nodup_cons.1 hkeys).1 ?_
      rw [List.map_append]
      exact List.mem_append_left _ hmem
    have hfirst : (d.insert e.1 e.2).entries.Perm (e :: d.entries) := insertSorted_perm hnew
    have hall : ((d.insert e.1 e.2).entries ++ rest).Perm (e :: (d.entries ++ rest)) :=
      hfirst.append_right rest
    have hrest := ih (d := d.insert e.1 e.2) ((hall.map _).nodup_iff.2 hkeys)
    exact hrest.trans (hall.trans hmiddle.symm)

/-- The entries of a map make it again, in whatever order they come. -/
theorem ofList_perm {d : Dict κ α} {entries : List (κ × α)} (h : entries.Perm d.entries) :
    ofList entries = d := by
  have hkeys : (entries.map (·.1)).Nodup := (h.map _).nodup_iff.2 d.sorted.nodup
  have hperm : (ofList entries).entries.Perm entries :=
    insertMany_perm (d := empty) (by simpa [empty] using hkeys)
  exact ext_perm (hperm.trans h)

end Dict

/-! ## What is found -/

section Lookup

omit [Ord κ] in
theorem mem_of_lookup_eq_some [BEq κ] [LawfulBEq κ] {entries : List (κ × α)} {k : κ} {v : α}
    (h : entries.lookup k = some v) : (k, v) ∈ entries := by
  obtain ⟨front, back, rfl, _⟩ := List.lookup_eq_some_iff.1 h
  simp

omit [Ord κ] in
theorem lookup_eq_some_of_mem [BEq κ] [LawfulBEq κ] {entries : List (κ × α)} {k : κ} {v : α}
    (keys : (entries.map (·.1)).Nodup) (h : (k, v) ∈ entries) : entries.lookup k = some v := by
  obtain ⟨front, back, rfl⟩ := List.append_of_mem h
  refine List.lookup_eq_some_iff.2 ⟨front, back, rfl, fun e he => ?_⟩
  rw [List.map_append, List.nodup_append] at keys
  have hne := keys.2.2 e.1 (List.mem_map_of_mem he) k (by simp)
  simpa using hne.symm

variable [DecidableEq κ]

omit [Ord κ] in
theorem lookup_first (e : κ × α) (rest : List (κ × α)) (k : κ) :
    (e :: rest).lookup k = if k = e.1 then some e.2 else rest.lookup k := by
  rw [List.lookup_cons]
  by_cases hk : k = e.1
  · rw [if_pos hk, beq_iff_eq.2 hk]
  · rw [if_neg hk, beq_eq_false_iff_ne.2 hk]

omit [Ord κ] in
/-- Where each entry is put over the one for its key, the last one is found. -/
theorem foldl_latest {σ : Type} {put : σ → κ × α → σ} {find? : σ → κ → Option α}
    (step : ∀ s e k, find? (put s e) k = if k = e.1 then some e.2 else find? s k)
    (entries : List (κ × α)) (s : σ) (k : κ) :
    find? (entries.foldl put s) k = (entries.reverse.lookup k).or (find? s k) := by
  induction entries generalizing s with
  | nil => rfl
  | cons e entries ih =>
    rw [List.foldl_cons, ih, step, List.reverse_cons, List.lookup_append, Option.or_assoc,
      lookup_first]
    split <;> rfl

theorem lookup_insertSorted [Std.TransOrd κ] [Std.LawfulEqOrd κ] (entries : List (κ × α))
    (k k' : κ) (v : α) :
    (insertSorted k v entries).lookup k' = if k' = k then some v else entries.lookup k' := by
  induction entries with
  | nil => exact lookup_first (k, v) [] k'
  | cons e rest ih =>
    obtain ⟨k₁, v₁⟩ := e
    simp only [insertSorted]
    split
    · exact lookup_first (k, v) _ k'
    · next heq =>
      obtain rfl : k = k₁ := Std.LawfulEqCmp.eq_of_compare heq
      rw [lookup_first, lookup_first]
      split <;> rfl
    · next hgt =>
      have hne : k₁ ≠ k := by
        rintro rfl
        rw [Std.ReflOrd.compare_self] at hgt
        cases hgt
      rw [lookup_first, ih, lookup_first]
      by_cases hk : k' = k₁
      · rw [if_pos hk, if_pos hk, if_neg (hk ▸ hne)]
      · rw [if_neg hk, if_neg hk]

namespace Dict

variable [Std.TransOrd κ] [Std.LawfulEqOrd κ]

theorem find?_insert (d : Dict κ α) (k k' : κ) (v : α) :
    (d.insert k v).find? k' = if k' = k then some v else d.find? k' :=
  lookup_insertSorted d.entries k k' v

theorem find?_insertIfNew (d : Dict κ α) (k k' : κ) (v : α) :
    (d.insertIfNew k v).find? k' = (d.find? k').or (if k' = k then some v else none) := by
  unfold insertIfNew
  by_cases hk : k' = k
  · subst hk
    cases hfound : d.find? k' <;> simp [hfound, find?_insert]
  · split <;> simp [find?_insert, hk]

theorem find?_insertMany (d : Dict κ α) (entries : List (κ × α)) (k : κ) :
    (d.insertMany entries).find? k = (entries.reverse.lookup k).or (d.find? k) :=
  foldl_latest (fun d e k => d.find?_insert e.1 k e.2) entries d k

end Dict

end Lookup

end RpcClient
