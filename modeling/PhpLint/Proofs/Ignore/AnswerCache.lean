import Mathlib.Data.List.Nodup
import PhpLint.Ignore.Matcher

/-!
The remembered answers as a list, in the order in which they were given. The order and
the table of answers hold the same paths, each of them once; a new answer goes to the
end, and if the limit is reached the older half goes before it comes. So there are
never more answers than the limit.
-/

namespace PhpLint.Ignore.AnswerCache

/-- The paths with an answer, by their components, in the order of the answers. -/
def keys (c : AnswerCache) : List (List PathComponent) := c.recent.reverse

/-- The paths in that order, each with what the table holds for it. -/
def entries (c : AnswerCache) : List (List PathComponent × Option Bool) :=
  c.keys.map fun key => (key, c.answers[key]?)

/-- The order and the table of answers belong together. -/
structure Coherent (c : AnswerCache) : Prop where
  nodup : c.keys.Nodup
  mem_iff : ∀ key, key ∈ c.keys ↔ key ∈ c.answers

theorem coherent_empty : Coherent {} where
  nodup := List.nodup_nil
  mem_iff := by simp [keys]

theorem Coherent.length_keys {c : AnswerCache} (h : c.Coherent) : c.keys.length = c.size := by
  have hperm : c.keys.Perm c.answers.keys := by
    rw [List.perm_ext_iff_of_nodup h.nodup Std.HashMap.nodup_keys]
    intro key
    rw [h.mem_iff, Std.HashMap.mem_keys]
  rw [hperm.length_eq, Std.HashMap.length_keys, size]

theorem Coherent.not_mem_of_get? {c : AnswerCache} (h : c.Coherent) {path : Path}
    (hnew : c.get? path = none) : path.components ∉ c.keys := by
  rw [h.mem_iff, Std.HashMap.mem_iff_isSome_getElem?]
  simpa [get?] using hnew

theorem getElem?_foldl_erase (gone : List (List PathComponent))
    (answers : Std.HashMap (List PathComponent) Bool) (key : List PathComponent) :
    (gone.foldl (fun answers key => answers.erase key) answers)[key]? =
      if key ∈ gone then none else answers[key]? := by
  induction gone generalizing answers with
  | nil => simp
  | cons first gone ih =>
    rw [List.foldl_cons, ih, Std.HashMap.getElem?_erase]
    by_cases hfirst : first = key
    · simp [hfirst]
    · simp [hfirst, Ne.symm hfirst]

/-- The paths that are kept are the newest. -/
theorem keys_dropOlderHalf {c : AnswerCache} (h : c.Coherent) :
    c.dropOlderHalf.keys = c.keys.drop (c.size / 2) := by
  have hlength := h.length_keys
  rw [keys, List.length_reverse] at hlength
  rw [dropOlderHalf, keys, keys, List.drop_reverse, hlength]

/-- They keep their answers, and no other path does. -/
theorem getElem?_dropOlderHalf {c : AnswerCache} (h : c.Coherent) (key : List PathComponent) :
    c.dropOlderHalf.answers[key]? =
      if key ∈ c.keys.drop (c.size / 2) then c.answers[key]? else none := by
  have hsplit := List.take_append_drop (c.size / 2) c.keys
  have hgone : c.recent.drop (c.size - c.size / 2) = (c.keys.take (c.size / 2)).reverse := by
    have hlength := h.length_keys
    rw [keys, List.length_reverse] at hlength
    rw [keys, List.take_reverse, List.reverse_reverse, hlength]
  simp only [dropOlderHalf, getElem?_foldl_erase, hgone, List.mem_reverse]
  by_cases hkept : key ∈ c.keys.drop (c.size / 2)
  · have hnodup := h.nodup
    rw [← hsplit, List.nodup_append] at hnodup
    rw [if_pos hkept, if_neg fun hgone => hnodup.2.2 _ hgone _ hkept rfl]
  · rw [if_neg hkept, ite_eq_left_iff]
    intro hnot
    rw [← Option.not_isSome_iff_eq_none, ← Std.HashMap.mem_iff_isSome_getElem?, ← h.mem_iff,
      ← hsplit, List.mem_append]
    exact not_or.mpr ⟨hnot, hkept⟩

theorem Coherent.dropOlderHalf {c : AnswerCache} (h : c.Coherent) : c.dropOlderHalf.Coherent where
  nodup := by
    rw [keys_dropOlderHalf h]
    exact h.nodup.drop
  mem_iff key := by
    rw [keys_dropOlderHalf h, Std.HashMap.mem_iff_isSome_getElem?, getElem?_dropOlderHalf h]
    by_cases hkept : key ∈ c.keys.drop (c.size / 2)
    · have hmem := (h.mem_iff key).mp (List.mem_of_mem_drop hkept)
      simpa [hkept] using Std.HashMap.mem_iff_isSome_getElem?.mp hmem
    · simp [hkept]

theorem entries_dropOlderHalf {c : AnswerCache} (h : c.Coherent) :
    c.dropOlderHalf.entries = c.entries.drop (c.size / 2) := by
  rw [entries, keys_dropOlderHalf h, entries, ← List.map_drop]
  apply List.map_congr_left
  intro key hkept
  rw [getElem?_dropOlderHalf h, if_pos hkept]

theorem size_dropOlderHalf {c : AnswerCache} (h : c.Coherent) :
    c.dropOlderHalf.size = c.size - c.size / 2 := by
  rw [← h.dropOlderHalf.length_keys, keys_dropOlderHalf h, List.length_drop, h.length_keys]

/-- What is left when there has to be room for one more answer. -/
def withRoom (c : AnswerCache) : AnswerCache := if limit ≤ c.size then c.dropOlderHalf else c

theorem withRoom_facts {c : AnswerCache} (h : c.Coherent) (hsize : c.size ≤ limit) :
    c.withRoom.Coherent ∧ c.withRoom.keys.Sublist c.keys ∧ c.withRoom.size < limit := by
  unfold withRoom
  split
  · rename_i hfull
    refine ⟨h.dropOlderHalf, ?_, ?_⟩
    · rw [keys_dropOlderHalf h]
      exact List.drop_sublist ..
    · rw [size_dropOlderHalf h]
      simp only [limit] at *
      omega
  · rename_i hroom
    exact ⟨h, List.Sublist.refl _, Nat.lt_of_not_le hroom⟩

/-- Nothing but what was remembered before is left. -/
theorem getElem?_withRoom {c : AnswerCache} (h : c.Coherent) {key : List PathComponent}
    {answer : Bool} (hkey : c.withRoom.answers[key]? = some answer) :
    c.answers[key]? = some answer := by
  unfold withRoom at hkey
  split at hkey
  · rw [getElem?_dropOlderHalf h] at hkey
    split at hkey
    · exact hkey
    · cases hkey
  · exact hkey

theorem keys_insert (c : AnswerCache) (path : Path) (answer : Bool) :
    (c.insert path answer).keys = c.withRoom.keys ++ [path.components] := by
  simp [insert, keys, withRoom]

theorem getElem?_insert (c : AnswerCache) (path : Path) (answer : Bool)
    (key : List PathComponent) :
    (c.insert path answer).answers[key]? =
      if path.components = key then some answer else c.withRoom.answers[key]? := by
  simp [insert, withRoom, Std.HashMap.getElem?_insert]

section Insert

variable {c : AnswerCache} (h : c.Coherent) (hsize : c.size ≤ limit) {path : Path}
  (hnew : c.get? path = none) (answer : Bool)

include h hsize hnew

theorem Coherent.insert : (c.insert path answer).Coherent := by
  obtain ⟨hroom, hsublist, -⟩ := withRoom_facts h hsize
  have hnot : path.components ∉ c.withRoom.keys :=
    fun hmem => h.not_mem_of_get? hnew (hsublist.subset hmem)
  constructor
  · rw [keys_insert, List.nodup_append]
    refine ⟨hroom.nodup, List.nodup_singleton _, ?_⟩
    intro key hkey last hlast heq
    rw [List.mem_singleton] at hlast
    exact hnot (hlast ▸ heq ▸ hkey)
  · intro key
    rw [keys_insert, List.mem_append, hroom.mem_iff, Std.HashMap.mem_iff_isSome_getElem?,
      Std.HashMap.mem_iff_isSome_getElem?, getElem?_insert]
    by_cases hkey : path.components = key
    · simp [hkey]
    · simp [hkey, Ne.symm hkey]

theorem size_insert_le : (c.insert path answer).size ≤ limit := by
  obtain ⟨hroom, -, hlt⟩ := withRoom_facts h hsize
  rw [← (h.insert hsize hnew answer).length_keys, keys_insert, List.length_append,
    hroom.length_keys]
  exact hlt

/-- A new answer goes behind those that are left. -/
theorem entries_insert :
    (c.insert path answer).entries = c.withRoom.entries ++ [(path.components, some answer)] := by
  obtain ⟨-, hsublist, -⟩ := withRoom_facts h hsize
  rw [entries, keys_insert, List.map_append, entries]
  congr 1
  · apply List.map_congr_left
    intro key hkey
    have hne : path.components ≠ key :=
      fun heq => h.not_mem_of_get? hnew (heq ▸ hsublist.subset hkey)
    rw [getElem?_insert, if_neg hne]
  · simp [getElem?_insert]

end Insert

end PhpLint.Ignore.AnswerCache
