import Mathlib.Data.List.Basic
import Mathlib.Data.List.Induction
import Mathlib.Data.List.Nodup
import PhpLint.Keyed

/-!
What keyed lists hold. Without repeated keys an entry is found under its key; a new key
goes to the end. Pushing values one after another puts the values of each key together, in
their order, and the keys in the order of first appearance.
-/

namespace PhpLint.Keyed

/-- What is new at the end of a list is kept there. -/
theorem eraseDups_concat {κ : Type} [BEq κ] [LawfulBEq κ] (keys : List κ) (key : κ) :
    (keys ++ [key]).eraseDups =
      if keys.contains key then keys.eraseDups else keys.eraseDups ++ [key] := by
  have hsingle : [key].eraseDups = [key] := rfl
  rw [List.eraseDups_append]
  by_cases hkey : key ∈ keys <;> simp [hkey, List.removeAll, hsingle]

theorem nodup_eraseDups {κ : Type} [BEq κ] [LawfulBEq κ] (keys : List κ) :
    keys.eraseDups.Nodup := by
  induction keys using List.reverseRecOn with
  | nil => exact List.nodup_nil
  | append_singleton keys key ih =>
    rw [eraseDups_concat]
    split
    · exact ih
    · rename_i hkey
      refine List.nodup_append.mpr ⟨ih, List.nodup_singleton key, ?_⟩
      rintro other hother _ hlast rfl
      rw [List.mem_singleton.mp hlast, List.mem_eraseDups] at hother
      exact hkey (List.contains_iff_mem.mpr hother)

theorem eraseDups_of_nodup {κ : Type} [BEq κ] [LawfulBEq κ] {keys : List κ} (h : keys.Nodup) :
    keys.eraseDups = keys := by
  induction keys using List.reverseRecOn with
  | nil => rfl
  | append_singleton keys key ih =>
    obtain ⟨hkeys, -, hnew⟩ := List.nodup_append.mp h
    rw [eraseDups_concat, ih hkeys, if_neg]
    exact fun hmem => hnew key (List.contains_iff_mem.mp hmem) key (by simp) rfl

variable {κ α : Type} [DecidableEq κ]

theorem mem_of_get? {m : Keyed κ α} {key : κ} {value : α} (h : get? key m = some value) :
    (key, value) ∈ m := by
  induction m with
  | nil => cases h
  | cons entry rest ih =>
    obtain ⟨k, v⟩ := entry
    rw [get?] at h
    split at h
    · rename_i hk
      obtain rfl := Option.some.inj h
      exact hk ▸ List.mem_cons_self
    · exact List.mem_cons_of_mem _ (ih h)

theorem get?_eq_some_iff {m : Keyed κ α} (h : m.keys.Nodup) {key : κ} {value : α} :
    get? key m = some value ↔ (key, value) ∈ m := by
  refine ⟨mem_of_get?, fun hmem => ?_⟩
  induction m with
  | nil => cases hmem
  | cons entry rest ih =>
    obtain ⟨hnew, hrest⟩ := List.nodup_cons.mp h
    rcases List.mem_cons.mp hmem with rfl | hmem
    · exact if_pos rfl
    · have hne : entry.1 ≠ key := fun hk => hnew (List.mem_map.mpr ⟨_, hmem, hk.symm⟩)
      rw [get?, if_neg hne]
      exact ih hrest hmem

theorem insert_of_not_mem {m : Keyed κ α} {key : κ} (h : key ∉ m.keys) (value : α) :
    insert key value m = m ++ [(key, value)] := by
  induction m with
  | nil => rfl
  | cons entry rest ih =>
    obtain ⟨k, v⟩ := entry
    obtain ⟨hk, hrest⟩ := not_or.mp (mt List.mem_cons.mpr h)
    rw [insert, if_neg (Ne.symm hk), ih hrest]
    rfl

/-- Values that are written one after another under new keys. -/
theorem foldl_insert (key : α → κ) {values : List α} {m : Keyed κ α}
    (h : (m.keys ++ values.map key).Nodup) :
    values.foldl (fun m value => m.insert (key value) value) m =
      m ++ values.map fun value => (key value, value) := by
  induction values generalizing m with
  | nil => simp
  | cons value values ih =>
    rw [List.map_cons] at h
    have hnew : key value ∉ m.keys := fun hmem =>
      (List.nodup_append.mp h).2.2 _ hmem _ List.mem_cons_self rfl
    have hkeys : keys (m ++ [(key value, value)]) = m.keys ++ [key value] := by simp [keys]
    rw [List.foldl_cons, insert_of_not_mem hnew, ih (by rw [hkeys]; simpa using h)]
    simp

section Table

variable (f : κ → α) {keys : List κ} {key : κ}

theorem get?_map (hkey : key ∈ keys) : get? key (keys.map fun k => (k, f k)) = some (f key) := by
  induction keys with
  | nil => cases hkey
  | cons k keys ih =>
    rw [List.map_cons, get?]
    split
    · rename_i hk
      rw [hk]
    · rename_i hk
      exact ih (List.mem_of_ne_of_mem (Ne.symm hk) hkey)

theorem get?_map_of_not_mem (hkey : key ∉ keys) :
    get? key (keys.map fun k => (k, f k)) = none := by
  induction keys with
  | nil => rfl
  | cons k keys ih =>
    obtain ⟨hk, hrest⟩ := not_or.mp (mt List.mem_cons.mpr hkey)
    rw [List.map_cons, get?, if_neg (Ne.symm hk), ih hrest]

theorem insert_map (hnodup : keys.Nodup) (hkey : key ∈ keys) (value : α) :
    insert key value (keys.map fun k => (k, f k)) =
      keys.map fun k => (k, if k = key then value else f k) := by
  induction keys with
  | nil => cases hkey
  | cons k keys ih =>
    obtain ⟨hnew, hrest⟩ := List.nodup_cons.mp hnodup
    rw [List.map_cons, List.map_cons, insert]
    split
    · rename_i hk
      subst hk
      rw [List.cons.injEq]
      refine ⟨rfl, List.map_congr_left fun j hj => ?_⟩
      rw [if_neg fun hjk : j = k => hnew (hjk ▸ hj)]
    · rename_i hk
      rw [ih hrest (List.mem_of_ne_of_mem (Ne.symm hk) hkey)]

end Table

/-- The values of each key together, under the keys in order of first appearance. -/
def group (entries : List (κ × α)) : Keyed κ (List α) :=
  (entries.map Prod.fst).eraseDups.map fun key =>
    (key, entries.filterMap fun entry => if entry.1 = key then some entry.2 else none)

/-- Pushing one more value. -/
theorem push_group (entries : List (κ × α)) (key : κ) (value : α) :
    push key value (group entries) = group (entries ++ [(key, value)]) := by
  rw [push, group, group, List.map_append, List.map_singleton, eraseDups_concat]
  simp only [List.contains_iff_mem]
  by_cases hkey : key ∈ entries.map Prod.fst
  · have hmem := List.mem_eraseDups.mpr hkey
    rw [get?_map _ hmem, insert_map _ (nodup_eraseDups _) hmem, if_pos hkey]
    apply List.map_congr_left
    intro k hk
    by_cases hsame : k = key
    · simp [hsame]
    · simp [hsame, Ne.symm hsame]
  · have hnot : key ∉ (entries.map Prod.fst).eraseDups := mt List.mem_eraseDups.mp hkey
    rw [get?_map_of_not_mem _ hnot, insert_of_not_mem (by simpa [keys] using hnot), if_neg hkey,
      List.map_append, List.map_singleton]
    have hnone : entries.filterMap (fun entry => if entry.1 = key then some entry.2 else none) =
        [] := by
      rw [List.filterMap_eq_nil_iff]
      intro entry hentry
      rw [if_neg fun hsame => hkey (List.mem_map.mpr ⟨entry, hentry, hsame⟩)]
    congr 1
    · apply List.map_congr_left
      intro k hk
      have hsame : key ≠ k := fun hsame => hnot (hsame ▸ hk)
      simp [hsame]
    · simp [hnone]

theorem foldl_push (front entries : List (κ × α)) :
    entries.foldl (fun m entry => m.push entry.1 entry.2) (group front) =
      group (front ++ entries) := by
  induction entries generalizing front with
  | nil => rw [List.append_nil]; rfl
  | cons entry entries ih =>
    rw [List.foldl_cons, push_group, ih, List.append_assoc]
    rfl

end PhpLint.Keyed
