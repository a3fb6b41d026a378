/-!
Lists of keyed entries in order of first insertion. Writing under a key that is
present replaces the value and keeps its place.
-/

namespace PhpLint

abbrev Keyed (κ : Type) (α : Type) := List (κ × α)

namespace Keyed

variable {κ α : Type} [DecidableEq κ]

/-- Writes a value under a key. -/
def insert (key : κ) (value : α) : Keyed κ α → Keyed κ α
  | [] => [(key, value)]
  | (k, v) :: rest => if k = key then (k, value) :: rest else (k, v) :: insert key value rest

/-- The value under a key. -/
def get? (key : κ) : Keyed κ α → Option α
  | [] => none
  | (k, v) :: rest => if k = key then some v else get? key rest

def contains (key : κ) (m : Keyed κ α) : Bool := (get? key m).isSome

/-- Drops what is under a key. -/
def erase (key : κ) (m : Keyed κ α) : Keyed κ α := m.filter fun (k, _) => k ≠ key

/-- Adds to the list under a key, which is empty at first. -/
def push (key : κ) (value : α) (m : Keyed κ (List α)) : Keyed κ (List α) :=
  insert key ((get? key m).getD [] ++ [value]) m

omit [DecidableEq κ] in
/-- The keys in order. -/
def keys (m : Keyed κ α) : List κ := m.map Prod.fst

theorem get?_insert_self (key : κ) (value : α) (m : Keyed κ α) :
    get? key (insert key value m) = some value := by
  induction m with
  | nil => simp [insert, get?]
  | cons entry rest ih =>
    obtain ⟨k, v⟩ := entry
    by_cases h : k = key <;> simp [insert, get?, h, ih]

theorem get?_insert_of_ne {key other : κ} (h : other ≠ key) (value : α) (m : Keyed κ α) :
    get? other (insert key value m) = get? other m := by
  induction m with
  | nil => simp [insert, get?, Ne.symm h]
  | cons entry rest ih =>
    obtain ⟨k, v⟩ := entry
    by_cases hk : k = key
    · subst hk
      simp [insert, get?, Ne.symm h]
    · simp [insert, get?, hk, ih]

/-- A key keeps its place; a new one goes to the end. -/
theorem keys_insert (key : κ) (value : α) (m : Keyed κ α) :
    keys (insert key value m) = if key ∈ keys m then keys m else keys m ++ [key] := by
  induction m with
  | nil => simp [insert, keys]
  | cons entry rest ih =>
    obtain ⟨k, v⟩ := entry
    by_cases hk : k = key
    · simp [insert, keys, hk]
    · have hk' : key ≠ k := Ne.symm hk
      simp only [keys] at ih
      by_cases hm : key ∈ rest.map Prod.fst <;> simp_all [insert, keys]

end Keyed

end PhpLint
