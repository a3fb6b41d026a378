import Mathlib.Data.List.Basic
import PhpLint.Proofs.Path.Order
import PhpLint.Report

/-!
Tables of failures. The entries stand in the order of their paths, and a failure under a
new path is added to those that are there; so failures under different paths are all kept,
and it does not matter in which order they are entered. A failure under a path that is there
takes the place of the old one.
-/

namespace PhpLint.ErrorTable

/-- The entries stand in the order of their paths, each path once. -/
def Sorted (table : ErrorTable) : Prop :=
  table.Pairwise fun a b => a.1.compare b.1 = .lt

theorem mem_insert {path : Path} {message : String} {table : ErrorTable} {entry : Path × String}
    (h : entry ∈ insert path message table) :
    (entry.1.same path = true ∧ entry.2 = message) ∨ entry ∈ table := by
  induction table with
  | nil =>
    rw [insert, List.mem_singleton] at h
    exact .inl (h ▸ ⟨by simp [Path.same_iff], rfl⟩)
  | cons first rest ih =>
    obtain ⟨p, m⟩ := first
    rw [insert] at h
    split at h
    · rcases List.mem_cons.mp h with rfl | h
      · exact .inl ⟨by simp [Path.same_iff], rfl⟩
      · exact .inr h
    · rename_i heq
      rcases List.mem_cons.mp h with rfl | h
      · rw [Path.compare_eq_iff, Path.same_iff] at heq
        exact .inl ⟨Path.same_iff.mpr heq.symm, rfl⟩
      · exact .inr (List.mem_cons_of_mem _ h)
    · rcases List.mem_cons.mp h with rfl | h
      · exact .inr List.mem_cons_self
      · exact (ih h).imp_right (List.mem_cons_of_mem _)

theorem same_of_lt {p q : Path} (h : p.compare q = .lt) : p.same q = false := by
  rw [← Bool.not_eq_true, ← Path.compare_eq_iff, h]
  exact Ordering.noConfusion

/-- A path in front of the first entry of a sorted table is in front of all of them. -/
theorem Sorted.all_behind {p : Path} {first : Path × String} {rest : ErrorTable}
    (h : Sorted (first :: rest)) (hlt : p.compare first.1 = .lt) :
    ∀ entry ∈ first :: rest, p.compare entry.1 = .lt := by
  intro entry hentry
  rcases List.mem_cons.mp hentry with rfl | hentry
  · exact hlt
  · exact Std.TransCmp.lt_trans hlt ((List.pairwise_cons.mp h).1 entry hentry)

theorem sorted_insert {table : ErrorTable} (h : Sorted table) (path : Path) (message : String) :
    Sorted (insert path message table) := by
  induction table with
  | nil => exact List.pairwise_singleton _ _
  | cons first rest ih =>
    obtain ⟨p, m⟩ := first
    obtain ⟨hfirst, hrest⟩ := List.pairwise_cons.mp h
    rw [insert]
    split
    · rename_i hlt
      exact List.pairwise_cons.mpr ⟨h.all_behind hlt, h⟩
    · exact List.pairwise_cons.mpr ⟨hfirst, hrest⟩
    · rename_i hgt
      refine List.pairwise_cons.mpr ⟨fun entry hentry => ?_, ih hrest⟩
      rcases mem_insert hentry with ⟨hsame, -⟩ | hentry
      · rw [Path.same_iff] at hsame
        rw [Path.compare, hsame, ← Path.compare]
        exact Std.OrientedCmp.lt_of_gt hgt
      · exact hfirst entry hentry

/-- A failure under a new path is added. -/
theorem insert_perm {path : Path} {message : String} {table : ErrorTable}
    (hnew : ∀ entry ∈ table, path.same entry.1 = false) :
    (insert path message table).Perm ((path, message) :: table) := by
  induction table with
  | nil => exact List.Perm.refl _
  | cons first rest ih =>
    obtain ⟨p, m⟩ := first
    rw [insert]
    split
    · exact List.Perm.refl _
    · rename_i heq
      rw [Path.compare_eq_iff, hnew (p, m) List.mem_cons_self] at heq
      cases heq
    · have hrest := ih fun entry hentry => hnew entry (List.mem_cons_of_mem _ hentry)
      exact (hrest.cons (p, m)).trans (List.Perm.swap ..)

/-- Writing entries one after another into a table. -/
def insertAll (table : ErrorTable) (entries : List (Path × String)) : ErrorTable :=
  entries.foldl (fun table entry => insert entry.1 entry.2 table) table

theorem sorted_insertAll {table : ErrorTable} (h : Sorted table) (entries : List (Path × String)) :
    Sorted (insertAll table entries) := by
  induction entries generalizing table with
  | nil => exact h
  | cons entry entries ih => exact ih (sorted_insert h entry.1 entry.2)

/-- Failures under different paths are all kept. -/
theorem insertAll_perm {table : ErrorTable} {entries : List (Path × String)}
    (hdistinct : entries.Pairwise fun a b => a.1.same b.1 = false)
    (hnew : ∀ entry ∈ entries, ∀ known ∈ table, entry.1.same known.1 = false) :
    (insertAll table entries).Perm (table ++ entries) := by
  induction entries generalizing table with
  | nil =>
    rw [List.append_nil]
    exact List.Perm.refl _
  | cons entry entries ih =>
    obtain ⟨hentry, hentries⟩ := List.pairwise_cons.mp hdistinct
    have hinsert : (insert entry.1 entry.2 table).Perm (entry :: table) :=
      insert_perm (hnew entry List.mem_cons_self)
    refine (ih hentries fun later hlater known hknown => ?_).trans ?_
    · rcases List.mem_cons.mp (hinsert.mem_iff.mp hknown) with rfl | hknown
      · rw [Path.same_comm]
        exact hentry later hlater
      · exact hnew later (List.mem_cons_of_mem _ hlater) known hknown
    · exact (hinsert.append_right entries).trans List.perm_middle.symm

theorem Sorted.distinct {table : ErrorTable} (h : Sorted table) :
    table.Pairwise fun a b => a.1.same b.1 = false :=
  h.imp same_of_lt

/-- Two sorted tables of the same failures are the same. -/
theorem Sorted.eq_of_perm {table other : ErrorTable} (h : Sorted table) (hother : Sorted other)
    (hperm : table.Perm other) : table = other := by
  refine List.Perm.eq_of_pairwise (fun a b _ _ hlt hgt => ?_) h hother hperm
  exact absurd hgt (Std.OrientedCmp.not_lt_of_lt hlt)

/-- The failures of a sorted table, entered in any order, give that table. -/
theorem ofEntries_perm {table : ErrorTable} {entries : List (Path × String)} (h : Sorted table)
    (hperm : entries.Perm table) : ofEntries entries = table := by
  have hdistinct : entries.Pairwise fun a b => a.1.same b.1 = false := by
    refine (hperm.pairwise_iff fun {a b} hsame => ?_).mpr h.distinct
    rw [Path.same_comm]
    exact hsame
  have hentries : (insertAll [] entries).Perm entries := insertAll_perm hdistinct (by simp)
  exact (sorted_insertAll List.Pairwise.nil entries).eq_of_perm h (hentries.trans hperm)

/-- The message under a path. -/
def get? (path : Path) (table : ErrorTable) : Option String :=
  (table.find? fun entry => entry.1.same path).map Prod.snd

theorem get?_cons (path p : Path) (message : String) (rest : ErrorTable) :
    get? path ((p, message) :: rest) = if p.same path then some message else get? path rest := by
  rw [get?, get?, List.find?_cons]
  cases p.same path <;> rfl

theorem get?_append (path : Path) (front back : ErrorTable) :
    get? path (front ++ back) = (get? path front).or (get? path back) := by
  rw [get?, List.find?_append, Option.map_or]
  rfl

/-- A message that is written is the one under its path, and the others stay. -/
theorem get?_insert (path other : Path) (message : String) (table : ErrorTable) :
    get? other (insert path message table) =
      if path.same other then some message else get? other table := by
  induction table with
  | nil => exact get?_cons other path message []
  | cons first rest ih =>
    obtain ⟨p, m⟩ := first
    rw [insert]
    split
    · exact get?_cons other path message _
    · rename_i heq
      rw [Path.compare_eq_iff, Path.same_iff] at heq
      have hsame : p.same other = path.same other := by simp only [Path.same, heq]
      rw [get?_cons, get?_cons, hsame]
      split <;> rfl
    · rename_i hgt
      rw [get?_cons, get?_cons, ih]
      split
      · rename_i hp
        -- The path is another one than the first, so only one of the two is asked for.
        rw [if_neg]
        intro hpath
        rw [Path.same_iff] at hp hpath
        rw [Path.compare_eq_iff.mpr (Path.same_iff.mpr (hpath.trans hp.symm))] at hgt
        cases hgt
      · rfl

/-- After entries are written, a path has the message written last under it, or else the one
that was there. -/
theorem get?_insertAll (path : Path) (table : ErrorTable) (entries : List (Path × String)) :
    get? path (insertAll table entries) = (get? path entries.reverse).or (get? path table) := by
  induction entries generalizing table with
  | nil => rfl
  | cons entry entries ih =>
    have hlast := get?_cons path entry.1 entry.2 []
    rw [insertAll, List.foldl_cons, ← insertAll, ih, get?_insert, List.reverse_cons, get?_append,
      hlast, Option.or_assoc]
    split <;> rfl

/-- Writing under a path that is there keeps the paths. -/
theorem paths_insert {table : ErrorTable} (h : Sorted table) {path : Path} {message : String}
    (hthere : get? path table ≠ none) :
    (insert path message table).map Prod.fst = table.map Prod.fst := by
  induction table with
  | nil => exact absurd rfl hthere
  | cons first rest ih =>
    obtain ⟨p, m⟩ := first
    rw [insert]
    split
    · rename_i hlt
      -- All paths of the table come behind this one.
      refine absurd ?_ hthere
      rw [get?, Option.map_eq_none_iff, List.find?_eq_none]
      intro entry hentry
      rw [Path.same_comm, same_of_lt (h.all_behind hlt entry hentry)]
      exact Bool.false_ne_true
    · rfl
    · rename_i hgt
      rw [get?_cons, same_of_lt (Std.OrientedCmp.lt_of_gt hgt)] at hthere
      rw [List.map_cons, ih (List.pairwise_cons.mp h).2 hthere]
      rfl

theorem paths_insertAll {table : ErrorTable} (h : Sorted table) {entries : List (Path × String)}
    (hthere : ∀ entry ∈ entries, get? entry.1 table ≠ none) :
    (insertAll table entries).map Prod.fst = table.map Prod.fst := by
  induction entries generalizing table with
  | nil => rfl
  | cons entry entries ih =>
    have hentry := hthere entry List.mem_cons_self
    refine (ih (sorted_insert h entry.1 entry.2) fun later hlater => ?_).trans
      (paths_insert h hentry)
    rw [get?_insert]
    split
    · exact Option.some_ne_none _
    · exact hthere later (List.mem_cons_of_mem _ hlater)

/-- A sorted table is made of its paths and what is under them. -/
theorem Sorted.eq_map {table : ErrorTable} (h : Sorted table) :
    table = (table.map Prod.fst).map fun p => (p, (get? p table).getD "") := by
  rw [List.map_map]
  refine (List.map_id table).symm.trans (List.map_congr_left fun entry hentry => ?_)
  obtain ⟨front, back, rfl⟩ := List.append_of_mem hentry
  have hfront : get? entry.1 front = none := by
    rw [get?, Option.map_eq_none_iff, List.find?_eq_none]
    intro other hother
    rw [(List.pairwise_append.mp h.distinct).2.2 other hother entry List.mem_cons_self]
    exact Bool.false_ne_true
  have hself : entry.1.same entry.1 = true := Path.same_iff.mpr rfl
  have hthere : get? entry.1 (front ++ entry :: back) = some entry.2 := by
    rw [get?_append, hfront, Option.none_or, get?_cons, if_pos hself]
  rw [Function.comp_apply, hthere]
  rfl

/-- Entries leave a sorted table as it is if what is written last under each path is there
already. -/
theorem insertAll_eq_self_iff {table : ErrorTable} (h : Sorted table)
    (entries : List (Path × String)) :
    insertAll table entries = table ↔
      ∀ p message, get? p entries.reverse = some message → get? p table = some message := by
  constructor
  · intro hsame p message hwritten
    rw [← hsame, get?_insertAll, hwritten]
    rfl
  · intro hthere
    have hget : ∀ p, get? p (insertAll table entries) = get? p table := by
      intro p
      rw [get?_insertAll]
      cases hwritten : get? p entries.reverse with
      | none => rfl
      | some message => exact (hthere p message hwritten).symm
    have hpaths : (insertAll table entries).map Prod.fst = table.map Prod.fst := by
      refine paths_insertAll h fun entry hentry hnone => ?_
      have hwritten : get? entry.1 entries.reverse ≠ none := by
        rw [get?, ne_eq, Option.map_eq_none_iff, List.find?_eq_none]
        exact fun hnot => hnot entry (List.mem_reverse.mpr hentry) (Path.same_iff.mpr rfl)
      obtain ⟨message, hmessage⟩ := Option.ne_none_iff_exists'.mp hwritten
      rw [hthere entry.1 message hmessage] at hnone
      cases hnone
    rw [(sorted_insertAll h entries).eq_map, hpaths]
    simp only [hget]
    exact h.eq_map.symm

end PhpLint.ErrorTable
