import Mathlib.Data.List.Sort
import PhpLint.Discovery
import PhpLint.Proofs.Path.Order

/-!
Sorting what was found. After it each path stands before those that are greater, and of
those that are the same only one is left.
-/

namespace PhpLint.Discovery

/-- Every path comes before those behind it, and none of them is the same. -/
def Increasing (paths : List Path) : Prop := paths.Pairwise fun p q => p.compare q = .lt

theorem mem_of_mem_dropRepeatsFrom {p q : Path} {paths : List Path}
    (h : q ∈ dropRepeatsFrom p paths) : q ∈ p :: paths := by
  induction paths generalizing p with
  | nil => exact h
  | cons r paths ih =>
    rw [dropRepeatsFrom] at h
    split at h
    · have hmem := ih h
      rw [List.mem_cons] at hmem ⊢
      exact hmem.imp_right (List.mem_cons_of_mem r)
    · rcases List.mem_cons.mp h with rfl | h
      · exact List.mem_cons_self
      · exact List.mem_cons_of_mem p (ih h)

/-- A path that is dropped is the same as one that is left. -/
theorem exists_same_of_mem {p q : Path} {paths : List Path} (h : q ∈ p :: paths) :
    ∃ r ∈ dropRepeatsFrom p paths, r.same q = true := by
  induction paths generalizing p q with
  | nil =>
    obtain rfl := List.mem_singleton.mp h
    exact ⟨q, List.mem_singleton_self q, Path.same_iff.mpr rfl⟩
  | cons s paths ih =>
    rw [dropRepeatsFrom]
    split
    · rename_i hsame
      rcases List.mem_cons.mp h with rfl | h
      · exact ih List.mem_cons_self
      · rcases List.mem_cons.mp h with rfl | h
        · obtain ⟨r, hr, hrp⟩ := ih List.mem_cons_self
          rw [Path.same_iff] at hsame hrp
          exact ⟨r, hr, Path.same_iff.mpr (hrp.trans hsame)⟩
        · exact ih (List.mem_cons_of_mem p h)
    · rcases List.mem_cons.mp h with rfl | h
      · exact ⟨q, List.mem_cons_self, Path.same_iff.mpr rfl⟩
      · obtain ⟨r, hr, hrq⟩ := ih h
        exact ⟨r, List.mem_cons_of_mem p hr, hrq⟩

theorem increasing_dropRepeatsFrom {p : Path} {paths : List Path}
    (h : (p :: paths).Pairwise fun p q => (p.compare q).isLE) :
    Increasing (dropRepeatsFrom p paths) := by
  induction paths generalizing p with
  | nil => exact List.pairwise_singleton _ p
  | cons q paths ih =>
    obtain ⟨hp, hq⟩ := List.pairwise_cons.mp h
    rw [dropRepeatsFrom]
    split
    · exact ih (List.pairwise_cons.mpr
        ⟨fun r hr => hp r (List.mem_cons_of_mem q hr), (List.pairwise_cons.mp hq).2⟩)
    · rename_i hdifferent
      have hlt : p.compare q = .lt := by
        have hle := hp q List.mem_cons_self
        rw [← Path.compare_eq_iff] at hdifferent
        cases hpq : p.compare q <;> simp_all
      refine List.pairwise_cons.mpr ⟨fun r hr => ?_, ih hq⟩
      rcases List.mem_cons.mp (mem_of_mem_dropRepeatsFrom hr) with rfl | hr
      · exact hlt
      · exact Std.TransCmp.lt_of_lt_of_isLE hlt ((List.pairwise_cons.mp hq).1 r hr)

theorem increasing_sortPaths (paths : List Path) : Increasing (sortPaths paths) := by
  have hsorted := pairwise_mergeSort_isLE Path.compare paths
  rw [sortPaths]
  cases hpaths : paths.mergeSort fun p q => (p.compare q).isLE with
  | nil => exact List.Pairwise.nil
  | cons p rest => exact increasing_dropRepeatsFrom (hpaths ▸ hsorted)

/-- No path is lost if no two different ones are the same. -/
theorem mem_sortPaths_iff {paths : List Path}
    (h : ∀ p ∈ paths, ∀ q ∈ paths, p.same q = true → p = q) (file : Path) :
    file ∈ sortPaths paths ↔ file ∈ paths := by
  have hmem : ∀ q, q ∈ paths.mergeSort (fun p q => (p.compare q).isLE) ↔ q ∈ paths :=
    fun q => List.mem_mergeSort
  rw [sortPaths, ← hmem file]
  cases hpaths : paths.mergeSort fun p q => (p.compare q).isLE with
  | nil => rfl
  | cons p rest =>
    refine ⟨mem_of_mem_dropRepeatsFrom, fun hfile => ?_⟩
    obtain ⟨r, hr, hsame⟩ := exists_same_of_mem hfile
    have hrmem := (hmem r).mp (hpaths ▸ mem_of_mem_dropRepeatsFrom hr)
    have hfmem := (hmem file).mp (hpaths ▸ hfile)
    rwa [← h r hrmem file hfmem hsame]

/-- Two lists in order with the same paths are the same list. -/
theorem Increasing.eq_of_mem_iff {paths paths' : List Path} (h : Increasing paths)
    (h' : Increasing paths') (hmem : ∀ file, file ∈ paths ↔ file ∈ paths') : paths = paths' := by
  have : Std.Irrefl fun p q : Path => p.compare q = .lt :=
    ⟨fun p hp => by rw [Path.compare_eq_iff.mpr (Path.same_iff.mpr rfl)] at hp; cases hp⟩
  have : Std.Antisymm fun p q : Path => p.compare q = .lt :=
    ⟨fun p q hpq hqp => by rw [Std.OrientedCmp.gt_of_lt hpq] at hqp; cases hqp⟩
  exact List.Pairwise.eq_of_mem_iff h h' hmem

end PhpLint.Discovery
