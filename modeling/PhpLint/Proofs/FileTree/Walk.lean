import PhpLint.FileTree.Walk
import PhpLint.Proofs.FileTree.Location

/-!
What a walk comes across. Below a directory without links, on as many levels as the walk
goes, it finds every file that no skipped directory is around, and fails at the directories
that cannot be listed; there is nothing else. Each of them is known by the path of its
location.
-/

namespace PhpLint.FileTree

variable {t : FileTree}

/-- There are no links below a directory. -/
def LinkFree (t : FileTree) (top : Location) : Prop :=
  ∀ names target, t.node? (names ++ top) ≠ some (.link target)

/-- Every directory at or below a directory can be listed. -/
def Listable (t : FileTree) (top : Location) : Prop :=
  ∀ dirs, t.node? (dirs ++ top) = some .dir → t.barred? (dirs ++ top) = none

/-- There are at most so many levels below a directory. -/
def DepthAtMost (t : FileTree) (top : Location) (levels : Nat) : Prop :=
  ∀ names node, t.node? (names ++ top) = some node → names.length ≤ levels

/-- A tree whose entries are no links. -/
theorem WellFormed.linkFree (h : t.WellFormed)
    (hentries : ∀ entry ∈ t.nodes, ∀ target, entry.2 ≠ .link target) (top : Location) :
    LinkFree t top := by
  intro names target hnode
  cases hl : names ++ top with
  | nil =>
    rw [hl] at hnode
    cases hnode
  | cons name l =>
    rw [hl, h.node?_eq_some_iff] at hnode
    exact hentries _ hnode target rfl

/-- A tree whose entries have so many names at most. -/
theorem WellFormed.depthAtMost (h : t.WellFormed) {levels : Nat}
    (hentries : ∀ entry ∈ t.nodes, entry.1.length ≤ levels) (top : Location) :
    DepthAtMost t top levels := by
  intro names node hnode
  cases names with
  | nil => exact Nat.zero_le levels
  | cons name names =>
    rw [List.cons_append, h.node?_eq_some_iff] at hnode
    have hlength := hentries _ hnode
    simp only [List.length_cons, List.length_append] at hlength ⊢
    omega

/-- A tree in which nothing bars a directory. -/
theorem listable (hentries : ∀ entry ∈ t.barred, t.node? entry.1 ≠ some .dir) (top : Location) :
    Listable t top := by
  intro dirs hdir
  rw [barred?, Option.eq_none_iff_forall_ne_some]
  intro cause hcause
  exact hentries _ (Keyed.mem_of_get? hcause) hdir

theorem LinkFree.below {top : Location} (h : LinkFree t top) (name : Text) :
    LinkFree t (name :: top) := by
  intro names target
  have hnot := h (names ++ [name]) target
  rwa [List.append_assoc] at hnot

/-- The file at a location, found by a walk from a directory at or above it. -/
def IsFoundFile (t : FileTree) (skip : Text → Bool) (levels : Nat) (top : Location)
    (f : Finding) : Prop :=
  ∃ name dirs content, t.node? (name :: (dirs ++ top)) = some (.file content) ∧
    dirs.length < levels ∧ (∀ dir ∈ dirs, skip dir = false) ∧
    f = .file (Location.path (name :: (dirs ++ top))) (name :: (dirs ++ top))

/-- A walk from a directory fails at a directory at or below it, which cannot be listed. -/
def IsUnlisted (t : FileTree) (skip : Text → Bool) (levels : Nat) (top : Location)
    (f : Finding) : Prop :=
  ∃ dirs cause, t.node? (dirs ++ top) = some .dir ∧ t.barred? (dirs ++ top) = some cause ∧
    dirs.length < levels ∧ (∀ dir ∈ dirs, skip dir = false) ∧
    f = .failure (.unusable (Location.path (dirs ++ top)) cause)

/-- One level of a walk, of a directory that is known by the path of its location: it fails
if the directory cannot be listed, and otherwise its files are found, and the walk goes on in
its directories. -/
theorem WellFormed.mem_walkInside_succ (h : t.WellFormed) (skip : Text → Bool) (levels : Nat)
    {here : Location} (hlinks : LinkFree t here) (hhere : here.IsProper) (around : List Ancestor)
    (f : Finding) :
    f ∈ t.walkInside skip (levels + 1) ⟨here.path, here⟩ around ↔
      (∃ cause, t.barred? here = some cause ∧ f = .failure (.unusable here.path cause)) ∨
      ∃ name, (∃ content, t.node? (name :: here) = some (.file content) ∧
          f = .file (Location.path (name :: here)) (name :: here)) ∨
        (t.node? (name :: here) = some .dir ∧ skip name = false ∧
          f ∈ t.walkInside skip levels ⟨Location.path (name :: here), name :: here⟩
            (⟨here.path, here⟩ :: around)) := by
  have hjoin : ∀ {name node}, t.node? (name :: here) = some node →
      here.path.join ⟨name⟩ = Location.path (name :: here) := fun hnode =>
    Location.path_join hhere (h.named _ _ _ hnode)
  rw [walkInside]
  cases hbarred : t.barred? here with
  | some cause =>
    -- Nothing is known of what lies in it.
    have hempty : ∀ name node, t.node? (name :: here) ≠ some node := by
      intro name node hnode
      rw [h.parent_open _ _ _ hnode] at hbarred
      cases hbarred
    simp [hempty]
  | none =>
    simp only [reduceCtorEq, false_and, exists_false, false_or]
    rw [List.mem_flatMap]
    constructor
    · rintro ⟨⟨name, node⟩, hchild, hf⟩
      have hnode : t.node? (name :: here) = some node := h.mem_children_iff.mp hchild
      refine ⟨name, ?_⟩
      cases node with
      | file content =>
        simp only [List.mem_singleton, hjoin hnode] at hf
        exact .inl ⟨content, hnode, hf⟩
      | link target => exact absurd hnode (hlinks [name] target)
      | dir =>
        simp only [hjoin hnode] at hf
        split at hf
        · cases hf
        · rename_i hskip
          exact .inr ⟨hnode, Bool.eq_false_iff.mpr hskip, hf⟩
    · rintro ⟨name, ⟨content, hnode, rfl⟩ | ⟨hnode, hskip, hf⟩⟩
      · exact ⟨(name, .file content), h.mem_children_iff.mpr hnode, by simp [hjoin hnode]⟩
      · refine ⟨(name, .dir), h.mem_children_iff.mpr hnode, ?_⟩
        simpa [hskip, hjoin hnode] using hf

/-- A directory that is reached through another one is reached from there on. -/
theorem reached_concat_iff {skip : Text → Bool} {levels : Nat} {dirs : List Text} {name : Text} :
    ((dirs ++ [name]).length < levels + 1 ∧ ∀ dir ∈ dirs ++ [name], skip dir = false) ↔
      (dirs.length < levels ∧ ∀ dir ∈ dirs, skip dir = false) ∧ skip name = false := by
  rw [List.length_append, List.length_singleton, Nat.add_lt_add_iff_right,
    List.forall_mem_append, List.forall_mem_singleton, and_assoc]

/-- What is found from a directory on is a file in it, or found from one of its directories
on. -/
theorem WellFormed.isFoundFile_succ_iff (h : t.WellFormed) (skip : Text → Bool) (levels : Nat)
    {here : Location} (f : Finding) :
    IsFoundFile t skip (levels + 1) here f ↔
      ∃ name, (∃ content, t.node? (name :: here) = some (.file content) ∧
          f = .file (Location.path (name :: here)) (name :: here)) ∨
        (t.node? (name :: here) = some .dir ∧ skip name = false ∧
          IsFoundFile t skip levels (name :: here) f) := by
  constructor
  · rintro ⟨last, dirs, content, hlast, hlevels, hdirs, rfl⟩
    -- The outermost of the directories is the one through which the file is found.
    rcases List.eq_nil_or_concat' dirs with rfl | ⟨inner, name, rfl⟩
    · exact ⟨last, .inl ⟨content, hlast, rfl⟩⟩
    · rw [List.append_assoc, List.singleton_append] at hlast ⊢
      have hdir : t.node? (name :: here) = some .dir :=
        h.around (List.cons_ne_nil last inner) hlast
      obtain ⟨⟨hlevels, hdirs⟩, hskip⟩ := reached_concat_iff.mp ⟨hlevels, hdirs⟩
      exact ⟨name, .inr ⟨hdir, hskip, last, inner, content, hlast, hlevels, hdirs, rfl⟩⟩
  · rintro ⟨name, ⟨content, hnode, rfl⟩ | ⟨-, hskip, hf⟩⟩
    · exact ⟨name, [], content, hnode, Nat.zero_lt_succ _, by simp, rfl⟩
    · obtain ⟨last, dirs, content, hlast, hlevels, hdirs, rfl⟩ := hf
      obtain ⟨hlevels, hdirs⟩ := reached_concat_iff.mpr ⟨⟨hlevels, hdirs⟩, hskip⟩
      refine ⟨last, dirs ++ [name], content, ?_, hlevels, hdirs, ?_⟩
      · rwa [List.append_assoc]
      · rw [List.append_assoc]
        rfl

/-- A walk from a directory fails there, or from one of its directories on. -/
theorem WellFormed.isUnlisted_succ_iff (h : t.WellFormed) (skip : Text → Bool) (levels : Nat)
    {here : Location} (hhere : t.node? here = some .dir) (f : Finding) :
    IsUnlisted t skip (levels + 1) here f ↔
      (∃ cause, t.barred? here = some cause ∧ f = .failure (.unusable here.path cause)) ∨
      ∃ name, t.node? (name :: here) = some .dir ∧ skip name = false ∧
        IsUnlisted t skip levels (name :: here) f := by
  constructor
  · rintro ⟨dirs, cause, hdir, hbarred, hlevels, hdirs, rfl⟩
    rcases List.eq_nil_or_concat' dirs with rfl | ⟨inner, name, rfl⟩
    · exact .inl ⟨cause, hbarred, rfl⟩
    · rw [List.append_assoc, List.singleton_append] at hdir hbarred ⊢
      have hname : t.node? (name :: here) = some .dir := by
        cases inner with
        | nil => exact hdir
        | cons last inner => exact h.around (List.cons_ne_nil last inner) hdir
      obtain ⟨⟨hlevels, hdirs⟩, hskip⟩ := reached_concat_iff.mp ⟨hlevels, hdirs⟩
      exact .inr ⟨name, hname, hskip, inner, cause, hdir, hbarred, hlevels, hdirs, rfl⟩
  · rintro (⟨cause, hbarred, rfl⟩ | ⟨name, -, hskip, hf⟩)
    · exact ⟨[], cause, hhere, hbarred, Nat.zero_lt_succ _, by simp, rfl⟩
    · obtain ⟨dirs, cause, hdir, hbarred, hlevels, hdirs, rfl⟩ := hf
      obtain ⟨hlevels, hdirs⟩ := reached_concat_iff.mpr ⟨⟨hlevels, hdirs⟩, hskip⟩
      refine ⟨dirs ++ [name], cause, ?_, ?_, hlevels, hdirs, ?_⟩
      · rwa [List.append_assoc]
      · rwa [List.append_assoc]
      · rw [List.append_assoc]
        rfl

/-- Walking down from such a directory. -/
theorem WellFormed.mem_walkInside (h : t.WellFormed) (skip : Text → Bool) (levels : Nat)
    {here : Location} (hlinks : LinkFree t here) (hhere : t.node? here = some .dir)
    (around : List Ancestor) (f : Finding) :
    f ∈ t.walkInside skip levels ⟨here.path, here⟩ around ↔
      IsFoundFile t skip levels here f ∨ IsUnlisted t skip levels here f := by
  induction levels generalizing here around f with
  | zero => simp [walkInside, IsFoundFile, IsUnlisted]
  | succ levels ih =>
    rw [h.mem_walkInside_succ skip levels hlinks (h.isProper hhere),
      h.isFoundFile_succ_iff, h.isUnlisted_succ_iff skip levels hhere, or_left_comm, ← exists_or]
    apply or_congr_right
    apply exists_congr
    intro name
    rw [or_assoc, ← and_or_left, ← and_or_left]
    apply or_congr_right
    apply and_congr_right
    intro hdir
    rw [ih (hlinks.below name) hdir]

/-- A walk of a directory that has no links below it finds, on as many levels as it goes, the
files that no skipped directory is around, and fails at the directories that cannot be
listed. -/
theorem WellFormed.mem_walk (h : t.WellFormed) (skip : Text → Bool) {top : Location}
    (hdir : t.node? top = some .dir) (hlinks : LinkFree t top) (f : Finding) :
    f ∈ t.walk skip top.path ↔
      IsFoundFile t skip maxWalkDepth top f ∨ IsUnlisted t skip maxWalkDepth top f := by
  rw [walk, h.resolve_path hdir (by simp)]
  simp only [hdir, if_true]
  exact h.mem_walkInside skip maxWalkDepth hlinks hdir [] f

end PhpLint.FileTree
