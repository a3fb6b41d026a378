import Mathlib.Data.List.Forall2
import PhpLint.Detector
import PhpLint.Proofs.Detector.ErrorTable
import PhpLint.Proofs.SourceModel.Steps

/-!
What a detector reports on files. Every file ends up in exactly one of three ways: it
cannot be read and is a failure under its relative path, it is checked and its issues are
appended by lines, or its structure cannot be read and the run ends. Main statement: a run
over files without the third kind forgets what the detector had found before, reports the
checks of the readable files in order and accounts for every file; a root that is no
directory changes nothing.
-/

namespace PhpLint

/-- Issues sorted by lines; those of one line keep their order. -/
structure SortedByLine (found sorted : List Issue) : Prop where
  lines_le : sorted.Pairwise fun a b => a.line ≤ b.line
  same_order : ∀ line, sorted.filter (·.line = line) = found.filter (·.line = line)

theorem sortedByLine_mergeSort (found : List Issue) :
    SortedByLine found (found.mergeSort fun a b => decide (a.line ≤ b.line)) := by
  have htrans : ∀ a b c : Issue, decide (a.line ≤ b.line) = true →
      decide (b.line ≤ c.line) = true → decide (a.line ≤ c.line) = true := by
    intro a b c hab hbc
    rw [decide_eq_true_eq] at *
    exact Nat.le_trans hab hbc
  have htotal : ∀ a b : Issue, (decide (a.line ≤ b.line) || decide (b.line ≤ a.line)) = true := by
    intro a b
    simpa using Nat.le_total a.line b.line
  constructor
  · exact (List.pairwise_mergeSort htrans htotal found).imp of_decide_eq_true
  · intro line
    -- The issues of one line are sorted as they stand, so they stay a sublist.
    have hsame : (found.filter (·.line = line)).Pairwise
        fun a b => decide (a.line ≤ b.line) = true := by
      apply List.pairwise_of_forall_mem_list
      intro a ha b hb
      have ha' := of_decide_eq_true (List.mem_filter.mp ha).2
      have hb' := of_decide_eq_true (List.mem_filter.mp hb).2
      exact decide_eq_true (ha'.trans hb'.symm).le
    have hsublist :=
      (List.sublist_mergeSort htrans htotal hsame List.filter_sublist).filter (·.line = line)
    rw [List.filter_filter] at hsublist
    simp only [Bool.and_self] at hsublist
    have hperm := (List.mergeSort_perm found fun a b => decide (a.line ≤ b.line)).filter
      (·.line = line)
    exact (hsublist.eq_of_length hperm.length_eq.symm).symm

namespace Detector

/-- Whether a file can be read. -/
def isReadable (t : FileTree) (path : Path) : Bool := (SourceFile.loadLines t path).isOk

/-- What a rule finds in a file that can be read: the issues of its check, by lines, with
the rule recorded. -/
def Finds (rule : Rule) (t : FileTree) (root path : Path) (issues : List Issue) : Prop :=
  ∃ lines model sorted, SourceFile.loadLines t path = .ok lines ∧
    SourceModel.ofLines lines = .ok model ∧
    SortedByLine (rule.check (FileContext.ofFile path root lines) model) sorted ∧
    issues = sorted.map fun issue => issue.withRule rule.code rule.name

/-- The failure of a file that cannot be read. -/
def failure? (t : FileTree) (root path : Path) : Option (Path × String) :=
  match SourceFile.loadLines t path with
  | .error e => some (path.relativeTo root, e.message)
  | .ok _ => none

/-- The failures among files. -/
def failures (t : FileTree) (root : Path) (files : List Path) : List (Path × String) :=
  files.filterMap (failure? t root)

/-- A file either is a failure or can be read. -/
theorem failure?_cases (t : FileTree) (root path : Path) :
    (∃ e, SourceFile.loadLines t path = .error e ∧ isReadable t path = false ∧
      failure? t root path = some (path.relativeTo root, e.message)) ∨
    (∃ lines, SourceFile.loadLines t path = .ok lines ∧ isReadable t path = true ∧
      failure? t root path = none) := by
  cases hread : SourceFile.loadLines t path with
  | error e =>
    exact .inl ⟨e, rfl, by simp [isReadable, hread, Except.isOk, Except.toBool],
      by simp [failure?, hread]⟩
  | ok lines =>
    exact .inr ⟨lines, rfl, by simp [isReadable, hread, Except.isOk, Except.toBool],
      by simp [failure?, hread]⟩

/-- The structure of a file cannot be read. -/
def IsMalformed (t : FileTree) (path : Path) : Prop :=
  ∃ lines e, SourceFile.loadLines t path = .ok lines ∧ SourceModel.ofLines lines = .error e

/-- The ways in which one file changes a detector. -/
theorem addFile_cases (t : FileTree) (root : Path) (d : Detector) (path : Path) :
    (∃ entry, isReadable t path = false ∧ failure? t root path = some entry ∧
      addFile t root d path = .ok { d with errors := d.errors.insert entry.1 entry.2 }) ∨
    (∃ issues, isReadable t path = true ∧ failure? t root path = none ∧
      Finds d.rule t root path issues ∧ addFile t root d path =
        .ok { d with issues := d.issues ++ issues, filesChecked := d.filesChecked + 1 }) ∨
    (IsMalformed t path ∧ ∃ e, addFile t root d path = .error e) := by
  rcases failure?_cases t root path with ⟨e, hread, hfailure⟩ | ⟨lines, hread, hreadable, hfailure⟩
  · exact .inl ⟨_, hfailure.1, hfailure.2, by rw [addFile, hread]⟩
  · cases hmodel : SourceModel.ofLines lines with
    | error e =>
      refine .inr (.inr ⟨⟨lines, e, hread, hmodel⟩, e, ?_⟩)
      simp [addFile, hread, issuesOf, hmodel, bind, Except.bind]
    | ok model =>
      refine .inr (.inl ⟨_, hreadable, hfailure,
        ⟨lines, model, _, hread, hmodel, sortedByLine_mergeSort _, rfl⟩, ?_⟩)
      simp [addFile, hread, issuesOf, hmodel, bind, Except.bind, pure, Except.pure]

theorem IsMalformed.isReadable {t : FileTree} {path : Path} (h : IsMalformed t path) :
    isReadable t path = true := by
  obtain ⟨lines, -, hread, -⟩ := h
  simp [Detector.isReadable, hread, Except.isOk, Except.toBool]

theorem Finds.not_malformed {rule : Rule} {t : FileTree} {root path : Path} {issues : List Issue}
    (h : Finds rule t root path issues) : ¬ IsMalformed t path := by
  rintro ⟨lines', e, hread', hmodel'⟩
  obtain ⟨lines, model, -, hread, hmodel, -⟩ := h
  obtain rfl := Except.ok.inj (hread.symm.trans hread')
  rw [hmodel] at hmodel'
  cases hmodel'

/-- What a run has recorded behind some files. -/
theorem foldlM_addFile {t : FileTree} {files : List Path}
    (hfiles : ∀ path ∈ files, ¬ IsMalformed t path) (root : Path) (d : Detector) :
    ∃ reports, List.Forall₂ (Finds d.rule t root) (files.filter (isReadable t)) reports ∧
      files.foldlM (addFile t root) d = .ok
        { d with
          issues := d.issues ++ reports.flatten
          filesChecked := d.filesChecked + reports.length
          errors := d.errors.insertAll (failures t root files) } := by
  induction files generalizing d with
  | nil => exact ⟨[], .nil, by simp [failures, ErrorTable.insertAll, pure, Except.pure]⟩
  | cons path files ih =>
    have hrest := ih fun q hq => hfiles q (List.mem_cons_of_mem _ hq)
    rw [List.foldlM_cons, failures, List.filterMap_cons, List.filter_cons]
    rcases addFile_cases t root d path with ⟨entry, hread, hfailure, hadd⟩ |
      ⟨issues, hread, hfailure, hfinds, hadd⟩ | ⟨hmalformed, -⟩
    · obtain ⟨reports, hreports, hrun⟩ := hrest
        { d with errors := d.errors.insert entry.1 entry.2 }
      rw [hread, hfailure, hadd]
      exact ⟨reports, hreports, hrun⟩
    · obtain ⟨reports, hreports, hrun⟩ := hrest
        { d with issues := d.issues ++ issues, filesChecked := d.filesChecked + 1 }
      rw [hread, hfailure, hadd]
      exact ⟨issues :: reports, .cons hfinds hreports,
        hrun.trans (by simp [failures, Nat.add_assoc, Nat.add_comm 1])⟩
    · exact absurd hmalformed (hfiles path List.mem_cons_self)

/-- A file whose structure cannot be read ends the run. -/
theorem foldlM_addFile_malformed {t : FileTree} {files : List Path}
    (hfiles : ∃ path ∈ files, IsMalformed t path) (root : Path) (d : Detector) :
    ∃ e, files.foldlM (addFile t root) d = .error e := by
  induction files generalizing d with
  | nil => simp at hfiles
  | cons path files ih =>
    obtain ⟨q, hq, hmalformed⟩ := hfiles
    have hlater : ¬ IsMalformed t path → ∃ q ∈ files, IsMalformed t q := by
      intro hpath
      rcases List.mem_cons.mp hq with rfl | hq
      · exact absurd hmalformed hpath
      · exact ⟨q, hq, hmalformed⟩
    rw [List.foldlM_cons]
    rcases addFile_cases t root d path with ⟨entry, hread, -, hadd⟩ |
      ⟨issues, -, -, hfinds, hadd⟩ | ⟨-, e, hadd⟩
    · rw [hadd]
      refine ih (hlater fun h => ?_) _
      rw [h.isReadable] at hread
      cases hread
    · rw [hadd]
      exact ih (hlater hfinds.not_malformed) _
    · exact ⟨e, by rw [hadd]; rfl⟩

/-- Every file either can be read or is a failure. -/
theorem length_failures (t : FileTree) (root : Path) (files : List Path) :
    (files.filter (isReadable t)).length + (failures t root files).length = files.length := by
  induction files with
  | nil => rfl
  | cons path files ih =>
    rw [failures] at ih
    rw [failures, List.filterMap_cons, List.filter_cons]
    rcases failure?_cases t root path with ⟨e, -, hread, hfailure⟩ | ⟨lines, -, hread, hfailure⟩
    all_goals
      rw [hread, hfailure]
      simp only [Bool.false_eq_true, if_true, if_false, List.length_cons]
      omega

/-- Different files are different failures. -/
theorem failures_distinct {files : List Path} (t : FileTree) (root : Path)
    (hfiles : ∀ p ∈ files, p.isAbsolute = true ∧ .parent ∉ p.components)
    (hdistinct : files.Pairwise fun p q => p.same q = false) :
    (failures t root files).Pairwise fun a b => a.1.same b.1 = false := by
  rw [failures, List.pairwise_filterMap]
  refine hdistinct.imp_of_mem ?_
  intro p q hp hq hne a ha b hb
  have hpath : ∀ {path entry}, failure? t root path = some entry →
      entry.1 = path.relativeTo root := by
    intro path entry hentry
    rcases failure?_cases t root path with ⟨e, -, -, hfailure⟩ | ⟨lines, -, -, hfailure⟩
    · rw [hfailure] at hentry
      rw [← Option.some.inj hentry]
    · rw [hfailure] at hentry
      cases hentry
  rw [hpath ha, hpath hb, ← Bool.not_eq_true]
  intro hsame
  rw [Path.same_of_relativeTo (hfiles p hp).1 (hfiles q hq).1 (hfiles p hp).2 (hfiles q hq).2
    hsame] at hne
  cases hne

/-- A run on files, from whatever state of the detector. On a root that is no directory it
changes nothing. Otherwise it forgets the state: it reports the issues of the files that can
be read, in order, and the others as failures under their relative paths, each file once. It
does so as long as the structure of every file can be read, and ends without a result if
not. -/
theorem detectFiles_accounts (d : Detector) (t : FileTree) (root : Path) (files : List Path)
    (hfiles : ∀ p ∈ files, p.isAbsolute = true ∧ .parent ∉ p.components)
    (hdistinct : files.Pairwise fun p q => p.same q = false) :
    (t.isDir root = false →
      d.detectFiles t root files = (.error (.directoryNotFound root), d)) ∧
    (t.isDir root = true → (∀ p ∈ files, ¬ IsMalformed t p) →
      ∃ last reports,
        d.detectFiles t root files = (.ok last.issues.isEmpty, last) ∧
        detectFiles { rule := d.rule } t root files = (.ok last.issues.isEmpty, last) ∧
        List.Forall₂ (Finds d.rule t root) (files.filter (isReadable t)) reports ∧
        last.issues = reports.flatten ∧
        last.filesChecked + last.errors.length = files.length ∧
        last.errors.Sorted ∧
        ∀ p ∈ files, ∀ e, SourceFile.loadLines t p = .error e →
          (p.relativeTo root, e.message) ∈ last.errors) ∧
    (t.isDir root = true → (∃ p ∈ files, IsMalformed t p) →
      ∃ e, (d.detectFiles t root files).1 = .error (.malformed e)) := by
  refine ⟨fun hroot => by simp [detectFiles, hroot], fun hroot hread => ?_, fun hroot hread => ?_⟩
  · obtain ⟨reports, hreports, hrun⟩ := foldlM_addFile hread root d.reset
    have hperm : (ErrorTable.insertAll [] (failures t root files)).Perm (failures t root files) :=
      ErrorTable.insertAll_perm (failures_distinct t root hfiles hdistinct) (by simp)
    simp only [reset, List.nil_append, Nat.zero_add] at hrun
    refine ⟨{ rule := d.rule, issues := reports.flatten, filesChecked := reports.length
              errors := ErrorTable.insertAll [] (failures t root files) }, reports,
      by simp [detectFiles, reset, hroot, hrun], by simp [detectFiles, reset, hroot, hrun],
      hreports, rfl, ?_, ErrorTable.sorted_insertAll List.Pairwise.nil _, ?_⟩
    · rw [hperm.length_eq, ← hreports.length_eq]
      exact length_failures t root files
    · intro p hp e he
      refine hperm.mem_iff.mpr (List.mem_filterMap.mpr ⟨p, hp, ?_⟩)
      rw [failure?, he]
  · obtain ⟨e, hrun⟩ := foldlM_addFile_malformed hread root d.reset
    exact ⟨e, by rw [detectFiles, hroot, hrun]; rfl⟩

/-- A project with a file that declares two classes, one whose import has its braces the
wrong way round and one that cannot be read. -/
def threeFiles : FileTree where
  nodes := [(["r".toList], .dir),
    (["a.php".toList, "r".toList],
      .file (Text.utf8 "<?php\nclass b \x7b\x7d\nclass a \x7b\x7d\n".toList)),
    (["c.php".toList, "r".toList], .file (Text.utf8 "<?php\nuse A\x7d\\\x7bB;\n".toList)),
    (["d.php".toList, "r".toList], .file [])]
  barred := [(["d.php".toList, "r".toList], .denied)]

/-- A detector that has found something before. -/
def used : Detector where
  rule := { kind := .namingConvention }
  issues := [{ file := Path.ofString "z.php", line := 1, message := "old" }]
  filesChecked := 7
  errors := [(Path.ofString "z.php", "old")]

theorem detectFiles_accounts_mixed :
    ∃ last reports, used.detectFiles threeFiles (Path.ofString "/r")
        (["/r/a.php", "/r/gone.php", "/r/d.php", "/q.php"].map Path.ofString) =
          (.ok last.issues.isEmpty, last) ∧
      List.Forall₂ (Finds used.rule threeFiles (Path.ofString "/r")) [Path.ofString "/r/a.php"]
        reports ∧
      last.issues = reports.flatten ∧ last.filesChecked + last.errors.length = 4 ∧
      (Path.ofString "gone.php", "File not found: /r/gone.php") ∈ last.errors ∧
      (Path.ofString "d.php", "Failed to read /r/d.php: Permission denied (os error 13)") ∈
        last.errors ∧
      (Path.ofString "../q.php", "File not found: /q.php") ∈ last.errors := by
  let files := ["/r/a.php", "/r/gone.php", "/r/d.php", "/q.php"].map Path.ofString
  obtain ⟨-, hrun, -⟩ := detectFiles_accounts used threeFiles (Path.ofString "/r") files
    (by decide +kernel) (by decide +kernel)
  have hread : ∀ p ∈ files, ¬ IsMalformed threeFiles p := by
    have hall : ∀ p ∈ files, (SourceFile.loadLines threeFiles p).toOption.all
        (fun lines => (SourceModel.ofLines lines).isOk) = true := by
      decide +kernel
    rintro p hp ⟨lines, e, hlines, hmodel⟩
    have h := hall p hp
    rw [hlines, Except.toOption, Option.all_some, hmodel] at h
    cases h
  obtain ⟨last, reports, hlast, -, hreports, hissues, hcount, -, herrors⟩ :=
    hrun (by decide +kernel) hread
  have hreadable : files.filter (isReadable threeFiles) = [Path.ofString "/r/a.php"] := by
    decide +kernel
  refine ⟨last, reports, hlast, hreadable ▸ hreports, hissues, hcount, ?_, ?_, ?_⟩
  · exact herrors (Path.ofString "/r/gone.php") (by simp [files])
      (.noFile (.notFound (Path.ofString "/r/gone.php"))) (by decide +kernel)
  · exact herrors (Path.ofString "/r/d.php") (by simp [files])
      (.unreadable (Path.ofString "/r/d.php") .denied) (by decide +kernel)
  · exact herrors (Path.ofString "/q.php") (by simp [files])
      (.noFile (.notFound (Path.ofString "/q.php"))) (by decide +kernel)

/-- A file that can be read and whose import has its braces the wrong way round is neither
checked nor a failure: the run has no result. -/
theorem detectFiles_reversed_import :
    isReadable threeFiles (Path.ofString "/r/c.php") = true ∧
    (detectFiles { rule := { kind := .constantNaming } } threeFiles (Path.ofString "/r")
      [Path.ofString "/r/c.php"]).1 =
        .error (.malformed (.reversedBraces "A\x7d\\\x7bB".toList)) := by
  decide +kernel

end Detector

end PhpLint
