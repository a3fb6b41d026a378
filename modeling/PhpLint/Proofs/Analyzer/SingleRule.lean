import PhpLint.Analyzer
import PhpLint.Proofs.Detector.Run
import PhpLint.Proofs.Discovery.Exact

/-!
The two ways of running one rule, behind one discovery: an analyzer with that rule alone, and
a detector. Both check the files that were found in the same way. What could not be visited
is recorded by the detector and lost by the analyzer, whatever was found. Main statement: the
two ways end alike and find the same, and where their failures differ is told exactly. For
what discovery itself returns they are equal only if everything could be visited, since the
messages on entries that a walk leaves out are never those on files that cannot be read.
-/

namespace PhpLint

/-- How the messages on files that cannot be read begin. -/
def SourceFile.readHeads : List Text := ["File no", "Not a f", "Failed "].map String.toList

/-- How the messages on entries that a walk leaves out begin. -/
def WalkError.heads : List Text :=
  ["IO erro", "File sy", "No such", "Not a d", "Is a di", "Too man", "Permiss", "Input/o"].map
    String.toList

theorem SourceFile.ReadError.take_message (e : SourceFile.ReadError) :
    e.message.toList.take 7 ∈ SourceFile.readHeads := by
  cases e with
  | noFile cause =>
    cases cause with
    | notFound path =>
      change ("File not found: " ++ path.display).toList.take 7 ∈ _
      simp [SourceFile.readHeads]
    | notAFile path =>
      change ("Not a file: " ++ path.display).toList.take 7 ∈ _
      simp [SourceFile.readHeads]
  | unreadable path cause =>
    change ("Failed to read " ++ path.display ++ ": " ++ _).toList.take 7 ∈ _
    simp [SourceFile.readHeads]

theorem WalkError.take_message (e : WalkError) : e.message.toList.take 7 ∈ WalkError.heads := by
  cases e with
  | unusable path cause =>
    change ("IO error for operation on " ++ path.display ++ ": " ++ _).toList.take 7 ∈ _
    simp [heads]
  | circle link ancestor =>
    change ("File system loop found: " ++ link.display ++ " points to an ancestor " ++
      _).toList.take 7 ∈ _
    simp [heads]
  | unopened cause => cases cause <;> decide

/-- The message on an entry that a walk leaves out is never that on a file that cannot be
read. -/
theorem WalkError.message_ne (walked : WalkError) (read : SourceFile.ReadError) :
    read.message ≠ walked.message := by
  have hdisjoint : ∀ head ∈ SourceFile.readHeads, head ∉ WalkError.heads := by decide
  intro hsame
  exact hdisjoint _ read.take_message (hsame ▸ walked.take_message)

/-- What discovery returns as an error is one of the walk. -/
theorem Discovery.message_of_mem_errors {d : Discovery} {t : FileTree} {root : Path}
    {e : Unvisited} (h : e ∈ (d.discover t root).errors) :
    ∃ w : WalkError, e.message = w.message := by
  rw [errors_discover] at h
  obtain ⟨f, -, hf⟩ := List.mem_filterMap.mp h
  cases f with
  | file path location => cases hf
  | failure w => exact ⟨w, congrArg Unvisited.message (Option.some.inj hf).symm⟩

namespace Detector

/-- What the entries that could not be visited are recorded as. -/
def unvisitedFailures (root : Path) (errors : List Unvisited) : List (Path × String) :=
  errors.map fun e => (e.path.relativeTo root, e.message)

/-- The message on the last of the entries that could not be visited and are recorded under
a path. -/
def unvisitedMessage? (root : Path) (errors : List Unvisited) (path : Path) : Option String :=
  ErrorTable.get? path (unvisitedFailures root errors).reverse

theorem errors_addUnvisited (d : Detector) (root : Path) (errors : List Unvisited) :
    (d.addUnvisited root errors).errors = d.errors.insertAll (unvisitedFailures root errors) := by
  rw [ErrorTable.insertAll, unvisitedFailures, List.foldl_map]
  rfl

/-- A run that has a result could read the structure of every file, so its failures are those
of the files. -/
theorem errors_of_detectFiles {d last : Detector} {t : FileTree} {root : Path}
    {files : List Path} {passed : Bool} (h : d.detectFiles t root files = (.ok passed, last)) :
    last.errors = ErrorTable.insertAll [] (failures t root files) := by
  unfold detectFiles at h
  split at h
  · cases (Prod.mk.inj h).1
  · have hread : ∀ path ∈ files, ¬ IsMalformed t path := by
      intro path hpath hmalformed
      obtain ⟨e, hrun⟩ := foldlM_addFile_malformed ⟨path, hpath, hmalformed⟩ root d.reset
      rw [hrun] at h
      cases (Prod.mk.inj h).1
    obtain ⟨reports, -, hrun⟩ := foldlM_addFile hread root d.reset
    rw [hrun] at h
    obtain ⟨-, rfl⟩ := Prod.mk.inj h
    rfl

theorem sorted_errors {d last : Detector} {t : FileTree} {root : Path} {files : List Path}
    {passed : Bool} (h : d.detectFiles t root files = (.ok passed, last)) :
    last.errors.Sorted := by
  rw [errors_of_detectFiles h]
  exact ErrorTable.sorted_insertAll List.Pairwise.nil _

/-- A message among the failures of files is that on a file that cannot be read. -/
theorem message_of_get?_errors {d last : Detector} {t : FileTree} {root : Path}
    {files : List Path} {passed : Bool} (h : d.detectFiles t root files = (.ok passed, last))
    {path : Path} {message : String} (hget : last.errors.get? path = some message) :
    ∃ e : SourceFile.ReadError, message = e.message := by
  rw [errors_of_detectFiles h, ErrorTable.get?_insertAll] at hget
  obtain ⟨entry, hentry, rfl⟩ : ∃ entry ∈ failures t root files, entry.2 = message := by
    obtain hget | ⟨-, hnone⟩ := Option.or_eq_some_iff.mp hget
    · obtain ⟨entry, hfind, hmessage⟩ := Option.map_eq_some_iff.mp hget
      exact ⟨entry, List.mem_reverse.mp (List.mem_of_find?_eq_some hfind), hmessage⟩
    · cases hnone
  obtain ⟨file, -, hfailure⟩ := List.mem_filterMap.mp hentry
  rcases failure?_cases t root file with ⟨e, -, -, hcause⟩ | ⟨-, -, -, hnone⟩
  · rw [hcause] at hfailure
    exact ⟨e, (congrArg Prod.snd (Option.some.inj hfailure)).symm⟩
  · rw [hnone] at hfailure
    cases hfailure

/-- Nothing is recorded of entries that could not be visited only if there are none. -/
theorem unvisitedMessage?_eq_none_iff (root : Path) {errors : List Unvisited} :
    (∀ path, unvisitedMessage? root errors path = none) ↔ errors = [] := by
  constructor
  · intro hnone
    rw [List.eq_nil_iff_forall_not_mem]
    intro e he
    have h := hnone (e.path.relativeTo root)
    rw [unvisitedMessage?, ErrorTable.get?, Option.map_eq_none_iff, List.find?_eq_none] at h
    exact h _ (List.mem_reverse.mpr (List.mem_map_of_mem he)) (Path.same_iff.mpr rfl)
  · rintro rfl path
    rfl

end Detector

namespace Analyzer

/-- The outcome of a rule that tells what a detector has found, apart from the time. -/
def outcomeOf (rule : Rule) (passed : Bool) (last : Detector) : RuleOutcome where
  rule := rule.name
  code := rule.code
  passed
  issues := last.issues
  filesChecked := last.filesChecked
  errors := last.errors
  elapsed := {}

/-- A detector runs its rule over files like an analyzer does, whatever it has found
before. -/
theorem runRule_cases (d : Detector) (t : FileTree) (root : Path) (files : List Path) :
    (∃ e, d.detectFiles t root files = (.error e, d) ∧ runRule t root files d.rule = .error e) ∨
    ∃ passed last, d.detectFiles t root files = (.ok passed, last) ∧
      runRule t root files d.rule = .ok (outcomeOf d.rule passed last) := by
  cases hroot : t.isDir root with
  | false =>
    exact .inl ⟨.directoryNotFound root, by simp [Detector.detectFiles, hroot],
      by simp [runRule, Detector.detectFiles, hroot]⟩
  | true =>
    have hreset : Detector.reset { rule := d.rule } = d.reset := rfl
    cases hrun : files.foldlM (Detector.addFile t root) d.reset with
    | error e =>
      exact .inl ⟨.malformed e, by simp [Detector.detectFiles, hroot, hrun],
        by simp [runRule, Detector.detectFiles, hroot, hreset, hrun]⟩
    | ok last =>
      exact .inr ⟨last.issues.isEmpty, last, by simp [Detector.detectFiles, hroot, hrun],
        by simp [runRule, Detector.detectFiles, hroot, hreset, hrun, outcomeOf]⟩

section SingleRule

variable {a : Analyzer} {d : Detector} (hrules : a.rules = [d.rule])
  (henabled : a.settings.isRuleEnabled d.rule.name = true) (t : FileTree)

include hrules henabled

theorem analyzeFound_singleton (hroot : t.isDir a.root = true) (found : DiscoveredFiles) :
    a.analyzeFound t found =
      (fun o => ⟨[o]⟩) <$> runRule t (t.canonical a.root) found.files d.rule := by
  simp [analyzeFound, hroot, hrules, henabled]

/-- An analyzer and a detector fail alike or find the same in the same files; then the
detector records what could not be visited. -/
theorem analyzeFound_cases (found : DiscoveredFiles) :
    (∃ e, (d.detectFound t a.root found).1 = .error e ∧ a.analyzeFound t found = .error e) ∨
    ∃ passed last,
      d.detectFiles t (t.canonical a.root) found.files = (.ok passed, last) ∧
      d.detectFound t a.root found =
        (.ok passed, last.addUnvisited (t.canonical a.root) found.errors) ∧
      a.analyzeFound t found = .ok ⟨[outcomeOf d.rule passed last]⟩ := by
  cases hroot : t.isDir a.root with
  | false =>
    refine .inl ⟨.directoryNotFound a.root, by simp [Detector.detectFound, hroot], ?_⟩
    simp [analyzeFound, hroot, throw, throwThe, MonadExceptOf.throw, bind, Except.bind]
  | true =>
    rw [analyzeFound_singleton hrules henabled t hroot]
    rcases runRule_cases d t (t.canonical a.root) found.files with
      ⟨e, hdetect, hrun⟩ | ⟨passed, last, hdetect, hrun⟩
    · exact .inl ⟨e, by simp [Detector.detectFound, hroot, hdetect], by rw [hrun]; rfl⟩
    · exact .inr ⟨passed, last, hdetect, by simp [Detector.detectFound, hroot, hdetect],
        by rw [hrun]; rfl⟩

/-- The two ways of running one rule over what a discovery found, whatever that is and from
whatever state of the detector. They fail in the same cases and in the same way. If they do not
fail, the outcome of the analyzer has the issues, the number of files and the answer of the
detector. Under a path the detector has the message on the last entry there that could not be
visited, and the outcome's where there is none; so the two tables are equal only if all those
messages stand in the outcome already. -/
theorem analyze_agrees_with_detect (found : DiscoveredFiles) :
    (∀ e, a.analyzeFound t found = .error e ↔ (d.detectFound t a.root found).1 = .error e) ∧
    ∀ passed last, d.detectFound t a.root found = (.ok passed, last) →
      ∃ o, a.analyzeFound t found = .ok ⟨[o]⟩ ∧ o.rule = d.rule.name ∧ o.code = d.rule.code ∧
        o.passed = passed ∧ o.issues = last.issues ∧ o.filesChecked = last.filesChecked ∧
        (∀ path, last.errors.get? path =
          (Detector.unvisitedMessage? (t.canonical a.root) found.errors path).or
            (o.errors.get? path)) ∧
        (o.errors = last.errors ↔ ∀ path message,
          Detector.unvisitedMessage? (t.canonical a.root) found.errors path = some message →
            o.errors.get? path = some message) := by
  rcases analyzeFound_cases hrules henabled t found with ⟨e, hdetect, hanalyze⟩ |
    ⟨passed, read, hfiles, hdetect, hanalyze⟩
  · rw [hanalyze]
    refine ⟨fun e' => ?_, fun passed last h => ?_⟩
    · rw [hdetect, Except.error.injEq, Except.error.injEq]
    · rw [h] at hdetect
      cases hdetect
  · rw [hanalyze, hdetect]
    refine ⟨fun e => ⟨nofun, nofun⟩, fun passed' last h => ?_⟩
    obtain ⟨hpassed, rfl⟩ := Prod.mk.inj h
    obtain rfl := Except.ok.inj hpassed
    refine ⟨outcomeOf d.rule passed read, rfl, rfl, rfl, rfl, rfl, rfl, fun path => ?_, ?_⟩
    · rw [Detector.errors_addUnvisited, ErrorTable.get?_insertAll]
      rfl
    · rw [Detector.errors_addUnvisited, eq_comm]
      exact ErrorTable.insertAll_eq_self_iff (Detector.sorted_errors hfiles) _

/-- The two ways of running one rule over what discovery finds below the root. The failures
are the same only if everything could be visited. -/
theorem errors_analyze_eq_iff {passed : Bool} {last : Detector}
    (hdetect : d.detect t a.root a.discovery = (.ok passed, last)) :
    ∃ o, a.analyze t = .ok ⟨[o]⟩ ∧
      (o.errors = last.errors ↔ (a.discovery.discover t a.root).errors = []) := by
  rcases analyzeFound_cases hrules henabled t (a.discovery.discover t a.root) with
    ⟨e, hfailed, -⟩ | ⟨passed', read, hfiles, hfound, hanalyze⟩
  · rw [← Detector.detect, hdetect] at hfailed
    cases hfailed
  · rw [← Detector.detect, hdetect] at hfound
    obtain ⟨-, rfl⟩ := Prod.mk.inj hfound
    refine ⟨_, hanalyze, ?_⟩
    rw [Detector.errors_addUnvisited, eq_comm, outcomeOf,
      ErrorTable.insertAll_eq_self_iff (Detector.sorted_errors hfiles),
      ← Detector.unvisitedMessage?_eq_none_iff (t.canonical a.root)]
    constructor
    · intro hthere path
      rw [Option.eq_none_iff_forall_ne_some]
      intro message hmessage
      -- The message is one of a walk, and it stands on a file.
      obtain ⟨e, he⟩ := Detector.message_of_get?_errors hfiles (hthere path message hmessage)
      obtain ⟨entry, hentry, rfl⟩ := Option.map_eq_some_iff.mp hmessage
      obtain ⟨unvisited, hunvisited, rfl⟩ :=
        List.mem_map.mp (List.mem_reverse.mp (List.mem_of_find?_eq_some hentry))
      obtain ⟨w, hw⟩ := Discovery.message_of_mem_errors hunvisited
      exact WalkError.message_ne w e (he.symm.trans hw)
    · intro hnone path message hmessage
      exact absurd (hmessage.symm.trans (hnone path)) (Option.some_ne_none message)

end SingleRule

/-- A project with a file and a link that leads nowhere. -/
def linked : FileTree where
  nodes := [(["r".toList], .dir),
    (["a.php".toList, "r".toList], .file (Text.utf8 "<?php\n".toList)),
    (["gone.php".toList, "r".toList], .link (Path.ofString "nowhere"))]

/-- The project with a file that cannot be read and a directory that cannot be listed. -/
def mixed : FileTree where
  nodes := linked.nodes ++
    [(["b.php".toList, "r".toList], .file []), (["closed".toList, "r".toList], .dir)]
  barred := [(["b.php".toList, "r".toList], .denied), (["closed".toList, "r".toList], .denied)]

/-- An analyzer of the project, with one rule. -/
def strict : Analyzer where
  root := Path.ofString "/r"
  rules := [{ kind := .strictTypes }]
  discovery := { excludeDirs := [], exclude := [], respectGitignore := true
                 preloadGitignores := true }
  settings := {}

/-- What a discovery finds in that project: two files, a directory and a link. -/
def mixedFound : DiscoveredFiles where
  files := ["/r/a.php", "/r/b.php"].map Path.ofString
  errors := [
    ⟨Path.ofString "/r/gone.php",
      "IO error for operation on /r/gone.php: No such file or directory (os error 2)"⟩,
    ⟨Path.ofString "/r/closed",
      "IO error for operation on /r/closed: Permission denied (os error 13)"⟩]

/-- What both ways record of the file that cannot be read. -/
def fileFailure : Path × String :=
  (Path.ofString "b.php", "Failed to read /r/b.php: Permission denied (os error 13)")

/-- What a detector records of the directory. -/
def directoryFailure : Path × String :=
  (Path.ofString "closed",
    "IO error for operation on /r/closed: Permission denied (os error 13)")

/-- What a detector records of the link. -/
def linkFailure : Path × String :=
  (Path.ofString "gone.php",
    "IO error for operation on /r/gone.php: No such file or directory (os error 2)")

theorem analyze_agrees_with_detect_mixed :
    ∃ o, strict.analyzeFound mixed mixedFound = .ok ⟨[o]⟩ ∧ o.rule = "strict-types" ∧
      o.passed = true ∧ o.issues = [] ∧ o.filesChecked = 1 ∧
      o.errors.get? fileFailure.1 = some fileFailure.2 ∧ o.errors.length = 1 ∧
      o.errors ≠ [fileFailure, directoryFailure, linkFailure] := by
  let d : Detector := { rule := { kind := .strictTypes }, filesChecked := 7 }
  let last : Detector :=
    { d with filesChecked := 1, errors := [fileFailure, directoryFailure, linkFailure] }
  have hdetect : d.detectFound mixed strict.root mixedFound = (.ok true, last) := by
    decide +kernel
  obtain ⟨-, hok⟩ := analyze_agrees_with_detect (a := strict) (d := d) rfl (by decide +kernel)
    mixed mixedFound
  obtain ⟨o, hanalyze, hrule, -, hpassed, hissues, hcount, hget, -⟩ := hok _ _ hdetect
  have hlength : (LintResult.errors <$> strict.analyzeFound mixed mixedFound).toOption.map
      List.length = some 1 := by
    decide +kernel
  rw [hanalyze] at hlength
  have hone : o.errors.length = 1 := by simpa [LintResult.errors, Except.toOption] using hlength
  refine ⟨o, hanalyze, hrule, hpassed, hissues, hcount, ?_, hone, fun hsame => ?_⟩
  · have hunvisited : Detector.unvisitedMessage? (mixed.canonical strict.root) mixedFound.errors
        fileFailure.1 = none := by
      decide +kernel
    have hfile := hget fileFailure.1
    rw [hunvisited, Option.none_or] at hfile
    exact hfile.symm
  · rw [hsame] at hone
    cases hone

/-- The link that leads nowhere is a failure of the detector; the analyzer has none. -/
theorem analyze_loses_dangling_link :
    LintResult.errors <$> strict.analyze linked = .ok [] ∧
    (Detector.detect { rule := { kind := .strictTypes } } linked strict.root
      strict.discovery).2.errors = [linkFailure] := by
  decide +kernel

end Analyzer

end PhpLint
