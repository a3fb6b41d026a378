import PhpLint.Proofs.Discovery.Sorting
import PhpLint.Proofs.FileTree.Walk
import PhpLint.Proofs.Ignore.Load

/-!
What discovery returns below a directory without links: exactly the source files that are
neither in an excluded directory nor matched by an exclude pattern nor ignored, in the order
of paths. The walk finds the files outside of excluded directories, `collect` takes those
that pass the other tests, whatever was asked about before, and sorting them makes the
result the same for every order of the entries. Files are found whether or not they can be
read; a directory that cannot be listed is recorded.
-/

namespace PhpLint

open Location (IsProper relative)

/-- The path by which a finding of a walk is asked about. -/
def Finding.askedPath? : Finding → Option Path
  | .file _ location => some location.path
  | .failure _ => none

/-- What is to be recorded of a finding. -/
def Finding.unvisited? (root : Path) : Finding → Option Unvisited
  | .file _ _ => none
  | .failure e => some (e.unvisited root)

namespace Discovery

/-- A name has the extension of source files if something stands in front of it. -/
theorem isSource_path_iff {name : Text} {l : Location} (h : IsProper (name :: l)) :
    isSource (Location.path (name :: l)) = true ↔
      ∃ stem, stem ≠ [] ∧ name = stem ++ ".php".toList := by
  have hname : (Location.path (name :: l)).fileName? = some name := by
    rw [Path.fileName?, Location.components_path h, List.reverse_cons, List.map_append,
      ← List.cons_append, List.getLast?_append_of_ne_nil _ (by simp)]
    rfl
  simp only [isSource, Path.extension?, hname, Option.bind_eq_bind, Option.bind_some, beq_iff_eq,
    Option.ite_none_left_eq_some, Option.some.injEq]
  constructor
  · rintro ⟨hlength, hextension⟩
    have hsplit := List.takeWhile_append_dropWhile (p := (· != '.')) (l := name.reverse)
    have hhead := List.head?_dropWhile_not (· != '.') name.reverse
    cases hrest : name.reverse.dropWhile (· != '.') with
    | nil =>
      rw [hrest, List.append_nil] at hsplit
      rw [hsplit] at hlength
      simp at hlength
    | cons c rest =>
      rw [hrest] at hsplit hhead
      obtain rfl : c = '.' := by simpa using hhead
      have hname : name = rest.reverse ++ '.' :: sourceExtension := by
        rw [← hextension, ← List.reverse_inj]
        simpa using hsplit.symm
      refine ⟨rest.reverse, ?_, hname⟩
      rintro hnil
      rw [hextension, hname, hnil] at hlength
      simp at hlength
  · rintro ⟨stem, hstem, rfl⟩
    have htake : (stem ++ ".php".toList).reverse.takeWhile (· != '.') = "php".toList.reverse := by
      simp
    have hlength := List.length_pos_iff.mpr hstem
    rw [htake]
    refine ⟨?_, rfl⟩
    simp only [List.length_append, List.length_reverse, String.reduceToList, List.length_cons,
      List.length_nil]
    omega

/-- A file that is taken when a walk comes across it. -/
structure Accepts (d : Discovery) (t : FileTree) (root : Path) (files : List Ignore.File)
    (file : Path) : Prop where
  source : isSource file = true
  not_excluded : d.isExcluded root file = false
  not_ignored : Ignore.filesIgnore files file (t.isDir file) = false

section Collect

variable {d : Discovery} {t : FileTree} {root : Path} {paths : List Path} {c : Collected}
  (hpaths : ∀ p ∈ paths, ∃ l : Location, l.IsProper ∧ p = l.path)

include hpaths

/-- One finding. The file is taken or not, and what holds of the ignore files holds on. -/
theorem collect_file (hsound : c.matcher.Sound t.isDir paths)
    (hfiles : ∀ f ∈ c.matcher.files, f.IsLocated) {l : Location} (hl : l.path ∈ paths) :
    (∀ file, file ∈ (d.collect t root c (.file l.path l)).files ↔
      file ∈ c.files ∨ d.Accepts t root c.matcher.files l.path ∧ file = l.path) ∧
    (d.collect t root c (.file l.path l)).matcher.files = c.matcher.files ∧
    (d.collect t root c (.file l.path l)).matcher.Sound t.isDir paths := by
  obtain ⟨next, hanswer, hsame, hnext⟩ := hsound.isIgnored_path hfiles hpaths hl
  rw [collect]
  by_cases htests : isSource l.path = true ∧ d.isExcluded root l.path = false
  · obtain ⟨hsource, hexcluded⟩ := htests
    simp only [hsource, hexcluded, hanswer, Bool.not_true, Bool.or_self, Bool.false_eq_true,
      if_false]
    refine ⟨fun file => ?_, hsame, hnext⟩
    cases hignored : Ignore.filesIgnore c.matcher.files l.path (t.isDir l.path) with
    | true =>
      have hnot : ¬d.Accepts t root c.matcher.files l.path := by
        intro haccepts
        rw [haccepts.not_ignored] at hignored
        cases hignored
      simp [hnot]
    | false =>
      have haccepts : d.Accepts t root c.matcher.files l.path := ⟨hsource, hexcluded, hignored⟩
      simp [haccepts, or_comm]
  · have hnot : ¬d.Accepts t root c.matcher.files l.path :=
      fun haccepts => htests ⟨haccepts.source, haccepts.not_excluded⟩
    have hskip : (!isSource l.path || d.isExcluded root l.path) = true := by
      cases hsource : isSource l.path <;> simp_all
    simp [hskip, hnot, hsound]

/-- All findings. -/
theorem foldl_collect (hsound : c.matcher.Sound t.isDir paths)
    (hfiles : ∀ f ∈ c.matcher.files, f.IsLocated) {findings : List Finding}
    (hfindings : ∀ f ∈ findings,
      (∃ l : Location, l.path ∈ paths ∧ f = .file l.path l) ∨ ∃ e, f = .failure e)
    (file : Path) :
    file ∈ (findings.foldl (d.collect t root) c).files ↔
      file ∈ c.files ∨ ∃ l, Finding.file l.path l ∈ findings ∧
        d.Accepts t root c.matcher.files l.path ∧ file = l.path := by
  induction findings generalizing c with
  | nil => simp
  | cons f findings ih =>
    have hlater := fun g hg => hfindings g (List.mem_cons_of_mem f hg)
    rcases hfindings f List.mem_cons_self with ⟨l, hl, rfl⟩ | ⟨failure, rfl⟩
    · obtain ⟨hcollected, hsame, hnext⟩ := collect_file hpaths hsound hfiles hl
      rw [List.foldl_cons, ih hnext (by rwa [hsame]) hlater, hcollected, hsame, or_assoc]
      apply or_congr_right
      constructor
      · rintro (⟨haccepts, rfl⟩ | ⟨other, hmem, haccepts, rfl⟩)
        · exact ⟨l, List.mem_cons_self, haccepts, rfl⟩
        · exact ⟨other, List.mem_cons_of_mem _ hmem, haccepts, rfl⟩
      · rintro ⟨other, hmem, haccepts, rfl⟩
        rcases List.mem_cons.mp hmem with heq | hmem
        · obtain ⟨hpath, -⟩ := Finding.file.inj heq
          exact .inl ⟨hpath ▸ haccepts, hpath⟩
        · exact .inr ⟨other, hmem, haccepts, rfl⟩
    · have hrest := ih (c := d.collect t root c (.failure failure)) hsound hfiles hlater
      rw [List.foldl_cons, hrest]
      simp [collect]

end Collect

/-- What is recorded does not depend on the files. -/
theorem errors_foldl_collect (d : Discovery) (t : FileTree) (root : Path)
    (findings : List Finding) (c : Collected) :
    (findings.foldl (d.collect t root) c).errors =
      (findings.filterMap (Finding.unvisited? root)).reverse ++ c.errors := by
  induction findings generalizing c with
  | nil => rfl
  | cons f findings ih =>
    rw [List.foldl_cons, ih]
    cases f with
    | file path location =>
      have hsame : (d.collect t root c (.file path location)).errors = c.errors := by
        rw [collect]
        dsimp only
        split
        · rfl
        · rfl
      rw [hsame]
      rfl
    | failure e => simp [collect, Finding.unvisited?]

/-- The errors of a discovery are those of the walk, in order. -/
theorem errors_discover (d : Discovery) (t : FileTree) (root : Path) :
    (d.discover t root).errors =
      (t.walk (d.excludeDirs.contains ·) (t.canonical root)).filterMap
        (Finding.unvisited? (t.canonical root)) := by
  rw [discover]
  simp [errors_foldl_collect]

/-- What is to be returned below a directory: a source file without an excluded directory
around it there, matched by no exclude pattern and not ignored, if ignore files count. -/
def Selects (d : Discovery) (t : FileTree) (top : Location) (file : Path) : Prop :=
  ∃ name dirs content, t.node? (name :: (dirs ++ top)) = some (.file content) ∧
    file = Location.path (name :: (dirs ++ top)) ∧
    (∃ stem, stem ≠ [] ∧ name = stem ++ ".php".toList) ∧
    (∀ dir ∈ dirs, dir ∉ d.excludeDirs) ∧
    (∀ g ∈ d.exclude, g.isMatch (relative (name :: dirs)).spelling = false ∧
      g.isMatch file.spelling = false) ∧
    (d.respectGitignore = true →
      ((Ignore.Matcher.load t top.path d.preloadGitignores d.excludeDirs).isIgnored t.isDir
        file).1 = false)

/-- What is to be recorded of a directory: it cannot be listed, and neither it nor one around
it, from the start of the walk on, is excluded. -/
def Misses (d : Discovery) (t : FileTree) (top : Location) (e : Unvisited) : Prop :=
  ∃ dirs cause, t.node? (dirs ++ top) = some .dir ∧ t.barred? (dirs ++ top) = some cause ∧
    dirs.length < FileTree.maxWalkDepth ∧ (∀ dir ∈ dirs, dir ∉ d.excludeDirs) ∧
    e = ⟨Location.path (dirs ++ top),
      (WalkError.unusable (Location.path (dirs ++ top)) cause).message⟩

section Exact

variable {d : Discovery} {t : FileTree} (h : t.WellFormed) {top : Location}
  (hdir : t.node? top = some .dir)

include h hdir

theorem matcher_eq : ∃ files : List Ignore.File, d.matcher t top.path = { files } ∧
    ∀ f ∈ files, f.IsLocated := by
  rw [matcher]
  split
  · exact Ignore.Matcher.load_eq h hdir _ _
  · exact ⟨[], rfl, by simp⟩

omit hdir in
/-- The patterns are put to the way down from the directory and to the full path. -/
theorem isExcluded_path_iff {name : Text} {dirs : List Text} {node : Node}
    (hnode : t.node? (name :: (dirs ++ top)) = some node) :
    d.isExcluded top.path (Location.path (name :: (dirs ++ top))) = false ↔
      ∀ g ∈ d.exclude, g.isMatch (relative (name :: dirs)).spelling = false ∧
        g.isMatch (Location.path (name :: (dirs ++ top))).spelling = false := by
  have hbelow := Location.below?_path (List.cons_ne_nil name dirs) (l := top) (h.isProper hnode)
  rw [List.cons_append] at hbelow
  rw [isExcluded, hbelow]
  simp

/-- Before anything is asked every answer is found anew; without ignore files nothing is
ignored. -/
theorem filesIgnore_matcher_iff (isDir : Path → Bool) (file : Path) :
    Ignore.filesIgnore (d.matcher t top.path).files file (isDir file) = false ↔
      (d.respectGitignore = true →
        ((Ignore.Matcher.load t top.path d.preloadGitignores d.excludeDirs).isIgnored isDir
          file).1 = false) := by
  rw [matcher]
  cases d.respectGitignore with
  | true =>
    obtain ⟨files, hload, -⟩ := Ignore.Matcher.load_eq h hdir d.preloadGitignores d.excludeDirs
    rw [if_pos rfl, hload,
      Ignore.Matcher.isIgnored_of_miss (by simp [Ignore.AnswerCache.get?])]
    simp
  | false => simp [Ignore.filesIgnore]

/-- What is to be returned is what is accepted when the walk comes across it. -/
theorem selects_iff (hlinks : t.LinkFree top) (hdepth : t.DepthAtMost top 100) (file : Path) :
    d.Selects t top file ↔
      ∃ l, Finding.file l.path l ∈ t.walk (d.excludeDirs.contains ·) top.path ∧
        d.Accepts t top.path (d.matcher t top.path).files l.path ∧ file = l.path := by
  have hwalk := h.mem_walk (d.excludeDirs.contains ·) hdir hlinks
  constructor
  · rintro ⟨name, dirs, content, hnode, rfl, hname, hdirs, hexcluded, hignored⟩
    have hlevels : dirs.length < 100 := hdepth (name :: dirs) _ hnode
    refine ⟨name :: (dirs ++ top),
      (hwalk _).mpr (.inl ⟨name, dirs, content, hnode, hlevels, ?_, rfl⟩), ?_, rfl⟩
    · simpa using hdirs
    · exact ⟨(isSource_path_iff (h.isProper hnode)).mpr hname,
        (isExcluded_path_iff h hnode).mpr hexcluded,
        (filesIgnore_matcher_iff h hdir _ _).mpr hignored⟩
  · rintro ⟨l, hmem, haccepts, rfl⟩
    rcases (hwalk _).mp hmem with ⟨name, dirs, content, hnode, -, hdirs, hfinding⟩ |
      ⟨_, _, -, -, -, -, hfinding⟩
    · obtain ⟨-, rfl⟩ := Finding.file.inj hfinding
      refine ⟨name, dirs, content, hnode, rfl, ?_, by simpa using hdirs, ?_, ?_⟩
      · exact (isSource_path_iff (h.isProper hnode)).mp haccepts.source
      · exact (isExcluded_path_iff h hnode).mp haccepts.not_excluded
      · exact (filesIgnore_matcher_iff h hdir _ _).mp haccepts.not_ignored
    · cases hfinding

/-- What is to be recorded is where the walk fails. -/
theorem misses_iff (hlinks : t.LinkFree top) (e : Unvisited) :
    d.Misses t top e ↔ e ∈ (t.walk (d.excludeDirs.contains ·) top.path).filterMap
      (Finding.unvisited? top.path) := by
  have hwalk := h.mem_walk (d.excludeDirs.contains ·) hdir hlinks
  rw [List.mem_filterMap]
  constructor
  · rintro ⟨dirs, cause, hnode, hbarred, hlevels, hdirs, rfl⟩
    exact ⟨_, (hwalk _).mpr (.inr ⟨dirs, cause, hnode, hbarred, hlevels, by simpa using hdirs,
      rfl⟩), rfl⟩
  · rintro ⟨f, hmem, hfailure⟩
    rcases (hwalk f).mp hmem with ⟨_, _, _, -, -, -, rfl⟩ |
      ⟨dirs, cause, hnode, hbarred, hlevels, hdirs, rfl⟩
    · cases hfailure
    · exact ⟨dirs, cause, hnode, hbarred, hlevels, by simpa using hdirs,
        (Option.some.inj hfailure).symm⟩

/-- The files that are collected on a walk. -/
theorem mem_collect_walk (hlinks : t.LinkFree top) (hdepth : t.DepthAtMost top 100)
    (file : Path) :
    file ∈ ((t.walk (d.excludeDirs.contains ·) top.path).foldl (d.collect t top.path)
      { matcher := d.matcher t top.path }).files ↔ d.Selects t top file := by
  have hwalk := h.mem_walk (d.excludeDirs.contains ·) hdir hlinks
  have hproper : ∀ f ∈ t.walk (d.excludeDirs.contains ·) top.path,
      (∃ l : Location, l.IsProper ∧ f = .file l.path l) ∨ ∃ e, f = .failure e := by
    intro f hf
    rcases (hwalk f).mp hf with ⟨name, dirs, content, hnode, -, -, rfl⟩ | ⟨_, _, -, -, -, -, rfl⟩
    · exact .inl ⟨_, h.isProper hnode, rfl⟩
    · exact .inr ⟨_, rfl⟩
  have hasked : ∀ f ∈ t.walk (d.excludeDirs.contains ·) top.path,
      (∃ l : Location, l.path ∈ (t.walk (d.excludeDirs.contains ·) top.path).filterMap
        Finding.askedPath? ∧ f = .file l.path l) ∨ ∃ e, f = .failure e := by
    intro f hf
    refine (hproper f hf).imp_left ?_
    rintro ⟨l, -, rfl⟩
    exact ⟨l, List.mem_filterMap.mpr ⟨_, hf, rfl⟩, rfl⟩
  have hpaths : ∀ p ∈ (t.walk (d.excludeDirs.contains ·) top.path).filterMap Finding.askedPath?,
      ∃ l : Location, l.IsProper ∧ p = l.path := by
    intro p hp
    obtain ⟨f, hf, hpath⟩ := List.mem_filterMap.mp hp
    rcases hproper f hf with ⟨l, hl, rfl⟩ | ⟨_, rfl⟩
    · exact ⟨l, hl, (Option.some.inj hpath).symm⟩
    · cases hpath
  obtain ⟨files, hmatcher, hlocated⟩ := matcher_eq (d := d) h hdir
  rw [selects_iff h hdir hlinks hdepth, foldl_collect hpaths
    (hmatcher ▸ Ignore.Matcher.sound_of_no_answers t.isDir _ files)
    (fun f hf => hlocated f (by simpa [hmatcher] using hf)) hasked]
  simp

/-- What a discovery returns for one order of the entries. -/
theorem discover_spec {root : Path} (hroot : t.resolve root = .ok top)
    (hlinks : t.LinkFree top) (hdepth : t.DepthAtMost top 100) :
    Increasing (d.discover t root).files ∧
      (∀ file, file ∈ (d.discover t root).files ↔ d.Selects t top file) ∧
      (∀ e, e ∈ (d.discover t root).errors ↔ d.Misses t top e) ∧
      (t.Listable top → (d.discover t root).errors = []) := by
  have hcanonical : t.canonical root = top.path := by rw [FileTree.canonical, hroot]
  have hselected : ∀ {file : Path}, d.Selects t top file →
      ∃ l : Location, l.IsProper ∧ file = l.path := by
    rintro _ ⟨name, dirs, content, hnode, rfl, -⟩
    exact ⟨_, h.isProper hnode, rfl⟩
  have hfiles := mem_collect_walk (d := d) h hdir hlinks hdepth
  have herrors : ∀ e, e ∈ (d.discover t root).errors ↔ d.Misses t top e := fun e => by
    rw [errors_discover, hcanonical, misses_iff h hdir hlinks]
  refine ⟨increasing_sortPaths _, fun file => ?_, herrors, fun hlistable => ?_⟩
  · rw [discover, hcanonical, mem_sortPaths_iff, hfiles]
    intro p hp q hq hsame
    obtain ⟨l, hl, rfl⟩ := hselected ((hfiles p).mp hp)
    obtain ⟨l', hl', rfl⟩ := hselected ((hfiles q).mp hq)
    rw [Location.eq_of_same hl hl' hsame]
  · rw [List.eq_nil_iff_forall_not_mem]
    intro e he
    obtain ⟨dirs, cause, hnode, hbarred, -⟩ := (herrors e).mp he
    rw [hlistable dirs hnode] at hbarred
    cases hbarred

end Exact

section Relist

variable {d : Discovery} {t t' : FileTree} (h : t.WellFormed)
  (hperm : t'.nodes.Perm t.nodes) (hbarred : t'.barred? = t.barred?)

include h hperm hbarred

/-- What is to be returned does not depend on the order of the entries. -/
theorem selects_relist (top : Location) : d.Selects t' top = d.Selects t top := by
  have hnode := h.node?_relist hperm
  funext file
  simp only [Selects, hnode, Ignore.Matcher.load_relist h hperm hbarred,
    FileTree.isDir_congr hnode hbarred]

end Relist

/-- Below a directory without links, of at most a hundred levels, exactly the files that are
to be returned are returned, in the order of paths and each of them once. What is recorded is
the directories that cannot be listed. The files do not depend on the order in which the
entries of directories are listed, and nor does the rest if every directory can be listed. -/
theorem discover_exact (d : Discovery) {t : FileTree} (h : t.WellFormed) {root : Path}
    {top : Location} (hroot : t.resolve root = .ok top) (hdir : t.node? top = some .dir)
    (hlinks : t.LinkFree top) (hdepth : t.DepthAtMost top 100) :
    Increasing (d.discover t root).files ∧
      (∀ file, file ∈ (d.discover t root).files ↔ d.Selects t top file) ∧
      (∀ e, e ∈ (d.discover t root).errors ↔ d.Misses t top e) ∧
      (∀ nodes : Keyed Location Node, nodes.Perm t.nodes →
        (d.discover { t with nodes } root).files = (d.discover t root).files) ∧
      (t.Listable top → (d.discover t root).errors = [] ∧
        ∀ nodes : Keyed Location Node, nodes.Perm t.nodes →
          d.discover { t with nodes } root = d.discover t root) := by
  obtain ⟨hincreasing, hfiles, hmissed, herrors⟩ := discover_spec (d := d) h hdir hroot hlinks
    hdepth
  have hrelist : ∀ nodes : Keyed Location Node, nodes.Perm t.nodes →
      (d.discover { t with nodes } root).files = (d.discover t root).files ∧
        (t.Listable top → (d.discover { t with nodes } root).errors = []) := by
    intro nodes hperm
    let t' : FileTree := { t with nodes }
    have hbarred : t'.barred? = t.barred? := rfl
    have hnode : t'.node? = t.node? := h.node?_relist hperm
    have hlinks' : t'.LinkFree top := by rwa [FileTree.LinkFree, hnode]
    have hdepth' : t'.DepthAtMost top 100 := by rwa [FileTree.DepthAtMost, hnode]
    obtain ⟨hincreasing', hfiles', -, herrors'⟩ := discover_spec (d := d) (t := t')
      (h.relist hperm rfl) (hnode ▸ hdir) (FileTree.resolve_congr hnode rfl ▸ hroot) hlinks' hdepth'
    refine ⟨hincreasing'.eq_of_mem_iff hincreasing fun file => ?_, fun hlistable => herrors' ?_⟩
    · rw [hfiles, hfiles', selects_relist h hperm hbarred]
    · rwa [FileTree.Listable, hnode]
  refine ⟨hincreasing, hfiles, hmissed, fun nodes hperm => (hrelist nodes hperm).1,
    fun hlistable => ⟨herrors hlistable, fun nodes hperm => ?_⟩⟩
  obtain ⟨hsame, hnone⟩ := hrelist nodes hperm
  exact congrArg₂ DiscoveredFiles.mk hsame ((hnone hlistable).trans (herrors hlistable).symm)

/-- A project with an excluded directory, an ignored file and one that is excluded. One of
its files cannot be read. -/
def project : FileTree where
  nodes := [
    (["r".toList], .dir),
    (["b.php".toList, "r".toList], .file []),
    ([".gitignore".toList, "r".toList], .file (Text.utf8 "gen*\n".toList)),
    (["gen.php".toList, "r".toList], .file []),
    (["vendor".toList, "r".toList], .dir),
    (["y.php".toList, "vendor".toList, "r".toList], .file []),
    (["a".toList, "r".toList], .dir),
    (["old.php".toList, "a".toList, "r".toList], .file []),
    (["x.php".toList, "a".toList, "r".toList], .file [])]
  barred := [(["b.php".toList, "r".toList], .denied)]

def projectDiscovery : Discovery where
  excludeDirs := ["vendor".toList]
  exclude := [{ source := "a/old*".toList, tokens := "a/old".toList.map .char ++ [.anyText] }]
  respectGitignore := true
  preloadGitignores := true

theorem wellFormed_project : project.WellFormed := by decide +kernel

theorem selects_project :
    projectDiscovery.Selects project ["r".toList] (Path.ofString "/r/a/x.php") := by
  refine ⟨"x.php".toList, ["a".toList], [], by decide +kernel, by decide +kernel,
    ⟨"x".toList, by decide, rfl⟩, by decide +kernel, by decide +kernel, ?_⟩
  exact (filesIgnore_matcher_iff wellFormed_project (by decide +kernel) _ _).mp
    (by decide +kernel)

/-- The files that are ignored, in an excluded directory or matched by an exclude pattern are
not to be returned. -/
theorem not_selects_project :
    ∀ left ∈ ["/r/gen.php", "/r/vendor/y.php", "/r/a/old.php"].map Path.ofString,
      ¬ projectDiscovery.Selects project ["r".toList] left := by
  have hrefused : ∀ p ∈ (project.walk (projectDiscovery.excludeDirs.contains ·)
      (Location.path ["r".toList])).filterMap Finding.askedPath?,
      p ∈ ["/r/gen.php", "/r/vendor/y.php", "/r/a/old.php"].map Path.ofString →
        projectDiscovery.isExcluded (Location.path ["r".toList]) p = true ∨
        Ignore.filesIgnore (projectDiscovery.matcher project (Location.path ["r".toList])).files
          p (project.isDir p) = true := by
    decide +kernel
  intro left hleft hselected
  obtain ⟨l, hmem, haccepts, rfl⟩ := (selects_iff wellFormed_project (by decide +kernel)
    (wellFormed_project.linkFree (by simp [project]) _)
    (wellFormed_project.depthAtMost (by decide +kernel) _) left).mp hselected
  rcases hrefused l.path (List.mem_filterMap.mpr ⟨_, hmem, rfl⟩) hleft with hexcluded | hignored
  · rw [haccepts.not_excluded] at hexcluded
    cases hexcluded
  · rw [haccepts.not_ignored] at hignored
    cases hignored

theorem discover_exact_project :
    Path.ofString "/r/a/x.php" ∈ (projectDiscovery.discover project (Path.ofString "/r/")).files ∧
      (∀ left ∈ ["/r/gen.php", "/r/vendor/y.php", "/r/a/old.php"].map Path.ofString,
        left ∉ (projectDiscovery.discover project (Path.ofString "/r/")).files) ∧
      (projectDiscovery.discover project (Path.ofString "/r/")).errors = [] ∧
      projectDiscovery.discover { project with nodes := project.nodes.reverse }
          (Path.ofString "/r/") =
        projectDiscovery.discover project (Path.ofString "/r/") := by
  obtain ⟨-, hfiles, -, -, hlisted⟩ := discover_exact projectDiscovery wellFormed_project
    (by decide +kernel : project.resolve (Path.ofString "/r/") = .ok ["r".toList])
    (by decide +kernel) (wellFormed_project.linkFree (by simp [project]) _)
    (wellFormed_project.depthAtMost (by decide +kernel) _)
  obtain ⟨herrors, hrelist⟩ := hlisted (FileTree.listable (by decide +kernel) _)
  exact ⟨(hfiles _).mpr selects_project,
    fun left hleft => mt (hfiles left).mp (not_selects_project left hleft), herrors,
    hrelist _ (List.reverse_perm _)⟩

end Discovery

end PhpLint
