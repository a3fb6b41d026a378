import PhpLint.Ignore.Load
import PhpLint.Proofs.FileTree.Listing
import PhpLint.Proofs.Ignore.Matcher
import PhpLint.Proofs.Path.Order

/-!
The ignore files that are loaded from a file tree. Each lies at a location whose path leads
to it, so it can put its rules to the path of every location: one below it is spelled as its
directory is, with one separator behind it.
-/

namespace PhpLint.Ignore

open Location (IsProper)

/-- The file lies at a location, and is known by the path of it. -/
def File.IsLocated (f : File) : Prop := ∃ l : Location, l.IsProper ∧ f.base = l.path

namespace File

theorem dropDot_path (l : Location) : dropDot l.path = l.path := rfl

/-- A path below the directory of a file is put to its rules by the way down from there. -/
theorem localPath_path {f : File} {names : List Text} {base : Location}
    (h : IsProper (names ++ base)) (hbase : f.base = base.path) :
    f.localPath (Location.path (names ++ base)) = Location.relative names := by
  have hproper : IsProper base := fun name hname => h name (List.mem_append_right _ hname)
  have hnames : IsProper names := fun name hname => h name (List.mem_append_left _ hname)
  have hdot : base.path.same ⟨['.']⟩ = false := by
    rw [Bool.eq_false_iff]
    intro hsame
    rw [Path.same_iff, Location.components_path hproper] at hsame
    cases hsame
  have hcontains : (Location.path (names ++ base)).spelling.contains '/' = true := by
    simp [Location.path]
  have hstart : Text.strip? ['/'] (Location.relative names).spelling = none := by
    rw [Option.eq_none_iff_forall_ne_some]
    intro rest hstrip
    have habsolute := Location.isAbsolute_relative hnames
    rw [Path.isAbsolute, Text.strip?_eq_some_iff.mp hstrip] at habsolute
    cases habsolute
  -- The top directory is the only one whose path ends with a separator.
  have hrest : ∃ rest, Text.strip? base.path.spelling (Location.path (names ++ base)).spelling =
      some rest ∧ (Text.strip? ['/'] rest).getD rest = (Location.relative names).spelling := by
    simp only [Text.strip?_eq_some_iff]
    by_cases htop : base = []
    · refine ⟨(Location.relative names).spelling, ?_, by rw [hstart]; rfl⟩
      rw [htop, List.append_nil]
      rfl
    · by_cases hnil : names = []
      · refine ⟨[], ?_, by rw [hnil]; rfl⟩
        rw [hnil, List.nil_append, List.append_nil]
      · refine ⟨'/' :: (Location.relative names).spelling, ?_, rfl⟩
        rw [Location.spelling_append hnil, if_neg htop]
  obtain ⟨rest, hstrip, hlocal⟩ := hrest
  rw [localPath, hbase]
  simp only [dropDot_path, hdot, hcontains, hstrip, hlocal, Bool.not_true, Bool.or_self,
    Bool.false_eq_true, if_false]

theorem places_path {f : File} (hf : f.IsLocated) {l : Location} (h : l.IsProper) :
    f.places l.path = true := by
  obtain ⟨base, hproper, hbase⟩ := hf
  rw [places, Bool.not_eq_true', Bool.and_eq_false_iff]
  by_cases hwithin : l.path.isWithin f.base = true
  · rw [hbase, Location.isWithin_path_iff h hproper] at hwithin
    obtain ⟨names, rfl⟩ := hwithin
    rw [localPath_path h hbase]
    exact .inr (Location.isAbsolute_relative fun name hname =>
      h name (List.mem_append_left _ hname))
  · exact .inl (Bool.eq_false_iff.mpr hwithin)

end File

variable {t : FileTree}

theorem mem_subdirs_iff (h : t.WellFormed) {excluded : List Text} {l : Location} {name : Text} :
    name ∈ subdirs t excluded l ↔ t.node? (name :: l) = some .dir ∧ name ∉ excluded := by
  rw [subdirs, List.mem_mergeSort, List.mem_filterMap]
  constructor
  · rintro ⟨⟨other, node⟩, hchild, hsome⟩
    simp only [Option.ite_none_right_eq_some, Option.some.injEq] at hsome
    obtain ⟨⟨rfl, hname⟩, rfl⟩ := hsome
    exact ⟨h.mem_children_iff.mp hchild, hname⟩
  · rintro ⟨hnode, hname⟩
    exact ⟨(name, .dir), h.mem_children_iff.mpr hnode, by simp [hname]⟩

/-- The ignore files within a directory are those that can be read in the directories that no
excluded one is around, as many levels down as are looked at. -/
theorem mem_filesWithin_iff (h : t.WellFormed) {excluded : List Text} {levels : Nat}
    {l : Location} (hdir : t.node? l = some .dir) {dir : Path} {content : Text} :
    (dir, content) ∈ filesWithin t excluded levels l.path l ↔
      ∃ names : List Text, t.node? (names ++ l) = some .dir ∧ names.length ≤ levels ∧
        (∀ name ∈ names, name ∉ excluded) ∧ dir = Location.path (names ++ l) ∧
        content? t dir = some content := by
  have hown : ∀ {here : Location},
      (dir, content) ∈ (content? t here.path).toList.map (fun content => (here.path, content)) ↔
        dir = here.path ∧ content? t dir = some content := by
    intro here
    simp only [List.mem_map, Option.mem_toList, Prod.mk.injEq]
    constructor
    · rintro ⟨_, hcontent, rfl, rfl⟩
      exact ⟨rfl, hcontent⟩
    · rintro ⟨rfl, hcontent⟩
      exact ⟨content, hcontent, rfl, rfl⟩
  induction levels generalizing l with
  | zero =>
    rw [filesWithin, hown]
    constructor
    · rintro ⟨rfl, hcontent⟩
      exact ⟨[], hdir, Nat.le_refl 0, by simp, rfl, hcontent⟩
    · rintro ⟨names, -, hlength, -, rfl, hcontent⟩
      obtain rfl := List.eq_nil_of_length_eq_zero (Nat.le_zero.mp hlength)
      exact ⟨rfl, hcontent⟩
  | succ levels ih =>
    have hbelow : ∀ {name : Text}, t.node? (name :: l) = some .dir →
        l.path.join ⟨name⟩ = Location.path (name :: l) := fun hnode =>
      Location.path_join (h.isProper hdir) (h.named _ _ _ hnode)
    rw [filesWithin, List.mem_append, hown, List.mem_flatMap]
    constructor
    · rintro (⟨rfl, hcontent⟩ | ⟨name, hname, hinner⟩)
      · exact ⟨[], hdir, Nat.zero_le _, by simp, rfl, hcontent⟩
      · obtain ⟨hnode, hname⟩ := (mem_subdirs_iff h).mp hname
        rw [hbelow hnode] at hinner
        obtain ⟨names, hdir, hlength, hnames, rfl, hcontent⟩ := (ih hnode).mp hinner
        refine ⟨names ++ [name], ?_, ?_, ?_, ?_, hcontent⟩
        · rwa [List.append_assoc]
        · simpa using hlength
        · exact List.forall_mem_append.mpr ⟨hnames, by simpa using hname⟩
        · rw [List.append_assoc, List.singleton_append]
    · rintro ⟨names, hnode, hlength, hnames, hpath, hcontent⟩
      -- The outermost name is the one through which the file is found.
      rcases List.eq_nil_or_concat' names with rfl | ⟨inner, name, rfl⟩
      · exact .inl ⟨hpath, hcontent⟩
      · rw [List.forall_mem_append, List.forall_mem_singleton] at hnames
        rw [List.append_assoc, List.singleton_append] at hnode hpath
        have hname : t.node? (name :: l) = some .dir := by
          cases inner with
          | nil => exact hnode
          | cons _ _ => exact h.around (List.cons_ne_nil _ _) hnode
        refine .inr ⟨name, (mem_subdirs_iff h).mpr ⟨hname, hnames.2⟩, ?_⟩
        rw [hbelow hname]
        exact (ih hname).mpr ⟨inner, hnode, by simpa using hlength, hnames.1, hpath, hcontent⟩

theorem Matcher.foldl_addFile (files : List (Path × Text)) (m : Matcher) (hcache : m.cache = {}) :
    files.foldl (fun m (dir, content) => m.addFile dir content) m =
      { files := m.files ++
          (files.map fun (dir, content) => File.parse dir content).filter (!·.rules.isEmpty) } := by
  induction files generalizing m with
  | nil =>
    obtain ⟨_, _⟩ := m
    subst hcache
    simp
  | cons file files ih =>
    obtain ⟨dir, content⟩ := file
    rw [List.foldl_cons, ih _ rfl, List.map_cons]
    by_cases hrules : (File.parse dir content).rules.isEmpty = true
    · simp [addFile, hrules]
    · simp [addFile, hrules]

/-- The files that are loaded: those with rules, each known by the path of its location. -/
theorem Matcher.load_eq (h : t.WellFormed) {top : Location} (hdir : t.node? top = some .dir)
    (preload : Bool) (excluded : List Text) :
    ∃ files : List File, Matcher.load t top.path preload excluded = { files } ∧
      ∀ f ∈ files, f.IsLocated := by
  rw [Matcher.load, h.resolve_path hdir (by simp), Matcher.foldl_addFile _ _ rfl]
  refine ⟨_, rfl, ?_⟩
  intro f hf
  rw [List.nil_append] at hf
  obtain ⟨⟨dir, content⟩, hmem, rfl⟩ := List.mem_map.mp (List.mem_of_mem_filter hf)
  obtain ⟨names, hnode, -, -, rfl, -⟩ := (mem_filesWithin_iff h hdir).mp hmem
  exact ⟨names ++ top, h.isProper hnode, File.dropDot_path _⟩

theorem Matcher.find?_places_path {files : List File} (hfiles : ∀ f ∈ files, f.IsLocated)
    {l : Location} (hl : l.IsProper) : files.find? (!·.places l.path) = none := by
  rw [List.find?_eq_none]
  intro f hf
  rw [File.places_path (hfiles f hf) hl]
  simp

/-- There is an answer on the path of a location, and it does not depend on the questions
before. -/
theorem Matcher.Sound.ask_path {isDir : Path → Bool} {paths : List Path} {m : Matcher}
    (h : Matcher.Sound isDir paths m) (hfiles : ∀ f ∈ m.files, f.IsLocated)
    (hpaths : ∀ p ∈ paths, ∃ l : Location, l.IsProper ∧ p = l.path) {l : Location}
    (hl : l.path ∈ paths) :
    ∃ m', m.ask isDir l.path = .ok (filesIgnore m.files l.path (isDir l.path), m') ∧
      m'.files = m.files ∧ Matcher.Sound isDir paths m' := by
  have hequal : ∀ p ∈ paths, ∀ q ∈ paths, p.same q = true → p = q := by
    intro p hp q hq hsame
    obtain ⟨lp, hlp, rfl⟩ := hpaths p hp
    obtain ⟨lq, hlq, rfl⟩ := hpaths q hq
    rw [Location.eq_of_same hlp hlq hsame]
  have huniform : Uniform isDir m.files paths := by
    refine ⟨fun p hp q hq hsame => ?_, fun f _ p hp q hq hsame => ?_,
      fun f _ p hp q hq hsame _ => ?_⟩ <;> rw [hequal p hp q hq hsame]
  have hask := Matcher.ask_eq h huniform hl
  obtain ⟨other, hproper, hother⟩ := hpaths l.path hl
  rw [freshAnswer, hother, Matcher.find?_places_path hfiles hproper, ← hother] at hask
  exact hask

theorem Matcher.Sound.isIgnored_path {isDir : Path → Bool} {paths : List Path} {m : Matcher}
    (h : Matcher.Sound isDir paths m) (hfiles : ∀ f ∈ m.files, f.IsLocated)
    (hpaths : ∀ p ∈ paths, ∃ l : Location, l.IsProper ∧ p = l.path) {l : Location}
    (hl : l.path ∈ paths) :
    ∃ m', m.isIgnored isDir l.path = (filesIgnore m.files l.path (isDir l.path), m') ∧
      m'.files = m.files ∧ Matcher.Sound isDir paths m' := by
  obtain ⟨m', hask, hnext⟩ := h.ask_path hfiles hpaths hl
  obtain ⟨other, hproper, hother⟩ := hpaths l.path hl
  refine ⟨m', ?_, hnext⟩
  rw [Matcher.ask, hother, Matcher.find?_places_path hfiles hproper, ← hother] at hask
  split at hask
  · rename_i hfind
    cases hfind
  · exact Except.ok.inj hask

/-- Questions on different locations, as long as there is room, are all remembered. -/
theorem Matcher.Sound.keys_run_paths {isDir : Path → Bool} {paths : List Path} {m : Matcher}
    (h : Matcher.Sound isDir paths m) (hfiles : ∀ f ∈ m.files, f.IsLocated)
    (hne : m.files ≠ []) (hpaths : ∀ p ∈ paths, ∃ l : Location, l.IsProper ∧ p = l.path)
    {asked : List Location} (hasked : ∀ l ∈ asked, l.path ∈ paths)
    (hnew : (m.cache.keys ++ asked.map fun l => l.path.components).Nodup)
    (hroom : m.cache.size + asked.length ≤ AnswerCache.limit) :
    ∃ answers m', m.run isDir (asked.map fun l => .ask l.path) = .ok (answers, m') ∧
      m'.cache.keys = m.cache.keys ++ (asked.map fun l => l.path.components) ∧
      Matcher.Sound isDir paths m' := by
  induction asked generalizing m with
  | nil => exact ⟨[], m, rfl, by simp, h⟩
  | cons l asked ih =>
    rw [List.map_cons, List.append_cons] at hnew
    rw [List.length_cons] at hroom
    have hmiss : m.cache.get? l.path = none := by
      have hnot : l.path.components ∉ m.cache.answers := by
        rw [← h.coherent.mem_iff]
        intro hmem
        have hfront := (List.nodup_append.mp hnew).1
        exact (List.nodup_append.mp hfront).2.2 _ hmem _ (List.mem_singleton_self _) rfl
      simpa [AnswerCache.get?] using hnot
    obtain ⟨next, hask, hsame, hnext⟩ := h.ask_path hfiles hpaths (hasked l List.mem_cons_self)
    have hkeys := Matcher.keys_ask hask hmiss hne (by omega)
    have hsize : next.cache.size = m.cache.size + 1 := by
      rw [← hnext.coherent.length_keys, hkeys, List.length_append, h.coherent.length_keys]
      rfl
    obtain ⟨answers, m', hrun, hlast, hsound⟩ := ih hnext (hsame ▸ hfiles) (hsame ▸ hne)
      (fun l' hl' => hasked l' (List.mem_cons_of_mem _ hl')) (hkeys ▸ hnew) (by omega)
    refine ⟨filesIgnore m.files l.path (isDir l.path) :: answers, m', ?_, ?_, hsound⟩
    · simp [Matcher.run, hask, hrun, bind, Except.bind, pure, Except.pure]
    · rw [hlast, hkeys, List.map_cons, ← List.append_cons]

/-- A matcher with files remembers as many answers as it is asked about different locations, up
to the limit. -/
theorem Matcher.size_run_paths (isDir : Path → Bool) {files : List File}
    (hfiles : ∀ f ∈ files, f.IsLocated) (hne : files ≠ []) {asked : List Location}
    (hproper : ∀ l ∈ asked, l.IsProper) (hnodup : asked.Nodup)
    (hroom : asked.length ≤ AnswerCache.limit) :
    ∃ answers m, Matcher.run isDir { files } (asked.map fun l => .ask l.path) =
      .ok (answers, m) ∧ m.cache.size = asked.length := by
  have hcomponents : (asked.map fun l => l.path.components).Nodup := by
    refine List.Nodup.map_on (fun l hl l' hl' hsame => ?_) hnodup
    exact Location.eq_of_same (hproper l hl) (hproper l' hl') (Path.same_iff.mpr hsame)
  obtain ⟨answers, m, hrun, hkeys, hsound⟩ :=
    (Matcher.sound_of_no_answers isDir (asked.map Location.path) files).keys_run_paths hfiles hne
      (fun p hp => by
        obtain ⟨l, hl, rfl⟩ := List.mem_map.mp hp
        exact ⟨l, hproper l hl, rfl⟩)
      (fun l hl => List.mem_map_of_mem hl) (by simpa [AnswerCache.keys] using hcomponents)
      (by simpa [AnswerCache.size] using hroom)
  refine ⟨answers, m, hrun, ?_⟩
  rw [← hsound.coherent.length_keys, hkeys]
  simp [AnswerCache.keys]

/-- The limit is reached: after ten thousand questions the next one finds no room. -/
theorem Matcher.exists_full (isDir : Path → Bool) {files : List File}
    (hfiles : ∀ f ∈ files, f.IsLocated) (hne : files ≠ []) :
    ∃ asked : List Location, asked.length = 10000 ∧ ∃ answers m,
      Matcher.run isDir { files } (asked.map fun l => .ask l.path) = .ok (answers, m) ∧
        m.cache.size = AnswerCache.limit := by
  -- Files of names of different lengths.
  let place (n : Nat) : Location := [List.replicate (n + 1) 'a']
  have hproper : ∀ n, (place n).IsProper := by
    intro n name hname
    obtain rfl := List.mem_singleton.mp hname
    exact ⟨by simp, by simp [List.replicate_succ], by simp [List.replicate_succ], by simp⟩
  have hinjective : Function.Injective place := by
    intro n n' hsame
    have hlength := congrArg List.length (List.cons.inj hsame).1
    simpa using hlength
  have hlength : ((List.range 10000).map place).length = 10000 := by
    rw [List.length_map, List.length_range]
  have hasked : ∀ l ∈ (List.range 10000).map place, l.IsProper := by
    intro l hl
    obtain ⟨n, -, rfl⟩ := List.mem_map.mp hl
    exact hproper n
  obtain ⟨answers, m, hrun, hsize⟩ := Matcher.size_run_paths isDir hfiles hne hasked
    (List.nodup_range.map hinjective) hlength.le
  exact ⟨_, hlength, answers, m, hrun, hsize.trans hlength⟩

section Relist

variable {t' : FileTree} (h : t.WellFormed) (hperm : t'.nodes.Perm t.nodes)
  (hbarred : t'.barred? = t.barred?)

include h hperm hbarred

omit h hbarred in
theorem subdirs_relist (excluded : List Text) (l : Location) :
    subdirs t' excluded l = subdirs t excluded l := by
  have hperm : (subdirs t' excluded l).Perm (subdirs t excluded l) :=
    (List.mergeSort_perm _ _).trans
      (((FileTree.WellFormed.children_relist hperm l).filterMap _).trans
        (List.mergeSort_perm _ _).symm)
  refine hperm.eq_of_pairwise ?_ (pairwise_mergeSort_isLE compare _)
    (pairwise_mergeSort_isLE compare _)
  intro a b _ _ hab hba
  exact Std.LawfulEqCmp.eq_of_compare (Std.OrientedCmp.isLE_antisymm hab hba)

theorem filesWithin_relist (excluded : List Text) (levels : Nat) :
    filesWithin t' excluded levels = filesWithin t excluded levels := by
  have hcontent : content? t' = content? t := by
    funext dir
    rw [content?, content?, FileTree.readText?_congr (h.node?_relist hperm) hbarred]
  induction levels with
  | zero =>
    funext dir l
    simp only [filesWithin, hcontent]
  | succ levels ih =>
    funext dir l
    simp only [filesWithin, hcontent, subdirs_relist hperm, ih]

theorem Matcher.load_relist (root : Path) (preload : Bool) (excluded : List Text) :
    Matcher.load t' root preload excluded = Matcher.load t root preload excluded := by
  simp only [Matcher.load, FileTree.resolve_congr (h.node?_relist hperm) hbarred,
    filesWithin_relist h hperm hbarred]

end Relist

end PhpLint.Ignore
