import Mathlib.Data.List.Find
import PhpLint.Proofs.Ignore.AnswerCache
import PhpLint.Proofs.Path.Components

/-!
Remembering answers changes none of them. A run asks about paths and adds ignore files
in any order; `Sound` says what holds between two of its calls, above all that every
remembered answer is the one that would be found anew. Two paths of the same components
share an answer, so the files and the file tree have to treat such paths alike, as far
as the run asks about them. Main statement: the answers of a run are those of a run
that remembers nothing, and what is remembered stays within the limit.
-/

namespace PhpLint.Ignore

/-- The last file that lies around a path and says anything about it decides. -/
theorem filesIgnore_eq_true_iff (files : List File) (path : Path) (isDir : Bool) :
    filesIgnore files path isDir = true ↔
      ∃ earlier f later, files = earlier ++ f :: later ∧ path.isWithin f.base = true ∧
        f.verdict? path isDir = some .ignored ∧
          ∀ g ∈ later, path.isWithin g.base = true → g.verdict? path isDir = none := by
  have hinside : ∀ g : File, (path.isWithin g.base = true → g.verdict? path isDir = none) ↔
      g.verdict? path isDir = none := by
    intro g
    by_cases hg : path.isWithin g.base = true <;> simp [File.verdict?, hg]
  simp only [filesIgnore, beq_iff_eq, List.findSome?_eq_some_iff, hinside]
  constructor
  · rintro ⟨later, f, earlier, hfiles, hverdict, hlater⟩
    refine ⟨earlier.reverse, f, later.reverse, ?_, ?_, hverdict, ?_⟩
    · rw [← List.reverse_reverse files, hfiles]
      simp
    · by_contra houtside
      simp [File.verdict?, houtside] at hverdict
    · intro g hg
      exact hlater g (List.mem_reverse.mp hg)
  · rintro ⟨earlier, f, later, rfl, -, hverdict, hlater⟩
    refine ⟨later.reverse, f, earlier.reverse, by simp, hverdict, ?_⟩
    intro g hg
    exact hlater g (List.mem_reverse.mp hg)

/-- The answer on a path when nothing is remembered. -/
def freshAnswer (files : List File) (isDir : Path → Bool) (path : Path) : Except Misplaced Bool :=
  match files.find? (!·.places path) with
  | some f => .error { path, base := f.base }
  | none => .ok (filesIgnore files path (isDir path))

/-- Paths of the same components are treated alike by the file tree and by each file. -/
structure Uniform (isDir : Path → Bool) (files : List File) (paths : List Path) : Prop where
  isDir : ∀ p ∈ paths, ∀ q ∈ paths, p.same q = true → isDir p = isDir q
  places : ∀ f ∈ files, ∀ p ∈ paths, ∀ q ∈ paths, p.same q = true → f.places p = f.places q
  verdict : ∀ f ∈ files, ∀ p ∈ paths, ∀ q ∈ paths, p.same q = true →
    ∀ isDir, f.verdict? p isDir = f.verdict? q isDir

section Uniform

variable {isDir : Path → Bool} {files some : List File} {paths : List Path}

theorem Uniform.subset (h : Uniform isDir files paths) (hsome : some ⊆ files) :
    Uniform isDir some paths where
  isDir := h.isDir
  places f hf := h.places f (hsome hf)
  verdict f hf := h.verdict f (hsome hf)

theorem Uniform.filesIgnore_eq (h : Uniform isDir files paths) {p q : Path} (hp : p ∈ paths)
    (hq : q ∈ paths) (hsame : p.same q = true) :
    filesIgnore files p (isDir p) = filesIgnore files q (isDir q) := by
  have hverdicts : files.reverse.map (·.verdict? p (isDir p)) =
      files.reverse.map (·.verdict? q (isDir q)) := by
    rw [h.isDir p hp q hq hsame]
    apply List.map_congr_left
    intro f hf
    exact h.verdict f (List.mem_reverse.mp hf) p hp q hq hsame _
  have hfind := congrArg (List.findSome? id) hverdicts
  rw [List.findSome?_map, List.findSome?_map] at hfind
  exact congrArg (· == some .ignored) hfind

/-- An answer holds for every spelling of its path. -/
theorem Uniform.freshAnswer_eq (h : Uniform isDir files paths) {p q : Path} (hp : p ∈ paths)
    (hq : q ∈ paths) (hsame : p.same q = true) {answer : Bool}
    (hanswer : freshAnswer files isDir p = .ok answer) :
    freshAnswer files isDir q = .ok answer := by
  have hplaces : files.find? (!·.places q) = files.find? (!·.places p) := by
    apply List.find?_congr
    intro f hf
    rw [h.places f hf p hp q hq hsame]
  rw [freshAnswer, hplaces, ← h.filesIgnore_eq hp hq hsame]
  unfold freshAnswer at hanswer
  split at hanswer
  · cases hanswer
  · exact hanswer

end Uniform

namespace Matcher

/-- What holds between the calls on a matcher, if it is asked about some paths only. -/
structure Sound (isDir : Path → Bool) (paths : List Path) (m : Matcher) : Prop where
  coherent : m.cache.Coherent
  size_le : m.cache.size ≤ AnswerCache.limit
  /-- Without files nothing is remembered. -/
  keys_eq_nil : m.files = [] → m.cache.keys = []
  /-- Every remembered answer is the one that would be found anew. -/
  remembered : ∀ key answer, m.cache.answers[key]? = some answer →
    ∃ p ∈ paths, p.components = key ∧ freshAnswer m.files isDir p = .ok answer

variable {isDir : Path → Bool} {paths : List Path} {m : Matcher}

theorem sound_of_no_answers (isDir : Path → Bool) (paths : List Path) (files : List File) :
    Sound isDir paths { files } where
  coherent := AnswerCache.coherent_empty
  size_le := by simp [AnswerCache.size]
  keys_eq_nil := by simp [AnswerCache.keys]
  remembered := by simp

/-- Asking about a path that has no answer yet. -/
theorem isIgnored_of_miss {path : Path} (hmiss : m.cache.get? path = none) :
    m.isIgnored isDir path =
      (filesIgnore m.files path (isDir path),
        if m.files.isEmpty then m
        else { m with
          cache := m.cache.insert path (filesIgnore m.files path (isDir path)) }) := by
  cases hfiles : m.files with
  | nil => simp [isIgnored, filesIgnore, hfiles]
  | cons f files => simp [isIgnored, hfiles, hmiss]

theorem isIgnored_of_hit (h : Sound isDir paths m) {path : Path} {answer : Bool}
    (hhit : m.cache.get? path = some answer) : m.isIgnored isDir path = (answer, m) := by
  have hmem : path.components ∈ m.cache.keys := by
    rw [AnswerCache.get?] at hhit
    rw [h.coherent.mem_iff, Std.HashMap.mem_iff_isSome_getElem?, hhit]
    rfl
  have hfiles : m.files ≠ [] := by
    intro hnil
    rw [h.keys_eq_nil hnil] at hmem
    cases hmem
  simp [isIgnored, hfiles, hhit]

/-- A new answer that is right may be remembered. -/
theorem Sound.insert (h : Sound isDir paths m) {path : Path} (hpath : path ∈ paths)
    (hmiss : m.cache.get? path = none) (hfiles : m.files ≠ []) {answer : Bool}
    (hanswer : freshAnswer m.files isDir path = .ok answer) :
    Sound isDir paths { m with cache := m.cache.insert path answer } where
  coherent := h.coherent.insert h.size_le hmiss answer
  size_le := AnswerCache.size_insert_le h.coherent h.size_le hmiss answer
  keys_eq_nil := fun hnil => absurd hnil hfiles
  remembered := by
    intro key known hknown
    simp only [AnswerCache.getElem?_insert] at hknown
    split at hknown
    · rename_i hkey
      obtain rfl := Option.some.inj hknown
      exact ⟨path, hpath, hkey, hanswer⟩
    · exact h.remembered key known (AnswerCache.getElem?_withRoom h.coherent hknown)

/-- One question: the answer is the one that would be found anew, and what holds before
holds behind it. -/
theorem ask_eq (h : Sound isDir paths m) (huniform : Uniform isDir m.files paths) {path : Path}
    (hpath : path ∈ paths) :
    match freshAnswer m.files isDir path with
    | .error e => m.ask isDir path = .error e
    | .ok answer => ∃ m', m.ask isDir path = .ok (answer, m') ∧ m'.files = m.files ∧
        Sound isDir paths m' := by
  cases hget : m.cache.get? path with
  | some known =>
    obtain ⟨p, hp, hkey, hfresh⟩ := h.remembered _ _ hget
    rw [huniform.freshAnswer_eq hp hpath (Path.same_iff.mpr hkey) hfresh]
    refine ⟨m, ?_, rfl, h⟩
    rw [ask, hget, ← isIgnored_of_hit h hget]
  | none =>
    cases hfind : m.files.find? (!·.places path) with
    | some f => simp [freshAnswer, ask, hget, hfind]
    | none =>
      have hfresh : freshAnswer m.files isDir path =
          .ok (filesIgnore m.files path (isDir path)) := by
        rw [freshAnswer, hfind]
      rw [hfresh]
      refine ⟨_, by rw [ask, hget, hfind, isIgnored_of_miss hget], ?_, ?_⟩
      · split <;> rfl
      · split
        · exact h
        · rename_i hfiles
          exact h.insert hpath hget (by simpa using hfiles) hfresh

/-- A question without a remembered answer, when there is room for one more. -/
theorem keys_ask {path : Path} {answer : Bool} {m' : Matcher}
    (hask : m.ask isDir path = .ok (answer, m')) (hmiss : m.cache.get? path = none)
    (hfiles : m.files ≠ []) (hroom : m.cache.size < AnswerCache.limit) :
    m'.cache.keys = m.cache.keys ++ [path.components] := by
  unfold ask at hask
  rw [hmiss, isIgnored_of_miss hmiss, List.isEmpty_eq_false_iff.mpr hfiles] at hask
  split at hask
  · cases hask
  · obtain ⟨rfl, rfl⟩ := Prod.mk.inj (Except.ok.inj hask)
    have hroom : m.cache.withRoom = m.cache := if_neg (Nat.not_le_of_lt hroom)
    change (m.cache.insert path _).keys = _
    rw [AnswerCache.keys_insert, hroom]

/-- A question without a remembered answer, when there is no room for one more. -/
theorem Sound.entries_ask (h : Sound isDir paths m) {path : Path} {answer : Bool} {m' : Matcher}
    (hask : m.ask isDir path = .ok (answer, m')) (hmiss : m.cache.get? path = none)
    (hfull : m.cache.size = AnswerCache.limit) :
    m'.cache.entries =
      m.cache.entries.drop (AnswerCache.limit / 2) ++ [(path.components, some answer)] := by
  have hfiles : m.files.isEmpty = false := by
    rw [List.isEmpty_eq_false_iff]
    intro hnil
    have hlength := h.coherent.length_keys
    rw [h.keys_eq_nil hnil, hfull] at hlength
    cases hlength
  unfold ask at hask
  rw [hmiss, isIgnored_of_miss hmiss, hfiles] at hask
  split at hask
  · cases hask
  · obtain ⟨rfl, rfl⟩ := Prod.mk.inj (Except.ok.inj hask)
    have hroom : m.cache.withRoom = m.cache.dropOlderHalf := if_pos hfull.ge
    change (m.cache.insert path _).entries = _
    rw [AnswerCache.entries_insert h.coherent h.size_le hmiss, hroom,
      AnswerCache.entries_dropOlderHalf h.coherent, hfull]

end Matcher

/-- A call on a matcher. -/
inductive Call where
  | add (base : Path) (content : Text)
  | ask (path : Path)

namespace Call

/-- The file that a call adds. -/
def file? : Call → Option File
  | .add base content => some (File.parse base content)
  | .ask _ => none

/-- The path that a call asks about. -/
def path? : Call → Option Path
  | .add _ _ => none
  | .ask path => some path

end Call

/-- Makes calls one after another, up to the first question without an answer: the
answers in order, and the matcher behind the last call. -/
def Matcher.run (isDir : Path → Bool) (m : Matcher) :
    List Call → Except Misplaced (List Bool × Matcher)
  | [] => .ok ([], m)
  | .add base content :: calls => (m.addFile base content).run isDir calls
  | .ask path :: calls => do
    let (answer, m) ← m.ask isDir path
    let (answers, m) ← m.run isDir calls
    return (answer :: answers, m)

/-- The answers to the same calls when nothing is remembered. Files without rules do not
count. -/
def freshAnswers (isDir : Path → Bool) (files : List File) :
    List Call → Except Misplaced (List Bool)
  | [] => .ok []
  | .add base content :: calls =>
    let f := File.parse base content
    freshAnswers isDir (if f.rules.isEmpty then files else files ++ [f]) calls
  | .ask path :: calls => do
    let answer ← freshAnswer files isDir path
    let answers ← freshAnswers isDir files calls
    return answer :: answers

namespace Matcher

variable {isDir : Path → Bool} {paths : List Path}

/-- A run from any state between two calls. -/
theorem run_eq {m : Matcher} (h : Sound isDir paths m) {calls : List Call}
    (huniform : Uniform isDir (m.files ++ calls.filterMap Call.file?) paths)
    (hpaths : calls.filterMap Call.path? ⊆ paths) :
    Prod.fst <$> m.run isDir calls = freshAnswers isDir m.files calls ∧
      ∀ answers m', m.run isDir calls = .ok (answers, m') → Sound isDir paths m' := by
  induction calls generalizing m with
  | nil =>
    refine ⟨rfl, ?_⟩
    rintro answers m' hrun
    obtain ⟨-, rfl⟩ := Prod.mk.inj (Except.ok.inj hrun)
    exact h
  | cons call calls ih =>
    cases call with
    | add base content =>
      refine ih (sound_of_no_answers ..) (huniform.subset ?_) hpaths
      intro f hf
      simp only [addFile, List.mem_append, List.filterMap_cons, Call.file?, List.mem_cons] at hf ⊢
      split at hf
      · exact hf.imp_right Or.inr
      · simp only [List.mem_append, List.mem_singleton] at hf
        tauto
    | ask path =>
      have hpath : path ∈ paths := hpaths (by simp [Call.path?])
      have hfiles : Uniform isDir m.files paths := huniform.subset (List.subset_append_left ..)
      have hask := ask_eq h hfiles hpath
      cases hfresh : freshAnswer m.files isDir path with
      | error e =>
        rw [hfresh] at hask
        simp [run, freshAnswers, hask, hfresh, bind, Except.bind, Functor.map, Except.map]
      | ok answer =>
        rw [hfresh] at hask
        obtain ⟨next, hnext, hsame, hsound⟩ := hask
        obtain ⟨hanswers, hlast⟩ := ih hsound (by rw [hsame]; exact huniform)
          (fun p hp => hpaths (by simpa [Call.path?] using Or.inr hp))
        rw [hsame] at hanswers
        cases hrest : next.run isDir calls with
        | error e =>
          rw [hrest] at hanswers
          simp [run, freshAnswers, hnext, hrest, hfresh, ← hanswers, bind, Except.bind,
            Functor.map, Except.map]
        | ok last =>
          obtain ⟨answers, m'⟩ := last
          rw [hrest] at hanswers
          refine ⟨?_, ?_⟩
          · simp [run, freshAnswers, hnext, hrest, hfresh, ← hanswers, bind, Except.bind,
              Functor.map, Except.map, pure, Except.pure]
          · rintro _ _ hrun
            simp only [run, hnext, hrest, bind, Except.bind, pure, Except.pure, Except.ok.injEq,
              Prod.mk.injEq] at hrun
            exact hrun.2 ▸ hlast answers m' hrest

/-- In whatever order files are added and paths asked about: every answer is the one found
without remembering any, where the last file that lies around the path and says anything
about it decides. There are never more remembered answers than the limit of ten thousand, and
no path has two of them; a new one that finds no room leaves the newer half of the others, in
their order, and comes last. -/
theorem answers_transparent (isDir : Path → Bool) (calls : List Call)
    (huniform : Uniform isDir (calls.filterMap Call.file?) (calls.filterMap Call.path?)) :
    Prod.fst <$> run isDir {} calls = freshAnswers isDir [] calls ∧
      (∀ files path isDir, filesIgnore files path isDir = true ↔
        ∃ earlier f later, files = earlier ++ f :: later ∧ path.isWithin f.base = true ∧
          f.verdict? path isDir = some .ignored ∧
            ∀ g ∈ later, path.isWithin g.base = true → g.verdict? path isDir = none) ∧
      ∀ answers m, run isDir {} calls = .ok (answers, m) →
        m.cache.size ≤ AnswerCache.limit ∧
        m.cache.keys.Nodup ∧ m.cache.keys.length = m.cache.size ∧
        ∀ path answer m', m.ask isDir path = .ok (answer, m') →
          m.cache.get? path = none → m.cache.size = AnswerCache.limit →
            m'.cache.entries =
              m.cache.entries.drop (AnswerCache.limit / 2) ++ [(path.components, some answer)] := by
  obtain ⟨hanswers, hsound⟩ := run_eq (sound_of_no_answers isDir _ []) huniform (List.Subset.refl _)
  refine ⟨hanswers, filesIgnore_eq_true_iff, ?_⟩
  intro answers m hrun
  have h := hsound answers m hrun
  exact ⟨h.size_le, h.coherent.nodup, h.coherent.length_keys,
    fun path answer m' => h.entries_ask⟩

/-- Three questions, two of them about one path spelled differently, and one more when a
second file has taken a path in again. -/
def reincluding : List Call :=
  [.add (Path.ofString "/r") "*.tmp".toList, .ask (Path.ofString "/r/b/a.tmp"),
    .ask (Path.ofString "/r/b//a.tmp"), .ask (Path.ofString "/r/c/a.tmp"),
    .add (Path.ofString "/r/c") "!a.tmp".toList, .ask (Path.ofString "/r/c/a.tmp")]

theorem uniform_reincluding :
    Uniform (fun _ => false) (reincluding.filterMap Call.file?)
      (reincluding.filterMap Call.path?) where
  isDir := by simp
  places := by decide +kernel
  verdict f hf p hp q hq hsame isDir := by
    revert f p q
    cases isDir <;> decide +kernel

theorem answers_transparent_reincluding :
    Prod.fst <$> run (fun _ => false) {} reincluding = .ok [true, true, true, false] := by
  obtain ⟨hanswers, -⟩ := answers_transparent (fun _ => false) reincluding uniform_reincluding
  rw [hanswers]
  decide +kernel

end Matcher

end PhpLint.Ignore
