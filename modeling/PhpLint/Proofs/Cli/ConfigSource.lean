import PhpLint.Cli.ConfigSource
import PhpLint.Proofs.FileTree.Spelling
import PhpLint.Proofs.Path.Parents

/-!
Where the settings of a run come from. The project file is the one of the nearest directory at
or above the start that holds any, provided that no directory on the way there holds the marker
of a project; without such a directory the user's file counts, and failing that the defaults.
The search goes up one parent at a time, so the nearest directory of a start is the start itself
or the nearest one of its parent.
-/

namespace PhpLint.Cli.ConfigSource

variable {t : FileTree} {start d d' p q : Path} {name : String}

/-- A directory holds a file of a name. -/
def Holds (t : FileTree) (d : Path) (name : String) : Prop :=
  t.isFile (d.join (.ofString name)) = true

instance : Decidable (Holds t d name) := inferInstanceAs (Decidable (_ = true))

/-- A directory holds a project file. -/
def Configured (t : FileTree) (d : Path) : Prop :=
  Holds t d "phpguard.toml" ∨ Holds t d ".phpguard.toml"

instance : Decidable (Configured t d) := inferInstanceAs (Decidable (_ ∨ _))

/-- The name of the project file that counts in a directory. -/
def preferredName (t : FileTree) (d : Path) : String :=
  if Holds t d "phpguard.toml" then "phpguard.toml" else ".phpguard.toml"

/-- The nearest directory at or above the start that holds a project file. No directory strictly
below it, on the way from the start, holds one or the marker of a project. -/
structure IsProjectDir (t : FileTree) (start d : Path) : Prop where
  absolute : d.isAbsolute = true
  above : d.components <+: start.components
  configured : Configured t d
  below : ∀ e : Path, e.isAbsolute = true → e.components <+: start.components →
    d.components <+: e.components → e.components ≠ d.components →
    ¬ Configured t e ∧ ¬ Holds t e "composer.json"

theorem holds_congr (hd : d.isAbsolute = true) (hd' : d'.isAbsolute = true)
    (hsame : d.components = d'.components)
    (hname : name ∈ ["phpguard.toml", ".phpguard.toml", "composer.json"]) :
    Holds t d name ↔ Holds t d' name := by
  have hentry : ∀ name ∈ ["phpguard.toml", ".phpguard.toml", "composer.json"],
      IsEntryName name.toList := by decide
  unfold Holds Path.ofString
  rw [t.isFile_join_congr hd hd' hsame (hentry name hname)]

theorem configured_congr (hd : d.isAbsolute = true) (hd' : d'.isAbsolute = true)
    (hsame : d.components = d'.components) : Configured t d ↔ Configured t d' :=
  or_congr (holds_congr hd hd' hsame (by decide)) (holds_congr hd hd' hsame (by decide))

theorem projectFile?_eq : projectFile? t d =
    if Configured t d then some (d.join (.ofString (preferredName t d))) else none := by
  by_cases hplain : Holds t d "phpguard.toml" <;> by_cases hdotted : Holds t d ".phpguard.toml"
  all_goals
    simp only [Holds, Bool.not_eq_true] at hplain hdotted
    simp [projectFile?, projectNames, Configured, preferredName, Holds, hplain, hdotted]

namespace IsProjectDir

/-- There is only one such directory. -/
theorem unique (h : IsProjectDir t start d) (h' : IsProjectDir t start d') :
    d.components = d'.components := by
  by_contra hne
  rcases List.prefix_or_prefix_of_prefix h.above h'.above with hpart | hpart
  · exact (h.below d' h'.absolute h'.above hpart (Ne.symm hne)).1 h'.configured
  · exact (h'.below d h.absolute h.above hpart hne).1 h.configured

theorem self (hstart : start.isAbsolute = true) (h : Configured t start) :
    IsProjectDir t start start where
  absolute := hstart
  above := List.prefix_rfl
  configured := h
  below _ _ habove hbelow hne := absurd (habove.eq_of_length_le hbelow.length_le) hne

/-- The search goes on with the parent. -/
theorem of_parent {c : PathComponent} (hp : p.isAbsolute = true)
    (hparent : p.components = q.components ++ [c]) (hplain : ¬ Configured t p)
    (hmarker : ¬ Holds t p "composer.json") (h : IsProjectDir t q d) : IsProjectDir t p d where
  absolute := h.absolute
  above := h.above.trans ⟨[c], hparent.symm⟩
  configured := h.configured
  below e he habove hbelow hne := by
    rw [hparent, List.prefix_concat_iff] at habove
    rcases habove with hself | habove
    · have hsame : e.components = p.components := hself.trans hparent.symm
      exact ⟨fun hconf => hplain ((configured_congr he hp hsame).mp hconf),
        fun hholds => hmarker ((holds_congr he hp hsame (by decide)).mp hholds)⟩
    · exact h.below e he habove hbelow hne

theorem ne_start (hstart : start.isAbsolute = true) (hplain : ¬ Configured t start)
    (h : IsProjectDir t start d) : start.components ≠ d.components := fun hsame =>
  hplain ((configured_congr hstart h.absolute hsame).mpr h.configured)

theorem to_parent {c : PathComponent} (hp : p.isAbsolute = true)
    (hparent : p.components = q.components ++ [c]) (hplain : ¬ Configured t p)
    (h : IsProjectDir t p d) : IsProjectDir t q d where
  absolute := h.absolute
  above := by
    have habove := h.above
    rw [hparent, List.prefix_concat_iff, ← hparent] at habove
    exact habove.resolve_left (h.ne_start hp hplain).symm
  configured := h.configured
  below e he habove := h.below e he (habove.trans ⟨[c], hparent.symm⟩)

/-- The marker of a project ends the search. -/
theorem not_of_marker (hp : p.isAbsolute = true) (hplain : ¬ Configured t p)
    (hmarker : Holds t p "composer.json") : ¬ IsProjectDir t p d := fun h =>
  (h.below p hp List.prefix_rfl h.above (h.ne_start hp hplain)).2 hmarker

/-- There is nothing above the top directory. -/
theorem not_of_top (hp : p.isAbsolute = true) (htop : p.components = [.root])
    (hplain : ¬ Configured t p) : ¬ IsProjectDir t p d := fun h => by
  have habove := h.above
  rw [htop, Path.components_of_isAbsolute h.absolute, List.cons_prefix_cons,
    List.prefix_nil] at habove
  apply h.ne_start hp hplain
  rw [htop, Path.components_of_isAbsolute h.absolute, habove.2]

end IsProjectDir

/-- The project file of the nearest directory, if there is one. -/
def FindsNearest (t : FileTree) (start : Path) (found : Option Path) : Prop :=
  (∃ d, IsProjectDir t start d ∧ found = some (d.join (.ofString (preferredName t d)))) ∨
    (∀ d, ¬ IsProjectDir t start d) ∧ found = none

/-- One step of the search: what is found from the parent on is found from the directory on,
unless it is configured itself or holds the marker. -/
theorem FindsNearest.step {outer : List Path} (hp : p.isAbsolute = true)
    (hparent : ∀ q c, p.parent? = some q → q.isAbsolute = true →
      p.components = q.components ++ [c] → FindsNearest t q (searchUpwards t outer))
    (htop : p.parent? = none → outer = []) : FindsNearest t p (searchUpwards t (p :: outer)) := by
  rw [searchUpwards, projectFile?_eq]
  by_cases hplain : Configured t p
  · rw [if_pos hplain]
    exact .inl ⟨p, .self hp hplain, rfl⟩
  rw [if_neg hplain]
  by_cases hmarker : Holds t p "composer.json"
  · exact .inr ⟨fun d => IsProjectDir.not_of_marker hp hplain hmarker, if_pos hmarker⟩
  · have hgoes : (if t.isFile (p.join (.ofString projectMarker)) then none else
        searchUpwards t outer) = searchUpwards t outer := if_neg hmarker
    dsimp only
    rw [hgoes]
    rcases Path.parent?_cases hp with ⟨q, c, hq, habsolute, hcomponents⟩ | ⟨hnone, hroot⟩
    · rcases hparent q c hq habsolute hcomponents with ⟨d, hd, hfound⟩ | ⟨hno, hfound⟩
      · exact .inl ⟨d, hd.of_parent hp hcomponents hplain hmarker, hfound⟩
      · exact .inr ⟨fun d hd => hno d (hd.to_parent hp hcomponents hplain), hfound⟩
    · rw [htop hnone]
      exact .inr ⟨fun d => IsProjectDir.not_of_top hp hroot hplain, rfl⟩

/-- A search with enough levels ends at the top directory. -/
theorem findsNearest_parentsUpTo {levels : Nat} (hp : p.isAbsolute = true)
    (hlevels : p.components.length ≤ levels + 1) :
    FindsNearest t p (searchUpwards t (p :: Path.parentsUpTo levels p)) := by
  induction levels generalizing p with
  | zero =>
    refine FindsNearest.step hp (fun q c _ hq hcomponents => ?_) fun _ => rfl
    rw [hcomponents, Path.components_of_isAbsolute hq] at hlevels
    simp at hlevels
  | succ levels ih =>
    rw [Path.parentsUpTo]
    cases hparent : p.parent? with
    | none => exact FindsNearest.step hp (by simp [hparent]) fun _ => rfl
    | some outer =>
      refine FindsNearest.step hp (fun q c hq habsolute hcomponents => ?_) (by simp [hparent])
      obtain rfl := Option.some.inj (hparent.symm.trans hq)
      refine ih habsolute ?_
      rw [hcomponents, List.length_append, List.length_singleton] at hlevels
      omega

theorem findProject?_nearest (hstart : start.isAbsolute = true) :
    FindsNearest t start (findProject? t start) :=
  findsNearest_parentsUpTo hstart (Nat.le_succ _)

/-- The settings of a run come from the file that is named, in every case; without one from the
project file of the nearest directory at or above the start that holds any, as long as no
directory on the way there holds the marker of a project; without such a directory from the
user's file, if it is there, and from the defaults otherwise. -/
theorem locate_nearest (t : FileTree) {start : Path} (hstart : start.isAbsolute = true)
    (globalDir : Option Path) :
    (∀ p, locate t start (some p) globalDir = .explicit p) ∧
      (∀ d, IsProjectDir t start d → ∃ d' : Path, d'.same d = true ∧
        locate t start none globalDir = .project (d'.join (.ofString (preferredName t d)))) ∧
      ((∀ d, ¬ IsProjectDir t start d) →
        (∀ g, globalDir = some g → Holds t g "config.toml" →
          locate t start none globalDir = .global (g.join (.ofString "config.toml"))) ∧
        ((∀ g, globalDir = some g → ¬ Holds t g "config.toml") →
          locate t start none globalDir = .default)) := by
  refine ⟨fun p => rfl, fun d hd => ?_, fun hnone => ?_⟩
  · rcases findProject?_nearest (t := t) hstart with ⟨d', hd', hfound⟩ | ⟨hno, -⟩
    · have hsame := hd'.unique hd
      refine ⟨d', Path.same_iff.mpr hsame, ?_⟩
      have hholds : Holds t d' "phpguard.toml" ↔ Holds t d "phpguard.toml" :=
        holds_congr hd'.absolute hd.absolute hsame (by decide)
      have hname : preferredName t d' = preferredName t d := by
        unfold preferredName
        simp only [hholds]
      rw [locate, hfound, hname]
    · exact absurd hd (hno d)
  · have hfound : findProject? t start = none := by
      rcases findProject?_nearest (t := t) hstart with ⟨d', hd', -⟩ | ⟨-, hfound⟩
      · exact absurd hd' (hnone d')
      · exact hfound
    refine ⟨?_, fun hglobal => ?_⟩
    · rintro g rfl hholds
      rw [locate, hfound]
      exact if_pos hholds
    · rw [locate, hfound]
      cases globalDir with
      | none => rfl
      | some g => exact if_neg (hglobal g rfl)

/-- A project whose settings lie beside its marker, with another file further up. -/
def nestedProject : FileTree where
  nodes := [
    (["phpguard.toml".toList], .file []),
    (["app".toList], .dir),
    ([".phpguard.toml".toList, "app".toList], .file []),
    (["composer.json".toList, "app".toList], .file []),
    (["src".toList, "app".toList], .dir)]

theorem locate_nearest_nested :
    (Path.ofString "/app/src").isAbsolute = true ∧
      IsProjectDir nestedProject (.ofString "/app/src") (.ofString "/app") ∧
      ∃ d : Path, d.same (.ofString "/app") = true ∧
        locate nestedProject (.ofString "/app/src") none none =
          .project (d.join (.ofString ".phpguard.toml")) := by
  have hstart : (Path.ofString "/app/src").isAbsolute = true := by decide
  have hdir : IsProjectDir nestedProject (.ofString "/app/src") (.ofString "/app") :=
    .of_parent hstart (by decide : _ = _ ++ [PathComponent.name "src".toList]) (by decide +kernel)
      (by decide +kernel) (.self (by decide) (by decide +kernel))
  have hname : preferredName nestedProject (.ofString "/app") = ".phpguard.toml" := by
    decide +kernel
  obtain ⟨-, hproject, -⟩ := locate_nearest nestedProject hstart none
  exact ⟨hstart, hdir, hname ▸ hproject _ hdir⟩

end PhpLint.Cli.ConfigSource
