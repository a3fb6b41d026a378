import Mathlib.Data.List.InsertIdx
import Mathlib.Data.List.Nodup
import PhpLint.Preset

/-!
Which rules settings select, and with which limits. What a preset has and the limits it
stands for are said once without the way in which presets are made from one another; the
lists that are made agree with that. Main statement: the selected rules are those of the
chosen preset and those that a table turns on, each of them once and in the order of reports,
and each of their limits is the one that its table gives or else that of the preset, which is
lower in the strict preset than in the others.
-/

namespace PhpLint

namespace RuleKind

theorem mem_all (k : RuleKind) : k ∈ all := by
  cases k <;> decide

theorem name_injective : Function.Injective name := fun a b h =>
  List.inj_on_of_nodup_map (show (all.map name).Nodup by decide +kernel) (mem_all a) (mem_all b) h

theorem position_injective : Function.Injective position := fun a _ h =>
  (List.idxOf_inj (mem_all a)).mp h

/-- The name of a rule is the name of no other rule, and the code of none. -/
theorem ofName?_name (k : RuleKind) : ofName? k.name.toList = some k := by
  cases k <;> decide +kernel

/-- A limit of a rule: the key under which tables give it, and its place among the limits. -/
structure Limit where
  key : String
  value : Limits → Nat

/-- The limits that a rule has. -/
def limits : RuleKind → List Limit
  | .psr12Compliance => [⟨"max_line_length", Limits.maxLineLength⟩]
  | .classLength =>
    [⟨"max_class_length", Limits.maxClassLength⟩, ⟨"max_method_length", Limits.maxMethodLength⟩]
  | .cyclomaticComplexity => [⟨"max_complexity", Limits.maxComplexity⟩]
  | _ => []

end RuleKind

namespace Preset

/-- Whether a preset has a rule. -/
def Has (p : Preset) (k : RuleKind) : Prop :=
  match p with
  | .recommended => k ≠ .psr12Compliance
  | .strict | .all => True
  | .minimal => k = .namingConvention ∨ k = .strictTypes

/-- The limits of a preset. -/
def limits : Preset → Limits
  | .strict =>
    { maxLineLength := 100, maxClassLength := 300, maxMethodLength := 30, maxComplexity := 8 }
  | _ => { maxLineLength := 120, maxClassLength := 500, maxMethodLength := 50, maxComplexity := 10 }

theorem limits_eq_default {p : Preset} (h : p ≠ .strict) : p.limits = .default := by
  cases p with
  | strict => exact absurd rfl h
  | recommended => rfl
  | minimal => rfl
  | all => rfl

/-- The strict preset has lower limits than the others. -/
theorem limits_strict_lt {k : RuleKind} {limit : RuleKind.Limit} (h : limit ∈ k.limits)
    {p : Preset} (hp : p ≠ .strict) : limit.value strict.limits < limit.value p.limits := by
  rw [limits_eq_default hp]
  revert limit
  cases k <;> simp [RuleKind.limits, limits, Limits.default]

end Preset

namespace Settings

/-- A preset is chosen by its name in any ASCII case; if nothing is, or nothing that is a
preset's name, it is the recommended one. -/
def Chooses (s : Settings) (p : Preset) : Prop :=
  (∃ name, s.preset = some name ∧ Text.asciiLower name = p.name.toList) ∨
    p = .recommended ∧
      ∀ name, s.preset = some name → ∀ q : Preset, Text.asciiLower name ≠ q.name.toList

/-- The table of a rule says that it is enabled. -/
def Enables (s : Settings) (k : RuleKind) : Prop :=
  ∃ table, s.rule k.name = some table ∧ table.enabled = some true

/-- The table of a rule gives a non-negative integer under a key. -/
def Gives (s : Settings) (k : RuleKind) (key : String) (n : Nat) : Prop :=
  ∃ table, s.rule k.name = some table ∧ Keyed.get? key.toList table.options = some (.integer n)

theorem chooses_chosenPreset (s : Settings) : s.Chooses s.chosenPreset := by
  unfold Chooses chosenPreset
  cases s.preset with
  | none => exact .inr ⟨rfl, fun name h => by cases h⟩
  | some name =>
    rw [Option.bind_some, Preset.ofName?]
    cases hfound : Preset.every.find? fun p => p.name.toList == Text.asciiLower name with
    | some p =>
      have hname := List.find?_some hfound
      exact .inl ⟨name, rfl, (beq_iff_eq.mp hname).symm⟩
    | none =>
      refine .inr ⟨rfl, fun other hother q hq => ?_⟩
      obtain rfl := Option.some.inj hother
      have hmem : q ∈ Preset.every := by cases q <;> decide
      exact List.find?_eq_none.mp hfound q hmem (beq_iff_eq.mpr hq.symm)

theorem turnsOn_eq_true_iff {s : Settings} {k : RuleKind} : s.turnsOn k = true ↔ s.Enables k := by
  unfold turnsOn Enables
  cases s.rule k.name <;> simp

/-- An option is the integer in the table, or else the default. -/
theorem natOption_cases (s : Settings) (k : RuleKind) (key : String) (default : Nat) :
    (∀ n, s.Gives k key n → ((s.rule k.name).getD {}).natOption key default = n) ∧
      ((∀ n, ¬ s.Gives k key n) → ((s.rule k.name).getD {}).natOption key default = default) := by
  constructor
  · rintro n ⟨table, htable, hvalue⟩
    simp [htable, RuleSettings.natOption, hvalue]
  · intro hnone
    cases htable : s.rule k.name with
    | none => rfl
    | some table =>
      rw [Option.getD_some, RuleSettings.natOption]
      split
      · rename_i n hvalue
        split
        · rename_i hpos
          refine absurd ⟨table, htable, ?_⟩ (hnone n.toNat)
          rw [hvalue, Int.toNat_of_nonneg hpos]
        · rfl
      · rfl

/-- The limits of a rule are those of its table, and else some others. -/
def LimitsFrom (s : Settings) (base : Limits) (r : Rule) : Prop :=
  ∀ limit ∈ r.kind.limits,
    limit.value r.limits =
      ((s.rule r.kind.name).getD {}).natOption limit.key (limit.value base)

theorem limitsFrom_configured (s : Settings) (k : RuleKind) (base : Limits) :
    s.LimitsFrom base (s.configured k base) := by
  unfold LimitsFrom configured
  cases k <;> simp [RuleKind.limits, Limits.withTable]

end Settings

section Replace

variable {rule r : Rule} {rules : List Rule}

theorem Rule.kinds_replaceIn (rule : Rule) (rules : List Rule) :
    (rule.replaceIn rules).map Rule.kind = rules.map Rule.kind := by
  induction rules with
  | nil => rfl
  | cons first rules ih =>
    rw [replaceIn]
    split
    · rename_i hname
      rw [List.map_cons, List.map_cons, RuleKind.name_injective hname]
    · rw [List.map_cons, ih, List.map_cons]

/-- The new rule stands in the place of the old one, as far as each rule is there once. -/
theorem Rule.mem_replaceIn (hnodup : (rules.map Rule.kind).Nodup) (h : r ∈ rule.replaceIn rules) :
    r = rule ∨ r ∈ rules ∧ r.kind ≠ rule.kind := by
  induction rules with
  | nil => cases h
  | cons first rules ih =>
    rw [List.map_cons, List.nodup_cons] at hnodup
    rw [replaceIn] at h
    split at h
    · rename_i hname
      refine (List.mem_cons.mp h).imp_right fun hr => ⟨List.mem_cons_of_mem _ hr, fun hkind => ?_⟩
      have hfirst : first.kind = r.kind := (RuleKind.name_injective hname).trans hkind.symm
      exact hnodup.1 (hfirst ▸ List.mem_map_of_mem hr)
    · rename_i hname
      rcases List.mem_cons.mp h with rfl | h
      · exact .inr ⟨List.mem_cons_self, fun hkind => hname (congrArg RuleKind.name hkind)⟩
      · exact (ih hnodup.2 h).imp_right fun ⟨hr, hkind⟩ => ⟨List.mem_cons_of_mem _ hr, hkind⟩

/-- Several rules are replaced one after the other. -/
theorem kinds_foldl_replaceIn (build : RuleKind → Rule) (kinds : List RuleKind)
    (rules : List Rule) :
    (kinds.foldl (fun rules kind => (build kind).replaceIn rules) rules).map Rule.kind =
      rules.map Rule.kind := by
  induction kinds generalizing rules with
  | nil => rfl
  | cons kind kinds ih => rw [List.foldl_cons, ih, Rule.kinds_replaceIn]

theorem mem_foldl_replaceIn {build : RuleKind → Rule} (hbuild : ∀ k, (build k).kind = k)
    {kinds : List RuleKind} (hnodup : (rules.map Rule.kind).Nodup)
    (h : r ∈ kinds.foldl (fun rules kind => (build kind).replaceIn rules) rules) :
    (∃ k, r = build k) ∨ r ∈ rules ∧ r.kind ∉ kinds := by
  induction kinds generalizing rules with
  | nil => exact .inr ⟨h, List.not_mem_nil⟩
  | cons kind kinds ih =>
    rcases ih (by rwa [Rule.kinds_replaceIn]) h with h | ⟨h, hkinds⟩
    · exact .inl h
    · rcases Rule.mem_replaceIn hnodup h with rfl | ⟨hr, hkind⟩
      · exact .inl ⟨kind, rfl⟩
      · rw [hbuild] at hkind
        exact .inr ⟨hr, fun hmem => (List.mem_cons.mp hmem).elim hkind hkinds⟩

end Replace

namespace Preset

variable {s : Settings}

theorem kinds_recommendedRules (s : Settings) :
    (recommendedRules s).map Rule.kind = recommendedKinds := rfl

theorem kinds_allRules (s : Settings) : (allRules s).map Rule.kind = RuleKind.all := rfl

theorem kinds_strictRules (s : Settings) : (strictRules s).map Rule.kind = RuleKind.all := by
  rw [strictRules, kinds_foldl_replaceIn, kinds_allRules]

/-- The rules of a preset are those that it has, each of them once. -/
theorem kinds_rules (p : Preset) (s : Settings) :
    ((p.rules s).map Rule.kind).Nodup ∧ ∀ k, k ∈ (p.rules s).map Rule.kind ↔ p.Has k := by
  cases p with
  | recommended =>
    rw [rules, kinds_recommendedRules]
    exact ⟨by decide, fun k => by cases k <;> simp [recommendedKinds, Has]⟩
  | strict =>
    rw [rules, kinds_strictRules]
    exact ⟨by decide, fun k => iff_of_true (RuleKind.mem_all k) trivial⟩
  | minimal =>
    rw [rules]
    exact ⟨by decide, fun k => by simp [minimalRules, Has]⟩
  | all =>
    rw [rules, kinds_allRules]
    exact ⟨by decide, fun k => iff_of_true (RuleKind.mem_all k) trivial⟩

theorem limitsFrom_allRules : ∀ r ∈ allRules s, s.LimitsFrom .default r := by
  intro r hr
  rcases List.eq_or_mem_of_mem_insertIdx hr with rfl | hr
  · exact s.limitsFrom_configured _ _
  · obtain ⟨k, -, rfl⟩ := List.mem_map.mp hr
    exact s.limitsFrom_configured _ _

/-- Only the rules that are tightened have limits. -/
theorem limits_eq_nil {k : RuleKind} (h : k ∉ tightenedKinds) : k.limits = [] := by
  cases k <;> first | rfl | exact absurd (by decide) h

theorem limitsFrom_rules {p : Preset} : ∀ r ∈ p.rules s, s.LimitsFrom p.limits r := by
  intro r hr
  cases p with
  | recommended =>
    obtain ⟨k, -, rfl⟩ := List.mem_map.mp hr
    exact s.limitsFrom_configured _ _
  | strict =>
    have hnodup : ((allRules s).map Rule.kind).Nodup := (all.kinds_rules s).1
    rcases mem_foldl_replaceIn (fun _ => rfl) hnodup hr with ⟨k, rfl⟩ | ⟨-, hkind⟩
    · exact s.limitsFrom_configured _ _
    · intro limit hlimit
      rw [limits_eq_nil hkind] at hlimit
      cases hlimit
  | minimal =>
    intro limit hlimit
    rcases List.mem_pair.mp hr with rfl | rfl <;> cases hlimit
  | all => exact limitsFrom_allRules r hr

end Preset

namespace Settings

variable {s : Settings}

theorem any_name_eq_true_iff {rules : List Rule} {k : RuleKind} :
    rules.any (·.name == k.name) = true ↔ k ∈ rules.map Rule.kind := by
  simp only [List.any_eq_true, beq_iff_eq, List.mem_map]
  exact exists_congr fun r => and_congr_right fun _ => RuleKind.name_injective.eq_iff

theorem addTurnedOn_eq (rules : List Rule) (k : RuleKind) :
    s.addTurnedOn rules k =
      if s.turnsOn k = true ∧ k ∉ rules.map Rule.kind then rules ++ [s.configured k .default]
      else rules := by
  rw [addTurnedOn, buildRule?, RuleKind.ofName?_name, Option.map_some, Option.toList_some]
  simp only [Bool.and_eq_true, Bool.not_eq_true', Bool.eq_false_iff, Ne, any_name_eq_true_iff]

/-- Every rule that is turned on and not there yet is added once. -/
theorem foldl_addTurnedOn {kinds : List RuleKind} (hnodup : kinds.Nodup) (rules : List Rule) :
    kinds.foldl s.addTurnedOn rules =
      rules ++ (kinds.filter fun k => s.turnsOn k = true ∧ k ∉ rules.map Rule.kind).map
        fun k => s.configured k .default := by
  induction kinds generalizing rules with
  | nil => simp
  | cons k kinds ih =>
    obtain ⟨hk, hnodup⟩ := List.nodup_cons.mp hnodup
    rw [List.foldl_cons, ih hnodup, addTurnedOn_eq]
    split
    · rename_i hadd
      have hrest : kinds.filter (fun j => s.turnsOn j = true ∧
            j ∉ (rules ++ [s.configured k .default]).map Rule.kind) =
          kinds.filter fun j => s.turnsOn j = true ∧ j ∉ rules.map Rule.kind := by
        apply List.filter_congr
        intro j hj
        have hne : j ≠ k := fun h => hk (h ▸ hj)
        simp [configured, hne]
      rw [hrest, List.filter_cons_of_pos (by simpa using hadd)]
      simp
    · rename_i hkeep
      rw [List.filter_cons_of_neg (by simpa using hkeep)]

/-- The selected rules before they are sorted: those of the preset, and those added to them. -/
theorem selectedRules_perm (s : Settings) :
    s.selectedRules.Perm (s.chosenPreset.rules s ++
      (RuleKind.all.filter fun k => s.turnsOn k = true ∧
        k ∉ (s.chosenPreset.rules s).map Rule.kind).map fun k => s.configured k .default) := by
  have hall : RuleKind.all.Nodup := by decide
  rw [selectedRules, foldl_addTurnedOn hall]
  exact List.mergeSort_perm _ _

theorem mem_selectedRules {r : Rule} :
    r ∈ s.selectedRules ↔ r ∈ s.chosenPreset.rules s ∨
      ∃ k, s.Enables k ∧ ¬ s.chosenPreset.Has k ∧ s.configured k .default = r := by
  rw [s.selectedRules_perm.mem_iff, List.mem_append, List.mem_map]
  simp only [List.mem_filter, RuleKind.mem_all, true_and, decide_eq_true_eq, turnsOn_eq_true_iff,
    (s.chosenPreset.kinds_rules s).2, and_assoc]

/-- Sorting puts no two rules in one place, since no rule is there twice. -/
theorem selectedRules_sorted (s : Settings) :
    s.selectedRules.Pairwise fun a b => a.kind.position < b.kind.position := by
  have hle : s.selectedRules.Pairwise fun a b =>
      decide (a.kind.position ≤ b.kind.position) = true :=
    List.pairwise_mergeSort (by simp only [decide_eq_true_eq]; omega)
      (by simp only [Bool.or_eq_true, decide_eq_true_eq]; omega) _
  have hnodup : (s.selectedRules.map Rule.kind).Nodup := by
    rw [(s.selectedRules_perm.map Rule.kind).nodup_iff, List.map_append, List.map_map,
      List.nodup_append']
    refine ⟨(s.chosenPreset.kinds_rules s).1, ?_, ?_⟩
    · have hall : RuleKind.all.Nodup := by decide
      exact (hall.filter _).map fun _ _ h => h
    · intro k hk hadded
      obtain ⟨j, hj, rfl⟩ := List.mem_map.mp hadded
      exact (of_decide_eq_true (List.mem_filter.mp hj).2).2 hk
  refine hle.imp₂ (fun a b hab hne => ?_) (List.pairwise_map.mp hnodup)
  exact Nat.lt_of_le_of_ne (of_decide_eq_true hab) fun h => hne (RuleKind.position_injective h)

theorem exists_selected_iff {k : RuleKind} :
    (∃ r ∈ s.selectedRules, r.kind = k) ↔ s.chosenPreset.Has k ∨ s.Enables k := by
  rw [← (s.chosenPreset.kinds_rules s).2, List.mem_map]
  constructor
  · rintro ⟨r, hr, rfl⟩
    rcases mem_selectedRules.mp hr with hr | ⟨k, hk, -, rfl⟩
    · exact .inl ⟨r, hr, rfl⟩
    · exact .inr hk
  · rintro (⟨r, hr, rfl⟩ | hk)
    · exact ⟨r, mem_selectedRules.mpr (.inl hr), rfl⟩
    · by_cases hhas : s.chosenPreset.Has k
      · rw [← (s.chosenPreset.kinds_rules s).2] at hhas
        obtain ⟨r, hr, rfl⟩ := List.mem_map.mp hhas
        exact ⟨r, mem_selectedRules.mpr (.inl hr), rfl⟩
      · exact ⟨_, mem_selectedRules.mpr (.inr ⟨k, hk, hhas, rfl⟩), rfl⟩

/-- A rule is added with the usual limits. Those are the ones of the preset too: the strict
one has every rule, so that none is added to it. -/
theorem limitsFrom_selectedRules :
    ∀ r ∈ s.selectedRules, s.LimitsFrom s.chosenPreset.limits r := by
  intro r hr
  rcases mem_selectedRules.mp hr with hr | ⟨k, -, hhas, rfl⟩
  · exact Preset.limitsFrom_rules r hr
  · have hbase : s.chosenPreset.limits = .default := by
      apply Preset.limits_eq_default
      rintro hstrict
      rw [hstrict] at hhas
      exact hhas trivial
    rw [hbase]
    exact s.limitsFrom_configured _ _

/-- The selected rules stand in the order of reports, each of them once; they are those of
the chosen preset and those that a table enables; and each limit of each is the one that its
table gives, or else that of the preset. The limits of the strict preset are all lower than the
usual ones, which the other presets have. -/
theorem selectedRules_follow (s : Settings) :
    s.selectedRules.Pairwise (fun a b => a.kind.position < b.kind.position) ∧
      (∃ p, s.Chooses p ∧
        (∀ k, (∃ r ∈ s.selectedRules, r.kind = k) ↔ p.Has k ∨ s.Enables k) ∧
        ∀ r ∈ s.selectedRules, ∀ limit ∈ r.kind.limits,
          (∀ n, s.Gives r.kind limit.key n → limit.value r.limits = n) ∧
            ((∀ n, ¬ s.Gives r.kind limit.key n) →
              limit.value r.limits = limit.value p.limits)) ∧
      ∀ p : Preset, p ≠ .strict → p.limits = .default ∧
        ∀ k : RuleKind, ∀ limit ∈ k.limits,
          limit.value Preset.strict.limits < limit.value p.limits := by
  refine ⟨s.selectedRules_sorted, ⟨s.chosenPreset, s.chooses_chosenPreset,
    fun k => exists_selected_iff, fun r hr limit hlimit => ?_⟩, fun p hp =>
    ⟨Preset.limits_eq_default hp, fun k limit hlimit => Preset.limits_strict_lt hlimit hp⟩⟩
  rw [limitsFrom_selectedRules r hr limit hlimit]
  exact s.natOption_cases _ _ _

/-- The strict preset with one limit in a table. -/
def ownMethodLength : Settings where
  preset := some "STRICT".toList
  rules := [("class-length".toList,
    { options := [("max_method_length".toList, .integer 40)] })]

example : ownMethodLength.chosenPreset = .strict ∧
    ((Preset.strict.rules ownMethodLength).filter (·.kind.limits.length > 0)).map
      (fun r => (r.kind, r.limits)) =
      [(.psr12Compliance, Preset.strict.limits),
        (.classLength, { Preset.strict.limits with maxMethodLength := 40 }),
        (.cyclomaticComplexity, Preset.strict.limits)] := by
  decide +kernel

end Settings

end PhpLint
