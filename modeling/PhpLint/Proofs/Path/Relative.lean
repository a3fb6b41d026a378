import PhpLint.Proofs.Path.Components

/-!
Relative paths can be undone. Joined to its root, a relative path leads back to where the path
itself leads, once the steps upwards are resolved by the spelling alone; and it begins with one
step upwards for each component of the root beyond the longest common start.
-/

namespace PhpLint.Path

/-- One component more on the way from the top, which is kept from the inside to the outside: a
step upwards takes back the name in front of it, and leads nowhere from the top directory. -/
def climb : List PathComponent → PathComponent → List PathComponent
  | .name _ :: outer, .parent => outer
  | .root :: outer, .parent => .root :: outer
  | outer, c => c :: outer

/-- The components of a path whose steps upwards are resolved by the spelling alone, so that no
link is followed. -/
def resolved (p : Path) : List PathComponent := (p.components.foldl climb []).reverse

/-- The longest common start of two paths, by their components. -/
structure IsCommonStart (common ps bs : List PathComponent) : Prop where
  left : common <+: ps
  right : common <+: bs
  longest : ∀ other, other <+: ps → other <+: bs → other <+: common

theorem length_le_commonLength {other ps bs : List PathComponent} (hps : other <+: ps)
    (hbs : other <+: bs) : other.length ≤ commonLength ps bs := by
  induction other generalizing ps bs with
  | nil => exact Nat.zero_le _
  | cons c other ih =>
    obtain ⟨ps, rfl⟩ := hps
    obtain ⟨bs, rfl⟩ := hbs
    rw [List.cons_append, List.cons_append, commonLength, if_pos rfl, List.length_cons]
    exact Nat.succ_le_succ (ih (List.prefix_append _ _) (List.prefix_append _ _))

theorem isCommonStart_take (ps bs : List PathComponent) :
    IsCommonStart (ps.take (commonLength ps bs)) ps bs where
  left := List.take_prefix _ _
  right := take_commonLength ps bs ▸ List.take_prefix _ _
  longest other hps hbs := by
    rw [List.prefix_iff_eq_take.mp hps]
    exact List.take_prefix_take_left (length_le_commonLength hps hbs)

theorem climb_eq_cons {c : PathComponent} (hc : c ≠ .parent) (outer : List PathComponent) :
    climb outer c = c :: outer := by
  unfold climb
  split
  · exact absurd rfl hc
  · exact absurd rfl hc
  · rfl

/-- Without steps upwards every component is kept. -/
theorem foldl_climb {cs : List PathComponent} (h : .parent ∉ cs) (outer : List PathComponent) :
    cs.foldl climb outer = cs.reverse ++ outer := by
  induction cs generalizing outer with
  | nil => rfl
  | cons c cs ih =>
    rw [List.mem_cons, not_or] at h
    rw [List.foldl_cons, climb_eq_cons (Ne.symm h.1), ih h.2, List.reverse_cons, List.append_assoc,
      List.singleton_append]

/-- As many steps upwards as there are names lead out of them. -/
theorem foldl_climb_replicate (names : List Text) (outer : List PathComponent) :
    (List.replicate names.length .parent).foldl climb (names.map .name ++ outer) = outer := by
  induction names with
  | nil => rfl
  | cons name names ih => exact ih

theorem resolved_eq_self {p : Path} (h : .parent ∉ p.components) : p.resolved = p.components := by
  rw [resolved, foldl_climb h, List.append_nil, List.reverse_reverse]

/-- Behind the top directory, components that are no steps upwards are names. -/
theorem exists_names {cs : List PathComponent} (hinner : ∀ c ∈ cs, IsInner c)
    (hparent : .parent ∉ cs) : ∃ names : List Text, cs = names.map .name := by
  induction cs with
  | nil => exact ⟨[], rfl⟩
  | cons c cs ih =>
    rw [List.forall_mem_cons] at hinner
    rw [List.mem_cons, not_or] at hparent
    obtain ⟨names, rfl⟩ := ih hinner.2 hparent.2
    cases c with
    | root => exact absurd hinner.1.1 (by decide)
    | current => exact absurd hinner.1.1 (by decide)
    | parent => exact absurd rfl hparent.1
    | name n => exact ⟨n :: names, rfl⟩

section Relative

variable {p root : Path} (hp : p.isAbsolute = true) (hroot : root.isAbsolute = true)

include hp hroot

/-- The top directory is part of the common start. -/
theorem commonLength_pos : 0 < commonLength p.components root.components := by
  rw [components_of_isAbsolute hp, components_of_isAbsolute hroot, commonLength, if_pos rfl]
  exact Nat.succ_pos _

theorem components_relativeTo_absolute :
    (p.relativeTo root).components =
      List.replicate (root.components.length - commonLength p.components root.components) .parent ++
        p.components.drop (commonLength p.components root.components) := by
  rw [components_relativeTo hp, relativeComponents, if_neg (commonLength_pos hp hroot).ne']

omit hroot in
theorem isInner_of_mem_drop {n : Nat} (hn : 0 < n) : ∀ c ∈ p.components.drop n, IsInner c := by
  intro c hc
  obtain ⟨m, rfl⟩ := Nat.exists_eq_succ_of_ne_zero hn.ne'
  rw [components_of_isAbsolute hp, Nat.succ_eq_add_one, List.drop_succ_cons] at hc
  exact isInner_of_mem_named (spelled_splitLead p).no_separator (List.mem_of_mem_drop hc)

/-- A relative path has neither the top directory nor a dot in front. -/
theorem splitLead_relativeTo : (p.relativeTo root).splitLead.1 = none := by
  have hinner : ∀ c ∈ (p.relativeTo root).components, IsInner c := by
    rw [components_relativeTo_absolute hp hroot, List.forall_mem_append]
    refine ⟨fun c hc => ?_, isInner_of_mem_drop hp (commonLength_pos hp hroot)⟩
    rw [List.eq_of_mem_replicate hc]
    exact isInner_parent
  rw [components_eq, List.forall_mem_append] at hinner
  rcases (spelled_splitLead (p.relativeTo root)).lead_eq with hlead | hlead | hlead
  · exact hlead
  all_goals
    rw [hlead] at hinner
    exact absurd (hinner.1 _ List.mem_cons_self).1 (by decide)

/-- A path relative to a root leads from there to where the path itself leads, whatever steps
upwards the path has. -/
theorem resolved_join_relativeTo (hclimb : .parent ∉ root.components) :
    (root.join (p.relativeTo root)).resolved = p.resolved := by
  let n := commonLength p.components root.components
  have hpos : 0 < n := commonLength_pos hp hroot
  have htake : p.components.take n = root.components.take n := take_commonLength _ _
  have hfront : .parent ∉ root.components.take n := fun h => hclimb (List.mem_of_mem_take h)
  obtain ⟨names, hnames⟩ := exists_names (isInner_of_mem_drop hroot hpos)
    fun h => hclimb (List.mem_of_mem_drop h)
  have hcount : root.components.length - n = names.reverse.length := by
    rw [← List.length_drop, hnames, List.length_map, List.length_reverse]
  have hsteps : root.components.foldl climb [] =
      names.reverse.map .name ++ (root.components.take n).foldl climb [] := by
    conv_lhs => rw [← List.take_append_drop n root.components, List.foldl_append]
    rw [hnames, foldl_climb (by simp), List.map_reverse]
  rw [resolved, components_join hroot (splitLead_relativeTo hp hroot),
    components_relativeTo_absolute hp hroot, List.foldl_append, List.foldl_append, hsteps, hcount,
    foldl_climb_replicate, ← htake, ← List.foldl_append, List.take_append_drop]
  rfl

end Relative

/-- How many steps upwards a path begins with. -/
def leadingSteps (p : Path) : Nat := (p.components.takeWhile (· == .parent)).length

theorem head?_eq_parent_iff {p : Path} :
    p.components.head? = some .parent ↔ 0 < p.leadingSteps := by
  rw [leadingSteps]
  cases p.components with
  | nil => simp
  | cons c cs =>
    by_cases hc : c = .parent <;> simp [hc]

theorem leadingSteps_relativeTo {p root : Path} (hp : p.isAbsolute = true)
    (hroot : root.isAbsolute = true) (hparent : .parent ∉ p.components) :
    (p.relativeTo root).leadingSteps =
      root.components.length - commonLength p.components root.components := by
  have hrest : (p.components.drop (commonLength p.components root.components)).takeWhile
      (· == .parent) = [] := by
    rw [List.takeWhile_eq_nil_iff]
    intro hlength hhead
    apply hparent
    rw [← beq_iff_eq.mp hhead]
    exact List.mem_of_mem_drop (List.getElem_mem hlength)
  rw [leadingSteps, components_relativeTo_absolute hp hroot,
    List.takeWhile_append_of_pos (by simp), hrest, List.append_nil, List.length_replicate]

/-- A path relative to a root can be undone: joined to the root, it leads back to the path, as
soon as its steps upwards are resolved. It begins with a step upwards exactly if the path is not
the root and does not lie in it, and then with one for each component of the root beyond the
longest common start. -/
theorem relativeTo_undone {p root : Path} (hp : p.isAbsolute = true)
    (hroot : root.isAbsolute = true) (hpParent : .parent ∉ p.components)
    (hrootParent : .parent ∉ root.components) :
    (root.join (p.relativeTo root)).resolved = p.components ∧
      ((p.relativeTo root).components.head? = some .parent ↔
        ¬ root.components <+: p.components) ∧
      ∃ common, IsCommonStart common p.components root.components ∧
        (p.relativeTo root).leadingSteps = root.components.length - common.length := by
  have hsteps := leadingSteps_relativeTo hp hroot hpParent
  have hcommon := isCommonStart_take p.components root.components
  have hle := commonLength_le p.components root.components
  have hlength : (p.components.take (commonLength p.components root.components)).length =
      commonLength p.components root.components := by
    rw [take_commonLength, List.length_take, Nat.min_eq_left hle]
  refine ⟨?_, ?_, _, hcommon, by rw [hsteps, hlength]⟩
  · rw [resolved_join_relativeTo hp hroot hrootParent, resolved_eq_self hpParent]
  · rw [head?_eq_parent_iff, hsteps]
    constructor
    · intro hpos hwithin
      have hfull := commonLength_of_prefix hwithin
      rw [hfull, Nat.sub_self] at hpos
      exact Nat.lt_irrefl 0 hpos
    · intro houtside
      have hne : commonLength p.components root.components ≠ root.components.length := by
        intro heq
        apply houtside
        rw [List.prefix_iff_eq_take, ← heq, take_commonLength, heq, List.take_length]
      omega

/-- A path that lies beside a root, with a part of the way in common. -/
def siblingPath : Path := .ofString "/p/lib/B.php"

def siblingRoot : Path := .ofString "/p/src/app"

theorem relativeTo_undone_sibling :
    siblingPath.isAbsolute = true ∧ siblingRoot.isAbsolute = true ∧
      .parent ∉ siblingPath.components ∧ .parent ∉ siblingRoot.components ∧
      siblingPath.relativeTo siblingRoot = .ofString "../../lib/B.php" ∧
      (siblingRoot.join (siblingPath.relativeTo siblingRoot)).resolved = siblingPath.components ∧
      (siblingPath.relativeTo siblingRoot).components.head? = some .parent ∧
      ∃ common, IsCommonStart common siblingPath.components siblingRoot.components ∧
        (siblingPath.relativeTo siblingRoot).leadingSteps =
          siblingRoot.components.length - common.length := by
  have hp : siblingPath.isAbsolute = true := by decide
  have hroot : siblingRoot.isAbsolute = true := by decide
  have hpParent : .parent ∉ siblingPath.components := by decide
  have hrootParent : .parent ∉ siblingRoot.components := by decide
  obtain ⟨hback, hclimbs, hcount⟩ := relativeTo_undone hp hroot hpParent hrootParent
  exact ⟨hp, hroot, hpParent, hrootParent, by decide, hback, hclimbs.mpr (by decide), hcount⟩

end PhpLint.Path
