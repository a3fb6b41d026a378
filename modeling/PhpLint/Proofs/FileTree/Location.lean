import Mathlib.Data.List.Basic
import PhpLint.FileTree.Basic
import PhpLint.Proofs.Keyed
import PhpLint.Proofs.Path.Components

/-!
Locations and their paths. In a file tree that is well formed every entry lies in a
directory that can be entered and has a name that is a component of its own. The path of a
location then has the names as its components and leads back to the location, so different
locations have different paths.
-/

namespace PhpLint

/-- A name that an entry can have. -/
structure IsEntryName (name : Text) : Prop where
  nonempty : name ≠ []
  not_dot : name ≠ ['.']
  not_dots : name ≠ ['.', '.']
  no_separator : '/' ∉ name

namespace IsEntryName

variable {name : Text}

instance : Decidable (IsEntryName name) :=
  decidable_of_iff (name ≠ [] ∧ name ≠ ['.'] ∧ name ≠ ['.', '.'] ∧ '/' ∉ name)
    ⟨fun ⟨h, h₁, h₂, h₃⟩ => ⟨h, h₁, h₂, h₃⟩, fun ⟨h, h₁, h₂, h₃⟩ => ⟨h, h₁, h₂, h₃⟩⟩

theorem not_idle (h : IsEntryName name) : Path.isIdle name = false := by
  simp [Path.isIdle, h.nonempty, h.not_dot]

theorem segmentComponent?_eq (h : IsEntryName name) :
    Path.segmentComponent? name = some (.name name) := by
  simp [Path.segmentComponent?, h.not_idle, h.not_dots]

end IsEntryName

theorem PathComponent.name_injective : Function.Injective PathComponent.name :=
  fun _ _ => PathComponent.name.inj

namespace Location

/-- All names of a location can be names of entries. -/
def IsProper (l : Location) : Prop := ∀ name ∈ l, IsEntryName name

theorem IsProper.reverse {l : Location} (h : l.IsProper) : ∀ name ∈ l.reverse, IsEntryName name :=
  fun name hname => h name (List.mem_reverse.mp hname)

/-- The segments of a path behind the separator at its start. -/
theorem segments_path {l : Location} (h : l.IsProper) :
    l.path.segments = [] :: if l = [] then [[]] else l.reverse := by
  have hsplit : l.path.segments = [] :: Text.splitAtChar '/' (Text.join ['/'] l.reverse) := by
    simp [path, Path.segments, Text.splitAtChar]
  rw [hsplit]
  split
  · rename_i hnil
    rw [hnil]
    rfl
  · rename_i hnil
    rw [Text.splitAtChar_join (by simpa using hnil) fun name hname =>
      (h.reverse name hname).no_separator]

theorem splitLead_path {l : Location} (h : l.IsProper) :
    l.path.splitLead = (some .root, if l = [] then [[]] else l.reverse) := by
  rw [Path.splitLead, segments_path h]
  split
  · rename_i heq
    cases heq
  · rename_i heq
    split at heq
    · cases heq
    · rename_i hnil
      rw [List.cons.injEq, List.reverse_eq_nil_iff] at heq
      exact absurd heq.2 hnil
  · rename_i heq
    rw [← (List.cons.inj heq).2]
  · rename_i heq
    cases (List.cons.inj heq).1
  · rename_i hroot _
    exact absurd rfl (hroot _)

theorem named_reverse {l : Location} (h : l.IsProper) :
    Path.named l.reverse = l.reverse.map .name := by
  rw [Path.named, ← List.filterMap_eq_map]
  exact List.filterMap_congr fun name hname => (h.reverse name hname).segmentComponent?_eq

theorem components_path {l : Location} (h : l.IsProper) :
    l.path.components = .root :: l.reverse.map .name := by
  rw [Path.components_eq, splitLead_path h]
  split
  · rename_i hnil
    rw [hnil]
    rfl
  · rw [named_reverse h]
    rfl

theorem eq_of_same {l l' : Location} (h : l.IsProper) (h' : l'.IsProper)
    (hsame : l.path.same l'.path = true) : l = l' := by
  rw [Path.same_iff, components_path h, components_path h', List.cons.injEq] at hsame
  exact List.reverse_injective (List.map_injective_iff.mpr PathComponent.name_injective hsame.2)

/-- The path from a location down to one below it, by the names between them from the
lower one up. -/
def relative (names : List Text) : Path := Path.ofSegments names.reverse

theorem spelling_append {names : List Text} (hne : names ≠ []) (l : Location) :
    (path (names ++ l)).spelling =
      (if l = [] then [] else l.path.spelling) ++ '/' :: (relative names).spelling := by
  split
  · rename_i hnil
    rw [hnil, List.append_nil]
    rfl
  · rename_i hnil
    have hjoin := Text.join_append ['/'] (List.reverse_ne_nil_iff.mpr hnil)
      (List.reverse_ne_nil_iff.mpr hne)
    simp [path, relative, Path.ofSegments, hjoin]

theorem spelling_cons (name : Text) (l : Location) :
    (path (name :: l)).spelling = (if l = [] then [] else l.path.spelling) ++ '/' :: name :=
  spelling_append (List.cons_ne_nil name []) l

/-- Going down one level. -/
theorem path_join {l : Location} {name : Text} (h : l.IsProper) (hname : IsEntryName name) :
    l.path.join ⟨name⟩ = path (name :: l) := by
  have hrelative : Path.isAbsolute ⟨name⟩ = false := by
    rw [Path.isAbsolute, beq_eq_false_iff_ne]
    intro hhead
    exact hname.no_separator (List.mem_of_mem_head? hhead)
  have hends : (l.path.spelling.getLast? == some '/') = l.isEmpty := by
    cases l with
    | nil => rfl
    | cons last l =>
      have hlast : IsEntryName last := h last List.mem_cons_self
      rw [spelling_cons, List.getLast?_append_of_ne_nil _ (List.cons_ne_nil _ _),
        ← List.singleton_append, List.getLast?_append_of_ne_nil _ hlast.nonempty,
        List.isEmpty_cons, beq_eq_false_iff_ne]
      intro hslash
      exact hlast.no_separator (List.mem_of_getLast? hslash)
  have hspelling := spelling_cons name l
  rw [Path.join, hrelative, hends]
  cases l with
  | nil => rfl
  | cons last l =>
    rw [if_neg (List.cons_ne_nil _ _)] at hspelling
    simp only [List.isEmpty_cons, Bool.false_eq_true, if_false, ← hspelling]
    rfl

theorem components_relative {names : List Text} (h : IsProper names) :
    (relative names).components = names.reverse.map .name := by
  rw [relative, Path.components_ofSegments, named_reverse h]
  refine ⟨fun s hs => (h.reverse s hs).no_separator, .inl rfl, fun _ s hs => ?_⟩
  exact (h.reverse s (List.mem_of_mem_head? hs)).not_idle

theorem isAbsolute_relative {names : List Text} (h : IsProper names) :
    (relative names).isAbsolute = false := by
  rw [Bool.eq_false_iff]
  intro habsolute
  have hroot := Path.components_of_isAbsolute habsolute
  rw [components_relative h] at hroot
  have hmem : PathComponent.root ∈ names.reverse.map PathComponent.name :=
    hroot ▸ List.mem_cons_self
  obtain ⟨name, -, hname⟩ := List.mem_map.mp hmem
  cases hname

/-- The paths within the path of a location are those of the locations below it. -/
theorem isWithin_path_iff {l base : Location} (h : l.IsProper) (hbase : base.IsProper) :
    l.path.isWithin base.path = true ↔ base <:+ l := by
  rw [Path.isWithin_iff, components_path h, components_path hbase, List.cons_prefix_cons,
    List.prefix_map_iff_of_injective PathComponent.name_injective, List.reverse_prefix]
  exact and_iff_right rfl

/-- What is left of a path below a location is the way down from there. -/
theorem below?_path {names : List Text} (hne : names ≠ []) {l : Location}
    (h : IsProper (names ++ l)) : (path (names ++ l)).below? l.path = some (relative names) := by
  have hl : IsProper l := fun name hname => h name (List.mem_append_right _ hname)
  have hidle : ∀ s ∈ names.reverse, Path.isIdle s = false := fun s hs =>
    (h s (List.mem_append_left _ (List.mem_reverse.mp hs))).not_idle
  have hdrop := Path.dropSegments_append (fun s hs => (hl.reverse s hs).not_idle) names.reverse
  rw [List.length_reverse] at hdrop
  rw [Path.below?, if_pos ((isWithin_path_iff h hl).mpr (List.suffix_append _ _)),
    Path.dropComponents, splitLead_path h, components_path hl]
  simp [hne, hdrop, Path.trimSegments_eq_self hidle, relative]

end Location

namespace FileTree

/-- Every entry lies in a directory that can be entered and has a name of its own. -/
structure WellFormed (t : FileTree) : Prop where
  nodup : t.nodes.keys.Nodup
  parent_dir : ∀ name l node, t.node? (name :: l) = some node → t.node? l = some .dir
  parent_open : ∀ name l node, t.node? (name :: l) = some node → t.barred? l = none
  named : ∀ name l node, t.node? (name :: l) = some node → IsEntryName name

/-- A tree is well formed if each of its entries is. -/
theorem wellFormed_iff {t : FileTree} : t.WellFormed ↔ t.nodes.keys.Nodup ∧
    ∀ entry ∈ t.nodes, ∀ name ∈ entry.1.head?,
      t.node? entry.1.tail = some .dir ∧ t.barred? entry.1.tail = none ∧ IsEntryName name := by
  constructor
  · intro h
    refine ⟨h.nodup, ?_⟩
    rintro ⟨_ | ⟨name, l⟩, node⟩ hmem other hother
    · cases hother
    · obtain rfl := Option.some.inj hother
      have hnode : t.node? (name :: l) = some node := (Keyed.get?_eq_some_iff h.nodup).mpr hmem
      exact ⟨h.parent_dir name l node hnode, h.parent_open name l node hnode,
        h.named name l node hnode⟩
  · rintro ⟨hnodup, hentries⟩
    have hentry : ∀ name l node, t.node? (name :: l) = some node →
        t.node? l = some .dir ∧ t.barred? l = none ∧ IsEntryName name := fun name l node hnode =>
      hentries _ ((Keyed.get?_eq_some_iff hnodup).mp hnode) name rfl
    exact ⟨hnodup, fun name l node hnode => (hentry name l node hnode).1,
      fun name l node hnode => (hentry name l node hnode).2.1,
      fun name l node hnode => (hentry name l node hnode).2.2⟩

instance {t : FileTree} : Decidable t.WellFormed := decidable_of_iff _ wellFormed_iff.symm

namespace WellFormed

variable {t : FileTree} (h : t.WellFormed)

include h

theorem node?_eq_some_iff {name : Text} {l : Location} {node : Node} :
    t.node? (name :: l) = some node ↔ (name :: l, node) ∈ t.nodes :=
  Keyed.get?_eq_some_iff h.nodup

theorem isProper {l : Location} {node : Node} (hl : t.node? l = some node) : l.IsProper := by
  induction l generalizing node with
  | nil => simp [Location.IsProper]
  | cons name l ih =>
    intro other hother
    rcases List.mem_cons.mp hother with rfl | hother
    · exact h.named _ _ _ hl
    · exact ih (h.parent_dir _ _ _ hl) other hother

/-- All directories around an entry are there. -/
theorem around {names : List Text} {l : Location} {node : Node} (hne : names ≠ [])
    (hnode : t.node? (names ++ l) = some node) : t.node? l = some .dir := by
  induction names generalizing node with
  | nil => exact absurd rfl hne
  | cons name names ih =>
    have hparent := h.parent_dir _ _ _ hnode
    cases names with
    | nil => exact hparent
    | cons other names => exact ih (List.cons_ne_nil _ _) hparent

theorem mem_children_iff {l : Location} {name : Text} {node : Node} :
    (name, node) ∈ t.children l ↔ t.node? (name :: l) = some node := by
  rw [h.node?_eq_some_iff, children, List.mem_filterMap]
  constructor
  · rintro ⟨⟨place, other⟩, hmem, hentry⟩
    cases place with
    | nil => cases hentry
    | cons head parent =>
      simp only [Option.ite_none_right_eq_some, Option.some.injEq, Prod.mk.injEq] at hentry
      obtain ⟨rfl, rfl, rfl⟩ := hentry
      exact hmem
  · intro hmem
    exact ⟨_, hmem, by simp⟩

/-- Following names down to an entry that is no link. -/
theorem follow_names {create : Bool}
    {onLink : Location → Path → List Text → Except FileError Location} {names : List Text}
    {l : Location} {node : Node} (hnode : t.node? (names.reverse ++ l) = some node)
    (hlink : ∀ target, node ≠ .link target) :
    t.follow create onLink l names = .ok (names.reverse ++ l) := by
  induction names generalizing l with
  | nil => rfl
  | cons name names ih =>
    rw [List.reverse_cons, List.append_assoc, List.singleton_append] at hnode ⊢
    have hname := h.isProper hnode name (by simp)
    rw [follow, if_neg (by simp [hname.not_idle]), if_neg hname.not_dots]
    cases names with
    | nil =>
      rw [List.reverse_nil, List.nil_append] at hnode
      rw [hnode]
      cases node with
      | dir => rfl
      | file content => rfl
      | link target => exact absurd rfl (hlink target)
    | cons other names =>
      have hdir : t.node? (name :: l) = some .dir := h.around (by simp) hnode
      rw [hdir]
      exact ih hnode

/-- The path of an entry that is no link leads to the entry. -/
theorem resolve_path {l : Location} {node : Node} (hnode : t.node? l = some node)
    (hlink : ∀ target, node ≠ .link target) : t.resolve l.path = .ok l := by
  rw [resolve, maxLinks, resolveFrom, Location.segments_path (h.isProper hnode)]
  split
  · rename_i hnil
    rw [hnil]
    rfl
  · have hreverse : t.node? (l.reverse.reverse ++ []) = some node := by simpa using hnode
    have hidle : Path.isIdle [] = true := rfl
    rw [follow, if_pos hidle, h.follow_names hreverse hlink, List.reverse_reverse,
      List.append_nil]

end WellFormed

end FileTree

end PhpLint
