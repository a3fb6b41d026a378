import PhpLint.Proofs.Keyed
import PhpLint.Proofs.TypeExpr.Member

/-!
The normal form of a union. Reading one keeps the members of its parts at their first places
and remembers whether a part is marked or a member is `null`. Main statement: the members are
members as they are compared, no two of them the same, and put together with bars they are
read back, since of all of them but the last nothing is open at the end.
-/

namespace PhpLint.TypeExpr

variable {t : TypeExpr} {raw part m : Text} {parts : List Text}

section Fold

theorem addPart_of_none (h : member? part = none) :
    addPart t part = { t with nullable := t.nullable || (readPart part).1 } := by
  have hbare : (readPart part).2.isEmpty = true := by simpa [member?] using h
  rw [addPart]
  simp only [hbare, if_true]

theorem addPart_of_some (h : member? part = some m) :
    addPart t part =
      { t with
        nullable := t.nullable || (readPart part).1 || m == "null".toList
        members := if t.members.contains m then t.members else t.members ++ [m] } := by
  rw [member?] at h
  split at h
  · cases h
  · rename_i hbare
    obtain rfl := Option.some.inj h
    rw [addPart]
    simp only [if_neg hbare]

theorem foldl_addPart (raw : Text) (parts : List Text) :
    parts.foldl addPart { raw, members := [], nullable := false } =
      { raw
        members := (parts.filterMap member?).eraseDups
        nullable := parts.any fun part =>
          (readPart part).1 || member? part == some "null".toList } := by
  induction parts using List.reverseRecOn with
  | nil => rfl
  | append_singleton parts part ih =>
    rw [List.foldl_concat, ih]
    cases hpart : member? part with
    | none => simp [addPart_of_none hpart, hpart]
    | some m => simp [addPart_of_some hpart, hpart, Keyed.eraseDups_concat, Bool.or_assoc]

theorem members_parse (raw : Text) :
    (parse raw).members =
      ((Code.splitTopLevel '|' (Text.trim raw)).filterMap member?).eraseDups := by
  rw [parse, foldl_addPart]

theorem isMember_of_mem_parse (h : m ∈ (parse raw).members) : IsMember m := by
  rw [members_parse, List.mem_eraseDups, List.mem_filterMap] at h
  obtain ⟨part, -, hpart⟩ := h
  exact isMember_of_member? hpart

end Fold

section Marks

/-- Blanks around a union are blanks around its first and its last part. -/
theorem map_trim_splitTopLevel_trim (s : Text) :
    (Code.splitTopLevel '|' (Text.trim s)).map Text.trim =
      (Code.splitTopLevel '|' s).map Text.trim := by
  obtain ⟨front, back, hs, hfront, hback⟩ := Text.exists_blanks_around s
  have hbar {blanks : Text} (h : ∀ c ∈ blanks, Text.isBlank c = true) : '|' ∉ blanks :=
    fun hmem => absurd (h '|' hmem) (by decide)
  have htop : (front.foldl Code.Nesting.step {}).atTop = true :=
    Code.Nesting.atTop_foldl_plain rfl fun c hc => Text.not_mem_of_class (hfront c hc) (by decide)
  have hopen : Code.Unbroken '|' {} front := Code.unbroken_of_not_mem (hbar hfront)
  obtain ⟨part, parts, hparts, hstart⟩ := Code.splitFrom_append_unbroken hopen (Text.trim s)
  obtain ⟨init, last, hend, hwhole⟩ :=
    Code.splitFrom_append_of_not_mem (hbar hback) {} (front ++ Text.trim s)
  have hfirst : Text.trim (front ++ part) = Text.trim part := by
    simpa using Text.trim_around hfront (List.forall_mem_nil _) part
  have hlast : Text.trim (last ++ back) = Text.trim last := by
    simpa using Text.trim_around (List.forall_mem_nil _) hback last
  rw [← Code.splitFrom_top htop, hparts]
  conv_rhs => rw [hs, Code.splitTopLevel, hwhole]
  rw [List.map_append, List.map_singleton, hlast, ← List.map_singleton, ← List.map_append, ← hend,
    hstart, List.map_cons, List.map_cons, hfirst]

theorem nullable_parse_iff :
    (parse raw).nullable = true ↔
      (∃ part ∈ Code.splitTopLevel '|' raw, ['?'] <+: Text.trim part) ∨
        "null".toList ∈ (parse raw).members := by
  have hmap (parts : List Text) : (∃ part ∈ parts, ['?'] <+: Text.trim part) ↔
      ∃ bare ∈ parts.map Text.trim, ['?'] <+: bare := by simp
  rw [hmap, ← map_trim_splitTopLevel_trim, ← hmap, members_parse, List.mem_eraseDups,
    List.mem_filterMap, parse, foldl_addPart]
  simp only [List.any_eq_true, Bool.or_eq_true, beq_iff_eq, readPart_fst_eq_true_iff, and_or_left,
    exists_or]

end Marks

section ReadBack

/-- What holds of all parts but the last holds of all members but the last. -/
theorem forall_mem_dropLast_members {P Q : Text → Prop}
    (hPQ : ∀ part m, member? part = some m → P part → Q m)
    (h : ∀ part ∈ parts.dropLast, P part) :
    ∀ m ∈ (parts.filterMap member?).eraseDups.dropLast, Q m := by
  induction parts using List.reverseRecOn with
  | nil => simp
  | append_singleton parts part =>
    rw [List.dropLast_concat] at h
    have hmembers : ∀ m ∈ (parts.filterMap member?).eraseDups, Q m := by
      intro m hm
      obtain ⟨p, hp, hread⟩ := List.mem_filterMap.mp (List.mem_eraseDups.mp hm)
      exact hPQ p m hread (h p hp)
    have hfront : ∀ m ∈ (parts.filterMap member?).eraseDups.dropLast, Q m :=
      fun m hm => hmembers m (List.dropLast_subset _ hm)
    rw [List.filterMap_append]
    cases hpart : member? part with
    | none => simpa [hpart] using hfront
    | some m =>
      rw [List.filterMap_cons_some hpart, List.filterMap_nil, Keyed.eraseDups_concat]
      split
      · exact hfront
      · rwa [List.dropLast_concat]

theorem parse_join_members (h : ∀ m ∈ (parse raw).members, ¬ ['?'] <+: m) :
    (parse (Text.join ['|'] (parse raw).members)).members = (parse raw).members := by
  have hmember : ∀ m ∈ (parse raw).members, IsMember m := fun m => isMember_of_mem_parse
  have hnodup : (parse raw).members.Nodup := members_parse raw ▸ Keyed.nodup_eraseDups _
  obtain ⟨hparts, hfront⟩ := Code.parts_splitTopLevel '|' (Text.trim raw)
  have hclosed : ∀ m ∈ (parse raw).members.dropLast,
      (m.foldl Code.Nesting.step {}).atTop = true := by
    rw [members_parse]
    exact forall_mem_dropLast_members (fun _ _ hread => (Replaces.member? hread).closed)
      fun part hpart => (hfront part hpart).2.closed
  have hunbroken : ∀ m ∈ (parse raw).members, Code.Unbroken '|' {} m := by
    intro m hm
    rw [members_parse, List.mem_eraseDups, List.mem_filterMap] at hm
    obtain ⟨part, hpart, hread⟩ := hm
    exact (Replaces.member? hread).unbroken (hparts part hpart)
  generalize (parse raw).members = members at *
  by_cases hne : members = []
  · rw [hne]
    rfl
  · have htrim : Text.trim (Text.join ['|'] members) = Text.join ['|'] members :=
      (Text.Trimmed.join hne fun m hm =>
        .of_trim_eq (hmember m hm).nonempty (hmember m hm).trimmed).trim_eq
    have hread : members.filterMap member? = members.filterMap some :=
      List.filterMap_congr fun m hm => (hmember m hm).member?_eq (h m hm)
    rw [members_parse, htrim,
      Code.splitTopLevel_join_last (by decide) hne hclosed hunbroken, hread, List.filterMap_some,
      Keyed.eraseDups_of_nodup hnodup]

end ReadBack

/-- Reading a union gives a normal form. Its members are not empty, have no blanks around
them, end neither in array brackets nor in variadic dots and are spelled as they are
compared; no two are the same. The union is nullable if one of its parts starts with a
question mark or one of its members is `null`, and not otherwise. If no member starts with
a question mark, the members with bars between them are read back. -/
theorem parse_normal_form (raw : Text) :
    (∀ m ∈ (parse raw).members, m ≠ [] ∧ Text.trim m = m ∧ ¬ "[]".toList <:+ m ∧
      ¬ "...".toList <:+ m ∧ normalizeMember m = m) ∧
    (parse raw).members.Nodup ∧
    ((parse raw).nullable = true ↔
      (∃ part ∈ Code.splitTopLevel '|' raw, "?".toList <+: Text.trim part) ∨
        "null".toList ∈ (parse raw).members) ∧
    ((∀ m ∈ (parse raw).members, ¬ "?".toList <+: m) →
      (parse (Text.join ['|'] (parse raw).members)).members = (parse raw).members) := by
  refine ⟨fun m hm => ?_, members_parse raw ▸ Keyed.nodup_eraseDups _, nullable_parse_iff,
    parse_join_members⟩
  have hmember := isMember_of_mem_parse hm
  exact ⟨hmember.nonempty, hmember.trimmed, hmember.not_list, hmember.not_variadic,
    hmember.normal⟩

/-- Aliases, doubles, suffixes and a text in which a bracket stays open. -/
theorem parse_normal_form_unclosed :
    (parse " ?Foo [] | boolean|bool...|(int|string)[]|Array<int".toList).members =
        ["Foo", "bool", "(int|string)", "array<int"].map String.toList ∧
      (parse (Text.join ['|']
        (parse " ?Foo [] | boolean|bool...|(int|string)[]|Array<int".toList).members)).members =
        (parse " ?Foo [] | boolean|bool...|(int|string)[]|Array<int".toList).members := by
  have hmembers : (parse " ?Foo [] | boolean|bool...|(int|string)[]|Array<int".toList).members =
      ["Foo", "bool", "(int|string)", "array<int"].map String.toList := by decide
  obtain ⟨-, -, -, hread⟩ :=
    parse_normal_form " ?Foo [] | boolean|bool...|(int|string)[]|Array<int".toList
  exact ⟨hmembers, hread (by rw [hmembers]; decide)⟩

end PhpLint.TypeExpr
