import PhpLint.Proofs.TypeExpr.Member
import PhpLint.TypeExpr.Mismatch

/-!
The comparison of a documented type with a declared one. It reads a type as the shapes of its
members: a question mark in front and `null` behind a bar add no shape, and behind a type in
which nothing is open a bar puts the shapes of two types together. Shapes fit themselves, and
they fit each other in either order. Main statement: no type contradicts itself, contradiction
is symmetric and blind to `null`, and a union contradicts what both of its sides contradict.
-/

namespace PhpLint.TypeExpr

namespace Shape

theorem compatible_self (s : Shape) : s.compatible s = true := by
  cases hlist : s.arrayLike <;> simp [compatible, hlist, Text.eqAsciiCase]

/-- Every test of the cascade looks at both sides. -/
theorem compatible_comm (s t : Shape) : s.compatible t = t.compatible s := by
  have hmixed := Bool.or_comm (s.base == "mixed".toList) (t.base == "mixed".toList)
  have hlists := Bool.and_comm s.arrayLike t.arrayLike
  have hkinds : (s.arrayLike != t.arrayLike) = (t.arrayLike != s.arrayLike) := bne_comm
  have htruth := Bool.or_comm (s.base == "bool".toList && isTruthName t.base)
    (t.base == "bool".toList && isTruthName s.base)
  have hclasses := Bool.and_comm s.isClassLike t.isClassLike
  have hselves := Bool.or_comm s.isSelfLike t.isSelfLike
  have hnames : Text.eqAsciiCase (shortName s.base) (shortName t.base) =
      Text.eqAsciiCase (shortName t.base) (shortName s.base) := BEq.comm
  have hbases : (s.base == t.base) = (t.base == s.base) := BEq.comm
  rw [compatible, hmixed, hlists, hkinds, htruth, hclasses, hselves, hnames, hbases]
  rfl

/-- The question marks at the start of a part do not count. -/
theorem ofPart?_marked {part : Text} (h : Text.trimStart part = part) :
    ofPart? ('?' :: part) = ofPart? part := by
  have htrim : Text.trim ('?' :: part) = '?' :: Text.trim part := by
    rw [Text.trim, Text.trimStart_cons_of_not_blank rfl, Text.trimEnd_cons rfl, Text.trim, h]
  have hmarks : (Text.trim ('?' :: part)).dropWhile (· == '?') =
      (Text.trim part).dropWhile (· == '?') := by
    rw [htrim, List.dropWhile_cons_of_pos rfl]
  rw [ofPart?, hmarks]
  rfl

theorem dropBracketsReversed_of_head {s : Text} (h : s.head? ≠ some ']') :
    dropBracketsReversed s = s := by
  rw [dropBracketsReversed]
  rintro rest rfl
  exact h rfl

theorem dropDotsReversed_of_head {s : Text} (h : s.head? ≠ some '.') : dropDotsReversed s = s := by
  rw [dropDotsReversed]
  rintro rest rfl
  exact h rfl

end Shape

variable {a b c null : Text}

/-- The letters of a word that is `null` but for their case. -/
theorem isIdentPart_of_null (h : Text.asciiLower null = "null".toList) :
    ∀ d ∈ null, Text.isIdentPart d = true := by
  intro d hd
  have hlower : d.toLower ∈ "null".toList := h ▸ List.mem_map_of_mem hd
  exact Text.isIdentPart_of_toLower
    (List.all_eq_true.mp (by decide : "null".toList.all Text.isIdentPart = true) _ hlower)

/-- In any case of its letters, `null` is no shape. -/
theorem Shape.ofPart?_null (h : Text.asciiLower null = "null".toList) : ofPart? null = none := by
  have hpart := isIdentPart_of_null h
  have hnot {d : Char} (hd : Text.isIdentPart d = false) : d ∉ null := fun hmem => by
    rw [hpart d hmem] at hd
    cases hd
  have htrim : Text.trim null = null :=
    Text.trim_of_not_blank fun d hd => Text.isBlank_of_isIdentPart (hpart d hd)
  have hmarks : null.dropWhile (· == '?') = null := by
    cases null with
    | nil => rfl
    | cons d rest =>
      refine List.dropWhile_cons_of_neg fun hmark => hnot (d := '?') rfl ?_
      rw [beq_iff_eq.mp hmark]
      exact List.mem_cons_self
  have hbrackets : dropBracketsReversed null.reverse = null.reverse :=
    dropBracketsReversed_of_head fun hhead =>
      hnot rfl (List.mem_reverse.mp (List.mem_of_mem_head? hhead))
  have hdots : dropDotsReversed null.reverse = null.reverse :=
    dropDotsReversed_of_head fun hhead =>
      hnot rfl (List.mem_reverse.mp (List.mem_of_mem_head? hhead))
  have hnormal : normalizeMember null = "null".toList := by
    have hname := normalizeMember_append hpart (show IsParameters [] by simp [IsParameters])
    rw [List.append_nil, h, if_pos (by decide)] at hname
    exact hname
  have hbase : Text.trim (TypeExpr.base "null".toList) = "null".toList := by decide
  rw [ofPart?, htrim, hmarks, htrim, hbrackets, hdots, List.reverse_reverse, hnormal]
  simp only [hbase]
  rfl

theorem shapes_marked (h : Text.trimStart a = a) : shapes ('?' :: a) = shapes a := by
  have hmark : Code.Unbroken '|' {} ['?'] := Code.unbroken_of_not_mem (by decide)
  obtain ⟨part, parts, hparts, hmarked⟩ := Code.splitFrom_append_unbroken hmark a
  have hstart : Text.trimStart part = part := by
    refine Text.trimStart_eq_self fun d hd => ?_
    obtain ⟨rest, rfl⟩ := Code.prefix_of_splitFrom hparts
    obtain ⟨more, rfl⟩ := List.head?_eq_some_iff.mp (Option.mem_def.mp hd)
    exact Text.not_blank_of_trimStart h
  rw [Code.splitFrom_top rfl] at hparts
  rw [shapes, shapes, Code.splitTopLevel, ← List.singleton_append, hmarked, hparts,
    List.filterMap_cons, List.singleton_append, Shape.ofPart?_marked hstart, List.filterMap_cons]

/-- Behind a type in which nothing is open, a bar starts a second one. -/
theorem shapes_union (h : (a.foldl Code.Nesting.step {}).atTop = true) (b : Text) :
    shapes (a ++ '|' :: b) = shapes a ++ shapes b := by
  have hsplit : Code.splitTopLevel '|' (a ++ '|' :: b) =
      Code.splitTopLevel '|' a ++ Code.splitTopLevel '|' b :=
    Code.splitFrom_append_top (by decide) h b
  rw [shapes, hsplit, List.filterMap_append]
  rfl

theorem shapes_null (h : Text.asciiLower null = "null".toList) : shapes null = [] := by
  have hsplit : Code.splitTopLevel '|' null = [null] :=
    (Code.IsPart.of_plain rfl fun d hd =>
      Code.plain_of_class (by decide) (isIdentPart_of_null h d hd)).split_eq
  rw [shapes, hsplit, List.filterMap_cons_none (Shape.ofPart?_null h), List.filterMap_nil]

theorem contradicts_eq_true_iff :
    contradicts a c = true ↔
      shapes a ≠ [] ∧ shapes c ≠ [] ∧ ∀ s ∈ shapes a, ∀ t ∈ shapes c, s.compatible t = false := by
  simp [contradicts, and_assoc]

theorem contradicts_self (a : Text) : contradicts a a = false := by
  by_contra hcontra
  rw [Bool.not_eq_false, contradicts_eq_true_iff] at hcontra
  obtain ⟨hne, -, hapart⟩ := hcontra
  obtain ⟨s, hs⟩ := List.exists_mem_of_ne_nil _ hne
  simpa [s.compatible_self] using hapart s hs s hs

theorem contradicts_comm (a c : Text) : contradicts a c = contradicts c a := by
  rw [Bool.eq_iff_iff, contradicts_eq_true_iff, contradicts_eq_true_iff]
  constructor
  · rintro ⟨ha, hc, hapart⟩
    exact ⟨hc, ha, fun t ht s hs => t.compatible_comm s ▸ hapart s hs t ht⟩
  · rintro ⟨hc, ha, hapart⟩
    exact ⟨ha, hc, fun s hs t ht => s.compatible_comm t ▸ hapart t ht s hs⟩

/-- Only the shapes of a type count. -/
theorem contradicts_congr {a' : Text} (h : shapes a' = shapes a) (c : Text) :
    contradicts a' c = contradicts a c ∧ contradicts c a' = contradicts c a := by
  have hleft : contradicts a' c = contradicts a c := by rw [contradicts, contradicts, h]
  refine ⟨hleft, ?_⟩
  rw [contradicts_comm c a', hleft, contradicts_comm a c]

theorem contradicts_union_iff (hclosed : (a.foldl Code.Nesting.step {}).atTop = true)
    (ha : shapes a ≠ []) (hb : shapes b ≠ []) :
    contradicts (a ++ '|' :: b) c = true ↔ contradicts a c = true ∧ contradicts b c = true := by
  simp only [contradicts_eq_true_iff, shapes_union hclosed, List.forall_mem_append]
  have hab : shapes a ++ shapes b ≠ [] := List.append_ne_nil_of_left_ne_nil ha _
  tauto

/-- The comparison is sane. No type contradicts itself, and contradiction is symmetric. A
question mark in front of a type that does not start with a blank changes nothing, on
either side; nor does `null`, in any case of its letters, behind a bar, if the type ends
outside brackets and quotes. Behind such a type a bar makes a union: it contradicts what both
of its sides contradict, if both have members. -/
theorem contradicts_sane (a c : Text) :
    contradicts a a = false ∧
    contradicts a c = contradicts c a ∧
    (Text.trimStart a = a →
      contradicts ('?' :: a) c = contradicts a c ∧ contradicts c ('?' :: a) = contradicts c a) ∧
    ((a.foldl Code.Nesting.step {}).atTop = true →
      (∀ null, Text.asciiLower null = "null".toList →
        contradicts (a ++ '|' :: null) c = contradicts a c ∧
          contradicts c (a ++ '|' :: null) = contradicts c a) ∧
      ∀ b, shapes a ≠ [] → shapes b ≠ [] →
        (contradicts (a ++ '|' :: b) c = true ↔
          contradicts a c = true ∧ contradicts b c = true)) := by
  refine ⟨contradicts_self a, contradicts_comm a c,
    fun hstart => contradicts_congr (shapes_marked hstart) c, fun hclosed => ⟨?_, ?_⟩⟩
  · intro null hnull
    refine contradicts_congr ?_ c
    rw [shapes_union hclosed, shapes_null hnull, List.append_nil]
  · exact fun b ha hb => contradicts_union_iff hclosed ha hb

theorem contradicts_sane_generic :
    contradicts "?array<int, Foo|Bar>".toList "Baz".toList = true ∧
      contradicts "array<int, Foo|Bar>|NULL".toList "Baz".toList = true ∧
      contradicts "array<int, Foo|Bar>|Qux".toList "Baz".toList = true := by
  obtain ⟨-, -, hmark, hclosed⟩ :=
    contradicts_sane "array<int, Foo|Bar>".toList "Baz".toList
  have hbase : contradicts "array<int, Foo|Bar>".toList "Baz".toList = true := by decide
  obtain ⟨hnull, hunion⟩ := hclosed (by decide)
  refine ⟨?_, ?_, ?_⟩
  · exact (hmark (by decide)).1.trans hbase
  · exact (hnull "NULL".toList (by decide)).1.trans hbase
  · exact (hunion "Qux".toList (by decide) (by decide)).mpr ⟨hbase, by decide⟩

end PhpLint.TypeExpr
