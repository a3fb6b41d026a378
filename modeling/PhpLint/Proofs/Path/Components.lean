import PhpLint.Path
import PhpLint.Proofs.Text.Basic

/-!
What the operations on paths do to the components. Segments without meaning have none,
so a path may be respelled as long as its lead stays; dropping components from the
spelling drops them from the list. A path relative to a root climbs out of the root from
their longest common start, and two different paths from the top that climb nowhere
themselves never get the same relative path. A path without a lead is appended component
by component.
-/

namespace PhpLint.Path

theorem same_iff {p q : Path} : p.same q = true ↔ p.components = q.components := by
  simp [same]

theorem same_comm (p q : Path) : p.same q = q.same p := Bool.beq_comm

@[simp]
theorem ofString_display (p : Path) : ofString p.display = p := by
  simp [ofString, display]

/-- A lead with the segments behind it, as it is read off a path. -/
structure Spelled (lead : Option PathComponent) (segments : List Text) : Prop where
  no_separator : ∀ s ∈ segments, '/' ∉ s
  lead_eq : lead = none ∨ lead = some .root ∨ lead = some .current
  /-- Without a lead the first segment has a meaning. -/
  head_not_idle : lead = none → ∀ s ∈ segments.head?, isIdle s = false

/-- The components that segments stand for. -/
def named (segments : List Text) : List PathComponent := segments.filterMap segmentComponent?

theorem components_eq (p : Path) : p.components = p.splitLead.1.toList ++ named p.splitLead.2 :=
  rfl

theorem spelled_splitLead (p : Path) : Spelled p.splitLead.1 p.splitLead.2 := by
  have hnot : ∀ s ∈ p.segments, '/' ∉ s := fun s => Text.not_mem_of_mem_splitAtChar
  unfold splitLead
  split
  · exact ⟨by simp, .inl rfl, by simp⟩
  · exact ⟨by simp, .inl rfl, by simp⟩
  · rename_i hsegments
    refine ⟨fun s hs => hnot s ?_, .inr (.inl rfl), by simp⟩
    exact hsegments ▸ List.mem_cons_of_mem _ hs
  · rename_i hsegments
    refine ⟨fun s hs => hnot s ?_, .inr (.inr rfl), by simp⟩
    exact hsegments ▸ List.mem_cons_of_mem _ hs
  · rename_i hsingle hroot hcurrent
    refine ⟨hnot, .inl rfl, fun _ s hs => ?_⟩
    obtain ⟨rest, hsegments⟩ := List.head?_eq_some_iff.mp hs
    by_contra hidle
    simp only [isIdle, Bool.not_eq_false, Bool.or_eq_true, List.isEmpty_iff, beq_iff_eq] at hidle
    rcases hidle with rfl | rfl
    · cases rest with
      | nil => exact hsingle hsegments
      | cons t rest => exact hroot _ hsegments
    · exact hcurrent _ hsegments

/-- Spelling and reading a path again. -/
theorem splitLead_ofSegments {segments : List Text} (h : Spelled none segments) :
    (ofSegments segments).splitLead = (none, segments) := by
  cases segments with
  | nil => rfl
  | cons s rest =>
    have hidle : isIdle s = false := h.head_not_idle rfl s rfl
    have hsegments : (ofSegments (s :: rest)).segments = s :: rest :=
      Text.splitAtChar_join (List.cons_ne_nil s rest) h.no_separator
    rw [splitLead, hsegments]
    split
    · rename_i heq
      cases heq
    · rename_i heq
      obtain ⟨rfl, -⟩ := List.cons.inj heq
      cases hidle
    · rename_i heq
      obtain ⟨rfl, -⟩ := List.cons.inj heq
      cases hidle
    · rename_i heq
      obtain ⟨rfl, -⟩ := List.cons.inj heq
      cases hidle
    · rfl

theorem components_ofSegments {segments : List Text} (h : Spelled none segments) :
    (ofSegments segments).components = named segments := by
  rw [components_eq, splitLead_ofSegments h]
  rfl

theorem components_withLead {lead : Option PathComponent} {segments : List Text}
    (h : Spelled lead segments) :
    (withLead lead segments).components = lead.toList ++ named segments := by
  rcases h.lead_eq with rfl | rfl | rfl
  · exact components_ofSegments h
  all_goals
    cases segments with
    | nil => rfl
    | cons s rest =>
      have hsegments : ∀ first : Text, '/' ∉ first →
          (ofSegments (first :: s :: rest)).segments = first :: s :: rest := by
        intro first hfirst
        apply Text.splitAtChar_join (List.cons_ne_nil _ _)
        intro t ht
        rcases List.mem_cons.mp ht with rfl | ht
        · exact hfirst
        · exact h.no_separator t ht
      simp [withLead, components_eq, splitLead, PathComponent.spelling, hsegments]

theorem named_append (front back : List Text) : named (front ++ back) = named front ++ named back :=
  List.filterMap_append

theorem named_of_idle {segments : List Text} (h : ∀ s ∈ segments, isIdle s = true) :
    named segments = [] := by
  rw [named, List.filterMap_eq_nil_iff]
  intro s hs
  rw [segmentComponent?, if_pos (h s hs)]

theorem named_dropWhile (segments : List Text) :
    named (segments.dropWhile isIdle) = named segments := by
  conv_rhs => rw [← List.takeWhile_append_dropWhile (p := isIdle) (l := segments), named_append]
  rw [named_of_idle fun s hs => List.mem_takeWhile_imp hs, List.nil_append]

theorem prefix_dropIdleEnd (segments : List Text) : dropIdleEnd segments <+: segments := by
  have hsuffix := List.reverse_prefix.mpr (List.dropWhile_suffix (l := segments.reverse) isIdle)
  rwa [List.reverse_reverse] at hsuffix

theorem named_dropIdleEnd (segments : List Text) :
    named (dropIdleEnd segments) = named segments := by
  have h := named_dropWhile segments.reverse
  rw [named, named, List.filterMap_reverse] at h
  rw [named, dropIdleEnd, List.filterMap_reverse, h, List.reverse_reverse, named]

theorem named_dropSegments (n : Nat) (segments : List Text) :
    named (dropSegments n segments) = (named segments).drop n := by
  induction segments generalizing n with
  | nil => cases n <;> rfl
  | cons s rest ih =>
    cases n with
    | zero => rfl
    | succ n =>
      by_cases hidle : isIdle s = true
      · have hnone : segmentComponent? s = none := by rw [segmentComponent?, if_pos hidle]
        rw [dropSegments, if_pos hidle, ih]
        simp [named, hnone]
      · obtain ⟨c, hc⟩ : ∃ c, segmentComponent? s = some c := by
          rw [segmentComponent?, if_neg hidle]
          split <;> exact ⟨_, rfl⟩
        rw [dropSegments, if_neg hidle, ih]
        simp [named, hc]

theorem dropSegments_append {front : List Text} (h : ∀ s ∈ front, isIdle s = false)
    (back : List Text) : dropSegments front.length (front ++ back) = back := by
  induction front with
  | nil => cases back <;> rfl
  | cons s front ih =>
    rw [List.length_cons, List.cons_append, dropSegments, if_neg (by simp [h s])]
    exact ih fun t ht => h t (List.mem_cons_of_mem _ ht)

theorem dropSegments_suffix (n : Nat) (segments : List Text) :
    dropSegments n segments <:+ segments := by
  induction segments generalizing n with
  | nil => cases n <;> exact List.suffix_refl _
  | cons s rest ih =>
    cases n with
    | zero => exact List.suffix_refl _
    | succ n =>
      rw [dropSegments]
      split <;> exact (ih _).trans (List.suffix_cons s rest)

theorem spelled_dropIdleEnd {lead : Option PathComponent} {segments : List Text}
    (h : Spelled lead segments) : Spelled lead (dropIdleEnd segments) where
  no_separator s hs := h.no_separator s ((prefix_dropIdleEnd segments).subset hs)
  lead_eq := h.lead_eq
  head_not_idle hlead s hs := by
    obtain ⟨rest, hrest⟩ := List.head?_eq_some_iff.mp hs
    obtain ⟨back, hback⟩ := prefix_dropIdleEnd segments
    refine h.head_not_idle hlead s ?_
    rw [← hback, hrest]
    rfl

theorem trimSegments_eq (segments : List Text) :
    trimSegments segments = dropIdleEnd (segments.dropWhile isIdle) := rfl

theorem spelled_trimSegments {segments : List Text} (h : ∀ s ∈ segments, '/' ∉ s) :
    Spelled none (trimSegments segments) := by
  rw [trimSegments_eq]
  apply spelled_dropIdleEnd
  refine ⟨fun s hs => h s ((List.dropWhile_sublist isIdle).subset hs), .inl rfl, fun _ s hs => ?_⟩
  have hnot := List.head?_dropWhile_not isIdle segments
  rw [Option.mem_def.mp hs] at hnot
  exact hnot

theorem named_trimSegments (segments : List Text) :
    named (trimSegments segments) = named segments := by
  rw [trimSegments_eq, named_dropIdleEnd, named_dropWhile]

theorem trimSegments_eq_self {segments : List Text} (h : ∀ s ∈ segments, isIdle s = false) :
    trimSegments segments = segments := by
  have hdrop : ∀ {ss : List Text}, (∀ s ∈ ss, isIdle s = false) → ss.dropWhile isIdle = ss := by
    intro ss hss
    cases ss with
    | nil => rfl
    | cons s ss => simp [List.dropWhile, hss s]
  rw [trimSegments, hdrop h, hdrop fun s hs => h s (List.mem_reverse.mp hs), List.reverse_reverse]

/-- Components are dropped from the spelling as from the list. -/
theorem components_dropComponents (p : Path) (n : Nat) :
    (p.dropComponents n).components = p.components.drop n := by
  have h := spelled_splitLead p
  rw [dropComponents]
  split
  · rename_i hzero
    rw [trimEnd, components_withLead (spelled_dropIdleEnd h), named_dropIdleEnd, hzero]
    rfl
  · rename_i hpos
    have hrest : ∀ k, ∀ s ∈ dropSegments k p.splitLead.2, '/' ∉ s :=
      fun k s hs => h.no_separator s ((dropSegments_suffix k _).subset hs)
    rw [components_ofSegments (spelled_trimSegments (hrest _)), named_trimSegments,
      named_dropSegments, components_eq]
    obtain ⟨m, rfl⟩ := Nat.exists_eq_succ_of_ne_zero hpos
    rcases h.lead_eq with hlead | hlead | hlead <;> rw [hlead] <;> rfl

theorem commonLength_le (ps bs : List PathComponent) : commonLength ps bs ≤ bs.length := by
  induction ps generalizing bs with
  | nil => simp [commonLength]
  | cons p ps ih =>
    cases bs with
    | nil => simp [commonLength]
    | cons b bs =>
      rw [commonLength]
      split
      · exact Nat.succ_le_succ (ih bs)
      · exact Nat.zero_le _

theorem take_commonLength (ps bs : List PathComponent) :
    ps.take (commonLength ps bs) = bs.take (commonLength ps bs) := by
  induction ps generalizing bs with
  | nil => simp [commonLength]
  | cons p ps ih =>
    cases bs with
    | nil => simp [commonLength]
    | cons b bs =>
      rw [commonLength]
      split
      · rename_i heq
        rw [List.take_succ_cons, List.take_succ_cons, ih, heq]
      · rfl

theorem commonLength_of_prefix {ps bs : List PathComponent} (h : bs <+: ps) :
    commonLength ps bs = bs.length := by
  obtain ⟨rest, rfl⟩ := h
  induction bs with
  | nil => cases rest <;> rfl
  | cons b bs ih => simp [commonLength, ih]

theorem isWithin_iff {p base : Path} : p.isWithin base = true ↔ base.components <+: p.components :=
  List.isPrefixOf_iff_prefix

/-- The components of a path that starts at the top directory. -/
theorem components_of_isAbsolute {p : Path} (h : p.isAbsolute = true) :
    p.components = .root :: named p.splitLead.2 := by
  obtain ⟨rest, hspelling⟩ := List.head?_eq_some_iff.mp (beq_iff_eq.mp h)
  have hsegments : p.segments = [] :: Text.splitAtChar '/' rest := by
    rw [segments, hspelling, Text.splitAtChar, if_pos rfl]
  have hrest := Text.splitAtChar_ne_nil '/' rest
  rw [components_eq]
  unfold splitLead
  rw [hsegments]
  split
  · rename_i heq
    cases heq
  · rename_i heq
    exact absurd (List.cons.inj heq).2 hrest
  · rfl
  · rename_i heq
    cases (List.cons.inj heq).1
  · rename_i hroot _
    exact absurd rfl (hroot _)

/-- A component with a place behind a lead: the name or the step up that a segment without
a separator stands for. -/
def IsInner (c : PathComponent) : Prop := segmentComponent? c.spelling = some c ∧ '/' ∉ c.spelling

theorem isInner_of_mem_named {segments : List Text} (h : ∀ s ∈ segments, '/' ∉ s)
    {c : PathComponent} (hc : c ∈ named segments) : IsInner c := by
  obtain ⟨s, hs, hread⟩ := List.mem_filterMap.mp hc
  have hspelling : c.spelling = s := by
    rw [segmentComponent?] at hread
    split at hread
    · cases hread
    · split at hread
      · rename_i hparent
        rw [hparent, ← Option.some.inj hread]
        rfl
      · rw [← Option.some.inj hread]
        rfl
  rw [IsInner, hspelling]
  exact ⟨hread, h s hs⟩

theorem isInner_parent : IsInner .parent := ⟨rfl, by decide⟩

theorem IsInner.not_idle {c : PathComponent} (h : IsInner c) : isIdle c.spelling = false := by
  by_contra hidle
  rw [Bool.not_eq_false] at hidle
  have hread := h.1
  rw [segmentComponent?, if_pos hidle] at hread
  cases hread

/-- Components that have a place behind a lead make up a relative path. -/
theorem components_ofSpellings {cs : List PathComponent} (h : ∀ c ∈ cs, IsInner c) :
    (ofSegments (cs.map PathComponent.spelling)).components = cs := by
  have hspelled : Spelled none (cs.map PathComponent.spelling) := by
    refine ⟨fun s hs => ?_, .inl rfl, fun _ s hs => ?_⟩
    · obtain ⟨c, hc, rfl⟩ := List.mem_map.mp hs
      exact (h c hc).2
    · obtain ⟨c, hc, rfl⟩ := List.mem_map.mp (List.mem_of_mem_head? hs)
      exact (h c hc).not_idle
  rw [components_ofSegments hspelled]
  clear hspelled
  induction cs with
  | nil => rfl
  | cons c cs ih =>
    rw [List.map_cons, named, List.filterMap_cons_some (h c (by simp)).1]
    exact congrArg (c :: ·) (ih fun d hd => h d (List.mem_cons_of_mem _ hd))

/-- The components of a relative path: steps out of the root, and what is left of the path
behind their common start. -/
def relativeComponents (ps bs : List PathComponent) : List PathComponent :=
  if commonLength ps bs = 0 then ps
  else
    List.replicate (bs.length - commonLength ps bs) .parent ++ ps.drop (commonLength ps bs)

theorem components_relativeTo {p : Path} (habsolute : p.isAbsolute = true) (base : Path) :
    (p.relativeTo base).components = relativeComponents p.components base.components := by
  rw [relativeTo, below?, relativeComponents]
  by_cases hwithin : p.isWithin base = true
  · have hcommon := commonLength_of_prefix (isWithin_iff.mp hwithin)
    simp only [hwithin, if_true, components_dropComponents, hcommon, Nat.sub_self,
      List.replicate_zero, List.nil_append]
    split
    · rename_i hzero
      rw [hzero, List.drop_zero]
    · rfl
  · simp only [hwithin, Bool.false_eq_true, if_false]
    split
    · rfl
    · rename_i hcommon
      have hclimb : ∀ n : Nat, List.replicate n ['.', '.'] =
          (List.replicate n PathComponent.parent).map PathComponent.spelling := by
        intro n
        rw [List.map_replicate]
        rfl
      rw [hclimb, ← List.map_append]
      apply components_ofSpellings
      intro c hc
      rcases List.mem_append.mp hc with hc | hc
      · rw [List.eq_of_mem_replicate hc]
        exact isInner_parent
      · -- The top directory is part of the common start.
        rw [components_of_isAbsolute habsolute] at hc hcommon
        obtain ⟨n, hn⟩ := Nat.exists_eq_succ_of_ne_zero hcommon
        rw [hn, Nat.succ_eq_add_one, List.drop_succ_cons] at hc
        exact isInner_of_mem_named (spelled_splitLead p).no_separator (List.mem_of_mem_drop hc)

/-- The steps out of the root can be counted, as long as the path itself has none. -/
theorem relativeComponents_injective {ps qs bs : List PathComponent} (hps : .parent ∉ ps)
    (hqs : .parent ∉ qs) (hhead : ps.head? = qs.head?)
    (h : relativeComponents ps bs = relativeComponents qs bs) : ps = qs := by
  have hnone : commonLength ps bs = 0 ↔ commonLength qs bs = 0 := by
    cases ps <;> cases qs <;> cases bs <;> simp_all [commonLength]
  unfold relativeComponents at h
  by_cases hzero : commonLength ps bs = 0
  · rwa [if_pos hzero, if_pos (hnone.mp hzero)] at h
  · rw [if_neg hzero, if_neg fun hq => hzero (hnone.mpr hq)] at h
    have hcount : bs.length - commonLength ps bs = bs.length - commonLength qs bs := by
      have hcounts := congrArg (List.count .parent) h
      rwa [List.count_append, List.count_append, List.count_replicate_self,
        List.count_replicate_self,
        List.count_eq_zero.mpr fun hmem => hps (List.mem_of_mem_drop hmem),
        List.count_eq_zero.mpr fun hmem => hqs (List.mem_of_mem_drop hmem)] at hcounts
    have hcommon : commonLength ps bs = commonLength qs bs := by
      have hp := commonLength_le ps bs
      have hq := commonLength_le qs bs
      omega
    rw [hcommon, List.append_cancel_left_eq] at h
    rw [← List.take_append_drop (commonLength qs bs) ps, h, ← hcommon, take_commonLength, hcommon,
      ← take_commonLength, List.take_append_drop]

theorem same_of_relativeTo {p q base : Path} (hp : p.isAbsolute = true) (hq : q.isAbsolute = true)
    (hpParent : .parent ∉ p.components) (hqParent : .parent ∉ q.components)
    (h : (p.relativeTo base).same (q.relativeTo base) = true) : p.same q = true := by
  rw [same_iff, components_relativeTo hp, components_relativeTo hq] at h
  rw [same_iff]
  refine relativeComponents_injective hpParent hqParent ?_ h
  rw [components_of_isAbsolute hp, components_of_isAbsolute hq]
  rfl

/-- The lead of a path is no segment with a meaning. -/
theorem named_segments (p : Path) : named p.segments = named p.splitLead.2 := by
  unfold splitLead
  split
  · rename_i h
    rw [h]
  · rename_i h
    rw [h]
    rfl
  · rename_i h
    rw [h]
    rfl
  · rename_i h
    rw [h]
    rfl
  · rfl

theorem isAbsolute_join {p : Path} (hp : p.isAbsolute = true) (q : Path) :
    (p.join q).isAbsolute = true := by
  obtain ⟨rest, hspelling⟩ := List.head?_eq_some_iff.mp (beq_iff_eq.mp hp)
  unfold join
  split
  · rename_i hq
    simpa [hspelling] using hq
  · split <;> simp [isAbsolute, hspelling]

theorem lead_of_isAbsolute {p : Path} (h : p.isAbsolute = true) : p.splitLead.1 = some .root := by
  have hspelled := spelled_splitLead p
  have hcomponents := components_of_isAbsolute h
  rw [components_eq] at hcomponents
  rcases hspelled.lead_eq with hlead | hlead | hlead
  · rw [hlead, Option.toList_none, List.nil_append] at hcomponents
    have hinner : IsInner .root :=
      isInner_of_mem_named hspelled.no_separator (hcomponents ▸ List.mem_cons_self)
    exact absurd hinner.1 (by decide)
  · exact hlead
  · rw [hlead] at hcomponents
    cases hcomponents

theorem spelling_ne_nil {p : Path} (h : p.isAbsolute = true) : p.spelling ≠ [] := by
  intro hnil
  rw [isAbsolute, hnil] at h
  cases h

/-- A relative path is appended segment by segment to a spelling of the path in front. -/
theorem exists_segments_join {p q : Path} (hp : p.isAbsolute = true) (hq : q.isAbsolute = false) :
    ∃ front, (p.join q).segments = front ++ q.segments ∧ named front = named p.segments := by
  have hempty : p.spelling.isEmpty = false := by simpa using spelling_ne_nil hp
  rw [join, hq, hempty, Bool.or_false, if_neg Bool.false_ne_true]
  split
  · rename_i hlast
    obtain ⟨front, hfront⟩ := List.getLast?_eq_some_iff.mp (beq_iff_eq.mp hlast)
    have hidle : named [[]] = [] := rfl
    refine ⟨Text.splitAtChar '/' front, ?_, ?_⟩
    · simp only [segments, hfront, List.append_assoc, List.singleton_append,
        Text.splitAtChar_append_sep]
    · simp only [segments, hfront, Text.splitAtChar_append_sep, named_append]
      simp [Text.splitAtChar, hidle]
  · exact ⟨p.segments, Text.splitAtChar_append_sep _ _ _, rfl⟩

/-- A path without a lead is appended component by component. -/
theorem components_join {p q : Path} (hp : p.isAbsolute = true) (hq : q.splitLead.1 = none) :
    (p.join q).components = p.components ++ q.components := by
  have hrelative : q.isAbsolute = false := by
    by_contra habsolute
    rw [Bool.not_eq_false] at habsolute
    rw [lead_of_isAbsolute habsolute] at hq
    cases hq
  obtain ⟨front, hjoin, hfront⟩ := exists_segments_join hp hrelative
  rw [components_of_isAbsolute (isAbsolute_join hp q), components_of_isAbsolute hp,
    components_eq q, hq, ← named_segments, ← named_segments, ← named_segments, hjoin, named_append,
    hfront]
  rfl

end PhpLint.Path
