import PhpLint.Proofs.DocBlock.RoundTrip

/-!
Where the lines of a doc comment go. The tags divide the clean lines of a comment into a
front and one section for each tag. A bare tag absorbs the first lines of its section, up to
a blank one; whatever else is not blank is kept as text. Main statement: every tag is recorded
once, in order and with the lines it absorbs, and the text that is kept is the summary
followed by the description.
-/

namespace PhpLint.DocBlock

/-- A tag of a comment with the line it stands on and the lines up to the next tag. -/
structure Section where
  line : Text
  tag : Tag
  lines : List Text
  deriving DecidableEq, Repr

namespace Section

/-- The lines that continue the tag. -/
def absorbed (s : Section) : List Text :=
  if s.tag.absorbs then s.lines.takeWhile (!·.isEmpty) else []

/-- The other lines that are not blank. -/
def left (s : Section) : List Text :=
  (if s.tag.absorbs then s.lines.dropWhile (!·.isEmpty) else s.lines).filter (!·.isEmpty)

/-- The tag with all of its body. -/
def complete (s : Section) : Tag :=
  { s.tag with
    body := Text.join [' '] (if s.tag.body.isEmpty then s.absorbed else s.tag.body :: s.absorbed) }

end Section

/-- The lines of a comment divided at its tags. -/
structure IsOutline (lines front : List Text) (sections : List Section) : Prop where
  lines_eq : lines = front ++ sections.flatMap fun s => s.line :: s.lines
  front_plain : ∀ line ∈ front, readTag? line = none
  tags : ∀ s ∈ sections, readTag? s.line = some s.tag
  plain : ∀ s ∈ sections, ∀ line ∈ s.lines, readTag? line = none

theorem exists_outline (lines : List Text) : ∃ front sections, IsOutline lines front sections := by
  induction lines with
  | nil => exact ⟨[], [], rfl, by simp, by simp, by simp⟩
  | cons line lines ih =>
    obtain ⟨front, sections, rfl, hfront, htags, hplain⟩ := ih
    cases hline : readTag? line with
    | none =>
      exact ⟨line :: front, sections, rfl, List.forall_mem_cons.mpr ⟨hline, hfront⟩, htags, hplain⟩
    | some tag =>
      refine ⟨[], ⟨line, tag, front⟩ :: sections, rfl, by simp, ?_, ?_⟩
      · exact List.forall_mem_cons.mpr ⟨hline, htags⟩
      · exact List.forall_mem_cons.mpr ⟨hfront, hplain⟩

section Lines

variable {lines : List Text} {tag : Tag}

theorem takeWhile_append_filter (p : Text → Bool) (lines : List Text) :
    lines.takeWhile p ++ (lines.dropWhile p).filter p = lines.filter p := by
  have htaken : (lines.takeWhile p).filter p = lines.takeWhile p :=
    List.filter_eq_self.mpr (List.all_eq_true.mp List.all_takeWhile)
  conv_rhs => rw [← List.takeWhile_append_dropWhile (p := p) (l := lines)]
  rw [List.filter_append, htaken]

theorem filter_dropWhile_not (p : Text → Bool) (lines : List Text) :
    (lines.dropWhile p).filter (!p ·) = lines.filter (!p ·) := by
  have hdropped : (lines.takeWhile p).filter (!p ·) = [] :=
    List.filter_eq_nil_iff.mpr fun line hline => by
      simp [List.all_eq_true.mp List.all_takeWhile line hline]
  conv_rhs => rw [← List.takeWhile_append_dropWhile (p := p) (l := lines)]
  rw [List.filter_append, hdropped, List.nil_append]

/-- No line of a section is lost, and none counts twice. -/
theorem Section.absorbed_append_left (s : Section) :
    s.absorbed ++ s.left = s.lines.filter (!·.isEmpty) := by
  rw [absorbed, left]
  split
  · exact takeWhile_append_filter _ s.lines
  · rfl

theorem Section.ne_nil_of_mem_absorbed (s : Section) : ∀ line ∈ s.absorbed, line ≠ [] := by
  intro line hline
  rw [absorbed] at hline
  split at hline
  · simpa using List.all_eq_true.mp List.all_takeWhile line hline
  · cases hline

theorem foldl_continued (tag : Tag) (h : ∀ line ∈ lines, line ≠ []) :
    lines.foldl Tag.continued tag =
      { tag with
        body := Text.join [' '] (if tag.body.isEmpty then lines else tag.body :: lines) } := by
  induction lines generalizing tag with
  | nil =>
    obtain ⟨name, body⟩ := tag
    cases body <;> rfl
  | cons line lines ih =>
    obtain ⟨hline, hlines⟩ := List.forall_mem_cons.mp h
    rw [List.foldl_cons, ih _ hlines, Tag.continued]
    cases hbody : tag.body.isEmpty with
    | true => simp [hline]
    | false => cases lines <;> simp [Text.join]

end Lines

section Reading

variable {r : Reading} {rawLines : List Text} {tag : Tag}

theorem flush_description (r : Reading) : r.flush.description = r.description := by
  rw [Reading.flush]
  split <;> rfl

theorem finish_eq (r : Reading) :
    r.finish =
      { r.flush.doc with
        summary := Text.join [' '] r.flush.summary
        description := Text.join ['\n'] r.flush.description } := by
  rw [Reading.finish, Reading.flush]
  split <;> rfl

/-- Behind the summary, with no tag waiting, the text is description. -/
theorem foldl_plain (hdone : r.summaryDone = true) (hpending : r.pending = none)
    (h : ∀ raw ∈ rawLines, readTag? (cleanLine raw) = none) :
    rawLines.foldl Reading.step r =
      { r with
        description := r.description ++ (rawLines.map cleanLine).filter (!·.isEmpty) } := by
  induction rawLines generalizing r with
  | nil => simp
  | cons raw rawLines ih =>
    obtain ⟨hraw, hmore⟩ := List.forall_mem_cons.mp h
    rw [List.foldl_cons]
    cases hclean : cleanLine raw with
    | nil =>
      have hstep : r.step raw = r := by
        rw [step_blank hclean, flush_of_none hpending, hdone, Bool.true_or, ← hdone]
      rw [hstep, ih hdone hpending hmore]
      simp [hclean]
    | cons c line =>
      have hstep : r.step raw = { r with description := r.description ++ [c :: line] } := by
        rw [step_plain (by simp [hclean]) hraw, hclean, Reading.addText, hpending]
        simp [hdone]
      rw [hstep, ih (r := { r with description := r.description ++ [c :: line] }) hdone hpending
        hmore]
      simp [hclean]

/-- A blank line records the tag that waits, and the text behind it is description. -/
theorem flush_foldl_blank {raw : Text} (hdone : r.summaryDone = true) (hclean : cleanLine raw = [])
    (h : ∀ raw ∈ rawLines, readTag? (cleanLine raw) = none) :
    ((raw :: rawLines).foldl Reading.step r).flush =
      { r.flush with
        description := r.description ++ (rawLines.map cleanLine).filter (!·.isEmpty) } := by
  obtain ⟨hpending, hsame⟩ := flush_facts r
  have hstep : r.step raw = r.flush := by
    rw [step_blank hclean, hsame, hdone, Bool.true_or, ← hdone, ← hsame]
  rw [List.foldl_cons, hstep, foldl_plain (hsame.trans hdone) hpending h, flush_description]
  exact flush_of_none hpending

/-- A tag that absorbs nothing is recorded as it is. -/
theorem flush_foldl_kept (hdone : r.summaryDone = true) (hpending : r.pending = some ⟨tag, false⟩)
    (h : ∀ raw ∈ rawLines, readTag? (cleanLine raw) = none) :
    (rawLines.foldl Reading.step r).flush =
      { r.flush with
        description := r.description ++ (rawLines.map cleanLine).filter (!·.isEmpty) } := by
  induction rawLines generalizing r with
  | nil =>
    rw [List.map_nil, List.filter_nil, List.append_nil, ← flush_description r]
    rfl
  | cons raw rawLines ih =>
    obtain ⟨hraw, hmore⟩ := List.forall_mem_cons.mp h
    cases hclean : cleanLine raw with
    | nil =>
      rw [flush_foldl_blank hdone hclean hmore]
      simp [hclean]
    | cons c line =>
      have hstep : r.step raw = { r with description := r.description ++ [c :: line] } := by
        rw [step_plain (by simp [hclean]) hraw, hclean, Reading.addText, hpending]
        simp [hdone]
      have hrest := ih (r := { r with description := r.description ++ [c :: line] }) hdone hpending
        hmore
      rw [List.foldl_cons, hstep, hrest]
      simp [hclean, Reading.flush, hpending]

/-- A bare tag is recorded with the lines up to the first blank one. -/
theorem flush_foldl_absorbed (hdone : r.summaryDone = true)
    (hpending : r.pending = some ⟨tag, true⟩)
    (h : ∀ raw ∈ rawLines, readTag? (cleanLine raw) = none) :
    (rawLines.foldl Reading.step r).flush =
      { r with
        doc := addTag r.doc
          (((rawLines.map cleanLine).takeWhile (!·.isEmpty)).foldl Tag.continued tag)
        description := r.description ++
          ((rawLines.map cleanLine).dropWhile (!·.isEmpty)).filter (!·.isEmpty)
        pending := none } := by
  induction rawLines generalizing r tag with
  | nil => simp [Reading.flush, hpending]
  | cons raw rawLines ih =>
    obtain ⟨hraw, hmore⟩ := List.forall_mem_cons.mp h
    cases hclean : cleanLine raw with
    | nil =>
      rw [flush_foldl_blank hdone hclean hmore]
      simp [hclean, Reading.flush, hpending]
    | cons c line =>
      have hstep : r.step raw = { r with pending := some ⟨tag.continued (c :: line), true⟩ } := by
        rw [step_plain (by simp [hclean]) hraw, hclean, Reading.addText, hpending]
      have hrest := ih (r := { r with pending := some ⟨tag.continued (c :: line), true⟩ }) hdone rfl
        hmore
      rw [List.foldl_cons, hstep, hrest]
      simp [hclean]

/-- A whole section is recorded as its complete tag, and what is left of it is description. -/
theorem flush_foldl_section (s : Section) (hdone : r.summaryDone = true)
    (hpending : r.pending = some ⟨s.tag, s.tag.absorbs⟩) (hlines : rawLines.map cleanLine = s.lines)
    (h : ∀ line ∈ s.lines, readTag? line = none) :
    (rawLines.foldl Reading.step r).flush =
      { r with
        doc := addTag r.doc s.complete
        description := r.description ++ s.left
        pending := none } := by
  have hplain : ∀ raw ∈ rawLines, readTag? (cleanLine raw) = none := by
    rwa [← hlines, List.forall_mem_map] at h
  rw [Section.complete, ← foldl_continued s.tag s.ne_nil_of_mem_absorbed]
  cases habsorbs : s.tag.absorbs with
  | true =>
    rw [flush_foldl_absorbed hdone (habsorbs ▸ hpending) hplain, hlines]
    simp [Section.absorbed, Section.left, habsorbs]
  | false =>
    rw [flush_foldl_kept hdone (habsorbs ▸ hpending) hplain, hlines]
    simp [Section.absorbed, Section.left, habsorbs, Reading.flush, hpending]

/-- Section by section, each tag is recorded once. -/
theorem flush_foldl_sections {sections : List Section}
    (hlines : rawLines.map cleanLine = sections.flatMap fun s => s.line :: s.lines)
    (htags : ∀ s ∈ sections, readTag? s.line = some s.tag)
    (hplain : ∀ s ∈ sections, ∀ line ∈ s.lines, readTag? line = none) :
    ∃ done, (rawLines.foldl Reading.step r).flush =
      { r.flush with
        doc := (sections.map Section.complete).foldl addTag r.flush.doc
        summaryDone := done
        description := r.description ++ sections.flatMap Section.left } := by
  induction sections generalizing r rawLines with
  | nil =>
    obtain rfl : rawLines = [] := by simpa using hlines
    refine ⟨r.flush.summaryDone, ?_⟩
    rw [List.flatMap_nil, List.append_nil, ← flush_description r]
    rfl
  | cons s sections ih =>
    obtain ⟨htag, htags⟩ := List.forall_mem_cons.mp htags
    obtain ⟨hown, hplain⟩ := List.forall_mem_cons.mp hplain
    rw [List.flatMap_cons, List.cons_append] at hlines
    obtain ⟨raw, more, rfl, hraw, hmore⟩ := List.map_eq_cons_iff.mp hlines
    obtain ⟨own, rest, rfl, hlinesOwn, hlinesRest⟩ := List.map_eq_append_iff.mp hmore
    have hstep : r.step raw =
        { r.flush with summaryDone := true, pending := some ⟨s.tag, s.tag.absorbs⟩ } :=
      step_tag (by rw [hraw]; exact htag)
    have hsection := flush_foldl_section
      (r := { r.flush with summaryDone := true, pending := some ⟨s.tag, s.tag.absorbs⟩ }) s rfl rfl
      hlinesOwn hown
    obtain ⟨done, hrest⟩ := ih (r := own.foldl Reading.step
      { r.flush with summaryDone := true, pending := some ⟨s.tag, s.tag.absorbs⟩ }) hlinesRest htags
      hplain
    refine ⟨done, ?_⟩
    rw [List.foldl_cons, hstep, List.foldl_append, hrest, ← flush_description (own.foldl _ _),
      hsection]
    simp [flush_description, (flush_facts r).1]

/-- Text behind a first line of summary: the summary goes on up to a blank line. -/
theorem foldl_summary (hdone : r.summaryDone = false) (hpending : r.pending = none)
    (hsummary : r.summary ≠ []) (h : ∀ raw ∈ rawLines, readTag? (cleanLine raw) = none) :
    ∃ done, rawLines.foldl Reading.step r =
      { r with
        summary := r.summary ++ (rawLines.map cleanLine).takeWhile (!·.isEmpty)
        summaryDone := done
        description := r.description ++
          ((rawLines.map cleanLine).dropWhile (!·.isEmpty)).filter (!·.isEmpty) } := by
  induction rawLines generalizing r with
  | nil => exact ⟨r.summaryDone, by simp⟩
  | cons raw rawLines ih =>
    obtain ⟨hraw, hmore⟩ := List.forall_mem_cons.mp h
    cases hclean : cleanLine raw with
    | nil =>
      have hstep : r.step raw = { r with summaryDone := true } := by
        rw [step_blank hclean, flush_of_none hpending, hdone]
        simp [hsummary]
      refine ⟨true, ?_⟩
      rw [List.foldl_cons, hstep,
        foldl_plain (r := { r with summaryDone := true }) rfl hpending hmore]
      simp [hclean]
    | cons c line =>
      have hstep : r.step raw = { r with summary := r.summary ++ [c :: line] } := by
        rw [step_plain (by simp [hclean]) hraw, hclean, Reading.addText, hpending]
        simp [hdone]
      obtain ⟨done, hrest⟩ := ih (r := { r with summary := r.summary ++ [c :: line] }) hdone
        hpending (by simp) hmore
      refine ⟨done, ?_⟩
      rw [List.foldl_cons, hstep, hrest]
      simp [hclean]

/-- Before the first tag: blank lines, the summary, and the start of the description. -/
theorem foldl_front (doc : DocBlock) (h : ∀ raw ∈ rawLines, readTag? (cleanLine raw) = none) :
    ∃ done, rawLines.foldl Reading.step { doc } =
      { doc
        summary := ((rawLines.map cleanLine).dropWhile (·.isEmpty)).takeWhile (!·.isEmpty)
        summaryDone := done
        description := (((rawLines.map cleanLine).dropWhile (·.isEmpty)).dropWhile
          (!·.isEmpty)).filter (!·.isEmpty) } := by
  induction rawLines with
  | nil => exact ⟨false, rfl⟩
  | cons raw rawLines ih =>
    obtain ⟨hraw, hmore⟩ := List.forall_mem_cons.mp h
    cases hclean : cleanLine raw with
    | nil =>
      obtain ⟨done, hrest⟩ := ih hmore
      have hstep : Reading.step { doc } raw = { doc } := by
        rw [step_blank hclean]
        rfl
      refine ⟨done, ?_⟩
      rw [List.foldl_cons, hstep, hrest]
      simp [hclean]
    | cons c line =>
      have hstep : Reading.step { doc } raw = { doc, summary := [c :: line] } := by
        rw [step_plain (by simp [hclean]) hraw, hclean]
        rfl
      obtain ⟨done, hrest⟩ := foldl_summary (r := { doc, summary := [c :: line] }) rfl rfl (by simp)
        hmore
      refine ⟨done, ?_⟩
      rw [List.foldl_cons, hstep, hrest]
      simp [hclean]

end Reading

section Bodies

variable {name : Text} {tag : Tag}

theorem tags_addTag_of_known (h : tag.name ∈ knownNames) (doc : DocBlock) :
    (addTag doc tag).tags = doc.tags := by
  rw [addTag]
  simp only [knownNames, List.map_cons, List.map_nil, List.mem_cons, List.not_mem_nil,
    or_false] at h
  repeat' split
  all_goals first | rfl | simp_all

/-- A tag adds its body to those of its name. -/
theorem tagBodies_addTag (hname : name ∉ knownNames) (doc : DocBlock) (tag : Tag) :
    (addTag doc tag).tagBodies name =
      doc.tagBodies name ++ if tag.name = name then [tag.body] else [] := by
  by_cases hknown : tag.name ∈ knownNames
  · have hne : tag.name ≠ name := fun hsame => hname (hsame ▸ hknown)
    rw [tagBodies, tags_addTag_of_known hknown, if_neg hne, List.append_nil, tagBodies]
  · rw [addTag_of_not_known hknown, tagBodies, tagBodies, Keyed.push]
    by_cases hsame : tag.name = name
    · rw [hsame, Keyed.get?_insert_self, if_pos rfl]
      rfl
    · rw [Keyed.get?_insert_of_ne (Ne.symm hsame), if_neg hsame, List.append_nil]

theorem tagBodies_foldl (hname : name ∉ knownNames) (doc : DocBlock) (tags : List Tag) :
    (tags.foldl addTag doc).tagBodies name =
      doc.tagBodies name ++ (tags.filter (·.name = name)).map Tag.body := by
  induction tags generalizing doc with
  | nil => simp
  | cons tag tags ih =>
    rw [List.foldl_cons, ih, tagBodies_addTag hname, List.append_assoc, List.filter_cons]
    split <;> simp_all

/-- Of the other tags, those without a body absorb. -/
theorem absorbs_of_not_known (h : tag.name ∉ knownNames) : tag.absorbs = tag.body.isEmpty := by
  simp only [knownNames, List.map_cons, List.map_nil, List.mem_cons, List.not_mem_nil, or_false,
    not_or] at h
  obtain ⟨hparam, hreturn, hthrows, hvar, -⟩ := h
  cases hbody : tag.body.isEmpty with
  | true => rw [Tag.absorbs, if_pos hbody]
  | false => simp only [Tag.absorbs, hbody, hparam, hreturn, hthrows, hvar, Bool.false_eq_true,
      or_self, if_false]

theorem body_complete (s : Section) (h : s.tag.name ∉ knownNames) :
    s.complete.body =
      if s.tag.body.isEmpty then Text.join [' '] (s.lines.takeWhile (!·.isEmpty))
      else s.tag.body := by
  rw [Section.complete, Section.absorbed, absorbs_of_not_known h]
  cases s.tag.body.isEmpty <;> simp [Text.join]

end Bodies

/-- The text of a comment is accounted for exactly once. The tags divide its clean lines; of
the lines behind a tag, each one that is not blank is absorbed by the tag or left. All tags
are recorded, in order and completed by the lines they absorb: a tag that is none of the known
ones has its body, or else the lines up to a blank one. The lines that are left are the
summary, which is the first stretch of text before the first tag, and behind it the
description. -/
theorem text_accounted (raw : Text) (startLine endLine : Nat) :
    (∃ front sections, IsOutline ((Text.feedLines raw).map cleanLine) front sections) ∧
    ∀ front sections, IsOutline ((Text.feedLines raw).map cleanLine) front sections →
      (∀ s ∈ sections, s.absorbed ++ s.left = s.lines.filter (!·.isEmpty)) ∧
      (∃ summary description,
        front.filter (!·.isEmpty) ++ sections.flatMap Section.left = summary ++ description ∧
        summary = (front.dropWhile (·.isEmpty)).takeWhile (!·.isEmpty) ∧
        parse raw startLine endLine =
          { (sections.map Section.complete).foldl addTag { startLine, endLine, raw } with
            summary := Text.join [' '] summary
            description := Text.join ['\n'] description }) ∧
      ∀ name ∉ knownNames, (parse raw startLine endLine).tagBodies name =
        (sections.filter (·.tag.name = name)).map fun s =>
          if s.tag.body.isEmpty then Text.join [' '] (s.lines.takeWhile (!·.isEmpty))
          else s.tag.body := by
  refine ⟨exists_outline _, fun front sections h => ?_⟩
  obtain ⟨rawFront, rawSections, hraw, hfront, hsections⟩ := List.map_eq_append_iff.mp h.lines_eq
  have hplain : ∀ raw ∈ rawFront, readTag? (cleanLine raw) = none := by
    have hclean := h.front_plain
    rwa [← hfront, List.forall_mem_map] at hclean
  obtain ⟨started, hstart⟩ := foldl_front { startLine, endLine, raw } hplain
  have hparse : parse raw startLine endLine =
      { (sections.map Section.complete).foldl addTag { startLine, endLine, raw } with
        summary := Text.join [' '] ((front.dropWhile (·.isEmpty)).takeWhile (!·.isEmpty))
        description := Text.join ['\n'] (((front.dropWhile (·.isEmpty)).dropWhile
          (!·.isEmpty)).filter (!·.isEmpty) ++ sections.flatMap Section.left) } := by
    rw [parse, hraw, List.foldl_append, hstart, finish_eq, hfront]
    obtain ⟨done, hend⟩ := flush_foldl_sections (r := _) hsections h.tags h.plain
    rw [hend]
    rfl
  refine ⟨fun s _ => s.absorbed_append_left, ⟨_, _, ?_, rfl, hparse⟩, fun name hname => ?_⟩
  · rw [← List.append_assoc, takeWhile_append_filter, filter_dropWhile_not]
  · rw [hparse]
    have hbodies := tagBodies_foldl hname { startLine, endLine, raw }
      (sections.map Section.complete)
    refine hbodies.trans ?_
    rw [List.filter_map, List.map_map]
    refine List.map_congr_left fun s hs => body_complete s ?_
    have hsame : s.tag.name = name := of_decide_eq_true (List.mem_filter.mp hs).2
    rwa [hsame]

/-- Text in front of, behind and between two tags of one name. -/
def trailing : Text :=
  ("/**\n * One.\n * Two.\n *\n * Three\n * @see\n * four\n * five\n *\n * six\n" ++
    " * @see it\n * seven\n */").toList

theorem text_accounted_trailing :
    (parse trailing 1 13).tagBodies "see".toList = ["four five".toList, "it".toList] ∧
      (parse trailing 1 13).summary = "One. Two.".toList ∧
      (parse trailing 1 13).description = "Three\nsix\nseven".toList := by
  obtain ⟨-, hall⟩ := text_accounted trailing 1 13
  obtain ⟨-, ⟨summary, description, hsplit, hsummary, hparse⟩, hbodies⟩ := hall
    (["", "One.", "Two.", "", "Three"].map String.toList)
    [⟨"@see".toList, ⟨"see".toList, []⟩, ["four", "five", "", "six"].map String.toList⟩,
      ⟨"@see it".toList, ⟨"see".toList, "it".toList⟩, ["seven", ""].map String.toList⟩]
    ⟨by decide, by decide, by decide, by decide⟩
  have hsummary : summary = ["One.", "Two."].map String.toList := hsummary.trans (by decide)
  have hdescription : description = ["Three", "six", "seven"].map String.toList := by
    rw [hsummary] at hsplit
    exact List.append_cancel_left (hsplit.symm.trans (by decide))
  refine ⟨(hbodies _ (by decide)).trans (by decide), ?_, ?_⟩
  · rw [hparse, hsummary]
    rfl
  · rw [hparse, hdescription]
    rfl

end PhpLint.DocBlock
