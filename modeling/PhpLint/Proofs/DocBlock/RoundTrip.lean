import PhpLint.Proofs.DocBlock.Tag
import PhpLint.Proofs.Keyed

/-!
Doc comments, written and read back. A comment has a summary, a description and one line
for each entry; blank lines stand between the three. Every line is read by one step: blank
lines and tags record the tag before them, and so no tag loses its text to another one or
takes in any of it. Main statement: a comment that is written is read back as a whole.
-/

namespace PhpLint

namespace Text

/-- Lines that are joined come apart again. -/
theorem feedLines_join {lines : List Text} (hne : lines ≠ []) (hbreak : ∀ l ∈ lines, '\n' ∉ l)
    (hreturn : ∀ l ∈ lines, l.getLast? ≠ some '\r') (hlast : lines.getLast? ≠ some []) :
    feedLines (join ['\n'] lines) = lines := by
  have hkept : ∀ l ∈ lines.dropLast, dropReturn l = l := by
    intro l hl
    have hnone : stripEnd? ['\r'] l = none := by
      rw [Option.eq_none_iff_forall_ne_some]
      intro front hfront
      apply hreturn l (List.dropLast_subset _ hl)
      rw [stripEnd?_eq_some_iff.mp hfront]
      exact List.getLast?_concat
    rw [dropReturn, hnone]
    rfl
  obtain ⟨front, last, rfl⟩ := List.eq_nil_or_concat' lines |>.resolve_left hne
  rw [feedLines, splitAtChar_join hne hbreak]
  rw [List.dropLast_concat] at hkept
  rw [List.getLast?_concat] at hlast
  have hlast' : last.isEmpty = false := by simpa using hlast
  simp [List.map_congr_left hkept, hlast']

end Text

namespace DocBlock

/-- A line of a comment with some content. -/
def onLine (content : Text) : Text := " * ".toList ++ content

/-- Content of a line that cleaning the line gives back. -/
structure IsContent (content : Text) : Prop where
  nonempty : content ≠ []
  no_break : '\n' ∉ content
  clean : cleanLine (onLine content) = content

instance (content : Text) : Decidable (IsContent content) :=
  decidable_of_iff (content ≠ [] ∧ '\n' ∉ content ∧ cleanLine (onLine content) = content)
    ⟨fun ⟨h, h₁, h₂⟩ => ⟨h, h₁, h₂⟩, fun ⟨h, h₁, h₂⟩ => ⟨h, h₁, h₂⟩⟩

namespace IsContent

variable {content : Text} (h : IsContent content)

include h

theorem not_blank : ∀ c ∈ content.getLast?, Text.isBlank c = false := by
  rw [← h.clean]
  exact Text.not_blank_of_trimEnd _

theorem onLine_facts : '\n' ∉ onLine content ∧ (onLine content).getLast? ≠ some '\r' := by
  refine ⟨?_, ?_⟩
  · rw [onLine, List.mem_append, not_or]
    exact ⟨by decide, h.no_break⟩
  · rw [onLine, List.getLast?_append_of_ne_nil _ h.nonempty]
    intro hreturn
    cases h.not_blank _ hreturn

end IsContent

/-- Plain text on a line, which is no tag. -/
structure IsText (content : Text) : Prop extends IsContent content where
  no_tag : readTag? content = none

instance (content : Text) : Decidable (IsText content) :=
  decidable_of_iff (IsContent content ∧ readTag? content = none)
    ⟨fun ⟨h, h₁⟩ => ⟨h, h₁⟩, fun ⟨h, h₁⟩ => ⟨h, h₁⟩⟩

/-- What a comment tells. -/
structure Comment where
  summary : Text
  description : List Text
  entries : List Entry
  deriving DecidableEq, Repr

section Steps

variable {r : Reading}

/-- A blank line records the tag before it. -/
theorem step_blank {raw : Text} (h : cleanLine raw = []) :
    r.step raw =
      { r.flush with summaryDone := r.flush.summaryDone || !r.flush.summary.isEmpty } := by
  rw [Reading.step, h]

theorem step_plain {raw : Text} (hne : cleanLine raw ≠ []) (h : readTag? (cleanLine raw) = none) :
    r.step raw = r.addText (cleanLine raw) := by
  rw [Reading.step]
  split
  · rename_i hnil
    exact absurd hnil hne
  · simp only [h]

/-- A tag records the tag before it and waits to be recorded itself. -/
theorem step_tag {raw : Text} {tag : Tag} (h : readTag? (cleanLine raw) = some tag) :
    r.step raw =
      { r.flush with summaryDone := true, pending := some ⟨tag, tag.absorbs⟩ } := by
  rw [Reading.step]
  split
  · rename_i hnil
    rw [hnil] at h
    cases h
  · simp only [h]

theorem step_text {content : Text} (h : IsText content) :
    r.step (onLine content) = r.addText content := by
  have hclean := h.clean
  rw [step_plain (by rw [hclean]; exact h.nonempty) (by rw [hclean]; exact h.no_tag), hclean]

theorem step_entry {e : Entry} (hcontent : IsContent e.line) (h : e.IsReadable) :
    r.step (onLine e.line) =
      { r.flush with
        summaryDone := true
        pending := some ⟨⟨e.tagName, Text.trim e.body⟩,
          Tag.absorbs ⟨e.tagName, Text.trim e.body⟩⟩ } :=
  step_tag (by rw [hcontent.clean]; exact Entry.readTag?_line h)

theorem flush_of_none (h : r.pending = none) : r.flush = r := by
  rw [Reading.flush, h]

theorem flush_facts (r : Reading) :
    r.flush.pending = none ∧ r.flush.summaryDone = r.summaryDone := by
  rw [Reading.flush]
  split
  · exact ⟨rfl, rfl⟩
  · rename_i hpending
    exact ⟨hpending, rfl⟩

/-- Text behind the summary, with no tag before it, is part of the description. -/
theorem foldl_description (hdone : r.summaryDone = true) (hpending : r.pending = none)
    {description : List Text} (h : ∀ line ∈ description, IsText line) :
    (description.map onLine).foldl Reading.step r =
      { r with description := r.description ++ description } := by
  induction description generalizing r with
  | nil => simp
  | cons line description ih =>
    obtain ⟨hline, hmore⟩ := List.forall_mem_cons.mp h
    have hadd : r.addText line = { r with description := r.description ++ [line] } := by
      rw [Reading.addText, hpending]
      simp [hdone]
    have hrest := ih (r := { r with description := r.description ++ [line] }) hdone hpending hmore
    rw [List.map_cons, List.foldl_cons, step_text hline, hadd]
    exact hrest.trans (by simp)

/-- Tags are recorded in their order, each with the text on its own line. -/
theorem flush_foldl_entries (hdone : r.summaryDone = true) {entries : List Entry}
    (h : ∀ e ∈ entries, IsContent e.line ∧ e.IsReadable) :
    ((entries.map (onLine ·.line)).foldl Reading.step r).flush =
      { r.flush with doc := entries.foldl Entry.record r.flush.doc } := by
  induction entries generalizing r with
  | nil => rfl
  | cons e entries ih =>
    obtain ⟨⟨hcontent, he⟩, hmore⟩ := List.forall_mem_cons.mp h
    have hrecorded := Entry.addTag_eq he hcontent.not_blank r.flush.doc
    obtain ⟨hpending, hsame⟩ := flush_facts r
    rw [List.map_cons, List.foldl_cons, step_entry hcontent he, ih rfl hmore, List.foldl_cons,
      ← hrecorded]
    rw [hdone] at hsame
    cases hflush : r.flush with
    | mk doc summary done description pending =>
      rw [hflush] at hpending hsame
      subst hpending hsame
      rfl

end Steps

namespace Entry

/-- What is recorded by some entries one after another. -/
theorem foldl_record (entries : List Entry) (doc : DocBlock) :
    entries.foldl record doc =
      { doc with
        params := (entries.filterMap param?).foldl (fun m p => m.insert p.name p) doc.params
        returns := (entries.filterMap returns?).getLast?.or doc.returns
        throws := (entries.filterMap throws?).foldl (fun m t => m.insert t.shortName t) doc.throws
        tags := (entries.filterMap other?).foldl (fun m tag => m.push tag.1 tag.2) doc.tags } := by
  induction entries generalizing doc with
  | nil => rfl
  | cons e entries ih =>
    rw [List.foldl_cons, ih]
    cases e with
    | returns type description =>
      have hlast : ∀ (tag : ReturnTag) (tags : List ReturnTag) (known : Option ReturnTag),
          tags.getLast?.or (some tag) = (tag :: tags).getLast?.or known := by
        intro tag tags known
        rw [List.getLast?_cons]
        cases tags.getLast? <;> rfl
      have hreturns := hlast { type := TypeExpr.parse type, description }
        (entries.filterMap returns?) doc.returns
      simp only [record, param?, returns?, throws?, other?, List.filterMap_cons, Option.elim,
        Option.some_or, ← hreturns]
    | _ => rfl

end Entry

namespace Comment

/-- The lines of a comment as it is written. -/
def lines (c : Comment) : List Text :=
  ["/**".toList, onLine c.summary, " *".toList] ++ c.description.map onLine ++ [" *".toList] ++
    c.entries.map (onLine ·.line) ++ [" */".toList]

def text (c : Comment) : Text := Text.join ['\n'] c.lines

/-- A comment whose parts can be told apart. -/
structure IsReadable (c : Comment) : Prop where
  summary : IsText c.summary
  description : ∀ line ∈ c.description, IsText line
  entries : ∀ e ∈ c.entries, IsContent e.line ∧ e.IsReadable
  params_nodup : ((c.entries.filterMap Entry.param?).map ParamTag.name).Nodup
  throws_nodup : ((c.entries.filterMap Entry.throws?).map ThrowsTag.shortName).Nodup

instance (c : Comment) : Decidable c.IsReadable :=
  decidable_of_iff (IsText c.summary ∧ (∀ line ∈ c.description, IsText line) ∧
      (∀ e ∈ c.entries, IsContent e.line ∧ e.IsReadable) ∧
      ((c.entries.filterMap Entry.param?).map ParamTag.name).Nodup ∧
      ((c.entries.filterMap Entry.throws?).map ThrowsTag.shortName).Nodup)
    ⟨fun ⟨h, h₁, h₂, h₃, h₄⟩ => ⟨h, h₁, h₂, h₃, h₄⟩, fun ⟨h, h₁, h₂, h₃, h₄⟩ => ⟨h, h₁, h₂, h₃, h₄⟩⟩

/-- The block that a comment is read as: what each entry tells is in its place, and tags of
one name have their bodies together. -/
def block (c : Comment) (startLine endLine : Nat) : DocBlock where
  startLine
  endLine
  raw := c.text
  summary := c.summary
  description := Text.join ['\n'] c.description
  params := (c.entries.filterMap Entry.param?).map fun p => (p.name, p)
  returns := (c.entries.filterMap Entry.returns?).getLast?
  throws := (c.entries.filterMap Entry.throws?).map fun t => (t.shortName, t)
  tags := Keyed.group (c.entries.filterMap Entry.other?)

theorem feedLines_text {c : Comment} (h : c.IsReadable) : Text.feedLines c.text = c.lines := by
  have hline : ∀ l ∈ c.lines, '\n' ∉ l ∧ l.getLast? ≠ some '\r' := by
    simp only [lines, List.forall_mem_append, List.forall_mem_cons, List.forall_mem_map]
    refine ⟨⟨⟨⟨⟨by decide, h.summary.onLine_facts, by decide, by simp⟩, ?_⟩, by decide, by simp⟩,
      ?_⟩, by decide, by simp⟩
    · exact fun line hline => (h.description line hline).onLine_facts
    · exact fun e he => (h.entries e he).1.onLine_facts
  refine Text.feedLines_join (by simp [lines]) (fun l hl => (hline l hl).1)
    (fun l hl => (hline l hl).2) ?_
  rw [lines, List.getLast?_concat]
  decide

/-- What is known behind the description, before the first tag. -/
theorem foldl_front {c : Comment} (h : c.IsReadable) (doc : DocBlock) :
    (["/**".toList, onLine c.summary, " *".toList] ++ c.description.map onLine ++
      [" *".toList]).foldl Reading.step { doc } =
        { doc, summary := [c.summary], summaryDone := true, description := c.description } := by
  have hsummary : ["/**".toList, onLine c.summary, " *".toList].foldl Reading.step { doc } =
      { doc, summary := [c.summary], summaryDone := true } := by
    rw [List.foldl_cons, List.foldl_cons, List.foldl_cons, List.foldl_nil, step_blank rfl,
      step_text h.summary, step_blank rfl]
    rfl
  rw [List.foldl_append, List.foldl_append, hsummary, foldl_description rfl rfl h.description,
    List.foldl_cons, List.foldl_nil, step_blank rfl, flush_of_none rfl]
  rfl

/-- The tags behind it. -/
theorem foldl_lines {c : Comment} (h : c.IsReadable) (doc : DocBlock) :
    (c.lines.foldl Reading.step { doc }).finish =
      { c.entries.foldl Entry.record doc with
        summary := c.summary
        description := Text.join ['\n'] c.description } := by
  rw [lines, List.foldl_append, List.foldl_append, foldl_front h, List.foldl_cons, List.foldl_nil,
    step_blank rfl, flush_foldl_entries rfl h.entries, flush_of_none rfl]
  rfl

theorem block_eq {c : Comment} (h : c.IsReadable) (startLine endLine : Nat) :
    { c.entries.foldl Entry.record { startLine, endLine, raw := c.text } with
      summary := c.summary
      description := Text.join ['\n'] c.description } = c.block startLine endLine := by
  have hparams := Keyed.foldl_insert (m := []) ParamTag.name
    (by simpa [Keyed.keys] using h.params_nodup)
  have hthrows := Keyed.foldl_insert (m := []) ThrowsTag.shortName
    (by simpa [Keyed.keys] using h.throws_nodup)
  have htags := Keyed.foldl_push [] (c.entries.filterMap Entry.other?)
  have hreturns : (c.entries.filterMap Entry.returns?).getLast?.or none =
      (c.entries.filterMap Entry.returns?).getLast? := Option.or_none
  rw [Entry.foldl_record, hparams, hthrows, hreturns]
  exact congrArg (fun tags => { c.block startLine endLine with tags }) htags

/-- A comment that is written is read back: its summary, its description, and what each of
its entries tells, every type as it is written. -/
theorem parse_text {c : Comment} (h : c.IsReadable) (startLine endLine : Nat) :
    parse c.text startLine endLine = c.block startLine endLine ∧
      ∀ e ∈ c.entries, ∀ type ∈ e.type?, (TypeExpr.parse type).raw = type := by
  refine ⟨?_, fun e he => Entry.raw_type (h.entries e he).2⟩
  rw [parse, feedLines_text h, foldl_lines h, block_eq h]

/-- A comment with a bare tag in front of others and with two tags of one name. -/
def sample : Comment where
  summary := "Saves a user.".toList
  description := ["Longer text.".toList, "@ no tag".toList]
  entries := [
    .param "array<int, string>".toList false true "rest".toList none,
    .param "?User".toList true false "user".toList (some "to be saved".toList),
    .other "see".toList "Third".toList,
    .returns "int|null".toList none,
    .throws "App\\Lost".toList (some "if missing".toList),
    .other "see".toList "load()".toList]

theorem parse_text_sample :
    (parse sample.text 3 15).summary = "Saves a user.".toList ∧
      (parse sample.text 3 15).params.keys = ["rest".toList, "user".toList] ∧
      (parse sample.text 3 15).throws.keys = ["Lost".toList] ∧
      (parse sample.text 3 15).tags = [("see".toList, ["Third".toList, "load()".toList])] := by
  obtain ⟨hparse, -⟩ := parse_text (c := sample) (by decide +kernel) 3 15
  rw [hparse]
  exact ⟨rfl, by decide +kernel, by decide +kernel, by decide +kernel⟩

end Comment

end DocBlock

end PhpLint
