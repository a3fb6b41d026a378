import PhpLint.Proofs.FileTree.Location

/-!
The spelling of the way to an entry. Segments without a meaning lead nowhere; so as long as
the last segment has one, two spellings of a directory in front of a name lead to the same
entry.
-/

namespace PhpLint

namespace Path

/-- The segments that have a meaning. -/
def meant (segments : List Text) : List Text := segments.filter fun s => !isIdle s

theorem meant_eq (segments : List Text) :
    meant segments = (named segments).map PathComponent.spelling := by
  induction segments with
  | nil => rfl
  | cons s segments ih =>
    by_cases hidle : isIdle s = true
    · have hnone : segmentComponent? s = none := by rw [segmentComponent?, if_pos hidle]
      simpa [meant, named, hidle, hnone] using ih
    · obtain ⟨c, hc, hspelling⟩ : ∃ c, segmentComponent? s = some c ∧ c.spelling = s := by
        rw [segmentComponent?, if_neg hidle]
        split
        · rename_i hparent
          exact ⟨_, rfl, hparent.symm⟩
        · exact ⟨_, rfl, rfl⟩
      simpa [meant, named, hidle, hc, hspelling] using ih

/-- The last segment has a meaning. -/
def EndsMeant (segments : List Text) : Prop := ∀ s ∈ segments.getLast?, isIdle s = false

theorem EndsMeant.append {back : List Text} (h : EndsMeant back) (hne : back ≠ [])
    (front : List Text) : EndsMeant (front ++ back) := by
  intro s hs
  rw [List.getLast?_append_of_ne_nil _ hne] at hs
  exact h s hs

theorem EndsMeant.tail {s : Text} {rest : List Text} (h : EndsMeant (s :: rest)) :
    EndsMeant rest := by
  intro t ht
  apply h t
  rw [List.getLast?_cons, Option.mem_def.mp ht]
  rfl

theorem EndsMeant.meant_eq_nil_iff {segments : List Text} (h : EndsMeant segments) :
    meant segments = [] ↔ segments = [] := by
  constructor
  · intro hnone
    by_contra hne
    have hlast := List.getLast?_eq_some_getLast hne
    have hmem : segments.getLast hne ∈ meant segments :=
      List.mem_filter.mpr ⟨List.getLast_mem hne, by rw [h _ hlast]; rfl⟩
    rw [hnone] at hmem
    cases hmem
  · rintro rfl
    rfl

theorem endsMeant_meant (segments : List Text) : EndsMeant (meant segments) := by
  intro s hs
  simpa using (List.mem_filter.mp (List.mem_of_getLast? hs)).2

theorem meant_meant (segments : List Text) : meant (meant segments) = meant segments := by
  simp [meant]

end Path

namespace FileTree

open PhpLint.Path

variable (t : FileTree) (create : Bool)

theorem follow_meant {onLink : Location → Path → List Text → Except FileError Location}
    (hlink : ∀ l target rest, EndsMeant rest → onLink l target rest = onLink l target (meant rest))
    {segments : List Text} (h : EndsMeant segments) (l : Location) :
    t.follow create onLink l segments = t.follow create onLink l (meant segments) := by
  induction segments generalizing l with
  | nil => rfl
  | cons s rest ih =>
    have hempty : (meant rest).isEmpty = rest.isEmpty := by
      rw [Bool.eq_iff_iff, List.isEmpty_iff, List.isEmpty_iff, h.tail.meant_eq_nil_iff]
    rw [follow]
    by_cases hidle : isIdle s = true
    · rw [if_pos hidle, ih h.tail]
      simp [meant, hidle]
    · have hmeant : meant (s :: rest) = s :: meant rest := by simp [meant, hidle]
      rw [if_neg hidle, hmeant, follow, if_neg hidle]
      split
      · exact ih h.tail _
      · split
        · exact hlink _ _ _ h.tail
        · exact ih h.tail _
        · rw [hempty]
        · rw [hempty]

theorem resolveFrom_meant (links : Nat) {segments : List Text} (h : EndsMeant segments)
    (l : Location) :
    t.resolveFrom create links l segments = t.resolveFrom create links l (meant segments) := by
  induction links generalizing l segments with
  | zero => exact t.follow_meant create (fun _ _ _ _ => rfl) h l
  | succ links ih =>
    refine t.follow_meant create (fun l target rest hrest => ?_) h l
    by_cases hnil : rest = []
    · rw [hnil]
      rfl
    · have hmeant : meant rest ≠ [] := fun hnone => hnil (hrest.meant_eq_nil_iff.mp hnone)
      rw [ih (hrest.append hnil _), ih ((endsMeant_meant rest).append hmeant _), meant, meant,
        List.filter_append, List.filter_append]
      congr 2
      exact (meant_meant rest).symm

/-- In a directory an entry is found by its name, however the directory is spelled. -/
theorem resolve_join_congr {p p' : Path} {name : Text} (hp : p.isAbsolute = true)
    (hp' : p'.isAbsolute = true) (hsame : p.components = p'.components)
    (hname : IsEntryName name) : t.resolve (p.join ⟨name⟩) = t.resolve (p'.join ⟨name⟩) := by
  have hsegments : Path.segments ⟨name⟩ = [name] := Text.splitAtChar_of_not_mem hname.no_separator
  have hrelative : Path.isAbsolute ⟨name⟩ = false := by
    rw [isAbsolute, beq_eq_false_iff_ne]
    exact fun hhead => hname.no_separator (List.mem_of_mem_head? hhead)
  have hends : EndsMeant [name] := by
    rintro s ⟨⟩
    exact hname.not_idle
  have hjoined {p : Path} (hp : p.isAbsolute = true) : t.resolve (p.join ⟨name⟩) =
      t.resolveFrom false maxLinks []
        ((named p.segments).map PathComponent.spelling ++ meant [name]) := by
    obtain ⟨front, hjoin, hfront⟩ := exists_segments_join hp hrelative
    rw [resolve, hjoin, hsegments, t.resolveFrom_meant false _ (hends.append (by simp) front),
      meant, List.filter_append, ← hfront, ← meant_eq]
    rfl
  have hnamed : named p.segments = named p'.segments := by
    rw [components_of_isAbsolute hp, components_of_isAbsolute hp', List.cons.injEq] at hsame
    rw [named_segments, named_segments, hsame.2]
  rw [hjoined hp, hjoined hp', hnamed]

theorem isFile_join_congr {p p' : Path} {name : Text} (hp : p.isAbsolute = true)
    (hp' : p'.isAbsolute = true) (hsame : p.components = p'.components)
    (hname : IsEntryName name) : t.isFile (p.join ⟨name⟩) = t.isFile (p'.join ⟨name⟩) := by
  rw [isFile, isFile, lookup?, lookup?, t.resolve_join_congr hp hp' hsame hname]

end FileTree

end PhpLint
