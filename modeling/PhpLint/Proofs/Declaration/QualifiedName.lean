import PhpLint.Proofs.Code.Names

/-!
Qualified names as they are written. A name has segments, with a backslash between any two
of them and maybe one in front; names are put together below one another, taken apart at
the backslashes, and read back as far as nothing goes on behind them.
-/

namespace PhpLint

/-- A qualified name as it is written: identifiers with backslashes between them, and
maybe one more in front. -/
structure QualifiedName where
  rooted : Bool
  segments : List Text
  nonempty : segments ≠ []
  named : ∀ s ∈ segments, Code.isIdentifier s = true

namespace QualifiedName

/-- The name without the backslash in front. -/
def path (n : QualifiedName) : Text := Text.join ['\\'] n.segments

/-- The name as written. -/
def text (n : QualifiedName) : Text := if n.rooted then '\\' :: n.path else n.path

def last (n : QualifiedName) : Text := n.segments.getLast n.nonempty

/-- The name of an item below a group. -/
def below (group item : QualifiedName) : QualifiedName where
  rooted := group.rooted
  segments := group.segments ++ item.segments
  nonempty := by simp [group.nonempty]
  named s hs := (List.mem_append.mp hs).elim (group.named s) (item.named s)

variable (n : QualifiedName)

theorem isQualifiedPart_path : ∀ c ∈ n.path, Code.isQualifiedPart c = true := by
  intro c hc
  rcases Text.mem_join hc with hsep | ⟨s, hs, hc⟩
  · rw [List.mem_singleton.mp hsep]
    rfl
  · simp [Code.isQualifiedPart, Code.isIdentPart_of_isIdentifier (n.named s hs) c hc]

theorem isQualifiedPart_text : ∀ c ∈ n.text, Code.isQualifiedPart c = true := by
  unfold text
  split
  · exact List.forall_mem_cons.mpr ⟨rfl, n.isQualifiedPart_path⟩
  · exact n.isQualifiedPart_path

theorem path_cons : ∃ c t, n.path = c :: t ∧ c ≠ '\\' := by
  obtain ⟨s, rest, hsegments⟩ := List.exists_cons_of_ne_nil n.nonempty
  obtain ⟨c, t, rfl, hc, -⟩ := Code.isIdentifier_iff.mp (n.named s (by simp [hsegments]))
  refine ⟨c, _, by rw [path, hsegments, Text.join_cons, List.cons_append], ?_⟩
  rintro rfl
  cases hc

theorem isIdentifier_last : Code.isIdentifier n.last = true :=
  n.named n.last (List.getLast_mem n.nonempty)

/-- A name is its last segment, or it has the others in front of that. -/
theorem path_eq : (n.segments.dropLast = [] ∧ n.path = n.last) ∨
    (n.segments.dropLast ≠ [] ∧
      n.path = Text.join ['\\'] n.segments.dropLast ++ '\\' :: n.last) := by
  have hsegments : n.segments.dropLast ++ [n.last] = n.segments :=
    List.dropLast_concat_getLast n.nonempty
  by_cases hfront : n.segments.dropLast = []
  · rw [hfront] at hsegments
    exact .inl ⟨hfront, by rw [path, ← hsegments]; rfl⟩
  · have hjoin := Text.join_append ['\\'] hfront (List.cons_ne_nil n.last [])
    rw [hsegments, List.append_assoc] at hjoin
    exact .inr ⟨hfront, hjoin⟩

theorem path_concat : ∃ t c, n.path = t ++ [c] ∧ c ≠ '\\' := by
  obtain ⟨front, hpath⟩ : ∃ front, n.path = front ++ n.last := by
    rcases n.path_eq with ⟨-, hpath⟩ | ⟨-, hpath⟩
    · exact ⟨[], hpath⟩
    · exact ⟨_, by rw [hpath, List.append_cons]⟩
  obtain ⟨d, u, hlast, -, -⟩ := Code.isIdentifier_iff.mp n.isIdentifier_last
  obtain ⟨t, c, hconcat⟩ : ∃ t c, n.last = t ++ [c] :=
    ⟨_, _, (List.dropLast_concat_getLast (by simp [hlast])).symm⟩
  refine ⟨front ++ t, c, by rw [hpath, hconcat, List.append_assoc], ?_⟩
  rintro rfl
  cases Code.isIdentPart_of_isIdentifier n.isIdentifier_last '\\' (by simp [hconcat])

theorem splitAtChar_path : Text.splitAtChar '\\' n.path = n.segments := by
  refine Text.splitAtChar_join n.nonempty fun s hs hmem => ?_
  cases Code.isIdentPart_of_isIdentifier (n.named s hs) _ hmem

theorem path_below (group item : QualifiedName) :
    (group.below item).path = group.path ++ '\\' :: item.path := by
  have hjoin := Text.join_append ['\\'] group.nonempty item.nonempty
  rwa [List.append_assoc] at hjoin

theorem last_below (group item : QualifiedName) : (group.below item).last = item.last :=
  List.getLast_append_of_ne_nil _ item.nonempty

theorem text_below (group item : QualifiedName) :
    (group.below item).text = group.text ++ '\\' :: item.path := by
  unfold text
  rw [path_below]
  change (if group.rooted then _ else _) = _
  split <;> rfl

theorem trimmed_path : Text.Trimmed n.path := by
  obtain ⟨c, t, hpath, -⟩ := n.path_cons
  exact .of_not_blank (by simp [hpath])
    fun c hc => Code.isBlank_of_isQualifiedPart (n.isQualifiedPart_path c hc)

theorem trimmed_text : Text.Trimmed n.text := by
  unfold text
  split
  · have hslash : Text.Trimmed ['\\'] := .singleton rfl
    exact hslash.around n.trimmed_path []
  · exact n.trimmed_path

theorem dropWhile_path : n.path.dropWhile (· == '\\') = n.path := by
  obtain ⟨c, t, hpath, hc⟩ := n.path_cons
  rw [hpath, List.dropWhile_cons_of_neg (by simp [hc])]

theorem dropWhile_text : n.text.dropWhile (· == '\\') = n.path := by
  unfold text
  split
  · rw [List.dropWhile_cons_of_pos (by simp), n.dropWhile_path]
  · exact n.dropWhile_path

theorem dropEndWhile_text : Text.dropEndWhile (· == '\\') (n.text ++ ['\\']) = n.text := by
  obtain ⟨t, c, hpath, hc⟩ := n.path_concat
  obtain ⟨u, htext⟩ : ∃ u, n.text = u ++ [c] := by
    unfold text
    split
    · exact ⟨'\\' :: t, by rw [hpath]; rfl⟩
    · exact ⟨t, hpath⟩
  simp [Text.dropEndWhile, htext, hc]

end QualifiedName

namespace Code

/-- The segments of a name, each behind a backslash. -/
def behindBackslashes (names : List Text) : Text := names.flatMap ('\\' :: ·)

theorem behindBackslashes_cons (s : Text) (names : List Text) :
    behindBackslashes (s :: names) = '\\' :: s ++ behindBackslashes names := rfl

theorem length_le_behindBackslashes (names : List Text) :
    names.length ≤ (behindBackslashes names).length := by
  induction names with
  | nil => simp
  | cons s names ih =>
    simp only [behindBackslashes_cons, List.length_append, List.length_cons]
    omega

theorem join_backslash (s : Text) (names : List Text) :
    Text.join ['\\'] (s :: names) = s ++ behindBackslashes names := by
  induction names generalizing s with
  | nil => simp [Text.join, behindBackslashes]
  | cons t names ih =>
    rw [Text.join_cons, if_neg (by simp), ih]
    rfl

/-- Readers of names that take every identifier, and no backslash. -/
structure ReadsNames (first part : Char → Bool) : Prop where
  starts : ∀ c, Text.isIdentStart c = true → first c = true
  continues : ∀ c, Text.isIdentPart c = true → part c = true
  backslash : part '\\' = false

theorem readsNames_folded : ReadsNames isNameStart isNamePart where
  starts c hc := by simp [isNameStart, hc]
  continues c hc := by simp [isNamePart, hc]
  backslash := rfl

theorem readsNames_ascii : ReadsNames Text.isIdentStart Text.isIdentPart where
  starts _ hc := hc
  continues _ hc := hc
  backslash := rfl

section Names

variable {first part : Char → Bool} (hreads : ReadsNames first part) {rest : Text}
  (hrest : ∀ c ∈ rest.head?, part c = false)
include hreads hrest

/-- What ends one segment is the backslash of the next, or what stands behind the name. -/
theorem readRun?_segment {s : Text} (hs : isIdentifier s = true) (names : List Text) :
    readRun? first part (s ++ (behindBackslashes names ++ rest)) =
      some (s, behindBackslashes names ++ rest) := by
  obtain ⟨c, t, rfl, hc, ht⟩ := isIdentifier_iff.mp hs
  refine readRun?_append (hreads.starts c hc) (fun d hd => hreads.continues d (ht d hd)) ?_
  cases names with
  | nil => exact hrest
  | cons t names =>
    intro c hc
    obtain rfl := Option.some.inj hc
    exact hreads.backslash

variable (hend : rest.head? ≠ some '\\')
include hend

theorem segments_append {names : List Text} (hnames : ∀ s ∈ names, isIdentifier s = true)
    {fuel : Nat} (hfuel : names.length ≤ fuel) :
    segments first part fuel (behindBackslashes names ++ rest) =
      (behindBackslashes names, rest) := by
  induction names generalizing fuel with
  | nil =>
    cases fuel with
    | zero => rfl
    | succ fuel =>
      cases rest with
      | nil => rfl
      | cons c rest =>
        have hc : c ≠ '\\' := fun h => hend (by rw [h]; rfl)
        simp [behindBackslashes, segments, hc]
  | cons s names ih =>
    cases fuel with
    | zero => simp at hfuel
    | succ fuel =>
      -- Every segment is read with one unit of fuel, and the next backslash ends it.
      rw [List.forall_mem_cons] at hnames
      have hmore := ih hnames.2 (Nat.le_of_succ_le_succ hfuel)
      rw [behindBackslashes_cons, List.append_assoc, List.cons_append, segments]
      simp only [readRun?_segment hreads hrest hnames.1 names, hmore]

/-- A qualified name is read back, as far as no letter and no backslash goes on behind it. -/
theorem readQualified?_append (n : QualifiedName) :
    readQualified? first part (n.text ++ rest) = some (n.text, rest) := by
  obtain ⟨s, names, hsegments⟩ := List.exists_cons_of_ne_nil n.nonempty
  have hnamed := n.named
  rw [hsegments, List.forall_mem_cons] at hnamed
  have hpath : n.path = s ++ behindBackslashes names := by
    rw [QualifiedName.path, hsegments, join_backslash]
  have hfuel : names.length ≤ (behindBackslashes names ++ rest).length := by
    rw [List.length_append]
    exact Nat.le_add_right_of_le (length_le_behindBackslashes names)
  have hrun := readRun?_segment hreads hrest hnamed.1 names
  have hmore := segments_append hreads hrest hend hnamed.2 hfuel
  unfold QualifiedName.text
  split
  · rw [List.cons_append, hpath, List.append_assoc, readQualified?]
    simp only [hrun, hmore]
    simp
  · obtain ⟨c, t, hcons, hplain⟩ := n.path_cons
    rw [hpath] at hcons
    rw [hpath, List.append_assoc, readQualified?]
    · simp only [hrun, hmore]
      simp
    · intro u hu
      rw [← List.append_assoc, hcons] at hu
      exact hplain (List.cons.inj hu).1

end Names

theorem isQualifiedName_text (n : QualifiedName) : isQualifiedName n.text = true := by
  have hread := @readQualified?_append _ _ readsNames_ascii [] (by simp) (by simp) n
  rw [List.append_nil] at hread
  rw [isQualifiedName, hread]
  rfl

end Code

end PhpLint
