import Mathlib.Data.List.Induction
import Mathlib.Data.List.Infix
import PhpLint.Proofs.Code.BodyRun

/-!
The body that a scan finds, told from the braces of the code. Of the code behind a
declaration, as one text, either a semicolon outside parentheses comes before any brace,
or the first opening brace has a partner, or neither is the case; the scan tells the three
apart, gives the line on which it ends, and returns the text between the braces. What it
returns does not depend on what stands behind that line.
-/

namespace PhpLint.Body

/-- The first semicolon outside parentheses, with no opening brace in front of it, stands
between the two texts. -/
structure EndsBodyless (s before after : Text) : Prop where
  split_eq : s = before ++ ';' :: after
  unopened : '\x7b' ∉ before
  outside : parenDelta before ≤ 0
  first : ∀ p, p ++ [';'] <+: before → 0 < parenDelta p

/-- The second text stands between the first opening brace and the closing brace that
matches it: the first one up to which the braces are balanced. -/
structure Encloses (s before inner after : Text) : Prop where
  split_eq : s = before ++ '\x7b' :: inner ++ '\x7d' :: after
  unopened : '\x7b' ∉ before
  balanced : Code.braceDelta inner = 0
  first : ∀ p, p ++ ['\x7d'] <+: inner → Code.braceDelta p ≠ 0

/-- No closing brace comes before the first opening one. -/
def OpensFirst (s : Text) : Prop := '\x7b' ∈ s → '\x7d' ∉ s.takeWhile (· != '\x7b')

section Reference

variable {s before inner after : Text}

/-- Of the places where a character has a property, one comes first. -/
theorem exists_first {c : Char} {P : Text → Prop} {p : Text} (hp : p ++ [c] <+: s) (hP : P p) :
    ∃ q, q ++ [c] <+: s ∧ P q ∧ ∀ r, r ++ [c] <+: q → ¬ P r := by
  induction hn : p.length using Nat.strong_induction_on generalizing p with
  | _ n ih =>
    by_cases hmore : ∃ r, r ++ [c] <+: p ∧ P r
    · obtain ⟨r, hr, hPr⟩ := hmore
      have hshorter : r.length < n := by
        have hle := hr.length_le
        rw [List.length_append, List.length_singleton] at hle
        omega
      exact ih r.length hshorter ((hr.trans (List.prefix_append p [c])).trans hp) hPr rfl
    · exact ⟨p, hp, hP, fun r hr hPr => hmore ⟨r, hr, hPr⟩⟩

theorem exists_endsBodyless {p t : Text} (hs : s = p ++ ';' :: t) (hopen : '\x7b' ∉ p)
    (hparens : parenDelta p ≤ 0) : ∃ before after, EndsBodyless s before after := by
  have hp : p ++ [';'] <+: s := ⟨t, by simp [hs]⟩
  obtain ⟨q, ⟨after, hq⟩, ⟨hopen', hparens'⟩, hfirst⟩ :=
    exists_first (P := fun p => '\x7b' ∉ p ∧ parenDelta p ≤ 0) hp ⟨hopen, hparens⟩
  refine ⟨q, after, by simp [← hq], hopen', hparens', fun r hr => ?_⟩
  by_contra hle
  exact hfirst r hr ⟨fun hmem => hopen' (hr.subset (List.mem_append_left _ hmem)), by omega⟩

theorem exists_encloses {q t : Text} (hs : s = before ++ '\x7b' :: q ++ '\x7d' :: t)
    (hopen : '\x7b' ∉ before) (hbalanced : Code.braceDelta q = 0) :
    ∃ inner after, Encloses s before inner after := by
  have hq : q ++ ['\x7d'] <+: q ++ '\x7d' :: t := ⟨t, by simp⟩
  obtain ⟨inner, ⟨after, hinner⟩, hbalanced', hfirst⟩ :=
    exists_first (P := fun p => Code.braceDelta p = 0) hq hbalanced
  exact ⟨inner, after, by simp [hs, ← hinner], hopen, hbalanced', hfirst⟩

/-- A body never closes more braces than it has opened. -/
theorem Encloses.braceDelta_nonneg (h : Encloses s before inner after) {p : Text}
    (hp : p <+: inner) : 0 ≤ Code.braceDelta p := by
  induction p using List.reverseRecOn with
  | nil => simp [Code.braceDelta]
  | append_singleton p c ih =>
    have hfront : 0 ≤ Code.braceDelta p := ih ((List.prefix_append p [c]).trans hp)
    rw [Code.braceDelta_append]
    by_cases hc : c = '\x7d'
    · subst hc
      have hne := h.first p hp
      simp only [Code.braceDelta]
      simp
      omega
    · simp only [Code.braceDelta, hc]
      split <;> simp <;> omega

/-- In front of the first opening brace no brace counts. -/
theorem OpensFirst.braceDelta_eq_zero (h : OpensFirst s) {t : Text} (hs : s = before ++ '\x7b' :: t)
    (hopen : '\x7b' ∉ before) : Code.braceDelta before = 0 := by
  have hbefore : s.takeWhile (· != '\x7b') = before := by
    rw [hs, List.takeWhile_append_of_pos, List.takeWhile_cons_of_neg (by simp), List.append_nil]
    intro c hc
    simpa using ne_of_mem_of_not_mem hc hopen
  have hclose := h (by simp [hs])
  rw [hbefore] at hclose
  exact Code.braceDelta_of_not_mem hopen hclose

/-- When a fresh scan ends. -/
theorem fresh_ends_iff {p : Text} {c : Char} :
    (Counters.after {} p).Ends c ↔
      c = ';' ∧ '\x7b' ∉ p ∧ parenDelta p ≤ 0 ∨
        c = '\x7d' ∧ '\x7b' ∈ p ∧ Code.braceDelta p = 1 := by
  rw [Counters.after_eq, Counters.Ends]
  simp

theorem EndsBodyless.runsOver (h : EndsBodyless s before after) :
    Counters.RunsOver {} before ∧ (Counters.after {} before).Ends ';' := by
  refine ⟨fun p c t hp hend => ?_, fresh_ends_iff.mpr (.inl ⟨rfl, h.unopened, h.outside⟩)⟩
  have hopen : '\x7b' ∉ p := fun hmem => h.unopened (by simp [hp, hmem])
  rcases fresh_ends_iff.mp hend with ⟨rfl, -, hparens⟩ | ⟨rfl, hmem, -⟩
  · have hpositive := h.first p ⟨t, by simp [hp]⟩
    omega
  · exact hopen hmem

/-- A place where a fresh scan ends shows one of the two ends that a declaration may have. -/
theorem exists_of_ends (hfirst : OpensFirst s) {p t : Text} {c : Char} (hs : s = p ++ c :: t)
    (hend : (Counters.after {} p).Ends c) :
    (∃ before after, EndsBodyless s before after) ∨
      ∃ before q, p = before ++ '\x7b' :: q ∧ '\x7b' ∉ before ∧ c = '\x7d' ∧
        Code.braceDelta q = 0 := by
  rcases fresh_ends_iff.mp hend with ⟨rfl, hopen, hparens⟩ | ⟨rfl, hopen, hdepth⟩
  · exact .inl (exists_endsBodyless hs hopen hparens)
  · obtain ⟨before, q, rfl, hbefore⟩ := List.eq_append_cons_of_mem hopen
    have hzero := hfirst.braceDelta_eq_zero (t := q ++ '\x7d' :: t) (by simp [hs]) hbefore
    rw [Code.braceDelta_append, hzero, Code.braceDelta] at hdepth
    refine .inr ⟨before, q, rfl, hbefore, rfl, ?_⟩
    simp at hdepth
    omega

theorem Encloses.runsOver (h : Encloses s before inner after) (hfirst : OpensFirst s)
    (hbodied : ∀ before after, ¬ EndsBodyless s before after) :
    Counters.RunsOver {} (before ++ '\x7b' :: inner) ∧
      (Counters.after {} (before ++ '\x7b' :: inner)).Ends '\x7d' := by
  have hzero := hfirst.braceDelta_eq_zero (t := inner ++ '\x7d' :: after) (by simp [h.split_eq])
    h.unopened
  refine ⟨fun p c t hp hend => ?_, fresh_ends_iff.mpr (.inr ⟨rfl, by simp, ?_⟩)⟩
  · have hs : s = p ++ c :: (t ++ '\x7d' :: after) := by simp [h.split_eq, hp]
    rcases exists_of_ends hfirst hs hend with ⟨before', after', hends⟩ |
      ⟨before', q, rfl, hopen, rfl, hq⟩
    · exact hbodied before' after' hends
    · -- Both texts are cut in front of their first opening brace.
      rw [List.append_assoc, List.cons_append] at hp
      have hcut := congrArg (Text.cut (· == '\x7b')) hp
      rw [Text.cut_append h.unopened, Text.cut_append hopen] at hcut
      obtain ⟨-, hinner⟩ := Prod.mk.inj hcut
      exact h.first q ⟨t, by simp [(List.cons.inj hinner).2]⟩ hq
  · rw [Code.braceDelta_append, hzero, Code.braceDelta, h.balanced]
    simp

/-- If a declaration ends in neither way, the scan runs over all of the code. -/
theorem runsOver_of_unfinished (hfirst : OpensFirst s)
    (hbodied : ∀ before after, ¬ EndsBodyless s before after)
    (hopen : ∀ before inner after, ¬ Encloses s before inner after) : Counters.RunsOver {} s := by
  intro p c t hs hend
  rcases exists_of_ends hfirst hs hend with ⟨before, after, hends⟩ |
    ⟨before, q, rfl, hbefore, rfl, hq⟩
  · exact hbodied before after hends
  · obtain ⟨inner, after, hencloses⟩ := exists_encloses hs hbefore hq
    exact hopen before inner after hencloses

end Reference

/-- The code from a line on, line by line, and as one text. -/
def codeFrom (lines : List Text) (start : Nat) : List Text := codeLines (lines.drop start)

def joinedFrom (lines : List Text) (start : Nat) : Text := Text.join ['\n'] (codeFrom lines start)

/-- The line on which a place of the joined code lies. -/
def lineAt (lines : List Text) (start : Nat) (before : Text) : Nat :=
  start + Text.lineOf (codeFrom lines start) before.length

/-- What the scan finds, told from the joined code alone. -/
structure Finds (lines : List Text) (start : Nat) (b : Body) : Prop where
  /-- A semicolon that ends a declaration without a body. -/
  bodyless : ∀ before after, EndsBodyless (joinedFrom lines start) before after →
    b.hasBody = false ∧ b.code = [] ∧ b.last = lineAt lines start before
  /-- A body between two braces that match. -/
  body : (∀ before after, ¬ EndsBodyless (joinedFrom lines start) before after) →
    ∀ before inner after, Encloses (joinedFrom lines start) before inner after →
      b.hasBody = true ∧ b.last = lineAt lines start (before ++ '\x7b' :: inner) ∧
        lineAt lines start before ≤ b.last ∧
        b.code.map Prod.fst =
          List.range' (lineAt lines start before) (b.last + 1 - lineAt lines start before) ∧
        Text.join ['\n'] (b.code.map Prod.snd) = inner ∧
        (∀ p, p <+: inner → 0 ≤ Code.braceDelta p) ∧ Code.braceDelta inner = 0
  /-- Neither of them. -/
  unfinished : (∀ before after, ¬ EndsBodyless (joinedFrom lines start) before after) →
    (∀ before inner after, ¬ Encloses (joinedFrom lines start) before inner after) →
      b.hasBody = decide ('\x7b' ∈ joinedFrom lines start) ∧ b.last = max start (lines.length - 1)
  start_le_last : start ≤ b.last
  /-- Where the scan has ended, what follows has no influence. -/
  localized : (∃ before after, EndsBodyless (joinedFrom lines start) before after) ∨
      (∃ before inner after, Encloses (joinedFrom lines start) before inner after) →
    ∀ other : List Text, (∀ i, start ≤ i → i ≤ b.last → other[i]? = lines[i]?) →
      scan other start = b

section Scan

variable {lines : List Text} {start : Nat} {before inner after : Text}

theorem scan_eq (lines : List Text) (start : Nat) :
    scan lines start =
      { start
        last := (scanCodes start {} (codeFrom lines start)).2.2.getD (max (lines.length - 1) start)
        hasBody := (scanCodes start {} (codeFrom lines start)).1
        code := (scanCodes start {} (codeFrom lines start)).2.1 } := by
  rw [scan, scanLines_eq]
  rfl

/-- The scan of a file whose code ends it at a character. -/
theorem scan_of_ends {front : List Text} {a b : Text} {back : List Text} {c : Char}
    (hcode : codeFrom lines start = front ++ (a ++ c :: b) :: back)
    (hrun : Counters.RunsOver {} (Text.join ['\n'] (front ++ [a])))
    (hend : (Counters.after {} (Text.join ['\n'] (front ++ [a]))).Ends c) :
    scan lines start =
      { start, last := start + front.length, hasBody := c != ';'
        code := entries start false (front ++ [a]) } := by
  rw [scan_eq, hcode, scanCodes_of_ends start hrun hend]
  rfl

/-- Files that agree from the start up to the line on which the scan ends are scanned alike. -/
theorem scan_congr {front : List Text} {a b : Text} {back : List Text} {c : Char}
    (hcode : codeFrom lines start = front ++ (a ++ c :: b) :: back)
    (hrun : Counters.RunsOver {} (Text.join ['\n'] (front ++ [a])))
    (hend : (Counters.after {} (Text.join ['\n'] (front ++ [a]))).Ends c) {other : List Text}
    (hagree : ∀ i, start ≤ i → i ≤ start + front.length → other[i]? = lines[i]?) :
    scan other start = scan lines start := by
  have htake : (other.drop start).take (front.length + 1) =
      (lines.drop start).take (front.length + 1) := by
    apply List.ext_getElem?
    intro i
    by_cases hi : i < front.length + 1
    · simp [hi, hagree (start + i) (by omega) (by omega)]
    · rw [List.getElem?_take, List.getElem?_take, if_neg hi, if_neg hi]
  have hcodes (ls : List Text) : codeFrom ls start =
      codeLines ((ls.drop start).take (front.length + 1)) ++
        (Scrubber.after {} ((ls.drop start).take (front.length + 1))).codes
          ((ls.drop start).drop (front.length + 1)) := by
    have happend := Scrubber.codes_append {} ((ls.drop start).take (front.length + 1))
      ((ls.drop start).drop (front.length + 1))
    rwa [List.take_append_drop] at happend
  have hlines : codeLines ((lines.drop start).take (front.length + 1)) =
      front ++ [a ++ c :: b] := by
    have hall : (codeFrom lines start).length = (lines.drop start).length :=
      Scrubber.codes_length {} _
    have htaken : (codeLines ((lines.drop start).take (front.length + 1))).length =
        ((lines.drop start).take (front.length + 1)).length := Scrubber.codes_length {} _
    rw [hcode, List.length_append, List.length_cons] at hall
    have hlength : (codeLines ((lines.drop start).take (front.length + 1))).length =
        (front ++ [a ++ c :: b]).length := by
      rw [htaken, List.length_take, List.length_append, List.length_singleton]
      omega
    have hsplit : front ++ [a ++ c :: b] ++ back = _ :=
      (by simp : front ++ [a ++ c :: b] ++ back = _).trans (hcode.symm.trans (hcodes lines))
    exact (List.append_inj hsplit hlength.symm).1.symm
  obtain ⟨back', hother⟩ : ∃ back', codeFrom other start = front ++ (a ++ c :: b) :: back' :=
    ⟨_, by rw [hcodes other, htake, hlines, List.append_assoc]; rfl⟩
  rw [scan_of_ends hother hrun hend, scan_of_ends hcode hrun hend]

/-- The code is cut at the character that ends the scan. -/
theorem exists_end {s t : Text} {c : Char} (hc : c ≠ '\n')
    (hsplit : joinedFrom lines start = s ++ c :: t) :
    ∃ front a b back, codeFrom lines start = front ++ (a ++ c :: b) :: back ∧
      s = Text.join ['\n'] (front ++ [a]) ∧ lineAt lines start s = start + front.length := by
  obtain ⟨front, a, b, back, hcode, rfl, -⟩ := Text.exists_split_of_join hc hsplit
  exact ⟨front, a, b, back, hcode, rfl, by rw [lineAt, hcode, Text.lineOf_join]⟩

theorem scan_of_endsBodyless (h : EndsBodyless (joinedFrom lines start) before after) :
    scan lines start =
        { start, last := lineAt lines start before, hasBody := false, code := [] } ∧
      ∀ other : List Text, (∀ i, start ≤ i → i ≤ lineAt lines start before →
        other[i]? = lines[i]?) → scan other start = scan lines start := by
  obtain ⟨hrun, hend⟩ := h.runsOver
  obtain ⟨front, a, b, back, hcode, rfl, hline⟩ := exists_end (by decide) h.split_eq
  have hentries : entries start false (front ++ [a]) = [] :=
    entries_of_not_mem start fun _ hline hmem => h.unopened (Text.mem_join_of_mem hline hmem)
  rw [hline]
  refine ⟨?_, fun other hagree => scan_congr hcode hrun hend hagree⟩
  rw [scan_of_ends hcode hrun hend, hentries]
  rfl

/-- The entries of a body: the numbers of its lines, and its text. -/
theorem entries_body {front : List Text} {a b : Text} {back : List Text}
    (hcode : codeFrom lines start = front ++ (a ++ b) :: back) (hopen : '\x7b' ∉ before)
    (hbody : before ++ '\x7b' :: inner = Text.join ['\n'] (front ++ [a])) :
    lineAt lines start before ≤ start + front.length ∧
      (entries start false (front ++ [a])).map Prod.fst = List.range' (lineAt lines start before)
        (start + front.length + 1 - lineAt lines start before) ∧
      Text.join ['\n'] ((entries start false (front ++ [a])).map Prod.snd) = inner := by
  obtain ⟨front', a', b', back', hfront, rfl, rfl⟩ :=
    Text.exists_split_of_join (by decide) hbody.symm
  have hlength := congrArg List.length hfront
  simp only [List.length_append, List.length_cons, List.length_nil] at hlength
  have hline : lineAt lines start (Text.join ['\n'] (front' ++ [a'])) = start + front'.length := by
    have hle : (Text.join ['\n'] (front' ++ [a'])).length ≤
        (Text.join ['\n'] (front ++ [a])).length := by
      rw [← hbody, List.length_append]
      omega
    rw [lineAt, hcode, Text.lineOf_append hle, hfront, Text.lineOf_join]
  rw [hline, hfront, entries_append_brace start hopen, map_fst_numbered, map_snd_numbered]
  refine ⟨by omega, ?_, rfl⟩
  congr 1
  simp only [List.length_cons]
  omega

theorem scan_of_encloses (hfirst : OpensFirst (joinedFrom lines start))
    (hbodied : ∀ before after, ¬ EndsBodyless (joinedFrom lines start) before after)
    (h : Encloses (joinedFrom lines start) before inner after) :
    (∃ code, scan lines start =
        { start, last := lineAt lines start (before ++ '\x7b' :: inner), hasBody := true, code } ∧
      lineAt lines start before ≤ lineAt lines start (before ++ '\x7b' :: inner) ∧
      code.map Prod.fst = List.range' (lineAt lines start before)
        (lineAt lines start (before ++ '\x7b' :: inner) + 1 - lineAt lines start before) ∧
      Text.join ['\n'] (code.map Prod.snd) = inner) ∧
      ∀ other : List Text, (∀ i, start ≤ i → i ≤ lineAt lines start (before ++ '\x7b' :: inner) →
        other[i]? = lines[i]?) → scan other start = scan lines start := by
  obtain ⟨hrun, hend⟩ := h.runsOver hfirst hbodied
  obtain ⟨front, a, b, back, hcode, hbody, hline⟩ := exists_end (by decide) h.split_eq
  rw [hline]
  rw [hbody] at hrun hend
  exact ⟨⟨_, scan_of_ends hcode hrun hend, entries_body hcode h.unopened hbody⟩,
    fun other hagree => scan_congr hcode hrun hend hagree⟩

theorem scan_of_unfinished (hfirst : OpensFirst (joinedFrom lines start))
    (hbodied : ∀ before after, ¬ EndsBodyless (joinedFrom lines start) before after)
    (hopen : ∀ before inner after, ¬ Encloses (joinedFrom lines start) before inner after) :
    (scan lines start).hasBody = decide ('\x7b' ∈ joinedFrom lines start) ∧
      (scan lines start).last = max start (lines.length - 1) := by
  have hrun := runsOver_of_unfinished hfirst hbodied hopen
  rw [scan_eq, scanCodes_of_runsOver start hrun, Counters.after_eq, Nat.max_comm]
  refine ⟨Bool.eq_iff_iff.mpr ?_, rfl⟩
  rw [decide_eq_true_iff]
  simp [joinedFrom]

/-- Where the scan has ended, what follows has no influence. -/
theorem scan_local (hfirst : OpensFirst (joinedFrom lines start))
    (h : (∃ before after, EndsBodyless (joinedFrom lines start) before after) ∨
      ∃ before inner after, Encloses (joinedFrom lines start) before inner after) :
    start ≤ (scan lines start).last ∧
      ∀ other : List Text, (∀ i, start ≤ i → i ≤ (scan lines start).last →
        other[i]? = lines[i]?) → scan other start = scan lines start := by
  by_cases hbodied : ∃ before after, EndsBodyless (joinedFrom lines start) before after
  · obtain ⟨before, after, hends⟩ := hbodied
    obtain ⟨hscan, hlocal⟩ := scan_of_endsBodyless hends
    have hlast : (scan lines start).last = lineAt lines start before := by rw [hscan]
    rw [hlast]
    exact ⟨Nat.le_add_right _ _, hlocal⟩
  · obtain ⟨before, inner, after, hencloses⟩ := h.resolve_left hbodied
    obtain ⟨⟨code, hscan, -⟩, hlocal⟩ :=
      scan_of_encloses hfirst (fun before after h => hbodied ⟨before, after, h⟩) hencloses
    have hlast : (scan lines start).last = lineAt lines start (before ++ '\x7b' :: inner) := by
      rw [hscan]
    rw [hlast]
    exact ⟨Nat.le_add_right _ _, hlocal⟩

/-- The scan finds the body that the braces of the code enclose, and nothing else, in every
file in which no closing brace comes before the first opening one. -/
theorem scan_finds_enclosed (lines : List Text) (start : Nat)
    (hfirst : OpensFirst (joinedFrom lines start)) : Finds lines start (scan lines start) where
  bodyless before after h := by
    obtain ⟨hscan, -⟩ := scan_of_endsBodyless h
    exact ⟨by rw [hscan], by rw [hscan], by rw [hscan]⟩
  body hbodied before inner after h := by
    obtain ⟨⟨code, hscan, hle, hnumbers, htext⟩, -⟩ := scan_of_encloses hfirst hbodied h
    rw [hscan]
    exact ⟨rfl, rfl, hle, hnumbers, htext, fun p hp => h.braceDelta_nonneg hp, h.balanced⟩
  unfinished hbodied hopen := scan_of_unfinished hfirst hbodied hopen
  start_le_last := by
    by_cases h : (∃ before after, EndsBodyless (joinedFrom lines start) before after) ∨
        ∃ before inner after, Encloses (joinedFrom lines start) before inner after
    · exact (scan_local hfirst h).1
    · simp only [not_or, not_exists] at h
      have hlast := (scan_of_unfinished hfirst h.1 h.2).2
      omega
  localized h := (scan_local hfirst h).2

end Scan

/-- A brace in a default, one in a comment, and a body with braces in it; the file starts with
a brace that belongs to something else. -/
def bodyLines : List Text :=
  ["\x7d", "function f($x = '\x7d')", "\x7b // \x7b", "  if ($x) \x7b g(); \x7d",
    "\x7d return;"].map String.toList

theorem encloses_bodyLines : Encloses (joinedFrom bodyLines 1) "function f($x = '')\n".toList
    " \n  if ($x) \x7b g(); \x7d\n".toList " return;".toList where
  split_eq := by decide
  unopened := by decide
  balanced := by decide
  first p hp := by
    have hall : ∀ p ∈ (" \n  if ($x) \x7b g(); \x7d\n".toList).inits,
        p ++ ['\x7d'] <+: " \n  if ($x) \x7b g(); \x7d\n".toList → Code.braceDelta p ≠ 0 := by
      decide +kernel
    exact hall p (List.mem_inits p _ |>.mpr ((List.prefix_append p _).trans hp)) hp

theorem scan_finds_enclosed_nested :
    OpensFirst (joinedFrom bodyLines 1) ∧ (scan bodyLines 1).last = 4 ∧
      ∀ other : List Text, (∀ i, 1 ≤ i → i ≤ 4 → other[i]? = bodyLines[i]?) →
        scan other 1 = scan bodyLines 1 := by
  have hfirst : OpensFirst (joinedFrom bodyLines 1) := by
    unfold OpensFirst
    decide
  have hlast : (scan bodyLines 1).last = 4 := by decide
  have hfinds := scan_finds_enclosed bodyLines 1 hfirst
  refine ⟨hfirst, hlast, fun other hagree => ?_⟩
  refine hfinds.localized (.inr ⟨_, _, _, encloses_bodyLines⟩) other ?_
  rwa [hlast]

end PhpLint.Body
