import PhpLint.Proofs.Code.Body
import PhpLint.Proofs.Text.Basic

/-!
The scan of a body as a run of its counters over the code. While no character ends the
scan, the counters are sums over the text that has been passed, and what is kept is the
text behind the first opening brace. The scan of lines is the scan of their joined code:
a line break counts nothing, and the line on which the scan ends is the one that holds
the character that ends it.
-/

namespace PhpLint.Body

/-- Opening minus closing parentheses. -/
def parenDelta (s : Text) : Int := (s.count '(' : Int) - (s.count ')' : Int)

namespace Counters

/-- The counters after a text in which nothing ends the scan. -/
def after (k : Counters) (s : Text) : Counters := s.foldl step k

/-- Whether a character ends the scan. -/
def Ends (k : Counters) (c : Char) : Prop :=
  c = ';' ∧ k.opened = false ∧ k.parens ≤ 0 ∨ c = '\x7d' ∧ k.opened = true ∧ k.depth = 1

/-- No character of a text ends the scan. -/
def RunsOver (k : Counters) (s : Text) : Prop :=
  ∀ p c t, s = p ++ c :: t → ¬ (k.after p).Ends c

variable {k : Counters} {s t : Text} {c : Char}

@[simp] theorem after_nil (k : Counters) : k.after [] = k := rfl

@[simp] theorem after_cons (k : Counters) (c : Char) (s : Text) :
    k.after (c :: s) = (k.step c).after s := rfl

theorem after_append (k : Counters) (s t : Text) : k.after (s ++ t) = (k.after s).after t :=
  List.foldl_append

theorem step_eq (k : Counters) (c : Char) :
    k.step c =
      { depth := k.depth + Code.braceDelta [c], parens := k.parens + parenDelta [c]
        opened := k.opened || c == '\x7b' } := by
  unfold step
  split
  · simp [Code.braceDelta, parenDelta]
  · simp [Code.braceDelta, parenDelta]
    rfl
  · simp [Code.braceDelta, parenDelta]
  · simp [Code.braceDelta, parenDelta]
    rfl
  · rename_i hleft hright hopen hclose
    have hneither : c ≠ '(' ∧ c ≠ ')' ∧ c ≠ '\x7b' ∧ c ≠ '\x7d' := ⟨hleft, hright, hopen, hclose⟩
    have hopened : (c == '\x7b') = false := beq_eq_false_iff_ne.mpr hopen
    simp [Code.braceDelta, parenDelta, hneither, hopened]

theorem after_eq (k : Counters) (s : Text) :
    k.after s =
      { depth := k.depth + Code.braceDelta s, parens := k.parens + parenDelta s
        opened := k.opened || s.contains '\x7b' } := by
  induction s generalizing k with
  | nil => simp [Code.braceDelta, parenDelta]
  | cons c s ih =>
    have hdepth : Code.braceDelta (c :: s) = Code.braceDelta [c] + Code.braceDelta s :=
      Code.braceDelta_append [c] s
    have hparens : parenDelta (c :: s) = parenDelta [c] + parenDelta s := by
      simp only [parenDelta, List.count_cons, List.count_nil]
      omega
    rw [after_cons, ih, step_eq, hdepth, hparens, ← Int.add_assoc, ← Int.add_assoc, Bool.or_assoc,
      List.contains_cons, Bool.beq_comm]

theorem RunsOver.of_append (h : k.RunsOver (s ++ t)) : k.RunsOver s := by
  intro p c u hs
  exact h p c (u ++ t) (by simp [hs])

theorem RunsOver.cons_iff : k.RunsOver (c :: s) ↔ ¬ k.Ends c ∧ (k.step c).RunsOver s := by
  constructor
  · intro h
    refine ⟨h [] c s rfl, fun p d t hs => ?_⟩
    exact h (c :: p) d t (by simp [hs])
  · rintro ⟨hc, hs⟩ p d t heq
    cases p with
    | nil =>
      obtain ⟨rfl, rfl⟩ := List.cons.inj heq
      exact hc
    | cons e p =>
      obtain ⟨rfl, rfl⟩ := List.cons.inj heq
      exact hs p d t rfl

theorem RunsOver.append_right (h : k.RunsOver (s ++ t)) : (k.after s).RunsOver t := by
  intro p c u ht
  rw [← after_append]
  exact h (s ++ p) c u (by simp [ht])

end Counters

/-- What is kept of a text: all of it inside a body, else what stands behind the brace that
opens one. -/
def inside : (opened : Bool) → Text → Text
  | true, s => s
  | false, [] => []
  | false, c :: s => inside (c == '\x7b') s

@[simp] theorem inside_true (s : Text) : inside true s = s := by
  cases s <;> rfl

theorem inside_append_brace {s : Text} (h : '\x7b' ∉ s) (t : Text) :
    inside false (s ++ '\x7b' :: t) = t := by
  induction s with
  | nil => simp [inside]
  | cons c s ih =>
    rw [List.mem_cons, not_or] at h
    have hc : (c == '\x7b') = false := by simpa using Ne.symm h.1
    rw [List.cons_append, inside, hc, ih h.2]

/-- Puts a text of the body in front. -/
def LineResult.keepAll (s : Text) (result : LineResult) : LineResult :=
  s.foldr LineResult.keep result

@[simp] theorem LineResult.keepAll_bodyless (s : Text) :
    LineResult.keepAll s .bodyless = .bodyless := by
  induction s with
  | nil => rfl
  | cons c s ih => exact congrArg (LineResult.keep c) ih

@[simp] theorem LineResult.keepAll_closed (s text : Text) :
    LineResult.keepAll s (.closed text) = .closed (s ++ text) := by
  induction s with
  | nil => rfl
  | cons c s ih => exact congrArg (LineResult.keep c) ih

@[simp] theorem LineResult.keepAll_more (s : Text) (k : Counters) (text : Text) :
    LineResult.keepAll s (.more k text) = .more k (s ++ text) := by
  induction s with
  | nil => rfl
  | cons c s ih => exact congrArg (LineResult.keep c) ih

/-- A text over which the scan runs is kept and left behind. -/
theorem scanLine_append {k : Counters} {s : Text} (h : k.RunsOver s) (t : Text) :
    scanLine k (s ++ t) = (scanLine (k.after s) t).keepAll (inside k.opened s) := by
  induction s generalizing k with
  | nil => cases k.opened <;> rfl
  | cons c s ih =>
    obtain ⟨hc, hs⟩ := Counters.RunsOver.cons_iff.mp h
    rw [Counters.Ends, not_or] at hc
    have hopened : (k.step c).opened = (k.opened || c == '\x7b') := by rw [Counters.step_eq]
    rw [List.cons_append, scanLine, if_neg hc.1, if_neg hc.2, ih hs, hopened]
    cases k.opened with
    | true => simp [LineResult.keepAll]
    | false => simp [inside]

theorem scanLine_of_runsOver {k : Counters} {s : Text} (h : k.RunsOver s) :
    scanLine k s = .more (k.after s) (inside k.opened s) := by
  have hscan := scanLine_append h []
  simpa [scanLine] using hscan

/-- The scan ends at a character, and so does what is kept. -/
theorem scanLine_of_ends {k : Counters} {s : Text} {c : Char} (h : k.RunsOver s)
    (hc : (k.after s).Ends c) (t : Text) :
    scanLine k (s ++ c :: t) =
      if c = ';' then .bodyless else .closed (inside k.opened s) := by
  rw [scanLine_append h, scanLine]
  rcases hc with ⟨rfl, hc⟩ | ⟨rfl, hc⟩
  · simp [hc]
  · simp [hc]


/-- Lines with their numbers, from a number on. -/
def numbered (number : Nat) : List Text → List (Nat × Text)
  | [] => []
  | line :: rest => (number, line) :: numbered (number + 1) rest

@[simp] theorem map_fst_numbered (number : Nat) (lines : List Text) :
    (numbered number lines).map Prod.fst = List.range' number lines.length := by
  induction lines generalizing number with
  | nil => rfl
  | cons line lines ih => simp [numbered, ih, List.range'_succ]

@[simp] theorem map_snd_numbered (number : Nat) (lines : List Text) :
    (numbered number lines).map Prod.snd = lines := by
  induction lines generalizing number with
  | nil => rfl
  | cons line lines ih => simp [numbered, ih]

/-- What is kept of the lines of a code, with their numbers. -/
def entries (number : Nat) : (opened : Bool) → List Text → List (Nat × Text)
  | _, [] => []
  | opened, line :: rest =>
    if opened || line.contains '\x7b' then
      (number, inside opened line) :: numbered (number + 1) rest
    else entries (number + 1) false rest

theorem entries_true (number : Nat) (lines : List Text) :
    entries number true lines = numbered number lines := by
  cases lines <;> simp [entries, numbered]

/-- In front of the brace that opens the body nothing is kept. -/
theorem entries_append_brace (number : Nat) {front : List Text} {a : Text}
    (h : '\x7b' ∉ Text.join ['\n'] (front ++ [a])) (b : Text) (back : List Text) :
    entries number false (front ++ (a ++ '\x7b' :: b) :: back) =
      numbered (number + front.length) (b :: back) := by
  induction front generalizing number with
  | nil => simp [entries, numbered, inside_append_brace (s := a) h]
  | cons line front ih =>
    rw [List.cons_append, Text.join_cons, if_neg (by simp), List.mem_append, not_or] at h
    have hmore : '\x7b' ∉ Text.join ['\n'] (front ++ [a]) := fun hmem =>
      h.2 (List.mem_append_right _ hmem)
    have hline : (false || line.contains '\x7b') = false := by simpa using h.1
    rw [List.cons_append, entries, hline, if_neg (by simp), ih (number + 1) hmore,
      List.length_cons, Nat.add_assoc, Nat.add_comm 1]

theorem entries_of_not_mem (number : Nat) {lines : List Text}
    (h : ∀ line ∈ lines, '\x7b' ∉ line) : entries number false lines = [] := by
  induction lines generalizing number with
  | nil => rfl
  | cons line rest ih =>
    rw [List.forall_mem_cons] at h
    simp [entries, h.1, ih (number + 1) h.2]

/-- The scan of lines of code. -/
def scanCodes (number : Nat) (k : Counters) : List Text → Bool × List (Nat × Text) × Option Nat
  | [] => (k.opened, [], none)
  | code :: rest =>
    match scanLine k code with
    | .bodyless => (false, [], some number)
    | .closed text => (true, [(number, text)], some number)
    | .more k text =>
      let (hasBody, code, last) := scanCodes (number + 1) k rest
      (hasBody, if k.opened then (number, text) :: code else code, last)

theorem scanLines_eq (number : Nat) (s : Scrubber) (k : Counters) (lines : List Text) :
    scanLines number s k lines = scanCodes number k (s.codes lines) := by
  induction lines generalizing number s k with
  | nil => rfl
  | cons line lines ih =>
    cases hline : scanLine k (s.scrub line).1 with
    | bodyless | closed text => simp only [Scrubber.codes_cons, scanLines, scanCodes, hline]
    | more k text => simp only [Scrubber.codes_cons, scanLines, scanCodes, hline, ih]

section Lines

variable {k : Counters} {front rest : List Text} {line a : Text} {c : Char}

/-- A line break counts nothing and ends nothing. -/
theorem Counters.step_newline (k : Counters) : k.step '\n' = k := rfl

theorem Counters.after_join (k : Counters) (line : Text) (rest : List Text) :
    k.after (Text.join ['\n'] (line :: rest)) = (k.after line).after (Text.join ['\n'] rest) := by
  rw [Text.join_cons, after_append]
  split
  · rename_i hnil
    rw [hnil]
    rfl
  · rw [List.singleton_append, after_cons, step_newline]

theorem Counters.RunsOver.join (h : k.RunsOver (Text.join ['\n'] (line :: rest))) :
    k.RunsOver line ∧ (k.after line).RunsOver (Text.join ['\n'] rest) := by
  rw [Text.join_cons] at h
  refine ⟨h.of_append, ?_⟩
  have hright := h.append_right
  split at hright
  · rename_i hnil
    rw [hnil]
    exact hright
  · rw [List.singleton_append, cons_iff, step_newline] at hright
    exact hright.2

/-- The entry of a line over which the scan runs. -/
theorem entries_cons (number : Nat) (k : Counters) (line : Text) (rest : List Text) :
    entries number k.opened (line :: rest) =
      if (k.after line).opened then
        (number, inside k.opened line) :: entries (number + 1) (k.after line).opened rest
      else entries (number + 1) (k.after line).opened rest := by
  rw [entries, Counters.after_eq]
  split
  · rename_i hopened
    simp only [hopened, entries_true]
  · rename_i hopened
    rw [Bool.not_eq_true] at hopened
    simp only [hopened]

/-- Nothing in the code ends the scan. -/
theorem scanCodes_of_runsOver (number : Nat) {lines : List Text}
    (h : k.RunsOver (Text.join ['\n'] lines)) :
    scanCodes number k lines =
      ((k.after (Text.join ['\n'] lines)).opened, entries number k.opened lines, none) := by
  induction lines generalizing number k with
  | nil => rfl
  | cons line rest ih =>
    obtain ⟨hline, hrest⟩ := h.join
    rw [scanCodes, scanLine_of_runsOver hline, entries_cons, Counters.after_join]
    simp only [ih (number + 1) hrest]

/-- The scan ends on the line of the first character that ends it. -/
theorem scanCodes_of_ends (number : Nat) (h : k.RunsOver (Text.join ['\n'] (front ++ [a])))
    (hc : (k.after (Text.join ['\n'] (front ++ [a]))).Ends c) (b : Text) (back : List Text) :
    scanCodes number k (front ++ (a ++ c :: b) :: back) =
      (c != ';', entries number k.opened (front ++ [a]), some (number + front.length)) := by
  induction front generalizing number k with
  | nil =>
    have hrun : k.RunsOver a := h
    have hend : (k.after a).Ends c := hc
    have hentry := entries_cons number k a []
    rw [List.nil_append, scanCodes, scanLine_of_ends hrun hend]
    rcases hend with ⟨rfl, hopened, -⟩ | ⟨rfl, hopened, -⟩
    · rw [hopened] at hentry
      simp [hentry, entries]
    · rw [hopened] at hentry
      simp [hentry, entries]
  | cons line front ih =>
    obtain ⟨hline, hrest⟩ := h.join
    rw [List.cons_append, Counters.after_join] at hc
    rw [List.cons_append, List.cons_append, scanCodes, scanLine_of_runsOver hline, entries_cons]
    simp only [ih (number + 1) hrest hc, List.length_cons]
    simp
    omega

end Lines

end PhpLint.Body
