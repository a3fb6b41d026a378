import PhpLint.Proofs.LogicalLine.Tiling

/-!
The reader of logical lines one physical line at a time, over the lines that two files have
in common, and at the boundary between two logical lines. Nothing is held back there, so
what is left of the file is read as a file of its own, except for the number of its first
line and for the mode in which the scrubbers reach it.
-/

namespace PhpLint.LogicalLine

/-- The line at which the reader looks ahead: the first one that is not blank. -/
def nextLine (rest : List Text) : Option Text := rest.find? fun l => !(Text.trim l).isEmpty

/-- The logical line that a physical line makes up on its own. -/
def single (number : Nat) (coder texter : Scrubber) (raw : Text) : LogicalLine where
  first := number
  last := number
  text := (texter.scrub raw).1
  code := (coder.scrub raw).1
  braceDelta := Code.braceDelta (coder.scrub raw).1
  continues := coder.inComment || coder.inLiteral

theorem ofLinesFrom_single (number : Nat) (coder texter : Scrubber) (raw : Text)
    (rest : List Text) :
    ofLinesFrom number coder texter none (raw :: rest) =
      match if (single number coder texter raw).continues then none
        else pending? (single number coder texter raw) (nextLine rest) with
      | some kind =>
        ofLinesFrom (number + 1) (coder.scrub raw).2 (texter.scrub raw).2
          (some (.start kind (single number coder texter raw))) rest
      | none =>
        single number coder texter raw ::
          ofLinesFrom (number + 1) (coder.scrub raw).2 (texter.scrub raw).2 none rest := by
  rw [ofLinesFrom]
  rfl

theorem ofLinesFrom_push (number : Nat) (coder texter : Scrubber) (b : Buffer) (raw : Text)
    (rest : List Text) :
    ofLinesFrom number coder texter (some b) (raw :: rest) =
      if (b.push number (texter.scrub raw).1 (coder.scrub raw).1).isComplete (coder.scrub raw).1
          (nextLine rest) then
        (b.push number (texter.scrub raw).1 (coder.scrub raw).1).line ::
          ofLinesFrom (number + 1) (coder.scrub raw).2 (texter.scrub raw).2 none rest
      else
        ofLinesFrom (number + 1) (coder.scrub raw).2 (texter.scrub raw).2
          (some (b.push number (texter.scrub raw).1 (coder.scrub raw).1)) rest := by
  rw [ofLinesFrom]
  rfl

theorem pending?_congr (line : LogicalLine) {next next' : Option Text}
    (h : startsReturnType next = startsReturnType next') :
    pending? line next = pending? line next' := by
  unfold pending?
  rw [h]

theorem Buffer.isComplete_congr (b : Buffer) (code : Text) {next next' : Option Text}
    (h : startsReturnType next = startsReturnType next') :
    b.isComplete code next = b.isComplete code next' := by
  unfold Buffer.isComplete
  rw [h]

/-- What comes of one physical line depends on those behind it only as far as one looks
ahead for a result type. -/
theorem ofLinesFrom_step (number : Nat) (coder texter : Scrubber) (buffer : Option Buffer)
    (raw : Text) (rest : List Text) :
    ∃ passed held,
      ((∀ b ∈ buffer, b.line.first < number) →
        (∀ l ∈ passed, l.first ≤ number) ∧ ∀ b ∈ held, b.line.first ≤ number) ∧
      ∀ rest', startsReturnType (nextLine rest') = startsReturnType (nextLine rest) →
        ofLinesFrom number coder texter buffer (raw :: rest') =
          passed ++ ofLinesFrom (number + 1) (coder.scrub raw).2 (texter.scrub raw).2 held
            rest' := by
  cases buffer with
  | some b =>
    have hfirst (h : ∀ x ∈ some b, x.line.first < number) :
        (b.push number (texter.scrub raw).1 (coder.scrub raw).1).line.first ≤ number :=
      Nat.le_of_lt (h b rfl)
    by_cases hcomplete : (b.push number (texter.scrub raw).1 (coder.scrub raw).1).isComplete
        (coder.scrub raw).1 (nextLine rest) = true
    · refine ⟨[_], none, fun h => ⟨List.forall_mem_singleton.mpr (hfirst h), by simp⟩,
        fun rest' hlook => ?_⟩
      rw [ofLinesFrom_push, Buffer.isComplete_congr _ _ hlook, if_pos hcomplete]
      rfl
    · refine ⟨[], some _, fun h => ⟨by simp, fun x hx => Option.some.inj hx ▸ hfirst h⟩,
        fun rest' hlook => ?_⟩
      rw [ofLinesFrom_push, Buffer.isComplete_congr _ _ hlook, if_neg hcomplete]
      rfl
  | none =>
    cases hpending : if (single number coder texter raw).continues then none
        else pending? (single number coder texter raw) (nextLine rest) with
    | some kind =>
      have hfirst : (Buffer.start kind (single number coder texter raw)).line.first ≤ number :=
        Nat.le_refl number
      refine ⟨[], some _, fun _ => ⟨by simp, fun x hx => Option.some.inj hx ▸ hfirst⟩,
        fun rest' hlook => ?_⟩
      rw [ofLinesFrom_single, pending?_congr _ hlook, hpending]
      rfl
    | none =>
      have hfirst : (single number coder texter raw).first ≤ number := Nat.le_refl number
      refine ⟨[_], none, fun _ => ⟨List.forall_mem_singleton.mpr hfirst, by simp⟩,
        fun rest' hlook => ?_⟩
      rw [ofLinesFrom_single, pending?_congr _ hlook, hpending]
      rfl

/-- Of lines that two files have in common the same comes, if looking ahead from them finds
no difference in what stands behind them. -/
theorem ofLinesFrom_common {rest rest' : List Text}
    (hlook : ∀ before, startsReturnType (nextLine (before ++ rest')) =
      startsReturnType (nextLine (before ++ rest)))
    (before : List Text) (number : Nat) (coder texter : Scrubber) (buffer : Option Buffer) :
    ∃ passed held,
      ((∀ b ∈ buffer, b.line.first < number) →
        (∀ l ∈ passed, l.first < number + before.length) ∧
          ∀ b ∈ held, b.line.first < number + before.length) ∧
      ofLinesFrom number coder texter buffer (before ++ rest) =
        passed ++ ofLinesFrom (number + before.length) (coder.after before) (texter.after before)
          held rest ∧
      ofLinesFrom number coder texter buffer (before ++ rest') =
        passed ++ ofLinesFrom (number + before.length) (coder.after before) (texter.after before)
          held rest' := by
  induction before generalizing number coder texter buffer with
  | nil => exact ⟨[], buffer, fun h => ⟨by simp, h⟩, rfl, rfl⟩
  | cons raw before ih =>
    obtain ⟨passed, held, hfirst, hread⟩ :=
      ofLinesFrom_step number coder texter buffer raw (before ++ rest)
    obtain ⟨more, held', hmore, hrest, hrest'⟩ :=
      ih (number + 1) (coder.scrub raw).2 (texter.scrub raw).2 held
    have hlength : number + (raw :: before).length = number + 1 + before.length := by
      rw [List.length_cons]
      omega
    refine ⟨passed ++ more, held', fun hbuffer => ?_, ?_, ?_⟩
    · obtain ⟨hpassed, hheld⟩ := hfirst hbuffer
      obtain ⟨hmore, hheld'⟩ := hmore fun b hb => Nat.lt_succ_of_le (hheld b hb)
      rw [hlength]
      refine ⟨List.forall_mem_append.mpr ⟨fun l hl => ?_, hmore⟩, hheld'⟩
      have hle := hpassed l hl
      omega
    · rw [List.cons_append, hread _ rfl, hrest, hlength, List.append_assoc, Scrubber.after_cons,
        Scrubber.after_cons]
    · rw [List.cons_append, hread _ (hlook before), hrest', hlength, List.append_assoc,
        Scrubber.after_cons, Scrubber.after_cons]

/-- A logical line that is not the first stands at the start of some physical lines, and
from them on the reader starts afresh. -/
theorem ofLinesFrom_split {buffer : Option Buffer} {number : Nat} {coder texter : Scrubber}
    {raw : List Text} {passed rest : List LogicalLine} {line : LogicalLine}
    (h : ofLinesFrom number coder texter buffer raw = passed ++ line :: rest)
    (hstart : passed = [] → buffer = none) :
    ∃ before left, raw = before ++ left ∧
      ofLinesFrom (number + before.length) (coder.after before) (texter.after before) none left =
        line :: rest := by
  induction raw generalizing buffer number coder texter passed with
  | nil =>
    have hlength := congrArg List.length h
    simp only [ofLinesFrom, List.length_append, List.length_cons] at hlength
    cases buffer with
    | none => simp at hlength
    | some b =>
      cases passed with
      | nil => simp at hstart
      | cons p passed => simp at hlength; omega
  | cons text raw ih =>
    -- The line itself starts here, or the text belongs to what is passed.
    by_cases hpassed : passed = []
    · obtain rfl := hpassed
      obtain rfl := hstart rfl
      exact ⟨[], text :: raw, rfl, h⟩
    · obtain ⟨p, passed, rfl⟩ := List.exists_cons_of_ne_nil hpassed
      have hstep : ∃ buffer' passed', (passed' = [] → buffer' = none) ∧
          ofLinesFrom (number + 1) (coder.scrub text).2 (texter.scrub text).2 buffer' raw =
            passed' ++ line :: rest := by
        rw [ofLinesFrom] at h
        cases buffer with
        | some b =>
          simp only at h
          split at h
          · exact ⟨none, passed, fun _ => rfl, (List.cons.inj h).2⟩
          · exact ⟨_, p :: passed, by simp, h⟩
        | none =>
          simp only at h
          split at h
          · exact ⟨_, p :: passed, by simp, h⟩
          · exact ⟨none, passed, fun _ => rfl, (List.cons.inj h).2⟩
      obtain ⟨buffer', passed', hstart', h'⟩ := hstep
      obtain ⟨before, left, rfl, hleft⟩ := ih h' hstart'
      refine ⟨text :: before, left, rfl, ?_⟩
      rw [List.length_cons, Nat.add_comm before.length 1, ← Nat.add_assoc]
      exact hleft

theorem ofLines_split {lines : List Text} {passed rest : List LogicalLine} {line : LogicalLine}
    (h : ofLines lines = passed ++ line :: rest) :
    ∃ before left, lines = before ++ left ∧
      line.first = before.length + 1 ∧
      line.continues = ((({} : Scrubber).after before).inComment ||
        (({} : Scrubber).after before).inLiteral) ∧
      ofLinesFrom line.first (({} : Scrubber).after before) (({} : Scrubber).after before).keeping
        none left = line :: rest := by
  obtain ⟨before, left, hlines, hleft⟩ := ofLinesFrom_split h (fun _ => rfl)
  have hnone : Held none (1 + before.length) (({} : Scrubber).after before) [] := rfl
  have hcuts := @cuts_ofLinesFrom none _ _ (({} : Scrubber).after before).keeping _ hnone left
  have hkeeping : ({ keepLiterals := true } : Scrubber).after before =
      (({} : Scrubber).after before).keeping :=
    Scrubber.after_keeping (s := {}) rfl before
  rw [hkeeping] at hleft
  simp only [Scrubber.after_nil, List.length_nil, Nat.add_zero, List.nil_append, hleft] at hcuts
  obtain ⟨hfirst, hcontinues⟩ : line.first = 1 + before.length ∧
      line.continues = ((({} : Scrubber).after before).inComment ||
        (({} : Scrubber).after before).inLiteral) := by
    cases hcuts with
    | cons hline _ => exact ⟨hline.first_eq, hline.continues_eq⟩
  exact ⟨before, left, hlines, by omega, hcontinues, hfirst ▸ hleft⟩

/-- A logical line that starts in plain code is the first one of what is left of the
file from there on, read by fresh scrubbers. -/
theorem ofLines_split_plain {lines : List Text} {passed rest : List LogicalLine}
    {line : LogicalLine} (h : ofLines lines = passed ++ line :: rest)
    (hplain : line.continues = false) :
    ∃ before left, lines = before ++ left ∧ line.first = before.length + 1 ∧
      ofLinesFrom line.first {} { keepLiterals := true } none left = line :: rest := by
  obtain ⟨before, left, hlines, hfirst, hcontinues, hleft⟩ := ofLines_split h
  have hfresh : ({} : Scrubber).after before = {} :=
    Scrubber.eq_fresh (Scrubber.after_keepLiterals _ before) (hcontinues ▸ hplain)
  rw [hfresh] at hleft
  exact ⟨before, left, hlines, hfirst, hleft⟩

end PhpLint.LogicalLine
