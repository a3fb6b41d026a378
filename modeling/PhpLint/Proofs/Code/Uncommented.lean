import Mathlib.Data.List.Forall2
import PhpLint.Proofs.Code.Enclosed
import PhpLint.Proofs.Code.LineComment

/-!
Texts that a scrubber reads from plain code to plain code without a comment or a heredoc
on the way. It keeps all of such a text, or all but the contents of the quotes; texts of
this kind can be put together, and where their parentheses match, so do those of their
code.
-/

namespace PhpLint.Scrubber

/-- Read in a mode, the text leads to plain code without a comment or a heredoc, and only
the second text is left of it. -/
inductive Uncommented : ScrubMode → Text → Text → Prop where
  | nil : Uncommented .code [] []
  | char {c : Char} {rest code : Text} (hquote : modeAfter c = .code)
      (hopens : opensComment (c :: rest) = false) (h : Uncommented .code rest code) :
      Uncommented .code (c :: rest) (c :: code)
  | opens {q : Char} {rest code : Text} (hquote : q = '\'' ∨ q = '"')
      (h : Uncommented (.literal q) rest code) : Uncommented .code (q :: rest) (q :: code)
  | closes {q : Char} {rest code : Text} (hquote : q = '\'' ∨ q = '"')
      (h : Uncommented .code rest code) : Uncommented (.literal q) (q :: rest) (q :: code)
  | escaped {q c : Char} {rest code : Text} (h : Uncommented (.literal q) rest code) :
      Uncommented (.literal q) ('\\' :: c :: rest) code
  | quoted {q c : Char} {rest code : Text} (hc : c ≠ q ∧ c ≠ '\\')
      (h : Uncommented (.literal q) rest code) : Uncommented (.literal q) (c :: rest) code

namespace Uncommented

variable {mode : ScrubMode} {s t code tcode : Text}

/-- A text starts as before with a comma or a closing parenthesis behind it. -/
theorem opensComment_cons_append {c e : Char} {rest : Text} (he : e ∈ [',', ')'])
    (h : opensComment (c :: rest) = false) (t : Text) :
    opensComment (c :: (rest ++ e :: t)) = false := by
  have hplain : e ∉ ['/', '*', '<'] := by
    rcases List.mem_pair.mp he with rfl | rfl <;> decide
  refine opensComment_append h hplain fun more _ hnone => heredocLabel?_append hnone ?_ ?_
  all_goals rcases List.mem_pair.mp he with rfl | rfl
  all_goals
    intro c hc
    obtain rfl := Option.some.inj hc
    decide

/-- The scrubber opens a literal at a quote. -/
theorem scans_opens {q : Char} {rest kept code : Text} {m : ScrubMode}
    (hquote : q = '\'' ∨ q = '"') (h : Scans (.literal q) rest kept code m) :
    Scans .code (q :: rest) (q :: kept) (q :: code) m := by
  rcases hquote with rfl | rfl <;> exact .char rfl h

theorem scans_closes {q : Char} {rest kept code : Text} {m : ScrubMode}
    (hquote : q = '\'' ∨ q = '"') (h : Scans .code rest kept code m) :
    Scans (.literal q) (q :: rest) (q :: kept) (q :: code) m := by
  refine .closes ?_ h
  rcases hquote with rfl | rfl <;> decide

theorem scans (h : Uncommented mode s code) : Scans mode s s code .code := by
  induction h with
  | nil => exact .nil
  | char hquote hopens h ih => exact .char hopens (hquote ▸ ih)
  | opens hquote h ih => exact scans_opens hquote ih
  | closes hquote h ih => exact scans_closes hquote ih
  | escaped h ih => exact .escaped ih
  | quoted hc h ih => exact .quoted hc ih

theorem scan_eq (h : Uncommented mode s code) (keep : Bool) :
    scan keep mode s = (if keep then s else code, .code) :=
  h.scans.scan_eq keep

/-- Behind such a text, at a comma or a closing parenthesis, a scrubber reads on as in plain
code. -/
theorem scans_append (h : Uncommented mode s code) {e : Char} (he : e ∈ [',', ')'])
    {kept : Text} {m : ScrubMode} (ht : Scans .code (e :: t) kept tcode m) :
    Scans mode (s ++ e :: t) (s ++ kept) (code ++ tcode) m := by
  induction h with
  | nil => exact ht
  | char hquote hopens h ih => exact .char (opensComment_cons_append he hopens t) (hquote ▸ ih)
  | opens hquote h ih => exact scans_opens hquote ih
  | closes hquote h ih => exact scans_closes hquote ih
  | escaped h ih => exact .escaped ih
  | quoted hc h ih => exact .quoted hc ih

theorem scan_append (h : Uncommented mode s code) {e : Char} (he : e ∈ [',', ')']) (keep : Bool)
    (t : Text) :
    scan keep mode (s ++ e :: t) =
      ((if keep then s else code) ++ (scan keep .code (e :: t)).1,
        (scan keep .code (e :: t)).2) := by
  rw [(h.scans_append he (Scrubber.scans .code (e :: t))).scan_eq keep]
  cases keep
  · rfl
  · rw [scan_mode true]
    rfl

theorem of_plain (hs : ∀ c ∈ s, c ∉ ['/', '#', '<', '\'', '"', '`'])
    (ht : Uncommented .code t tcode) : Uncommented .code (s ++ t) (s ++ tcode) := by
  induction s with
  | nil => exact ht
  | cons c s ih =>
    rw [List.forall_mem_cons] at hs
    have hc := hs.1
    simp only [List.mem_cons, List.not_mem_nil, or_false, not_or] at hc
    refine .char ?_ ?_ (ih hs.2)
    · simp [modeAfter, hc]
    · simp [opensComment, hc]

theorem plain (hs : ∀ c ∈ s, c ∉ ['/', '#', '<', '\'', '"', '`']) : Uncommented .code s s := by
  simpa using of_plain hs .nil

theorem append (hs : Uncommented mode s code) {e : Char} (he : e ∈ [',', ')'])
    (ht : Uncommented .code (e :: t) tcode) : Uncommented mode (s ++ e :: t) (code ++ tcode) := by
  induction hs with
  | nil => exact ht
  | char hquote hopens h ih => exact .char hquote (opensComment_cons_append he hopens t) ih
  | opens hquote h ih => exact .opens hquote ih
  | closes hquote h ih => exact .closes hquote ih
  | escaped h ih => exact .escaped ih
  | quoted hc h ih => exact .quoted hc ih

/-- The quotes in which a mode stands. -/
def quotesOf : ScrubMode → QuoteState
  | .literal q => .inside q
  | _ => .outside

/-- Where the parentheses of a text match, its code has as many of one as of the other. -/
theorem parenCounts_of_closesBehind (h : Uncommented mode s code) {depth : Nat}
    (hdepth : 1 ≤ depth) (hclose : Code.ClosesBehind depth (quotesOf mode) s) :
    depth + code.count '(' = 1 + code.count ')' := by
  induction h generalizing depth with
  | nil =>
    have := (Code.closesBehind_nil_iff.mp hclose).2
    simp
    omega
  | @char c rest code hquote hopens h ih =>
    obtain ⟨hopen, hmore⟩ := Code.closesBehind_cons_iff.mp hclose
    have hplain : c ≠ '\'' ∧ c ≠ '"' := by
      constructor <;> rintro rfl <;> cases hquote
    have hstep : (quotesOf .code).step c = quotesOf .code := by
      simp [quotesOf, QuoteState.step, hplain]
    rw [hstep] at hmore
    have hcounts := ih (Code.one_le_openParens hdepth hopen) hmore
    have hdeep : c = ')' → 1 < depth := fun hc => by
      by_contra hle
      exact hopen ⟨rfl, hc, by omega⟩
    by_cases hleft : c = '('
    · subst hleft
      simp [Code.openParens, quotesOf] at hcounts ⊢
      omega
    · by_cases hright : c = ')'
      · have hdeep := hdeep hright
        subst hright
        simp [Code.openParens, quotesOf] at hcounts ⊢
        omega
      · simpa [Code.openParens, quotesOf, hleft, hright] using hcounts
  | @opens q rest code hquote h ih =>
    have hmore := (Code.closesBehind_cons_iff.mp hclose).2
    rcases hquote with rfl | rfl
    all_goals simpa using ih hdepth hmore
  | @closes q rest code hquote h ih =>
    have hmore := (Code.closesBehind_cons_iff.mp hclose).2
    rcases hquote with rfl | rfl
    all_goals simpa using ih hdepth hmore
  | @escaped q c rest code h ih =>
    have hmore := (Code.closesBehind_cons_iff.mp (Code.closesBehind_cons_iff.mp hclose).2).2
    exact ih hdepth hmore
  | @quoted q c rest code hc h ih =>
    have hmore := (Code.closesBehind_cons_iff.mp hclose).2
    have hstep : (quotesOf (.literal q)).step c = quotesOf (.literal q) := by
      simp [quotesOf, QuoteState.step, hc]
    exact ih hdepth (hstep ▸ hmore)

theorem join {parts codes : List Text} (h : List.Forall₂ (Uncommented .code) parts codes) :
    Uncommented .code (Text.join [','] parts) (Text.join [','] codes) := by
  induction h with
  | nil => exact .nil
  | cons hpart hmore ih =>
    cases hmore with
    | nil => exact hpart
    | cons hnext hmore =>
      rw [Text.join, Text.join, List.append_assoc, List.append_assoc]
      exact hpart.append (by simp) (.char rfl rfl ih)

theorem scrub_eq (h : Uncommented .code s code) (keep : Bool) :
    ({ keepLiterals := keep } : Scrubber).scrub s =
      (if keep then s else code, { keepLiterals := keep }) := by
  have hfrom : scrubFrom keep .code s = (if keep then s else code, .code) := h.scan_eq keep
  rw [scrub, hfrom]

theorem parenCounts_eq (h : Uncommented .code s code) (hs : Code.Enclosed s) :
    code.count '(' = code.count ')' :=
  Nat.add_left_cancel (h.parenCounts_of_closesBehind (Nat.le_refl 1) hs.closesBehind)

end Uncommented

/-- A scrubber that keeps literals never makes a text longer. -/
theorem Scans.length_le {mode m : ScrubMode} {line kept code : Text}
    (h : Scans mode line kept code m) : kept.length ≤ line.length := by
  induction h with
  | nil | heredoc | backslash | opensHeredoc => exact le_rfl
  | slashes | hash => exact Nat.zero_le _
  | comment | endsComment | escaped | quoted | closes | opensComment | char =>
    simp only [List.length_cons] at *
    omega

theorem Uncommented.code_cons {c : Char} {rest code : Text}
    (hopens : opensComment (c :: rest) = false) (hback : c ≠ '`')
    (h : Uncommented (modeAfter c) rest code) : Uncommented .code (c :: rest) (c :: code) := by
  by_cases hquote : c = '\'' ∨ c = '"'
  · have hmode : modeAfter c = .literal c := by
      rcases hquote with rfl | rfl <;> rfl
    exact .opens hquote (hmode ▸ h)
  · have hmode : modeAfter c = .code := by
      rw [not_or] at hquote
      simp [modeAfter, hquote, hback]
    exact .char hmode hopens (hmode ▸ h)

/-- A text of which a scrubber keeps everything, and at whose end no quote is open, has
neither comments nor heredocs. -/
theorem Scans.uncommented {mode m : ScrubMode} {s kept code : Text} (h : Scans mode s kept code m)
    (hmode : mode = .code ∨ mode = .literal '\'' ∨ mode = .literal '"') (hkept : kept = s)
    (hend : m = .code) (hback : '`' ∉ code) : Uncommented mode s code := by
  induction h with
  | nil =>
    obtain rfl := hend
    exact .nil
  | heredoc | backslash | opensHeredoc => cases hend
  | comment | endsComment => simp at hmode
  | escaped h ih => exact .escaped (ih hmode (by simpa using hkept) hend hback)
  | quoted hc h ih => exact .quoted hc (ih hmode (List.cons.inj hkept).2 hend hback)
  | @closes q rest kept code m hq h ih =>
    rw [List.mem_cons, not_or] at hback
    have hquote : q = '\'' ∨ q = '"' := by simpa using hmode
    exact .closes hquote (ih (.inl rfl) (List.cons.inj hkept).2 hend hback.2)
  | slashes | hash => cases hkept
  | opensComment h ih =>
    have hlength := h.length_le
    rw [hkept, List.length_cons, List.length_cons] at hlength
    omega
  | @char c rest kept code m hopens h ih =>
    rw [List.mem_cons, not_or] at hback
    have hnext : modeAfter c = .code ∨ modeAfter c = .literal '\'' ∨
        modeAfter c = .literal '"' := by
      unfold modeAfter
      split
      · rename_i hquote
        rcases hquote with rfl | rfl | rfl
        · exact .inr (.inl rfl)
        · exact .inr (.inr rfl)
        · exact absurd rfl hback.1
      · exact .inl rfl
    exact .code_cons hopens (Ne.symm hback.1) (ih hnext (List.cons.inj hkept).2 hend hback.2)

theorem uncommented_of_scan {s : Text} (h : scan true .code s = (s, .code))
    (hback : '`' ∉ (scan false .code s).1) : Uncommented .code s (scan false .code s).1 := by
  have hsteps := scans .code s
  refine hsteps.uncommented (.inl rfl) (by rw [h]) ?_ hback
  rw [← scan_mode true, h]

end PhpLint.Scrubber
