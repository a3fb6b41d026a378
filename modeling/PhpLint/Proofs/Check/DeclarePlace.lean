import Mathlib.Data.Bool.AllAny
import Mathlib.Data.List.Infix
import PhpLint.Check.Layout
import PhpLint.Proofs.SourceModel.StrictTypes

/-!
Where the layout rule finds the declaration of strict types. The model takes it from code, in any
spelling; the rule looks for one spelling in the lines as they are, and in the first lines only.
The two agree on a declaration in that spelling, unless a comment or a literal in front of it
holds the same text, and then the rule reports the declaration if it comes too late.
-/

namespace PhpLint.Check

open SourceModel Scrubber

variable {ctx : FileContext} {model : SourceModel} {lines : List Text} {n limit : Nat}

/-- A declaration of strict types begins in the code of a line, counted from zero. It may go on
over the lines behind it. -/
def DeclaredBy (marker : Text) (lines : List Text) (n : Nat) : Prop :=
  IsStrictTypes marker ∧ ∃ code, (codeLines lines)[n]? = some code ∧ ∃ back, back <:+ code ∧
    back ≠ [] ∧ marker <+: Text.join ['\n'] (back :: (codeLines lines).drop (n + 1))

def BeginsDeclaration (lines : List Text) (n : Nat) : Prop := ∃ marker, DeclaredBy marker lines n

/-- The reader of the declaration, tried from every place of the line. -/
theorem beginsDeclaration_iff : BeginsDeclaration lines n ↔
    ∃ code ∈ (codeLines lines)[n]?, ∃ back ∈ code.tails, back ≠ [] ∧
      (readStrictTypes? (Text.join ['\n'] (back :: (codeLines lines).drop (n + 1)))).isSome := by
  simp only [Option.isSome_iff_exists, readStrictTypes?_eq_some_iff, List.mem_tails]
  constructor
  · rintro ⟨marker, hmarker, code, hcode, back, hback, hne, rest, hs⟩
    exact ⟨code, hcode, back, hback, hne, rest, marker, hs.symm, hmarker⟩
  · rintro ⟨code, hcode, back, hback, hne, rest, marker, hs, hmarker⟩
    exact ⟨marker, hmarker, code, hcode, back, hback, hne, rest, hs.symm⟩

instance (lines : List Text) (n : Nat) : Decidable (BeginsDeclaration lines n) :=
  decidable_of_iff _ beginsDeclaration_iff.symm

/-- The spelling that the rule looks for. -/
def plainDeclaration : Text := "declare(strict_types=1)".toList

/-- What the rule says of a declaration in the wrong place. -/
def misplaced : String := "declare(strict_types=1) must be on line 2 or 3."

theorem isStrictTypes_plain : IsStrictTypes plainDeclaration :=
  ⟨"declare".toList, "strict_types".toList, [], [], [], [], [], rfl, rfl, rfl, by simp⟩

theorem bare_plain : Bare plainDeclaration := List.all_iff_forall_prop.mp (by decide)

theorem message_of_lineLayoutIssues {number : Nat} {line : Text} {issue : Issue}
    (h : issue ∈ lineLayoutIssues limit ctx number line) : issue.message ≠ misplaced := by
  unfold lineLayoutIssues at h
  split at h
  · simp at h
  · simp only [List.mem_append, List.mem_ite_nil_right, List.mem_singleton] at h
    rcases h with (⟨-, rfl⟩ | ⟨-, rfl⟩) | ⟨-, rfl⟩
    · exact of_decide_eq_true rfl
    · exact of_decide_eq_true rfl
    · intro heq
      have hfirst := congrArg (fun s => s.toList.head?) heq
      simp [FileContext.issue, misplaced, String.toList_append] at hfirst

theorem declarePlaceIssues_of_strict (h : model.strictTypes = true) :
    declarePlaceIssues ctx model =
      match (ctx.lines.take declareSearchLines).findIdx? (Text.occursIn plainDeclaration) with
      | some index =>
        if declareLastLine ≤ index then [ctx.issue (index + 1) misplaced] else []
      | none => [] := by
  rw [declarePlaceIssues, h]
  rfl

/-- Nothing else that the rule reports says so. -/
theorem filter_layoutCompliance (limit : Nat) (ctx : FileContext) (model : SourceModel) :
    (layoutCompliance limit ctx model).filter (·.message = misplaced) =
      declarePlaceIssues ctx model := by
  have htag : (openingTagIssues ctx).filter (·.message = misplaced) = [] := by
    unfold openingTagIssues
    split
    · rfl
    · split <;> rfl
  have hplace : (declarePlaceIssues ctx model).filter (·.message = misplaced) =
      declarePlaceIssues ctx model := by
    unfold declarePlaceIssues
    split
    · rfl
    · split
      · split <;> rfl
      · rfl
  rw [layoutCompliance, List.filter_append, List.filter_append, htag, hplace, List.nil_append,
    List.append_right_eq_self, List.filter_eq_nil_iff]
  intro issue hissue
  obtain ⟨⟨number, line⟩, -, hissue⟩ := List.mem_flatMap.mp hissue
  simpa using message_of_lineLayoutIssues hissue

/-- What the rule says of the place of the declaration. -/
def placementIssues (limit : Nat) (ctx : FileContext) (model : SourceModel) : List Issue :=
  (layoutCompliance limit ctx model).filter (·.message = misplaced)

/-- The code of a line has the plain spelling. -/
def HasPlain (lines : List Text) (n : Nat) : Prop :=
  ∃ code, (codeLines lines)[n]? = some code ∧ plainDeclaration <:+: code

theorem HasPlain.begins (h : HasPlain lines n) : BeginsDeclaration lines n := by
  obtain ⟨code, hcode, front, rest, rfl⟩ := h
  refine ⟨plainDeclaration, isStrictTypes_plain, _, hcode, plainDeclaration ++ rest, ?_,
    List.append_ne_nil_of_left_ne_nil (by decide) rest, ?_⟩
  · rw [List.append_assoc]
    exact List.suffix_append front _
  · rw [Text.join_cons, List.append_assoc]
    exact List.prefix_append _ _

/-- The plain spelling does not go on over a second line. -/
theorem DeclaredBy.hasPlain (h : DeclaredBy plainDeclaration lines n) : HasPlain lines n := by
  obtain ⟨-, code, hcode, back, hback, -, hfront⟩ := h
  refine ⟨code, hcode, (List.IsPrefix.isInfix ?_).trans hback.isInfix⟩
  rw [Text.join_cons] at hfront
  split at hfront
  · simpa using hfront
  · exact Text.isPrefix_of_not_mem (by decide) hfront

/-- The line that the rule finds is the one on which a declaration begins for the first time, if
that line is searched. -/
theorem findIdx?_plain (hfirst : ∀ i < n, ¬ BeginsDeclaration lines i)
    (hplain : n < declareSearchLines → HasPlain lines n)
    (hshown : ∀ i < n, i < declareSearchLines → ∀ line, lines[i]? = some line →
      plainDeclaration <:+: line → HasPlain lines i) :
    (lines.take declareSearchLines).findIdx? (Text.occursIn plainDeclaration) =
      if n < declareSearchLines then some n else none := by
  have hnone : ∀ i < n, i < declareSearchLines → ∀ line, lines[i]? = some line →
      ¬ plainDeclaration <:+: line := by
    intro i hi hsearched line hline hinfix
    exact hfirst i hi (hshown i hi hsearched line hline hinfix).begins
  split
  · rename_i hsearched
    obtain ⟨code, hcode, hinfix⟩ := hplain hsearched
    obtain ⟨line, hline, hfound⟩ := exists_infix_of_codeLines hcode bare_plain hinfix
    obtain ⟨hn, rfl⟩ := List.getElem?_eq_some_iff.mp hline
    rw [List.findIdx?_eq_some_iff_getElem]
    refine ⟨by rw [List.length_take]; omega, ?_, fun i hi => ?_⟩
    · rw [List.getElem_take, Text.occursIn_eq_true_iff]
      exact hfound
    · rw [List.getElem_take, Text.occursIn_eq_true_iff]
      exact hnone i hi (hi.trans hsearched) _ (List.getElem?_eq_getElem (hi.trans hn))
  · rename_i hbehind
    rw [List.findIdx?_eq_none_iff]
    intro line hline
    obtain ⟨i, hi, rfl⟩ := List.mem_iff_getElem.mp hline
    rw [List.length_take] at hi
    rw [List.getElem_take, Bool.eq_false_iff, Ne, Text.occursIn_eq_true_iff]
    exact hnone i (by omega) (by omega) _ (List.getElem?_eq_getElem (by omega))

/-- Where strict types are declared for the first time on a line that is searched, in the plain
spelling, or behind all of them, and no comment or literal in front of it holds that spelling,
the declaration is reported exactly if it stands behind the third line and is searched. -/
theorem misplaced_declaration_reported (limit : Nat) {ctx : FileContext} {n : Nat} {marker : Text}
    (hread : SourceModel.strictTypes <$> ofLines ctx.lines = .ok true)
    (hdeclared : DeclaredBy marker ctx.lines n)
    (hfirst : ∀ i < n, ¬ BeginsDeclaration ctx.lines i)
    (hplain : n < declareSearchLines → marker = plainDeclaration)
    (hshown : ∀ i < n, i < declareSearchLines → ∀ line, ctx.lines[i]? = some line →
      plainDeclaration <:+: line → HasPlain ctx.lines i) :
    placementIssues limit ctx <$> ofLines ctx.lines =
      .ok (if declareLastLine ≤ n ∧ n < declareSearchLines then [ctx.issue (n + 1) misplaced]
        else []) := by
  obtain ⟨model, hmodel, hstrict⟩ := map_eq_ok_iff.mp hread
  refine map_eq_ok_iff.mpr ⟨model, hmodel, ?_⟩
  have hfound := findIdx?_plain hfirst (fun hsearched => (hplain hsearched ▸ hdeclared).hasPlain)
    hshown
  rw [placementIssues, filter_layoutCompliance, declarePlaceIssues_of_strict hstrict, hfound]
  by_cases hsearched : n < declareSearchLines
  · simp [hsearched]
  · simp [hsearched]

/-- The declaration stands behind a comment on the fourth line, and once more in a string. -/
def lateFile : FileContext :=
  { path := Path.ofString "/r/a.php"
    lines := ["<?php", "", "// Checked by hand.", "/* strict */ declare(strict_types=1);",
      "$note = 'declare(strict_types=1)';"].map String.toList
    relativePath := Path.ofString "a.php" }

theorem misplaced_declaration_reported_late :
    SourceModel.strictTypes <$> ofLines lateFile.lines = .ok true ∧
      DeclaredBy plainDeclaration lateFile.lines 3 ∧
      (∀ i < 3, ¬ BeginsDeclaration lateFile.lines i) ∧
      (∀ i < 3, i < declareSearchLines → ∀ line, lateFile.lines[i]? = some line →
        plainDeclaration <:+: line → HasPlain lateFile.lines i) ∧
      placementIssues 120 lateFile <$> ofLines lateFile.lines =
        .ok [lateFile.issue 4 misplaced] := by
  have hread : SourceModel.strictTypes <$> ofLines lateFile.lines = .ok true := by decide +kernel
  have hdeclared : DeclaredBy plainDeclaration lateFile.lines 3 := by
    refine ⟨isStrictTypes_plain, "  declare(strict_types=1);".toList, by decide +kernel,
      "declare(strict_types=1);".toList, ?_, by decide, ?_⟩ <;> decide +kernel
  have hfirst : ∀ i < 3, ¬ BeginsDeclaration lateFile.lines i := by decide +kernel
  have hclear : ∀ i < 3, ∀ line ∈ lateFile.lines[i]?, ¬ plainDeclaration <:+: line := by
    decide +kernel
  have hshown : ∀ i < 3, i < declareSearchLines → ∀ line, lateFile.lines[i]? = some line →
      plainDeclaration <:+: line → HasPlain lateFile.lines i :=
    fun i hi _ line hline hinfix => absurd hinfix (hclear i hi line hline)
  exact ⟨hread, hdeclared, hfirst, hshown,
    misplaced_declaration_reported 120 hread hdeclared hfirst (fun _ => rfl) hshown⟩

/-- Strict types are declared behind the third line, and nothing is said of the place. -/
def Missed (lines : List Text) (n : Nat) : Prop :=
  SourceModel.strictTypes <$> ofLines lines = .ok true ∧ BeginsDeclaration lines n ∧
    (∀ i < n, ¬ BeginsDeclaration lines i) ∧ declareLastLine ≤ n ∧
    placementIssues 120 { lateFile with lines } <$> ofLines lines = .ok []

instance : Decidable (Missed lines n) := inferInstanceAs (Decidable (_ ∧ _))

/-- The line of the declaration is not searched. -/
def unsearchedLines : List Text :=
  ["<?php", "", "", "", "", "declare(strict_types=1);"].map String.toList

/-- The declaration is not in the plain spelling. -/
def spacedLines : List Text := ["<?php", "", "", "declare(strict_types = 1);"].map String.toList

/-- A comment holds the declaration, too. -/
def shadowedLines : List Text :=
  ["<?php", "// declare(strict_types=1) follows", "", "declare(strict_types=1);"].map String.toList

/-- None of the three declarations is reported. -/
theorem misplaced_declaration_unreported :
    Missed unsearchedLines 5 ∧ Missed spacedLines 3 ∧ Missed shadowedLines 3 := by
  decide +kernel

end PhpLint.Check
