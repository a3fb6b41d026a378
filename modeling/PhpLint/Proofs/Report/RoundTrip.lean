import PhpLint.Proofs.Detector.ErrorTable

/-!
Results in the exchange format, read back. The form of an issue keeps every field, and one
that is absent stays absent. Failures are read in the order of their spellings, which is not
that of their paths, and are entered anew, so a table in order comes back as it was. Only of
times something is lost: what is below a millisecond and what sixty-four bits do not hold.
Main statement: a result whose times lose nothing is read back as it was, and any result has
the same form once it was read back.
-/

namespace PhpLint

/-- Reading items that were written one by one. -/
theorem mapM_map_eq_some {α β γ : Type} {write : α → β} {read? : β → Option γ} {f : α → γ}
    {items : List α} (h : ∀ x ∈ items, read? (write x) = some (f x)) :
    (items.map write).mapM read? = some (items.map f) := by
  induction items with
  | nil => rfl
  | cons x items ih =>
    have hrest := ih fun y hy => h y (List.mem_cons_of_mem _ hy)
    rw [List.map_cons, List.mapM_cons, h x List.mem_cons_self, hrest]
    rfl

namespace JsonValue

@[simp]
theorem field?_cons (name other : String) (v : JsonValue) (rest : List (String × JsonValue)) :
    (object ((other, v) :: rest)).field? name =
      if other = name then some v else (object rest).field? name := by
  change (List.find? _ _).map _ = _
  rw [List.find?_cons]
  by_cases h : other = name
  · simp [h]
  · simp [h, beq_eq_false_iff_ne.mpr h, field?]

@[simp]
theorem field?_nil (name : String) : (object []).field? name = none := rfl

/-- A field that may be left out, in front of others. -/
@[simp]
theorem field?_optionalField_append (name other : String) (s : Option String)
    (rest : List (String × JsonValue)) :
    (object (optionalField other s ++ rest)).field? name =
      if other = name then (s.map string).or ((object rest).field? name)
      else (object rest).field? name := by
  cases s with
  | none => simp [optionalField]
  | some s => simp [optionalField]

@[simp]
theorem field?_optionalField (name other : String) (s : Option String) :
    (object (optionalField other s)).field? name =
      if other = name then s.map string else none := by
  have h := field?_optionalField_append name other s []
  rw [List.append_nil] at h
  simpa using h

@[simp]
theorem optionalString?_map (s : Option String) : optionalString? (s.map string) = some s := by
  cases s <;> rfl

theorem nat?_integer {n : Nat} (h : n < natLimit) : (integer n).nat? = some n :=
  if_pos h

end JsonValue

theorem Issue.ofJson?_toJson {i : Issue} (h : i.line < JsonValue.natLimit) :
    Issue.ofJson? i.toJson = some i := by
  simp [ofJson?, toJson, JsonValue.record?, JsonValue.string?, JsonValue.nat?_integer h]

namespace Duration

/-- A span of whole milliseconds whose number has sixty-four bits. -/
def IsExact (d : Duration) : Prop := ∃ n < JsonValue.natLimit, d = ofMilliseconds n

/-- What is left of a span once it is written. -/
def written (d : Duration) : Duration :=
  ofMilliseconds (min d.milliseconds (JsonValue.natLimit - 1))

theorem milliseconds_ofMilliseconds (n : Nat) : (ofMilliseconds n).milliseconds = n :=
  Nat.mul_div_cancel n (by decide)

theorem ofJson?_toJson (d : Duration) : ofJson? d.toJson = some d.written := by
  have hlt : min d.milliseconds (JsonValue.natLimit - 1) < JsonValue.natLimit := by
    have hpos : 0 < JsonValue.natLimit := by decide
    omega
  rw [ofJson?, toJson, JsonValue.nat?_integer hlt]
  rfl

theorem toJson_written (d : Duration) : d.written.toJson = d.toJson := by
  rw [toJson, written, milliseconds_ofMilliseconds, Nat.min_assoc, Nat.min_self]
  rfl

theorem IsExact.written_eq {d : Duration} (h : d.IsExact) : d.written = d := by
  obtain ⟨n, hlt, rfl⟩ := h
  rw [written, milliseconds_ofMilliseconds, Nat.min_eq_left (Nat.le_sub_one_of_lt hlt)]

end Duration

namespace ErrorTable

theorem ofJson?_toJson {table : ErrorTable} (h : Sorted table) :
    ErrorTable.ofJson? table.toJson = some table := by
  let read (entry : String × String) : Path × String := (Path.ofString entry.1, entry.2)
  let entries := table.map fun entry => (entry.1.display, entry.2)
  -- Spellings and paths are ordered differently, so the entries come back permuted.
  have hback : entries.map read = table := by simp [entries, read, Function.comp_def]
  have hsorted : ((entries.mergeSort fun a b => decide (a.1 ≤ b.1)).map read).Perm table := by
    conv_rhs => rw [← hback]
    exact (List.mergeSort_perm entries _).map read
  refine Option.bind_eq_some_iff.mpr ⟨entries, mapM_map_eq_some fun _ _ => rfl, ?_⟩
  exact congrArg some (ofEntries_perm h hsorted)

end ErrorTable

namespace RuleOutcome

/-- What the fields of an outcome can hold: numbers of sixty-four bits, and failures in the
order of their paths. -/
structure IsWellFormed (o : RuleOutcome) : Prop where
  line_lt : ∀ i ∈ o.issues, i.line < JsonValue.natLimit
  filesChecked_lt : o.filesChecked < JsonValue.natLimit
  errors_sorted : o.errors.Sorted

/-- What is left of an outcome once it is written. -/
def written (o : RuleOutcome) : RuleOutcome := { o with elapsed := o.elapsed.written }

theorem ofJson?_toJson {o : RuleOutcome} (h : o.IsWellFormed) :
    RuleOutcome.ofJson? o.toJson = some o.written := by
  have hissues : (o.issues.map Issue.toJson).mapM Issue.ofJson? = some (o.issues.map id) :=
    mapM_map_eq_some fun i hi => Issue.ofJson?_toJson (h.line_lt i hi)
  rw [List.map_id] at hissues
  have hfields : RuleOutcome.ofJson? o.toJson = do
      let issues ← (o.issues.map Issue.toJson).mapM Issue.ofJson?
      let filesChecked ← (JsonValue.integer o.filesChecked).nat?
      let errors ← ErrorTable.ofJson? o.errors.toJson
      let elapsed ← Duration.ofJson? o.elapsed.toJson
      return { o with issues, filesChecked, errors, elapsed } := rfl
  rw [hfields, hissues, JsonValue.nat?_integer h.filesChecked_lt,
    ErrorTable.ofJson?_toJson h.errors_sorted, Duration.ofJson?_toJson]
  rfl

theorem toJson_written (o : RuleOutcome) : o.written.toJson = o.toJson := by
  rw [toJson, toJson, written, Duration.toJson_written]

end RuleOutcome

namespace LintResult

/-- What is left of a result once it is written. -/
def written (r : LintResult) : LintResult := ⟨r.outcomes.map RuleOutcome.written⟩

theorem ofJson?_toJson {r : LintResult} (h : ∀ o ∈ r.outcomes, o.IsWellFormed) :
    LintResult.ofJson? r.toJson = some r.written := by
  have houtcomes : (r.outcomes.map RuleOutcome.toJson).mapM RuleOutcome.ofJson? =
      some (r.outcomes.map RuleOutcome.written) :=
    mapM_map_eq_some fun o ho => RuleOutcome.ofJson?_toJson (h o ho)
  simp only [ofJson?, toJson, JsonValue.record?, JsonValue.field?_cons, JsonValue.array?, if_true,
    Option.bind_eq_bind, Option.bind_some, houtcomes]
  rfl

theorem toJson_written (r : LintResult) : r.written.toJson = r.toJson := by
  simp [toJson, written, RuleOutcome.toJson_written]

theorem written_eq {r : LintResult} (h : ∀ o ∈ r.outcomes, o.elapsed.IsExact) : r.written = r := by
  have houtcomes : r.outcomes.map RuleOutcome.written = r.outcomes.map id :=
    List.map_congr_left fun o ho => by rw [RuleOutcome.written, (h o ho).written_eq, id]
  rw [written, houtcomes, List.map_id]

/-- A result whose times are whole milliseconds of sixty-four bits is read back as it was,
with every field of its outcomes and of their issues. Whatever its times are, it is read
back, and what is read has the same form again. -/
theorem read_back_as_written (r : LintResult) (h : ∀ o ∈ r.outcomes, o.IsWellFormed) :
    ((∀ o ∈ r.outcomes, o.elapsed.IsExact) → LintResult.ofJson? r.toJson = some r) ∧
    (LintResult.ofJson? r.toJson).map LintResult.toJson = some r.toJson := by
  rw [ofJson?_toJson h]
  constructor
  · intro helapsed
    rw [written_eq helapsed]
  · rw [Option.map_some, toJson_written]

/-- A result with an issue of a rule and one of none, and with two failures whose spellings
are not in the order of their paths. -/
def failing : LintResult where
  outcomes := [
    { rule := "strict-types", code := "PG033", passed := false
      issues := [
        { file := Path.ofString "a.php", line := 1
          message := "Missing declare(strict_types=1) declaration."
          code := some "PG033", rule := some "strict-types"
          help := some "add it right after the opening tag" },
        { file := Path.ofString "b.php", line := 7, message := "Missing declaration." }]
      filesChecked := 2
      errors := [(Path.ofString "a/b.php", "File not found: /r/a/b.php"),
        (Path.ofString "a-b.php", "Not a file: /r/a-b.php")]
      elapsed := .ofMilliseconds 12 }]

theorem read_back_as_written_failing :
    LintResult.ofJson? failing.toJson = some failing ∧
      (LintResult.ofJson? failing.toJson).map LintResult.toJson = some failing.toJson := by
  have hsorted : ErrorTable.Sorted [(Path.ofString "a/b.php", "File not found: /r/a/b.php"),
      (Path.ofString "a-b.php", "Not a file: /r/a-b.php")] := by
    unfold ErrorTable.Sorted
    decide
  have hformed : ∀ o ∈ failing.outcomes, o.IsWellFormed := by
    simp only [failing, List.forall_mem_singleton]
    exact ⟨by decide, by decide, hsorted⟩
  obtain ⟨hback, hagain⟩ := read_back_as_written failing hformed
  refine ⟨hback ?_, hagain⟩
  simp only [failing, List.forall_mem_singleton]
  exact ⟨12, by decide, rfl⟩

end LintResult

end PhpLint
