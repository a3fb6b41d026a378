import PhpLint.Declaration.Import
import PhpLint.Declaration.Property
import PhpLint.Proofs.Checked.Slice
import PhpLint.Proofs.Text.Basic

/-!
The readers of declarations in a form that addresses texts by byte offsets and lines by
numbers. Every part of a text is a checked slice, every line is looked up, and every
subtraction is checked; the outer `none` is a failure of one of them. Main statement
of each: it returns what the reader that it stands beside returns. The one exception
are the items of an import group, which fail where the group's braces are reversed.
-/

namespace PhpLint

namespace Checked

/-- The offset of the first occurrence of a character. -/
def find? (c : Char) : Text → Option Nat
  | [] => none
  | d :: s => if d = c then some 0 else (find? c s).map (d.utf8Size + ·)

/-- The offset of the last occurrence of a character. -/
def findLast? (c : Char) : Text → Option Nat
  | [] => none
  | d :: s =>
    match findLast? c s with
    | some offset => some (d.utf8Size + offset)
    | none => if d = c then some 0 else none

theorem find?_of_not_mem {c : Char} {s : Text} (h : c ∉ s) : find? c s = none := by
  induction s with
  | nil => rfl
  | cons d s ih =>
    simp only [List.mem_cons, not_or] at h
    simp [find?, Ne.symm h.1, ih h.2]

theorem find?_append {c : Char} {s : Text} (h : c ∉ s) (t : Text) :
    find? c (s ++ c :: t) = some (Text.byteLength s) := by
  induction s with
  | nil => simp [find?, Text.byteLength]
  | cons d s ih =>
    simp only [List.mem_cons, not_or] at h
    simp [find?, Ne.symm h.1, ih h.2, Text.byteLength]

theorem findLast?_of_not_mem {c : Char} {s : Text} (h : c ∉ s) : findLast? c s = none := by
  induction s with
  | nil => rfl
  | cons d s ih =>
    simp only [List.mem_cons, not_or] at h
    simp [findLast?, Ne.symm h.1, ih h.2]

theorem findLast?_append {c : Char} (s : Text) {t : Text} (h : c ∉ t) :
    findLast? c (s ++ c :: t) = some (Text.byteLength s) := by
  induction s with
  | nil => simp [findLast?, findLast?_of_not_mem h, Text.byteLength]
  | cons d s ih => simp [findLast?, ih, Text.byteLength]

/-- The group and the items of an import statement. -/
def splitGroup? (body : Text) : Option (Text × List Text) :=
  match find? '{' body with
  | none => some ([], (Text.splitAtChar ',' body).map Text.trim)
  | some start => do
    let before ← Text.slice? body 0 start
    let group := Text.dropEndWhile (· == '\\') (Text.trim before)
    match findLast? '}' body with
    | none => return (group, [])
    | some stop =>
      let inner ← Text.slice? body (start + 1) stop
      return (group, (Text.splitAtChar ',' inner).map Text.trim)

/-- Both braces occur, and the last closing one comes before the first opening one. -/
def BracesReversed (body : Text) : Prop :=
  ∃ before between after, body = before ++ '}' :: between ++ '{' :: after ∧
    '{' ∉ before ∧ '{' ∉ between ∧ '}' ∉ between ∧ '}' ∉ after

theorem exists_last_of_mem {c : Char} {s : Text} (h : c ∈ s) :
    ∃ before after, s = before ++ c :: after ∧ c ∉ after := by
  obtain ⟨after, before, hreverse, hafter⟩ :=
    List.eq_append_cons_of_mem (List.mem_reverse.mpr h)
  refine ⟨before.reverse, after.reverse, ?_, by simpa using hafter⟩
  have hs := congrArg List.reverse hreverse
  simpa using hs

theorem beforeLast?_of_not_mem {c : Char} {s : Text} (h : c ∉ s) :
    Import.beforeLast? c s = none := by
  have hall : s.reverse.dropWhile (· != c) = [] := by
    rw [List.dropWhile_eq_nil_iff]
    intro d hd
    simpa using ne_of_mem_of_not_mem (List.mem_reverse.mp hd) h
  rw [Import.beforeLast?, hall]

theorem beforeLast?_append {c : Char} (s : Text) {t : Text} (h : c ∉ t) :
    Import.beforeLast? c (s ++ c :: t) = some s := by
  have hdrop : (s ++ c :: t).reverse.dropWhile (· != c) = c :: s.reverse := by
    rw [List.reverse_append, List.reverse_cons, List.append_assoc, List.dropWhile_append_of_pos]
    · simp
    · intro d hd
      simpa using ne_of_mem_of_not_mem (List.mem_reverse.mp hd) h
  rw [Import.beforeLast?, hdrop]
  simp

theorem not_bracesReversed_of_not_mem {body : Text} (h : '{' ∉ body) : ¬ BracesReversed body := by
  rintro ⟨before, between, after, rfl, -⟩
  simp at h

theorem bracesReversed_iff {before after : Text} (h : '{' ∉ before) :
    BracesReversed (before ++ '{' :: after) ↔ '}' ∈ before ∧ '}' ∉ after := by
  constructor
  · rintro ⟨outer, between, rest, heq, houter, hbetween, -, hrest⟩
    have hno : '{' ∉ outer ++ '}' :: between := by
      simp [houter, hbetween]
    have hcut := Text.cut_append h after
    rw [heq, Text.cut_append hno] at hcut
    obtain ⟨rfl, hafter⟩ := Prod.mk.inj hcut
    obtain rfl := (List.cons.inj hafter).2
    exact ⟨by simp, hrest⟩
  · rintro ⟨hclose, hafter⟩
    obtain ⟨outer, between, rfl, hbetween⟩ := exists_last_of_mem hclose
    simp only [List.mem_append, List.mem_cons, not_or] at h
    exact ⟨outer, between, after, rfl, h.1, h.2.2, hbetween, hafter⟩

/-- The items of a statement fail to be read exactly where its braces are reversed. -/
theorem splitGroup_eq_error_iff {body : Text} :
    (∃ e, Import.splitGroup body = .error e) ↔ BracesReversed body := by
  by_cases hopen : '{' ∈ body
  · obtain ⟨before, after, rfl, hbefore⟩ := List.eq_append_cons_of_mem hopen
    rw [bracesReversed_iff hbefore, Import.splitGroup, Text.cut_append hbefore]
    by_cases hclose : '}' ∈ after
    · obtain ⟨inner, rest, rfl, hrest⟩ := exists_last_of_mem hclose
      simp [beforeLast?_append inner hrest]
    · by_cases hreversed : '}' ∈ before
      · simp [beforeLast?_of_not_mem hclose, hreversed, hclose]
      · simp [beforeLast?_of_not_mem hclose, hreversed]
  · simp [Import.splitGroup, Text.cut_of_not_mem hopen, not_bracesReversed_of_not_mem hopen]

theorem splitGroup?_eq (body : Text) :
    splitGroup? body = (Import.splitGroup body).toOption := by
  by_cases hopen : '{' ∈ body
  · obtain ⟨before, after, rfl, hbefore⟩ := List.eq_append_cons_of_mem hopen
    have hslice := Text.slice?_append [] before ('{' :: after)
    simp only [List.nil_append, Text.byteLength, Nat.zero_add] at hslice
    rw [splitGroup?, find?_append hbefore, Import.splitGroup, Text.cut_append hbefore]
    have hbrace : '{'.utf8Size = 1 := rfl
    by_cases hclose : '}' ∈ after
    · obtain ⟨inner, rest, rfl, hrest⟩ := exists_last_of_mem hclose
      have hlast := findLast?_append (before ++ '{' :: inner) hrest
      have hinner := Text.slice?_append (before ++ ['{']) inner ('}' :: rest)
      simp only [List.append_assoc, List.cons_append, List.nil_append, Text.byteLength_append,
        Text.byteLength, hbrace, Nat.add_zero, Nat.add_assoc] at hlast hinner
      simp [hslice, hlast, hinner, beforeLast?_append inner hrest, Except.toOption]
    · by_cases hreversed : '}' ∈ before
      · obtain ⟨outer, between, rfl, hbetween⟩ := exists_last_of_mem hreversed
        have hlast := findLast?_append (c := '}') outer (t := between ++ '{' :: after)
          (by simp [hbetween, hclose])
        -- The last closing brace lies in front of the opening one, so no slice is between them.
        have hinner (body : Text) : Text.slice? body
            (Text.byteLength (outer ++ '}' :: between) + 1) (Text.byteLength outer) = none :=
          Text.slice?_of_lt body (by
            simp only [Text.byteLength_append, Text.byteLength]
            omega)
        simp only [List.append_assoc, List.cons_append] at hlast hslice ⊢
        simp [hslice, hlast, hinner, beforeLast?_of_not_mem hclose, Except.toOption,
          -Text.byteLength_append]
      · have hnone := findLast?_of_not_mem (c := '}') (s := before ++ '{' :: after)
          (by simp [hreversed, hclose])
        simp [hslice, hnone, beforeLast?_of_not_mem hclose, hreversed, Except.toOption]
  · simp [splitGroup?, Import.splitGroup, Text.cut_of_not_mem hopen, find?_of_not_mem hopen,
      Except.toOption]

/-- Cuts a block of property hooks off by a slice. -/
def dropHooks? (s : Text) : Option Text :=
  match find? '{' s, find? '=' s with
  | some brace, some equals => if brace < equals then Text.slice? s 0 brace else some s
  | some brace, none => Text.slice? s 0 brace
  | none, _ => some s

theorem dropHooks?_eq (s : Text) : dropHooks? s = some (Property.dropHooks s) := by
  by_cases hopen : '{' ∈ s
  · obtain ⟨before, after, rfl, hbefore⟩ := List.eq_append_cons_of_mem hopen
    have hslice := Text.slice?_append [] before ('{' :: after)
    simp only [List.nil_append, Text.byteLength, Nat.zero_add] at hslice
    rw [dropHooks?, find?_append hbefore, Property.dropHooks, Text.cut_append hbefore]
    by_cases hequals : '=' ∈ before
    · obtain ⟨outer, between, rfl, houter⟩ := List.eq_append_cons_of_mem hequals
      have hfind := find?_append houter (between ++ '{' :: after)
      have hle : ¬ Text.byteLength (outer ++ '=' :: between) < Text.byteLength outer := by simp
      simp only [List.append_assoc, List.cons_append] at hfind hslice ⊢
      simp [hfind, hle, -Text.byteLength_append]
    · by_cases hlater : '=' ∈ after
      · obtain ⟨between, rest, rfl, hbetween⟩ := List.eq_append_cons_of_mem hlater
        have hfind := find?_append (c := '=') (s := before ++ '{' :: between)
          (by simp [hequals, hbetween]) rest
        simp only [List.append_assoc, List.cons_append, Text.byteLength_append,
          Text.byteLength] at hfind hslice ⊢
        simp [hfind, hslice, hequals, show '{'.utf8Size = 1 from rfl]
      · have hfind := find?_of_not_mem (c := '=') (s := before ++ '{' :: after)
          (by simp [hequals, hlater])
        simp [hfind, hslice, hequals]
  · simp [dropHooks?, Property.dropHooks, Text.cut_of_not_mem hopen, find?_of_not_mem hopen]

/-- The properties that a line of a class body declares. -/
def properties? (line : Nat) (className : Text) (classReadonly : Bool) (s : Text) :
    Option (List Property) :=
  if Property.isOtherMember s then some []
  else
    match Property.readHead? s with
    | none => some []
    | some head => do
      let declarations ← splitTopLevel? ';' head.names
      let names ← dropHooks? (declarations.headD [])
      let items ← splitTopLevel? ',' names
      return (items.filterMap Property.readItem?).map fun item =>
        { line
          name := item.name
          visibility := (Modifier.visibility? head.modifiers).getD .pub
          isStatic := head.modifiers.any (·.is "static")
          readonly := classReadonly || head.modifiers.any (·.is "readonly")
          className
          declaredType := if head.type.isEmpty then none else some head.type
          default := item.default }

theorem properties?_eq (line : Nat) (className : Text) (classReadonly : Bool) (s : Text) :
    properties? line className classReadonly s =
      some (Property.read line className classReadonly s) := by
  unfold properties? Property.read
  split
  · rfl
  · cases Property.readHead? s with
    | none => rfl
    | some head => simp [splitTopLevel?_eq, dropHooks?_eq, Property.items]

/-- The class that a line declares; its header is what follows the match. -/
def class? (line : Nat) (space : Option Text) (s : Text) : Option (Option ClassDecl) :=
  match ClassDecl.readHead? s with
  | none => some none
  | some head =>
    match ClassKind.ofKeyword? head.keyword with
    | none => some none
    | some kind => do
      let c : ClassDecl := { name := head.name, kind, startLine := line, namespaceName := space }
      let c := head.modifiers.foldl ClassDecl.applyModifier c
      let stop ← sub? (Text.byteLength s) (Text.byteLength head.rest)
      let header ← Code.dropBytes? stop s
      let c := c.addParents
        (((ClassDecl.extends? header).map ClassDecl.qualifiedNames).getD [])
      return some ((((ClassDecl.implements? header).map ClassDecl.qualifiedNames).getD []).foldl
        ClassDecl.addInterface c)

/-- The offset at which an end of a text starts is below the length of the text. -/
theorem sub?_of_suffix {s rest : Text} (h : rest <:+ s) :
    sub? (Text.byteLength s) (Text.byteLength rest) =
      some (Text.byteLength s - Text.byteLength rest) := by
  obtain ⟨before, rfl⟩ := h
  rw [sub?, if_pos (by simp)]

theorem class?_eq (line : Nat) (space : Option Text) (s : Text) :
    class? line space s = some (ClassDecl.read? line space s) := by
  unfold class? ClassDecl.read?
  cases hhead : ClassDecl.readHead? s with
  | none => rfl
  | some head =>
    have hsuffix := ClassDecl.readHead?_suffix hhead
    cases hkind : ClassKind.ofKeyword? head.keyword with
    | none => simp [hkind]
    | some kind => simp [hkind, sub?_of_suffix hsuffix, Text.dropBytes?_of_suffix hsuffix]

/-- The offset of the parenthesis that closes the one at an offset, if there is one. -/
def matchingParen? (s : Text) (offset : Nat) : Option (Option Nat) := do
  let rest ← Code.dropBytes? offset s
  match rest with
  | '(' :: _ => closeAt? '(' ')' 0 .outside offset rest
  | _ => return none

theorem matchingParen?_append (before rest : Text) :
    matchingParen? (before ++ '(' :: rest) (Text.byteLength before) =
      some ((Code.closeFrom '(' ')' 1 .outside rest).map fun (inner, _) =>
        Text.byteLength before + 1 + Text.byteLength inner) := by
  rw [matchingParen?, Text.dropBytes?_append]
  change closeAt? '(' ')' 0 .outside _ ('(' :: rest) = _
  rw [closeAt?, if_pos ⟨rfl, rfl⟩]
  exact closeAt?_eq (by decide) (by decide) _ _ _

/-- Whether a type admits null, and the type without a leading question mark. -/
def nullable? (type : Text) : Option (Bool × Text) := do
  let (marked, type) := match type with
    | '?' :: rest => (true, Text.trimStart rest)
    | _ => (false, type)
  let parts ← splitTopLevel? '|' type
  return (marked || parts.any fun part => Text.eqAsciiCase (Text.trim part) "null".toList, type)

theorem nullable?_eq (type : Text) : nullable? type = some (Parameter.readNullable type) := by
  simp only [nullable?, splitTopLevel?_eq]
  rfl

/-- One parameter, if the text is one. -/
def parameter? (promotes : Bool) (raw : Text) : Option (Option Parameter) := do
  let s ← stripAttributes? raw
  if ['#', '['].isPrefixOf s then return none
  else
    let (ms, s) := Modifier.readAll Parameter.modifiers s
    match Text.cut (· == '$') s with
    | (before, '$' :: rest) =>
      match Code.name? rest with
      | none => return none
      | some (name, rest) =>
        match Parameter.readDefault? rest with
        | none => return none
        | some default => do
          let marks := Parameter.readMarks before
          let (nullable, type) ← nullable? marks.type
          return some {
            name
            nullable
            declaredType := if type.isEmpty then none else some type
            default
            variadic := marks.variadic
            byReference := marks.byReference
            promoted := promotes && ms.any Modifier.isAccess }
    | _ => return none

theorem parameter?_eq (promotes : Bool) (raw : Text) :
    parameter? promotes raw = some (Parameter.read? promotes raw) := by
  rw [parameter?, stripAttributes?_eq, Option.bind_eq_bind, Option.bind_some, Parameter.read?]
  split
  · rfl
  · obtain ⟨ms, s⟩ := Modifier.readAll Parameter.modifiers (Code.stripAttributes raw)
    dsimp only
    obtain ⟨before, rest⟩ := Text.cut (· == '$') s
    cases rest with
    | nil => rfl
    | cons c rest =>
      by_cases hdollar : c = '$'
      · subst hdollar
        simp only [Option.bind_eq_bind]
        cases Code.name? rest with
        | none => rfl
        | some named =>
          simp only [Option.bind_some]
          cases Parameter.readDefault? named.2 with
          | none => rfl
          | some default =>
            simp only [nullable?_eq, Option.bind_some]
            rfl
      · simp [hdollar]

/-- The function that a line declares. The parenthesis of its parameters is the last
character of the match, and its partner is looked up by its offset. -/
def function? (line : Nat) (owner : Option Text) (s : Text) : Option (Option FunctionDecl) :=
  match FunctionDecl.readHead? s with
  | none => some none
  | some head => do
    let stop ← sub? (Text.byteLength s) (Text.byteLength head.rest.tail)
    let start ← sub? stop 1
    match ← matchingParen? s start with
    | none => return none
    | some close => do
      let promotes := owner.isSome && Text.eqAsciiCase head.name "__construct".toList
      let inside ← Text.slice? s (start + 1) close
      let parts ← splitTopLevel? ',' inside
      let parameters ← parts.mapM (parameter? promotes)
      let after ← Code.dropBytes? (close + 1) s
      return some {
        line
        name := head.name
        visibility := owner.map fun _ => (Modifier.visibility? head.modifiers).getD .pub
        isStatic := head.modifiers.any (·.is "static")
        isAbstract := head.modifiers.any (·.is "abstract")
        className := owner
        returnType := FunctionDecl.readReturnType? after
        parameters := (parameters.filterMap id).foldl FunctionDecl.addParameter [] }

theorem mapM_parameter?_eq (promotes : Bool) (parts : List Text) :
    parts.mapM (parameter? promotes) = some (parts.map (Parameter.read? promotes)) := by
  induction parts with
  | nil => rfl
  | cons part parts ih => simp [List.mapM_cons, parameter?_eq, ih]

theorem function?_eq (line : Nat) (owner : Option Text) (s : Text) :
    function? line owner s = some (FunctionDecl.read? line owner s) := by
  unfold function? FunctionDecl.read?
  cases hhead : FunctionDecl.readHead? s with
  | none => rfl
  | some head =>
    obtain ⟨rest, hrest, before, rfl⟩ := FunctionDecl.readHead?_suffix hhead
    have hparen : '('.utf8Size = 1 := rfl
    have hstop : sub? (Text.byteLength (before ++ '(' :: rest)) (Text.byteLength rest) =
        some (Text.byteLength before + 1) := by
      rw [sub?, Text.byteLength_append, Text.byteLength, hparen, if_pos (by omega)]
      congr 1
      omega
    have hstart : sub? (Text.byteLength before + 1) 1 = some (Text.byteLength before) := by
      simp [sub?]
    cases hclose : Code.closeFrom '(' ')' 1 .outside rest with
    | none =>
      simp only [hrest, List.tail_cons, hstop, hstart, matchingParen?_append, hclose,
        Code.closeParen?, Option.bind_eq_bind, Option.bind_some, Option.map_none, Option.bind_none]
      rfl
    | some parts =>
      obtain ⟨inside, after⟩ := parts
      obtain rfl := Code.closeFrom_eq_append hclose
      have hinside := Text.slice?_append (before ++ ['(']) inside (')' :: after)
      have hafter := Text.dropBytes?_append (before ++ '(' :: inside ++ [')']) after
      simp only [List.append_assoc, List.cons_append, List.nil_append, Text.byteLength_append,
        Text.byteLength, hparen, show ')'.utf8Size = 1 from rfl, Nat.add_zero] at hinside hafter
      rw [← Nat.add_assoc, ← Nat.add_assoc] at hafter
      simp only [hrest, List.tail_cons, hstop, hstart, matchingParen?_append, hclose,
        Code.closeParen?, hinside, hafter, splitTopLevel?_eq, mapM_parameter?_eq,
        List.filterMap_map, Option.bind_eq_bind, Option.bind_some, Option.map_some]
      rfl

end Checked

end PhpLint
