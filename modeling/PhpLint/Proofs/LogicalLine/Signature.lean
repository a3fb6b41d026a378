import PhpLint.Proofs.Declaration.SignatureText
import PhpLint.Proofs.LogicalLine.Split

/-!
Signatures under the reader of logical lines. On one line, a signature is a logical line
of its own; with a line for each parameter, the reader holds the lines back up to the one
with the closing parenthesis. In both cases it returns one logical line, which covers the
signature and nothing else, and holds nothing back behind it.
-/

namespace PhpLint.LogicalLine

/-- The parameters of a signature of several lines as they are joined. -/
def listed (f : SignatureParameter → Text) (ps : List SignatureParameter) : Text :=
  ps.flatMap fun p => ' ' :: f p ++ [',']

/-- The logical line that a signature makes up. -/
def ofSignature (number : Nat) (sig : Signature) (layout : Signature.Layout) : LogicalLine where
  first := number
  last := number + (sig.lines layout).length - 1
  text := sig.joined SignatureParameter.text layout
  code := sig.joined SignatureParameter.code layout
  braceDelta := 1
  continues := false

/-- The buffer holds back the first lines of a signature: its head, and some of its
parameters. -/
structure Buffer.Holds (b : Buffer) (number : Nat) (sig : Signature)
    (done : List SignatureParameter) : Prop where
  kind_eq : b.kind = .signature
  line_eq : b.line =
    { first := number
      last := number + done.length
      text := sig.head ++ '(' :: listed SignatureParameter.text done
      code := sig.head ++ '(' :: listed SignatureParameter.code done
      braceDelta := 0
      continues := false }
  joined_eq : b.joined = done.length + 1
  opened_eq : b.opened = b.closed + 1

variable {number : Nat} {sig : Signature} {indent : Text}

theorem listed_append (f : SignatureParameter → Text) (ps qs : List SignatureParameter) :
    listed f (ps ++ qs) = listed f ps ++ listed f qs := List.flatMap_append

/-- A line is put behind what is there without the blanks around it. -/
theorem append_eq {joined : Text} (hjoined : joined ≠ [])
    (hindent : ∀ c ∈ indent, Text.isBlank c = true) {piece : Text}
    (hstart : ∀ c ∈ piece.head?, Text.isBlank c = false)
    (hend : ∀ c ∈ piece.getLast?, Text.isBlank c = false) (hne : piece ≠ []) :
    append joined (indent ++ piece) = joined ++ ' ' :: piece := by
  have htrim : Text.trim (indent ++ piece) = piece := by
    rw [Text.trim, Text.trimStart_append_of_blank hindent]
    exact Text.trim_eq_self hstart hend
  unfold append
  simp [htrim, hne, hjoined]

/-- The line of a parameter is joined to the head and to the parameters before it. -/
theorem append_parameter {f : SignatureParameter → Text} {p : SignatureParameter} {rest : Text}
    (hf : f p = p.front ++ rest) (hindent : ∀ c ∈ indent, Text.isBlank c = true) (head : Text)
    (done : List SignatureParameter) :
    append (head ++ '(' :: listed f done) (indent ++ f p ++ [',']) =
      head ++ '(' :: listed f (done ++ [p]) := by
  obtain ⟨c, more, hfront, hblank, -⟩ := p.front_start
  have hstart : ∀ d ∈ (f p ++ [',']).head?, Text.isBlank d = false := by
    simp [hf, hfront, hblank]
  have hend : ∀ d ∈ (f p ++ [',']).getLast?, Text.isBlank d = false := by
    simp
    decide
  rw [List.append_assoc, append_eq (by simp) hindent hstart hend (by simp), listed_append]
  simp [listed]

/-- What the scrubbers make of the line of a parameter. -/
theorem scrub_parameter (hindent : ∀ c ∈ indent, Text.isBlank c = true) (p : SignatureParameter)
    (keep : Bool) :
    ({ keepLiterals := keep } : Scrubber).scrub (indent ++ p.text ++ [',']) =
      (if keep then indent ++ p.text ++ [','] else indent ++ p.code ++ [','],
        { keepLiterals := keep }) := by
  have hplain : ∀ c ∈ indent, c ∉ ['/', '#', '<', '\'', '"', '`'] := fun c hc =>
    Text.not_mem_of_class (hindent c hc) rfl
  have hcomma : Scrubber.Uncommented .code [','] [','] :=
    .plain (List.all_iff_forall_prop.mp (by decide))
  have hline := Scrubber.Uncommented.of_plain hplain (p.uncommented_text.append (by simp) hcomma)
  rw [List.append_assoc, List.append_assoc, hline.scrub_eq]

/-- The line of a parameter has no brackets of its own. -/
theorem count_parameter (hindent : ∀ c ∈ indent, Text.isBlank c = true) (p : SignatureParameter)
    {c : Char} (hc : Text.isBlank c = false ∧ c ≠ ',') :
    (indent ++ p.code ++ [',']).count c = p.code.count c := by
  have hnone : indent.count c = 0 := by
    refine List.count_eq_zero.mpr fun hmem => ?_
    rw [hindent c hmem] at hc
    cases hc.1
  rw [List.count_append, List.count_append, hnone, List.count_singleton]
  simp [Ne.symm hc.2]

theorem Buffer.Holds.push {b : Buffer} {done : List SignatureParameter}
    (h : b.Holds number sig done) (hindent : ∀ c ∈ indent, Text.isBlank c = true)
    (p : SignatureParameter) :
    (b.push (number + done.length + 1) (indent ++ p.text ++ [','])
      (indent ++ p.code ++ [','])).Holds number sig (done ++ [p]) where
  kind_eq := h.kind_eq
  line_eq := by
    have hdelta : Code.braceDelta (indent ++ p.code ++ [',']) = 0 := by
      rw [Code.braceDelta_eq_count, count_parameter hindent p (by decide),
        count_parameter hindent p (by decide),
        List.count_eq_zero.mpr (p.not_mem_code '\x7b' (by simp)),
        List.count_eq_zero.mpr (p.not_mem_code '\x7d' (by simp))]
      rfl
    simp only [Buffer.push, h.line_eq, hdelta,
      append_parameter (f := SignatureParameter.text) rfl hindent,
      append_parameter (f := SignatureParameter.code) rfl hindent]
    simp [Nat.add_assoc]
  joined_eq := by simp [Buffer.push, h.joined_eq]
  opened_eq := by
    have hcounts := p.uncommented_text.parenCounts_eq p.enclosed_text
    simp only [Buffer.push, Code.parenCounts, h.opened_eq, count_parameter hindent p (c := '(')
      (by decide), count_parameter hindent p (c := ')') (by decide), hcounts]
    omega

/-- With a parenthesis open, the reader waits for more lines as long as it may. -/
theorem Buffer.Holds.isComplete_eq_false {b : Buffer} {done : List SignatureParameter}
    (h : b.Holds number sig done) (hroom : done.length ≤ 62) (code : Text) (next : Option Text) :
    b.isComplete code next = false := by
  have hjoined : ¬ maxJoined ≤ b.joined := by
    rw [h.joined_eq, maxJoined]
    omega
  have hopened : (b.opened == b.closed) = false := by
    rw [h.opened_eq]
    simp
  simp [Buffer.isComplete, hjoined, h.kind_eq, hopened]

/-- The reader holds back the lines of the parameters one by one. -/
theorem ofLinesFrom_parameters {b : Buffer} {done : List SignatureParameter}
    (h : b.Holds number sig done) (hindent : ∀ c ∈ indent, Text.isBlank c = true)
    (ps : List SignatureParameter) (hroom : (done ++ ps).length ≤ 62) (rest : List Text) :
    ∃ b' : Buffer, b'.Holds number sig (done ++ ps) ∧
      ofLinesFrom (number + done.length + 1) {} { keepLiterals := true } (some b)
          ((ps.map fun p => indent ++ p.text ++ [',']) ++ rest) =
        ofLinesFrom (number + (done ++ ps).length + 1) {} { keepLiterals := true } (some b')
          rest := by
  induction ps generalizing b done with
  | nil => exact ⟨b, by simpa using h, by simp⟩
  | cons p ps ih =>
    have hpush := h.push hindent p
    have hshort : (done ++ [p]).length ≤ 62 := by
      simp at hroom ⊢
      omega
    obtain ⟨b', hb', hread⟩ := ih hpush (by simpa using hroom)
    refine ⟨b', by simpa using hb', ?_⟩
    have htext := scrub_parameter hindent p true
    have hcode := scrub_parameter hindent p false
    rw [if_pos rfl] at htext
    rw [if_neg (by simp)] at hcode
    rw [List.map_cons, List.cons_append, ofLinesFrom_push, htext, hcode,
      hpush.isComplete_eq_false hshort, if_neg (by simp)]
    simpa [Nat.add_assoc] using hread

theorem trim_head (sig : Signature) {s : Text} (hend : ∀ c ∈ s.getLast?, Text.isBlank c = false)
    (hne : s ≠ []) : Text.trim (sig.head ++ s) = sig.head ++ s := by
  refine Text.trim_eq_self ?_ ?_
  · intro c hc
    obtain rfl := Option.some.inj hc
    decide
  · rwa [List.getLast?_append_of_ne_nil _ hne]

theorem stripAttributes_head (sig : Signature) (s : Text) :
    Code.stripAttributes (sig.head ++ s) = sig.head ++ s :=
  Code.stripAttributes_of_dropAttribute? rfl

/-- The first line of a signature of several lines is held back. -/
theorem ofLinesFrom_head (number : Nat) (sig : Signature) (rest : List Text) :
    ∃ b : Buffer, b.Holds number sig [] ∧
      ofLinesFrom number {} { keepLiterals := true } none ((sig.head ++ ['(']) :: rest) =
        ofLinesFrom (number + 1) {} { keepLiterals := true } (some b) rest := by
  have hscrub (keep : Bool) : ({ keepLiterals := keep } : Scrubber).scrub (sig.head ++ ['(']) =
      (sig.head ++ ['('], { keepLiterals := keep }) := by
    rw [(Scrubber.Uncommented.plain sig.uncommented_head).scrub_eq, ite_self]
  have hcount {c : Char} (hc : SignatureParameter.isTypedChar c = false) :
      (sig.head ++ ['(']).count c = if '(' == c then 1 else 0 := by
    rw [List.count_append, sig.count_head hc, List.count_singleton, Nat.zero_add]
  have htrim : Text.trim (sig.head ++ ['(']) = sig.head ++ ['('] :=
    trim_head sig (by simp; decide) (by simp)
  have hdelta : Code.braceDelta (sig.head ++ ['(']) = 0 := by
    rw [Code.braceDelta_eq_count, hcount rfl, hcount rfl]
    rfl
  have hpending : pending? (single number {} { keepLiterals := true } (sig.head ++ ['(']))
      (nextLine rest) = some .signature := by
    have hread : (FunctionDecl.readHead? (sig.head ++ ['('])).isSome = true := by
      rw [sig.readHead?_head []]
      rfl
    simp only [pending?, single, hscrub, stripAttributes_head, hread, Code.parenCounts,
      hcount (c := '(') rfl, hcount (c := ')') rfl]
    simp
  refine ⟨.start .signature (single number {} { keepLiterals := true } (sig.head ++ ['('])),
    ⟨rfl, ?_, rfl, ?_⟩, ?_⟩
  · simp only [Buffer.start, single, hscrub, htrim, hdelta]
    rfl
  · simp only [Buffer.start, single, hscrub, Code.parenCounts, hcount (c := '(') rfl,
      hcount (c := ')') rfl]
    rfl
  · rw [ofLinesFrom_single, hpending, hscrub true, hscrub false]
    rfl

theorem hasSignatureEnd_append {s : Text} (h : endsSignature s = true) (front : Text) :
    hasSignatureEnd (front ++ ')' :: s) = true := by
  induction front with
  | nil => simp [hasSignatureEnd, h]
  | cons c front ih => simp [hasSignatureEnd, ih]

theorem endsSignature_tail (sig : Signature) : endsSignature sig.tail = true := by
  rcases sig.tail_cases with ⟨-, htail⟩ | ⟨t, -, htail, hplain⟩
  · rw [htail]
    rfl
  · rw [htail, endsSignature, Text.trimStart_cons_of_not_blank (by decide)]
    have hdrop : (' ' :: t.text ++ [' '] ++ ['\x7b']).dropWhile (fun c => c != '\x7b' && c != ';') =
        ['\x7b'] := by
      rw [List.dropWhile_append_of_pos fun c hc => by simp [hplain c hc]]
      rfl
    simp only [hdrop]
    rfl

/-- The brace ends the line with the closing parenthesis, and so it ends what is joined. -/
theorem trimEnd_tail (sig : Signature) (front : Text) :
    (front ++ ')' :: sig.tail).getLast? = some '\x7b' ∧
      Text.trimEnd (front ++ ')' :: sig.tail) = front ++ ')' :: sig.tail := by
  obtain ⟨t, htail, -⟩ := sig.tail_eq
  have hend : front ++ ')' :: sig.tail = (front ++ ')' :: t) ++ ['\x7b'] := by simp [htail]
  have hlast : (front ++ ')' :: sig.tail).getLast? = some '\x7b' := by
    rw [hend, List.getLast?_concat]
  refine ⟨hlast, Text.trimEnd_eq_self fun c hc => ?_⟩
  obtain rfl := Option.some.inj (hlast.symm.trans hc)
  decide

/-- What is joined of a signature ends one, and no result type can follow. -/
theorem ends_joined (sig : Signature) (f : SignatureParameter → Text) (layout : Signature.Layout) :
    hasSignatureEnd (Text.trimEnd (sig.joined f layout)) = true ∧
      endsWithParen (sig.joined f layout) = false := by
  obtain ⟨front, hjoined⟩ : ∃ front, sig.joined f layout = front ++ ')' :: sig.tail :=
    ⟨sig.head ++ '(' :: Text.join [','] (sig.parts f layout), by simp [Signature.joined]⟩
  obtain ⟨hlast, htrim⟩ := trimEnd_tail sig front
  rw [hjoined, endsWithParen, htrim, hlast]
  exact ⟨hasSignatureEnd_append (endsSignature_tail sig) front, rfl⟩

/-- The parameters of several joined lines are the parts of the text between the
parentheses, with commas between them. -/
theorem joined_spread (sig : Signature) (f : SignatureParameter → Text) (indent : Text)
    (hindent : ∀ c ∈ indent, Text.isBlank c = true) :
    sig.joined f (.spread indent hindent) =
      sig.head ++ '(' :: listed f sig.parameters ++ ' ' :: ')' :: sig.tail := by
  have hparts (ps : List SignatureParameter) :
      Text.join [','] ((ps.map fun p => ' ' :: f p) ++ [[' ']]) = listed f ps ++ [' '] := by
    induction ps with
    | nil => rfl
    | cons p ps ih =>
      have hne : (ps.map fun p => ' ' :: f p) ++ [[' ']] ≠ [] := by simp
      obtain ⟨part, more, hmore⟩ := List.exists_cons_of_ne_nil hne
      rw [List.map_cons, List.cons_append, hmore, Text.join, ← hmore, ih]
      simp [listed]
  rw [Signature.joined, Signature.parts, hparts]
  simp

/-- So are those of one line. -/
theorem joined_oneLine (sig : Signature) (f : SignatureParameter → Text) :
    sig.joined f .oneLine =
      sig.head ++ '(' :: Text.join [',', ' '] (sig.parameters.map f) ++ ')' :: sig.tail := by
  have hblank (s : Text) (more : List Text) :
      Text.join [','] ((' ' :: s) :: more) = ' ' :: Text.join [','] (s :: more) := by
    cases more <;> rfl
  have hparts (p : SignatureParameter) (ps : List SignatureParameter) :
      Text.join [','] (f p :: ps.map fun q => ' ' :: f q) =
        Text.join [',', ' '] (f p :: ps.map f) := by
    induction ps generalizing p with
    | nil => rfl
    | cons q ps ih =>
      rw [List.map_cons, List.map_cons, Text.join, Text.join, hblank, ih]
      simp
  unfold Signature.joined Signature.parts
  cases sig.parameters with
  | nil => simp [Text.join]
  | cons p ps => simp [hparts]

/-- Behind the lines of all parameters, the line with the closing parenthesis makes the
buffer hold the whole signature. -/
theorem Buffer.Holds.push_tail {b : Buffer} (h : b.Holds number sig sig.parameters)
    (hindent : ∀ c ∈ indent, Text.isBlank c = true) :
    (b.push (number + sig.parameters.length + 1) (')' :: sig.tail) (')' :: sig.tail)).line =
      ofSignature number sig (.spread indent hindent) := by
  have hend : ∀ c ∈ (')' :: sig.tail).getLast?, Text.isBlank c = false := by
    intro c hc
    obtain rfl := Option.some.inj ((trimEnd_tail sig []).1.symm.trans hc)
    decide
  have happend {joined : Text} (hjoined : joined ≠ []) :
      append joined (')' :: sig.tail) = joined ++ ' ' :: ')' :: sig.tail :=
    @append_eq [] joined hjoined (by simp) (')' :: sig.tail) (by simp; decide) hend (by simp)
  have hdelta : Code.braceDelta (')' :: sig.tail) = 1 := by
    rw [Code.braceDelta_eq_count, List.count_cons, List.count_cons, sig.count_tail rfl,
      sig.count_tail rfl]
    rfl
  have hlength : (sig.lines (.spread indent hindent)).length = sig.parameters.length + 2 := by
    simp [Signature.lines]
  simp only [Buffer.push, h.line_eq, hdelta, ofSignature, joined_spread, hlength]
  rw [happend (by simp), happend (by simp)]
  rfl

/-- Then the parentheses match, and the signature is complete. -/
theorem Buffer.Holds.isComplete_tail {b : Buffer} (h : b.Holds number sig sig.parameters)
    (hindent : ∀ c ∈ indent, Text.isBlank c = true) (code : Text) (next : Option Text) :
    (b.push (number + sig.parameters.length + 1) (')' :: sig.tail) (')' :: sig.tail)).isComplete
      code next = true := by
  have hopened : (')' :: sig.tail).count '(' = 0 := by
    rw [List.count_cons, sig.count_tail rfl]
    rfl
  have hclosed : (')' :: sig.tail).count ')' = 1 := by
    rw [List.count_cons, sig.count_tail rfl]
    rfl
  have hcode : (ofSignature number sig (.spread indent hindent)).code =
      sig.joined SignatureParameter.code (.spread indent hindent) := rfl
  obtain ⟨hends, hparen⟩ := ends_joined sig SignatureParameter.code (.spread indent hindent)
  rw [Buffer.isComplete, h.push_tail hindent, hcode, hends, hparen]
  simp [Buffer.push, Code.parenCounts, h.kind_eq, h.opened_eq, hopened, hclosed]

/-- A signature on one line waits for nothing. -/
theorem pending?_signature (number : Nat) (sig : Signature) (next : Option Text) :
    pending? (ofSignature number sig .oneLine) next = none := by
  have hstrip : Code.stripAttributes (sig.joined SignatureParameter.text .oneLine) =
      sig.joined SignatureParameter.text .oneLine := stripAttributes_head sig _
  have hread : (FunctionDecl.readHead? (sig.joined SignatureParameter.text .oneLine)).isSome =
      true := by
    rw [Signature.joined, sig.readHead?_head]
    rfl
  simp [pending?, ofSignature, hstrip, hread, Code.parenCounts, sig.parenCounts_joined,
    (ends_joined sig SignatureParameter.code .oneLine).2]

theorem ofLinesFrom_oneLine (number : Nat) (sig : Signature) (rest : List Text) :
    ofLinesFrom number {} { keepLiterals := true } none (sig.lines .oneLine ++ rest) =
      ofSignature number sig .oneLine ::
        ofLinesFrom (number + 1) {} { keepLiterals := true } none rest := by
  have hlines : sig.lines .oneLine = [sig.joined SignatureParameter.text .oneLine] := by
    rw [Signature.lines, joined_oneLine]
  have hscrub (keep : Bool) := (sig.uncommented_joined .oneLine).scrub_eq keep
  have hsingle : single number {} { keepLiterals := true }
      (sig.joined SignatureParameter.text .oneLine) = ofSignature number sig .oneLine := by
    have hcontinues : (({} : Scrubber).inComment || ({} : Scrubber).inLiteral) = false := rfl
    simp [single, hscrub, ofSignature, sig.braceDelta_joined, hlines, hcontinues]
  have hfresh : (ofSignature number sig .oneLine).continues = false := rfl
  rw [hlines, List.singleton_append, ofLinesFrom_single, hsingle, hfresh, if_neg (by simp),
    pending?_signature, hscrub true, hscrub false]

theorem ofLinesFrom_spread (number : Nat) (sig : Signature)
    (hindent : ∀ c ∈ indent, Text.isBlank c = true) (rest : List Text) :
    ofLinesFrom number {} { keepLiterals := true } none
        (sig.lines (.spread indent hindent) ++ rest) =
      ofSignature number sig (.spread indent hindent) ::
        ofLinesFrom (number + sig.parameters.length + 2) {} { keepLiterals := true } none rest := by
  -- The head starts a buffer, each parameter stays in it, and the last line completes it.
  obtain ⟨b, hb, hhead⟩ := ofLinesFrom_head number sig
    ((sig.parameters.map fun p => indent ++ p.text ++ [',']) ++ (')' :: sig.tail) :: rest)
  obtain ⟨b', hb', hparameters⟩ := ofLinesFrom_parameters hb hindent sig.parameters
    (by simpa using sig.length_le) ((')' :: sig.tail) :: rest)
  simp only [List.length_nil, Nat.add_zero, List.nil_append] at hb' hparameters
  have hscrub (keep : Bool) := sig.uncommented_tail.scrub_eq keep
  have hlines : sig.lines (.spread indent hindent) ++ rest =
      (sig.head ++ ['(']) :: ((sig.parameters.map fun p => indent ++ p.text ++ [',']) ++
        (')' :: sig.tail) :: rest) := by
    simp [Signature.lines]
  rw [hlines, hhead, hparameters, ofLinesFrom_push, hscrub true, hscrub false]
  simp only [if_true, ite_self, hb'.isComplete_tail hindent, hb'.push_tail hindent]

/-- From the first line of a signature on, the reader returns its logical line. -/
theorem ofLinesFrom_signature (number : Nat) (sig : Signature) (layout : Signature.Layout)
    (rest : List Text) :
    ofLinesFrom number {} { keepLiterals := true } none (sig.lines layout ++ rest) =
      ofSignature number sig layout ::
        ofLinesFrom (number + (sig.lines layout).length) {} { keepLiterals := true } none rest := by
  cases layout with
  | oneLine => exact ofLinesFrom_oneLine number sig rest
  | spread indent hindent =>
    have hlength : (sig.lines (.spread indent hindent)).length = sig.parameters.length + 2 := by
      simp [Signature.lines]
    rw [hlength]
    exact ofLinesFrom_spread number sig hindent rest

end PhpLint.LogicalLine
