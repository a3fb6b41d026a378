import PhpLint.Code.Keyword
import PhpLint.Text.Case

/-!
Modifiers in front of a declaration, and the visibility they give. An access
keyword with a setter mark limits writing only and gives no visibility.
-/

namespace PhpLint

inductive Visibility where
  | pub
  | prot
  | priv
  deriving DecidableEq, Repr, Inhabited

namespace Visibility

def name : Visibility → String
  | .pub => "public"
  | .prot => "protected"
  | .priv => "private"

/-- The visibility that an access keyword stands for. -/
def ofKeyword? (word : Text) : Option Visibility :=
  let word := Text.asciiLower word
  [Visibility.pub, .prot, .priv].find? fun v => v.name.toList == word

end Visibility

/-- One modifier as written. -/
structure Modifier where
  word : Text
  setter : Bool := false
  deriving DecidableEq, Repr

namespace Modifier

def accessWords : List Text := ["public", "protected", "private"].map String.toList

/-- Whether this is an access keyword. -/
def isAccess (m : Modifier) : Bool := accessWords.any (Code.foldsTo m.word)

/-- Whether this is the given keyword in any ASCII case. -/
def is (m : Modifier) (word : String) : Bool :=
  !m.setter && Text.asciiLower m.word == word.toList

/-- Which modifiers may stand in front of a declaration. -/
structure Family where
  /-- Access keywords may carry a setter mark. -/
  setters : Bool
  words : List Text

/-- Skips the setter mark of an access keyword. -/
def setter? (word rest : Text) : Option Text :=
  if accessWords.any (Code.foldsTo word) then
    (Code.keyword? "(set)".toList rest).map Prod.snd
  else none

/-- Reads one modifier and the blanks after it. -/
def read? (family : Family) (s : Text) : Option (Modifier × Text) :=
  match Code.anyKeyword? family.words s with
  | none => none
  | some (word, rest) =>
    match if family.setters then setter? word rest else none with
    | some afterMark => (Code.blanks? afterMark).map fun rest => (⟨word, true⟩, rest)
    | none => (Code.blanks? rest).map fun rest => (⟨word, false⟩, rest)

theorem setter?_length {word rest after : Text} (h : setter? word rest = some after) :
    after.length ≤ rest.length := by
  unfold setter? at h
  split at h
  · simp only [Option.map_eq_some_iff, Prod.exists] at h
    obtain ⟨w, after', h', rfl⟩ := h
    exact Code.keyword?_length h'
  · simp at h

theorem read?_length {family : Family} {s rest : Text} {m : Modifier}
    (h : read? family s = some (m, rest)) : rest.length < s.length := by
  unfold read? at h
  split at h
  · simp at h
  · rename_i word after hword
    have hle := Code.anyKeyword?_length hword
    split at h
    · rename_i afterMark hmark
      simp only [Option.map_eq_some_iff, Prod.mk.injEq] at h
      obtain ⟨rest', h', -, rfl⟩ := h
      have hset : afterMark.length ≤ after.length := by
        split at hmark
        · exact setter?_length hmark
        · simp at hmark
      exact Nat.lt_of_lt_of_le (Code.blanks?_length h') (Nat.le_trans hset hle)
    · simp only [Option.map_eq_some_iff, Prod.mk.injEq] at h
      obtain ⟨rest', h', -, rfl⟩ := h
      exact Nat.lt_of_lt_of_le (Code.blanks?_length h') hle

/-- Reads all modifiers at the start of a text. -/
def readAll (family : Family) (s : Text) : List Modifier × Text :=
  match _h : read? family s with
  | none => ([], s)
  | some (m, rest) =>
    let (more, rest) := readAll family rest
    (m :: more, rest)
termination_by s.length
decreasing_by exact read?_length _h

theorem readAll_of_read? {family : Family} {s : Text} (h : read? family s = none) :
    readAll family s = ([], s) := by
  rw [readAll]
  split
  · rfl
  · rename_i hsome
    rw [h] at hsome
    cases hsome

theorem readAll_of_read?_some {family : Family} {s rest : Text} {m : Modifier}
    (h : read? family s = some (m, rest)) :
    readAll family s = (m :: (readAll family rest).1, (readAll family rest).2) := by
  rw [readAll]
  split
  · rename_i hnone
    rw [h] at hnone
    cases hnone
  · rename_i m' rest' hsome
    obtain ⟨rfl, rfl⟩ := Prod.mk.inj (Option.some.inj (h.symm.trans hsome))
    rfl

/-- The visibility given by the first access keyword without a setter mark. -/
def visibility? (ms : List Modifier) : Option Visibility :=
  (ms.filter fun m => !m.setter).findSome? fun m => Visibility.ofKeyword? m.word

end Modifier

end PhpLint
