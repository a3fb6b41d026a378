import PhpLint.Code.Bracket
import PhpLint.Text.Utf8

/-!
Byte offsets into a text. What is found at an offset is what stands behind a beginning of the
text with as many bytes. A slice is checked: there is none if its ends are out of order, beyond
the text, or inside a character. A byte of an ASCII character is found in the UTF-8 form only
where that character starts, since all bytes of the other characters are larger.
-/

namespace PhpLint.Text

open Code (dropBytes?)

variable {s front rest : Text} {n start stop : Nat} {c d : Char}

@[simp] theorem byteLength_append (s t : Text) :
    byteLength (s ++ t) = byteLength s + byteLength t := by
  induction s with
  | nil => simp [byteLength]
  | cons c s ih => simp [byteLength, ih, Nat.add_assoc]

/-- The text up to a byte offset, if a character ends there. -/
def takeBytes? : Nat → Text → Option Text
  | 0, _ => some []
  | _ + 1, [] => none
  | n + 1, c :: s =>
    if c.utf8Size ≤ n + 1 then (takeBytes? (n + 1 - c.utf8Size) s).map (c :: ·) else none

/-- The text between two byte offsets. -/
def slice? (s : Text) (start stop : Nat) : Option Text :=
  if start ≤ stop then (Code.dropBytes? start s).bind (takeBytes? (stop - start)) else none

theorem dropBytes?_cons_of_le (h : c.utf8Size ≤ n) (s : Text) :
    dropBytes? n (c :: s) = dropBytes? (n - c.utf8Size) s := by
  obtain ⟨m, rfl⟩ : ∃ m, n = m + 1 := ⟨n - 1, by have := c.utf8Size_pos; omega⟩
  rw [dropBytes?, if_pos h]

theorem takeBytes?_cons_of_le (h : c.utf8Size ≤ n) (s : Text) :
    takeBytes? n (c :: s) = (takeBytes? (n - c.utf8Size) s).map (c :: ·) := by
  obtain ⟨m, rfl⟩ : ∃ m, n = m + 1 := ⟨n - 1, by have := c.utf8Size_pos; omega⟩
  rw [takeBytes?, if_pos h]

theorem dropBytes?_append (s t : Text) : Code.dropBytes? (byteLength s) (s ++ t) = some t := by
  induction s with
  | nil => simp [byteLength, Code.dropBytes?]
  | cons c s ih =>
    rw [byteLength, List.cons_append, dropBytes?_cons_of_le (Nat.le_add_right _ _),
      Nat.add_sub_cancel_left]
    exact ih

theorem takeBytes?_append (s t : Text) : takeBytes? (byteLength s) (s ++ t) = some s := by
  induction s with
  | nil => simp [byteLength, takeBytes?]
  | cons c s ih =>
    rw [byteLength, List.cons_append, takeBytes?_cons_of_le (Nat.le_add_right _ _),
      Nat.add_sub_cancel_left, ih, Option.map_some]

theorem dropBytes?_eq_some_iff :
    dropBytes? n s = some rest ↔ ∃ before, s = before ++ rest ∧ byteLength before = n := by
  constructor
  · intro h
    induction s generalizing n with
    | nil =>
      cases n with
      | zero => exact ⟨[], Option.some.inj h, rfl⟩
      | succ n => cases h
    | cons c s ih =>
      cases n with
      | zero => exact ⟨[], Option.some.inj h, rfl⟩
      | succ n =>
        rw [dropBytes?] at h
        split at h
        · rename_i hle
          obtain ⟨before, rfl, hlength⟩ := ih h
          refine ⟨c :: before, rfl, ?_⟩
          rw [byteLength, hlength]
          omega
        · cases h
  · rintro ⟨before, rfl, rfl⟩
    exact dropBytes?_append before rest

/-- Beginnings with as many bytes are the same. -/
theorem append_inj_of_byteLength {a a' b b' : Text} (h : a ++ b = a' ++ b')
    (hlength : byteLength a = byteLength a') : a = a' ∧ b = b' := by
  have hdrop := dropBytes?_append a b
  rw [h, hlength, dropBytes?_append] at hdrop
  obtain rfl := Option.some.inj hdrop
  exact ⟨List.append_cancel_right h, rfl⟩

theorem prefix_of_byteLength_lt {a a' b b' : Text} (h : a ++ c :: b = a' ++ b')
    (hlt : byteLength a < byteLength a') : a ++ [c] <+: a' := by
  rcases List.append_eq_append_iff.mp h with ⟨between, rfl, hbetween⟩ | ⟨between, rfl, -⟩
  · cases between with
    | nil => simp at hlt
    | cons d between =>
      obtain ⟨rfl, -⟩ := List.cons.inj hbetween
      exact ⟨between, by simp⟩
  · rw [byteLength_append] at hlt
    omega

theorem takeBytes?_eq_some_iff :
    takeBytes? n s = some front ↔ ∃ after, s = front ++ after ∧ byteLength front = n := by
  constructor
  · intro h
    induction s generalizing n front with
    | nil =>
      cases n with
      | zero => exact ⟨[], by rw [← Option.some.inj h]; rfl, by rw [← Option.some.inj h]; rfl⟩
      | succ n => cases h
    | cons c s ih =>
      cases n with
      | zero =>
        obtain rfl := Option.some.inj h
        exact ⟨c :: s, rfl, rfl⟩
      | succ n =>
        rw [takeBytes?] at h
        split at h
        · rename_i hle
          obtain ⟨more, hmore, rfl⟩ := Option.map_eq_some_iff.mp h
          obtain ⟨after, rfl, hlength⟩ := ih hmore
          refine ⟨after, rfl, ?_⟩
          rw [byteLength, hlength]
          omega
        · cases h
  · rintro ⟨after, rfl, rfl⟩
    exact takeBytes?_append front after

theorem slice?_append (s t u : Text) :
    slice? (s ++ (t ++ u)) (byteLength s) (byteLength s + byteLength t) = some t := by
  rw [slice?, if_pos (Nat.le_add_right _ _), dropBytes?_append, Nat.add_sub_cancel_left]
  exact takeBytes?_append t u

theorem slice?_eq_some_iff :
    slice? s start stop = some front ↔ ∃ before after, s = before ++ (front ++ after) ∧
      byteLength before = start ∧ start + byteLength front = stop := by
  constructor
  · intro h
    unfold slice? at h
    split at h
    · rename_i hle
      obtain ⟨behind, hbehind, hfront⟩ := Option.bind_eq_some_iff.mp h
      obtain ⟨before, rfl, hstart⟩ := dropBytes?_eq_some_iff.mp hbehind
      obtain ⟨after, rfl, hlength⟩ := takeBytes?_eq_some_iff.mp hfront
      exact ⟨before, after, rfl, hstart, by omega⟩
    · cases h
  · rintro ⟨before, after, rfl, rfl, rfl⟩
    exact slice?_append before front after

theorem slice?_of_lt (s : Text) {start stop : Nat} (h : stop < start) :
    slice? s start stop = none := by
  rw [slice?, if_neg (by omega)]

/-- What follows a prefix is found at the offset at which it starts. -/
theorem dropBytes?_of_suffix {s rest : Text} (h : rest <:+ s) :
    Code.dropBytes? (byteLength s - byteLength rest) s = some rest := by
  obtain ⟨before, rfl⟩ := h
  rw [byteLength_append, Nat.add_sub_cancel]
  exact dropBytes?_append before rest

theorem dropBytes?_length {n : Nat} {s rest : Text} (h : Code.dropBytes? (n + 1) s = some rest) :
    rest.length < s.length := by
  obtain ⟨before, rfl, hlength⟩ := dropBytes?_eq_some_iff.mp h
  cases before with
  | nil => cases hlength
  | cons c before =>
    rw [List.length_append, List.length_cons]
    omega

/-- An offset at which a character goes on that has started before. -/
def InsideChar (s : Text) (n : Nat) : Prop :=
  ∃ before c after, s = before ++ c :: after ∧ byteLength before < n ∧
    n < byteLength before + c.utf8Size

theorem dropBytes?_of_insideChar (h : InsideChar s n) : dropBytes? n s = none := by
  obtain ⟨before, c, after, rfl, hlower, hupper⟩ := h
  apply Option.eq_none_iff_forall_ne_some.mpr
  intro rest hrest
  obtain ⟨front, hfront, rfl⟩ := dropBytes?_eq_some_iff.mp hrest
  obtain ⟨more, rfl⟩ := prefix_of_byteLength_lt hfront hlower
  rw [byteLength_append, byteLength_append, byteLength, byteLength] at hupper
  omega

/-! ## The bytes of a text -/

theorem utf8_cons (c : Char) (s : Text) : utf8 (c :: s) = String.utf8EncodeChar c ++ utf8 s :=
  List.flatMap_cons

theorem length_utf8 (s : Text) : (utf8 s).length = byteLength s := by
  induction s with
  | nil => rfl
  | cons c s ih => rw [utf8_cons, List.length_append, String.length_utf8EncodeChar, ih, byteLength]

theorem le_of_mem_utf8EncodeChar (hd : 0x80 ≤ d.toNat) {b : UInt8}
    (h : b ∈ String.utf8EncodeChar d) : 0x80 ≤ b.toNat := by
  have hvalue : d.val.toNat = d.toNat := rfl
  unfold String.utf8EncodeChar at h
  rw [if_neg (by omega)] at h
  split at h
  · simp only [List.mem_cons, List.not_mem_nil, or_false] at h
    rcases h with rfl | rfl
    all_goals
      rw [UInt8.toNat_ofNat']
      omega
  · split at h
    · simp only [List.mem_cons, List.not_mem_nil, or_false] at h
      rcases h with rfl | rfl | rfl
      all_goals
        rw [UInt8.toNat_ofNat']
        omega
    · simp only [List.mem_cons, List.not_mem_nil, or_false] at h
      rcases h with rfl | rfl | rfl | rfl
      all_goals
        rw [UInt8.toNat_ofNat']
        omega

theorem utf8EncodeChar_of_ascii (hc : c.toNat < 0x80) :
    String.utf8EncodeChar c = [c.toUInt8] := by
  have hvalue : c.val.toNat = c.toNat := rfl
  unfold String.utf8EncodeChar
  rw [if_pos (by omega)]
  rfl

theorem utf8Size_of_ascii (hc : c.toNat < 0x80) : c.utf8Size = 1 := by
  rw [← String.length_utf8EncodeChar, utf8EncodeChar_of_ascii hc, List.length_singleton]

theorem toNat_toUInt8_of_ascii (hc : c.toNat < 0x80) : c.toUInt8.toNat = c.toNat := by
  have hvalue : c.val.toNat = c.toNat := rfl
  rw [Char.toUInt8, UInt32.toNat_toUInt8, hvalue]
  exact Nat.mod_eq_of_lt (by omega)

theorem eq_of_mem_utf8EncodeChar (hc : c.toNat < 0x80)
    (h : c.toUInt8 ∈ String.utf8EncodeChar d) : d = c := by
  have hsmall := toNat_toUInt8_of_ascii hc
  have hd : d.toNat < 0x80 := by
    apply Nat.lt_of_not_le
    intro hlarge
    have hle := le_of_mem_utf8EncodeChar hlarge h
    omega
  rw [utf8EncodeChar_of_ascii hd, List.mem_singleton] at h
  have hnat : d.toNat = c.toNat := by
    rw [← hsmall, h, toNat_toUInt8_of_ascii hd]
  exact Char.toNat_inj.mp hnat

/-- The byte of an ASCII character is found where the character is found. -/
theorem getElem?_utf8_eq_some_iff (hc : c.toNat < 0x80) :
    (utf8 s)[n]? = some c.toUInt8 ↔ ∃ rest, dropBytes? n s = some (c :: rest) := by
  induction s generalizing n with
  | nil => cases n <;> simp [utf8, dropBytes?]
  | cons d s ih =>
    rw [utf8_cons]
    by_cases hn : n < d.utf8Size
    · rw [List.getElem?_append_left (by simpa using hn)]
      constructor
      · intro h
        obtain rfl := eq_of_mem_utf8EncodeChar hc (List.mem_of_getElem? h)
        obtain rfl : n = 0 := by
          rw [utf8Size_of_ascii hc] at hn
          omega
        exact ⟨s, rfl⟩
      · rintro ⟨rest, h⟩
        cases n with
        | zero =>
          obtain ⟨rfl, -⟩ := List.cons.inj (Option.some.inj h)
          rw [utf8EncodeChar_of_ascii hc]
          rfl
        | succ n =>
          rw [dropBytes?, if_neg (by omega)] at h
          cases h
    · rw [List.getElem?_append_right (by simpa using hn), String.length_utf8EncodeChar, ih,
        dropBytes?_cons_of_le (by omega)]

end PhpLint.Text
