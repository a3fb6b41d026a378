import Mathlib.Data.List.Induction
import Mathlib.Data.List.Perm.Subperm
import PhpLint.Code.Search

/-!
Searches for all matches that start a word. If no match starts inside another one, the search
finds what a reader finds that is started anew at every place; so two searches can be compared
place by place. Otherwise it passes over a match exactly if one that it finds starts earlier
and ends later, and so the first matches that it finds are those of a wanted kind exactly if no
match of another kind comes too early. A search goes on behind what a match has consumed, and
ends there if nothing is found in the rest of the text.
-/

namespace PhpLint.Code

variable {α β : Type} {read : Text → Option (α × Text)} {previous : Option Char} {s t : Text}

/-- What a reader finds at a place, behind a given character, if a word can start there. -/
def matchAt (read : Text → Option α) (previous : Option Char) (s : Text) : Option α :=
  if previous.any Text.isWord then none else read s

theorem matchAt_eq_some_iff {read : Text → Option α} {found : α} :
    matchAt read previous s = some found ↔
      (∀ c ∈ previous, Text.isWord c = false) ∧ read s = some found := by
  rw [matchAt]
  cases previous with
  | none => simp
  | some c => cases hc : Text.isWord c <;> simp [hc]

/-- What is found at all places of a text. -/
def matchesFrom (read : Text → Option (α × Text)) (previous : Option Char) : Text → List α
  | [] => []
  | c :: s =>
    ((matchAt read previous (c :: s)).map Prod.fst).toList ++ matchesFrom read (some c) s

/-- No match starts inside of another one. -/
def Separate (read : Text → Option (α × Text)) (previous : Option Char) (s : Text) : Prop :=
  ∀ u c v found rest, s = u ++ c :: v →
    matchAt read (u.getLast?.or previous) (c :: v) = some (found, rest) →
      ∀ x y, v = x ++ y → rest.length < y.length → matchAt read ((c :: x).getLast?) y = none

theorem getLast?_or_cons (c : Char) (u : Text) (previous : Option Char) :
    (c :: u).getLast?.or previous = u.getLast?.or (some c) := by
  rw [List.getLast?_cons]
  cases u.getLast? <;> rfl

theorem Separate.tail {c : Char} (h : Separate read previous (c :: s)) :
    Separate read (some c) s := by
  intro u d v found rest hs hmatch
  refine h (c :: u) d v found rest (by rw [hs]; rfl) ?_
  rwa [getLast?_or_cons]

/-- One step of a search for words. -/
theorem findAllFrom_cons (c : Char) (s : Text) :
    findAllFrom true read previous 0 (c :: s) =
      match matchAt read previous (c :: s) with
      | some (found, rest) => found :: findAllFrom true read (some c) (s.length - rest.length) s
      | none => findAllFrom true read (some c) 0 s :=
  rfl

/-- A search whose matches are separate finds what is found at any place. -/
theorem findAllFrom_eq_matchesFrom (h : Separate read previous s) {skip : Nat}
    (hskip : ∀ x y, s = x ++ y → x.length < skip →
      matchAt read (x.getLast?.or previous) y = none) :
    findAllFrom true read previous skip s = matchesFrom read previous s := by
  induction s generalizing previous skip with
  | nil => rfl
  | cons c s ih =>
    rw [matchesFrom]
    cases skip with
    | succ skip =>
      have hnone : matchAt read previous (c :: s) = none := hskip [] (c :: s) rfl (by simp)
      rw [findAllFrom, hnone]
      refine ih h.tail fun x y hs hx => ?_
      rw [← getLast?_or_cons c x previous]
      exact hskip (c :: x) y (by rw [hs]; rfl) (by simpa using hx)
    | zero =>
      rw [findAllFrom_cons]
      cases hmatch : matchAt read previous (c :: s) with
      | none => exact ih h.tail (by simp)
      | some result =>
        obtain ⟨found, rest⟩ := result
        refine congrArg (found :: ·) (ih h.tail fun x y hs hx => ?_)
        rw [← getLast?_or_cons c x none, Option.or_none]
        refine h [] c s found rest rfl hmatch x y hs ?_
        have hlength := congrArg List.length hs
        rw [List.length_append] at hlength
        omega

theorem findAllWords_eq_matchesFrom (h : Separate read none s) :
    findAllWords read s = matchesFrom read none s :=
  findAllFrom_eq_matchesFrom h (by simp)

theorem length_matchesFrom_le (read : Text → Option (α × Text)) (previous : Option Char)
    (c : Char) (s : Text) :
    (matchesFrom read (some c) s).length ≤ (matchesFrom read previous (c :: s)).length := by
  rw [matchesFrom, List.length_append]
  omega

theorem mem_matchesFrom {found : α} :
    found ∈ matchesFrom read previous s ↔
      ∃ u c v rest, s = u ++ c :: v ∧
        matchAt read (u.getLast?.or previous) (c :: v) = some (found, rest) := by
  induction s generalizing previous with
  | nil => simp [matchesFrom]
  | cons d s ih =>
    rw [matchesFrom, List.mem_append, ih]
    constructor
    · rintro (hhere | ⟨u, c, v, rest, rfl, hmatch⟩)
      · simp only [Option.mem_toList, Option.map_eq_some_iff] at hhere
        obtain ⟨⟨_, rest⟩, hmatch, rfl⟩ := hhere
        exact ⟨[], d, s, rest, rfl, hmatch⟩
      · exact ⟨d :: u, c, v, rest, rfl, by rwa [getLast?_or_cons]⟩
    · rintro ⟨u, c, v, rest, hs, hmatch⟩
      cases u with
      | nil =>
        obtain ⟨rfl, rfl⟩ := List.cons.inj hs
        exact .inl (by simp [show matchAt read previous (d :: s) = some (found, rest) from hmatch])
      | cons e u =>
        obtain ⟨rfl, rfl⟩ := List.cons.inj hs
        exact .inr ⟨u, c, v, rest, rfl, by rwa [← getLast?_or_cons]⟩

/-- A match, with how much of the text is left where it starts and behind it. -/
structure Match (α : Type) where
  found : α
  start : Nat
  stop : Nat
  deriving Repr, DecidableEq

namespace Match

/-- A match that starts where another one has started and has not ended. -/
def Inside (k whole : Match α) : Prop := whole.stop < k.start ∧ k.start < whole.start

instance (k whole : Match α) : Decidable (k.Inside whole) := inferInstanceAs (Decidable (_ ∧ _))

end Match

/-- A reader that returns where its match starts and ends as well. -/
def located (read : Text → Option (α × Text)) (s : Text) : Option (Match α × Text) :=
  (read s).map fun (found, rest) => (⟨found, s.length, rest.length⟩, rest)

theorem located_eq_some_iff {k : Match α} {rest : Text} :
    located read s = some (k, rest) ↔
      read s = some (k.found, rest) ∧ k.start = s.length ∧ k.stop = rest.length := by
  obtain ⟨found, start, stop⟩ := k
  simp only [located, Option.map_eq_some_iff, Prod.mk.injEq, Match.mk.injEq]
  constructor
  · rintro ⟨_, hread, ⟨rfl, rfl, rfl⟩, rfl⟩
    exact ⟨hread, rfl, rfl⟩
  · rintro ⟨hread, rfl, rfl⟩
    exact ⟨_, hread, ⟨rfl, rfl, rfl⟩, rfl⟩

theorem matchAt_located_eq_some_iff {k : Match α} {rest : Text} :
    matchAt (located read) previous s = some (k, rest) ↔
      matchAt read previous s = some (k.found, rest) ∧ k.start = s.length ∧
        k.stop = rest.length := by
  simp only [matchAt_eq_some_iff, located_eq_some_iff, and_assoc]

/-- The places change nothing about what is found. -/
theorem map_found_findAllFrom (word : Bool) (skip : Nat) :
    (findAllFrom word (located read) previous skip s).map Match.found =
      findAllFrom word read previous skip s := by
  induction s generalizing previous skip with
  | nil => rfl
  | cons c s ih =>
    cases skip with
    | succ skip => exact ih skip
    | zero =>
      rw [findAllFrom, findAllFrom, located]
      by_cases hword : (word && previous.any Text.isWord) = true
      · rw [if_pos hword, if_pos hword]
        exact ih 0
      · rw [if_neg hword, if_neg hword]
        cases read (c :: s) with
        | none => exact ih 0
        | some result => exact congrArg (result.1 :: ·) (ih _)

theorem map_found_findAllWords (read : Text → Option (α × Text)) (s : Text) :
    (findAllWords (located read) s).map Match.found = findAllWords read s :=
  map_found_findAllFrom true 0

section Places

variable {k : Match α}

/-- What a search finds starts behind what it skips, and there it is a match. -/
theorem mem_findAllFrom {skip : Nat} (h : k ∈ findAllFrom true (located read) previous skip s) :
    k ∈ matchesFrom (located read) previous s ∧ k.start + skip ≤ s.length := by
  induction s generalizing previous skip with
  | nil => cases h
  | cons c s ih =>
    rw [matchesFrom, List.mem_append, List.length_cons]
    cases skip with
    | succ skip =>
      obtain ⟨hmem, hplace⟩ := ih h
      exact ⟨.inr hmem, by omega⟩
    | zero =>
      rw [findAllFrom_cons] at h
      cases hmatch : matchAt (located read) previous (c :: s) with
      | none =>
        rw [hmatch] at h
        obtain ⟨hmem, hplace⟩ := ih h
        exact ⟨.inr hmem, by omega⟩
      | some result =>
        obtain ⟨first, rest⟩ := result
        rw [hmatch, List.mem_cons] at h
        rcases h with rfl | h
        · obtain ⟨-, hstart, -⟩ := matchAt_located_eq_some_iff.mp hmatch
          exact ⟨.inl (by simp), by simp [hstart]⟩
        · obtain ⟨hmem, hplace⟩ := ih h
          exact ⟨.inr hmem, by omega⟩

variable (hread : ∀ s found rest, read s = some (found, rest) → rest.length < s.length)

include hread

theorem stop_lt_start_of_matchAt {rest : Text}
    (h : matchAt (located read) previous s = some (k, rest)) : k.stop < k.start := by
  obtain ⟨hmatch, hstart, hstop⟩ := matchAt_located_eq_some_iff.mp h
  rw [hstart, hstop]
  exact hread _ _ _ (matchAt_eq_some_iff.mp hmatch).2

theorem places_of_mem_matchesFrom (h : k ∈ matchesFrom (located read) previous s) :
    k.stop < k.start ∧ k.start ≤ s.length := by
  obtain ⟨u, c, v, rest, rfl, hmatch⟩ := mem_matchesFrom.mp h
  refine ⟨stop_lt_start_of_matchAt hread hmatch, ?_⟩
  rw [List.length_append, (matchAt_located_eq_some_iff.mp hmatch).2.1]
  exact Nat.le_add_left _ _

/-- A match behind what is skipped is found, or it starts inside one that is found. -/
theorem reached_of_mem_matchesFrom {skip : Nat} (h : k ∈ matchesFrom (located read) previous s)
    (hskip : k.start + skip ≤ s.length) :
    k ∈ findAllFrom true (located read) previous skip s ∨
      ∃ whole ∈ findAllFrom true (located read) previous skip s, k.Inside whole := by
  induction s generalizing previous skip with
  | nil => cases h
  | cons c s ih =>
    rw [matchesFrom, List.mem_append] at h
    rw [List.length_cons] at hskip
    cases skip with
    | succ skip =>
      rcases h with h | h
      · obtain ⟨⟨_, rest⟩, hmatch, rfl⟩ := Option.map_eq_some_iff.mp (Option.mem_toList.mp h)
        obtain ⟨-, hstart, -⟩ := matchAt_located_eq_some_iff.mp hmatch
        rw [hstart, List.length_cons] at hskip
        omega
      · exact ih h (by omega)
    | zero =>
      rw [findAllFrom_cons]
      cases hmatch : matchAt (located read) previous (c :: s) with
      | none =>
        rw [hmatch] at h
        rcases h with h | h
        · cases h
        · exact ih h (places_of_mem_matchesFrom hread h).2
      | some result =>
        obtain ⟨first, rest⟩ := result
        obtain ⟨-, hstart, hstop⟩ := matchAt_located_eq_some_iff.mp hmatch
        have hlast := stop_lt_start_of_matchAt hread hmatch
        rw [hmatch] at h
        simp only [List.mem_cons]
        rcases h with h | h
        · exact .inl (.inl (List.mem_singleton.mp h))
        · have hlater := (places_of_mem_matchesFrom hread h).2
          rw [List.length_cons] at hstart
          by_cases hinside : first.stop < k.start
          · exact .inr ⟨first, .inl rfl, hinside, by omega⟩
          · have hplace : k.start + (s.length - rest.length) ≤ s.length := by omega
            rcases ih h hplace with h | ⟨whole, h, hk⟩
            · exact .inl (.inr h)
            · exact .inr ⟨whole, .inr h, hk⟩

/-- What is found next starts behind what has been found. -/
theorem separate_findAllFrom (previous : Option Char) (skip : Nat) (s : Text) :
    (findAllFrom true (located read) previous skip s).Pairwise fun a b => b.start ≤ a.stop := by
  induction s generalizing previous skip with
  | nil => exact .nil
  | cons c s ih =>
    cases skip with
    | succ skip => exact ih _ skip
    | zero =>
      rw [findAllFrom_cons]
      cases hmatch : matchAt (located read) previous (c :: s) with
      | none => exact ih _ 0
      | some result =>
        obtain ⟨first, rest⟩ := result
        obtain ⟨-, hstart, hstop⟩ := matchAt_located_eq_some_iff.mp hmatch
        have hlast := stop_lt_start_of_matchAt hread hmatch
        rw [List.length_cons] at hstart
        refine List.pairwise_cons.mpr ⟨fun k hk => ?_, ih _ _⟩
        have hplace := (mem_findAllFrom hk).2
        omega

end Places

/-- The matches that a search finds, of which those of one kind are wanted and those of the
other are not; no wanted match starts inside another one. -/
structure Sifts (found wanted others : List (Match α)) : Prop where
  forward : ∀ k ∈ found, k.stop < k.start
  separate : found.Pairwise fun a b => b.start ≤ a.stop
  kind : ∀ k ∈ found, k ∈ wanted ∨ k ∈ others
  reached : ∀ k, k ∈ wanted ∨ k ∈ others → k ∈ found ∨ ∃ whole ∈ found, k.Inside whole
  ordered : wanted.Pairwise fun a b => b.start < a.start
  apart : ∀ k ∈ wanted, k ∉ others
  outside : ∀ k ∈ wanted, ∀ whole ∈ wanted, ¬ k.Inside whole

namespace Sifts

variable {found wanted others before after : List (Match α)} {k f : Match α} {n : Nat}

theorem nodup_of_ordered {list : List (Match α)}
    (h : list.Pairwise fun a b => b.start < a.start) : list.Nodup :=
  h.imp fun hlt heq => absurd (congrArg Match.start heq) (Nat.ne_of_gt hlt)

theorem ordered_found (h : Sifts found wanted others) :
    found.Pairwise fun a b => b.start < a.start :=
  h.separate.imp_of_mem fun ha _ hab => Nat.lt_of_le_of_lt hab (h.forward _ ha)

/-- What is found in front of a place has been found before. -/
theorem mem_before (h : Sifts found wanted others) (hsplit : found = before ++ k :: after)
    (hf : f ∈ found) (hlt : k.start < f.start) : f ∈ before := by
  have hordered := h.ordered_found
  rw [hsplit] at hf hordered
  rcases List.mem_append.mp hf with hf | hf
  · exact hf
  · have hbehind := (List.pairwise_append.mp hordered).2.1
    rcases List.mem_cons.mp hf with rfl | hf
    · exact absurd hlt (Nat.lt_irrefl _)
    · have hgt := (List.pairwise_cons.mp hbehind).1 f hf
      omega

/-- A wanted match in front of a place is found there, if only wanted ones are. -/
theorem mem_before_of_wanted (h : Sifts found wanted others)
    (hsplit : found = before ++ k :: after) (hbefore : ∀ b ∈ before, b ∈ wanted)
    (hf : f ∈ wanted) (hlt : k.start < f.start) : f ∈ before := by
  rcases h.reached f (.inl hf) with hfound | ⟨whole, hwhole, hinside⟩
  · exact h.mem_before hsplit hfound hlt
  · have hmem := h.mem_before hsplit hwhole (Nat.lt_trans hlt hinside.2)
    exact absurd hinside (h.outside f hf whole (hbefore whole hmem))

/-- A match of the other kind does no harm inside a wanted one, or behind as many as count. -/
def Harmless (wanted : List (Match α)) (n : Nat) (k : Match α) : Prop :=
  (∃ whole ∈ wanted, k.Inside whole) ∨ n ≤ (wanted.filter (k.start < ·.start)).length

/-- If no other match does harm, the first matches that are found are wanted. -/
theorem wanted_of_harmless (h : Sifts found wanted others)
    (hothers : ∀ k ∈ others, Harmless wanted n k) (hsplit : found = before ++ after)
    (hlength : before.length ≤ n) : ∀ k ∈ before, k ∈ wanted := by
  induction before using List.reverseRecOn generalizing after with
  | nil => simp
  | append_singleton before k ih =>
    rw [List.append_assoc, List.singleton_append] at hsplit
    rw [List.length_append, List.length_singleton] at hlength
    have hbefore := ih hsplit (by omega)
    have hk : k ∈ found := hsplit ▸ List.mem_append_right _ List.mem_cons_self
    refine fun b hb => (List.mem_append.mp hb).elim (hbefore b) fun hb => ?_
    obtain rfl := List.mem_singleton.mp hb
    rcases h.kind b hk with hwanted | hother
    · exact hwanted
    · exfalso
      rcases hothers b hother with ⟨whole, hwhole, hinside⟩ | hmany
      · -- A wanted match around it has been found, and the search has gone on behind it.
        have hmem := h.mem_before_of_wanted hsplit hbefore hwhole hinside.2
        have hseparate := h.separate
        rw [hsplit] at hseparate
        have hle := (List.pairwise_append.mp hseparate).2.2 whole hmem b List.mem_cons_self
        exact absurd hinside.1 (Nat.not_lt.mpr hle)
      · have hsubset : wanted.filter (b.start < ·.start) ⊆ before := by
          intro f hf
          obtain ⟨hf, hlt⟩ := List.mem_filter.mp hf
          exact h.mem_before_of_wanted hsplit hbefore hf (of_decide_eq_true hlt)
        have hcount := (List.subperm_of_subset ((nodup_of_ordered h.ordered).filter _)
          hsubset).length_le
        omega

/-- If the first matches that are found are wanted, all wanted ones are among them. -/
theorem mem_take_of_wanted (h : Sifts found wanted others) (hcount : wanted.length ≤ n)
    (htake : ∀ k ∈ found.take n, k ∈ wanted) (hk : k ∈ wanted) : k ∈ found.take n := by
  rcases Nat.le_total n found.length with hle | hle
  · have hnodup : (found.take n).Nodup :=
      (nodup_of_ordered h.ordered_found).sublist (List.take_sublist n found)
    have hperm := (List.subperm_of_subset hnodup htake).perm_of_length_le
      (by rwa [List.length_take, Nat.min_eq_left hle])
    exact hperm.mem_iff.mpr hk
  · rw [List.take_of_length_le hle] at htake ⊢
    rcases h.reached k (.inl hk) with hfound | ⟨whole, hwhole, hinside⟩
    · exact hfound
    · exact absurd hinside (h.outside k hk whole (htake whole hwhole))

/-- The first matches that are found are the wanted ones exactly if no other match does harm. -/
theorem take_eq_iff (h : Sifts found wanted others) (hcount : wanted.length ≤ n) :
    found.take n = wanted ↔ ∀ k ∈ others, Harmless wanted n k := by
  constructor
  · intro htake k hk
    obtain ⟨f, hf, hle, hinside⟩ : ∃ f ∈ found, k.start ≤ f.start ∧ (f = k ∨ k.Inside f) := by
      rcases h.reached k (.inr hk) with hfound | ⟨whole, hwhole, hinside⟩
      · exact ⟨k, hfound, Nat.le_refl _, .inl rfl⟩
      · exact ⟨whole, hwhole, Nat.le_of_lt hinside.2, .inr hinside⟩
    have hordered := h.ordered_found
    rw [← List.take_append_drop n found, htake] at hf hordered
    rcases List.mem_append.mp hf with hf | hf
    · rcases hinside with rfl | hinside
      · exact absurd hk (h.apart f hf)
      · exact .inl ⟨f, hf, hinside⟩
    · right
      have hfront : ∀ w ∈ wanted, k.start < w.start := fun w hw =>
        Nat.lt_of_le_of_lt hle ((List.pairwise_append.mp hordered).2.2 w hw f hf)
      have hlength := congrArg List.length htake
      have hdrop := List.length_pos_of_mem hf
      rw [List.length_take] at hlength
      rw [List.length_drop] at hdrop
      rw [List.filter_eq_self.mpr fun w hw => decide_eq_true (hfront w hw)]
      omega
  · intro hothers
    have htake := h.wanted_of_harmless hothers (List.take_append_drop n found).symm
      (by rw [List.length_take]; omega)
    have hordered : (found.take n).Pairwise fun a b => b.start < a.start :=
      h.ordered_found.sublist (List.take_sublist n found)
    refine List.Perm.eq_of_pairwise (fun a b _ _ hlt hgt => ?_) hordered h.ordered ?_
    · omega
    · exact (List.perm_ext_iff_of_nodup (nodup_of_ordered hordered)
        (nodup_of_ordered h.ordered)).mpr fun k => ⟨htake k, h.mem_take_of_wanted hcount htake⟩

end Sifts

/-- What a match has consumed is passed over. -/
theorem findAllFrom_skip (word : Bool) (previous : Option Char) (s t : Text) :
    findAllFrom word read previous s.length (s ++ t) =
      findAllFrom word read (s.getLast?.or previous) 0 t := by
  induction s generalizing previous with
  | nil => rfl
  | cons c s ih => rw [getLast?_or_cons, ← ih]; rfl

/-- A search goes on behind a match at its start. -/
theorem findAllWords_of_read {c : Char} {found : α}
    (h : read (c :: (s ++ t)) = some (found, t)) :
    findAllWords read (c :: (s ++ t)) =
      found :: findAllFrom true read ((c :: s).getLast?) 0 t := by
  have hlength : (s ++ t).length - t.length = s.length := by simp
  have hlast := getLast?_or_cons c s none
  rw [Option.or_none] at hlast
  simp only [findAllWords, findAllFrom, Option.any_none, Bool.and_false, Bool.false_eq_true,
    if_false, h, hlength, findAllFrom_skip, hlast]

/-- Nothing is found in a text, whatever stands in front of it. -/
def Silent (read : Text → Option (α × Text)) (s : Text) : Prop :=
  ∀ previous, findAllFrom true read previous 0 s = []

namespace Silent

theorem nil : Silent read [] := fun _ => rfl

theorem cons {c : Char} (hc : read (c :: s) = none) (hs : Silent read s) :
    Silent read (c :: s) := by
  intro previous
  simp only [findAllFrom, hc, ite_self]
  exact hs _

/-- Inside a word no match starts. -/
theorem word (hs : ∀ c ∈ s, Text.isWord c = true) (hread : read (s ++ t) = none)
    (ht : Silent read t) : Silent read (s ++ t) := by
  have hinside {s : Text} (hs : ∀ c ∈ s, Text.isWord c = true) {c : Char}
      (hc : Text.isWord c = true) : findAllFrom true read (some c) 0 (s ++ t) = [] := by
    induction s generalizing c with
    | nil => exact ht _
    | cons d s ih =>
      rw [List.forall_mem_cons] at hs
      simpa [findAllFrom, hc] using ih hs.2 hs.1
  cases s with
  | nil => exact ht
  | cons c s =>
    rw [List.forall_mem_cons] at hs
    intro previous
    simp only [List.cons_append] at hread
    simp only [List.cons_append, findAllFrom, hread, ite_self]
    exact hinside hs.2 hs.1

end Silent

end PhpLint.Code
