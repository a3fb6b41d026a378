import PhpLint.Proofs.Path.Components

/-!
The directories that a path lies in. The parent of a path from the top has all of its
components but the last one, and only the top directory has no parent.
-/

namespace PhpLint.Path

variable {p q : Path}

theorem isAbsolute_withLead (segments : List Text) :
    (withLead (some .root) segments).isAbsolute = true := by
  cases segments with
  | nil => rfl
  | cons s rest => cases rest <;> rfl

/-- The last segment that is kept has a meaning. -/
theorem not_idle_of_dropIdleEnd {s : Text} {front segments : List Text}
    (h : (dropIdleEnd segments).reverse = s :: front) : isIdle s = false := by
  rw [dropIdleEnd, List.reverse_reverse] at h
  have hnot := List.head?_dropWhile_not isIdle segments.reverse
  rw [h] at hnot
  exact hnot

/-- The parent of a path from the top, and which paths have none. -/
theorem parent?_cases (hp : p.isAbsolute = true) :
    (∃ q c, p.parent? = some q ∧ q.isAbsolute = true ∧ p.components = q.components ++ [c]) ∨
      p.parent? = none ∧ p.components = [.root] := by
  have hsplit : p.splitLead = (some .root, p.splitLead.2) := Prod.ext (lead_of_isAbsolute hp) rfl
  have hspelled := spelled_dropIdleEnd (spelled_splitLead p)
  rw [lead_of_isAbsolute hp] at hspelled
  have hcomponents : p.components = .root :: named (dropIdleEnd p.splitLead.2) := by
    rw [named_dropIdleEnd, components_of_isAbsolute hp]
  rw [parent?, hsplit]
  dsimp only
  cases hback : (dropIdleEnd p.splitLead.2).reverse with
  | nil =>
    right
    rw [List.reverse_eq_nil_iff] at hback
    exact ⟨rfl, by rw [hcomponents, hback]; rfl⟩
  | cons s front =>
    left
    have hidle := not_idle_of_dropIdleEnd hback
    have hsegments : dropIdleEnd p.splitLead.2 = front.reverse ++ [s] := by
      rw [← List.reverse_reverse (dropIdleEnd p.splitLead.2), hback, List.reverse_cons]
    obtain ⟨c, hc⟩ : ∃ c, segmentComponent? s = some c := by
      rw [segmentComponent?, if_neg (by simp [hidle])]
      split <;> exact ⟨_, rfl⟩
    have hfront : Spelled (some .root) front.reverse :=
      ⟨fun t ht => hspelled.no_separator t (hsegments ▸ List.mem_append_left _ ht),
        .inr (.inl rfl), fun h => by cases h⟩
    refine ⟨_, c, rfl, isAbsolute_withLead _, ?_⟩
    rw [components_withLead (spelled_dropIdleEnd hfront), named_dropIdleEnd, hcomponents,
      hsegments, named_append]
    simp [named, hc]

end PhpLint.Path
