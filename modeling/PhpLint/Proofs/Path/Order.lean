import PhpLint.Proofs.Path.Components

/-!
The order of paths is that of their components, taken like the letters of words. It is
total, and only paths of the same components are equal in it.
-/

namespace PhpLint

/-- Sorting by a comparison. -/
theorem pairwise_mergeSort_isLE {α : Type} (cmp : α → α → Ordering) [Std.TransCmp cmp]
    (l : List α) : (l.mergeSort fun a b => (cmp a b).isLE).Pairwise fun a b => (cmp a b).isLE := by
  apply List.pairwise_mergeSort
  · intro a b c
    exact Std.TransCmp.isLE_trans
  · intro a b
    have hswap : (cmp a b).isGE = true ↔ (cmp b a).isLE = true := Std.OrientedCmp.isGE_iff_isLE
    rw [Bool.or_eq_true, ← hswap]
    cases cmp a b <;> simp

namespace PathComponent

theorem compare_eq : PathComponent.compare =
    compareLex (compareOn PathComponent.rank) (compareOn PathComponent.spelling) := rfl

instance : Std.TransCmp PathComponent.compare := by
  rw [compare_eq]
  infer_instance

instance : Std.LawfulEqCmp PathComponent.compare where
  eq_of_compare {a b} h := by
    rw [PathComponent.compare, Ordering.then_eq_eq, Std.LawfulEqOrd.compare_eq_iff_eq,
      Std.LawfulEqOrd.compare_eq_iff_eq] at h
    obtain ⟨hrank, hspelling⟩ := h
    cases a <;> cases b <;> simp_all [rank, spelling]

end PathComponent

namespace Path

theorem compareComponents_eq : compareComponents = List.compareLex PathComponent.compare := by
  funext ps qs
  induction ps generalizing qs with
  | nil => cases qs <;> rfl
  | cons p ps ih =>
    cases qs with
    | nil => rfl
    | cons q qs => rw [compareComponents, ih, List.compareLex_cons_cons]

instance : Std.TransCmp compareComponents := by
  rw [compareComponents_eq]
  infer_instance

instance : Std.LawfulEqCmp compareComponents := by
  rw [compareComponents_eq]
  infer_instance

instance : Std.TransCmp Path.compare where
  eq_swap {a b} := @Std.OrientedCmp.eq_swap _ compareComponents _ a.components b.components
  isLE_trans {a b c} :=
    @Std.TransCmp.isLE_trans _ compareComponents _ a.components b.components c.components

theorem compare_eq_iff {p q : Path} : p.compare q = .eq ↔ p.same q = true := by
  rw [compare, same_iff]
  exact Std.LawfulEqCmp.compare_eq_iff_eq

end Path

end PhpLint
