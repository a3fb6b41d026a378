import PhpLint.Proofs.FileTree.Location

/-!
The order in which a file tree lists its entries. Two trees with the same entries are the
same to every operation that reaches an entry by its location or by a path; only the order
of the entries in a directory can differ.
-/

namespace PhpLint.FileTree

variable {t t' : FileTree}

section Lookup

variable (hnode : t'.node? = t.node?) (hbarred : t'.barred? = t.barred?)

include hnode hbarred

theorem follow_congr (create : Bool)
    (onLink : Location → Path → List Text → Except FileError Location) :
    t'.follow create onLink = t.follow create onLink := by
  funext l names
  induction names generalizing l with
  | nil => rfl
  | cons name names ih => simp only [follow, hnode, hbarred, ih]

theorem resolveFrom_congr (create : Bool) (links : Nat) :
    t'.resolveFrom create links = t.resolveFrom create links := by
  induction links with
  | zero => simp only [resolveFrom, follow_congr hnode hbarred]
  | succ links ih => simp only [resolveFrom, follow_congr hnode hbarred, ih]

theorem resolve_congr : t'.resolve = t.resolve := by
  funext p
  rw [resolve, resolve, resolveFrom_congr hnode hbarred]

theorem isDir_congr : t'.isDir = t.isDir := by
  funext p
  simp only [isDir, lookup?, resolve_congr hnode hbarred, hnode]

theorem readText?_congr : t'.readText? = t.readText? := by
  funext p
  simp only [readText?, read, resolve_congr hnode hbarred, hnode, hbarred]

end Lookup

namespace WellFormed

variable (h : t.WellFormed) (hperm : t'.nodes.Perm t.nodes)

include h hperm

theorem node?_relist : t'.node? = t.node? := by
  have hnodup : t'.nodes.keys.Nodup := (hperm.map Prod.fst).nodup_iff.mpr h.nodup
  funext l
  cases l with
  | nil => rfl
  | cons name l =>
    ext node
    rw [h.node?_eq_some_iff, ← hperm.mem_iff]
    exact Keyed.get?_eq_some_iff hnodup

theorem relist (hbarred : t'.barred? = t.barred?) : t'.WellFormed where
  nodup := (hperm.map Prod.fst).nodup_iff.mpr h.nodup
  parent_dir := by simpa only [h.node?_relist hperm] using h.parent_dir
  parent_open := by simpa only [h.node?_relist hperm, hbarred] using h.parent_open
  named := by simpa only [h.node?_relist hperm] using h.named

omit h in
theorem children_relist (l : Location) : (t'.children l).Perm (t.children l) :=
  hperm.filterMap _

end WellFormed

end PhpLint.FileTree
