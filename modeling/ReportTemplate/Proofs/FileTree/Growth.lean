import ReportTemplate.Proofs.FileTree.Leads

/-!
# ReportTemplate.Proofs.FileTree.Growth — trees that only gain nodes

While files, directories and links are created, what is there is kept.  Then whatever a path leads to
it goes on leading to.
-/

namespace ReportTemplate.FileTree

/-- Every node is kept: directories and the targets of links stay as they are, and files may be
written. -/
structure Grows (t t' : FileTree) : Prop where
  working : t'.working = t.working
  directory : ∀ r, t.node? r = some .directory → t'.node? r = some .directory
  link : ∀ r target, t.node? r = some (.link target) → t'.node? r = some (.link target)
  file : ∀ r bytes, t.node? r = some (.file bytes) → ∃ bytes', t'.node? r = some (.file bytes')

theorem node?_insert {t : FileTree} {r : RealPath} {n : Node} (hr : r ≠ []) (q : RealPath) :
    (t.insert r n).node? q = if q = r then some n else t.node? q := by
  by_cases heq : q = r
  · have hnone : (t.nodes.filter fun k => k.1 ≠ r).find? (fun n => n.1 = q) = none := by
      rw [List.find?_eq_none]
      intro k hk
      simpa [heq] using (List.mem_filter.mp hk).2
    rw [if_pos heq]
    unfold node? insert
    rw [if_neg (by simpa [heq] using hr), List.find?_append, hnone]
    simp [heq]
  · have hlast : [(r, n)].find? (fun k => k.1 = q) = none := by
      simp [Ne.symm heq]
    have hkept : (t.nodes.filter fun k => k.1 ≠ r).find? (fun k => k.1 = q) =
        t.nodes.find? fun k => k.1 = q := by
      rw [List.find?_filter]
      congr 1
      funext k
      by_cases hk : k.1 = q <;> simp [hk, heq]
    rw [if_neg heq]
    unfold node? insert
    rw [List.find?_append, hkept, hlast, Option.or_none]

namespace Grows

variable {t t' : FileTree} {k : Nat} {a b r : RealPath} {ss : List String} {p : Path}

theorem trans {t'' : FileTree} (h : t.Grows t') (h' : t'.Grows t'') : t.Grows t'' where
  working := h'.working.trans h.working
  directory r hr := h'.directory r (h.directory r hr)
  link r target hr := h'.link r target (h.link r target hr)
  file r bytes hr := (h.file r bytes hr).elim fun bytes' hr' => h'.file r bytes' hr'

/-- A node is created where nothing stands. -/
theorem insert {n : Node} (hr : r ≠ []) (hfree : t.node? r = none) : t.Grows (t.insert r n) := by
  have hkept {q : RealPath} {node : Node} (hq : t.node? q = some node) :
      (t.insert r n).node? q = some node := by
    rw [node?_insert hr, if_neg, hq]
    rintro rfl
    rw [hfree] at hq
    cases hq
  exact ⟨rfl, fun _ => hkept, fun _ _ => hkept, fun _ bytes hq => ⟨bytes, hkept hq⟩⟩

variable (h : t.Grows t')

include h

theorem stands (hr : t.Stands r) : t'.Stands r := by
  obtain ⟨node, hnode⟩ := hr.exists_node
  cases node with
  | directory => exact stands_of_directory (h.directory r hnode)
  | link target => exact absurd ⟨target, hnode⟩ hr.2
  | file bytes =>
    obtain ⟨bytes', hfile⟩ := h.file r bytes hnode
    refine ⟨by simp [hfile], ?_⟩
    rintro ⟨target, hlink⟩
    rw [hfile] at hlink
    cases hlink

/-- What is a directory later was none else before. -/
theorem directory_of_stands (hr : t.Stands r) (hlater : t'.node? r = some .directory) :
    t.node? r = some .directory := by
  obtain ⟨node, hnode⟩ := hr.exists_node
  cases node with
  | directory => exact hnode
  | link target => exact absurd ⟨target, hnode⟩ hr.2
  | file bytes =>
    obtain ⟨bytes', hfile⟩ := h.file r bytes hnode
    rw [hfile] at hlater
    cases hlater

theorem leads (hleads : Leads t k a ss b) : Leads t' k a ss b := by
  induction hleads with
  | here r => exact .here r
  | idle stood idle _ ih => exact .idle (h.directory _ stood) idle ih
  | up stood _ ih => exact .up (h.directory _ stood) ih
  | down stood step found _ ih => exact .down (h.directory _ stood) step (h.stands found) ih
  | link stood step found _ _ ihjump ihtail =>
    exact .link (h.directory _ stood) step (h.link _ _ found) ihjump ihtail

theorem start : t'.start p = t.start p := by
  unfold FileTree.start
  rw [h.working]

theorem realPath (hp : t.realPath p = .ok b) : t'.realPath p = .ok b := by
  obtain ⟨hnul, hne, k, hk, hleads⟩ := realPath_eq_ok_iff.mp hp
  refine realPath_eq_ok_iff.mpr ⟨hnul, hne, k, hk, ?_⟩
  rw [h.start]
  exact h.leads hleads

end Grows

end ReportTemplate.FileTree
