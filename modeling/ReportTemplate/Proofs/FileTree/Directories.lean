import ReportTemplate.Proofs.FileTree.Absolute

/-!
# ReportTemplate.Proofs.FileTree.Directories — directories that are joined to and listed

A joined path is followed from where the path in front of it leads, which has to be a directory.  The
listing of a directory has the directories in it, each of them once, and no links.
-/

namespace ReportTemplate

namespace FileTree

variable {t : FileTree} {k : Nat} {b r : RealPath} {p q : Path}

/-! ### Joined paths -/

/-- The segments of a relative path are followed from where the path in front of it leads. -/
theorem Leads.of_join (hq : q.isAbsolute = false) (hp : p.text ≠ "") {a : RealPath}
    (h : Leads t k a (p.join q).segments b) :
    ∃ i j mid, Leads t i a p.segments mid ∧ Leads t j mid q.segments b ∧ i + j = k ∧
      t.node? mid = some .directory := by
  have hstood {j : Nat} {mid : RealPath} (hrest : Leads t j mid q.segments b) :
      t.node? mid = some .directory := by
    obtain ⟨s, rest, hsegments⟩ := List.exists_cons_of_ne_nil q.segments_ne_nil
    rw [hsegments] at hrest
    exact hrest.stood
  rcases Path.join_cases p hq with ⟨rfl, -⟩ | ⟨text, rfl, hsegments⟩ | ⟨-, -, hsegments⟩
  · exact absurd rfl hp
  · rw [hsegments] at h
    obtain ⟨i, j, mid, hmid, hrest, hcount⟩ := h.split
    have hdirectory := hstood hrest
    rw [Path.segments_endsInSlash]
    exact ⟨i, j, mid, hmid.append (.idle hdirectory rfl (.here mid)), hrest, hcount, hdirectory⟩
  · rw [hsegments] at h
    obtain ⟨i, j, mid, hmid, hrest, hcount⟩ := h.split
    exact ⟨i, j, mid, hmid, hrest, hcount, hstood hrest⟩

theorem mem_text_join (hq : q.isAbsolute = false) {c : Char}
    (hc : c ∈ p.text.toList) : c ∈ (p.join q).text.toList := by
  rcases Path.join_cases p hq with ⟨rfl, -⟩ | ⟨text, rfl, -⟩ | ⟨hp, hp', -⟩
  · cases hc
  · rw [Path.join_slash text hq, String.toList_append]
    exact List.mem_append_left _ hc
  · rw [Path.join_plain hp hp' hq]
    simp [hc]

/-- Where a joined path leads: a relative path is followed from where the first one leads. -/
theorem realPath_join (h : t.realPath (p.join q) = .ok b) (hq : q.isAbsolute = false)
    (hp : p.text ≠ "") : ∃ r, t.realPath p = .ok r ∧ t.node? r = some .directory ∧
      ∃ j, Leads t j r q.segments b := by
  obtain ⟨hnul, -, k, hk, hleads⟩ := realPath_eq_ok_iff.mp h
  have hstart : t.start (p.join q) = t.start p := by
    unfold start
    rw [Path.isAbsolute_join, hq, Bool.false_or]
  rw [hstart] at hleads
  obtain ⟨i, j, mid, hmid, hrest, hcount, hdirectory⟩ := hleads.of_join hq hp
  refine ⟨mid, realPath_eq_ok_iff.mpr ⟨?_, hp, i, by omega, hmid⟩, hdirectory, j, hrest⟩
  exact fun hmem => hnul (mem_text_join hq hmem)

/-- The segments of the second path are followed from the first, or from the root. -/
theorem leads_join (h : t.realPath (p.join q) = .ok b) (hr : t.realPath p = .ok r) :
    ∃ j, Leads t j (base r q) q.segments b := by
  by_cases hq : q.isAbsolute = true
  · rw [Path.join_of_isAbsolute p hq] at h
    obtain ⟨-, -, k, -, hleads⟩ := realPath_eq_ok_iff.mp h
    have hstart : t.start q = base r q := by
      unfold start base
      rw [if_pos hq, if_pos hq]
    exact ⟨k, hstart ▸ hleads⟩
  · rw [Bool.not_eq_true] at hq
    obtain ⟨-, hp, -⟩ := realPath_eq_ok_iff.mp hr
    obtain ⟨r', hr', -, j, hleads⟩ := realPath_join h hq hp
    obtain rfl := Except.ok.inj (hr.symm.trans hr')
    have hbase : base r q = r := by
      unfold base
      rw [hq, if_neg Bool.false_ne_true]
    exact ⟨j, hbase.symm ▸ hleads⟩

theorem exists_of_isDirectory (h : t.isDirectory p = true) :
    ∃ r, t.realPath p = .ok r ∧ t.node? r = some .directory := by
  unfold isDirectory at h
  split at h
  next r hr => exact ⟨r, realPath_of_locate hr, any_isDirectory.mp h⟩
  next => cases h

/-! ### Listed directories -/

/-- The name of a directory in a directory. -/
def subdirectory? (r : RealPath) (n : RealPath × Node) : Option String :=
  (nameIn? r n).bind fun c => if c.2.isDirectory then some c.1 else none

theorem subdirectory?_eq_some_iff {n : RealPath × Node} {s : String} :
    subdirectory? r n = some s ↔ n = (r ++ [s], .directory) := by
  obtain ⟨place, node⟩ := n
  obtain rfl | ⟨front, last, rfl⟩ := List.eq_nil_or_concat' place
  · simp [subdirectory?, nameIn?]
  · by_cases hfront : front = r <;>
      cases node <;> simp [subdirectory?, nameIn?, Node.isDirectory, hfront]

/-- A listing has the directories that stand in a directory. -/
theorem subdirectories_eq_ok {names : List String} (h : t.subdirectories p = .ok names) :
    ∃ r, t.realPath p = .ok r ∧ names = t.nodes.filterMap (subdirectory? r) := by
  unfold subdirectories at h
  cases hchildren : t.children p with
  | error e => rw [hchildren] at h; cases h
  | ok found =>
    rw [hchildren] at h
    have hnames : (found.filter fun c => c.2.isDirectory).map Prod.fst = names := Except.ok.inj h
    unfold children at hchildren
    cases hr : t.locate false p with
    | error e => rw [hr] at hchildren; cases hchildren
    | ok r =>
      rw [hr] at hchildren
      change (if (t.node? r).any Node.isDirectory then _ else _) = _ at hchildren
      split at hchildren
      · obtain rfl := Except.ok.inj hchildren
        refine ⟨r, realPath_of_locate hr, ?_⟩
        rw [← hnames, List.filter_filterMap, List.map_filterMap]
        refine congrArg (List.filterMap · t.nodes) (funext fun n => ?_)
        unfold subdirectory?
        cases nameIn? r n with
        | none => rfl
        | some c =>
          obtain ⟨name, node⟩ := c
          cases hc : node.isDirectory <;> simp [hc]
      · cases hchildren

namespace WellFormed

variable (ht : t.WellFormed)

include ht

theorem mem_subdirectories {s : String} : s ∈ t.nodes.filterMap (subdirectory? r) ↔
    t.node? (r ++ [s]) = some .directory := by
  rw [List.mem_filterMap]
  constructor
  · rintro ⟨n, hn, hs⟩
    rw [subdirectory?_eq_some_iff] at hs
    subst hs
    exact ht.node?_of_mem hn (by simp)
  · intro h
    exact ⟨_, mem_of_node? h (by simp), subdirectory?_eq_some_iff.mpr rfl⟩

theorem nodup_subdirectories (r : RealPath) : (t.nodes.filterMap (subdirectory? r)).Nodup := by
  have hnodes : t.nodes.Nodup := List.Nodup.of_map Prod.fst ht.distinct
  refine List.Nodup.filterMap (fun n n' s hs hs' => ?_) hnodes
  rw [Option.mem_def, subdirectory?_eq_some_iff] at hs hs'
  rw [hs, hs']

end WellFormed

end FileTree

end ReportTemplate
