import ReportTemplate.Proofs.FileTree.Leads

/-!
# ReportTemplate.Proofs.FileTree.Absolute — paths without their links

Where no link is met, the text of a path tells where it leads.  The absolute form of a path leads where
the path does, since the names of the working directory lead there from the root.
-/

namespace ReportTemplate

namespace Path

/-- The place that a segment names beside or below another, links aside. -/
def beside (r : RealPath) (s : String) : RealPath :=
  if isIdle s then r else if s = ".." then r.dropLast else r ++ [s]

/-- The place that segments name as seen from another, links aside. -/
def seenFrom (r : RealPath) (segments : List String) : RealPath := segments.foldl beside r

theorem beside_of_idle {s : String} (hs : isIdle s = true) (r : RealPath) : beside r s = r := if_pos hs

theorem beside_name {s : String} (hs : isIdle s = false) (hup : s ≠ "..") (r : RealPath) :
    beside r s = r ++ [s] := by
  unfold beside
  rw [hs, if_neg Bool.false_ne_true, if_neg hup]

theorem seenFrom_names {ns : List String} (h : ∀ s ∈ ns, isIdle s = false ∧ s ≠ "..") (r : RealPath) :
    seenFrom r ns = r ++ ns := by
  induction ns generalizing r with
  | nil => exact (List.append_nil r).symm
  | cons s ns ih =>
    obtain ⟨⟨hs, hup⟩, hns⟩ := List.forall_mem_cons.mp h
    show seenFrom (beside r s) ns = _
    rw [beside_name hs hup, ih hns, List.append_assoc, List.singleton_append]

theorem seenFrom_filter (r : RealPath) (segments : List String) :
    seenFrom r (segments.filter fun s => !isIdle s) = seenFrom r segments := by
  induction segments generalizing r with
  | nil => rfl
  | cons s rest ih =>
    show _ = seenFrom (beside r s) rest
    cases hs : isIdle s with
    | true =>
      rw [List.filter_cons_of_neg (by simp [hs]), ih, beside_of_idle hs]
    | false =>
      rw [List.filter_cons_of_pos (by simp [hs])]
      exact ih _

end Path

namespace FileTree

open ReportTemplate.Path (beside seenFrom ofTrail)

variable {t : FileTree} {k : Nat} {a b r : RealPath} {ss : List String} {p : Path}

/-- No link is met along segments. -/
def Unlinked (t : FileTree) (r : RealPath) (ss : List String) : Prop :=
  ∀ front, front <+: ss → ¬ t.IsLink (seenFrom r front)

instance (t : FileTree) (r : RealPath) (ss : List String) : Decidable (t.Unlinked r ss) :=
  decidable_of_iff (∀ front ∈ ss.inits, ¬ t.IsLink (seenFrom r front))
    (by simp only [Unlinked, List.mem_inits])

theorem Unlinked.tail {s : String} (h : t.Unlinked r (s :: ss)) : t.Unlinked (beside r s) ss :=
  fun front hfront => h (s :: front) (List.cons_prefix_cons.mpr ⟨rfl, hfront⟩)

/-- Without links, segments lead to the place that they name. -/
theorem Leads.eq_seenFrom (h : Leads t k a ss b) (hfree : t.Unlinked a ss) : b = seenFrom a ss := by
  induction h with
  | here => rfl
  | @idle _ r _ s rest _ idle _ ih =>
    have hplace := hfree.tail
    rw [Path.beside_of_idle idle] at hplace
    show _ = seenFrom (beside r s) rest
    rw [Path.beside_of_idle idle, ih hplace]
  | up _ _ ih => exact ih hfree.tail
  | @down _ r _ s rest _ step _ _ ih =>
    have hstep := Path.beside_name step.counts step.down r
    have hplace := hfree.tail
    rw [hstep] at hplace
    show _ = seenFrom (beside r s) rest
    rw [hstep, ih hplace]
  | @link _ _ r _ _ s target _ _ step found =>
    have hstep : seenFrom r [s] = r ++ [s] := Path.beside_name step.counts step.down r
    have hlink := hfree [s] (List.cons_prefix_cons.mpr ⟨rfl, List.nil_prefix⟩)
    rw [hstep] at hlink
    exact absurd ⟨target, found⟩ hlink

/-- Names lead to themselves if no link is met and none of them is `..`. -/
theorem Leads.eq_names {ns : List String} (h : Leads t k [] ns b) (hns : ∀ s ∈ ns, Path.IsPart s)
    (down : ".." ∉ ns) (unlinked : ∀ r, r <+: ns → ¬ t.IsLink r) : b = ns := by
  have hall : ∀ s ∈ ns, Path.isIdle s = false ∧ s ≠ ".." := fun s hs =>
    ⟨(hns s hs).1, fun hup => down (hup ▸ hs)⟩
  have hfree : t.Unlinked [] ns := by
    intro front hfront
    rw [Path.seenFrom_names fun s hs => hall s (hfront.subset hs)]
    exact unlinked front hfront
  rw [h.eq_seenFrom hfree, Path.seenFrom_names hall, List.nil_append]

/-! ### Idle segments -/

/-- Idle segments may be put in where directories stand. -/
theorem Leads.padded (h : Leads t k a (ss.filter fun s => !Path.isIdle s) b)
    (hend : (∃ s ∈ ss.getLast?, Path.isIdle s = true) → t.node? b = some .directory) :
    Leads t k a ss b := by
  induction ss generalizing k a with
  | nil => exact h
  | cons s rest ih =>
    have hlater : (∃ s' ∈ rest.getLast?, Path.isIdle s' = true) → t.node? b = some .directory := by
      rintro ⟨s', hs', hidle⟩
      refine hend ⟨s', ?_, hidle⟩
      rw [List.getLast?_cons, Option.mem_def.mp hs']
      rfl
    cases hs : Path.isIdle s with
    | true =>
      rw [List.filter_cons_of_neg (by simp [hs])] at h
      refine .idle ?_ hs (ih h hlater)
      cases hrest : rest.filter fun s => !Path.isIdle s with
      | nil =>
        -- Only idle segments are left, so `a` is where the path ends.
        rw [hrest] at h
        rw [← h.eq_of_nil.1]
        refine hend ?_
        cases hlast : rest.getLast? with
        | none => exact ⟨s, by rw [List.getLast?_cons, hlast]; rfl, hs⟩
        | some s' =>
          refine ⟨s', by rw [List.getLast?_cons, hlast]; rfl, ?_⟩
          have hnot := List.filter_eq_nil_iff.mp hrest s' (List.mem_of_getLast? hlast)
          simpa using hnot
      | cons s' rest' =>
        rw [hrest] at h
        exact h.stood
    | false =>
      rw [List.filter_cons_of_pos (by simp [hs])] at h
      cases h with
      | idle _ idle => rw [hs] at idle; cases idle
      | up stood tail => exact .up stood (ih tail hlater)
      | down stood step found tail => exact .down stood step found (ih tail hlater)
      | link stood step found jump tail => exact .link stood step found jump (ih tail hlater)

/-- A path that ends with an idle segment leads to a directory. -/
theorem Leads.directory_of_idle (h : Leads t k a ss b) (hend : ∃ s ∈ ss.getLast?, Path.isIdle s = true) :
    t.node? b = some .directory := by
  obtain ⟨s, hs, hidle⟩ := hend
  obtain ⟨front, rfl⟩ := List.getLast?_eq_some_iff.mp hs
  obtain ⟨i, j, mid, -, hlast, -⟩ := h.split
  cases hlast with
  | idle stood _ tail => rw [tail.eq_of_nil.1, stood]
  | up => cases hidle
  | down _ step => rw [step.counts] at hidle; cases hidle
  | link _ step => rw [step.counts] at hidle; cases hidle

/-! ### The absolute form -/

namespace WellFormed

variable (ht : t.WellFormed)

include ht

theorem isName_working : ∀ s ∈ t.working, IsName s := ht.isName ht.working

theorem isPart_working : ∀ s ∈ t.working, Path.IsPart s := fun s hs => (ht.isName_working s hs).isPart

theorem leads_start (p : Path) : Leads t 0 [] (t.start p) (t.start p) := by
  unfold start
  split
  · exact .here []
  · exact ht.leads_self (stands_of_directory ht.working)

theorem leads_absolute (h : Leads t k (t.start p) p.segments b) :
    Leads t k [] (ofTrail (p.trail t.working) p.endsInSlash).segments b := by
  have hparts := Path.isPart_of_mem_trail ht.isPart_working (p := p)
  have htrail : Leads t k [] (p.trail t.working) b := by
    have hall := (ht.leads_start p).append h.filter
    rwa [Nat.zero_add] at hall
  by_cases hne : p.trail t.working = []
  · rw [hne] at htrail ⊢
    obtain ⟨rfl, rfl⟩ := htrail.eq_of_nil
    rw [Path.ofTrail_nil]
    exact .idle (node?_nil t) rfl (.idle (node?_nil t) rfl (.here []))
  · rw [Path.segments_ofTrail hparts hne]
    refine .idle (node?_nil t) rfl ?_
    cases hslash : p.endsInSlash with
    | false => simpa using htrail
    | true =>
      have hend : t.node? b = some .directory := by
        obtain ⟨text, rfl⟩ := Path.exists_of_endsInSlash hslash
        rw [Path.segments_endsInSlash] at h
        exact h.directory_of_idle ⟨"", by rw [List.getLast?_concat]; rfl, rfl⟩
      exact htrail.append (.idle hend rfl (.here b))

theorem isPart_of_stands (h : t.Stands r) : ∀ s ∈ r, Path.IsPart s := by
  obtain ⟨node, hnode⟩ := h.exists_node
  exact fun s hs => (ht.isName hnode s hs).isPart

theorem nul_not_mem_trail (hp : '\x00' ∉ p.text.toList) : ∀ s ∈ p.trail t.working, '\x00' ∉ s.toList := by
  intro s hs
  rcases List.mem_append.mp hs with hs | hs
  · split at hs
    · cases hs
    · exact (ht.isName_working s hs).nul
  · exact fun hmem => hp (Path.mem_text_of_mem_segment (List.mem_filter.mp hs).1 hmem)

/-- The absolute form of a path leads where the path leads. -/
theorem realPath_absolute (h : t.realPath p = .ok b) :
    p.absolute? t.working = some (ofTrail (p.trail t.working) p.endsInSlash) ∧
      t.realPath (ofTrail (p.trail t.working) p.endsInSlash) = .ok b := by
  obtain ⟨hnul, hne, k, hk, hleads⟩ := realPath_eq_ok_iff.mp h
  have hparts := Path.isPart_of_mem_trail ht.isPart_working (p := p)
  have hroot := Path.isAbsolute_ofTrail (p.trail t.working) p.endsInSlash
  refine ⟨Path.absolute?_eq ht.isPart_working hne, realPath_eq_ok_iff.mpr ⟨?_, ?_, k, hk, ?_⟩⟩
  · exact Path.not_mem_text_ofTrail hparts (by decide) (ht.nul_not_mem_trail hnul) _
  · intro hempty
    unfold Path.isAbsolute at hroot
    rw [hempty] at hroot
    cases hroot
  · have hstart : t.start (ofTrail (p.trail t.working) p.endsInSlash) = [] := if_pos hroot
    rw [hstart]
    exact ht.leads_absolute hleads

end WellFormed

end FileTree

end ReportTemplate
