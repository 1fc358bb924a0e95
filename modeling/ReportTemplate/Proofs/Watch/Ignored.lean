import ReportTemplate.Proofs.FileTree.Absolute
import ReportTemplate.Proofs.FileTree.Growth
import ReportTemplate.Watch

/-!
# ReportTemplate.Proofs.Watch.Ignored — ignored paths that do not exist yet

A path is ignored in the form that it has at that time: its real path, or the real path of its
directory with its name, or its absolute form.  Changes are reported later and with real paths.
`Foreseen` says when the two agree once the path exists; the last of the three forms keeps `..` and the
links that are made later, and then they do not.
-/

namespace ReportTemplate

namespace IgnoredPaths

open FileTree
open ReportTemplate.Path (ofTrail)

/-- A path is ignored in tree `t` in a form that stays right in tree `t'`, which has more nodes. -/
inductive Foreseen (t t' : FileTree) (p : Path) : Prop
  /-- It leads somewhere already. -/
  | found {r : RealPath} (real : t.realPath p = .ok r)
  /-- Its directory does, and its name there is not made a link. -/
  | housed {whole directory : Path} {name : String} {r : RealPath}
      (absolute : p.absolute? t.working = some whole) (above : whole.parent? = some directory)
      (last : whole.fileName? = some name) (real : t.realPath directory = .ok r)
      (unlinked : ¬ t'.IsLink (r ++ [name]))
  /-- Its absolute form is made with no link on the way, and there is no `..` in it. -/
  | plain {whole : Path} (absolute : p.absolute? t.working = some whole) (down : ".." ∉ whole.names)
      (unlinked : ∀ r, r <+: whole.names → ¬ t'.IsLink r)

variable {t t' : FileTree} {p whole : Path} {r : RealPath}

/-! ### The form of a path -/

/-- The form in which a tree has a path ignored. -/
def form (t : FileTree) (p : Path) : Path := (normalize t.view p).run

theorem ignore_view (ignored : IgnoredPaths) (t : FileTree) (p : Path) :
    (ignore t.view ignored p).run = ⟨ignored.paths ++ [form t p]⟩ := rfl

theorem real?_view (t : FileTree) (p : Path) : (real? t.view p).run =
    match t.realPath p with
    | .ok r => some r
    | .error _ =>
      match p.parent?, p.fileName? with
      | some directory, some name =>
        match t.realPath directory with
        | .ok r => some (r ++ [name])
        | .error _ => none
      | _, _ => none := by
  show (match t.realPath p with
    | .ok r => (pure (some r) : Id (Option RealPath))
    | .error _ => _).run = _
  cases t.realPath p with
  | ok r => rfl
  | error e =>
    show (match p.parent?, p.fileName? with
      | some directory, some name =>
        (match t.realPath directory with
        | .ok r => (pure (some (r ++ [name])) : Id (Option RealPath))
        | .error _ => pure none)
      | _, _ => pure none).run = _
    cases p.parent? with
    | none => rfl
    | some directory =>
      cases p.fileName? with
      | none => rfl
      | some name => cases t.realPath directory <;> rfl

/-- The three forms of a path. -/
inductive Form (t : FileTree) (whole : Path) : Path → Prop
  | real {r : RealPath} (real : t.realPath whole = .ok r) : Form t whole r.path
  | housed {directory : Path} {name : String} {r : RealPath} (lost : ∀ r, t.realPath whole ≠ .ok r)
      (above : whole.parent? = some directory) (last : whole.fileName? = some name)
      (real : t.realPath directory = .ok r) : Form t whole (RealPath.path (r ++ [name]))
  | plain (lost : ∀ r, t.realPath whole ≠ .ok r)
      (homeless : ∀ directory name r, whole.parent? = some directory → whole.fileName? = some name →
        t.realPath directory ≠ .ok r) : Form t whole whole

theorem form_spec (absolute : p.absolute? t.working = some whole) : Form t whole (form t p) := by
  have hform : form t p = ((real? t.view whole).run.map RealPath.path).getD whole := by
    have hworking : t.view.workingDirectory.run = t.working := rfl
    unfold form normalize
    simp only [Id.run_bind, hworking, absolute, Option.getD_some]
    cases (real? t.view whole).run <;> rfl
  rw [hform, real?_view]
  cases hreal : t.realPath whole with
  | ok r => exact .real hreal
  | error e =>
    have lost : ∀ r, t.realPath whole ≠ .ok r := by simp [hreal]
    cases habove : whole.parent? with
    | none => exact .plain lost (by simp [habove])
    | some directory =>
      cases hlast : whole.fileName? with
      | none => exact .plain lost (by simp [hlast])
      | some name =>
        cases hdirectory : t.realPath directory with
        | ok r => simpa [hdirectory] using Form.housed lost habove hlast hdirectory
        | error e' =>
          have homeless : ∀ d n r, whole.parent? = some d → whole.fileName? = some n →
              t.realPath d ≠ .ok r := by
            intro d n r hd _
            obtain rfl := Option.some.inj (habove.symm.trans hd)
            simp [hdirectory]
          simpa [hdirectory] using Form.plain lost homeless

/-! ### What a path leads to later -/

/-- The names of an absolute path lead where the path does. -/
theorem leads_names (h : t.realPath whole = .ok r) (hroot : whole.isAbsolute = true) :
    ∃ k, Leads t k [] whole.names r := by
  obtain ⟨-, -, k, -, hleads⟩ := realPath_eq_ok_iff.mp h
  have hstart : t.start whole = [] := if_pos hroot
  rw [hstart] at hleads
  exact ⟨k, hleads.filter⟩

/-- A path whose absolute form led somewhere when it was ignored led there itself. -/
theorem realPath_of_absolute (ht : t.WellFormed) (hgrows : t.Grows t') (hlater : t'.realPath p = .ok r)
    (hwhole : t.realPath (ofTrail (p.trail t.working) p.endsInSlash) = .ok r) :
    t.realPath p = .ok r := by
  obtain ⟨hnul, hne, k', -, hleads'⟩ := realPath_eq_ok_iff.mp hlater
  obtain ⟨-, -, k, hk, hleads⟩ := realPath_eq_ok_iff.mp hwhole
  have hparts := Path.isPart_of_mem_trail ht.isPart_working (p := p)
  have hstart : t.start (ofTrail (p.trail t.working) p.endsInSlash) = [] :=
    if_pos (Path.isAbsolute_ofTrail _ _)
  rw [hstart] at hleads
  have htrail : Leads t k [] (t.start p ++ p.names) r := by
    have h := hleads.filter
    rwa [← Path.names, Path.names_ofTrail hparts] at h
  obtain ⟨i, j, mid, hmid, hrest, hcount⟩ := htrail.split
  obtain rfl := (ht.leads_start p).unique hmid
  refine realPath_eq_ok_iff.mpr ⟨hnul, hne, j, by omega, hrest.padded fun hend => ?_⟩
  have hstands := ht.stands hleads (stands_of_directory (node?_nil t))
  exact hgrows.directory_of_stands hstands (hleads'.directory_of_idle hend)

/-- The directory and the last name of an absolute form. -/
theorem names_of_housed {ns : List String} {slash : Bool} {directory : Path} {name : String}
    (hns : ∀ s ∈ ns, Path.IsPart s) (above : (ofTrail ns slash).parent? = some directory)
    (last : (ofTrail ns slash).fileName? = some name) :
    ∃ front, ns = front ++ [name] ∧ directory = RealPath.path front ∧ name ≠ ".." := by
  obtain rfl | ⟨front, s, rfl⟩ := List.eq_nil_or_concat' ns
  · rw [Path.ofTrail_nil] at above
    have hnone : Path.parent? ⟨"/"⟩ = none := by decide
    rw [hnone] at above
    cases above
  · have hfront : ∀ s ∈ front, Path.IsPart s := fun s hs => hns s (by simp [hs])
    have hs : Path.IsPart s := hns s (by simp)
    rw [Path.parent?_ofTrail hfront hs, Option.some.injEq] at above
    rw [Path.fileName?_ofTrail hfront hs] at last
    split at last
    · cases last
    next hup =>
      obtain rfl := Option.some.inj last
      exact ⟨front, rfl, above.symm, hup⟩

/-- A name behind a directory leads to what stands there, if that is no link. -/
theorem eq_of_unlinked {i k : Nat} {front : List String} {name : String} {q : RealPath}
    (hfront : Leads t i [] front q) (h : Leads t k [] (front ++ [name]) r) (hup : name ≠ "..")
    (hcounts : Path.isIdle name = false) (unlinked : ¬ t.IsLink (q ++ [name])) : r = q ++ [name] := by
  obtain ⟨_, _, mid, hmid, hlast, -⟩ := h.split
  obtain rfl := hfront.unique hmid
  cases hlast with
  | idle _ idle => rw [hcounts] at idle; cases idle
  | up => exact absurd rfl hup
  | down _ _ _ tail => exact tail.eq_of_nil.1
  | link _ _ found => exact absurd ⟨_, found⟩ unlinked

/-! ### The three forms later -/

/-- A path has an absolute form, and in a later tree that leads to `r`. -/
structure Made (t t' : FileTree) (p : Path) (ns : List String) (slash : Bool) (r : RealPath) : Prop where
  absolute : p.absolute? t.working = some (ofTrail ns slash)
  parts : ∀ s ∈ ns, Path.IsPart s
  leads : ∃ k, Leads t' k [] ns r
  stands : t'.Stands r
  /-- What it led to before it leads to still. -/
  kept : ∀ q, t.realPath (ofTrail ns slash) = .ok q → q = r

section Later

variable (ht : t.WellFormed) (ht' : t'.WellFormed) (hgrows : t.Grows t')

include ht ht' hgrows

theorem made_of_realPath (hreal : t'.realPath p = .ok r) :
    Made t t' p (p.trail t.working) p.endsInSlash r := by
  obtain ⟨habsolute, hwhole⟩ := ht'.realPath_absolute hreal
  rw [hgrows.working] at habsolute hwhole
  have hparts := Path.isPart_of_mem_trail ht.isPart_working (p := p)
  obtain ⟨k, hleads⟩ := leads_names hwhole (Path.isAbsolute_ofTrail _ _)
  rw [Path.names_ofTrail hparts] at hleads
  exact {
    absolute := habsolute
    parts := hparts
    leads := ⟨k, hleads⟩
    stands := ht'.stands hleads (stands_of_directory (node?_nil t'))
    kept := fun q hq => Except.ok.inj ((hgrows.realPath hq).symm.trans hwhole) }

omit ht ht' in
/-- A foreseen path that led nowhere, in a directory that was there, has not become a link. -/
theorem Foreseen.not_isLink {front : List String} {name : String} {slash : Bool} {q : RealPath}
    (h : Foreseen t t' p) (hmade : Made t t' p (front ++ [name]) slash r)
    (lost : ∀ q, t.realPath p ≠ .ok q) (hup : name ≠ "..")
    (real : t.realPath (RealPath.path front) = .ok q) : ¬ t'.IsLink (q ++ [name]) := by
  have hfront : ∀ s ∈ front, Path.IsPart s := fun s hs => hmade.parts s (by simp [hs])
  have hname : Path.IsPart name := hmade.parts name (by simp)
  cases h with
  | found hp => exact absurd hp (lost _)
  | housed habsolute above last real' unlinked =>
    obtain rfl := Option.some.inj (hmade.absolute.symm.trans habsolute)
    rw [Path.parent?_ofTrail hfront hname, Option.some.injEq] at above
    rw [Path.fileName?_ofTrail hfront hname, if_neg hup, Option.some.injEq] at last
    subst above last
    obtain rfl := Except.ok.inj (real.symm.trans real')
    exact unlinked
  | plain habsolute down unlinked =>
    obtain rfl := Option.some.inj (hmade.absolute.symm.trans habsolute)
    rw [Path.names_ofTrail hmade.parts] at down unlinked
    obtain ⟨i, hleads⟩ := leads_names real (RealPath.isAbsolute_path front)
    rw [RealPath.names_path hfront] at hleads
    have hq : q = front := (hgrows.leads hleads).eq_names hfront (fun h => down (by simp [h]))
      fun r hr => unlinked r (hr.trans (List.prefix_append front [name]))
    rw [hq]
    exact unlinked _ List.prefix_rfl

/-- The name behind the real path of the directory names what the path leads to. -/
theorem names_housed_iff {ns : List String} {slash : Bool} {directory : Path} {name : String}
    {q : RealPath} (hmade : Made t t' p ns slash r) (lost : ∀ q, t.realPath p ≠ .ok q)
    (above : (ofTrail ns slash).parent? = some directory)
    (last : (ofTrail ns slash).fileName? = some name) (real : t.realPath directory = .ok q) :
    (RealPath.path (q ++ [name])).names <+: r ↔ Foreseen t t' p := by
  obtain ⟨front, rfl, rfl, hup⟩ := names_of_housed hmade.parts above last
  have hfrontparts : ∀ s ∈ front, Path.IsPart s := fun s hs => hmade.parts s (by simp [hs])
  have hname : Path.IsPart name := hmade.parts name (by simp)
  obtain ⟨i, hfront⟩ := leads_names real (RealPath.isAbsolute_path front)
  rw [RealPath.names_path hfrontparts] at hfront
  have hq : ∀ s ∈ q ++ [name], Path.IsPart s := by
    have hplace := ht.isPart_of_stands (ht.stands hfront (stands_of_directory (node?_nil t)))
    simpa [or_imp, forall_and] using And.intro hplace hname
  rw [RealPath.names_path hq]
  constructor
  · intro hbegins
    exact .housed hmade.absolute above last real (ht'.not_isLink_above hmade.stands hbegins)
  · intro hforeseen
    obtain ⟨k, hleads⟩ := hmade.leads
    rw [eq_of_unlinked (hgrows.leads hfront) hleads hup hname.1
      (hforeseen.not_isLink hgrows hmade lost hup real)]

omit ht hgrows in
/-- The absolute form names what the path leads to. -/
theorem names_plain_iff {ns : List String} {slash : Bool} (hmade : Made t t' p ns slash r)
    (lost : ∀ q, t.realPath p ≠ .ok q)
    (homeless : ∀ directory name q, (ofTrail ns slash).parent? = some directory →
      (ofTrail ns slash).fileName? = some name → t.realPath directory ≠ .ok q) :
    (ofTrail ns slash).names <+: r ↔ Foreseen t t' p := by
  rw [Path.names_ofTrail hmade.parts]
  constructor
  · intro hbegins
    obtain ⟨node, hnode⟩ := hmade.stands.exists_node
    refine .plain hmade.absolute ?_ ?_ <;> rw [Path.names_ofTrail hmade.parts]
    · exact fun hup => (ht'.isName hnode _ (hbegins.subset hup)).down rfl
    · exact fun q hq => ht'.not_isLink_above hmade.stands (hq.trans hbegins)
  · intro hforeseen
    cases hforeseen with
    | found hp => exact absurd hp (lost _)
    | housed habsolute above last real =>
      obtain rfl := Option.some.inj (hmade.absolute.symm.trans habsolute)
      exact absurd real (homeless _ _ _ above last)
    | plain habsolute down unlinked =>
      obtain rfl := Option.some.inj (hmade.absolute.symm.trans habsolute)
      rw [Path.names_ofTrail hmade.parts] at down unlinked
      obtain ⟨k, hleads⟩ := hmade.leads
      rw [hleads.eq_names hmade.parts down unlinked]

/-- An ignored path goes on naming what it leads to exactly if that was foreseen. -/
theorem names_form_iff (hreal : t'.realPath p = .ok r) :
    (form t p).names <+: r ↔ Foreseen t t' p := by
  have hmade := made_of_realPath ht ht' hgrows hreal
  have hlost (lost : ∀ q, t.realPath (ofTrail (p.trail t.working) p.endsInSlash) ≠ .ok q) :
      ∀ q, t.realPath p ≠ .ok q := fun q hq => lost q (ht.realPath_absolute hq).2
  have hspec := form_spec hmade.absolute
  generalize form t p = stored at hspec ⊢
  cases hspec with
  | @real q hq =>
    obtain rfl := hmade.kept q hq
    rw [RealPath.names_path (ht'.isPart_of_stands hmade.stands)]
    exact ⟨fun _ => .found (realPath_of_absolute ht hgrows hreal hq), fun _ => List.prefix_rfl⟩
  | housed lost above last real =>
    exact names_housed_iff ht ht' hgrows hmade (hlost lost) above last real
  | plain lost homeless => exact names_plain_iff ht' hmade (hlost lost) homeless

end Later

/-! ### Covered paths and relevant changes -/

/-- What is ignored after further paths, each in the tree as it is then. -/
def ignoreAll (ignored : IgnoredPaths) (further : List (FileTree × Path)) : IgnoredPaths :=
  further.foldl (fun ignored f => (ignore f.1.view ignored f.2).run) ignored

theorem covers_ignore (ignored : IgnoredPaths) (t : FileTree) (p e : Path) :
    (ignore t.view ignored p).run.covers e = (ignored.covers e || e.isWithin (form t p)) := by
  rw [ignore_view]
  simp [covers]

/-- What is covered stays covered. -/
theorem covers_ignoreAll {ignored : IgnoredPaths} {e : Path} (h : ignored.covers e = true)
    (further : List (FileTree × Path)) : (ignored.ignoreAll further).covers e = true := by
  induction further generalizing ignored with
  | nil => exact h
  | cons f further ih => exact ih (by rw [covers_ignore, h, Bool.true_or])

theorem isRelevant_eq_false_iff (ignored : IgnoredPaths) (changed : List Path) :
    ignored.isRelevant changed = false ↔ changed ≠ [] ∧ ∀ e ∈ changed, ignored.covers e = true := by
  simp [isRelevant]

theorem isAbsolute_form (absolute : p.absolute? t.working = some whole)
    (hroot : whole.isAbsolute = true) : (form t p).isAbsolute = true := by
  have hspec := form_spec absolute
  generalize form t p = stored at hspec ⊢
  cases hspec with
  | real => exact RealPath.isAbsolute_path _
  | housed => exact RealPath.isAbsolute_path _
  | plain => exact hroot

theorem covers_alone (t : FileTree) (p e : Path) :
    (ignore t.view {} p).run.covers e = e.isWithin (form t p) := by
  rw [covers_ignore]
  rfl

/-- **Ignored paths once they are made**: a path is ignored in one tree and leads somewhere in a later
one.  A change there is covered exactly if that was foreseen; then whatever lies below is covered too,
and nothing that is ignored before or after undoes it.  A change is irrelevant exactly if it has paths
and all of them are covered, and it stays so when more paths are ignored. -/
theorem ignored_once_made (ht : t.WellFormed) (ht' : t'.WellFormed) (hgrows : t.Grows t')
    (hreal : t'.realPath p = .ok r) :
    ((ignore t.view {} p).run.covers (RealPath.path r) = true ↔ Foreseen t t' p) ∧
    (Foreseen t t' p → ∀ (ignored : IgnoredPaths) (further : List (FileTree × Path))
      (below : List String), (∀ s ∈ below, IsName s) →
      ((ignore t.view ignored p).run.ignoreAll further).covers (RealPath.path (r ++ below)) = true) ∧
    (∀ (ignored : IgnoredPaths) (changed : List Path),
      ignored.isRelevant changed = false ↔ changed ≠ [] ∧ ∀ e ∈ changed, ignored.covers e = true) ∧
    ∀ (ignored : IgnoredPaths) (further : List (FileTree × Path)) (changed : List Path),
      ignored.isRelevant changed = false → (ignored.ignoreAll further).isRelevant changed = false := by
  have hmade := made_of_realPath ht ht' hgrows hreal
  have hform := isAbsolute_form hmade.absolute (Path.isAbsolute_ofTrail _ _)
  have hwithin {below : List String} (hbelow : ∀ s ∈ below, IsName s) :
      (RealPath.path (r ++ below)).isWithin (form t p) = true ↔ (form t p).names <+: r ++ below := by
    have hparts : ∀ s ∈ r ++ below, Path.IsPart s := fun s hs =>
      (List.mem_append.mp hs).elim (ht'.isPart_of_stands hmade.stands s) fun h => (hbelow s h).isPart
    rw [Path.isWithin_iff (RealPath.isAbsolute_path _) hform, RealPath.names_path hparts]
  refine ⟨?_, fun h ignored further below hbelow => ?_, isRelevant_eq_false_iff,
    fun ignored further changed h => ?_⟩
  · have hself := hwithin (List.forall_mem_nil IsName)
    rw [List.append_nil] at hself
    rw [covers_alone, hself, names_form_iff ht ht' hgrows hreal]
  · have hnamed := (names_form_iff ht ht' hgrows hreal).mpr h
    have hcovered := (hwithin hbelow).mpr (hnamed.trans (List.prefix_append r below))
    exact covers_ignoreAll (by rw [covers_ignore, hcovered, Bool.or_true]) further
  · rw [isRelevant_eq_false_iff] at h ⊢
    exact ⟨h.1, fun e he => covers_ignoreAll (h.2 e he) further⟩

/-- A project whose output directory is a link. -/
def linkedOutput : FileTree where
  nodes := [(["work"], .directory), (["work", "real"], .directory), (["work", "out"], .link ⟨"real"⟩)]
  working := ["work"]

/-- A document is ignored before it is written, in a directory that a link leads to. -/
theorem ignored_once_made_linked :
    let made := linkedOutput.insert ["work", "real", "a.md"] (.file .empty)
    linkedOutput.WellFormed ∧ made.WellFormed ∧ linkedOutput.Grows made ∧
    made.realPath ⟨"out/a.md"⟩ = .ok ["work", "real", "a.md"] ∧
    Foreseen linkedOutput made ⟨"out/a.md"⟩ ∧
    (ignore linkedOutput.view {} ⟨"out/a.md"⟩).run.covers ⟨"/work/real/a.md"⟩ = true := by
  intro made
  have ht : linkedOutput.WellFormed := by decide +kernel
  have ht' : made.WellFormed := by decide +kernel
  have hgrows : linkedOutput.Grows made := .insert (by decide) rfl
  have hreal : made.realPath ⟨"out/a.md"⟩ = .ok ["work", "real", "a.md"] := by decide +kernel
  have habsolute : Path.absolute? linkedOutput.working ⟨"out/a.md"⟩ = some ⟨"/work/out/a.md"⟩ := by
    decide +kernel
  have habove : Path.parent? ⟨"/work/out/a.md"⟩ = some ⟨"/work/out"⟩ := by decide +kernel
  have hlast : Path.fileName? ⟨"/work/out/a.md"⟩ = some "a.md" := by decide +kernel
  have hdirectory : linkedOutput.realPath ⟨"/work/out"⟩ = .ok ["work", "real"] := by decide +kernel
  have hforeseen : Foreseen linkedOutput made ⟨"out/a.md"⟩ :=
    .housed habsolute habove hlast hdirectory (by decide +kernel)
  have hcovers := (ignored_once_made ht ht' hgrows hreal).1.mpr hforeseen
  have hpath : RealPath.path ["work", "real", "a.md"] = ⟨"/work/real/a.md"⟩ := by decide +kernel
  rw [hpath] at hcovers
  exact ⟨ht, ht', hgrows, hreal, hforeseen, hcovers⟩

/-- An empty working directory. -/
def emptyWork : FileTree where
  nodes := [(["work"], .directory)]
  working := ["work"]

/-- A path with `..` behind a directory that does not exist yet is ignored as it is written, so changes
of what it leads to later are relevant. -/
theorem ignored_parent_missed :
    let made := (emptyWork.insert ["work", "a"] .directory).insert ["work", "b"] (.file .empty)
    emptyWork.WellFormed ∧ made.WellFormed ∧ emptyWork.Grows made ∧
    made.realPath ⟨"a/../b"⟩ = .ok ["work", "b"] ∧
    (ignore emptyWork.view {} ⟨"a/../b"⟩).run.covers (RealPath.path ["work", "b"]) = false ∧
    (ignore emptyWork.view {} ⟨"a/../b"⟩).run.isRelevant [RealPath.path ["work", "b"]] = true := by
  intro made
  refine ⟨by decide +kernel, by decide +kernel, ?_, by decide +kernel, by decide +kernel,
    by decide +kernel⟩
  have hfirst : emptyWork.Grows (emptyWork.insert ["work", "a"] .directory) := .insert (by decide) rfl
  exact hfirst.trans (.insert (by decide) rfl)

end IgnoredPaths

end ReportTemplate
