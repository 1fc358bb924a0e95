import ReportTemplate.Project
import ReportTemplate.Proofs.FileTree.Directories
import ReportTemplate.Proofs.Library.Stable

/-!
# ReportTemplate.Proofs.Project.Located — where the active template lies

The name of the active template is joined to the root of the project and has to lead to a directory.
A relative name without `..` that is more than dots and slashes leads below the root; any other name
leads where its segments say, which may be the root itself or outside of it.
-/

namespace ReportTemplate

/-- A relative path without `..` that is more than dots and slashes. -/
def Path.Inner (p : Path) : Prop := p.isAbsolute = false ∧ ".." ∉ p.names ∧ p.names ≠ []

instance (p : Path) : Decidable p.Inner := inferInstanceAs (Decidable (_ ∧ _))

/-- One place lies below another. -/
def RealPath.Below (r d : RealPath) : Prop := r <+: d ∧ r ≠ d

instance (r d : RealPath) : Decidable (r.Below d) := inferInstanceAs (Decidable (_ ∧ _))

namespace Project

open FileTree (Unlinked base)
open ReportTemplate.Path (seenFrom)

variable {t : FileTree} {config : Config} {name : String} {l : Location}

/-! ### Outcomes -/

/-- The path of the file that names the active template. -/
def pointer (config : Config) : Path := config.projectRoot.join ⟨config.pointerFile⟩

/-- The template is named by a setting, or by the text of the pointer file without blanks around it. -/
inductive Chosen (t : FileTree) (config : Config) : String → Prop
  | named {name : String} (selection : config.selection = .named name) : Chosen t config name
  | pointed {text : String} (selection : config.selection = .pointerFile)
      (read : t.readText (pointer config) = .ok text) :
      Chosen t config (String.ofList (Text.trim text.toList))

/-- The directories in the root that are not excluded, links aside, in order. -/
def Listed (t : FileTree) (config : Config) (names : List String) : Prop :=
  ∃ r, t.realPath config.projectRoot = .ok r ∧ names.Pairwise (· < ·) ∧
    ∀ n, n ∈ names ↔ n ∉ config.excludedDirs ∧ t.node? (r ++ [n]) = some .directory

/-- What the search for the active template can give. -/
inductive Outcome (t : FileTree) (config : Config) : Except Error Location → Prop
  | unnamed {cause : IoError} (selection : config.selection = .pointerFile)
      (read : t.readText (pointer config) = .error cause) :
      Outcome t config (.error (.unreachable (pointer config) cause))
  | found {name : String} (chosen : Chosen t config name) (nonempty : name ≠ "")
      (there : t.isDirectory (config.projectRoot.join ⟨name⟩) = true) :
      Outcome t config (.ok ⟨config.projectRoot, name, config.projectRoot.join ⟨name⟩,
        (config.projectRoot.join ⟨name⟩).join ⟨config.templateFile⟩⟩)
  | unlisted {name : String} {cause : IoError} (chosen : Chosen t config name)
      (missing : name = "" ∨ t.isDirectory (config.projectRoot.join ⟨name⟩) = false)
      (read : t.subdirectories config.projectRoot = .error cause) :
      Outcome t config (.error (.unreachable config.projectRoot cause))
  | missing {name : String} {names : List String} (chosen : Chosen t config name)
      (missing : name = "" ∨ t.isDirectory (config.projectRoot.join ⟨name⟩) = false)
      (listed : Listed t config names) :
      Outcome t config (.error (.directoryMissing name names))

theorem activeName_view (t : FileTree) (config : Config) :
    (∃ name, (activeName t.view config).run.run = .ok name ∧ Chosen t config name) ∨
    ∃ cause, (activeName t.view config).run.run = .error (.unreachable (pointer config) cause) ∧
      config.selection = .pointerFile ∧ t.readText (pointer config) = .error cause := by
  cases hselection : config.selection with
  | named name =>
    refine .inl ⟨name, ?_, .named hselection⟩
    unfold activeName
    rw [hselection]
    rfl
  | pointerFile =>
    cases hread : t.readText (pointer config) with
    | ok text =>
      refine .inl ⟨_, ?_, .pointed hselection hread⟩
      have hview : t.view.readText (config.projectRoot.join ⟨config.pointerFile⟩) =
          (pure (.ok text) : Id _) := hread
      unfold activeName readText
      rw [hselection]
      simp [hview]
    | error cause =>
      refine .inr ⟨cause, ?_, rfl, rfl⟩
      have hview : t.view.readText (config.projectRoot.join ⟨config.pointerFile⟩) =
          (pure (.error cause) : Id _) := hread
      unfold activeName readText
      rw [hselection]
      simp [hview]
      rfl

/-- The candidates are listed in one order, however the directory is read. -/
theorem listed_of_subdirectories (ht : t.WellFormed) {names : List String}
    (h : t.subdirectories config.projectRoot = .ok names) :
    Listed t config
      ((names.filter fun n => !config.excludedDirs.contains n).mergeSort fun a b => a ≤ b) := by
  obtain ⟨r, hr, rfl⟩ := FileTree.subdirectories_eq_ok h
  have hsorted := sortedBy_mergeSort (id : String → String)
    ((t.nodes.filterMap (FileTree.subdirectory? r)).filter fun n => !config.excludedDirs.contains n)
  have hnodup := hsorted.same.nodup_iff.mpr ((ht.nodup_subdirectories r).filter _)
  refine ⟨r, hr, ?_, fun n => ?_⟩
  · exact (hsorted.rising.and hnodup).imp fun ⟨hle, hne⟩ => Std.lt_of_le_of_ne hle hne
  · have hmem := hsorted.same.mem_iff (a := n)
    rw [List.mem_filter, ht.mem_subdirectories] at hmem
    simpa [and_comm] using hmem

theorem candidates_view (ht : t.WellFormed) (config : Config) :
    (∃ names, (candidates t.view config).run.run = .ok names ∧ Listed t config names) ∨
    ∃ cause, (candidates t.view config).run.run = .error (.unreachable config.projectRoot cause) ∧
      t.subdirectories config.projectRoot = .error cause := by
  cases hread : t.subdirectories config.projectRoot with
  | ok names =>
    refine .inl ⟨_, ?_, listed_of_subdirectories ht hread⟩
    have hview : t.view.subdirectories config.projectRoot = (pure (.ok names) : Id _) := hread
    unfold candidates
    simp [hview]
  | error cause =>
    refine .inr ⟨cause, ?_, rfl⟩
    have hview : t.view.subdirectories config.projectRoot = (pure (.error cause) : Id _) := hread
    unfold candidates
    simp [hview]

theorem locate_view (t : FileTree) (config : Config) : (locate t.view config).run.run =
    match (activeName t.view config).run.run with
    | .error e => .error e
    | .ok name =>
      if !name.isEmpty && t.isDirectory (config.projectRoot.join ⟨name⟩) then
        .ok ⟨config.projectRoot, name, config.projectRoot.join ⟨name⟩,
          (config.projectRoot.join ⟨name⟩).join ⟨config.templateFile⟩⟩
      else
        match (candidates t.view config).run.run with
        | .error e => .error e
        | .ok names => .error (.directoryMissing name names) := by
  unfold locate
  rw [ExceptT.run_bind, Id.run_bind]
  cases (activeName t.view config).run.run with
  | error e => rfl
  | ok name =>
    show (if !name.isEmpty && t.isDirectory (config.projectRoot.join ⟨name⟩) then pure _ else
      (candidates t.view config >>= fun names => throw (.directoryMissing name names)) :
        ExceptT Error Id Location).run.run = if _ then _ else _
    by_cases hfound : (!name.isEmpty && t.isDirectory (config.projectRoot.join ⟨name⟩)) = true
    · rw [if_pos hfound, if_pos hfound]
      rfl
    · rw [if_neg hfound, if_neg hfound, ExceptT.run_bind, Id.run_bind]
      cases (candidates t.view config).run.run <;> rfl

/-- The search for the active template gives what `Outcome` says. -/
theorem outcome_locate (ht : t.WellFormed) (config : Config) :
    Outcome t config (locate t.view config).run.run := by
  rw [locate_view]
  rcases activeName_view t config with ⟨name, hname, chosen⟩ | ⟨cause, hname, selection, read⟩
  · rw [hname]
    show Outcome t config (if _ then _ else _)
    split
    next hfound =>
      rw [Bool.and_eq_true] at hfound
      exact .found chosen (by simpa using hfound.1) hfound.2
    next hmissing =>
      have hmissing : name = "" ∨ t.isDirectory (config.projectRoot.join ⟨name⟩) = false := by
        by_cases hempty : name = ""
        · exact .inl hempty
        · exact .inr (by simpa [hempty] using hmissing)
      rcases candidates_view ht config with ⟨names, hnames, listed⟩ | ⟨cause, hnames, read⟩
      · rw [hnames]
        exact .missing chosen hmissing listed
      · rw [hnames]
        exact .unlisted chosen hmissing read
  · rw [hname]
    exact .unnamed selection read

/-! ### The place of the template -/

/-- An inner name leads below the place where it is followed from, if no link is met. -/
theorem below_of_inner {r : RealPath} (h : Path.Inner ⟨name⟩) :
    r.Below (seenFrom r (Path.segments ⟨name⟩)) := by
  obtain ⟨-, hdown, hne⟩ := h
  have hall : ∀ s ∈ Path.names ⟨name⟩, Path.isIdle s = false ∧ s ≠ ".." := fun s hs =>
    ⟨(Path.isPart_of_mem_names hs).1, fun hup => hdown (hup ▸ hs)⟩
  rw [← Path.seenFrom_filter, ← Path.names, Path.seenFrom_names hall]
  exact ⟨List.prefix_append r _, by simpa using hne⟩

/-- **The template lies where its name says**: the search gives what `Outcome` says.  A directory that
it finds exists.  If its name is a relative path and the root is not empty, then the root exists too,
and a name that is inner leads below it; where no link is met, any name leads to the place that its
segments name. -/
theorem locate_places (ht : t.WellFormed) (config : Config) :
    Outcome t config (locate t.view config).run.run ∧
    ∀ l, (locate t.view config).run.run = .ok l →
      (Path.isAbsolute ⟨config.templateFile⟩ = false →
        l.file.names = l.directory.names ++ Path.names ⟨config.templateFile⟩) ∧
      (Path.isAbsolute ⟨l.name⟩ = false →
        l.directory.names = config.projectRoot.names ++ Path.names ⟨l.name⟩ ∧
        (config.projectRoot.text ≠ "" →
          ∃ r, t.realPath config.projectRoot = .ok r ∧ t.node? r = some .directory)) ∧
      ∃ d, t.realPath l.directory = .ok d ∧ t.node? d = some .directory ∧
        ∀ r, t.realPath config.projectRoot = .ok r →
          Unlinked t (base r ⟨l.name⟩) (Path.segments ⟨l.name⟩) →
          d = seenFrom (base r ⟨l.name⟩) (Path.segments ⟨l.name⟩) ∧
          (Path.Inner ⟨l.name⟩ → r.Below d) := by
  refine ⟨outcome_locate ht config, fun l hl => ?_⟩
  have houtcome := outcome_locate ht config
  rw [hl] at houtcome
  cases houtcome with
  | @found name chosen nonempty there =>
    obtain ⟨d, hd, hdirectory⟩ := FileTree.exists_of_isDirectory there
    refine ⟨fun hfile => Path.names_join _ hfile, fun hname => ⟨Path.names_join _ hname, fun hroot => ?_⟩,
      d, hd, hdirectory, fun r hr hfree => ?_⟩
    · obtain ⟨r, hr, hrdirectory, -⟩ := FileTree.realPath_join hd hname hroot
      exact ⟨r, hr, hrdirectory⟩
    · obtain ⟨j, hleads⟩ := FileTree.leads_join hd hr
      have hseen := hleads.eq_seenFrom hfree
      refine ⟨hseen, fun hinner => ?_⟩
      have hbase : base r ⟨name⟩ = r := if_neg (by simp [hinner.1])
      rw [hseen, hbase]
      exact below_of_inner hinner

/-- A project with the template `A`, in which the pointer file has a given text. -/
def pointing (text : String) : FileTree where
  nodes := [(["work"], .directory), (["work", "A"], .directory),
    (["work", "CurrentTemplateDirectory.txt"], .file text.toUTF8)]
  working := ["work"]

/-- The pointer file names the template with blanks around it. -/
theorem locate_places_pointing :
    (pointing " A\n").WellFormed ∧
    (locate (pointing " A\n").view {}).run.run =
      .ok ⟨⟨"."⟩, "A", ⟨"./A"⟩, ⟨"./A/Template.tpl"⟩⟩ ∧
    ∃ d, (pointing " A\n").realPath ⟨"./A"⟩ = .ok d ∧ RealPath.Below ["work"] d := by
  have ht : (pointing " A\n").WellFormed := by decide +kernel
  have hlocate : (locate (pointing " A\n").view {}).run.run =
      .ok ⟨⟨"."⟩, "A", ⟨"./A"⟩, ⟨"./A/Template.tpl"⟩⟩ := by decide +kernel
  have hroot : (pointing " A\n").realPath ⟨"."⟩ = .ok ["work"] := by decide +kernel
  have hfree : (pointing " A\n").Unlinked (base ["work"] ⟨"A"⟩) (Path.segments ⟨"A"⟩) := by
    decide +kernel
  obtain ⟨-, -, d, hd, -, hplace⟩ := (locate_places ht {}).2 _ hlocate
  exact ⟨ht, hlocate, d, hd, (hplace _ hroot hfree).2 (by decide)⟩

/-- The directory above the project is taken for a template. -/
theorem locate_parent :
    (pointing "..\n").WellFormed ∧
    (locate (pointing "..\n").view {}).run.run =
      .ok ⟨⟨"."⟩, "..", ⟨"./.."⟩, ⟨"./../Template.tpl"⟩⟩ ∧
    (pointing "..\n").realPath ⟨"."⟩ = .ok ["work"] ∧ (pointing "..\n").realPath ⟨"./.."⟩ = .ok [] ∧
    ¬ RealPath.Below ["work"] [] := by decide +kernel

end Project

end ReportTemplate
