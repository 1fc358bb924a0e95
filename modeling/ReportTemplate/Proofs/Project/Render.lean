import ReportTemplate.FileTree
import ReportTemplate.Project
import ReportTemplate.Proofs.Report.Log

/-!
# ReportTemplate.Proofs.Project.Render — a render does what the check of the project promises

A check and a render find and compile the active template in the same way.  On a file system that stays
as it is, what the check has given tells what the render does: it fails with the same error and has no
effect, or it runs the entry point that the check has found.
-/

namespace ReportTemplate

namespace FileSystem

variable {σ α β ε : Type}

/-- A computation leaves the state as it is. -/
def OnlyReads (x : StateM σ α) : Prop := ∀ s, (x.run s).2 = s

/-- To look at the file system leaves the state as it is. -/
structure Still (fs : FileSystem (StateM σ)) : Prop where
  workingDirectory : OnlyReads fs.workingDirectory
  readText : ∀ p, OnlyReads (fs.readText p)
  isDirectory : ∀ p, OnlyReads (fs.isDirectory p)
  subdirectories : ∀ p, OnlyReads (fs.subdirectories p)
  realPath : ∀ p, OnlyReads (fs.realPath p)

theorem OnlyReads.pure (a : α) : OnlyReads (Pure.pure a : StateM σ α) := fun _ => rfl

theorem OnlyReads.bind {x : StateM σ α} {f : α → StateM σ β} (hx : OnlyReads x)
    (hf : ∀ a, OnlyReads (f a)) : OnlyReads (x >>= f) := by
  intro s
  rw [StateT.run_bind]
  exact (hf _ _).trans (hx s)

theorem OnlyReads.bindExcept {x : ExceptT ε (StateM σ) α} {f : α → ExceptT ε (StateM σ) β}
    (hx : OnlyReads x.run) (hf : ∀ a, OnlyReads (f a).run) : OnlyReads (x >>= f).run := by
  rw [ExceptT.run_bind]
  refine hx.bind fun r => ?_
  cases r with
  | ok a => exact hf a
  | error e => exact .pure _

theorem OnlyReads.lift {x : StateM σ α} (hx : OnlyReads x) :
    OnlyReads (liftM x : ExceptT ε (StateM σ) α).run := by
  exact hx.bind fun _ => .pure _

/-- A tree of files is still. -/
theorem still_disk : Still FileTree.disk.toFileSystem where
  workingDirectory _ := rfl
  readText _ _ := rfl
  isDirectory _ _ := rfl
  subdirectories _ _ := rfl
  realPath _ _ := rfl

end FileSystem

namespace Project

open FileSystem (OnlyReads Still)

variable {σ : Type} {fs : FileSystem (StateM σ)} {p : Project} {s : σ}

/-! ### The source is only read -/

theorem onlyReads_readText (h : fs.Still) (q : Path) : OnlyReads (readText fs q).run := by
  refine (OnlyReads.lift (h.readText q)).bindExcept fun r => ?_
  cases r with
  | ok text => exact .pure _
  | error cause => exact .pure _

theorem onlyReads_activeName (h : fs.Still) (config : Config) :
    OnlyReads (activeName fs config).run := by
  unfold activeName
  cases config.selection with
  | named name => exact .pure _
  | pointerFile => exact (onlyReads_readText h _).bindExcept fun _ => .pure _

theorem onlyReads_candidates (h : fs.Still) (config : Config) :
    OnlyReads (candidates fs config).run := by
  refine (OnlyReads.lift (h.subdirectories config.projectRoot)).bindExcept fun r => ?_
  cases r with
  | ok names => exact .pure _
  | error cause => exact .pure _

theorem onlyReads_locate (h : fs.Still) (config : Config) : OnlyReads (locate fs config).run := by
  refine (onlyReads_activeName h config).bindExcept fun name => ?_
  refine (OnlyReads.lift (h.isDirectory _)).bindExcept fun there => ?_
  split
  · exact .pure _
  · exact (onlyReads_candidates h config).bindExcept fun _ => .pure _

theorem onlyReads_source (h : fs.Still) (config : Config) : OnlyReads (source fs config).run :=
  (onlyReads_locate h config).bindExcept fun _ =>
    (onlyReads_readText h _).bindExcept fun _ => .pure _

/-! ### Checks and renders -/

theorem check_run_error {e : Error} {t : σ} (h : (source fs p.config).run.run s = (.error e, t)) :
    (p.check fs).run.run s = (.error e, t) := by
  unfold check
  rw [ExceptT.run_bind, StateT.run_bind, h]
  rfl

theorem check_run_ok {location : Location} {text : String} {t : σ}
    (h : (source fs p.config).run.run s = (.ok (location, text), t)) :
    (p.check fs).run.run s = match Report.check p.settings text with
      | .ok (c, entry) => (.ok (location, c, entry), t)
      | .error e => (.error (.report e), t) := by
  unfold check
  rw [ExceptT.run_bind, StateT.run_bind, h]
  change StateT.run (ExceptT.run (match Report.check p.settings text with
    | .ok (c, entry) => pure (location, c, entry)
    | .error e => throw (Error.report e))) t = _
  rcases Report.check p.settings text with e | ⟨c, entry⟩ <;> rfl

variable {watch : Path → StateM σ (Except Watch.Error Unit)} {document : Document}

theorem render_run_error {e : Error} {t : σ} (h : (source fs p.config).run.run s = (.error e, t)) :
    (p.render fs watch document).run s = (⟨.error e, document, []⟩, t) := by
  unfold render
  rw [StateT.run_bind, h]
  rfl

theorem render_run_ok {location : Location} {text : String} {t : σ}
    (h : (source fs p.config).run.run s = (.ok (location, text), t)) :
    (p.render fs watch document).run s = (renderAt watch p location text document).run t := by
  unfold render
  rw [StateT.run_bind, h]
  rfl

/-- The result of a render whose run has given a report, by the answer of the watcher. -/
def reported (report : Report) : Except Watch.Error Unit → Except Error Report
  | .ok () => .ok report
  | .error e => .error (.watch e)

variable {location : Location} {text : String}

theorem renderAt_error {e : Report.Error} (h : Report.check p.settings text = .error e) :
    (renderAt watch p location text document).run s =
      (⟨.error (.report e), document, []⟩, s) := by
  unfold renderAt Report.ofSource
  rw [h]
  rfl

theorem renderAt_halted {c : Compiled} {entry : EntryPoint} {h : Machine.Halt} {w : Machine.World}
    (hcheck : Report.check p.settings text = .ok (c, entry))
    (hrun : entry.invoke p.steps location.directory.text ⟨document, #[]⟩ = .error h w) :
    (renderAt watch p location text document).run s =
      (⟨.error (.report (.run h)), w.document, []⟩, s) := by
  have hsource : Report.ofSource p.settings text location.directory.text document =
      (.error (.run h), w.document) := by
    unfold Report.ofSource
    rw [hcheck]
    dsimp only
    rw [show p.settings.steps = p.steps from rfl, hrun]
  unfold renderAt
  rw [hsource]
  rfl

theorem renderAt_ended {c : Compiled} {entry : EntryPoint} {v : Value} {w : Machine.World}
    (hcheck : Report.check p.settings text = .ok (c, entry))
    (hrun : entry.invoke p.steps location.directory.text ⟨document, #[]⟩ = .ok v w) :
    (renderAt watch p location text document).run s =
      (⟨reported ⟨w.log.toList.map Machine.LogEntry.shown, w.document.text⟩
          ((watch location.projectRoot).run s).1, w.document,
          [.saved w.document.text, .registered location.projectRoot]⟩,
        ((watch location.projectRoot).run s).2) := by
  have hsource : Report.ofSource p.settings text location.directory.text document =
      (.ok ⟨w.log.toList.map Machine.LogEntry.shown, w.document.text⟩, w.document) := by
    unfold Report.ofSource
    rw [hcheck]
    dsimp only
    rw [show p.settings.steps = p.steps from rfl, hrun]
  unfold renderAt
  rw [hsource]
  dsimp only
  rw [StateT.run_bind]
  rcases (watch location.projectRoot).run s with ⟨answer, t⟩
  cases answer <;> rfl

/-- The run of an entry point that a check has found ends with a value or a failure, unless a loop takes
more rounds than it may. -/
theorem halted_of_check {settings : Report.Settings} {c : Compiled} {entry : EntryPoint}
    (hcheck : Report.check settings text = .ok (c, entry)) {steps : Nat} {directory : String}
    {world w : Machine.World} {h : Machine.Halt}
    (hrun : entry.invoke steps directory world = .error h w) :
    (∃ f, h = .failed f) ∨ h = .outOfSteps := by
  obtain ⟨refs, -, hcompile, hofProgram⟩ := Report.check_ok hcheck
  obtain ⟨file, hparse, hprogram, hclean⟩ := Program.compile_ok hcompile
  rw [hprogram] at hofProgram
  obtain ⟨t, hentry⟩ := EntryPoint.mem_candidates_of_ofProgram hofProgram
  obtain ⟨hsame, m, hm, hargs⟩ := EntryPoint.declared_of_mem_candidates hclean hentry directory
  cases h with
  | failed f => exact .inl ⟨f, rfl⟩
  | outOfSteps => exact .inr rfl
  | broken =>
    unfold EntryPoint.invoke at hrun
    rw [hsame] at hrun
    exact absurd hrun (Machine.invoke_not_broken hclean hm (Nat.le_of_eq hargs.symm) _ _ _ _)

/-- **Checks and renders agree**: on a file system that stays as it is, a render fails with the error of
the check, and then leaves the document and registers nothing.  If the check finds an entry point, the
render runs this one: either the run fails, and nothing is saved or registered, or it ends, and then the
document is saved once, and the root of the project is registered once after that.  Unless the watcher
refuses, the report holds the text that was saved, and the entries of the log in the order of their
calls. -/
theorem render_agrees (hstill : fs.Still) (watch : Path → StateM σ (Except Watch.Error Unit))
    (p : Project) (document : Document) (s : σ) :
    ((p.check fs).run.run s).2 = s ∧
    (∀ e, ((p.check fs).run.run s).1 = .error e →
      (p.render fs watch document).run s = (⟨.error e, document, []⟩, s)) ∧
    (∀ location c entry, ((p.check fs).run.run s).1 = .ok (location, c, entry) →
      (∀ h w, entry.invoke p.steps location.directory.text ⟨document, #[]⟩ = .error h w →
        ((∃ f, h = .failed f) ∨ h = .outOfSteps) ∧
        (p.render fs watch document).run s = (⟨.error (.report (.run h)), w.document, []⟩, s)) ∧
      (∀ v w, entry.invoke p.steps location.directory.text ⟨document, #[]⟩ = .ok v w →
        (p.render fs watch document).run s =
          (⟨reported ⟨w.log.toList.map Machine.LogEntry.shown, w.document.text⟩
              ((watch location.projectRoot).run s).1, w.document,
              [.saved w.document.text, .registered location.projectRoot]⟩,
            ((watch location.projectRoot).run s).2))) := by
  have hreads := onlyReads_source hstill p.config s
  rcases hsource : (source fs p.config).run.run s with ⟨found, t⟩
  rw [hsource] at hreads
  obtain rfl : t = s := hreads
  cases found with
  | error e =>
    rw [check_run_error hsource, render_run_error hsource]
    exact ⟨rfl, fun e' he => by rw [Except.error.inj he], nofun⟩
  | ok found =>
    obtain ⟨location, text⟩ := found
    rw [check_run_ok hsource, render_run_ok hsource]
    cases hcheck : Report.check p.settings text with
    | error e =>
      refine ⟨rfl, fun e' he => ?_, nofun⟩
      rw [renderAt_error hcheck, ← Except.error.inj he]
    | ok found =>
      obtain ⟨c, entry⟩ := found
      refine ⟨rfl, nofun, fun location' c' entry' hfound => ?_⟩
      cases hfound
      exact ⟨fun h w hrun => ⟨halted_of_check hcheck hrun, renderAt_halted hcheck hrun⟩,
        fun v w hrun => renderAt_ended hcheck hrun⟩

/-- A project whose files all hold one text, seen from the list of the directories that are watched. -/
def shelf (text : String) : FileSystem (StateM (List Path)) where
  workingDirectory := pure []
  readText _ := pure (.ok text)
  isDirectory _ := pure true
  subdirectories _ := pure (.ok [])
  realPath _ := pure (.ok [])

theorem still_shelf (text : String) : (shelf text).Still where
  workingDirectory _ := rfl
  readText _ _ := rfl
  isDirectory _ _ := rfl
  subdirectories _ _ := rfl
  realPath _ _ := rfl

/-- A watcher that notes each directory. -/
def noting (root : Path) : StateM (List Path) (Except Watch.Error Unit) := do
  modify fun watched => watched ++ [root]
  return .ok ()

/-- A project whose active template is the one of `T`. -/
def logging : Project := { config := { selection := .named "T" }, steps := 0 }

/-- The entries that the template `Report.looping` leaves in the log. -/
def loggedLines : List String := ["#4: \"a\\\"\" + i: a\"0", "#4: \"a\\\"\" + i: a\"1"]

theorem logging_runs : ∃ c entry v w, Report.check logging.settings Report.looping = .ok (c, entry) ∧
    entry.invoke 0 "./T" ⟨{}, #[]⟩ = .ok v w ∧
    w.log.toList.map Machine.LogEntry.shown = loggedLines ∧ w.document.text = "" := by
  have hleft : (Report.check logging.settings Report.looping).toOption.bind (fun found =>
      match found.2.invoke 0 "./T" ⟨{}, #[]⟩ with
      | .ok _ w => some (w.log.toList.map Machine.LogEntry.shown, w.document.text)
      | _ => none) = some (loggedLines, "") := by
    decide +kernel
  cases hcheck : Report.check logging.settings Report.looping with
  | error e => rw [hcheck] at hleft; cases hleft
  | ok found =>
    obtain ⟨c, entry⟩ := found
    rw [hcheck] at hleft
    dsimp only [Except.toOption, Option.bind_some] at hleft
    split at hleft
    next v w hrun =>
      obtain ⟨hlog, htext⟩ := Prod.mk.inj (Option.some.inj hleft)
      exact ⟨c, entry, v, w, rfl, hrun, hlog, htext⟩
    next => cases hleft

theorem render_agrees_logging : (shelf Report.looping).Still ∧ ∃ document,
    (logging.render (shelf Report.looping) noting {}).run [] =
      (⟨.ok ⟨loggedLines, ""⟩, document, [.saved "", .registered ⟨"."⟩]⟩, [⟨"."⟩]) := by
  obtain ⟨c, entry, v, w, hcheck, hrun, hlog, htext⟩ := logging_runs
  have hfound : ((logging.check (shelf Report.looping)).run.run []).1 =
      .ok (⟨⟨"."⟩, "T", ⟨"./T"⟩, ⟨"./T/Template.tpl"⟩⟩, c, entry) := by
    have hsource : (source (shelf Report.looping) logging.config).run.run [] =
        (.ok (⟨⟨"."⟩, "T", ⟨"./T"⟩, ⟨"./T/Template.tpl"⟩⟩, Report.looping), []) := rfl
    rw [check_run_ok hsource, hcheck]
  have hrender := ((render_agrees (still_shelf Report.looping) noting logging {} []).2.2 _ _ _
    hfound).2 v w hrun
  rw [hlog, htext] at hrender
  exact ⟨still_shelf _, w.document, hrender⟩

end Project

end ReportTemplate
