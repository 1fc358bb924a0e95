import Mathlib.Data.List.Nodup
import Mathlib.Data.List.Perm.Basic
import ReportTemplate.Watch

/-!
# ReportTemplate.Proofs.Watch.Registration — threads that register directories

Several threads share one watcher.  A call looks its path up first, with no lock held, and registers
the real path in one critical section, so between the two any other thread may take any of its steps.
The system below has both steps as moves of a thread: whose turn it is, where each path leads and
what the mechanism answers are all free.  What one move does is said once, in `Outcome`; each
invariant is one case analysis over it.
-/

namespace ReportTemplate.Watch

/-! ### The system -/

/-- A call: its path, and where that leads when the path is looked up. -/
structure Call where
  path : Path
  real : Except IoError RealPath
deriving DecidableEq

/-- A thread: the calls that it still has to make, and the root that it waits for the lock with. -/
structure Thread where
  calls : List Call := []
  waiting : Option RealPath := none
deriving DecidableEq

/-- What the mechanism was asked for, and its answers. -/
abbrev Asked : Type := List (RealPath × Except String Unit)

/-- Threads at the watcher that they share. -/
structure System where
  threads : List Thread
  watcher : Watcher := {}
  /-- Every call of the mechanism so far. -/
  asked : Asked := []
  /-- How the calls ended that are over, and whose they were. -/
  ended : List (Nat × Except Error Unit) := []
deriving DecidableEq

/-- What happens next. -/
inductive Move where
  /-- A thread looks the path of its next call up. -/
  | looksUp (i : Nat)
  /-- A thread runs its critical section; the mechanism gives this answer if it is asked. -/
  | enters (i : Nat) (answer : Except String Unit)

/-- The mechanism, with its next answer. -/
def asks (answer : Except String Unit) (root : RealPath) : StateM Asked (Except String Unit) :=
  fun asked => (answer, asked ++ [(root, answer)])

namespace System

/-- The system after a move, if the thread can make it. -/
def step (s : System) : Move → Option System
  | .looksUp i =>
    match s.threads[i]? with
    | some ⟨⟨path, .error cause⟩ :: calls, none⟩ =>
      some { s with
        threads := s.threads.set i ⟨calls, none⟩
        ended := s.ended ++ [(i, .error (.unreachable path cause))] }
    | some ⟨⟨_, .ok root⟩ :: calls, none⟩ =>
      some { s with threads := s.threads.set i ⟨calls, some root⟩ }
    | _ => none
  | .enters i answer =>
    match s.threads[i]? with
    | some ⟨calls, some root⟩ =>
      let ((result, watcher), asked) := s.watcher.register (asks answer) root s.asked
      some {
        threads := s.threads.set i ⟨calls, none⟩
        watcher
        asked
        ended := s.ended ++ [(i, result)] }
    | _ => none

/-- The system after some moves. -/
def run (s : System) (moves : List Move) : Option System := moves.foldlM step s

/-- A new watcher, and a thread for each list of calls. -/
def start (programs : List (List Call)) : System where
  threads := programs.map fun calls => { calls }

/-- Every thread is through with its calls. -/
def Finished (s : System) : Prop := ∀ thread ∈ s.threads, thread = {}

/-- The mechanism has never refused. -/
def Succeeds (s : System) : Prop := ∀ entry ∈ s.asked, entry.2 = .ok ()

/-! ### What a move does -/

/-- The five things that a move can do. -/
inductive Outcome (s : System) : Move → System → Prop
  | lost {i : Nat} {path : Path} {cause : IoError} {calls : List Call}
    (turn : s.threads[i]? = some ⟨⟨path, .error cause⟩ :: calls, none⟩) :
    Outcome s (.looksUp i)
      { s with
        threads := s.threads.set i ⟨calls, none⟩
        ended := s.ended ++ [(i, .error (.unreachable path cause))] }
  | found {i : Nat} {path : Path} {root : RealPath} {calls : List Call}
    (turn : s.threads[i]? = some ⟨⟨path, .ok root⟩ :: calls, none⟩) :
    Outcome s (.looksUp i) { s with threads := s.threads.set i ⟨calls, some root⟩ }
  | known {i : Nat} {answer : Except String Unit} {root : RealPath} {calls : List Call}
    (turn : s.threads[i]? = some ⟨calls, some root⟩) (old : root ∈ s.watcher.roots) :
    Outcome s (.enters i answer)
      { s with
        threads := s.threads.set i ⟨calls, none⟩
        ended := s.ended ++ [(i, .ok ())] }
  | added {i : Nat} {root : RealPath} {calls : List Call}
    (turn : s.threads[i]? = some ⟨calls, some root⟩) (new : root ∉ s.watcher.roots) :
    Outcome s (.enters i (.ok ()))
      { threads := s.threads.set i ⟨calls, none⟩
        watcher := ⟨s.watcher.roots ++ [root]⟩
        asked := s.asked ++ [(root, .ok ())]
        ended := s.ended ++ [(i, .ok ())] }
  | refused {i : Nat} {text : String} {root : RealPath} {calls : List Call}
    (turn : s.threads[i]? = some ⟨calls, some root⟩) (new : root ∉ s.watcher.roots) :
    Outcome s (.enters i (.error text))
      { s with
        threads := s.threads.set i ⟨calls, none⟩
        asked := s.asked ++ [(root, .error text)]
        ended := s.ended ++ [(i, .error (.refused text))] }

theorem register_asks (w : Watcher) (answer : Except String Unit) (root : RealPath)
    (asked : Asked) :
    w.register (asks answer) root asked =
      if root ∈ w.roots then ((.ok (), w), asked)
      else (w.answered root answer, asked ++ [(root, answer)]) := by
  by_cases h : root ∈ w.roots
  · have known : w.needs root = false := by simp [Watcher.needs, h]
    rw [if_pos h, Watcher.register, known]
    rfl
  · have needed : w.needs root = true := by simp [Watcher.needs, h]
    rw [if_neg h, Watcher.register, needed]
    rfl

theorem outcome {s t : System} {move : Move} (h : s.step move = some t) : s.Outcome move t := by
  cases move with
  | looksUp i =>
    simp only [step] at h
    split at h
    · next turn => cases h; exact .lost turn
    · next turn => cases h; exact .found turn
    · cases h
  | enters i answer =>
    simp only [step] at h
    split at h
    · next calls root turn =>
      rw [register_asks] at h
      by_cases old : root ∈ s.watcher.roots
      · rw [if_pos old] at h
        cases h
        exact .known turn old
      · rw [if_neg old] at h
        cases answer <;> cases h
        · exact .refused turn old
        · exact .added turn old
    · cases h

/-- What every move keeps, a run keeps. -/
theorem run_keeps {P : System → Prop}
    (keeps : ∀ {s t : System} {move : Move}, s.Outcome move t → P s → P t) {moves : List Move}
    {s t : System} (h : s.run moves = some t) (hs : P s) : P t := by
  induction moves generalizing s with
  | nil => cases h; exact hs
  | cons move moves ih =>
    obtain ⟨next, hstep, hrun⟩ := Option.bind_eq_some_iff.1 h
    exact ih hrun (keeps (outcome hstep) hs)

/-- A call that no other thread interrupts does what `Watcher.watch` does. -/
theorem run_uninterrupted {s : System} {i : Nat} {call : Call} {calls : List Call}
    (turn : s.threads[i]? = some ⟨call :: calls, none⟩) {fs : FileSystem (StateM Asked)}
    (hreal : fs.realPath call.path = pure call.real) (answer : Except String Unit) :
    let ((result, watcher), asked) := s.watcher.watch fs (asks answer) call.path s.asked
    ∃ moves, s.run moves = some {
      threads := s.threads.set i ⟨calls, none⟩
      watcher
      asked
      ended := s.ended ++ [(i, result)] } := by
  obtain ⟨path, real⟩ := call
  rw [Watcher.watch, hreal]
  cases real with
  | error cause =>
    refine ⟨[.looksUp i], ?_⟩
    simp only [run, List.foldlM_cons, List.foldlM_nil, step, turn]
    rfl
  | ok root =>
    have hlength := (List.getElem?_eq_some_iff.1 turn).1
    have hwaits : (s.threads.set i ⟨calls, some root⟩)[i]? = some ⟨calls, some root⟩ :=
      List.getElem?_set_self hlength
    refine ⟨[.looksUp i, .enters i answer], ?_⟩
    simp only [run, List.foldlM_cons, List.foldlM_nil, step, turn, bind, Option.bind, hwaits,
      List.set_set]
    rfl

/-! ### The roots and the mechanism -/

/-- The roots that are watched are those that the mechanism has accepted, each of them once. -/
structure Accounts (s : System) : Prop where
  accepted : ∀ root, root ∈ s.watcher.roots ↔ (root, .ok ()) ∈ s.asked
  distinct : s.watcher.roots.Nodup

theorem Outcome.accounts {s t : System} {move : Move} (h : s.Outcome move t) (hs : s.Accounts) :
    t.Accounts := by
  cases h with
  | lost | found | known => exact ⟨hs.accepted, hs.distinct⟩
  | @added _ root _ _ new =>
    refine ⟨fun other => ?_, ?_⟩
    · simp [hs.accepted other]
    · simpa only [List.concat_eq_append] using hs.distinct.concat new
  | refused => exact ⟨fun other => by simp [hs.accepted other], hs.distinct⟩

/-- The mechanism is asked only for roots that are not watched yet. -/
theorem Outcome.asks_new {s t : System} {move : Move} (h : s.Outcome move t) :
    ∃ more, t.asked = s.asked ++ more ∧ ∀ entry ∈ more, entry.1 ∉ s.watcher.roots := by
  cases h with
  | lost | found | known => exact ⟨[], by simp⟩
  | added _ new | refused _ new => exact ⟨_, rfl, by simpa using new⟩

/-- The roots change only where a call ends well. -/
theorem Outcome.changes {s t : System} {move : Move} (h : s.Outcome move t) :
    t.watcher = s.watcher ∨ ∃ i, t.ended = s.ended ++ [(i, .ok ())] := by
  cases h with
  | lost | found | known | refused => exact .inl rfl
  | added => exact .inr ⟨_, rfl⟩

/-! ### The roots in the end -/

end System

/-- The roots that a thread still has to register. -/
def Thread.Wants (thread : Thread) (root : RealPath) : Prop :=
  thread.waiting = some root ∨ ∃ call ∈ thread.calls, call.real = .ok root

/-- The roots that some thread still has to register. -/
def Wanted (threads : List Thread) (root : RealPath) : Prop :=
  ∃ thread ∈ threads, thread.Wants root

/-- What is wanted less when one thread moves on is what this thread wants less. -/
theorem wanted_set {threads : List Thread} {i : Nat} {thread : Thread} (next : Thread)
    (root : RealPath) (gone : Prop) (turn : threads[i]? = some thread)
    (h : thread.Wants root ↔ gone ∨ next.Wants root) :
    Wanted threads root ↔ gone ∨ Wanted (threads.set i next) root := by
  obtain ⟨hlength, rfl⟩ := List.getElem?_eq_some_iff.1 turn
  have split : threads = threads.take i ++ threads[i] :: threads.drop (i + 1) := by
    rw [← List.drop_eq_getElem_cons hlength, List.take_append_drop]
  rw [List.set_eq_take_append_cons_drop, if_pos hlength]
  unfold Wanted
  conv_lhs => rw [split]
  simp only [List.mem_append, List.mem_cons, or_and_right, exists_or, exists_eq_left, h]
  rw [or_assoc, or_left_comm]

namespace System

/-- Unless the mechanism has refused, the roots of all calls are watched or still wanted. -/
def Complete (programs : List (List Call)) (s : System) : Prop :=
  s.Succeeds → ∀ root, (∃ calls ∈ programs, ∃ call ∈ calls, call.real = .ok root) ↔
    root ∈ s.watcher.roots ∨ Wanted s.threads root

theorem complete_start (programs : List (List Call)) : (start programs).Complete programs := by
  intro _ root
  simp [start, Wanted, Thread.Wants]

theorem Outcome.complete {programs : List (List Call)} {s t : System} {move : Move}
    (h : s.Outcome move t) (hs : s.Complete programs) : t.Complete programs := by
  intro succeeds root
  cases h with
  | @lost _ _ _ calls turn =>
    have moved := wanted_set ⟨calls, none⟩ root False turn (by simp [Thread.Wants])
    rw [hs succeeds root, moved, false_or]
  | @found _ _ found calls turn =>
    have moved := wanted_set ⟨calls, some found⟩ root False turn (by simp [Thread.Wants])
    rw [hs succeeds root, moved, false_or]
  | @known _ _ known calls turn old =>
    have moved := wanted_set ⟨calls, none⟩ root (known = root) turn (by simp [Thread.Wants])
    have absorbed : root ∈ s.watcher.roots ∨ known = root ↔ root ∈ s.watcher.roots :=
      or_iff_left_of_imp fun same => same ▸ old
    rw [hs succeeds root, moved, ← or_assoc, absorbed]
  | @added _ new calls turn =>
    have before : s.Succeeds := fun entry mem => succeeds entry (List.mem_append_left _ mem)
    have moved := wanted_set ⟨calls, none⟩ root (new = root) turn (by simp [Thread.Wants])
    rw [hs before root, moved, ← or_assoc, List.mem_append, List.mem_singleton, eq_comm]
  | refused =>
    have := succeeds _ (List.mem_append_right _ (List.mem_singleton_self _))
    cases this

/-- Two watchers with the same roots list them alike. -/
theorem watched_congr {v w : Watcher} (hv : v.roots.Nodup) (hw : w.roots.Nodup)
    (h : ∀ root, root ∈ v.roots ↔ root ∈ w.roots) : v.watched = w.watched := by
  have same : v.watched.Perm w.watched :=
    (List.mergeSort_perm _ _).trans
      (((List.perm_ext_iff_of_nodup hv hw).2 h).trans (List.mergeSort_perm _ _).symm)
  have sorted (l : List RealPath) :
      (l.mergeSort fun a b => (compare a b).isLE).Pairwise fun a b => (compare a b).isLE :=
    List.pairwise_mergeSort (fun _ _ _ => Std.TransCmp.isLE_trans)
      (fun a b => by
        have swap : compare b a = (compare a b).swap := Std.OrientedCmp.eq_swap
        rw [swap]
        cases compare a b <;> rfl) l
  refine same.eq_of_pairwise (fun a b _ _ le ge => ?_) (sorted _) (sorted _)
  have both : compare a b = .eq := Std.OrientedCmp.isLE_antisymm le ge
  exact Std.LawfulEqCmp.compare_eq_iff_eq.1 both

/-- Once all calls are over, the roots are where they lead, unless the mechanism has refused. -/
theorem Complete.finished {programs : List (List Call)} {s : System} (h : s.Complete programs)
    (finished : s.Finished) (succeeds : s.Succeeds) (root : RealPath) :
    root ∈ s.watcher.roots ↔ ∃ calls ∈ programs, ∃ call ∈ calls, call.real = .ok root := by
  have idle : ¬Wanted s.threads root := by
    rintro ⟨thread, mem, wants⟩
    rw [finished thread mem] at wants
    simp [Thread.Wants] at wants
  rw [h succeeds root, or_iff_left idle]

/-! ### The law -/

/-- **Registration is idempotent in any order.**  After any moves, by any threads with any calls:
the roots are those that the mechanism has accepted; whatever moves next, the mechanism is not asked
for a root that is watched already, and the roots stay what they are unless a call ends well; and
once all calls are over and the mechanism has accepted everything, the roots are those that the paths
lead to, and the list of them is the one that any other order of the moves gives. -/
theorem registration_idempotent {programs : List (List Call)} {moves : List Move} {s : System}
    (h : (start programs).run moves = some s) :
    (∀ root, root ∈ s.watcher.roots ↔ (root, .ok ()) ∈ s.asked) ∧
      (∀ move t, s.step move = some t →
        (∃ more, t.asked = s.asked ++ more ∧ ∀ entry ∈ more, entry.1 ∉ s.watcher.roots) ∧
        (t.watcher = s.watcher ∨ ∃ i, t.ended = s.ended ++ [(i, .ok ())])) ∧
      (s.Finished → s.Succeeds →
        (∀ root, root ∈ s.watcher.roots ↔
          ∃ calls ∈ programs, ∃ call ∈ calls, call.real = .ok root) ∧
        ∀ others t, (start programs).run others = some t → t.Finished → t.Succeeds →
          t.watcher.watched = s.watcher.watched) := by
  have accounts {moves s} (h : (start programs).run moves = some s) : s.Accounts :=
    run_keeps Outcome.accounts h ⟨by simp [start], List.nodup_nil⟩
  have complete {moves s} (h : (start programs).run moves = some s) : s.Complete programs :=
    run_keeps Outcome.complete h (complete_start programs)
  refine ⟨(accounts h).accepted, fun move t hstep => ?_, fun finished succeeds => ⟨?_, ?_⟩⟩
  · exact ⟨(outcome hstep).asks_new, (outcome hstep).changes⟩
  · exact (complete h).finished finished succeeds
  · intro others t ht tFinished tSucceeds
    refine watched_congr (accounts ht).distinct (accounts h).distinct fun root => ?_
    rw [(complete ht).finished tFinished tSucceeds, (complete h).finished finished succeeds]

/-- Two spellings of one directory, looked up before either of them is registered. -/
theorem registration_idempotent_two_spellings :
    let programs : List (List Call) := [[⟨⟨"/a"⟩, .ok ["a"]⟩], [⟨⟨"/b/../a"⟩, .ok ["a"]⟩]]
    let s : System := {
      threads := [{}, {}]
      watcher := ⟨[["a"]]⟩
      asked := [(["a"], .ok ())]
      ended := [(1, .ok ()), (0, .ok ())] }
    (start programs).run [.looksUp 0, .looksUp 1, .enters 1 (.ok ()), .enters 0 (.error "busy")] =
        some s ∧ s.Finished ∧ s.Succeeds ∧
      ∀ others t, (start programs).run others = some t → t.Finished → t.Succeeds →
        t.watcher.watched = [["a"]] := by
  intro programs s
  have hrun : (start programs).run
      [.looksUp 0, .looksUp 1, .enters 1 (.ok ()), .enters 0 (.error "busy")] = some s := by rfl
  have finished : s.Finished := by simp [Finished, s]
  have succeeds : s.Succeeds := by simp [Succeeds, s]
  have listed : s.watcher.watched = [["a"]] := List.mergeSort_singleton _
  obtain ⟨-, -, final⟩ := registration_idempotent hrun
  exact ⟨hrun, finished, succeeds, listed ▸ (final finished succeeds).2⟩

end System

end ReportTemplate.Watch
