import Mathlib.Data.List.Nodup
import ReportTemplate.FileTree
import ReportTemplate.Proofs.FileTree.Names

/-!
# ReportTemplate.Proofs.FileTree.Leads — where a path leads

`Leads` says segment by segment where a path leads and through how many links; a link is followed to
its end before the segments behind it.  That is what the walk through a tree computes, and unlike the
walk it can be cut and put together: the rest of this module does so.
-/

namespace ReportTemplate.FileTree

/-- A link stands at a place. -/
def IsLink (t : FileTree) (r : RealPath) : Prop := ∃ target, t.node? r = some (.link target)

instance (t : FileTree) (r : RealPath) : Decidable (t.IsLink r) :=
  match h : t.node? r with
  | some (.link target) => isTrue ⟨target, h⟩
  | some .directory | some (.file _) | none => isFalse fun ⟨_, hlink⟩ => by rw [h] at hlink; cases hlink

/-- A file or a directory stands at a place. -/
def Stands (t : FileTree) (r : RealPath) : Prop := t.node? r ≠ none ∧ ¬ t.IsLink r

/-- The segment is followed by its name. -/
structure IsStep (s : String) : Prop where
  counts : Path.isIdle s = false
  down : s ≠ ".."
  short : s.utf8ByteSize ≤ maxName

/-- The place that a link is followed from. -/
def base (r : RealPath) (target : Path) : RealPath := if target.isAbsolute then [] else r

/-- Segments lead from one place to another, through a number of links. -/
inductive Leads (t : FileTree) : Nat → RealPath → List String → RealPath → Prop
  | here (r : RealPath) : Leads t 0 r [] r
  | idle {k : Nat} {r r' : RealPath} {s : String} {rest : List String}
      (stood : t.node? r = some .directory) (idle : Path.isIdle s = true)
      (tail : Leads t k r rest r') : Leads t k r (s :: rest) r'
  | up {k : Nat} {r r' : RealPath} {rest : List String} (stood : t.node? r = some .directory)
      (tail : Leads t k r.dropLast rest r') : Leads t k r (".." :: rest) r'
  | down {k : Nat} {r r' : RealPath} {s : String} {rest : List String}
      (stood : t.node? r = some .directory) (step : IsStep s) (found : t.Stands (r ++ [s]))
      (tail : Leads t k (r ++ [s]) rest r') : Leads t k r (s :: rest) r'
  | link {i j : Nat} {r mid r' : RealPath} {s : String} {target : Path} {rest : List String}
      (stood : t.node? r = some .directory) (step : IsStep s)
      (found : t.node? (r ++ [s]) = some (.link target))
      (jump : Leads t i (base r target) target.segments mid) (tail : Leads t j mid rest r') :
      Leads t (i + j + 1) r (s :: rest) r'

variable {t : FileTree} {i j k n : Nat} {a b c r : RealPath} {s : String} {ss ss' rest : List String}

namespace Leads

/-- Every segment needs a directory to stand in. -/
theorem stood (h : Leads t k a (s :: rest) b) : t.node? a = some .directory := by
  cases h <;> assumption

theorem eq_of_nil (h : Leads t k a [] b) : b = a ∧ k = 0 := by
  cases h
  exact ⟨rfl, rfl⟩

theorem append (h : Leads t i a ss b) (h' : Leads t j b ss' c) : Leads t (i + j) a (ss ++ ss') c := by
  induction h with
  | here => simpa using h'
  | idle stood idle _ ih => exact .idle stood idle (ih h')
  | up stood _ ih => exact .up stood (ih h')
  | down stood step found _ ih => exact .down stood step found (ih h')
  | @link i₁ i₂ _ _ _ _ _ _ stood step found jump _ _ ih =>
    have hcount : i₁ + i₂ + 1 + j = i₁ + (i₂ + j) + 1 := by omega
    rw [hcount]
    exact .link stood step found jump (ih h')

/-- The way through two lists of segments has a place between them. -/
theorem split (h : Leads t k a (ss ++ ss') c) :
    ∃ i j b, Leads t i a ss b ∧ Leads t j b ss' c ∧ i + j = k := by
  induction ss generalizing k a with
  | nil => exact ⟨0, k, a, .here a, h, Nat.zero_add k⟩
  | cons s rest ih =>
    cases h with
    | idle stood idle tail =>
      obtain ⟨i, j, b, hb, hc, rfl⟩ := ih tail
      exact ⟨i, j, b, .idle stood idle hb, hc, rfl⟩
    | up stood tail =>
      obtain ⟨i, j, b, hb, hc, rfl⟩ := ih tail
      exact ⟨i, j, b, .up stood hb, hc, rfl⟩
    | down stood step found tail =>
      obtain ⟨i, j, b, hb, hc, rfl⟩ := ih tail
      exact ⟨i, j, b, .down stood step found hb, hc, rfl⟩
    | link stood step found jump tail =>
      obtain ⟨i, j, b, hb, hc, rfl⟩ := ih tail
      exact ⟨_, j, b, .link stood step found jump hb, hc, by omega⟩

/-- Idle segments may be left out. -/
theorem filter (h : Leads t k a ss b) : Leads t k a (ss.filter fun s => !Path.isIdle s) b := by
  induction h with
  | here => exact .here _
  | idle _ idle _ ih => rwa [List.filter_cons_of_neg (by simp [idle])]
  | up stood _ ih => exact .up stood ih
  | down stood step found _ ih =>
    rw [List.filter_cons_of_pos (by simp [step.counts])]
    exact .down stood step found ih
  | link stood step found jump _ _ ih =>
    rw [List.filter_cons_of_pos (by simp [step.counts])]
    exact .link stood step found jump ih

end Leads

/-! ### The walk -/

theorem any_isDirectory {x : Option Node} :
    x.any Node.isDirectory = true ↔ x = some .directory := by
  cases x with
  | none => simp
  | some n => cases n <;> simp [Node.isDirectory]

theorem walkLinks_nil (create : Bool) (n : Nat) (a : RealPath) :
    t.walkLinks create n a [] = .ok a := by
  cases n <;> rfl

theorem walkLinks_astray (create : Bool) (n : Nat) (h : t.node? a ≠ some .directory) :
    t.walkLinks create n a (s :: rest) = .error .notADirectory := by
  have hany : (t.node? a).any Node.isDirectory = false := by
    rw [Bool.eq_false_iff]
    exact mt any_isDirectory.mp h
  cases n <;> simp only [walkLinks, walk, hany, Bool.not_false, if_true]

/-- One segment of a walk that stands in a directory. -/
theorem walkLinks_cons (create : Bool) (n : Nat) (stood : t.node? a = some .directory) :
    t.walkLinks create n a (s :: rest) =
      if Path.isIdle s then t.walkLinks create n a rest
      else if s = ".." then t.walkLinks create n a.dropLast rest
      else if maxName < s.utf8ByteSize then .error .nameTooLong
      else
        match t.node? (a ++ [s]) with
        | some (.link target) =>
          match n with
          | 0 => .error .tooManyLinks
          | m + 1 => t.walkLinks create m (base a target) (target.segments ++ rest)
        | some _ => t.walkLinks create n (a ++ [s]) rest
        | none =>
          if !create then .error .notFound
          else if rest.isEmpty then .ok (a ++ [s])
          else .error (if rest.all String.isEmpty then .isADirectory else .notFound) := by
  have hany : (t.node? a).any Node.isDirectory = true := any_isDirectory.mpr stood
  cases n <;> exact if_neg (by simp [hany])

theorem walkLinks_idle (create : Bool) (n : Nat) (stood : t.node? a = some .directory)
    (idle : Path.isIdle s = true) :
    t.walkLinks create n a (s :: rest) = t.walkLinks create n a rest := by
  rw [walkLinks_cons create n stood, if_pos idle]

theorem walkLinks_up (create : Bool) (n : Nat) (stood : t.node? a = some .directory) :
    t.walkLinks create n a (".." :: rest) = t.walkLinks create n a.dropLast rest := by
  rw [walkLinks_cons create n stood, if_neg (by decide), if_pos rfl]

section Step

variable (n) (stood : t.node? a = some .directory) (counts : Path.isIdle s = false) (down : s ≠ "..")

include stood counts down

theorem walkLinks_long (create : Bool) (long : maxName < s.utf8ByteSize) :
    t.walkLinks create n a (s :: rest) = .error .nameTooLong := by
  rw [walkLinks_cons create n stood, if_neg (by simp [counts]), if_neg down, if_pos long]

theorem walkLinks_none (short : s.utf8ByteSize ≤ maxName) (found : t.node? (a ++ [s]) = none) :
    t.walkLinks false n a (s :: rest) = .error .notFound := by
  rw [walkLinks_cons false n stood, if_neg (by simp [counts]), if_neg down,
    if_neg (Nat.not_lt.mpr short), found]
  rfl

theorem walkLinks_down (create : Bool) (short : s.utf8ByteSize ≤ maxName)
    (found : t.Stands (a ++ [s])) :
    t.walkLinks create n a (s :: rest) = t.walkLinks create n (a ++ [s]) rest := by
  rw [walkLinks_cons create n stood, if_neg (by simp [counts]), if_neg down,
    if_neg (Nat.not_lt.mpr short)]
  obtain ⟨hsome, hplain⟩ := found
  cases hnode : t.node? (a ++ [s]) with
  | none => exact absurd hnode hsome
  | some node =>
    cases node with
    | link target => exact absurd ⟨target, hnode⟩ hplain
    | file | directory => rfl

theorem walkLinks_link {target : Path} (create : Bool) (short : s.utf8ByteSize ≤ maxName)
    (found : t.node? (a ++ [s]) = some (.link target)) :
    t.walkLinks create n a (s :: rest) =
      match n with
      | 0 => .error .tooManyLinks
      | m + 1 => t.walkLinks create m (base a target) (target.segments ++ rest) := by
  rw [walkLinks_cons create n stood, if_neg (by simp [counts]), if_neg down,
    if_neg (Nat.not_lt.mpr short), found]

end Step

/-- Whatever the walk reaches, the segments lead to. -/
theorem leads_of_walkLinks (h : t.walkLinks false n a ss = .ok b) : ∃ k ≤ n, Leads t k a ss b := by
  -- A link starts a walk with one link less, every other segment leaves a shorter list.
  induction n using Nat.strong_induction_on generalizing a ss with
  | _ n fewer =>
    induction ss generalizing a with
    | nil =>
      rw [walkLinks_nil, Except.ok.injEq] at h
      exact ⟨0, Nat.zero_le n, h ▸ .here a⟩
    | cons s rest ih =>
      by_cases stood : t.node? a = some .directory
      swap
      · rw [walkLinks_astray false n stood] at h
        cases h
      cases counts : Path.isIdle s with
      | true =>
        rw [walkLinks_idle false n stood counts] at h
        obtain ⟨k, hk, tail⟩ := ih h
        exact ⟨k, hk, .idle stood counts tail⟩
      | false =>
        by_cases down : s = ".."
        · subst down
          rw [walkLinks_up false n stood] at h
          obtain ⟨k, hk, tail⟩ := ih h
          exact ⟨k, hk, .up stood tail⟩
        by_cases long : maxName < s.utf8ByteSize
        · rw [walkLinks_long n stood counts down false long] at h
          cases h
        have short := Nat.not_lt.mp long
        have step : IsStep s := ⟨counts, down, short⟩
        by_cases hlink : t.IsLink (a ++ [s])
        · obtain ⟨target, found⟩ := hlink
          rw [walkLinks_link n stood counts down false short found] at h
          cases n with
          | zero => cases h
          | succ m =>
            obtain ⟨k, hk, hleads⟩ := fewer m (Nat.lt_succ_self m) h
            obtain ⟨i, j, mid, jump, tail, rfl⟩ := hleads.split
            exact ⟨_, Nat.succ_le_succ hk, .link stood step found jump tail⟩
        · by_cases hnone : t.node? (a ++ [s]) = none
          · rw [walkLinks_none n stood counts down short hnone] at h
            cases h
          · rw [walkLinks_down n stood counts down false short ⟨hnone, hlink⟩] at h
            obtain ⟨k, hk, tail⟩ := ih h
            exact ⟨k, hk, .down stood step ⟨hnone, hlink⟩ tail⟩

/-- Wherever segments lead, the walk reaches it if it may follow that many links. -/
theorem walkLinks_of_leads (h : Leads t k a ss b) (hk : k ≤ n) : t.walkLinks false n a ss = .ok b := by
  induction n using Nat.strong_induction_on generalizing k a ss with
  | _ n fewer =>
    induction ss generalizing k a with
    | nil => rw [walkLinks_nil, h.eq_of_nil.1]
    | cons s rest ih =>
      cases h with
      | idle stood idle tail => rw [walkLinks_idle false n stood idle, ih tail hk]
      | up stood tail => rw [walkLinks_up false n stood, ih tail hk]
      | down stood step found tail =>
        rw [walkLinks_down n stood step.counts step.down false step.short found, ih tail hk]
      | link stood step found jump tail =>
        rw [walkLinks_link n stood step.counts step.down false step.short found]
        cases n with
        | zero => omega
        | succ m => exact fewer m (Nat.lt_succ_self m) (jump.append tail) (Nat.le_of_succ_le_succ hk)

/-- A path leads to one place only. -/
theorem Leads.unique (h : Leads t i a ss b) (h' : Leads t j a ss c) : b = c := by
  have hb := walkLinks_of_leads h (Nat.le_max_left i j)
  rw [walkLinks_of_leads h' (Nat.le_max_right i j), Except.ok.injEq] at hb
  exact hb.symm

/-- The place from which a path is followed. -/
def start (t : FileTree) (p : Path) : RealPath := if p.isAbsolute then [] else t.working

theorem realPath_eq_ok_iff {p : Path} : t.realPath p = .ok b ↔
    '\x00' ∉ p.text.toList ∧ p.text ≠ "" ∧ ∃ k ≤ maxLinks, Leads t k (t.start p) p.segments b := by
  unfold realPath follow
  by_cases hnul : '\x00' ∈ p.text.toList
  · rw [if_pos (by simpa using hnul)]
    simp [hnul]
  rw [if_neg (by simpa using hnul)]
  by_cases hempty : p.text = ""
  · rw [if_pos (by simpa using hempty)]
    simp [hempty]
  rw [if_neg (by simpa using hempty)]
  exact ⟨fun h => ⟨hnul, hempty, leads_of_walkLinks h⟩,
    fun ⟨_, _, _, hk, h⟩ => walkLinks_of_leads h hk⟩

/-- A path that is handed over in one piece leads to its real path. -/
theorem realPath_of_locate {p : Path} (h : t.locate false p = .ok b) : t.realPath p = .ok b := by
  unfold locate at h
  split at h
  · cases h
  · exact h

/-! ### Well-formed trees -/

/-- A text that can be the name of a node. -/
structure IsName (s : String) : Prop extends IsStep s where
  slash : '/' ∉ s.toList
  nul : '\x00' ∉ s.toList

instance (s : String) : Decidable (IsName s) :=
  decidable_of_iff
    ((Path.isIdle s = false ∧ s ≠ ".." ∧ s.utf8ByteSize ≤ maxName) ∧ '/' ∉ s.toList ∧
      '\x00' ∉ s.toList)
    ⟨fun ⟨⟨counts, down, short⟩, slash, nul⟩ => ⟨⟨counts, down, short⟩, slash, nul⟩,
      fun h => ⟨⟨h.counts, h.down, h.short⟩, h.slash, h.nul⟩⟩

theorem IsName.isPart (h : IsName s) : Path.IsPart s := ⟨h.counts, h.slash⟩

/-- Every node is listed once, under names, and stands in a directory. -/
structure WellFormed (t : FileTree) : Prop where
  distinct : (t.nodes.map Prod.fst).Nodup
  named : ∀ n ∈ t.nodes, ∀ s ∈ n.1, IsName s
  housed : ∀ n ∈ t.nodes, t.node? n.1.dropLast = some .directory
  working : t.node? t.working = some .directory

instance (t : FileTree) : Decidable t.WellFormed :=
  decidable_of_iff
    ((t.nodes.map Prod.fst).Nodup ∧ (∀ n ∈ t.nodes, ∀ s ∈ n.1, IsName s) ∧
      (∀ n ∈ t.nodes, (t.node? n.1.dropLast).any Node.isDirectory = true) ∧
      (t.node? t.working).any Node.isDirectory = true)
    ⟨fun ⟨distinct, named, housed, working⟩ =>
        ⟨distinct, named, fun n hn => any_isDirectory.mp (housed n hn), any_isDirectory.mp working⟩,
      fun h => ⟨h.distinct, h.named, fun n hn => any_isDirectory.mpr (h.housed n hn),
        any_isDirectory.mpr h.working⟩⟩

theorem node?_nil (t : FileTree) : t.node? [] = some .directory := rfl

theorem mem_of_node? {node : Node} (h : t.node? r = some node) (hne : r ≠ []) : (r, node) ∈ t.nodes := by
  unfold node? at h
  rw [if_neg (by simpa using hne)] at h
  obtain ⟨n, hfind, rfl⟩ := Option.map_eq_some_iff.mp h
  have hkey := List.find?_some hfind
  rw [decide_eq_true_eq] at hkey
  rw [← hkey]
  exact List.mem_of_find?_eq_some hfind

theorem Stands.exists_node (h : t.Stands r) : ∃ node, t.node? r = some node :=
  Option.ne_none_iff_exists'.mp h.1

theorem stands_of_directory (h : t.node? r = some .directory) : t.Stands r := by
  refine ⟨by simp [h], fun ⟨target, hlink⟩ => ?_⟩
  rw [h] at hlink
  cases hlink

namespace WellFormed

variable (ht : t.WellFormed)

include ht

theorem isName {node : Node} (h : t.node? r = some node) : ∀ s ∈ r, IsName s := by
  by_cases hne : r = []
  · simp [hne]
  · exact ht.named _ (mem_of_node? h hne)

/-- What is listed is what stands there. -/
theorem node?_of_mem {node : Node} (h : (r, node) ∈ t.nodes) (hne : r ≠ []) : t.node? r = some node := by
  unfold node?
  rw [if_neg (by simpa using hne)]
  cases hfind : t.nodes.find? fun n => n.1 = r with
  | none => exact absurd (by simp) (List.find?_eq_none.mp hfind _ h)
  | some n =>
    have hkey : n.1 = r := by simpa using List.find?_some hfind
    have hn := List.mem_of_find?_eq_some hfind
    obtain rfl : n = (r, node) := List.inj_on_of_nodup_map ht.distinct hn h hkey
    rfl

theorem directory_dropLast {node : Node} (h : t.node? r = some node) :
    t.node? r.dropLast = some .directory := by
  by_cases hne : r = []
  · rw [hne]
    rfl
  · exact ht.housed _ (mem_of_node? h hne)

/-- What stands above a node is a directory. -/
theorem directory_above {node : Node} (h : t.node? r = some node) (hpre : a <+: r) (hne : a ≠ r) :
    t.node? a = some .directory := by
  induction r using List.reverseRecOn generalizing node with
  | nil => exact absurd (List.prefix_nil.mp hpre) hne
  | append_singleton front s ih =>
    have hfront := ht.directory_dropLast h
    rw [List.dropLast_concat] at hfront
    rcases List.prefix_concat_iff.mp hpre with rfl | hpre
    · exact absurd rfl hne
    · by_cases heq : a = front
      · rw [heq, hfront]
      · exact ih hfront hpre heq

/-- No link stands above a file or directory, nor in its place. -/
theorem not_isLink_above (h : t.Stands r) (hpre : a <+: r) : ¬ t.IsLink a := by
  by_cases heq : a = r
  · exact heq ▸ h.2
  · obtain ⟨node, hnode⟩ := h.exists_node
    exact (stands_of_directory (ht.directory_above hnode hpre heq)).2

theorem stands (h : Leads t k a ss b) (ha : t.Stands a) : t.Stands b := by
  induction h with
  | here => exact ha
  | idle _ _ _ ih => exact ih ha
  | up stood _ ih => exact ih (stands_of_directory (ht.directory_dropLast stood))
  | down _ _ found _ ih => exact ih found
  | link stood _ _ _ _ ihjump ihtail =>
    refine ihtail (ihjump ?_)
    unfold base
    split
    · exact stands_of_directory (node?_nil t)
    · exact stands_of_directory stood

/-- The names of a file or directory lead to it, through no link. -/
theorem leads_self (h : t.Stands r) : Leads t 0 [] r r := by
  induction r using List.reverseRecOn with
  | nil => exact .here []
  | append_singleton front s ih =>
    obtain ⟨node, hnode⟩ := h.exists_node
    have hfront := ht.directory_dropLast hnode
    rw [List.dropLast_concat] at hfront
    have hstep := (ht.isName hnode s (by simp)).toIsStep
    have hlast : Leads t 0 front [s] (front ++ [s]) := .down hfront hstep h (.here _)
    exact (ih (stands_of_directory hfront)).append hlast

end WellFormed

end ReportTemplate.FileTree
