import ReportTemplate.Library
import Mathlib.Data.List.Infix
import Mathlib.Data.List.Perm.Subperm
import Mathlib.Logic.Relation

/-!
# ReportTemplate.Proofs.Library.BreadthFirst — references by the number of steps

A walk without a memory meets the references of a queue level by level, and a name as often as there
are ways to it.  What a walk with a memory meets are the first references to each name: the rest
of the module says how they change when a reference that stands in front is followed, and that
references to known names can be left out.
-/

namespace ReportTemplate

open ReferenceSet (Reference ofLibrary)

namespace Catalog

/-- No library of the catalog has the name. -/
def lacks (c : Catalog) (name : String) : Bool := (c.get? name).isNone

/-- The references of the library of a name; a name without a library refers to nothing. -/
def referencesOf (c : Catalog) (name : String) : List Reference := (c.get? name).elim [] ofLibrary

theorem name_of_get? {c : Catalog} {name : String} {l : Library} (h : c.get? name = some l) :
    l.name = name := by
  simpa using List.find?_some h

theorem mem_of_get? {c : Catalog} {name : String} {l : Library} (h : c.get? name = some l) :
    l ∈ c.libraries :=
  List.mem_of_find?_eq_some h

theorem referencesOf_of_get? {c : Catalog} {name : String} {l : Library} (h : c.get? name = some l) :
    c.referencesOf name = ofLibrary l := by
  simp [referencesOf, h]

theorem lacks_eq_false {c : Catalog} {name : String} :
    c.lacks name = false ↔ ∃ l, c.get? name = some l := by
  rw [lacks, Option.isNone_eq_false_iff, Option.isSome_iff_exists]

theorem lacks_of_get? {c : Catalog} {name : String} {l : Library} (h : c.get? name = some l) :
    c.lacks name = false :=
  lacks_eq_false.mpr ⟨l, h⟩

/-- The references of the libraries that a queue names. -/
def follow (c : Catalog) (queue : List Reference) : List Reference :=
  queue.flatMap fun r => c.referencesOf r.name

/-- The references that are `k` steps behind those of a queue. -/
def level (c : Catalog) (queue : List Reference) : Nat → List Reference
  | 0 => queue
  | k + 1 => c.follow (c.level queue k)

/-- The references of the first `n` levels behind a queue, in the order of a breadth-first walk. -/
def met (c : Catalog) (queue : List Reference) : Nat → List Reference
  | 0 => []
  | n + 1 => c.met queue n ++ c.level queue n

variable {c : Catalog} {p q : List Reference} {r : Reference}

theorem level_append (c : Catalog) (p q : List Reference) (k : Nat) :
    c.level (p ++ q) k = c.level p k ++ c.level q k := by
  induction k with
  | zero => rfl
  | succ k ih => simp only [level, ih, follow, List.flatMap_append]

theorem level_follow (c : Catalog) (q : List Reference) (k : Nat) :
    c.level (c.follow q) k = c.level q (k + 1) := by
  induction k with
  | zero => rfl
  | succ k ih => simp only [level, ih]

theorem level_nil (c : Catalog) (k : Nat) : c.level [] k = [] := by
  induction k with
  | zero => rfl
  | succ k ih => simp [level, ih, follow]

theorem met_nil (c : Catalog) (n : Nat) : c.met [] n = [] := by
  induction n with
  | zero => rfl
  | succ n ih => rw [met, ih, level_nil, List.append_nil]

/-- To follow the front of a queue and put what it refers to at the end changes only when the levels
behind the front are met. -/
theorem append_met_follow (c : Catalog) (p q : List Reference) (n : Nat) :
    p ++ c.met (q ++ c.follow p) n = c.met (p ++ q) n ++ c.level p n := by
  induction n with
  | zero => simp [met, level]
  | succ n ih =>
    simp only [met, ← List.append_assoc, ih]
    simp only [level_append, level_follow, List.append_assoc]

theorem met_prefix (c : Catalog) (q : List Reference) {m n : Nat} (h : m ≤ n) :
    c.met q m <+: c.met q n := by
  induction h with
  | refl => exact List.prefix_rfl
  | step _ ih => exact ih.trans (List.prefix_append _ _)

theorem mem_met {n : Nat} : r ∈ c.met q n ↔ ∃ k < n, r ∈ c.level q k := by
  induction n with
  | zero => simp [met]
  | succ n ih =>
    simp only [met, List.mem_append, ih, Nat.lt_succ_iff_lt_or_eq, or_and_right, exists_or,
      exists_eq_left]

theorem mem_follow : r ∈ c.follow q ↔ ∃ r₀ ∈ q, r ∈ c.referencesOf r₀.name := by
  simp [follow, List.mem_flatMap]

/-- A reference of a library that the first `n` levels name is in the first `n + 1`. -/
theorem mem_met_succ {n : Nat} {r₀ : Reference} (h₀ : r₀ ∈ c.met q n)
    (h : r ∈ c.referencesOf r₀.name) : r ∈ c.met q (n + 1) := by
  obtain ⟨k, hk, hlevel⟩ := mem_met.mp h₀
  exact mem_met.mpr ⟨k + 1, Nat.succ_lt_succ hk, mem_follow.mpr ⟨r₀, hlevel, h⟩⟩

end Catalog

/-! ### The first reference to each name -/

namespace ReferenceSet

/-- The names that a list of references refers to. -/
def named (rs : List Reference) : List String := rs.map Reference.name

/-- The first reference to each name that is not yet seen. -/
def firsts (seen : List String) : List Reference → List Reference
  | [] => []
  | r :: rs => if r.name ∈ seen then firsts seen rs else r :: firsts (r.name :: seen) rs

variable {seen : List String} {p q rs : List Reference} {r : Reference}

theorem firsts_cons_of_mem (h : r.name ∈ seen) : firsts seen (r :: rs) = firsts seen rs := by
  simp [firsts, h]

theorem firsts_cons_of_notMem (h : r.name ∉ seen) :
    firsts seen (r :: rs) = r :: firsts (r.name :: seen) rs := by
  simp [firsts, h]

/-- Only which names are seen matters, and not in which order. -/
theorem firsts_congr {others : List String} (h : ∀ name, name ∈ seen ↔ name ∈ others) :
    firsts seen rs = firsts others rs := by
  induction rs generalizing seen others with
  | nil => rfl
  | cons r rs ih =>
    by_cases hr : r.name ∈ seen
    · rw [firsts_cons_of_mem hr, firsts_cons_of_mem ((h _).mp hr), ih h]
    · have hothers : ∀ name, name ∈ r.name :: seen ↔ name ∈ r.name :: others := fun name => by
        simp only [List.mem_cons, h]
      rw [firsts_cons_of_notMem hr, firsts_cons_of_notMem (fun h' => hr ((h _).mpr h')), ih hothers]

theorem firsts_append (seen : List String) (p q : List Reference) :
    firsts seen (p ++ q) = firsts seen p ++ firsts (named p ++ seen) q := by
  induction p generalizing seen with
  | nil => rfl
  | cons r p ih =>
    by_cases hr : r.name ∈ seen
    · rw [List.cons_append, firsts_cons_of_mem hr, firsts_cons_of_mem hr, ih]
      congr 1
      refine firsts_congr fun name => ?_
      simp only [named, List.map_cons, List.cons_append, List.mem_cons, List.mem_append]
      exact ⟨.inr, fun h => h.elim (fun h => .inr (h ▸ hr)) id⟩
    · rw [List.cons_append, firsts_cons_of_notMem hr, firsts_cons_of_notMem hr, ih, List.cons_append]
      congr 2
      refine firsts_congr fun name => ?_
      simp only [named, List.map_cons, List.cons_append, List.mem_cons, List.mem_append]
      exact or_left_comm

theorem firsts_eq_nil (h : ∀ r ∈ rs, r.name ∈ seen) : firsts seen rs = [] := by
  induction rs with
  | nil => rfl
  | cons r rs ih =>
    rw [firsts_cons_of_mem (h r List.mem_cons_self), ih fun r' hr' => h r' (List.mem_cons_of_mem _ hr')]

/-- Together with the seen names, the first references name all that the references do. -/
theorem mem_named_firsts (seen : List String) (rs : List Reference) (name : String) :
    name ∈ seen ∨ name ∈ named (firsts seen rs) ↔ name ∈ seen ∨ name ∈ named rs := by
  induction rs generalizing seen with
  | nil => rfl
  | cons r rs ih =>
    by_cases hr : r.name ∈ seen
    · rw [firsts_cons_of_mem hr, ih]
      simp only [named, List.map_cons, List.mem_cons]
      exact ⟨fun h => h.imp_right .inr, fun h => h.elim .inl fun h => h.elim (fun h => .inl (h ▸ hr)) .inr⟩
    · rw [firsts_cons_of_notMem hr]
      have := ih (r.name :: seen)
      simp only [named, List.map_cons, List.mem_cons, or_assoc] at this ⊢
      rw [or_left_comm, this, or_left_comm]

theorem prefix_firsts (seen : List String) (h : p <+: q) : firsts seen p <+: firsts seen q := by
  obtain ⟨rest, rfl⟩ := h
  rw [firsts_append]
  exact List.prefix_append _ _

/-- A name that is looked for and not yet seen is met first in the first references. -/
theorem find?_firsts (rs : List Reference) (wanted : String → Bool)
    (hseen : ∀ name ∈ seen, wanted name = false) :
    (firsts seen rs).find? (fun r => wanted r.name) = rs.find? fun r => wanted r.name := by
  induction rs generalizing seen with
  | nil => rfl
  | cons r rs ih =>
    by_cases hr : r.name ∈ seen
    · rw [firsts_cons_of_mem hr, ih hseen, List.find?_cons_of_neg (by simp [hseen _ hr])]
    · rw [firsts_cons_of_notMem hr]
      cases hw : wanted r.name with
      | true => simp [hw]
      | false =>
        rw [List.find?_cons_of_neg (by simp [hw]), List.find?_cons_of_neg (by simp [hw]),
          ih (List.forall_mem_cons.mpr ⟨hw, hseen⟩)]

theorem named_firsts (seen : List String) (rs : List Reference) :
    named (firsts seen rs) = ((named rs).filter (· ∉ seen)).eraseDups := by
  induction rs generalizing seen with
  | nil => rfl
  | cons r rs ih =>
    by_cases hr : r.name ∈ seen
    · rw [firsts_cons_of_mem hr, ih]
      simp [named, hr]
    · rw [firsts_cons_of_notMem hr]
      simp only [named, List.map_cons] at ih ⊢
      rw [List.filter_cons_of_pos (by simpa using hr), List.eraseDups_cons, ih, List.filter_filter]
      congr 2
      refine List.filter_congr fun name _ => ?_
      by_cases hname : name = r.name <;> simp [hname]

theorem nodup_named_firsts (seen : List String) (rs : List Reference) :
    (named (firsts seen rs)).Nodup := by
  induction rs generalizing seen with
  | nil => exact List.nodup_nil
  | cons r rs ih =>
    by_cases hr : r.name ∈ seen
    · rw [firsts_cons_of_mem hr]
      exact ih seen
    · rw [firsts_cons_of_notMem hr]
      refine List.nodup_cons.mpr ⟨?_, ih _⟩
      rw [← named, named_firsts]
      simp [List.mem_eraseDups]

/-- A reference to a seen name can be left out of a queue, when the references of the seen libraries
are seen as well or stand in the queue. -/
theorem firsts_met_append {c : Catalog} (hp : ∀ r ∈ p, r.name ∈ seen)
    (hclosed : ∀ name ∈ seen, ∀ r ∈ c.referencesOf name, r.name ∈ seen ∨ r.name ∈ named q) (n : Nat) :
    firsts seen (c.met (p ++ q) n) = firsts seen (c.met q n) := by
  -- The levels behind `p` name only what is seen or met behind `q` a level earlier.
  have hlevel : ∀ k, ∀ r ∈ c.level p k, r.name ∈ seen ∨ r.name ∈ named (c.met q k) := by
    intro k
    induction k with
    | zero => exact fun r hr => .inl (hp r hr)
    | succ k ih =>
      intro r hr
      obtain ⟨r₀, hr₀, href⟩ := Catalog.mem_follow.mp hr
      rcases ih r₀ hr₀ with hseen | hmet
      · refine (hclosed _ hseen r href).imp_right fun hq => ?_
        obtain ⟨r', hr', hname⟩ := List.mem_map.mp hq
        exact List.mem_map.mpr ⟨r', Catalog.mem_met.mpr ⟨0, Nat.succ_pos k, hr'⟩, hname⟩
      · obtain ⟨r', hr', hname⟩ := List.mem_map.mp hmet
        exact .inr (List.mem_map_of_mem (Catalog.mem_met_succ hr' (hname ▸ href)))
  induction n with
  | zero => rfl
  | succ n ih =>
    simp only [Catalog.met, Catalog.level_append]
    have hnames : ∀ name, name ∈ named (c.met (p ++ q) n) ++ seen ↔ name ∈ named (c.met q n) ++ seen := by
      intro name
      have h := mem_named_firsts seen (c.met (p ++ q) n) name
      rw [ih, mem_named_firsts] at h
      simpa [or_comm] using h.symm
    have hnil : firsts (named (c.met q n) ++ seen) (c.level p n) = [] :=
      firsts_eq_nil fun r hr => List.mem_append.mpr (hlevel n r hr).symm
    rw [firsts_append, firsts_append seen (c.met q n), ih, firsts_congr hnames, firsts_append, hnil,
      List.nil_append]
    congr 1
    refine firsts_congr fun name => ?_
    simp only [List.mem_append]
    refine ⟨fun h => h.elim (fun h => ?_) id, .inr⟩
    obtain ⟨r, hr, rfl⟩ := List.mem_map.mp h
    exact (hlevel n r hr).symm

end ReferenceSet

end ReportTemplate
