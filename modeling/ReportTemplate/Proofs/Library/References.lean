import ReportTemplate.Proofs.Library.BreadthFirst

/-!
# ReportTemplate.Proofs.Library.References — reference sets are closed

`resolve` gives the libraries that are one or more references away from an anchor, in the order in
which a breadth-first walk first meets them.  `Walks` is the walk without a budget: `walks_walk` shows
that the budget never ends it early, and `Walks.outcome` says, by induction on the walk, what it finds.
-/

namespace ReportTemplate

open ReferenceSet (Reference ofLibrary named firsts)

/-! ### What the anchors reach -/

namespace Catalog

variable {c : Catalog} {anchors : List String} {q : List Reference} {name : String}

/-- The library of the first name refers to the second. -/
def Refers (c : Catalog) (a b : String) : Prop := ∃ l, c.get? a = some l ∧ b ∈ l.references

/-- The name is one or more references away from an anchor. -/
def Reaches (c : Catalog) (anchors : List String) (name : String) : Prop :=
  ∃ a ∈ anchors, Relation.TransGen c.Refers a name

/-- The references of the anchors. -/
def behind (c : Catalog) (anchors : List String) : List Reference := anchors.flatMap c.referencesOf

/-- What a walk without a memory meets in its first `n` levels behind the anchors. -/
def breadthFirst (c : Catalog) (anchors : List String) (n : Nat) : List Reference :=
  c.met (c.behind anchors) n

theorem mem_named_referencesOf {a : String} : name ∈ named (c.referencesOf a) ↔ c.Refers a name := by
  unfold referencesOf Refers
  cases c.get? a with
  | none => simp [named]
  | some l => simp [named, ofLibrary]

theorem mem_named_follow :
    name ∈ named (c.follow q) ↔ ∃ a ∈ named q, c.Refers a name := by
  simp only [← mem_named_referencesOf, named, follow, List.map_flatMap, List.mem_flatMap,
    List.mem_map, exists_exists_and_eq_and]

/-- What some level behind a queue names is zero or more references away from it. -/
theorem mem_named_level :
    (∃ k, name ∈ named (c.level q k)) ↔ ∃ a ∈ named q, Relation.ReflTransGen c.Refers a name := by
  constructor
  · rintro ⟨k, hk⟩
    induction k generalizing name with
    | zero => exact ⟨name, hk, .refl⟩
    | succ k ih =>
      obtain ⟨a, ha, hrefers⟩ := mem_named_follow.mp hk
      obtain ⟨a₀, ha₀, hreach⟩ := ih ha
      exact ⟨a₀, ha₀, hreach.tail hrefers⟩
  · rintro ⟨a, ha, hreach⟩
    induction hreach with
    | refl => exact ⟨0, ha⟩
    | tail _ hrefers ih =>
      obtain ⟨k, hk⟩ := ih
      exact ⟨k + 1, mem_named_follow.mpr ⟨_, hk, hrefers⟩⟩

/-- The walk behind the anchors meets what they reach. -/
theorem mem_named_breadthFirst :
    (∃ n, name ∈ named (c.breadthFirst anchors n)) ↔ c.Reaches anchors name := by
  have hmet : (∃ n, name ∈ named (c.breadthFirst anchors n)) ↔
      ∃ k, name ∈ named (c.level (c.behind anchors) k) := by
    simp only [named, List.mem_map, breadthFirst, mem_met]
    constructor
    · rintro ⟨n, r, ⟨k, -, hr⟩, hname⟩
      exact ⟨k, r, hr, hname⟩
    · rintro ⟨k, r, hr, hname⟩
      exact ⟨k + 1, r, ⟨k, Nat.lt_succ_self k, hr⟩, hname⟩
  have hbehind : ∀ b, b ∈ named (c.behind anchors) ↔ ∃ a ∈ anchors, c.Refers a b := fun b => by
    simp only [← mem_named_referencesOf, behind, named, List.map_flatMap, List.mem_flatMap]
  rw [hmet, mem_named_level]
  unfold Reaches
  simp only [hbehind, Relation.TransGen.head'_iff]
  constructor
  · rintro ⟨b, ⟨a, ha, hab⟩, hb⟩
    exact ⟨a, ha, b, hab, hb⟩
  · rintro ⟨a, ha, b, hab, hb⟩
    exact ⟨b, ⟨a, ha, hab⟩, hb⟩

/-- Where every library refers to libraries of the catalog, the anchors reach no missing name. -/
theorem lacks_of_reaches (h : ∀ l ∈ c.libraries, ∀ b ∈ l.references, c.lacks b = false)
    (hreach : c.Reaches anchors name) : c.lacks name = false := by
  obtain ⟨a, -, htrans⟩ := hreach
  obtain ⟨b, -, l, hl, hname⟩ := Relation.TransGen.tail'_iff.mp htrans
  exact h l (mem_of_get? hl) name hname

end Catalog

/-! ### The walk and its budget -/

namespace ReferenceSet

variable {c : Catalog} {found : List Library} {queue : List Reference}
  {result : Except ReferenceError (List Library)}

/-- The names of the libraries met so far. -/
def metNames (found : List Library) : List String := found.map Library.name

/-- The walk of a queue to its end, with no bound on the number of its rounds. -/
inductive Walks (c : Catalog) :
    List Library → List Reference → Except ReferenceError (List Library) → Prop
  /-- The queue names only libraries that were met. -/
  | ends {found : List Library} {queue : List Reference}
    (known : ∀ r ∈ queue, r.name ∈ metNames found) : Walks c found queue (.ok found.reverse)
  /-- The first name that was not met is not in the catalog. -/
  | unknown {found : List Library} {front queue : List Reference} {r : Reference}
    (known : ∀ r ∈ front, r.name ∈ metNames found) (new : r.name ∉ metNames found)
    (missing : c.get? r.name = none) :
    Walks c found (front ++ r :: queue) (.error (.unknownLibrary r.referrer r.name))
  /-- The first name that was not met is the one of a library, and its references are put at the end. -/
  | meets {found : List Library} {front queue : List Reference} {r : Reference} {l : Library}
    {result : Except ReferenceError (List Library)}
    (known : ∀ r ∈ front, r.name ∈ metNames found) (new : r.name ∉ metNames found)
    (library : c.get? r.name = some l) (rest : Walks c (l :: found) (queue ++ ofLibrary l) result) :
    Walks c found (front ++ r :: queue) result

/-- The libraries met so far are those of the catalog, and each was met once. -/
structure Known (c : Catalog) (found : List Library) : Prop where
  libraries : ∀ l ∈ found, c.get? l.name = some l
  nodup : (metNames found).Nodup

theorem Known.nil : Known c [] := ⟨nofun, List.nodup_nil⟩

theorem Known.cons {name : String} {l : Library} (h : Known c found) (hl : c.get? name = some l)
    (hnew : name ∉ metNames found) : Known c (l :: found) := by
  obtain rfl := Catalog.name_of_get? hl
  exact ⟨List.forall_mem_cons.mpr ⟨hl, h.libraries⟩, List.nodup_cons.mpr ⟨hnew, h.nodup⟩⟩

/-- No more libraries are met than the catalog has. -/
theorem Known.length_le (h : Known c found) : found.length ≤ c.libraries.length := by
  have hsub : metNames found ⊆ c.libraries.map Library.name := by
    rintro name hname
    obtain ⟨l, hl, rfl⟩ := List.mem_map.mp hname
    exact List.mem_map_of_mem (Catalog.mem_of_get? (h.libraries l hl))
  simpa [metNames] using h.nodup.length_le_of_subset hsub

/-- A queue has a first name that was not met, or it has none. -/
theorem walk_front (found : List Library) (queue : List Reference) :
    ((∀ r ∈ queue, r.name ∈ metNames found) ∧
      (queue.dropWhile fun r => found.any fun l => l.name = r.name) = []) ∨
    ∃ front r rest, queue = front ++ r :: rest ∧ (∀ r ∈ front, r.name ∈ metNames found) ∧
      r.name ∉ metNames found ∧
      (queue.dropWhile fun r => found.any fun l => l.name = r.name) = r :: rest := by
  have hmet : ∀ r : Reference, (found.any fun l => l.name = r.name) = true ↔
      r.name ∈ metNames found := fun r => by
    simp [metNames]
  induction queue with
  | nil => exact .inl ⟨nofun, rfl⟩
  | cons r queue ih =>
    by_cases hr : r.name ∈ metNames found
    · rw [List.dropWhile_cons_of_pos (by exact (hmet r).mpr hr)]
      refine ih.imp (fun h => ⟨List.forall_mem_cons.mpr ⟨hr, h.1⟩, h.2⟩) ?_
      rintro ⟨front, r₀, rest, rfl, hfront, hnew, hdrop⟩
      exact ⟨r :: front, r₀, rest, rfl, List.forall_mem_cons.mpr ⟨hr, hfront⟩, hnew, hdrop⟩
    · exact .inr ⟨[], r, queue, rfl, nofun, hr,
        List.dropWhile_cons_of_neg fun h => hr ((hmet r).mp h)⟩

/-- With a budget for every library that was not met yet, the walk goes to its end. -/
theorem walks_walk {budget : Nat} (hknown : Known c found)
    (hbudget : c.libraries.length ≤ found.length + budget) :
    Walks c found queue (walk c budget found queue) := by
  induction budget generalizing found queue with
  | zero =>
    rw [walk]
    rcases walk_front found queue with ⟨hall, hdrop⟩ | ⟨front, r, rest, rfl, hfront, hnew, hdrop⟩
    · simp only [hdrop]
      exact .ends hall
    · simp only [hdrop]
      cases hl : c.get? r.name with
      | none => exact .unknown hfront hnew hl
      | some l =>
        -- one library more would be met than there are
        have hlength := (hknown.cons hl hnew).length_le
        simp only [List.length_cons] at hlength
        omega
  | succ budget ih =>
    rw [walk]
    rcases walk_front found queue with ⟨hall, hdrop⟩ | ⟨front, r, rest, rfl, hfront, hnew, hdrop⟩
    · simp only [hdrop]
      exact .ends hall
    · simp only [hdrop]
      cases hl : c.get? r.name with
      | none => exact .unknown hfront hnew hl
      | some l =>
        refine .meets hfront hnew hl (ih (hknown.cons hl hnew) ?_)
        simp only [List.length_cons]
        omega

/-! ### What the walk finds -/

/-- The references of the libraries met so far are to libraries that were met, or wait in the queue. -/
def Waiting (c : Catalog) (found : List Library) (queue : List Reference) : Prop :=
  ∀ name ∈ metNames found, ∀ r ∈ c.referencesOf name, r.name ∈ metNames found ∨ r.name ∈ named queue

/-- What a walk gives: the libraries that the queue leads to, in the order of the first references to
them, or the first reference to a missing one. -/
def Outcome (c : Catalog) (found : List Library) (queue : List Reference) :
    Except ReferenceError (List Library) → Prop
  | .ok libraries => (∀ l ∈ libraries, c.get? l.name = some l) ∧
      ∃ N, ∀ n ≥ N, (metNames found).reverse ++ named (firsts (metNames found) (c.met queue n)) =
        metNames libraries
  | .error e => ∃ r, e = .unknownLibrary r.referrer r.name ∧
      ∃ N, ∀ n ≥ N, (firsts (metNames found) (c.met queue n)).find? (fun r => c.lacks r.name) = some r

/-- To meet the library of the first new reference changes no more than how many levels are enough. -/
theorem firsts_meets {front : List Reference} {r : Reference} {l : Library}
    (hfront : ∀ r ∈ front, r.name ∈ metNames found) (hnew : r.name ∉ metNames found)
    (hl : c.get? r.name = some l) (hwaiting : Waiting c found (front ++ r :: queue)) (n : Nat) :
    firsts (metNames found) (c.met (front ++ r :: queue) n) <+:
        r :: firsts (metNames (l :: found)) (c.met (queue ++ ofLibrary l) n) ∧
      r :: firsts (metNames (l :: found)) (c.met (queue ++ ofLibrary l) n) <+:
        firsts (metNames found) (c.met (front ++ r :: queue) (n + 1)) := by
  have hclosed : ∀ name ∈ metNames found, ∀ r' ∈ c.referencesOf name,
      r'.name ∈ metNames found ∨ r'.name ∈ named (r :: queue) := by
    intro name hname r' hr'
    rcases hwaiting name hname r' hr' with h | h
    · exact .inl h
    · simp only [named, List.map_append, List.mem_append] at h
      refine h.elim (fun h => .inl ?_) .inr
      obtain ⟨r₀, hr₀, hr₀'⟩ := List.mem_map.mp h
      exact hr₀' ▸ hfront r₀ hr₀
  have hmeets : r :: firsts (metNames (l :: found)) (c.met (queue ++ ofLibrary l) n) =
      firsts (metNames found) (c.met (r :: queue) n ++ c.level [r] n) := by
    have hfollow : c.follow [r] = ofLibrary l := by
      simp [Catalog.follow, Catalog.referencesOf_of_get? hl]
    have hrotate := c.append_met_follow [r] queue n
    rw [hfollow, List.singleton_append, List.singleton_append] at hrotate
    rw [← hrotate, firsts_cons_of_notMem hnew, metNames, List.map_cons, Catalog.name_of_get? hl]
    rfl
  have hlevel : c.met (r :: queue) n ++ c.level [r] n <+: c.met (r :: queue) (n + 1) := by
    have happend : c.level (r :: queue) n = c.level [r] n ++ c.level queue n :=
      c.level_append [r] queue n
    rw [Catalog.met, happend, ← List.append_assoc]
    exact List.prefix_append _ _
  rw [hmeets, firsts_met_append hfront hclosed, firsts_met_append hfront hclosed]
  exact ⟨prefix_firsts _ (List.prefix_append _ _), prefix_firsts _ hlevel⟩

theorem Waiting.meets {front : List Reference} {r : Reference} {l : Library}
    (hwaiting : Waiting c found (front ++ r :: queue))
    (hfront : ∀ r ∈ front, r.name ∈ metNames found) (hl : c.get? r.name = some l) :
    Waiting c (l :: found) (queue ++ ofLibrary l) := by
  have hname := Catalog.name_of_get? hl
  intro name hname' r' hr'
  simp only [metNames, List.map_cons, List.mem_cons, named, List.map_append, List.mem_append]
    at hname' ⊢
  rcases hname' with rfl | hold
  · rw [hname, Catalog.referencesOf_of_get? hl] at hr'
    exact .inr (.inr (List.mem_map_of_mem hr'))
  · rcases hwaiting name hold r' hr' with h | h
    · exact .inl (.inr h)
    · simp only [named, List.map_append, List.map_cons, List.mem_append, List.mem_cons] at h
      rcases h with h | h | h
      · obtain ⟨r₀, hr₀, hr₀'⟩ := List.mem_map.mp h
        exact .inl (.inr (hr₀' ▸ hfront r₀ hr₀))
      · exact .inl (.inl (h.trans hname.symm))
      · exact .inr (.inl h)

/-- **What a walk gives**: by induction on the walk, what stands in the queue is looked at in the order
of the first references to each name. -/
theorem Walks.outcome (h : Walks c found queue result) (hknown : Known c found)
    (hwaiting : Waiting c found queue) : Outcome c found queue result := by
  induction h with
  | @ends found queue known =>
    have hclosed : ∀ name ∈ metNames found, ∀ r ∈ c.referencesOf name,
        r.name ∈ metNames found ∨ r.name ∈ named [] := by
      intro name hname r hr
      refine .inl ((hwaiting name hname r hr).elim id fun hq => ?_)
      obtain ⟨r', hr', hname'⟩ := List.mem_map.mp hq
      exact hname' ▸ known r' hr'
    have hnil : ∀ n, firsts (metNames found) (c.met queue n) = [] := fun n => by
      have h := firsts_met_append known hclosed n
      rwa [List.append_nil, Catalog.met_nil] at h
    refine ⟨fun l hl => hknown.libraries l (List.mem_reverse.mp hl), 0, fun n _ => ?_⟩
    rw [hnil]
    simp [named, metNames]
  | @unknown found front queue r known new missing =>
    refine ⟨r, rfl, 1, fun n hn => ?_⟩
    have hseen : ∀ name ∈ metNames found, c.lacks name = false := by
      intro name hname
      obtain ⟨l, hl, rfl⟩ := List.mem_map.mp hname
      exact Catalog.lacks_of_get? (hknown.libraries l hl)
    have hone : (c.met (front ++ r :: queue) 1).find? (fun r => c.lacks r.name) = some r := by
      have hfront : ∀ r' ∈ front, ¬ c.lacks r'.name := fun r' hr' => by simp [hseen _ (known r' hr')]
      have hr : c.lacks r.name = true := Option.isNone_iff_eq_none.mpr missing
      change (front ++ r :: queue).find? _ = some r
      rw [List.find?_append, List.find?_eq_none.mpr hfront, Option.none_or,
        List.find?_cons_of_pos (by exact hr)]
    rw [find?_firsts _ c.lacks hseen]
    exact (c.met_prefix _ hn).find?_eq_some hone
  | @meets found front queue r l result known new library rest ih =>
    have houtcome := ih (hknown.cons library new) (hwaiting.meets known library)
    have hbounds := firsts_meets known new library hwaiting
    cases result with
    | ok libraries =>
      obtain ⟨hlibraries, N, hN⟩ := houtcome
      refine ⟨hlibraries, N + 1, fun n hn => ?_⟩
      obtain ⟨n, rfl⟩ : ∃ m, n = m + 1 := ⟨n - 1, by omega⟩
      have hsame : ∀ m ≥ N, (metNames found).reverse ++
          named (r :: firsts (metNames (l :: found)) (c.met (queue ++ ofLibrary l) m)) =
          metNames libraries := fun m hm => by
        rw [← hN m hm]
        simp [metNames, named, Catalog.name_of_get? library]
      -- what is met in one level more lies between two lists of the same names
      have hlower := (hbounds n).2.map Reference.name
      have hupper := (hbounds (n + 1)).1.map Reference.name
      have heq := List.append_cancel_left ((hsame n (by omega)).trans (hsame (n + 1) (by omega)).symm)
      rw [← hsame n (by omega)]
      exact congrArg _ (hupper.trans (heq ▸ List.prefix_rfl) |>.eq_of_length_le hlower.length_le)
    | error e =>
      obtain ⟨r₀, he, N, hN⟩ := houtcome
      refine ⟨r₀, he, N + 1, fun n hn => ?_⟩
      obtain ⟨n, rfl⟩ : ∃ m, n = m + 1 := ⟨n - 1, by omega⟩
      have hr : c.lacks r.name = false := Catalog.lacks_of_get? library
      refine (hbounds n).2.find?_eq_some ?_
      rw [List.find?_cons_of_neg (by simp [hr])]
      exact hN n (by omega)

/-! ### The reference set of the anchors -/

theorem anchorReferences_unknown {anchors : List String} {a : String}
    (h : anchors.find? c.lacks = some a) : anchorReferences c anchors = .error (.unknownAnchor a) := by
  induction anchors with
  | nil => cases h
  | cons anchor anchors ih =>
    rw [anchorReferences]
    cases hanchor : c.get? anchor with
    | none =>
      rw [List.find?_cons_of_pos (by simp [Catalog.lacks, hanchor])] at h
      rw [Option.some.inj h]
    | some l =>
      rw [List.find?_cons_of_neg (by simp [Catalog.lacks, hanchor])] at h
      simp only [ih h]

theorem anchorReferences_ok {anchors : List String} (h : ∀ a ∈ anchors, c.lacks a = false) :
    anchorReferences c anchors = .ok (c.behind anchors) := by
  induction anchors with
  | nil => rfl
  | cons anchor anchors ih =>
    obtain ⟨hanchor, hanchors⟩ := List.forall_mem_cons.mp h
    obtain ⟨l, hl⟩ := Catalog.lacks_eq_false.mp hanchor
    simp only [anchorReferences, hl, ih hanchors, Catalog.behind, List.flatMap_cons,
      Catalog.referencesOf_of_get? hl]

/-- A definition is the one of the first library that has one. -/
def FirstOffer {α : Type} (libraries : List Library) (offer : Library → Option α) (d : α) : Prop :=
  ∃ before l after, libraries = before ++ l :: after ∧ offer l = some d ∧ ∀ k ∈ before, offer k = none

/-- The set of the libraries that the anchors reach, each once, in the order in which a breadth-first
walk first meets them; a name stands for what the first of them offers under it. -/
structure Closed (c : Catalog) (anchors : List String) (set : ReferenceSet) : Prop where
  nodup : set.names.Nodup
  mem : ∀ l, l ∈ set.libraries ↔ c.get? l.name = some l ∧ c.Reaches anchors l.name
  order : ∃ N, ∀ n ≥ N, set.names = (named (c.breadthFirst anchors n)).eraseDups
  function : ∀ name f, set.function? name = some f ↔
    FirstOffer set.libraries (fun l => l.functions.find? fun f => f.name = name) f
  documentMethod : ∀ name m, set.documentMethod? name = some m ↔
    FirstOffer set.libraries (fun l => l.documentMethods.find? fun m => m.name = name) m

theorem function?_eq_some_iff {set : ReferenceSet} {name : String} {f : Function} :
    set.function? name = some f ↔
      FirstOffer set.libraries (fun l => l.functions.find? fun f => f.name = name) f := by
  rw [function?, List.find?_flatMap, List.findSome?_eq_some_iff, FirstOffer]

theorem documentMethod?_eq_some_iff {set : ReferenceSet} {name : String} {m : DocumentMethod} :
    set.documentMethod? name = some m ↔
      FirstOffer set.libraries (fun l => l.documentMethods.find? fun m => m.name = name) m := by
  rw [documentMethod?, List.find?_flatMap, List.findSome?_eq_some_iff, FirstOffer]

/-- A walk behind the anchors that ends without an error has met what they reach. -/
theorem Outcome.mem_metNames {anchors : List String} {libraries : List Library}
    (h : Outcome c [] (c.behind anchors) (.ok libraries)) (name : String) :
    name ∈ metNames libraries ↔ c.Reaches anchors name := by
  obtain ⟨-, N, hN⟩ := h
  have hnames : ∀ n ≥ N, (name ∈ metNames libraries ↔ name ∈ named (c.breadthFirst anchors n)) := by
    intro n hn
    rw [← hN n hn]
    simpa [Catalog.breadthFirst, metNames] using mem_named_firsts [] (c.breadthFirst anchors n) name
  rw [← Catalog.mem_named_breadthFirst]
  constructor
  · exact fun hname => ⟨N, (hnames N le_rfl).mp hname⟩
  · rintro ⟨n, hn⟩
    refine (hnames (max n N) (le_max_right n N)).mpr ?_
    exact ((c.met_prefix _ (le_max_left n N)).map Reference.name).mem hn

theorem Closed.of_outcome {anchors : List String} {libraries : List Library}
    (h : Outcome c [] (c.behind anchors) (.ok libraries)) : Closed c anchors ⟨libraries⟩ := by
  obtain ⟨hlibraries, N, hN⟩ := id h
  have hnames : ∀ n ≥ N, metNames libraries = named (firsts [] (c.breadthFirst anchors n)) :=
    fun n hn => (hN n hn).symm
  constructor
  case nodup =>
    change (metNames libraries).Nodup
    exact hnames N le_rfl ▸ nodup_named_firsts [] _
  case mem =>
    intro l
    rw [← h.mem_metNames]
    refine ⟨fun hl => ⟨hlibraries l hl, List.mem_map_of_mem hl⟩, fun ⟨hl, hname⟩ => ?_⟩
    obtain ⟨k, hk, hkname⟩ := List.mem_map.mp hname
    have hkl := hlibraries k hk
    rw [hkname, hl] at hkl
    exact Option.some.inj hkl ▸ hk
  case order =>
    refine ⟨N, fun n hn => ?_⟩
    change metNames libraries = _
    rw [hnames n hn, named_firsts]
    simp
  case function => exact fun _ _ => function?_eq_some_iff
  case documentMethod => exact fun _ _ => documentMethod?_eq_some_iff

/-- A walk behind the anchors that ends with an error refuses the first missing name that they reach. -/
theorem Outcome.missing {anchors : List String} {e : ReferenceError}
    (h : Outcome c [] (c.behind anchors) (.error e)) :
    ∃ r n, e = .unknownLibrary r.referrer r.name ∧
      (c.breadthFirst anchors n).find? (fun r => c.lacks r.name) = some r := by
  obtain ⟨r, he, N, hN⟩ := h
  have hseen : ∀ name ∈ ([] : List String), c.lacks name = false := nofun
  exact ⟨r, N, he, (find?_firsts _ c.lacks hseen).symm.trans (hN N le_rfl)⟩

/-- **Reference sets are closed**: the first anchor that is not in the catalog is refused.  Else the walk
behind the anchors ends; it refuses the first reference to a missing name, if the anchors reach one,
and gives the set of the libraries that they reach, if they reach no missing name. -/
theorem resolve_closed (c : Catalog) (anchors : List String) :
    (∀ a, anchors.find? c.lacks = some a → resolve c anchors = .error (.unknownAnchor a)) ∧
    ((∀ a ∈ anchors, c.lacks a = false) →
      (∃ result, Walks c [] (c.behind anchors) result ∧
        resolve c anchors = result.map ReferenceSet.mk) ∧
      (∀ name, c.Reaches anchors name → c.lacks name = true →
        ∃ r n, (c.breadthFirst anchors n).find? (fun r => c.lacks r.name) = some r ∧
          resolve c anchors = .error (.unknownLibrary r.referrer r.name)) ∧
      ((∀ name, c.Reaches anchors name → c.lacks name = false) →
        ∃ set, resolve c anchors = .ok set ∧ Closed c anchors set)) := by
  refine ⟨fun a ha => ?_, fun hanchors => ?_⟩
  · simp [resolve, anchorReferences_unknown ha, bind, Except.bind]
  · have hresolve : resolve c anchors =
        (walk c c.libraries.length [] (c.behind anchors)).map ReferenceSet.mk := by
      rw [resolve, anchorReferences_ok hanchors]
      change (walk c c.libraries.length [] (c.behind anchors)).bind _ = _
      cases walk c c.libraries.length [] (c.behind anchors) <;> rfl
    have hwalks : Walks c [] (c.behind anchors) (walk c c.libraries.length [] (c.behind anchors)) :=
      walks_walk .nil (by simp)
    have houtcome := hwalks.outcome .nil nofun
    rw [hresolve]
    generalize walk c c.libraries.length [] (c.behind anchors) = result at *
    refine ⟨⟨result, hwalks, rfl⟩, fun name hreach hlacks => ?_, fun hall => ?_⟩
    · cases result with
      | ok libraries =>
        obtain ⟨l, hl, rfl⟩ := List.mem_map.mp ((houtcome.mem_metNames name).mpr hreach)
        rw [Catalog.lacks_of_get? (houtcome.1 l hl)] at hlacks
        cases hlacks
      | error e =>
        obtain ⟨r, n, rfl, hfirst⟩ := houtcome.missing
        exact ⟨r, n, hfirst, rfl⟩
    · cases result with
      | ok libraries => exact ⟨_, rfl, .of_outcome houtcome⟩
      | error e =>
        obtain ⟨r, n, rfl, hfirst⟩ := houtcome.missing
        have hreach : c.Reaches anchors r.name := Catalog.mem_named_breadthFirst.mp
          ⟨n, List.mem_map_of_mem (List.mem_of_find?_eq_some hfirst)⟩
        exact absurd (List.find?_some hfirst) (by simp [hall r.name hreach])

/-- Three libraries, of which the first two refer to each other. -/
def ringCatalog : Catalog :=
  ⟨[⟨"a", ["b"], [], [], []⟩, ⟨"b", ["a", "c"], [], [], []⟩, ⟨"c", ["b"], [], [], []⟩]⟩

theorem resolve_closed_ring :
    ∃ set, resolve ringCatalog ["a"] = .ok set ∧ Closed ringCatalog ["a"] set ∧
      set.names = ["b", "a", "c"] := by
  obtain ⟨set, hset, hclosed⟩ := ((resolve_closed ringCatalog ["a"]).2 (by decide)).2.2
    fun _ => Catalog.lacks_of_reaches (by decide)
  refine ⟨set, hset, hclosed, ?_⟩
  have hnames : (resolve ringCatalog ["a"]).map names = .ok ["b", "a", "c"] := by decide
  rw [hset] at hnames
  exact Except.ok.inj hnames

end ReferenceSet

end ReportTemplate
