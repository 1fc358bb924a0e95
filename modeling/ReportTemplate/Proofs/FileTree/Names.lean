import ReportTemplate.FileSystem
import ReportTemplate.Proofs.Text.Pieces

/-!
# ReportTemplate.Proofs.FileTree.Names — what counts in the text of a path

Of the segments of a path only those that are not idle count, and they are its names; `..` is one of
them.  A join puts the names behind one another, the absolute form puts those of the working directory
in front, and one absolute path is within another exactly if its names begin with those of the other.
-/

namespace ReportTemplate

namespace Path

/-- A text that is one segment, and counts. -/
def IsPart (s : String) : Prop := isIdle s = false ∧ '/' ∉ s.toList

/-- The segments of a path that count. -/
def names (p : Path) : List String := p.segments.filter fun s => !isIdle s

/-! ### Segments -/

theorem segments_ne_nil (p : Path) : p.segments ≠ [] := by
  unfold segments
  simpa using Text.split_ne_nil p.text.toList '/'

theorem slash_not_mem_segment {p : Path} {s : String} (hs : s ∈ p.segments) : '/' ∉ s.toList := by
  obtain ⟨piece, hpiece, rfl⟩ := List.mem_map.mp hs
  rw [String.toList_ofList]
  exact Text.not_mem_of_mem_split hpiece

theorem mem_text_of_mem_segment {p : Path} {s : String} {c : Char} (hs : s ∈ p.segments)
    (hc : c ∈ s.toList) : c ∈ p.text.toList := by
  obtain ⟨piece, hpiece, rfl⟩ := List.mem_map.mp hs
  rw [String.toList_ofList] at hc
  exact Text.mem_of_mem_split hpiece hc

/-- What stands in a path and is no slash stands in a segment. -/
theorem exists_segment_of_mem_text {p : Path} {c : Char} (hc : c ∈ p.text.toList) (hslash : c ≠ '/') :
    ∃ s ∈ p.segments, c ∈ s.toList := by
  rw [← Text.intercalate_split '/' p.text.toList] at hc
  obtain ⟨piece, hpiece, hmem⟩ := (Text.mem_intercalate hc).resolve_left hslash
  exact ⟨String.ofList piece, List.mem_map_of_mem hpiece, by rwa [String.toList_ofList]⟩

theorem segments_free {s : String} (hs : '/' ∉ s.toList) : segments ⟨s⟩ = [s] := by
  unfold segments
  rw [Text.split_free hs, List.map_singleton, String.ofList_toList]

/-- A slash cuts a path in two. -/
theorem segments_slash (a b : String) : segments ⟨a ++ "/" ++ b⟩ = segments ⟨a⟩ ++ segments ⟨b⟩ := by
  have htext : (a ++ "/" ++ b).toList = a.toList ++ '/' :: b.toList := by simp
  unfold segments
  rw [htext, Text.split_append, List.map_append]

theorem isPart_of_mem_names {p : Path} {s : String} (hs : s ∈ p.names) : IsPart s := by
  obtain ⟨hmem, hidle⟩ := List.mem_filter.mp hs
  exact ⟨by simpa using hidle, slash_not_mem_segment hmem⟩

/-! ### Joined paths -/

theorem exists_of_endsInSlash {p : Path} (h : p.endsInSlash = true) : ∃ a, p = ⟨a ++ "/"⟩ := by
  obtain ⟨u, hu⟩ := List.getLast?_eq_some_iff.mp (of_decide_eq_true h)
  refine ⟨String.ofList u, ?_⟩
  have htext : p.text = String.ofList u ++ "/" := by
    rw [← String.toList_inj, hu]
    simp
  rw [← htext]

theorem endsInSlash_slash (a : String) : endsInSlash ⟨a ++ "/"⟩ = true := by
  simp [endsInSlash]

theorem join_of_isAbsolute (p : Path) {q : Path} (hq : q.isAbsolute = true) : p.join q = q := if_pos hq

theorem join_empty (q : Path) : join ⟨""⟩ q = q := by
  unfold join
  split
  · rfl
  · simp

theorem join_slash (a : String) {q : Path} (hq : q.isAbsolute = false) :
    join ⟨a ++ "/"⟩ q = ⟨a ++ "/" ++ q.text⟩ := by
  unfold join
  rw [hq, endsInSlash_slash]
  simp

theorem join_plain {p q : Path} (hp : p.text ≠ "") (hslash : p.endsInSlash = false)
    (hq : q.isAbsolute = false) : p.join q = ⟨p.text ++ "/" ++ q.text⟩ := by
  unfold join
  rw [hq, hslash]
  simp [hp]

/-- The three ways in which a relative path is joined. -/
theorem join_cases (p : Path) {q : Path} (hq : q.isAbsolute = false) :
    (p = ⟨""⟩ ∧ p.join q = q) ∨
    (∃ a, p = ⟨a ++ "/"⟩ ∧ (p.join q).segments = segments ⟨a⟩ ++ q.segments) ∨
    (p.text ≠ "" ∧ p.endsInSlash = false ∧ (p.join q).segments = p.segments ++ q.segments) := by
  by_cases hp : p.text = ""
  · obtain rfl : p = ⟨""⟩ := by rw [← hp]
    exact .inl ⟨rfl, join_empty q⟩
  by_cases hslash : p.endsInSlash = true
  · obtain ⟨a, rfl⟩ := exists_of_endsInSlash hslash
    exact .inr (.inl ⟨a, rfl, by rw [join_slash a hq, segments_slash]⟩)
  · rw [Bool.not_eq_true] at hslash
    exact .inr (.inr ⟨hp, hslash, by rw [join_plain hp hslash hq, segments_slash]⟩)

theorem segments_empty : segments ⟨""⟩ = [""] := segments_free (by simp)

theorem segments_endsInSlash (a : String) : segments ⟨a ++ "/"⟩ = segments ⟨a⟩ ++ [""] := by
  have h := segments_slash a ""
  rwa [String.append_empty, segments_empty] at h

theorem names_join (p : Path) {q : Path} (hq : q.isAbsolute = false) :
    (p.join q).names = p.names ++ q.names := by
  rcases join_cases p hq with ⟨rfl, h⟩ | ⟨a, rfl, h⟩ | ⟨-, -, h⟩
  · rw [h]
    unfold names
    rw [segments_empty]
    rfl
  · unfold names
    rw [h, segments_endsInSlash, List.filter_append, List.filter_append]
    simp [isIdle]
  · unfold names
    rw [h, List.filter_append]

theorem isAbsolute_join (p q : Path) : (p.join q).isAbsolute = (q.isAbsolute || p.isAbsolute) := by
  by_cases hq : q.isAbsolute = true
  · rw [join_of_isAbsolute p hq, hq, Bool.true_or]
  · rw [Bool.not_eq_true] at hq
    rw [hq, Bool.false_or]
    by_cases hp : p.text = ""
    · obtain rfl : p = ⟨""⟩ := by rw [← hp]
      rw [join_empty, hq]
      rfl
    · obtain ⟨c, r, hc⟩ := List.exists_cons_of_ne_nil (mt String.toList_eq_nil_iff.mp hp)
      have hbegin (w : String) : isAbsolute ⟨p.text ++ w⟩ = p.isAbsolute := by
        unfold isAbsolute
        rw [String.toList_append, hc, List.cons_append, Text.startsWith_singleton,
          Text.startsWith_singleton]
      by_cases hslash : p.endsInSlash = true
      · have h : p.join q = ⟨p.text ++ q.text⟩ := by
          unfold join
          simp [hq, hslash]
        rw [h, hbegin]
      · rw [Bool.not_eq_true] at hslash
        rw [join_plain hp hslash hq, String.append_assoc, hbegin]

/-! ### Components -/

/-- A part as a component. -/
def ofPart (s : String) : Component := if s = ".." then .parent else .name s

theorem ofPart_injective : Function.Injective ofPart := by
  intro a b h
  unfold ofPart at h
  split at h <;> split at h <;> simp_all

theorem component?_of_counts {s : String} (hs : isIdle s = false) :
    component? s = some (ofPart s) := by
  unfold component? ofPart
  rw [if_neg (by simp [hs])]
  split <;> rfl

theorem filterMap_component? (segments : List String) :
    segments.filterMap component? = (segments.filter fun s => !isIdle s).map ofPart := by
  induction segments with
  | nil => rfl
  | cons s rest ih =>
    cases hs : isIdle s with
    | true => simp [component?, hs, ih]
    | false =>
      rw [List.filterMap_cons_some (component?_of_counts hs), List.filter_cons_of_pos (by simp [hs]),
        List.map_cons, ih]

theorem components_eq {p : Path} (hp : p.isAbsolute = true) :
    p.components = .root :: p.names.map ofPart := by
  unfold components
  rw [if_pos hp, filterMap_component?]
  rfl

theorem isWithin_iff {p q : Path} (hp : p.isAbsolute = true) (hq : q.isAbsolute = true) :
    p.isWithin q = true ↔ q.names <+: p.names := by
  unfold isWithin
  rw [List.isPrefixOf_iff_prefix, components_eq hp, components_eq hq, List.cons_prefix_cons,
    List.prefix_map_iff_of_injective ofPart_injective]
  simp

end Path

/-! ### Names from the root -/

namespace RealPath

open ReportTemplate.Path (IsPart)

variable {ns : List String}

theorem isAbsolute_path (ns : List String) : (RealPath.path ns).isAbsolute = true := by
  unfold RealPath.path Path.isAbsolute Text.startsWith
  simp

theorem text_path (ns : List String) :
    (RealPath.path ns).text.toList = '/' :: ['/'].intercalate (ns.map String.toList) := by
  unfold RealPath.path
  simp [String.toList_intercalate]

theorem text_path_ne (ns : List String) : (RealPath.path ns).text ≠ "" := by
  rw [Ne, ← String.toList_inj, text_path]
  simp

theorem path_nil : RealPath.path [] = ⟨"/"⟩ := by decide

theorem segments_path (h : ∀ s ∈ ns, IsPart s) (hne : ns ≠ []) : (RealPath.path ns).segments = "" :: ns := by
  have hsplit : Text.split (['/'].intercalate (ns.map String.toList)) ['/'] = ns.map String.toList := by
    refine Text.split_intercalate (by simpa using hne) fun piece hpiece => ?_
    obtain ⟨s, hs, rfl⟩ := List.mem_map.mp hpiece
    exact (h s hs).2
  unfold Path.segments
  rw [text_path, ← List.nil_append ('/' :: _), Text.split_append, hsplit]
  simp [Text.split, Text.splitFrom]

theorem names_path (h : ∀ s ∈ ns, IsPart s) : (RealPath.path ns).names = ns := by
  cases ns with
  | nil => decide
  | cons s rest =>
    unfold Path.names
    rw [segments_path h (List.cons_ne_nil s rest)]
    have hall : ∀ t ∈ s :: rest, (!Path.isIdle t) = true := fun t ht => by simp [(h t ht).1]
    rw [List.filter_cons_of_neg (by simp [Path.isIdle]), List.filter_eq_self.mpr hall]

theorem endsInSlash_path (h : ∀ s ∈ ns, IsPart s) (hne : ns ≠ []) :
    (RealPath.path ns).endsInSlash = false := by
  rw [Bool.eq_false_iff]
  intro hslash
  obtain ⟨a, ha⟩ := Path.exists_of_endsInSlash hslash
  obtain ⟨front, s, rfl⟩ := (List.eq_nil_or_concat' ns).resolve_left hne
  have hlast := congrArg List.getLast? (segments_path h hne)
  rw [ha, Path.segments_endsInSlash, ← List.cons_append, List.getLast?_concat, List.getLast?_concat,
    Option.some.injEq] at hlast
  have hs := (h s (by simp)).1
  rw [← hlast] at hs
  cases hs

/-- A part behind names from the root. -/
theorem join_path (h : ∀ s ∈ ns, IsPart s) {s : String} (hs : IsPart s) :
    (RealPath.path ns).join ⟨s⟩ = RealPath.path (ns ++ [s]) := by
  have hrelative : Path.isAbsolute ⟨s⟩ = false := by
    rw [Bool.eq_false_iff]
    intro hroot
    obtain ⟨w, hw⟩ := Text.startsWith_iff.mp hroot
    exact hs.2 (by rw [← hw]; simp)
  by_cases hne : ns = []
  · subst hne
    have hjoin := Path.join_slash "" hrelative
    rw [String.empty_append] at hjoin
    rw [path_nil, hjoin, Path.mk.injEq, ← String.toList_inj, text_path]
    simp
  · rw [Path.join_plain (text_path_ne ns) (endsInSlash_path h hne) hrelative, Path.mk.injEq, ← String.toList_inj,
      text_path, List.map_append, List.map_singleton, Text.intercalate_concat (by simpa using hne)]
    simp [text_path]

end RealPath

/-! ### The absolute form -/

namespace Path

/-- The names of the absolute form of a path. -/
def trail (working : RealPath) (p : Path) : List String :=
  (if p.isAbsolute then [] else working) ++ p.names

/-- The path of names from the root, with a slash at its end or without. -/
def ofTrail (ns : List String) (slash : Bool) : Path :=
  if slash then (RealPath.path ns).join ⟨""⟩ else RealPath.path ns

variable {working : RealPath} {ns ms : List String}

theorem isPart_of_mem_trail (hw : ∀ s ∈ working, IsPart s) {p : Path} :
    ∀ s ∈ p.trail working, IsPart s := by
  intro s hs
  rcases List.mem_append.mp hs with hs | hs
  · split at hs
    · cases hs
    · exact hw s hs
  · exact isPart_of_mem_names hs

theorem foldl_join (hns : ∀ s ∈ ns, IsPart s) (hms : ∀ s ∈ ms, IsPart s) :
    ms.foldl (fun q s => q.join ⟨s⟩) (RealPath.path ns) = RealPath.path (ns ++ ms) := by
  induction ms generalizing ns with
  | nil => rw [List.append_nil, List.foldl_nil]
  | cons s ms ih =>
    obtain ⟨hs, hms⟩ := List.forall_mem_cons.mp hms
    have hns' : ∀ t ∈ ns ++ [s], IsPart t := by
      simpa [or_imp, forall_and] using And.intro hns hs
    rw [List.foldl_cons, RealPath.join_path hns hs, ih hns' hms, List.append_assoc,
      List.singleton_append]

theorem absolute?_eq (hw : ∀ s ∈ working, IsPart s) {p : Path} (hp : p.text ≠ "") :
    p.absolute? working = some (ofTrail (p.trail working) p.endsInSlash) := by
  have hbase : (if p.isAbsolute then ⟨"/"⟩ else RealPath.path working) =
      RealPath.path (if p.isAbsolute then [] else working) := by
    split
    · exact RealPath.path_nil.symm
    · rfl
  have hparts : ∀ s ∈ (if p.isAbsolute then [] else working), IsPart s := by
    split
    · simp
    · exact hw
  have hfold := foldl_join hparts fun s (hs : s ∈ p.names) => isPart_of_mem_names hs
  unfold absolute?
  rw [if_neg (by simpa using hp), hbase]
  exact congrArg some (congrArg (fun q => if p.endsInSlash then join q ⟨""⟩ else q) hfold)

theorem isAbsolute_ofTrail (ns : List String) (slash : Bool) : (ofTrail ns slash).isAbsolute = true := by
  unfold ofTrail
  split
  · rw [isAbsolute_join, RealPath.isAbsolute_path, Bool.or_true]
  · exact RealPath.isAbsolute_path ns

theorem names_ofTrail (hns : ∀ s ∈ ns, IsPart s) (slash : Bool) : (ofTrail ns slash).names = ns := by
  have hempty : isAbsolute ⟨""⟩ = false := rfl
  unfold ofTrail
  split
  · rw [names_join _ hempty, RealPath.names_path hns]
    exact List.append_nil ns
  · exact RealPath.names_path hns

theorem ofTrail_nil (slash : Bool) : ofTrail [] slash = ⟨"/"⟩ := by
  cases slash <;> decide

theorem segments_ofTrail (hns : ∀ s ∈ ns, IsPart s) (hne : ns ≠ []) (slash : Bool) :
    (ofTrail ns slash).segments = "" :: (ns ++ if slash then [""] else []) := by
  cases slash with
  | false =>
    rw [if_neg Bool.false_ne_true, List.append_nil]
    exact RealPath.segments_path hns hne
  | true =>
    have hjoin := join_plain (q := ⟨""⟩) (RealPath.text_path_ne ns) (RealPath.endsInSlash_path hns hne) rfl
    show ((RealPath.path ns).join ⟨""⟩).segments = _
    rw [hjoin, segments_slash, RealPath.segments_path hns hne, segments_empty, if_pos rfl]
    rfl

theorem not_mem_text_ofTrail {c : Char} (hns : ∀ s ∈ ns, IsPart s) (hslash : c ≠ '/')
    (hc : ∀ s ∈ ns, c ∉ s.toList) (slash : Bool) : c ∉ (ofTrail ns slash).text.toList := by
  intro hmem
  by_cases hne : ns = []
  · rw [hne, ofTrail_nil] at hmem
    exact hslash (by simpa using hmem)
  · obtain ⟨s, hs, hin⟩ := exists_segment_of_mem_text hmem hslash
    rw [segments_ofTrail hns hne] at hs
    rcases List.mem_cons.mp hs with rfl | hs
    · cases hin
    rcases List.mem_append.mp hs with hs | hs
    · exact hc s hs hin
    · split at hs
      · obtain rfl := List.mem_singleton.mp hs
        cases hin
      · cases hs

theorem dropIdle_cons {s : String} (hs : isIdle s = false) (rest : List String) :
    dropIdle (s :: rest) = s :: rest := by
  cases rest with
  | nil => rfl
  | cons t rest => rw [dropIdle, hs, if_neg Bool.false_ne_true]

/-- The absolute form of a path without its last name. -/
theorem parent?_ofTrail {s : String} (hns : ∀ t ∈ ns, IsPart t) (hs : IsPart s) (slash : Bool) :
    (ofTrail (ns ++ [s]) slash).parent? = some (RealPath.path ns) := by
  have hall : ∀ t ∈ ns ++ [s], IsPart t := by
    simpa [or_imp, forall_and] using And.intro hns hs
  have hfirst : dropIdle (ofTrail (ns ++ [s]) slash).segments.reverse = s :: (ns.reverse ++ [""]) := by
    rw [segments_ofTrail hall (by simp) slash]
    cases slash with
    | false => simpa using dropIdle_cons hs.1 _
    | true =>
      have h := dropIdle_cons hs.1 (ns.reverse ++ [""])
      simpa [dropIdle, isIdle] using h
  unfold parent?
  rw [hfirst]
  obtain rfl | ⟨front, t, rfl⟩ := List.eq_nil_or_concat' ns
  · simp [dropIdle, RealPath.path_nil]
  · have ht : isIdle t = false := (hns t (by simp)).1
    have hrest : (front ++ [t]).reverse ++ [""] = t :: (front.reverse ++ [""]) := by simp
    have hcut : (t :: (front.reverse ++ [""])).reverse = "" :: (front ++ [t]) := by simp
    have htext : "/".intercalate ("" :: (front ++ [t])) = (RealPath.path (front ++ [t])).text := by
      rw [← String.toList_inj, String.toList_intercalate, List.map_cons, RealPath.text_path,
        List.intercalate_cons_of_ne_nil (by simp)]
      rfl
    simp only [hrest, dropIdle_cons ht, hcut, htext]
    rw [if_neg (by simp)]

theorem fileName?_ofTrail {s : String} (hns : ∀ t ∈ ns, IsPart t) (hs : IsPart s) (slash : Bool) :
    (ofTrail (ns ++ [s]) slash).fileName? = if s = ".." then none else some s := by
  have hall : ∀ t ∈ ns ++ [s], IsPart t := by
    simpa [or_imp, forall_and] using And.intro hns hs
  unfold fileName?
  rw [components_eq (isAbsolute_ofTrail _ _), names_ofTrail hall, List.map_append, List.map_singleton,
    ← List.cons_append, List.getLast?_concat]
  unfold ofPart
  by_cases hup : s = ".."
  · rw [if_pos hup, if_pos hup]
  · rw [if_neg hup, if_neg hup]

end Path

end ReportTemplate
