import ReportTemplate.Proofs.LogCall.Lines
import ReportTemplate.Proofs.Token.Lossless

/-!
# ReportTemplate.Proofs.LogCall.Quoted — `log(` inside a string literal

An expansion looks at lines and not at tokens.  A line whose only `log(` stands inside a string literal is
kept exactly if that place is not led by a blank or the start of the line, or no `);` stands behind it on
the line.  A literal that begins with `log(` is kept.
-/

namespace ReportTemplate.LogCall

open Text (byteSize isBlank isWord startsWith)

/-! ### A line with one `log(` -/

/-- The number of places of `log(` in a text, whatever stands in front of them. -/
def places : List Char → Nat
  | [] => 0
  | c :: r => (if startsWith opening (c :: r) then 1 else 0) + places r

theorem startsWith_opening_append (w : List Char) : startsWith opening (opening ++ w) = true :=
  List.isPrefixOf_iff_prefix.mpr (List.prefix_append opening w)

theorem places_opening (w : List Char) :
    places (opening ++ w) = 1 + places ('o' :: 'g' :: '(' :: w) :=
  congrArg (· + places ('o' :: 'g' :: '(' :: w)) (if_pos (startsWith_opening_append w))

theorem places_pos (u w : List Char) : 0 < places (u ++ (opening ++ w)) := by
  induction u with
  | nil =>
    rw [List.nil_append, places_opening]
    omega
  | cons c u ih =>
    rw [List.cons_append, places]
    omega

/-- There is no other place in front of the only one. -/
theorem places_behind {c : Char} {u w : List Char} (h : places (c :: u ++ (opening ++ w)) = 1) :
    startsWith opening (c :: (u ++ (opening ++ w))) = false ∧ places (u ++ (opening ++ w)) = 1 := by
  rw [List.cons_append, places] at h
  have hpos := places_pos u w
  split at h
  next => omega
  next hstart => exact ⟨by simpa using hstart, by omega⟩

theorem places_eq_zero {c : Char} {r : List Char} (h : places (c :: r) = 0) :
    startsWith opening (c :: r) = false ∧ places r = 0 := by
  rw [places] at h
  split at h
  next => omega
  next hstart => exact ⟨by simpa using hstart, by omega⟩

theorem sitesFrom_eq_zero {s : List Char} (h : places s = 0) (inWord : Bool) :
    sitesFrom inWord s = 0 := by
  induction s generalizing inWord with
  | nil => rfl
  | cons c r ih =>
    obtain ⟨hstart, hr⟩ := places_eq_zero h
    rw [sitesFrom, hstart, ih hr, Bool.and_false]
    rfl

/-- Where no `log(` stands, no call begins. -/
theorem siteFrom?_skip {c : Char} {r : List Char} (h : startsWith opening (c :: r) = false)
    (lead : Bool) : siteFrom? lead (c :: r) =
      (siteFrom? (isBlank c) r).map fun s => ⟨c :: s.before, s.argument, s.tail⟩ := by
  rw [siteFrom?, h, Bool.and_false]
  rfl

theorem siteFrom?_eq_none {s : List Char} (h : places s = 0) (lead : Bool) :
    siteFrom? lead s = none := by
  induction s generalizing lead with
  | nil => rfl
  | cons c r ih =>
    obtain ⟨hstart, hr⟩ := places_eq_zero h
    rw [siteFrom?_skip hstart, ih hr]
    rfl

/-- What a property says of the last character of a text, and `b` if there is none. -/
def atEnd (f : Char → Bool) (b : Bool) : List Char → Bool
  | [] => b
  | c :: r => atEnd f (f c) r

theorem atEnd_append (f : Char → Bool) (b : Bool) (s : List Char) (c : Char) :
    atEnd f b (s ++ [c]) = f c := by
  induction s generalizing b with
  | nil => rfl
  | cons d s ih => exact ih (f d)

/-- The only place of a line counts if it begins a word. -/
theorem sitesFrom_single {u w : List Char} (h : places (u ++ (opening ++ w)) = 1) (inWord : Bool) :
    sitesFrom inWord (u ++ (opening ++ w)) = if atEnd isWord inWord u then 0 else 1 := by
  induction u generalizing inWord with
  | nil =>
    have hlater : places ('o' :: 'g' :: '(' :: w) = 0 := by
      rw [List.nil_append, places_opening] at h
      omega
    have hunfold : sitesFrom inWord (opening ++ w) =
        (if !inWord && startsWith opening (opening ++ w) then 1 else 0) +
          sitesFrom (isWord 'l') ('o' :: 'g' :: '(' :: w) := rfl
    rw [List.nil_append, hunfold, startsWith_opening_append, sitesFrom_eq_zero hlater]
    cases inWord <;> rfl
  | cons c u ih =>
    obtain ⟨hstart, hrest⟩ := places_behind h
    rw [List.cons_append, sitesFrom, hstart, ih hrest, Bool.and_false]
    exact Nat.zero_add _

/-- The only place of a line is a call if it is led by a blank and closed. -/
theorem siteFrom?_single {u w : List Char} (h : places (u ++ (opening ++ w)) = 1) (lead : Bool) :
    siteFrom? lead (u ++ (opening ++ w)) =
      if atEnd isBlank lead u then (splitLastClose? w).map fun x => ⟨u, x.1, x.2⟩ else none := by
  induction u generalizing lead with
  | nil =>
    have hlater : places ('o' :: 'g' :: '(' :: w) = 0 := by
      rw [List.nil_append, places_opening] at h
      omega
    have hstart : startsWith opening ('l' :: 'o' :: 'g' :: '(' :: w) = true :=
      startsWith_opening_append w
    show siteFrom? lead ('l' :: 'o' :: 'g' :: '(' :: w) = _
    rw [siteFrom?, hstart, siteFrom?_eq_none hlater, Bool.and_true]
    cases lead with
    | false => rfl
    | true => cases hclose : splitLastClose? w <;> simp [hclose, atEnd]
  | cons c u ih =>
    obtain ⟨hstart, hrest⟩ := places_behind h
    rw [List.cons_append, siteFrom?_skip hstart, ih hrest, atEnd]
    split
    · cases splitLastClose? w <;> rfl
    · rfl

theorem splitLastClose?_eq_none {s : List Char} :
    splitLastClose? s = none ↔ ∀ u w, s ≠ u ++ (");".toList ++ w) := by
  constructor
  · rintro h u w rfl
    induction u with
    | nil =>
      show False
      have hclose : splitLastClose? (')' :: ';' :: w) = none := h
      unfold splitLastClose? at hclose
      split at hclose
      · cases hclose
      · cases hclose
    | cons c u ih =>
      rw [List.cons_append] at h
      unfold splitLastClose? at h
      split at h
      · cases h
      next hr => exact ih hr
  · intro h
    cases hs : splitLastClose? s with
    | none => rfl
    | some x =>
      have heq := splitLastClose?_eq hs
      rw [List.append_assoc] at heq
      exact absurd heq (h x.1 x.2)

theorem isWord_of_isBlank {c : Char} (h : isBlank c = true) : isWord c = false := by
  have hdisjoint : ∀ b ∈ Text.blankRanges, ∀ r ∈ Text.wordRanges, b.2 < r.1 ∨ r.2 < b.1 := by
    decide +kernel
  have hascii : ∀ n < 128, Text.inRanges Text.blankRanges n = true →
      ((Char.ofNat n).isAlphanum || Char.ofNat n == '_') = false := by
    decide +kernel
  unfold isBlank at h
  unfold isWord
  split
  next hlt =>
    have hc := hascii c.toNat hlt h
    rwa [Char.ofNat_toNat] at hc
  next =>
    obtain ⟨b, hb, hin⟩ := List.any_eq_true.mp h
    rw [Bool.eq_false_iff]
    intro hword
    obtain ⟨r, hr, hin'⟩ := List.any_eq_true.mp hword
    have hapart := hdisjoint b hb r hr
    simp only [Bool.and_eq_true, decide_eq_true_eq] at hin hin'
    omega

/-- What leads a call: nothing, or a blank. -/
def Leads (before : List Char) : Prop := ∀ c ∈ before.getLast?, isBlank c = true

/-- What is closed has a `);`. -/
def Closed (after : List Char) : Prop := ∃ u w, after = u ++ (");".toList ++ w)

theorem atEnd_isBlank {before : List Char} : atEnd isBlank true before = true ↔ Leads before := by
  unfold Leads
  cases hlast : before.getLast? with
  | none =>
    obtain rfl := List.getLast?_eq_none_iff.mp hlast
    exact ⟨fun _ => nofun, fun _ => rfl⟩
  | some c =>
    obtain ⟨u, rfl⟩ := List.getLast?_eq_some_iff.mp hlast
    rw [atEnd_append]
    exact ⟨fun h d hd => Option.some.inj hd ▸ h, fun h => h c rfl⟩

theorem sites_of_leads {u w : List Char} (h : places (u ++ (opening ++ w)) = 1) (hu : Leads u) :
    sites (u ++ (opening ++ w)) = 1 := by
  have hword : atEnd isWord false u = false := by
    cases hlast : u.getLast? with
    | none =>
      obtain rfl := List.getLast?_eq_none_iff.mp hlast
      rfl
    | some c =>
      obtain ⟨v, rfl⟩ := List.getLast?_eq_some_iff.mp hlast
      rw [atEnd_append]
      exact isWord_of_isBlank (hu c hlast)
  unfold sites
  rw [sitesFrom_single h, hword]
  rfl

/-- **A line with one `log(`** is changed exactly if the place is led by a blank or the start of the line,
and closed. -/
theorem expandCall_single {u w : List Char} (h : places (u ++ (opening ++ w)) = 1) (number : Nat) :
    expandCall number (u ++ (opening ++ w)) = u ++ (opening ++ w) ↔ ¬ (Leads u ∧ Closed w) := by
  rw [← site?_eq_none_iff, site?, siteFrom?_single h]
  by_cases hu : Leads u
  · rw [if_pos (sites_of_leads h hu), if_pos (atEnd_isBlank.mpr hu), Option.map_eq_none_iff,
      splitLastClose?_eq_none]
    simp [Closed, hu]
  · have hlead : ¬ atEnd isBlank true u = true := fun hend => hu (atEnd_isBlank.mp hend)
    rw [if_neg hlead, ite_self]
    exact ⟨fun _ hboth => hu hboth.1, fun _ => rfl⟩

/-! ### String literals -/

/-- A place of `log(` on a line of a source: what stands in front of the line, on the line in front of the
place, on the line behind the place, and behind the line. -/
structure Place where
  front : List Char
  before : List Char
  after : List Char
  rest : List Char

namespace Place

variable (p : Place)

def line : List Char := p.before ++ (opening ++ p.after)

def source : List Char := p.front ++ (p.line ++ p.rest)

/-- The number of lines in front of that of the place. -/
def index : Nat := p.front.count '\n'

/-- The byte at which the place begins. -/
def offset : Nat := byteSize (p.front ++ p.before)

/-- The only place of a line without a short declaration lies inside a string literal. -/
structure Quoted (t : Located) : Prop where
  line : '\n' ∉ p.line
  front : ∀ c ∈ p.front.getLast?, c = '\n'
  rest : ∀ c ∈ p.rest.head?, c = '\n'
  plain : declares p.line = false
  only : places p.line = 1
  token : t ∈ lex p.source
  string : ∃ s, t.token = .string s
  start : t.span.start ≤ p.offset
  stop : p.offset + opening.length ≤ t.span.stop

variable {p} {t : Located}

/-- Line by line, the expansion of a line that stands alone between two others. -/
theorem Quoted.getElem?_split_expand (h : p.Quoted t) :
    (Text.split (expand p.source) ['\n'])[p.index]? = some (expandCall (1 + p.index) p.line) := by
  have hline : (Text.split p.source ['\n'])[p.index]? = some p.line :=
    getElem?_split h.line h.front h.rest
  rw [split_expand, getElem?_expandLines, hline, Option.map_some, expandLine,
    upgradeDeclarations_of_not_declares h.plain]

/-- The quote of a literal that begins with `log(` is no blank and ends no line. -/
theorem Quoted.not_leads (h : p.Quoted t) (hbegins : p.offset = t.span.start + 1) :
    ¬ Leads p.before := by
  obtain ⟨before, text, after, hsource, -, hspan, hspells, -⟩ :=
    (Lexer.tiled_locate p.source 0).located t h.token
  obtain ⟨s, hs⟩ := h.string
  rw [hs] at hspells
  cases hspells with
  | @string b s _ hb _ =>
    have hsplit : (p.front ++ p.before) ++ (opening ++ (p.after ++ p.rest)) =
        (before ++ ['"']) ++ (b ++ '"' :: after) := by
      have hleft : (p.front ++ p.before) ++ (opening ++ (p.after ++ p.rest)) = p.source := by
        simp only [Place.source, Place.line, List.append_assoc]
      rw [hleft, hsource, hb]
      simp
    have hsize : byteSize (p.front ++ p.before) = byteSize (before ++ ['"']) := by
      have hquote : byteSize ['"'] = 1 := rfl
      rw [hspan] at hbegins
      rw [Text.byteSize_append before, hquote]
      simpa [offset] using hbegins
    have hfront : p.front ++ p.before = before ++ ['"'] := Lexer.eq_of_byteSize_eq hsplit hsize
    have hlast : (p.front ++ p.before).getLast? = some '"' := by rw [hfront, List.getLast?_concat]
    rw [List.getLast?_append] at hlast
    intro hleads
    cases hbefore : p.before.getLast? with
    | none =>
      rw [hbefore, Option.none_or] at hlast
      exact absurd (h.front _ hlast) (by decide)
    | some c =>
      rw [hbefore, Option.some_or] at hlast
      obtain rfl := Option.some.inj hlast
      exact absurd (hleads _ hbefore) (by decide)

end Place

/-- **`log(` inside a string literal**: a line without a short declaration whose only `log(` it is is kept
by an expansion exactly if a blank or the start of the line does not lead the place, or nothing closes it.
It is kept if the literal begins with it. -/
theorem expand_quoted {p : Place} {t : Located} (h : p.Quoted t) :
    ((Text.split (expand p.source) ['\n'])[p.index]? = some p.line ↔
      ¬ (Leads p.before ∧ Closed p.after)) ∧
    (p.offset = t.span.start + 1 →
      (Text.split (expand p.source) ['\n'])[p.index]? = some p.line) := by
  have hkept : (Text.split (expand p.source) ['\n'])[p.index]? = some p.line ↔
      ¬ (Leads p.before ∧ Closed p.after) := by
    rw [h.getElem?_split_expand, Option.some_inj]
    exact expandCall_single h.only _
  exact ⟨hkept, fun hbegins => hkept.mpr fun hboth => h.not_leads hbegins hboth.1⟩

/-- A paragraph whose text speaks of a call. -/
def spokenCall : Place :=
  ⟨[], "document.paragraph(\"see ".toList, "x);\");".toList, ['\n']⟩

theorem quoted_spokenCall : spokenCall.Quoted ⟨.string "see log(x);", ⟨19, 32⟩⟩ where
  line := by decide +kernel
  front := nofun
  rest := by simp [spokenCall]
  plain := by decide +kernel
  only := by decide +kernel
  token := by decide +kernel
  string := ⟨_, rfl⟩
  start := by decide +kernel
  stop := by decide +kernel

/-- The text in the literal is taken for the argument of a call. -/
theorem spokenCall_rewritten :
    spokenCall.Quoted ⟨.string "see log(x);", ⟨19, 32⟩⟩ ∧
      expand spokenCall.source =
        "document.paragraph(\"see log(1, \"x);\\\"\", x);\");\n".toList ∧
      (Text.split (expand spokenCall.source) ['\n'])[spokenCall.index]? ≠ some spokenCall.line := by
  refine ⟨quoted_spokenCall, by decide +kernel, by decide +kernel⟩

/-- A paragraph whose text is a call. -/
def wholeCall : Place :=
  ⟨[], "document.paragraph(\"".toList, "z);\");".toList, ['\n']⟩

theorem expand_quoted_wholeCall :
    wholeCall.Quoted ⟨.string "log(z);", ⟨19, 28⟩⟩ ∧
      (Text.split (expand wholeCall.source) ['\n'])[wholeCall.index]? = some wholeCall.line := by
  have hquoted : wholeCall.Quoted ⟨.string "log(z);", ⟨19, 28⟩⟩ := by
    refine ⟨?_, nofun, by simp [wholeCall], ?_, ?_, ?_, ⟨_, rfl⟩, ?_, ?_⟩
    all_goals decide +kernel
  exact ⟨hquoted, (expand_quoted hquoted).2 (by decide +kernel)⟩

end ReportTemplate.LogCall
