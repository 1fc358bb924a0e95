import ReportTemplate.Proofs.LogCall.Expansions
import ReportTemplate.Proofs.Token.Literals

/-!
# ReportTemplate.Proofs.LogCall.Tokens — an expansion inserts four tokens into each call

The lexer sees an expanded source as the source itself with a record behind the opening of every
expanded call.  What stands around a call, and in its argument, is cut into the same tokens.
-/

namespace ReportTemplate.LogCall

open Lexer
open Text (byteSize)

/-! ### Records -/

/-- The tokens that an expansion writes behind the opening of its call. -/
def recordTokens (x : Expansion) : List Token :=
  [numeral x.number, .symbol .comma, .string (String.ofList x.argument), .symbol .comma]

/-- The record that belongs behind a token: one behind the opening of an expanded call. -/
def recordAt (xs : List Expansion) (t : Located) : List Token :=
  match xs.find? fun x => t.span.start = x.offset + 3 with
  | some x => recordTokens x
  | none => []

/-- The tokens of a source with the records of its expanded calls. -/
def withRecords (xs : List Expansion) (ts : List Located) : List Token :=
  ts.flatMap fun t => t.token :: recordAt xs t

section

variable {x : Expansion} {xs : List Expansion} {t : Located} {ts : List Located}

@[simp] theorem withRecords_cons :
    withRecords xs (t :: ts) = t.token :: (recordAt xs t ++ withRecords xs ts) := rfl

theorem withRecords_append (us : List Located) :
    withRecords xs (ts ++ us) = withRecords xs ts ++ withRecords xs us := List.flatMap_append

theorem recordAt_here (h : t.span.start = x.offset + 3) : recordAt (x :: xs) t = recordTokens x := by
  unfold recordAt
  rw [List.find?_cons_of_pos (by simpa using h)]

theorem recordAt_cons_of_ne (h : t.span.start ≠ x.offset + 3) :
    recordAt (x :: xs) t = recordAt xs t := by
  unfold recordAt
  rw [List.find?_cons_of_neg (by simpa using h)]

theorem recordAt_of_lt (h : ∀ x ∈ xs, t.span.start < x.offset + 3) : recordAt xs t = [] := by
  unfold recordAt
  rw [List.find?_eq_none.mpr]
  intro x hx
  simpa using Nat.ne_of_lt (h x hx)

theorem withRecords_of_lt (h : ∀ t ∈ ts, ∀ x ∈ xs, t.span.start < x.offset + 3) :
    withRecords xs ts = ts.map Located.token := by
  induction ts with
  | nil => rfl
  | cons t ts ih =>
    rw [withRecords_cons, recordAt_of_lt (h t List.mem_cons_self),
      ih fun t ht => h t (List.mem_cons_of_mem _ ht)]
    rfl

theorem withRecords_cons_of_lt (h : ∀ t ∈ ts, x.offset + 3 < t.span.start) :
    withRecords (x :: xs) ts = withRecords xs ts := by
  induction ts with
  | nil => rfl
  | cons t ts ih =>
    have ht : t.span.start ≠ x.offset + 3 := Nat.ne_of_gt (h t List.mem_cons_self)
    rw [withRecords_cons, withRecords_cons, recordAt_cons_of_ne ht,
      ih fun t ht => h t (List.mem_cons_of_mem _ ht)]

end

/-! ### One call -/

section

variable {off : Nat} {u w : List Char} {ps : List Piece}

theorem locate_call (h : Cut (opening ++ w) u ps) :
    locate off (pieces (u ++ (opening ++ w))) =
      locate off ps ++
        ⟨.ident "log", ⟨off + byteSize u, off + byteSize u + 3⟩⟩ ::
        ⟨.symbol .parenOpen, ⟨off + byteSize u + 3, off + byteSize u + 4⟩⟩ ::
        locate (off + byteSize u + 4) (pieces w) := by
  rw [h.locate_append, pieces_opening, locate_token, locate_token]
  rfl

/-- Another text behind the opening leaves the cut in front of it as it is. -/
theorem cut_opening (h : Cut (opening ++ w) u ps) (w' : List Char) : Cut (opening ++ w') u ps := by
  have hopening : opening = ['l', 'o', 'g', '('] := rfl
  rw [hopening] at h ⊢
  exact Cut.congr (a := 'l') rfl h _

/-- The tokens behind a call lie in the text behind its opening. -/
theorem mem_locate_behind {t : Located} (h : Cut (opening ++ w) u ps)
    (ht : t ∈ locate off (pieces (u ++ (opening ++ w)))) (hoff : off + byteSize u + 4 ≤ t.span.start) :
    t ∈ locate (off + byteSize u + 4) (pieces w) := by
  rw [locate_call h] at ht
  rcases List.mem_append.mp ht with ht | ht
  · have hlt := h.start_lt ht
    omega
  · rcases List.mem_cons.mp ht with rfl | ht
    · simp only at hoff
      omega
    · rcases List.mem_cons.mp ht with rfl | ht
      · simp only at hoff
        omega
      · exact ht

theorem recorded_append (number : Nat) (e v : List Char) :
    recorded number e ++ v =
      opening ++ (Nat.toDigits 10 number ++ ',' :: ' ' ::
        '"' :: (escape e ++ '"' :: ',' :: ' ' :: (e ++ ");".toList ++ v))) := by
  have h₁ : ", \"".toList = [',', ' ', '"'] := rfl
  have h₂ : "\", ".toList = ['"', ',', ' '] := rfl
  unfold recorded
  rw [h₁, h₂]
  simp only [List.append_assoc, List.cons_append, List.nil_append]

theorem tokensOf_separator {c : Char} (hc : isSeparator c = true) (r : List Char) :
    tokensOf (pieces (c :: r)) = tokensOf (pieces r) := by
  rw [← locate_tokens 0, locate_separator hc, locate_tokens]

/-- The call with its record, cut into tokens where the source was cut. -/
theorem tokensOf_recorded (h : Cut (opening ++ w) u ps) (number offset : Nat) (e v : List Char) :
    tokensOf (pieces (u ++ (recorded number e ++ v))) =
      tokensOf ps ++ .ident "log" :: .symbol .parenOpen ::
        (recordTokens ⟨number, offset, e⟩ ++ tokensOf (pieces (e ++ ");".toList ++ v))) := by
  rw [recorded_append, (cut_opening h _).pieces_append, pieces_opening,
    pieces_numeral number ⟨rfl, rfl⟩, pieces_comma, tokensOf_append]
  simp only [tokensOf_token]
  rw [tokensOf_separator rfl, pieces_quoted, tokensOf_token, pieces_comma, tokensOf_token,
    tokensOf_separator rfl]
  rfl

/-- A call that starts a token gains its record; `xs` are the expanded calls behind it. -/
theorem tokensOf_site (number : Nat) {e v v' : List Char} {xs : List Expansion}
    (h : Cut (opening ++ (e ++ ");".toList ++ v)) u ps)
    (hxs : ∀ y ∈ xs, off + byteSize u + 4 ≤ y.offset)
    (ih : tokensOf (pieces (e ++ ");".toList ++ v')) =
      withRecords xs (locate (off + byteSize u + 4) (pieces (e ++ ");".toList ++ v)))) :
    tokensOf (pieces (u ++ (recorded number e ++ v'))) =
      withRecords (⟨number, off + byteSize u, e⟩ :: xs)
        (locate off (pieces (u ++ (opening ++ (e ++ ");".toList ++ v))))) := by
  have hfront : ∀ t ∈ locate off ps, ∀ x ∈ (⟨number, off + byteSize u, e⟩ :: xs : List Expansion),
      t.span.start < x.offset + 3 := by
    intro t ht x hx
    have hlt := h.start_lt ht
    rcases List.mem_cons.mp hx with rfl | hx
    · simp only
      omega
    · have hle := hxs x hx
      omega
  have hlog : ∀ x ∈ (⟨number, off + byteSize u, e⟩ :: xs : List Expansion),
      off + byteSize u < x.offset + 3 := by
    intro x hx
    rcases List.mem_cons.mp hx with rfl | hx
    · simp only
      omega
    · have hle := hxs x hx
      omega
  have hback : ∀ t ∈ locate (off + byteSize u + 4) (pieces (e ++ ");".toList ++ v)),
      off + byteSize u + 3 < t.span.start := by
    intro t ht
    have hle := le_start_of_mem_locate ht
    omega
  rw [tokensOf_recorded h number (off + byteSize u), locate_call h, withRecords_append,
    withRecords_of_lt hfront, locate_tokens, withRecords_cons, withRecords_cons,
    recordAt_of_lt hlog, recordAt_here rfl, withRecords_cons_of_lt hback, ih]
  rfl

end

/-! ### Line by line -/

/-- Every expanded call among some starts one of the tokens. -/
def Started (xs : List Expansion) (ts : List Located) : Prop :=
  ∀ x ∈ xs, ∃ t ∈ ts, t.span.start = x.offset

/-- Some lines are expanded like this behind any text: `u` is what stands between the last place where
the source is cut and the lines, which are counted from `number`. -/
def InsertsRecords (number : Nat) (lines : List (List Char)) : Prop :=
  ∀ (off : Nat) (u : List Char),
    Started (expansionsFrom number (off + byteSize u + 1) lines)
      (locate off (pieces (u ++ behind lines))) →
    tokensOf (pieces (u ++ behind (expandLines number lines))) =
      withRecords (expansionsFrom number (off + byteSize u + 1) lines)
        (locate off (pieces (u ++ behind lines)))

theorem tokensOf_line {number : Nat} {line : List Char} {lines : List (List Char)}
    (hd : declares line = false) (ih : InsertsRecords (number + 1) lines) (off : Nat) (u : List Char)
    (ht : Started (expansionsFrom number (off + byteSize u) (line :: lines))
      (locate off (pieces (u ++ (line ++ behind lines))))) :
    tokensOf (pieces (u ++ (expandLine number line ++ behind (expandLines (number + 1) lines)))) =
      withRecords (expansionsFrom number (off + byteSize u) (line :: lines))
        (locate off (pieces (u ++ (line ++ behind lines)))) := by
  unfold expandLine
  rw [upgradeDeclarations_of_not_declares hd]
  cases hs : site? line with
  | none =>
    have hoff : off + byteSize u + byteSize line + 1 = off + byteSize (u ++ line) + 1 := by
      rw [Text.byteSize_append]
      omega
    rw [expansionsFrom_none hs, hoff, ← List.append_assoc] at ht
    rw [site?_none hs, expansionsFrom_none hs, hoff, ← List.append_assoc, ← List.append_assoc]
    exact ih off (u ++ line) ht
  | some s =>
    obtain ⟨hline, hexpand⟩ := site?_some hs number
    have htext : u ++ (line ++ behind lines) =
        (u ++ s.before) ++ (opening ++ (s.argument ++ ");".toList ++ (s.tail ++ behind lines))) := by
      rw [hline]
      simp only [List.append_assoc]
    have hoff : off + byteSize u + byteSize line + 1 =
        off + byteSize (u ++ s.before) + 4 + byteSize (s.argument ++ ");".toList ++ s.tail) + 1 := by
      have hopening : byteSize opening = 4 := rfl
      rw [hline]
      simp only [Text.byteSize_append, hopening]
      omega
    have hfirst : off + byteSize u + byteSize s.before = off + byteSize (u ++ s.before) := by
      rw [Text.byteSize_append, Nat.add_assoc]
    rw [expansionsFrom_some hs, hoff, hfirst, htext] at ht
    rw [expansionsFrom_some hs, hoff, hfirst, htext, hexpand]
    obtain ⟨t, hmem, hstart⟩ := ht _ List.mem_cons_self
    obtain ⟨ps, hcut⟩ := cut_of_mem_locate hmem hstart
    have hxs : ∀ y ∈ expansionsFrom (number + 1) (off + byteSize (u ++ s.before) + 4 +
        byteSize (s.argument ++ ");".toList ++ s.tail) + 1) lines,
        off + byteSize (u ++ s.before) + 4 ≤ y.offset := by
      intro y hy
      have hle := le_offset_of_mem hy
      omega
    have hlater : Started (expansionsFrom (number + 1) (off + byteSize (u ++ s.before) + 4 +
        byteSize (s.argument ++ ");".toList ++ s.tail) + 1) lines)
        (locate (off + byteSize (u ++ s.before) + 4)
          (pieces ((s.argument ++ ");".toList ++ s.tail) ++ behind lines))) := by
      intro y hy
      obtain ⟨t, hmem, hstart⟩ := ht y (List.mem_cons_of_mem _ hy)
      refine ⟨t, ?_, hstart⟩
      rw [List.append_assoc (s.argument ++ ");".toList)]
      exact mem_locate_behind hcut hmem (by rw [hstart]; exact hxs y hy)
    have hrest := ih _ _ hlater
    rw [List.append_assoc (s.argument ++ ");".toList), List.append_assoc (s.argument ++ ");".toList)]
      at hrest
    have hsite := tokensOf_site number hcut hxs hrest
    rw [← hsite]
    simp only [List.append_assoc]

theorem insertsRecords {lines : List (List Char)} (hd : ∀ line ∈ lines, declares line = false)
    (number : Nat) : InsertsRecords number lines := by
  induction lines generalizing number with
  | nil =>
    intro off u _
    rw [expandLines, behind_nil, expansionsFrom, withRecords_of_lt (by simp), locate_tokens]
  | cons line lines ih =>
    intro off u ht
    have hline : declares line = false := hd line List.mem_cons_self
    have hlines := ih (fun l hl => hd l (List.mem_cons_of_mem _ hl)) (number + 1)
    have hu : off + byteSize u + 1 = off + byteSize (u ++ ['\n']) := by
      rw [Text.byteSize_append]
      rfl
    have htext (l : List Char) (ls : List (List Char)) :
        u ++ behind (l :: ls) = (u ++ ['\n']) ++ (l ++ behind ls) := by
      rw [behind_cons, List.append_assoc, List.singleton_append]
    rw [hu, htext] at ht
    rw [hu, htext, expandLines, htext]
    exact tokensOf_line hline hlines off (u ++ ['\n']) ht

/-! ### Sources -/

theorem tokens_expand {source : List Char}
    (hd : ∀ line ∈ Text.split source ['\n'], declares line = false)
    (ht : Started (expansions source) (lex source)) :
    (lex (expand source)).map Located.token = withRecords (expansions source) (lex source) := by
  obtain ⟨line, lines, hsplit, htext, -⟩ := split_lines source
  have hexpand : expand source = expandLine 1 line ++ behind (expandLines 2 lines) := by
    unfold expand
    rw [hsplit, expandLines, intercalate_lines]
  have hxs : expansions source = expansionsFrom 1 0 (line :: lines) := by
    unfold expansions
    rw [hsplit]
  rw [hsplit] at hd
  rw [hxs] at ht ⊢
  have hlines := insertsRecords (fun l hl => hd l (List.mem_cons_of_mem _ hl)) 2
  unfold lex at ht ⊢
  rw [← htext] at ht ⊢
  rw [locate_tokens, htext, hexpand, ← htext]
  exact tokensOf_line (hd line List.mem_cons_self) hlines 0 [] ht

/-- An expanded call that starts a token stands in the source as the two tokens of its opening. -/
theorem opening_tokens {source : List Char} {x : Expansion} {t : Located}
    (hx : x ∈ expansions source) (ht : t ∈ lex source) (hstart : t.span.start = x.offset) :
    ∃ front back, lex source = front ++ ⟨.ident "log", ⟨x.offset, x.offset + 3⟩⟩ ::
      ⟨.symbol .parenOpen, ⟨x.offset + 3, x.offset + 4⟩⟩ :: back := by
  obtain ⟨u, w, rfl, hoff, -⟩ := standsIn_source hx
  rw [hoff] at hstart
  obtain ⟨ps, hcut⟩ := cut_of_mem_locate ht hstart
  rw [hoff]
  exact ⟨_, _, locate_call hcut⟩

theorem count_le_byteSize (c : Char) (s : List Char) : s.count c ≤ byteSize s := by
  induction s with
  | nil => exact Nat.le_refl _
  | cons d s ih =>
    have hd := d.utf8Size_pos
    rw [List.count_cons, Text.byteSize_cons]
    split_ifs <;> omega

/-- The number of a line is an integer of the language, unless the source has 2 ^ 63 bytes or more. -/
theorem recordTokens_of_lt {source : List Char} (hsize : byteSize source < 2 ^ 63) {x : Expansion}
    (hx : x ∈ expansions source) :
    recordTokens x = [.int (Int64.ofNat x.number), .symbol .comma,
      .string (String.ofList x.argument), .symbol .comma] := by
  obtain ⟨u, w, rfl, -, hnum⟩ := standsIn_source hx
  have hopening : byteSize opening = 4 := rfl
  have hcount := count_le_byteSize '\n' u
  have hlt : x.number < 2 ^ 63 := by
    rw [Text.byteSize_append, Text.byteSize_append, hopening] at hsize
    omega
  unfold recordTokens numeral
  rw [if_pos hlt]

/-- **Expansion of tokens.**  When a source holds no short declaration and each call that is expanded
starts a token of it, the expanded source has the tokens of the source, with the number of the line,
the text of the argument and their commas behind the opening of each of these calls, and no others. -/
theorem lex_expand (source : List Char)
    (hd : ∀ line ∈ Text.split source ['\n'], declares line = false)
    (ht : ∀ x ∈ expansions source, ∃ t ∈ lex source, t.span.start = x.offset) :
    (lex (expand source)).map Located.token = withRecords (expansions source) (lex source) ∧
    (∀ x ∈ expansions source,
      (∃ u w, source = u ++ (opening ++ (x.argument ++ ");".toList ++ w)) ∧
        x.offset = byteSize u ∧ x.number = 1 + u.count '\n') ∧
      ∃ front back, lex source = front ++ ⟨.ident "log", ⟨x.offset, x.offset + 3⟩⟩ ::
        ⟨.symbol .parenOpen, ⟨x.offset + 3, x.offset + 4⟩⟩ :: back) ∧
    (byteSize source < 2 ^ 63 → ∀ x ∈ expansions source,
      recordTokens x = [.int (Int64.ofNat x.number), .symbol .comma,
        .string (String.ofList x.argument), .symbol .comma]) := by
  refine ⟨tokens_expand hd ht, fun x hx => ⟨?_, ?_⟩, fun hsize x hx => recordTokens_of_lt hsize hx⟩
  · obtain ⟨u, w, htext, hoff, hnum⟩ := standsIn_source hx
    exact ⟨u, w, htext, by rw [hoff, Nat.zero_add], hnum⟩
  · obtain ⟨t, hmem, hstart⟩ := ht x hx
    exact opening_tokens hx hmem hstart

/-- A source whose second line is expanded, in front of a string that is never closed. -/
def unclosed : List Char := "a\n\tlog(\"b\\\\\" + c); /* d\n\"e".toList

theorem unclosed_no_declaration : ∀ line ∈ Text.split unclosed ['\n'], declares line = false := by
  decide

theorem unclosed_started : ∀ x ∈ expansions unclosed, ∃ t ∈ lex unclosed, t.span.start = x.offset := by
  decide

theorem lex_expand_unclosed :
    (∀ line ∈ Text.split unclosed ['\n'], declares line = false) ∧
    (∀ x ∈ expansions unclosed, ∃ t ∈ lex unclosed, t.span.start = x.offset) ∧
    (lex (expand unclosed)).map Located.token =
      [.ident "a", .ident "log", .symbol .parenOpen, .int 2, .symbol .comma,
        .string "\"b\\\\\" + c", .symbol .comma, .string "b\\", .symbol .plus, .ident "c",
        .symbol .parenClose, .symbol .semicolon, .unknown "/* d\n\"e"] :=
  ⟨unclosed_no_declaration, unclosed_started,
    (lex_expand unclosed unclosed_no_declaration unclosed_started).1.trans (by decide +kernel)⟩
end ReportTemplate.LogCall
