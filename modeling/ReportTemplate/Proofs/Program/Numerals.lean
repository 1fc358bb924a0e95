import ReportTemplate.Machine
import ReportTemplate.Program.Compile
import ReportTemplate.Proofs.Grammar.Accepted
import ReportTemplate.Proofs.Grammar.Heads
import ReportTemplate.Proofs.Library.Decimals
import ReportTemplate.Proofs.Scoped.Follows
import ReportTemplate.Proofs.Token.Literals

/-!
# ReportTemplate.Proofs.Program.Numerals — the text of an integer reads back

The decimal text of an integer has two readers.  `int` takes the sign and the digits together.  A
source has no negative literals: there the text of a negative integer is a minus sign in front of the
digits of its magnitude, and the operator gives the integer back.  The magnitude of the least integer
is no integer itself, so its text is read by `int` only.
-/

namespace ReportTemplate

open Text (byteSize)

/-! ### The text among other texts -/

namespace Lexer

/-- A text stands in a source as a number can: a token begins with it, and nothing behind it makes the
number longer. -/
structure Stands (front text after : List Char) : Prop where
  begins : ∃ t ∈ lex (front ++ (text ++ after)), t.span.start = byteSize front
  ends : EndsNumber after

/-- The text of an integer in pieces: its sign, if it is negative, and its magnitude. -/
def intPieces (n : Int64) : List Piece :=
  if n.toInt < 0 then [⟨.token (.symbol .minus), ['-']⟩,
    ⟨.token (numeral n.toInt.natAbs), Value.magnitude n⟩]
  else [⟨.token (numeral n.toInt.natAbs), Value.magnitude n⟩]

theorem textOf_intPieces (n : Int64) : textOf (intPieces n) = (Value.intText n).toList := by
  rw [Value.intText_toList, intPieces]
  split <;> simp

theorem pieces_intText (n : Int64) {r : List Char} (hr : EndsNumber r) :
    pieces ((Value.intText n).toList ++ r) = intPieces n ++ pieces r := by
  have hmagnitude : pieces (Value.magnitude n ++ r) =
      ⟨.token (numeral n.toInt.natAbs), Value.magnitude n⟩ :: pieces r := pieces_numeral _ hr
  rw [Value.intText_toList, intPieces]
  split
  · rw [List.cons_append, List.cons_append, List.cons_append, List.nil_append, ← hmagnitude]
    cases hn : Value.magnitude n with
    | nil => exact absurd hn Nat.toDigits_ne_nil
    | cons c ds =>
      have hmem : c ∈ Value.magnitude n := hn ▸ List.mem_cons_self
      exact pieces_minus (Number.isDigit_of_mem_toDigits hmem) (ds ++ r)
  · exact hmagnitude

theorem stop_le_of_mem_locate {off : Nat} {ps : List Piece} {t : Located} (h : t ∈ locate off ps) :
    t.span.stop ≤ off + byteSize (textOf ps) := by
  obtain ⟨qs, s, rs, rfl, hspan⟩ := mem_locate h
  rw [hspan, textOf_append, textOf_cons, Text.byteSize_append, Text.byteSize_append]
  dsimp only
  omega

/-- The tokens of a source in front of a text in it, those of the text, and those behind it. -/
structure Splits (front text after : List Char) (us ts vs : List Located) : Prop where
  tokens : lex (front ++ (text ++ after)) = us ++ (ts ++ vs)
  ahead : ∀ t ∈ us, t.span.stop ≤ byteSize front
  inside : ∀ t ∈ ts, byteSize front ≤ t.span.start ∧ t.span.stop ≤ byteSize (front ++ text)
  behind : ∀ t ∈ vs, byteSize (front ++ text) ≤ t.span.start
  /-- What stands in front does not change how the text behind is cut. -/
  alone : vs.map Located.token = (lex after).map Located.token

/-- What stands around the text of an integer does not change how it is cut. -/
theorem splits_int (n : Int64) {front after : List Char}
    (h : Stands front (Value.intText n).toList after) :
    ∃ us, Splits front (Value.intText n).toList after us (locate (byteSize front) (intPieces n))
      (locate (byteSize (front ++ (Value.intText n).toList)) (pieces after)) := by
  obtain ⟨t, ht, hstart⟩ := h.begins
  obtain ⟨ps, hcut⟩ := cut_of_mem_locate ht (by rw [hstart, Nat.zero_add])
  refine ⟨locate 0 ps, ?_, fun t ht => ?_, fun t ht => ⟨le_start_of_mem_locate ht, ?_⟩,
    fun t ht => le_start_of_mem_locate ht, ?_⟩
  · rw [lex, hcut.locate_append, pieces_intText n h.ends, locate_append, textOf_intPieces,
      Text.byteSize_append, Nat.zero_add]
  · have hstop := stop_le_of_mem_locate ht
    rwa [hcut.textOf_eq, Nat.zero_add] at hstop
  · have hstop := stop_le_of_mem_locate ht
    rwa [textOf_intPieces, ← Text.byteSize_append] at hstop
  · rw [lex, locate_tokens, locate_tokens]

/-- Each magnitude but that of the least integer is an integer. -/
theorem exists_numeral {n : Int64} (hn : n ≠ Int64.minValue) :
    ∃ m : Int64, numeral n.toInt.natAbs = .int m ∧ m.toInt = n.toInt.natAbs := by
  have low := n.le_toInt
  have high := n.toInt_lt
  have hne : n.toInt ≠ -2 ^ 63 := fun h => hn (Int64.toInt_inj.1 (h.trans Int64.toInt_minValue.symm))
  have hlt : n.toInt.natAbs < 2 ^ 63 := by omega
  exact ⟨Int64.ofNat n.toInt.natAbs, if_pos hlt, Int64.toInt_ofNat_of_lt hlt⟩

theorem known_of_mem_intPieces {n : Int64} (hn : n ≠ Int64.minValue) {t : Token}
    (h : t ∈ tokensOf (intPieces n)) (text : String) : t ≠ .unknown text := by
  obtain ⟨m, hnumeral, -⟩ := exists_numeral hn
  unfold intPieces at h
  rw [hnumeral] at h
  split at h
  · rcases List.mem_cons.1 h with rfl | h
    · exact nofun
    · obtain rfl := List.mem_singleton.1 h
      exact nofun
  · obtain rfl := List.mem_singleton.1 h
    exact nofun

theorem numeral_least : numeral Int64.minValue.toInt.natAbs = .unknown "9223372036854775808" := by
  decide

end Lexer

/-! ### The expression -/

namespace Syntax

/-- The trees for an integer: a literal, or a minus sign in front of one. -/
inductive Writes (n : Int64) : Expr → Prop
  | literal (span : Span) : Writes n (.literal span (.int n))
  | negative (span inner : Span) {m : Int64} (h : -m.toInt = n.toInt) :
    Writes n (.unary span .negate (.literal inner (.int m)))

theorem eval_negative {m n : Int64} (h : -m.toInt = n.toInt) (line inner : Nat) (f : Machine.Frame)
    (s : Machine.State) :
    Machine.eval f (.unary line .negate (.const inner (.int m))) s = .ok (.int n) s := by
  have hvalue : Value.unary .negate (.int m) = .ok (.int n) := by
    show Value.exact (-m.toInt) = _
    rw [h, Value.exact, Library.ofInt?_toInt]
  show Machine.attempt f line .refused (Value.unary .negate (.int m)) s = _
  rw [hvalue]
  rfl

/-- Nothing is reported about an integer, and its value is the same wherever it stands. -/
theorem Writes.value {n : Int64} {e : Expr} (h : Writes n e) (S : Program.Surroundings)
    (σ : Program.Scope) : ∃ x, Program.Resolve.expr S e σ = ((x, .int), σ) ∧
      ∀ (f : Machine.Frame) (s : Machine.State), Machine.eval f x s = .ok (.int n) s := by
  cases h with
  | literal span => exact ⟨_, rfl, fun f s => rfl⟩
  | negative span inner hm => exact ⟨_, rfl, eval_negative hm _ _⟩

/-- Tokens are read as an expression in front of others: as an operand if no suffix follows, and as a
whole expression if no operator follows either. -/
structure ReadAs (ts vs : List Located) (e : Expr) : Prop where
  operand : Clear Grammar.unary.goesOn vs → ∀ c : Cursor, c.rest = ts ++ vs →
    Parser.result (unary expr) c = some (e, c.past ts vs)
  whole : Clear (Nonterminal.goesOn .expr) vs → ∀ c : Cursor, c.rest = ts ++ vs →
    Parser.result expr c = some (e, c.past ts vs)

theorem Derives.readAs {ts : List Located} {e : Expr} (h : Derives Grammar.unary ts e)
    (vs : List Located) : ReadAs ts vs e where
  operand hclear c hrest := by
    have hread : Parser.result (Grammar.unary.parser readers) c = some (e, c.past ts vs) :=
      h.reads rfl Grammar.labelsFit_unary c vs hrest
        (Grammar.unary.ends_of_clear rfl (by decide) hclear)
    rwa [Grammar.parser_unary] at hread
  whole hclear c hrest := (Grammar.expr_of_unary h).reads rfl trivial c vs hrest hclear

/-- The tokens of an integer, unless it is the least one, are read as an expression for it. -/
theorem derives_int {n : Int64} (hn : n ≠ Int64.minValue) (off : Nat) :
    ∃ e, Derives Grammar.unary (Lexer.locate off (Lexer.intPieces n)) e ∧ Writes n e := by
  obtain ⟨m, hnumeral, hm⟩ := Lexer.exists_numeral hn
  unfold Lexer.intPieces
  split
  next hneg =>
    exact ⟨_, Grammar.unary_negative rfl hnumeral, .negative _ _ (by omega)⟩
  next hpos =>
    obtain rfl : m = n := Int64.toInt_inj.1 (by omega)
    exact ⟨_, Grammar.unary_of_operand (Grammar.operand_int hnumeral), .literal _⟩

/-- A source in which the least integer stands is not read. -/
theorem parse_least {front after : List Char}
    (h : Lexer.Stands front (Value.intText Int64.minValue).toList after) (f : File) :
    parse (front ++ ((Value.intText Int64.minValue).toList ++ after)) ≠ .ok f := by
  intro hparse
  obtain ⟨us, hsplits⟩ := Lexer.splits_int Int64.minValue h
  obtain ⟨t, ht, htoken⟩ : ∃ t ∈ Lexer.locate (byteSize front) (Lexer.intPieces Int64.minValue),
      t.token = .unknown "9223372036854775808" :=
    ⟨_, List.mem_cons_of_mem _ List.mem_cons_self, Lexer.numeral_least⟩
  refine ((parse_derives _).1 f).1 hparse |>.1 t ?_ _ htoken
  rw [hsplits.tokens]
  exact List.mem_append_right _ (List.mem_append_left _ ht)

end Syntax

/-! ### A whole template -/

namespace Program

/-- What stands in front of the `return` of a template with one method. -/
def opening : List Char := "class T \x7b static fn value() \x7b ".toList

def closing : List Char := "; \x7d \x7d".toList

/-- The tokens in front of the expression, `return` included. -/
def openingTokens : List Token :=
  [.keyword .classKw, .ident "T", .symbol .braceOpen, .keyword .staticKw, .keyword .fnKw,
    .ident "value", .symbol .parenOpen, .symbol .parenClose, .symbol .braceOpen, .keyword .returnKw]

def closingTokens : List Token := [.symbol .semicolon, .symbol .braceClose, .symbol .braceClose]

/-- A template whose one method returns an expression. -/
def returning (text : List Char) : List Char :=
  opening ++ 'r' :: ("eturn".toList ++ ' ' :: (text ++ closing))

section

open Lexer

theorem pieces_return (w : List Char) :
    pieces ('r' :: ("eturn".toList ++ ' ' :: w)) =
      ⟨.token (.keyword .returnKw), "return".toList⟩ :: pieces (' ' :: w) := by
  have hword : munch 'r' ("eturn".toList ++ ' ' :: w) = (.token (.keyword .returnKw), 5) := by
    rw [munch_word _ rfl rfl, takeWhile_append_stop rfl]
    decide
  exact pieces_of_munch hword

/-- The tokens in front of the expression do not depend on it. -/
theorem lex_opening : ∃ us off, us.map Located.token = openingTokens ∧
    ∀ w, lex (opening ++ 'r' :: ("eturn".toList ++ ' ' :: w)) = us ++ locate off (pieces w) := by
  obtain ⟨ps, hcut⟩ : ∃ ps, Cut ['r'] opening ps := by
    have hstarts : ∃ t ∈ locate 0 (pieces (opening ++ ['r'])),
        t.span.start = 0 + byteSize opening := by decide
    obtain ⟨t, ht, hstart⟩ := hstarts
    exact cut_of_mem_locate ht hstart
  have htokens : tokensOf ps = openingTokens.dropLast := by
    have happend : tokensOf ps ++ tokensOf (pieces ['r']) =
        openingTokens.dropLast ++ tokensOf (pieces ['r']) := by
      rw [← tokensOf_append, ← hcut.pieces_append]
      decide
    exact List.append_cancel_right happend
  refine ⟨locate 0 ps ++ [⟨.keyword .returnKw, ⟨byteSize opening, byteSize opening + 6⟩⟩],
    byteSize opening + 6 + 1, ?_, fun w => ?_⟩
  · rw [List.map_append, locate_tokens, htokens]
    rfl
  · rw [lex, (hcut.congr rfl _).locate_append, pieces_return, locate_token, locate_separator rfl,
      Nat.zero_add, List.append_assoc]
    rfl

theorem lex_returning (n : Int64) : ∃ us off vs,
    us.map Located.token = openingTokens ∧ vs.map Located.token = closingTokens ∧
    lex (returning (Value.intText n).toList) = us ++ (locate off (intPieces n) ++ vs) := by
  obtain ⟨us, off, hus, hlex⟩ := lex_opening
  have hends : EndsNumber closing := by decide
  have hvs : ∀ off, (locate off (pieces closing)).map Located.token = closingTokens := by
    intro off
    rw [locate_tokens]
    decide
  refine ⟨us, off, _, hus, hvs (off + byteSize (textOf (intPieces n))), ?_⟩
  rw [returning, hlex, pieces_intText n hends, locate_append]

end

/-- The tree of a template whose one method returns an expression. -/
def treeOf (outer name inner methodName result : Span) (e : Syntax.Expr) : Syntax.File :=
  ⟨[.mk outer ⟨"T", name⟩
    [.inl ⟨inner, true, ⟨"value", methodName⟩, [], none, [.result result (some e)]⟩]]⟩

open Syntax Phrase Grammar in
theorem derives_returning {us ts vs : List Located} {e : Syntax.Expr}
    (hus : us.map Located.token = openingTokens) (he : Derives Grammar.expr ts e)
    (hvs : vs.map Located.token = closingTokens) :
    ∃ outer name inner methodName result,
      Derives Grammar.file (us ++ (ts ++ vs)) (treeOf outer name inner methodName result e) := by
  simp only [openingTokens, closingTokens, List.map_eq_cons_iff, List.map_eq_nil_iff] at hus hvs
  obtain ⟨classKw, _, rfl, hclass, name, _, rfl, hname, classOpen, _, rfl, hclassOpen, staticKw, _,
    rfl, hstatic, fnKw, _, rfl, hfn, methodName, _, rfl, hmethodName, parenOpen, _, rfl, hparenOpen,
    parenClose, _, rfl, hparenClose, blockOpen, _, rfl, hblockOpen, returnKw, _, rfl, hreturn,
    rfl⟩ := hus
  obtain ⟨semicolon, _, rfl, hsemicolon, blockClose, _, rfl, hblockClose, classClose, _, rfl,
    hclassClose, rfl⟩ := hvs
  have hstmt : Derives stmt _ _ := .right (.right (.right (.right (.left
    ((Derives.fixed hreturn).preceded (he.present.followed (.fixed hsemicolon))).spanned.map))))
  have hblock : Derives block _ _ :=
    .rule (.enclosed hblockOpen (hstmt.labelled.cons .nil) hblockClose)
  have hstaticFn : Derives (.map Option.isSome (after (.optional (keyword .staticKw))
      (keyword .fnKw))) [staticKw, fnKw] true :=
    ((Derives.present (.fixed hstatic)).followed (.fixed hfn)).map
  have hmethodIdent : Derives ident [methodName] ⟨"value", methodName.span⟩ :=
    (Derives.name hmethodName).spanned.map
  have hparams : Derives (between .parenOpen .parenClose (.items param)) _ [] :=
    .enclosed hparenOpen .noItems hparenClose
  have hmethod : Derives method _ _ :=
    (hstaticFn.seq (hmethodIdent.seq (hparams.seq (Derives.absent.seq hblock)))).spanned.map
  have hclassIdent : Derives ident [name] ⟨"T", name.span⟩ := (Derives.name hname).spanned.map
  have hclassDecl : Derives (.rule .classDecl) _ _ :=
    .rule ((Derives.fixed hclass).preceded (hclassIdent.seq
      (.enclosed hclassOpen (.cons (.left hmethod.map) .nil) hclassClose))).spanned.map
  have hfile : Derives Grammar.file _ _ := (hclassDecl.cons .nil).map
  simp only [List.append_eq, List.append_assoc, List.cons_append, List.nil_append,
    List.append_nil] at hfile
  exact ⟨_, _, _, _, _, hfile⟩

/-- What the template is compiled to. -/
def programOf (line : Nat) (x : Expr) : Program :=
  ⟨[⟨"T", "T", false, [0]⟩], [⟨⟨"value", true, [], .void⟩, 0, 0, [.result line (some x)]⟩]⟩

theorem ofFile_treeOf {n : Int64} {e : Syntax.Expr} (h : Syntax.Writes n e) (refs : ReferenceSet)
    (policy : WarningPolicy) (source : List Char) (outer name inner methodName result : Span) :
    ∃ line x, ofFile refs policy source (treeOf outer name inner methodName result e) =
        .ok ⟨programOf line x, []⟩ ∧
      ∀ f s, Machine.eval f x s = .ok (.int n) s := by
  obtain ⟨line, x, hresolve, hvalue⟩ : ∃ line x, resolve refs (LineIndex.ofSource source)
      (treeOf outer name inner methodName result e) = (programOf line x, []) ∧
        ∀ f s, Machine.eval f x s = .ok (.int n) s := by
    cases h with
    | literal span => exact ⟨_, .const _ _, rfl, fun f s => rfl⟩
    | negative span inner hm => exact ⟨_, .unary _ _ _, rfl, Syntax.eval_negative hm _ _⟩
  refine ⟨line, x, ?_, hvalue⟩
  rw [ofFile, hresolve]
  simp [byPlace]

theorem invoke_programOf {n : Int64} {x : Expr}
    (h : ∀ f s, Machine.eval f x s = .ok (.int n) s) (line steps depth : Nat)
    (world : Machine.World) :
    Machine.invoke (programOf line x) steps depth 0 [] world = .ok (.int n) world := by
  have hbody : ∀ f s, Machine.execAll f [.result line (some x)] s = .ok (.returned (.int n)) s := by
    intro f s
    have hresult : Machine.exec f (.result line (some x)) s = .ok (.returned (.int n)) s := by
      rw [Machine.exec, Scoped.run_bind_ok (h f s)]
      rfl
    rw [Machine.execAll, Scoped.run_bind_ok hresult]
    rfl
  have hrun : ∀ call?,
      Machine.run (programOf line x) steps call? 0 [] world = .ok (.int n) world := by
    intro call?
    simp only [Machine.run, programOf, List.getElem?_cons_zero, hbody, Machine.Flow.value]
  cases depth <;> exact hrun _

/-- A template that returns an integer gives it. -/
theorem compile_returning {n : Int64} (hn : n ≠ Int64.minValue) (refs : ReferenceSet)
    (policy : WarningPolicy) :
    ∃ program, compile refs policy (returning (Value.intText n).toList) = .ok ⟨program, []⟩ ∧
      ∀ steps depth world, Machine.invoke program steps depth 0 [] world = .ok (.int n) world := by
  obtain ⟨us, off, vs, hus, hvs, htokens⟩ := lex_returning n
  obtain ⟨e, he, hwrites⟩ := Syntax.derives_int hn off
  obtain ⟨outer, name, inner, methodName, result, hfile⟩ :=
    derives_returning hus (Syntax.Grammar.expr_of_unary he) hvs
  rw [← htokens] at hfile
  have hknown : ∀ t ∈ lex (returning (Value.intText n).toList), ∀ text,
      t.token ≠ .unknown text := by
    intro t ht text
    have hmem := List.mem_map_of_mem (f := Located.token) ht
    rw [htokens, List.map_append, List.map_append, hus, hvs, Lexer.locate_tokens, List.mem_append,
      List.mem_append] at hmem
    rcases hmem with hmem | hmem | hmem
    · rintro heq
      simp [openingTokens, heq] at hmem
    · exact Lexer.known_of_mem_intPieces hn hmem text
    · rintro heq
      simp [closingTokens, heq] at hmem
  have hparse := ((Syntax.parse_derives _).1 _).2 ⟨hknown, hfile⟩
  obtain ⟨line, x, hcompiled, hvalue⟩ := ofFile_treeOf hwrites refs policy
    (returning (Value.intText n).toList) outer name inner methodName result
  refine ⟨programOf line x, ?_, invoke_programOf hvalue line⟩
  rw [compile, hparse]
  exact hcompiled

/-- **Every integer reads back from its decimal text.**  The least integer alone cannot be written in a
source, where its magnitude would have to be an integer. -/
theorem ints_read_back (n : Int64) : ∃ t : String,
    Library.Core.str (.int n) = .ok (.str t) ∧ Library.Core.int (.str t) = .ok (.int n) ∧
    (n ≠ Int64.minValue →
      (∀ front after, Lexer.Stands front t.toList after → ∃ us ts vs e,
        Lexer.Splits front t.toList after us ts vs ∧ Syntax.ReadAs ts vs e ∧
        ∀ S σ, ∃ x, Resolve.expr S e σ = ((x, .int), σ) ∧
          ∀ f s, Machine.eval f x s = .ok (.int n) s) ∧
      ∀ refs policy, ∃ program,
        compile refs policy (returning t.toList) = .ok ⟨program, []⟩ ∧
        ∀ steps depth world,
          Machine.invoke program steps depth 0 [] world = .ok (.int n) world) ∧
    (n = Int64.minValue → ∀ front after, Lexer.Stands front t.toList after →
      ∀ f, Syntax.parse (front ++ (t.toList ++ after)) ≠ .ok f) := by
  refine ⟨Value.intText n, Library.Core.str_int n, Library.Core.int_intText n, fun hn =>
    ⟨fun front after h => ?_, compile_returning hn⟩, ?_⟩
  · obtain ⟨us, hsplits⟩ := Lexer.splits_int n h
    obtain ⟨e, he, hwrites⟩ := Syntax.derives_int hn (byteSize front)
    exact ⟨us, _, _, e, hsplits, he.readAs _, hwrites.value⟩
  · rintro rfl front after h
    exact Syntax.parse_least h

/-- A negative integer among the arguments of a call. -/
theorem ints_read_back_argument :
    let front := "class T \x7b static fn f() \x7b g(1, ".toList
    let after := "); \x7d \x7d".toList
    Library.Core.int (.str "-42") = .ok (.int (-42)) ∧ ∃ us ts vs e,
      Lexer.Splits front "-42".toList after us ts vs ∧
      (∀ c : Syntax.Cursor, c.rest = ts ++ vs →
        Syntax.Parser.result Syntax.expr c = some (e, c.past ts vs)) ∧
      ∀ S σ, ∃ x, Resolve.expr S e σ = ((x, .int), σ) ∧
        ∀ f s, Machine.eval f x s = .ok (.int (-42)) s := by
  intro front after
  obtain ⟨t, htext, hint, hwritten, -⟩ := ints_read_back (-42)
  obtain rfl : "-42" = t := by
    have hstr : Library.Core.str (.int (-42)) = .ok (.str "-42") := by rfl
    simpa using hstr.symm.trans htext
  have hstands : Lexer.Stands front "-42".toList after := ⟨by decide +kernel, by decide +kernel⟩
  obtain ⟨us, ts, vs, e, hsplits, hread, hvalue⟩ := (hwritten (by decide)).1 front after hstands
  have halone := hsplits.alone
  rw [show (lex after).map Located.token = [.symbol .parenClose, .symbol .semicolon,
    .symbol .braceClose, .symbol .braceClose] by decide +kernel] at halone
  obtain ⟨paren, vs, rfl, hparen, -⟩ := List.map_eq_cons_iff.1 halone
  have hclear : Syntax.Clear (Syntax.Nonterminal.goesOn .expr) (paren :: vs) :=
    .of_mark (m := .symbol .parenClose) hparen (by decide +kernel)
  exact ⟨hint, us, ts, _, e, hsplits, hread.whole hclear, hvalue⟩

/-- The text of the least integer is reported, because its magnitude is out of range. -/
theorem least_int_not_written :
    Library.Core.str (.int Int64.minValue) = .ok (.str "-9223372036854775808") ∧
      Syntax.parse (returning "-9223372036854775808".toList) =
        .error [⟨.unexpectedToken, "integer literal 9223372036854775808 is out of range", ⟨38, 57⟩,
          [], false⟩] := by
  refine ⟨by rfl, ?_⟩
  have hfound : (((Syntax.parse (returning "-9223372036854775808".toList)).map
      fun _ => []).tryCatch .ok).toOption = some [⟨.unexpectedToken,
        "integer literal 9223372036854775808 is out of range", ⟨38, 57⟩, [], false⟩] := by
    decide +kernel
  cases hparse : Syntax.parse (returning "-9223372036854775808".toList) with
  | error ds =>
    rw [hparse] at hfound
    exact congrArg Except.error (Option.some.inj hfound)
  | ok f =>
    rw [hparse] at hfound
    cases hfound

end Program

end ReportTemplate
